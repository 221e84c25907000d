import Nullspace.Base.Holdings
import Nullspace.Base.Machine
import Nullspace.Client.Readable

/-!
# Downloads into one directory

A download chooses a path at which nothing is, writes a file of its own beside it, and moves
this one to the path when it is complete. Between the choice and the move anything can come
to be there: a file at the path is taken for the download itself, or written over.

`apart_of_clear` says what the downloads rely on.
-/

namespace Nullspace

open Nullspace.Base

variable {P : Primitives}

/-- The name of a file in the directory. -/
abbrev FileName := List Char

/-- What stands under a name. -/
inductive DirEntry where
  | file (content : Bytes)
  | directory
deriving DecidableEq

/-- The entry is a file. -/
def DirEntry.isFile : DirEntry → Bool
  | .file _ => true
  | .directory => false

/-- `char::is_control`. -/
def isControl (char : Char) : Bool :=
  char.toNat < 0x20 || (0x7F ≤ char.toNat && char.toNat < 0xA0)

/-- `char::is_whitespace`. -/
def isWhitespace (char : Char) : Bool :=
  (0x9 ≤ char.toNat && char.toNat ≤ 0xD) || (0x2000 ≤ char.toNat && char.toNat ≤ 0x200A) ||
    [0x20, 0x85, 0xA0, 0x1680, 0x2028, 0x2029, 0x202F, 0x205F, 0x3000].contains char.toNat

/-- `str::trim`. -/
def trim (name : FileName) : FileName :=
  ((name.dropWhile isWhitespace).reverse.dropWhile isWhitespace).reverse

def sanitizeFilename (name : FileName) : FileName :=
  match trim (name.filter fun char => char ≠ '/' && char ≠ '\\' && !isControl char) with
  | [] => "attachment.bin".toList
  | trimmed => trimmed

/-- `split_extension`, at the last dot. -/
def splitExtension (filename : FileName) : FileName × FileName :=
  match (filename.reverse.takeWhile (· ≠ '.')).reverse, filename.reverse.dropWhile (· ≠ '.') with
  | char :: ext, _ :: first :: stem => ((first :: stem).reverse, char :: ext)
  | _, _ => (filename, [])

/-- The names which `unique_path` tries. -/
def candidate (filename : FileName) : Nat → FileName
  | 0 => filename
  | index + 1 =>
      match splitExtension filename with
      | (stem, []) => stem ++ " (".toList ++ (index + 1).repr.toList ++ ")".toList
      | (stem, ext) => stem ++ " (".toList ++ (index + 1).repr.toList ++ ").".toList ++ ext

/-- `create_temp_path`, with its nonce in hexadecimal. -/
def tempName (target : FileName) (nonce : UInt64) : FileName :=
  target ++ ".part.".toList ++
    ((List.range 16).map fun index => Nat.digitChar (nonce.toNat / 16 ^ (15 - index) % 16))

/-- How far `download_inner` is. -/
inductive SavePhase where
  /-- `unique_path` has found the names before this one taken. -/
  | choosing (index : Nat)
  | chosen (target : FileName)
  /-- Its own file is there, and is being written. -/
  | created (target temp : FileName)
  | transferred (target temp : FileName) (content : Bytes)
  /-- `finalize_atomic_file` has found no file at the target. -/
  | renaming (target temp : FileName) (content : Bytes)
  | finalized (target : FileName) (content : Bytes)
deriving DecidableEq

/-- A run of `download_inner`. -/
structure SaveRun (P : Primitives) where
  id : P.Hash
  filename : FileName
  phase : SavePhase
deriving DecidableEq

/-- A run which ended with `DownloadDone`, and what it had downloaded. -/
structure SaveDone (P : Primitives) where
  id : P.Hash
  path : FileName
  content : Bytes
deriving DecidableEq

/-- The directory, the client's tables, and the downloads. -/
structure SavedFiles (P : Primitives) where
  files : Table FileName DirEntry
  roots : Table P.Hash (Attachment P × UserName)
  attachmentPaths : Table P.Hash FileName
  runs : List (SaveRun P)
  done : List (SaveDone P)

inductive SaveEvent (P : Primitives) where
  | start (id : P.Hash)
  /-- `unique_path` looks at its next name. -/
  | probe (index : Nat)
  /-- A file of its own is created, under a name which is free. -/
  | create (index : Nat) (nonce : UInt64)
  /-- The transfer is complete. -/
  | transfer (index : Nat) (content : Bytes)
  /-- `finalize_atomic_file` asks what is at the target. -/
  | check (index : Nat)
  /-- It moves its file to the target. A file system may refuse to replace a file. -/
  | rename (index : Nat) (replaces : Bool)
  /-- The path is recorded, and the run ends with `DownloadDone`. -/
  | record (index : Nat)
  /-- The run ends in an error. -/
  | fail (index : Nat)

namespace SavedFiles

def setPhase (state : SavedFiles P) (index : Nat) (run : SaveRun P) (phase : SavePhase) :
    SavedFiles P :=
  { state with runs := state.runs.set index { run with phase := phase } }

def withFiles (state : SavedFiles P) (files : Table FileName DirEntry) : SavedFiles P :=
  { state with files := files }

/-- What a file has in it; nothing for what is no file. -/
def contentAt (state : SavedFiles P) (name : FileName) : Option Bytes :=
  match state.files.lookup name with
  | some (.file content) => some content
  | _ => none

/-- `download_inner` up to the choice of a path. An attachment which is being downloaded is
left alone. -/
def start (state : SavedFiles P) (id : P.Hash) : SavedFiles P :=
  if state.runs.any fun run => run.id = id then state
  else
    match state.roots.lookup id with
    | none => state
    | some (root, _) =>
        { state with
          runs := state.runs ++ [⟨id, sanitizeFilename root.filename.toList, .choosing 0⟩] }

/-- The next step of a run, if it can be this one. -/
def advance (state : SavedFiles P) (index : Nat) (run : SaveRun P) :
    SaveEvent P → Option (SavedFiles P)
  | .probe _ =>
      match run.phase with
      | .choosing tried =>
          if candidate run.filename tried ∉ state.files then
            some (state.setPhase index run (.chosen (candidate run.filename tried)))
          else if tried = 9999 then some { state with runs := state.runs.eraseIdx index }
          else some (state.setPhase index run (.choosing (tried + 1)))
      | _ => none
  | .create _ nonce =>
      match run.phase with
      | .chosen target =>
          if tempName target nonce ∈ state.files then none
          else
            some ((state.withFiles (state.files.insert (tempName target nonce) (.file []))).setPhase
              index run (.created target (tempName target nonce)))
      | _ => none
  | .transfer _ content =>
      match run.phase with
      | .created target temp =>
          some ((state.withFiles (state.files.insert temp (.file content))).setPhase index run
            (.transferred target temp content))
      | _ => none
  | .check _ =>
      match run.phase with
      | .transferred target temp content =>
          match state.files.lookup target with
          | some (.file _) =>
              some ((state.withFiles (state.files.erase temp)).setPhase index run
                (.finalized target content))
          | _ => some (state.setPhase index run (.renaming target temp content))
      | _ => none
  | .rename _ replaces =>
      match run.phase with
      | .renaming target temp content =>
          match state.files.lookup temp, state.files.lookup target with
          | none, _ | _, some .directory => some { state with runs := state.runs.eraseIdx index }
          | some entry, found =>
              if found.isSome && !replaces then
                some ((state.withFiles (state.files.erase temp)).setPhase index run
                  (.finalized target content))
              else
                some ((state.withFiles ((state.files.erase temp).insert target entry)).setPhase
                  index run (.finalized target content))
      | _ => none
  | .record _ =>
      match run.phase with
      | .finalized target content =>
          some { state with
            attachmentPaths := state.attachmentPaths.insert run.id target
            runs := state.runs.eraseIdx index
            done := state.done ++ [⟨run.id, target, content⟩] }
      | _ => none
  | .fail _ => some { state with runs := state.runs.eraseIdx index }
  | .start _ => none

/-- The run which an event is about. -/
def indexOf : SaveEvent P → Option Nat
  | .start _ => none
  | .probe index | .create index _ | .transfer index _ | .check index | .rename index _
  | .record index | .fail index => some index

/-- Downloads with their steps in any order. -/
def machine : Machine (SavedFiles P) (SaveEvent P) where
  step state event :=
    match event with
    | .start id => some (state.start id)
    | event =>
        match indexOf event with
        | none => none
        | some index =>
            match state.runs[index]? with
            | none => none
            | some run => state.advance index run event

/-- Every finished download has its own content at its path, and the path recorded for its
attachment is the one of a finished download of it. -/
structure Apart (state : SavedFiles P) : Prop where
  contents : ∀ done ∈ state.done, state.contentAt done.path = some done.content
  recorded : ∀ done ∈ state.done, ∃ last ∈ state.done, last.id = done.id ∧
    state.attachmentPaths.lookup done.id = some last.path

/-- Where a run which is being finalized moves its file to. -/
def target? : SavePhase → Option FileName
  | .transferred target _ _ | .renaming target _ _ => some target
  | _ => none

/-- No file is at the target of the run. -/
def Free (state : SavedFiles P) (index : Nat) : Prop :=
  ∀ run ∈ state.runs[index]?, ∀ target ∈ target? run.phase, state.contentAt target = none

/-- No file is at the target when a download asks what is there, and when it moves its own. -/
def Clear (state : SavedFiles P) : SaveEvent P → Prop
  | .check index | .rename index _ => state.Free index
  | _ => True

instance (state : SavedFiles P) (index : Nat) : Decidable (state.Free index) :=
  inferInstanceAs (Decidable (∀ run ∈ state.runs[index]?, ∀ target ∈ target? run.phase,
    state.contentAt target = none))

instance (state : SavedFiles P) : (event : SaveEvent P) → Decidable (state.Clear event)
  | .check index | .rename index _ => inferInstanceAs (Decidable (state.Free index))
  | .start _ | .probe _ | .create _ _ | .transfer _ _ | .record _ | .fail _ => .isTrue trivial

/-- The entry is a file with this content. -/
def hasContent (content : Bytes) (entry : DirEntry) : Prop := entry = .file content

/-- The file of a run, its own or the one at its target. -/
def phaseHoldings : SavePhase → List (Holding FileName DirEntry)
  | .choosing _ | .chosen _ => []
  | .created _ temp => [(temp, fun entry => entry.isFile = true)]
  | .transferred _ temp content | .renaming _ temp content => [(temp, hasContent content)]
  | .finalized target content => [(target, hasContent content)]

def doneHolding (done : SaveDone P) : Holding FileName DirEntry := (done.path, hasContent done.content)

def holdings (state : SavedFiles P) : List (Holding FileName DirEntry) :=
  (state.runs.flatMap fun run => phaseHoldings run.phase) ++ state.done.map doneHolding

/-- What a run holds is a file. -/
theorem isFile_of_mem_holdings {state : SavedFiles P} {holding : Holding FileName DirEntry}
    (listed : holding ∈ state.holdings) {entry : DirEntry} (known : holding.2 entry) :
    entry.isFile = true := by
  rcases List.mem_append.mp listed with running | finished
  · obtain ⟨run, _, inside⟩ := List.mem_flatMap.mp running
    revert inside
    cases run.phase <;> intro inside <;> simp only [phaseHoldings, List.mem_singleton,
      List.not_mem_nil] at inside <;> subst inside
    · exact known
    · exact known ▸ rfl
    · exact known ▸ rfl
    · exact known ▸ rfl
  · obtain ⟨done, _, rfl⟩ := List.mem_map.mp finished
    exact known ▸ rfl

/-- The holdings beside those of one run. -/
structure Beside (state : SavedFiles P) (index : Nat) (run : SaveRun P)
    (others : List (Holding FileName DirEntry)) : Prop where
  own : state.holdings.Perm (phaseHoldings run.phase ++ others)
  moved : ∀ files phase, ((state.withFiles files).setPhase index run phase).holdings.Perm
    (phaseHoldings phase ++ others)
  gone : holdings { state with runs := state.runs.eraseIdx index } = others

/-- A run which changes holds what it holds beside the others. -/
theorem perm_set {runs : List (SaveRun P)} {index : Nat} (inside : index < runs.length)
    (run : SaveRun P) (others : List (Holding FileName DirEntry)) :
    (((runs.set index run).flatMap fun run => phaseHoldings run.phase) ++ others).Perm
      (phaseHoldings run.phase ++
        (((runs.eraseIdx index).flatMap fun run => phaseHoldings run.phase) ++ others)) := by
  rw [List.set_eq_take_append_cons_drop, if_pos inside, List.eraseIdx_eq_take_drop_succ]
  simp only [List.flatMap_append, List.flatMap_cons, List.append_assoc]
  exact List.perm_append_comm_assoc _ _ _

/-- The holdings of a run stand beside those of the others. -/
theorem exists_beside {state : SavedFiles P} {index : Nat} {run : SaveRun P}
    (found : state.runs[index]? = some run) : ∃ others, state.Beside index run others := by
  obtain ⟨inside, same⟩ := List.getElem?_eq_some_iff.mp found
  refine ⟨holdings { state with runs := state.runs.eraseIdx index }, ?_, ?_, rfl⟩
  · have itself : state.runs.set index run = state.runs := by
      rw [← same]
      exact List.set_getElem_self inside
    have perm := perm_set inside run (state.done.map doneHolding)
    rwa [itself] at perm
  · exact fun files phase => perm_set inside { run with phase := phase } (state.done.map doneHolding)

/-! ## Steps and runs -/

/-- The files are in different hands, and the table says where the finished ones are. -/
structure Sound (state : SavedFiles P) : Prop where
  held : Held state.files state.holdings
  recorded : ∀ done ∈ state.done, ∃ last ∈ state.done, last.id = done.id ∧
    state.attachmentPaths.lookup done.id = some last.path

/-- Files in different hands are apart. -/
theorem Sound.apart {state : SavedFiles P} (sound : state.Sound) : state.Apart where
  contents done listed := by
    have inside : doneHolding done ∈ state.holdings :=
      List.mem_append_right _ (List.mem_map_of_mem listed)
    obtain ⟨entry, looked, known⟩ := sound.held.known _ inside
    have found : state.files.lookup done.path = some (.file done.content) := known ▸ looked
    rw [contentAt, found]
  recorded := sound.recorded

/-- Where there is no content there is no file. -/
theorem contentAt_eq_none {state : SavedFiles P} {name : FileName}
    (free : state.contentAt name = none) : ∀ entry ∈ state.files.lookup name, ¬entry.isFile = true := by
  intro entry looked
  rw [contentAt, looked] at free
  cases entry with
  | file content => contradiction
  | directory => exact fun impossible => by contradiction

section

variable {state : SavedFiles P} {index : Nat} {run : SaveRun P}

/-- A run ends, and its file is nobody's. -/
theorem Sound.gone (sound : state.Sound) (found : state.runs[index]? = some run) :
    Sound { state with runs := state.runs.eraseIdx index } := by
  obtain ⟨others, beside⟩ := exists_beside found
  refine ⟨?_, sound.recorded⟩
  rw [beside.gone]
  exact (sound.held.perm beside.own).drop

/-- A run goes on, with the files as it leaves them. -/
theorem Sound.moved (sound : state.Sound) (found : state.runs[index]? = some run)
    {files : Table FileName DirEntry} {phase : SavePhase}
    (step : ∀ others, Held state.files (phaseHoldings run.phase ++ others) →
      (∀ holding ∈ others, ∀ entry, holding.2 entry → entry.isFile = true) →
        Held files (phaseHoldings phase ++ others)) :
    Sound ((state.withFiles files).setPhase index run phase) := by
  obtain ⟨others, beside⟩ := exists_beside found
  refine ⟨?_, sound.recorded⟩
  refine (step others (sound.held.perm beside.own) fun holding listed entry known => ?_).perm
    (beside.moved files phase).symm
  exact isFile_of_mem_holdings (beside.own.mem_iff.mpr (List.mem_append_right _ listed)) known

/-- A download may choose a free path. -/
theorem Sound.start (sound : state.Sound) (id : P.Hash) : (state.start id).Sound := by
  rw [SavedFiles.start]
  split
  · exact sound
  · split
    · exact sound
    · refine ⟨?_, sound.recorded⟩
      have same : ∀ fresh : SaveRun P, phaseHoldings fresh.phase = [] →
          holdings { state with runs := state.runs ++ [fresh] } = state.holdings := by
        intro fresh nothing
        rw [holdings, List.flatMap_append, List.flatMap_singleton, nothing, List.append_nil]
        rfl
      exact (same ⟨id, _, .choosing 0⟩ rfl).symm ▸ sound.held

/-- A download may create its file under a free name. -/
theorem Sound.create (sound : state.Sound) (found : state.runs[index]? = some run)
    {target temp : FileName} (phase : run.phase = .chosen target) (free : temp ∉ state.files) :
    Sound ((state.withFiles (state.files.insert temp (.file []))).setPhase index run
      (.created target temp)) := by
  refine sound.moved found fun others held _ => ?_
  rw [phase] at held
  exact Held.insert held (held.notMem_of_absent free) _ rfl

/-- A download may write to its own file. -/
theorem Sound.transfer (sound : state.Sound) (found : state.runs[index]? = some run)
    {target temp : FileName} (phase : run.phase = .created target temp) (content : Bytes) :
    Sound ((state.withFiles (state.files.insert temp (.file content))).setPhase index run
      (.transferred target temp content)) := by
  refine sound.moved found fun others held _ => ?_
  rw [phase] at held
  exact held.update _ rfl

/-- A download may ask what is at its target. -/
theorem Sound.check (sound : state.Sound) (found : state.runs[index]? = some run)
    {target temp : FileName} {content : Bytes}
    (phase : run.phase = .transferred target temp content) :
    Sound (state.setPhase index run (.renaming target temp content)) := by
  refine sound.moved found fun others held _ => ?_
  rwa [phase] at held

/-- A download may move its file to a free target. -/
theorem Sound.rename (sound : state.Sound) (found : state.runs[index]? = some run)
    {target temp : FileName} {content : Bytes} {entry : DirEntry}
    (phase : run.phase = .renaming target temp content)
    (looked : state.files.lookup temp = some entry) (free : state.contentAt target = none) :
    Sound ((state.withFiles ((state.files.erase temp).insert target entry)).setPhase index run
      (.finalized target content)) := by
  refine sound.moved found fun others held files => ?_
  rw [phase] at held
  have whole : Held state.files ((temp, hasContent content) :: others) := held
  obtain ⟨own, ownLooked, known⟩ := whole.lookup
  obtain rfl : own = entry := Option.some.inj (ownLooked.symm.trans looked)
  have rest : Held state.files ([(temp, hasContent content)] ++ others) := held
  have fresh := rest.drop.notMem (contentAt_eq_none free) files
  exact whole.erase.insert fresh _ known

/-- A finished download may be recorded. -/
theorem Sound.record (sound : state.Sound) (found : state.runs[index]? = some run)
    {target : FileName} {content : Bytes} (phase : run.phase = .finalized target content) :
    Sound { state with
      attachmentPaths := state.attachmentPaths.insert run.id target
      runs := state.runs.eraseIdx index
      done := state.done ++ [⟨run.id, target, content⟩] } := by
  constructor
  · obtain ⟨others, beside⟩ := exists_beside found
    have held := sound.held.perm beside.own
    rw [phase, ← beside.gone] at held
    refine held.perm ?_
    rw [holdings, holdings, List.map_append]
    refine List.perm_append_comm.trans ?_
    rw [List.append_assoc]
    exact .rfl
  · intro done listed
    by_cases same : done.id = run.id
    · refine ⟨⟨run.id, target, content⟩, List.mem_append_right _ List.mem_cons_self, same.symm, ?_⟩
      rw [same]
      exact AList.lookup_insert _
    · rcases List.mem_append.mp listed with earlier | new
      · obtain ⟨last, inside, sameId, recorded⟩ := sound.recorded done earlier
        exact ⟨last, List.mem_append_left _ inside, sameId,
          (AList.lookup_insert_ne same).trans recorded⟩
      · rw [List.mem_singleton.mp new] at same
        exact absurd rfl same

/-- The steps of a run which finds its target free keep the files in different hands. -/
theorem Sound.advance (sound : state.Sound) (found : state.runs[index]? = some run)
    {event : SaveEvent P} {next : SavedFiles P} (about : indexOf event = some index)
    (clear : state.Clear event) (taken : state.advance index run event = some next) :
    next.Sound := by
  cases event with
  | start id => contradiction
  | probe own =>
      rw [SavedFiles.advance] at taken
      split at taken
      · rename_i tried phase
        have still : ∀ later, phaseHoldings later = [] →
            Sound (state.setPhase index run later) := by
          intro later nothing
          refine sound.moved found fun others held _ => ?_
          rw [phase] at held
          rwa [nothing]
        split at taken
        · cases taken
          exact still _ rfl
        · split at taken
          · cases taken
            exact sound.gone found
          · cases taken
            exact still _ rfl
      · contradiction
  | create own nonce =>
      rw [SavedFiles.advance] at taken
      split at taken
      · rename_i target phase
        split at taken
        · contradiction
        · rename_i free
          cases taken
          exact sound.create found phase free
      · contradiction
  | transfer own content =>
      rw [SavedFiles.advance] at taken
      split at taken
      · rename_i target temp phase
        cases taken
        exact sound.transfer found phase content
      · contradiction
  | check own =>
      cases about
      rw [SavedFiles.advance] at taken
      split at taken
      · rename_i target temp content phase
        have free : state.contentAt target = none := by
          refine clear run found target ?_
          rw [phase]
          rfl
        split at taken
        · rename_i other looked
          rw [contentAt, looked] at free
          contradiction
        · cases taken
          exact sound.check found phase
      · contradiction
  | rename own replaces =>
      cases about
      rw [SavedFiles.advance] at taken
      split at taken
      · rename_i target temp content phase
        have free : state.contentAt target = none := by
          refine clear run found target ?_
          rw [phase]
          rfl
        split at taken
        · cases taken
          exact sound.gone found
        · cases taken
          exact sound.gone found
        · rename_i entry other looked noDirectory
          have nothing : state.files.lookup target = none := by
            cases here : state.files.lookup target with
            | none => rfl
            | some standing =>
                cases standing with
                | directory => exact absurd here noDirectory
                | file there =>
                    rw [contentAt, here] at free
                    contradiction
          rw [nothing] at taken
          cases taken
          exact sound.rename found phase looked free
      · contradiction
  | record own =>
      rw [SavedFiles.advance] at taken
      split at taken
      · rename_i target content phase
        cases taken
        exact sound.record found phase
      · contradiction
  | fail own =>
      rw [SavedFiles.advance] at taken
      cases taken
      exact sound.gone found

end

/-- Every step whose target is free leaves the files in different hands. -/
theorem sound_step {state next : SavedFiles P} {event : SaveEvent P} (sound : state.Sound)
    (clear : state.Clear event) (taken : machine.step state event = some next) : next.Sound := by
  have advances : ∀ index, indexOf event = some index →
      (match state.runs[index]? with
        | none => none
        | some run => state.advance index run event) = some next → next.Sound := by
    intro index about steps
    cases found : state.runs[index]? with
    | none =>
        rw [found] at steps
        contradiction
    | some run =>
        rw [found] at steps
        exact sound.advance found about clear steps
  cases event with
  | start id =>
      cases taken
      exact sound.start id
  | probe index => exact advances index rfl taken
  | create index nonce => exact advances index rfl taken
  | transfer index content => exact advances index rfl taken
  | check index => exact advances index rfl taken
  | rename index replaces => exact advances index rfl taken
  | record index => exact advances index rfl taken
  | fail index => exact advances index rfl taken

/-- Before any download. -/
def before (files : Table FileName DirEntry) (roots : Table P.Hash (Attachment P × UserName))
    (attachmentPaths : Table P.Hash FileName) : SavedFiles P :=
  ⟨files, roots, attachmentPaths, [], []⟩

/-- Before any download nobody holds a file. -/
theorem before_sound (files : Table FileName DirEntry)
    (roots : Table P.Hash (Attachment P × UserName)) (attachmentPaths : Table P.Hash FileName) :
    (before files roots attachmentPaths).Sound :=
  ⟨.nil files, fun _ listed => by contradiction⟩

/-- Downloads whose targets are free when they are asked about and when files are moved there
keep their files apart, in whatever order their steps come. -/
theorem apart_of_clear (files : Table FileName DirEntry)
    (roots : Table P.Hash (Attachment P × UserName)) (attachmentPaths : Table P.Hash FileName)
    {events : List (SaveEvent P)}
    (clear : machine.Along Clear (before files roots attachmentPaths) events) :
    machine.Always Apart (before files roots attachmentPaths) events := by
  have always := Machine.always_of_along sound_step (before_sound files roots attachmentPaths) clear
  exact fun shorter position state reached => (always shorter position state reached).apart

/-- Two attachments of Alice's, both with this filename. -/
def twoRoots : Table symbolic.Hash (Attachment symbolic × UserName) :=
  ((∅ : Table symbolic.Hash (Attachment symbolic × UserName)).insert
    (symbolic.bcsHash (twoLeaves 3 1)) (twoLeaves 3 1, alice)).insert
      (symbolic.bcsHash (twoLeaves 1 3)) (twoLeaves 1 3, alice)

/-- They are downloaded one after the other. -/
def oneAfterOther : List (SaveEvent symbolic) :=
  [.start (symbolic.bcsHash (twoLeaves 3 1)), .probe 0, .create 0 1, .transfer 0 [1, 2, 3, 4],
    .check 0, .rename 0 true, .record 0, .start (symbolic.bcsHash (twoLeaves 1 3)), .probe 0,
    .probe 0, .create 0 2, .transfer 0 [1, 4, 3, 0], .check 0, .rename 0 true, .record 0]

theorem apart_of_clear_oneAfterOther :
    machine.Along Clear (before ∅ twoRoots ∅) oneAfterOther ∧
      machine.Always Apart (before ∅ twoRoots ∅) oneAfterOther := by
  have clear : machine.Along Clear (before ∅ twoRoots ∅) oneAfterOther := by decide +kernel
  exact ⟨clear, apart_of_clear ∅ twoRoots ∅ clear⟩

/-- Both choose their paths before one of them is complete. -/
def bothChoose : List (SaveEvent symbolic) :=
  [.start (symbolic.bcsHash (twoLeaves 3 1)), .start (symbolic.bcsHash (twoLeaves 1 3)), .probe 0,
    .probe 1, .create 0 1, .create 1 2, .transfer 0 [1, 2, 3, 4], .transfer 1 [1, 4, 3, 0]]

/-- The second one finds the first one's file at its target. -/
def fileTaken : List (SaveEvent symbolic) :=
  bothChoose ++ [.check 0, .rename 0 true, .record 0, .check 0, .record 0]

/-- The second one asks before the first one's file is at its target, and moves its own after. -/
def fileReplaced : List (SaveEvent symbolic) :=
  bothChoose ++ [.check 0, .check 1, .rename 0 true, .record 0, .rename 0 true, .record 0]

/-- Where a finished download has another content at its path, the downloads are not apart. -/
theorem not_apart_of_content {events : List (SaveEvent symbolic)} {finished : SaveDone symbolic}
    {content : Bytes}
    (ends : (machine.exec (before ∅ twoRoots ∅) events).map (fun final =>
      (decide (finished ∈ final.done), final.contentAt finished.path)) = some (true, some content))
    (other : content ≠ finished.content) :
    ¬machine.Always Apart (before ∅ twoRoots ∅) events := by
  intro always
  obtain ⟨final, reached, left⟩ := Option.map_eq_some_iff.mp ends
  obtain ⟨isDone, found⟩ := Prod.mk.inj left
  have own := (always.last reached).contents finished (of_decide_eq_true isDone)
  exact other (Option.some.inj (found.symm.trans own))

/-- The second download drops its file and records the path of the first one's; or it moves its
file over the first one's. Both runs end with `DownloadDone`. -/
theorem bothChoose_breaks :
    (machine.exec (before ∅ twoRoots ∅) fileTaken).map (fun final =>
        (decide (⟨symbolic.bcsHash (twoLeaves 1 3), "leaves".toList, [1, 4, 3, 0]⟩ ∈ final.done),
          final.contentAt "leaves".toList)) = some (true, some [1, 2, 3, 4]) ∧
      ¬machine.Always Apart (before ∅ twoRoots ∅) fileTaken ∧
    (machine.exec (before ∅ twoRoots ∅) fileReplaced).map (fun final =>
        (decide (⟨symbolic.bcsHash (twoLeaves 3 1), "leaves".toList, [1, 2, 3, 4]⟩ ∈ final.done),
          final.contentAt "leaves".toList)) = some (true, some [1, 4, 3, 0]) ∧
      ¬machine.Always Apart (before ∅ twoRoots ∅) fileReplaced := by
  have taken : (machine.exec (before ∅ twoRoots ∅) fileTaken).map (fun final =>
      (decide (⟨symbolic.bcsHash (twoLeaves 1 3), "leaves".toList, [1, 4, 3, 0]⟩ ∈ final.done),
        final.contentAt "leaves".toList)) = some (true, some [1, 2, 3, 4]) := by
    decide +kernel
  have replaced : (machine.exec (before ∅ twoRoots ∅) fileReplaced).map (fun final =>
      (decide (⟨symbolic.bcsHash (twoLeaves 3 1), "leaves".toList, [1, 2, 3, 4]⟩ ∈ final.done),
        final.contentAt "leaves".toList)) = some (true, some [1, 4, 3, 0]) := by
    decide +kernel
  exact ⟨taken, not_apart_of_content taken (by decide), replaced,
    not_apart_of_content replaced (by decide)⟩

end SavedFiles
end Nullspace
