import Nullspace.Directory.Mirror
import Nullspace.Directory.Staging

/-!
# Where a seed is honoured

`v1_get_pow_seed` writes the seed's row into the database of the node which is asked.
`v1_insert_update` looks it up there on a primary only; a mirror forwards the call, and the
primary at the end of the line looks for a row which it never wrote.
-/

namespace Nullspace

open Nullspace.Base

variable {P : Primitives} {S : Smt P}

/-- A directory: the primary, or a mirror with the directory it is a mirror of. -/
inductive DirectoryNode (S : Smt P) where
  | primary (state : Primary S)
  | mirror (db : DirectoryDb S) (upstream : DirectoryNode S)

/-- A step of a node, or of a node behind it. -/
inductive NodeEvent (P : Primitives) where
  | primary (event : PrimaryEvent P)
  | mirror (event : MirrorEvent P)
  | upstream (event : NodeEvent P)

namespace DirectoryNode

def step (equixVerify : Bytes → Bytes → Bool) :
    DirectoryNode S → NodeEvent P → Option (DirectoryNode S)
  | .primary state, .primary event =>
      ((Primary.machine equixVerify).step state event).map .primary
  | .mirror db upstream, .mirror event =>
      (Mirror.machine.step db event).map fun db => .mirror db upstream
  | .mirror db upstream, .upstream event =>
      (step equixVerify upstream event).map fun upstream => .mirror db upstream
  | _, _ => none

def machine (equixVerify : Bytes → Bytes → Bool) : Machine (DirectoryNode S) (NodeEvent P) where
  step := step equixVerify

def isPrimary : DirectoryNode S → Bool
  | .primary _ => true
  | .mirror _ _ => false

/-- The primary which a call of the node ends up at. -/
def decider : DirectoryNode S → Primary S
  | .primary state => state
  | .mirror _ upstream => upstream.decider

/-- `v1_get_pow_seed`. -/
def getPowSeed (node : DirectoryNode S) (seed : P.Hash) (now : Timestamp) (inserted purged : Bool) :
    DirectoryNode S :=
  match node with
  | .primary state => .primary { state with db := v1GetPowSeed state.db seed now inserted purged }
  | .mirror db upstream => .mirror (v1GetPowSeed db seed now inserted purged) upstream

/-- `forward_insert`: a call which gets no answer is to be made again later. -/
def forwardInsert : Option (Except DirectoryErr Unit) → Except DirectoryErr Unit
  | some result => result
  | none => .error .retryLater

/-- What `v1_insert_update` answers. The staging map is that of the moment at which the
primary takes its lock; `answered` says whether calls to an upstream node get an answer. -/
def insertUpdate (equixVerify : Bytes → Bytes → Bool) (env : InsertEnv) (answered : Bool)
    (staging : Staging P) (key : String) (update : DirectoryUpdate P)
    (solution : PowSolution P) : DirectoryNode S → Except DirectoryErr Unit
  | .primary state =>
      match insertRead equixVerify env state.db key solution with
      | (_, .error err) => .error err
      | (_, .ok history) =>
          match insertPush staging key history update with
          | .error err => .error err
          | .ok _ => .ok ()
  | .mirror _ upstream =>
      forwardInsert
        (if answered then
          some (insertUpdate equixVerify env answered staging key update solution upstream)
        else none)

/-- The answer blames the seed. -/
def SeedRejected (result : Except DirectoryErr Unit) : Prop :=
  result = .error (.updateRejected "unknown pow seed") ∨
    result = .error (.updateRejected "pow seed expired")

/-- A clock reading of the primary is no later than a moment, and the seed which it draws is
another one. -/
def Before (seed : P.Hash) (now : Timestamp) : NodeEvent P → Prop
  | .primary (.getPowSeed other clock _ _) => other ≠ seed ∧ clock ≤ now
  | .primary (.insertRead _ env _ _ _) => env.now ≤ now
  | .primary _ => True
  | .mirror _ => True
  | .upstream event => Before seed now event

/-! ## What becomes of a seed -/

/-- The row which the primary of a node has for a seed. -/
def seedRow (node : DirectoryNode S) (seed : P.Hash) : Option PowSeedRow :=
  node.decider.db.powSeeds.lookup seed

/-- A seed which is still valid is not yet to be purged. -/
theorem asI64_not_lt {clock now useBefore : Timestamp} (past : clock ≤ now)
    (inTime : now < useBefore) (small : useBefore.toNat < 2 ^ 63) :
    ¬asI64 useBefore < asI64 clock := by
  have ordered : clock.toNat ≤ now.toNat := UInt64.le_iff_toNat_le.mp past
  have below : now.toNat < useBefore.toNat := UInt64.lt_iff_toNat_lt.mp inTime
  rw [asI64_of_lt small, asI64_of_lt (by omega)]
  omega

/-- The row outlasts every purge up to a moment. -/
def Lasting (now : Timestamp) (held : Option PowSeedRow) : Prop :=
  ∀ row, held = some row → now < row.useBefore ∧ row.useBefore.toNat < 2 ^ 63

/-- A purge keeps the row of a seed which lasts. -/
theorem lookup_purgePowSeeds {db : DirectoryDb S} {seed : P.Hash} {held : Option PowSeedRow}
    {clock now : Timestamp} (lasting : Lasting now held) (past : clock ≤ now)
    (found : db.powSeeds.lookup seed = held) :
    (db.purgePowSeeds clock).powSeeds.lookup seed = held := by
  rw [← found]
  apply Table.lookup_keep
  intro row listed
  obtain ⟨inTime, small⟩ := lasting row (found.symm.trans listed)
  rw [Bool.not_eq_true', decide_eq_false_iff_not]
  exact asI64_not_lt past inTime small

/-- Handing out another seed keeps the row of a seed which lasts. -/
theorem lookup_v1GetPowSeed {db : DirectoryDb S} {seed other : P.Hash}
    {held : Option PowSeedRow} {clock now : Timestamp} (lasting : Lasting now held)
    (past : clock ≤ now) (inserted purged : Bool)
    (found : (if inserted then db.insertPowSeed other ⟨clock + seedTtlSecs, powEffort⟩
      else db).powSeeds.lookup seed = held) :
    (v1GetPowSeed db other clock inserted purged).powSeeds.lookup seed = held := by
  rw [v1GetPowSeed]
  cases purged with
  | true => exact lookup_purgePowSeeds lasting past found
  | false => exact found

theorem powSeeds_commitChunk (env : CommitEnv) (updates : Staging P) (db : DirectoryDb S) :
    (commitChunk env updates db).1.powSeeds = db.powSeeds := by
  rcases commitChunk_cases env updates db with ⟨header, extended⟩ | nodes
  · obtain ⟨merkle, _, inserted⟩ := extended.inserted
    obtain ⟨_, _, same⟩ := DirectoryDb.insertChunk_eq_some.mp inserted
    rw [same]
  · rcases nodes with same | ⟨tree, merkle, root, _, same⟩
    · rw [same]
    · rw [same]

theorem powSeeds_insertRead (equixVerify : Bytes → Bytes → Bool) (env : InsertEnv)
    (db : DirectoryDb S) (key : String) (solution : PowSolution P) :
    (insertRead equixVerify env db key solution).1 = db ∨
      (insertRead equixVerify env db key solution).1 = db.purgePowSeeds env.now := by
  rw [insertRead]
  split
  · exact Or.inl rfl
  · dsimp only
    split <;> exact Or.inr rfl

/-- A step of the primary keeps what it holds of a seed. -/
theorem lookup_primary_step {equixVerify : Bytes → Bytes → Bool} {state next : Primary S}
    {event : PrimaryEvent P} {seed : P.Hash} {held : Option PowSeedRow} {now : Timestamp}
    (lasting : Lasting now held) (before : Before seed now (.primary event))
    (found : state.db.powSeeds.lookup seed = held)
    (taken : (Primary.machine equixVerify).step state event = some next) :
    next.db.powSeeds.lookup seed = held := by
  cases event with
  | getPowSeed other clock inserted purged =>
      cases taken
      obtain ⟨apart, past⟩ := before
      apply lookup_v1GetPowSeed lasting past
      cases inserted with
      | true =>
          rw [if_pos rfl, DirectoryDb.insertPowSeed, Table.lookup_insert_eq,
            if_neg (Ne.symm apart)]
          exact found
      | false => exact found
  | insertRead call env key update solution =>
      have read : (insertRead equixVerify env state.db key solution).1.powSeeds.lookup seed =
          held := by
        rcases powSeeds_insertRead equixVerify env state.db key solution with same | purged
        · rw [same]
          exact found
        · rw [purged]
          exact lookup_purgePowSeeds lasting before found
      obtain ⟨_, ⟨db, err, outcome, rfl⟩ | ⟨db, history, outcome, rfl⟩⟩ :=
        Primary.step_insertRead taken
      · rwa [outcome] at read
      · rwa [outcome] at read
  | insertPush call =>
      obtain ⟨insert, _, ⟨_, _, _, rfl⟩ | ⟨_, _, _, rfl⟩⟩ := Primary.step_insertPush taken
      · exact found
      · exact found
  | commitTake =>
      obtain ⟨_, rfl⟩ := Primary.step_commitTake taken
      exact found
  | commitFinish env =>
      obtain ⟨updates, _, rfl⟩ := Primary.step_commitFinish taken
      dsimp only
      rw [powSeeds_commitChunk]
      exact found

/-- A step before the seed's time of expiry keeps its row. -/
theorem seedRow_step {equixVerify : Bytes → Bytes → Bool} {node next : DirectoryNode S}
    {event : NodeEvent P} {seed : P.Hash} {held : Option PowSeedRow} {now : Timestamp}
    (lasting : Lasting now held) (before : Before seed now event)
    (found : node.seedRow seed = held) (taken : step equixVerify node event = some next) :
    next.seedRow seed = held ∧ next.isPrimary = node.isPrimary := by
  induction event generalizing node next with
  | primary event =>
      cases node with
      | primary state =>
          obtain ⟨after, moved, rfl⟩ := Option.map_eq_some_iff.mp taken
          exact ⟨lookup_primary_step lasting before found moved, rfl⟩
      | mirror db upstream => cases taken
  | mirror event =>
      cases node with
      | primary state => cases taken
      | mirror db upstream =>
          obtain ⟨after, _, rfl⟩ := Option.map_eq_some_iff.mp taken
          exact ⟨found, rfl⟩
  | upstream event ih =>
      cases node with
      | primary state => cases taken
      | mirror db upstream =>
          obtain ⟨after, moved, rfl⟩ := Option.map_eq_some_iff.mp taken
          have below : upstream.seedRow seed = held := found
          exact ⟨(ih before below moved).1, rfl⟩

/-- A run before the seed's time of expiry keeps its row. -/
theorem seedRow_run {equixVerify : Bytes → Bytes → Bool} {node later : DirectoryNode S}
    {events : List (NodeEvent P)} {seed : P.Hash} {held : Option PowSeedRow} {now : Timestamp}
    (lasting : Lasting now held) (before : ∀ event ∈ events, Before seed now event)
    (found : node.seedRow seed = held)
    (reached : (machine equixVerify).exec node events = some later) :
    later.seedRow seed = held ∧ later.isPrimary = node.isPrimary := by
  induction events generalizing node with
  | nil =>
      cases reached
      exact ⟨found, rfl⟩
  | cons event rest ih =>
      rw [Machine.exec_cons] at reached
      obtain ⟨next, taken, remaining⟩ := Option.bind_eq_some_iff.mp reached
      obtain ⟨kept, kind⟩ := seedRow_step lasting (before event List.mem_cons_self) found taken
      obtain ⟨still, sameKind⟩ := ih
        (fun other listed => before other (List.mem_cons_of_mem event listed)) kept remaining
      exact ⟨still, sameKind.trans kind⟩

theorem not_seedRejected_ok : ¬SeedRejected (.ok ()) := by
  rintro (same | same) <;> cases same

theorem not_seedRejected_retryLater : ¬SeedRejected (.error .retryLater) := by
  rintro (same | same) <;> cases same

/-- An update which is rejected for another reason. -/
theorem not_seedRejected_text {text : String} (notUnknown : text ≠ "unknown pow seed")
    (notExpired : text ≠ "pow seed expired") : ¬SeedRejected (.error (.updateRejected text)) := by
  rintro (same | same)
  · exact notUnknown (DirectoryErr.updateRejected.inj (Except.error.inj same))
  · exact notExpired (DirectoryErr.updateRejected.inj (Except.error.inj same))

theorem not_seedRejected_validateSolution {equixVerify : Bytes → Bytes → Bool} {seed : P.Hash}
    {effort : UInt64} {solution : PowSolution P} :
    ¬SeedRejected (validateSolution equixVerify seed effort solution) := by
  rw [validateSolution]
  split
  · exact not_seedRejected_text (by decide) (by decide)
  · dsimp only
    split
    · exact not_seedRejected_text (by decide) (by decide)
    · split
      · exact not_seedRejected_text (by decide) (by decide)
      · split
        · exact not_seedRejected_ok
        · exact not_seedRejected_text (by decide) (by decide)

/-- A history which cannot be read gives `RetryLater`. -/
theorem readHistory_error {env : InsertEnv} {db : DirectoryDb S} {key : String}
    {err : DirectoryErr} (failed : readHistory env db key = .error err) : err = .retryLater := by
  rw [readHistory] at failed
  split at failed
  · exact (Except.error.inj failed).symm
  · split at failed
    · exact (Except.error.inj failed).symm
    · split at failed
      · exact (Except.error.inj failed).symm
      · rw [DirectoryDb.loadHistory] at failed
        split at failed
        · exact (Except.error.inj failed).symm
        · split at failed
          · cases failed
          · split at failed
            · exact (Except.error.inj failed).symm
            · cases failed

theorem not_seedRejected_insertPush (staging : Staging P) (key : String)
    (history : List (DirectoryUpdate P)) (update : DirectoryUpdate P) :
    ¬SeedRejected
      (match insertPush staging key history update with
      | .error err => .error err
      | .ok _ => .ok ()) := by
  rw [insertPush]
  cases verifyHistory (history ++ staging.pending key ++ [update]) with
  | error err =>
      cases err with
      | noOwners => exact not_seedRejected_text (by decide) (by decide)
      | invalidSignature => exact not_seedRejected_text (by decide) (by decide)
      | invalidPrevHash => exact not_seedRejected_text (by decide) (by decide)
  | ok _ => exact not_seedRejected_ok

/-- A primary whose row for a seed is still good blames the seed only when it has no row. -/
theorem seedRejected_primary {equixVerify : Bytes → Bytes → Bool} {env : InsertEnv}
    {answered : Bool} {staging : Staging P} {key : String} {update : DirectoryUpdate P}
    {solution : PowSolution P} {state : Primary S}
    (lasting : Lasting env.now (state.db.powSeeds.lookup solution.seed)) :
    SeedRejected (insertUpdate equixVerify env answered staging key update solution
        (.primary state)) ↔
      env.faults .purgeSeeds = false ∧ env.faults .fetchSeed = false ∧
        state.db.powSeeds.lookup solution.seed = none := by
  rw [insertUpdate, insertRead]
  cases env.faults .purgeSeeds with
  | true => exact iff_of_false not_seedRejected_retryLater (by simp)
  | false =>
      have kept := lookup_purgePowSeeds lasting (UInt64.le_refl _) rfl
      rw [if_neg Bool.false_ne_true, and_iff_right rfl]
      dsimp only
      rw [checkSolution, kept]
      cases env.faults .fetchSeed with
      | true => exact iff_of_false not_seedRejected_retryLater (by simp)
      | false =>
          rw [if_neg Bool.false_ne_true, and_iff_right rfl]
          cases found : state.db.powSeeds.lookup solution.seed with
          | none => exact iff_of_true (Or.inl rfl) rfl
          | some row =>
              refine iff_of_false ?_ (by simp)
              have inTime := (lasting row found).1
              simp only [if_neg (UInt64.not_le.mpr inTime)]
              cases checked : validateSolution equixVerify solution.seed row.effort solution with
              | error err =>
                  have other : ¬SeedRejected
                      (validateSolution equixVerify solution.seed row.effort solution) :=
                    not_seedRejected_validateSolution
                  rw [checked] at other
                  exact other
              | ok _ =>
                  cases read : readHistory env (state.db.purgePowSeeds env.now) key with
                  | error err =>
                      rw [readHistory_error read]
                      exact not_seedRejected_retryLater
                  | ok history => exact not_seedRejected_insertPush staging key history update

/-- The answer of a node is its primary's, if the call gets there. -/
theorem seedRejected_iff {equixVerify : Bytes → Bytes → Bool} {env : InsertEnv}
    {answered : Bool} {staging : Staging P} {key : String} {update : DirectoryUpdate P}
    {solution : PowSolution P} {node : DirectoryNode S}
    (lasting : Lasting env.now (node.seedRow solution.seed)) :
    SeedRejected (insertUpdate equixVerify env answered staging key update solution node) ↔
      (node.isPrimary = true ∨ answered = true) ∧ env.faults .purgeSeeds = false ∧
        env.faults .fetchSeed = false ∧ node.seedRow solution.seed = none := by
  induction node with
  | primary state => exact (seedRejected_primary lasting).trans (and_iff_right (Or.inl rfl)).symm
  | mirror db upstream ih =>
      rw [insertUpdate]
      cases answered with
      | false =>
          rw [if_neg Bool.false_ne_true]
          refine iff_of_false not_seedRejected_retryLater ?_
          rintro ⟨impossible | impossible, _⟩ <;> cases impossible
      | true =>
          rw [if_pos rfl, forwardInsert]
          have below := ih lasting
          rw [and_iff_right (Or.inr rfl)] at below
          exact below.trans (and_iff_right (Or.inr rfl)).symm

/-- What the primary holds of a new seed once a node has drawn it. -/
theorem seedRow_getPowSeed {node : DirectoryNode S} {seed : P.Hash} {drawn now : Timestamp}
    {inserted purged : Bool} (unseen : node.seedRow seed = none) (past : drawn ≤ now)
    (inTime : now < drawn + seedTtlSecs) (small : (drawn + seedTtlSecs).toNat < 2 ^ 63) :
    (node.getPowSeed seed drawn inserted purged).seedRow seed =
      if node.isPrimary && inserted then some ⟨drawn + seedTtlSecs, powEffort⟩ else none := by
  cases node with
  | mirror db upstream => exact unseen
  | primary state =>
      apply lookup_v1GetPowSeed ?_ past
      · cases inserted with
        | true =>
            rw [if_pos rfl, DirectoryDb.insertPowSeed, Table.lookup_insert_eq, if_pos rfl]
            rfl
        | false => exact unseen
      · intro row held
        cases inserted with
        | true =>
            cases held
            exact ⟨inTime, small⟩
        | false => cases held

theorem isPrimary_getPowSeed (node : DirectoryNode S) (seed : P.Hash) (drawn : Timestamp)
    (inserted purged : Bool) :
    (node.getPowSeed seed drawn inserted purged).isPrimary = node.isPrimary := by
  cases node <;> rfl

/-- A node draws a new seed, anything happens to the node and its upstream, and before
`use_before` the node is called with a solution for the seed. The call is not turned away
for its seed exactly when the node is a primary which wrote the seed's row, or when the call
fails on the way or at the primary's database. -/
theorem seed_honoured_iff (equixVerify : Bytes → Bytes → Bool) {node later : DirectoryNode S}
    {drawn : Timestamp} {inserted purged : Bool} {events : List (NodeEvent P)} (env : InsertEnv)
    (answered : Bool) (staging : Staging P) (key : String) (update : DirectoryUpdate P)
    (solution : PowSolution P) (unseen : node.seedRow solution.seed = none)
    (before : ∀ event ∈ events, Before solution.seed env.now event)
    (reached : (machine equixVerify).exec
      (node.getPowSeed solution.seed drawn inserted purged) events = some later)
    (past : drawn ≤ env.now) (inTime : env.now < drawn + seedTtlSecs)
    (small : (drawn + seedTtlSecs).toNat < 2 ^ 63) :
    ¬SeedRejected (insertUpdate equixVerify env answered staging key update solution later) ↔
      (node.isPrimary = true ∧ inserted = true) ∨ env.faults .purgeSeeds = true ∨
        env.faults .fetchSeed = true ∨ (node.isPrimary = false ∧ answered = false) := by
  have drawnRow : (node.getPowSeed solution.seed drawn inserted purged).seedRow solution.seed =
      if node.isPrimary && inserted then some ⟨drawn + seedTtlSecs, powEffort⟩ else none :=
    seedRow_getPowSeed unseen past inTime small
  have lasting : Lasting env.now
      (if node.isPrimary && inserted then some ⟨drawn + seedTtlSecs, powEffort⟩ else none) := by
    intro row held
    split at held
    · cases held
      exact ⟨inTime, small⟩
    · cases held
  obtain ⟨row, kind⟩ := seedRow_run lasting before drawnRow reached
  rw [isPrimary_getPowSeed] at kind
  rw [seedRejected_iff (row ▸ lasting), row, kind]
  cases node.isPrimary <;> cases inserted <;> cases answered <;>
    cases env.faults .purgeSeeds <;> cases env.faults .fetchSeed <;> simp

/-- The first commit of a primary. -/
def firstCommit : List (PrimaryEvent symbolic) := [.commitTake, .commitFinish Primary.quietCommit]

/-- Asks a node for a seed, runs the first commit at the primary, and inserts with a solution
for the seed. -/
def seedTrial (node : DirectoryNode symbolicSmt) (commit : List (NodeEvent symbolic)) :
    Option (Except DirectoryErr Unit) :=
  ((machine fun _ _ => true).exec (node.getPowSeed [9] 0 true true) commit).map
    (insertUpdate (fun _ _ => true) Primary.quietInsert true ∅ "@alice" (firstUpdate 1)
      Primary.zeroSolution)

/-- The seed of a mirror is refused where that of the primary is accepted. -/
theorem mirror_forgets_seed :
    seedTrial (.mirror (.fresh ()) (.primary (.fresh ())))
        (firstCommit.map fun event => .upstream (.primary event)) =
      some (.error (.updateRejected "unknown pow seed")) ∧
    seedTrial (.primary (.fresh ())) (firstCommit.map .primary) = some (.ok ()) := by
  decide +kernel

theorem primary_honours_seed : ∃ later, (machine fun _ _ => true).exec
      ((primary (S := symbolicSmt) (.fresh ())).getPowSeed [9] 0 true true)
      (firstCommit.map .primary) = some later ∧
    ¬SeedRejected (insertUpdate (fun _ _ => true) Primary.quietInsert true ∅ "@alice"
      (firstUpdate 1) Primary.zeroSolution later) := by
  obtain ⟨later, reached⟩ : ∃ later, (machine fun _ _ => true).exec
      ((primary (S := symbolicSmt) (.fresh ())).getPowSeed [9] 0 true true)
      (firstCommit.map .primary) = some later := by
    rw [← Option.isSome_iff_exists]
    decide +kernel
  refine ⟨later, reached, ?_⟩
  have before : ∀ event ∈ firstCommit.map NodeEvent.primary,
      Before (P := symbolic) [9] 0 event := by
    intro event listed
    obtain ⟨inner, member, rfl⟩ := List.mem_map.mp listed
    simp only [firstCommit, List.mem_cons, List.not_mem_nil, or_false] at member
    rcases member with rfl | rfl <;> trivial
  exact (seed_honoured_iff _ Primary.quietInsert true ∅ "@alice" (firstUpdate 1)
    Primary.zeroSolution rfl before reached (by decide) (by decide) (by decide)).mpr
      (Or.inl ⟨rfl, rfl⟩)

end DirectoryNode
end Nullspace
