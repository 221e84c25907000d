import Nullspace.Base.Machine
import Nullspace.Server.Device
import Nullspace.Symbolic

/-!
# Fragment files and their rows

`uploadFrag` is two steps, the file and the row, and the janitor goes the other way: in one
transaction it deletes rows and removes their files. A transaction which does not commit
brings the rows back and not the files.

The run records which uploads returned `Ok` and when their time is over. `kept_of_lands`
says which commits of a row keep what the uploads were promised.
-/

namespace Nullspace

open Nullspace.Base

variable {P : Primitives}

/-- A call of `upload_frag`, with the clock it read. -/
structure FragUpload (P : Primitives) where
  frag : Fragment P
  now : NanoTimestamp
  ttl : UInt32
  /-- Its file is written. -/
  stored : Bool

/-- The janitor's open transaction. -/
structure Sweep (P : Primitives) where
  /-- The table as the transaction sees it. -/
  rows : Table P.Hash FragmentRow
  pending : List P.Hash
  /-- The row is deleted, and the file not removed yet. -/
  removing : Option P.Hash

/-- The server with its uploads and its janitor. -/
structure FragmentRun (P : Primitives) where
  db : ServerDb P
  clock : NanoTimestamp
  uploads : List (FragUpload P)
  /-- The clock which the janitor's pass read, and its transaction. -/
  janitor : Option (NanoTimestamp × Option (Sweep P))
  /-- What uploads which returned `Ok` were promised, and until when. -/
  owed : List (Fragment P × Option Nat)

inductive FragmentEvent (P : Primitives) where
  | tick (clock : NanoTimestamp)
  | upload (auth : AuthToken) (frag : Fragment P) (ttl : UInt32)
  /-- An upload writes its file. -/
  | store (index : Nat)
  /-- An upload's transaction commits, and the upload returns `Ok`. -/
  | record (index : Nat)
  | fail (index : Nat)
  | wake
  /-- The janitor opens a transaction and selects expired rows. -/
  | select (hashes : List P.Hash)
  | delete
  | remove (fails : Bool)
  | commit
  /-- The janitor's pass ends in an error. -/
  | rollback

/-- When the time to live of an upload is over. -/
def dueAt (now : NanoTimestamp) (ttl : UInt32) : Option Nat :=
  if ttl = 0 then none else some (now.toNat + ttl.toNat * 1000000000)

def FragUpload.due (upload : FragUpload P) : Option Nat := dueAt upload.now upload.ttl

def FragUpload.row (upload : FragUpload P) : FragmentRow :=
  ⟨upload.now, expiresAtFromTtl upload.now upload.ttl, (Bcs.toBytes upload.frag).length⟩

/-- `BATCH`. -/
def janitorBatch : Nat := 500

namespace FragmentRun

/-- The rows which the janitor's `SELECT` is about. -/
def expiredRows (rows : Table P.Hash FragmentRow) (now : NanoTimestamp) : List (P.Hash × FragmentRow) :=
  rows.rows.filter fun (_, row) => expiredAt now row.expiresAt

def Expired (rows : Table P.Hash FragmentRow) (now : NanoTimestamp) (hash : P.Hash) : Prop :=
  ∃ row ∈ rows.lookup hash, expiredAt now row.expiresAt = true

instance (rows : Table P.Hash FragmentRow) (now : NanoTimestamp) (hash : P.Hash) :
    Decidable (Expired rows now hash) :=
  inferInstanceAs (Decidable (∃ row ∈ rows.lookup hash, expiredAt now row.expiresAt = true))

/-- The hashes are an answer to the janitor's `SELECT`, which asks for no order. -/
def Selects (rows : Table P.Hash FragmentRow) (now : NanoTimestamp) (hashes : List P.Hash) : Prop :=
  hashes.Nodup ∧ hashes.length = min janitorBatch (expiredRows rows now).length ∧
    ∀ hash ∈ hashes, Expired rows now hash

instance (rows : Table P.Hash FragmentRow) (now : NanoTimestamp) (hashes : List P.Hash) :
    Decidable (Selects rows now hashes) :=
  inferInstanceAs (Decidable (_ ∧ _ ∧ _))

def withFiles (state : FragmentRun P) (files : Table P.Hash (Fragment P)) : FragmentRun P :=
  { state with db := { state.db with fragmentFiles := files } }

def withRows (state : FragmentRun P) (rows : Table P.Hash FragmentRow) : FragmentRun P :=
  { state with db := { state.db with fragments := rows } }

/-- The upload writes its file. -/
def store (state : FragmentRun P) (index : Nat) (upload : FragUpload P) : FragmentRun P :=
  { state.withFiles (state.db.fragmentFiles.insert (P.bcsHash upload.frag) upload.frag) with
    uploads := state.uploads.set index { upload with stored := true } }

/-- The upload's transaction, and its `Ok`. -/
def record (state : FragmentRun P) (index : Nat) (upload : FragUpload P) : FragmentRun P :=
  { state.withRows (ServerDb.upsertFragmentRow state.db.fragments (P.bcsHash upload.frag)
      upload.row) with
    uploads := state.uploads.eraseIdx index
    owed := state.owed ++ [(upload.frag, upload.due)] }

/-- No transaction of the janitor is open. -/
def idle (state : FragmentRun P) : Bool :=
  match state.janitor with
  | some (_, some _) => false
  | _ => true

/-- The server as a machine. Transactions are serialized. -/
def machine : Machine (FragmentRun P) (FragmentEvent P) where
  step state
    | .tick clock => if state.clock ≤ clock then some { state with clock := clock } else none
    | .upload auth frag ttl =>
        if state.db.authTokenExists auth then
          some { state with uploads := state.uploads ++ [⟨frag, state.clock, ttl, false⟩] }
        else none
    | .store index =>
        match state.uploads[index]? with
        | some upload => if upload.stored then none else some (state.store index upload)
        | none => none
    | .record index =>
        match state.uploads[index]? with
        | some upload =>
            if upload.stored && state.idle then some (state.record index upload) else none
        | none => none
    | .fail index => some { state with uploads := state.uploads.eraseIdx index }
    | .wake =>
        match state.janitor with
        | none => some { state with janitor := some (state.clock, none) }
        | some _ => none
    | .select hashes =>
        match state.janitor with
        | some (now, none) =>
            if Selects state.db.fragments now hashes then
              if hashes.isEmpty then some { state with janitor := none }
              else
                some { state with janitor := some (now, some ⟨state.db.fragments, hashes, none⟩) }
            else none
        | _ => none
    | .delete =>
        match state.janitor with
        | some (now, some ⟨rows, hash :: pending, none⟩) =>
            some { state with janitor := some (now, some ⟨rows.erase hash, pending, some hash⟩) }
        | _ => none
    | .remove fails =>
        match state.janitor with
        | some (now, some ⟨rows, pending, some hash⟩) =>
            let files := state.db.fragmentFiles
            some { state.withFiles (if fails then files else files.erase hash) with
              janitor := some (now, some ⟨rows, pending, none⟩) }
        | _ => none
    | .commit =>
        match state.janitor with
        | some (now, some ⟨rows, [], none⟩) =>
            some { state.withRows rows with janitor := some (now, none) }
        | _ => none
    | .rollback =>
        match state.janitor with
        | some _ => some { state with janitor := none }
        | none => none

def start (db : ServerDb P) (clock : NanoTimestamp) : FragmentRun P := ⟨db, clock, [], none, []⟩

/-- The time is over. -/
def Passed (clock : NanoTimestamp) (due : Option Nat) : Prop := ∃ moment ∈ due, moment ≤ clock.toNat

/-- Until its time is over, `download_frag` returns the fragment of every upload which
returned `Ok`. -/
def Kept (state : FragmentRun P) : Prop :=
  ∀ frag due, (frag, due) ∈ state.owed → ¬Passed state.clock due →
    state.db.downloadFrag (P.bcsHash frag) = .ok (some frag)

/-- The upload's expiry is a positive `i64`, or does not count beside a row which has none. -/
def Fits (state : FragmentRun P) (upload : FragUpload P) : Prop :=
  upload.ttl = 0 ∨ upload.now.toNat + upload.ttl.toNat * 1000000000 < 2 ^ 63 ∨
    ∃ row ∈ state.db.fragments.lookup (P.bcsHash upload.frag), row.expiresAt = none

/-- The expiry of an upload whose row is committed fits. -/
def ExpiryFits (state : FragmentRun P) : FragmentEvent P → Prop
  | .record index => ∀ upload ∈ state.uploads[index]?, state.Fits upload
  | _ => True

/-- An upload's row is committed while its file is still there, or after its time. -/
def Lands (state : FragmentRun P) : FragmentEvent P → Prop
  | .record index => ∀ upload ∈ state.uploads[index]?,
      P.bcsHash upload.frag ∈ state.db.fragmentFiles ∨ Passed state.clock upload.due
  | _ => True

/-! ## Steps and runs -/

/-- The row does not expire before its time. -/
def Covers (expiresAt : Option NanoTimestamp) (due : Option Nat) : Prop :=
  ∀ expiry ∈ expiresAt, ∃ moment ∈ due, (moment : Int) ≤ asI64 expiry

/-- A row which never expires covers everybody. -/
theorem covers_none (due : Option Nat) : Covers none due := by
  intro expiry listed
  contradiction

/-- A row covers a moment when it does not expire before it. -/
theorem covers_some {expiry : NanoTimestamp} {moment : Nat} :
    Covers (some expiry) (some moment) ↔ (moment : Int) ≤ asI64 expiry := by
  simp [Covers]

/-- The cast to a signed integer is never above the value. -/
theorem asI64_le (value : UInt64) : asI64 value ≤ value.toNat := by
  by_cases small : value.toNat < 2 ^ 63
  · exact Int.le_of_eq (asI64_of_lt small)
  · have bound : asI64 value < 2 ^ 63 := Int64.toInt_lt value.toInt64
    omega

/-- Rows which the janitor selects are past their time. -/
theorem passed_of_expired {expiresAt : Option NanoTimestamp} {due : Option Nat}
    {now clock : NanoTimestamp} (covers : Covers expiresAt due)
    (expired : expiredAt now expiresAt = true) (earlier : now ≤ clock) : Passed clock due := by
  cases expiresAt with
  | none => contradiction
  | some expiry =>
      obtain ⟨moment, listed, before⟩ := covers expiry rfl
      have selected : asI64 expiry ≤ asI64 now := of_decide_eq_true expired
      have reading := asI64_le now
      have ticks : now.toNat ≤ clock.toNat := UInt64.le_iff_toNat_le.mp earlier
      exact ⟨moment, listed, by omega⟩

/-- A time which is over stays over. -/
theorem passed_mono {before after : NanoTimestamp} {due : Option Nat} (later : before ≤ after)
    (passed : Passed before due) : Passed after due := by
  obtain ⟨moment, listed, reached⟩ := passed
  exact ⟨moment, listed, Nat.le_trans reached (UInt64.le_iff_toNat_le.mp later)⟩

/-- The expiry of an upload is its due time, as far as an `i64` goes. -/
theorem covers_expiresAtFromTtl {now : NanoTimestamp} {ttl : UInt32}
    (fits : ttl = 0 ∨ now.toNat + ttl.toNat * 1000000000 < 2 ^ 63) :
    Covers (expiresAtFromTtl now ttl) (dueAt now ttl) := by
  by_cases endless : ttl = 0
  · rw [expiresAtFromTtl, if_pos endless]
    exact covers_none _
  · have small := fits.resolve_left endless
    rw [expiresAtFromTtl, if_neg endless, dueAt, if_neg endless, covers_some, asI64_of_lt]
    · rw [UInt64.toNat_ofNat']
      omega
    · rw [UInt64.toNat_ofNat']
      omega

/-- The row which `upsert_fragment_row` leaves expires after the old and after the new. -/
theorem lookup_upsertFragmentRow (rows : Table P.Hash FragmentRow) (hash : P.Hash)
    (row : FragmentRow) : ∃ merged ∈ (ServerDb.upsertFragmentRow rows hash row).lookup hash,
      (∀ due, Covers row.expiresAt due → Covers merged.expiresAt due) ∧
      ∀ earlier ∈ rows.lookup hash, ∀ due, Covers earlier.expiresAt due →
        Covers merged.expiresAt due := by
  rw [ServerDb.upsertFragmentRow]
  cases held : rows.lookup hash with
  | none =>
      refine ⟨row, AList.lookup_insert rows, fun _ covers => covers, fun _ listed => ?_⟩
      contradiction
  | some earlier =>
      refine ⟨_, AList.lookup_insert rows, ?_, ?_⟩
      · intro due covers
        dsimp only
        split
        · rename_i before after was becomes
          rw [becomes] at covers
          split
          · intro expiry same
            cases same
            obtain ⟨moment, listed, reaches⟩ := covers after rfl
            exact ⟨moment, listed, by omega⟩
          · exact covers
        · exact covers_none due
      · intro other same due covers
        cases same
        dsimp only
        split
        · rename_i before after was becomes
          rw [was] at covers
          split
          · exact covers
          · intro expiry same
            cases same
            obtain ⟨moment, listed, reaches⟩ := covers before rfl
            exact ⟨moment, listed, by omega⟩
        · exact covers_none due

/-- The row of an upload is the only one which changes. -/
theorem lookup_upsertFragmentRow_ne {rows : Table P.Hash FragmentRow} {hash other : P.Hash}
    (differs : other ≠ hash) (row : FragmentRow) :
    (ServerDb.upsertFragmentRow rows hash row).lookup other = rows.lookup other := by
  rw [ServerDb.upsertFragmentRow]
  split
  · exact AList.lookup_insert_ne differs
  · exact AList.lookup_insert_ne differs

/-- What a commit of a row covers: its own upload, and whatever the old row covered. -/
theorem covers_upsertFragmentRow {state : FragmentRun P} {upload : FragUpload P}
    (fits : state.Fits upload) :
    ∃ merged ∈ (ServerDb.upsertFragmentRow state.db.fragments (P.bcsHash upload.frag)
        upload.row).lookup (P.bcsHash upload.frag),
      Covers merged.expiresAt upload.due ∧
      ∀ earlier ∈ state.db.fragments.lookup (P.bcsHash upload.frag), ∀ due,
        Covers earlier.expiresAt due → Covers merged.expiresAt due := by
  obtain ⟨merged, listed, own, old⟩ :=
    lookup_upsertFragmentRow state.db.fragments (P.bcsHash upload.frag) upload.row
  refine ⟨merged, listed, ?_, old⟩
  rcases fits with endless | small | ⟨row, held, lasting⟩
  · exact own _ (covers_expiresAtFromTtl (.inl endless))
  · exact own _ (covers_expiresAtFromTtl (.inr small))
  · refine old row held _ ?_
    rw [lasting]
    exact covers_none _

/-- What an open transaction has done and will do is about expired rows. -/
structure SweepSound (rows : Table P.Hash FragmentRow) (now : NanoTimestamp) (sweep : Sweep P) :
    Prop where
  pending : ∀ hash ∈ sweep.pending, Expired rows now hash
  removing : ∀ hash ∈ sweep.removing, Expired rows now hash
  rows : ∀ hash, sweep.rows.lookup hash = rows.lookup hash ∨ Expired rows now hash

/-- The row covers whoever was promised something. -/
def Covered (state : FragmentRun P) (rows : Table P.Hash FragmentRow) : Prop :=
  ∀ frag due, (frag, due) ∈ state.owed → ¬Passed state.clock due →
    ∃ row ∈ rows.lookup (P.bcsHash frag), Covers row.expiresAt due

structure Sound (state : FragmentRun P) : Prop where
  stored : ∀ upload ∈ state.uploads, upload.stored = true →
    ∀ file ∈ state.db.fragmentFiles.lookup (P.bcsHash upload.frag), file = upload.frag
  kept : state.Kept
  covered : state.Covered state.db.fragments
  reading : ∀ now sweep, state.janitor = some (now, sweep) → now ≤ state.clock
  sweeping : ∀ now sweep, state.janitor = some (now, some sweep) →
    SweepSound state.db.fragments now sweep

/-- A fragment is returned when its file is there. -/
theorem downloadFrag_eq_iff {db : ServerDb P} {hash : P.Hash} {frag : Fragment P} :
    db.downloadFrag hash = .ok (some frag) ↔ db.fragmentFiles.lookup hash = some frag := by
  simp [ServerDb.downloadFrag]

variable {state : FragmentRun P}

/-- A promise whose row is expired for the janitor is over. -/
theorem Sound.passed (sound : state.Sound) {now : NanoTimestamp} {sweep : Option (Sweep P)}
    (awake : state.janitor = some (now, sweep)) {frag : Fragment P} {due : Option Nat}
    (owed : (frag, due) ∈ state.owed) (expired : Expired state.db.fragments now (P.bcsHash frag)) :
    Passed state.clock due := by
  by_contra still
  obtain ⟨row, listed, covers⟩ := sound.covered frag due owed still
  obtain ⟨other, same, selected⟩ := expired
  rw [Option.mem_unique same listed] at selected
  exact still (passed_of_expired covers selected (sound.reading now sweep awake))

/-- The state stays sound while the clock goes on. -/
theorem Sound.tick (sound : state.Sound) {clock : NanoTimestamp} (later : state.clock ≤ clock) :
    ({ state with clock := clock } : FragmentRun P).Sound where
  stored := sound.stored
  kept frag due owed still :=
    sound.kept frag due owed fun passed => still (passed_mono later passed)
  covered frag due owed still :=
    sound.covered frag due owed fun passed => still (passed_mono later passed)
  reading now sweep awake := UInt64.le_trans (sound.reading now sweep awake) later
  sweeping := sound.sweeping

/-- Only the uploads in flight have changed. -/
theorem Sound.withUploads (sound : state.Sound) {uploads : List (FragUpload P)}
    (stored : ∀ upload ∈ uploads, upload.stored = true →
      ∀ file ∈ state.db.fragmentFiles.lookup (P.bcsHash upload.frag), file = upload.frag) :
    ({ state with uploads := uploads } : FragmentRun P).Sound :=
  ⟨stored, sound.kept, sound.covered, sound.reading, sound.sweeping⟩

/-- Only the janitor has moved. -/
theorem Sound.withJanitor (sound : state.Sound)
    {janitor : Option (NanoTimestamp × Option (Sweep P))}
    (reading : ∀ now sweep, janitor = some (now, sweep) → now ≤ state.clock)
    (sweeping : ∀ now sweep, janitor = some (now, some sweep) →
      SweepSound state.db.fragments now sweep) :
    ({ state with janitor := janitor } : FragmentRun P).Sound :=
  ⟨sound.stored, sound.kept, sound.covered, reading, sweeping⟩

/-- A file of this name has this content, whoever writes it. -/
theorem Sound.store (free : P.CollisionFree) (sound : state.Sound) (index : Nat)
    (upload : FragUpload P) : (state.store index upload).Sound where
  stored other listed stored file found := by
    rw [Option.mem_def, FragmentRun.store, withFiles, Table.lookup_insert_eq] at found
    split at found
    · rename_i same
      cases found
      exact (free.bcsHash_inj.mp same).symm
    · rename_i differs
      rcases List.mem_or_eq_of_mem_set listed with earlier | rfl
      · exact sound.stored other earlier stored file found
      · exact absurd rfl differs
  kept frag due owed still := by
    have held := sound.kept frag due owed still
    rw [downloadFrag_eq_iff] at held ⊢
    by_cases same : P.bcsHash frag = P.bcsHash upload.frag
    · obtain rfl := free.bcsHash_inj.mp same
      exact AList.lookup_insert state.db.fragmentFiles
    · exact (AList.lookup_insert_ne same).trans held
  covered := sound.covered
  reading := sound.reading
  sweeping := sound.sweeping

/-- The state stays sound when the row of a stored upload is committed. -/
theorem Sound.record (sound : state.Sound) {index : Nat} {upload : FragUpload P}
    (listed : state.uploads[index]? = some upload) (stored : upload.stored = true)
    (idle : state.idle = true)
    (there : P.bcsHash upload.frag ∈ state.db.fragmentFiles ∨ Passed state.clock upload.due)
    (fits : state.Fits upload) : (state.record index upload).Sound where
  stored other still :=
    sound.stored other (List.mem_of_mem_eraseIdx still)
  kept frag due owed still := by
    rcases List.mem_append.mp owed with earlier | last
    · exact sound.kept frag due earlier still
    · cases List.mem_singleton.mp last
      obtain ⟨file, held⟩ := Option.isSome_iff_exists.mp
        (AList.lookup_isSome.mpr (there.resolve_right still))
      have own := sound.stored upload (List.mem_of_getElem? listed) stored file held
      rw [own] at held
      exact downloadFrag_eq_iff.mpr held
  covered frag due owed still := by
    obtain ⟨merged, written, own, old⟩ := covers_upsertFragmentRow fits
    rcases List.mem_append.mp owed with earlier | last
    · obtain ⟨row, held, covers⟩ := sound.covered frag due earlier still
      by_cases same : P.bcsHash frag = P.bcsHash upload.frag
      · rw [same] at held ⊢
        exact ⟨merged, written, old row held due covers⟩
      · exact ⟨row, (lookup_upsertFragmentRow_ne same upload.row).trans held, covers⟩
    · cases List.mem_singleton.mp last
      exact ⟨merged, written, own⟩
  reading := sound.reading
  sweeping now sweep awake := by
    rw [FragmentRun.idle] at idle
    have same : state.janitor = some (now, some sweep) := awake
    rw [same] at idle
    contradiction

/-- The state stays sound when the janitor selects expired rows. -/
theorem Sound.select (sound : state.Sound) {now : NanoTimestamp} {hashes : List P.Hash}
    (awake : state.janitor = some (now, none)) (selects : Selects state.db.fragments now hashes) :
    ({ state with
      janitor := some (now, some ⟨state.db.fragments, hashes, none⟩) } : FragmentRun P).Sound := by
  refine sound.withJanitor ?_ ?_
  · intro other sweep same
    cases same
    exact sound.reading now none awake
  · intro other sweep same
    cases same
    exact ⟨selects.2.2, fun _ listed => by contradiction, fun _ => .inl rfl⟩

/-- The state stays sound when the janitor deletes a row. -/
theorem Sound.delete (sound : state.Sound) {now : NanoTimestamp}
    {rows : Table P.Hash FragmentRow} {hash : P.Hash} {pending : List P.Hash}
    (awake : state.janitor = some (now, some ⟨rows, hash :: pending, none⟩)) :
    ({ state with
      janitor := some (now, some ⟨rows.erase hash, pending, some hash⟩) } :
        FragmentRun P).Sound := by
  have sweeping := sound.sweeping now _ awake
  have expired := sweeping.pending hash List.mem_cons_self
  refine sound.withJanitor ?_ ?_
  · intro other sweep same
    cases same
    exact sound.reading now _ awake
  · intro other sweep same
    cases same
    refine ⟨fun found listed => sweeping.pending found (List.mem_cons_of_mem hash listed), ?_, ?_⟩
    · intro found same
      cases same
      exact expired
    · intro found
      by_cases same : found = hash
      · exact .inr (same ▸ expired)
      · rw [AList.lookup_erase_ne same]
        exact sweeping.rows found

/-- The file which the janitor removes is nobody's any more. -/
theorem Sound.remove (sound : state.Sound) {now : NanoTimestamp}
    {rows : Table P.Hash FragmentRow} {hash : P.Hash} {pending : List P.Hash}
    (awake : state.janitor = some (now, some ⟨rows, pending, some hash⟩)) (fails : Bool) :
    ({ state.withFiles (if fails then state.db.fragmentFiles
      else state.db.fragmentFiles.erase hash) with
      janitor := some (now, some ⟨rows, pending, none⟩) } : FragmentRun P).Sound where
  stored upload listed stored file found := by
    refine sound.stored upload listed stored file ?_
    cases fails with
    | true => exact found
    | false => exact Table.lookup_of_lookup_erase found
  kept frag due owed still := by
    have held := sound.kept frag due owed still
    cases fails with
    | true => exact held
    | false =>
        have differs : P.bcsHash frag ≠ hash := by
          rintro rfl
          exact still (sound.passed awake owed ((sound.sweeping now _ awake).removing _ rfl))
        rw [downloadFrag_eq_iff] at held ⊢
        exact (AList.lookup_erase_ne differs).trans held
  covered := sound.covered
  reading other sweep same := by
    cases same
    exact sound.reading now _ awake
  sweeping other sweep same := by
    cases same
    have sweeping := sound.sweeping now _ awake
    exact ⟨sweeping.pending, fun _ listed => by contradiction, sweeping.rows⟩

/-- The state stays sound when the janitor commits. -/
theorem Sound.commit (sound : state.Sound) {now : NanoTimestamp}
    {rows : Table P.Hash FragmentRow}
    (awake : state.janitor = some (now, some ⟨rows, [], none⟩)) :
    ({ state.withRows rows with janitor := some (now, none) } : FragmentRun P).Sound where
  stored := sound.stored
  kept := sound.kept
  covered frag due owed still := by
    rcases (sound.sweeping now _ awake).rows (P.bcsHash frag) with same | expired
    · obtain ⟨row, held, covers⟩ := sound.covered frag due owed still
      exact ⟨row, same.trans held, covers⟩
    · exact absurd (sound.passed awake owed expired) still
  reading other sweep same := by
    cases same
    exact sound.reading now _ awake
  sweeping other sweep same := by cases same

/-- Every step whose expiry fits and whose row lands keeps the state sound. -/
theorem sound_step (free : P.CollisionFree) {event : FragmentEvent P} {next : FragmentRun P}
    (sound : state.Sound) (fits : state.ExpiryFits event) (lands : state.Lands event)
    (taken : machine.step state event = some next) : next.Sound := by
  cases event with
  | tick clock =>
      obtain ⟨later, same⟩ := Option.ite_none_right_eq_some.mp taken
      cases same
      exact sound.tick later
  | upload auth frag ttl =>
      obtain ⟨_, same⟩ := Option.ite_none_right_eq_some.mp taken
      cases same
      refine sound.withUploads fun upload listed stored => ?_
      rcases List.mem_append.mp listed with earlier | last
      · exact sound.stored upload earlier stored
      · cases List.mem_singleton.mp last
        contradiction
  | store index =>
      simp only [machine] at taken
      split at taken
      · obtain ⟨_, same⟩ := Option.ite_none_left_eq_some.mp taken
        cases same
        exact sound.store free index _
      · contradiction
  | record index =>
      simp only [machine] at taken
      split at taken
      · rename_i upload listed
        obtain ⟨ready, same⟩ := Option.ite_none_right_eq_some.mp taken
        cases same
        obtain ⟨stored, idle⟩ := Bool.and_eq_true_iff.mp ready
        exact sound.record listed stored idle (lands upload listed) (fits upload listed)
      · contradiction
  | fail index =>
      cases taken
      exact sound.withUploads fun upload listed =>
        sound.stored upload (List.mem_of_mem_eraseIdx listed)
  | wake =>
      simp only [machine] at taken
      split at taken
      · cases taken
        refine sound.withJanitor ?_ ?_
        · intro now sweep same
          cases same
          exact UInt64.le_refl _
        · intro now sweep same
          cases same
      · contradiction
  | select hashes =>
      simp only [machine] at taken
      split at taken
      · rename_i now awake
        obtain ⟨selects, found⟩ := Option.ite_none_right_eq_some.mp taken
        split at found
        · cases found
          exact sound.withJanitor (fun _ _ same => by contradiction)
            fun _ _ same => by contradiction
        · cases found
          exact sound.select awake selects
      · contradiction
  | delete =>
      simp only [machine] at taken
      split at taken
      · rename_i awake
        cases taken
        exact sound.delete awake
      · contradiction
  | remove fails =>
      simp only [machine] at taken
      split at taken
      · rename_i awake
        cases taken
        exact sound.remove awake fails
      · contradiction
  | commit =>
      simp only [machine] at taken
      split at taken
      · rename_i awake
        cases taken
        exact sound.commit awake
      · contradiction
  | rollback =>
      simp only [machine] at taken
      split at taken
      · cases taken
        exact sound.withJanitor (fun _ _ same => by contradiction)
          fun _ _ same => by contradiction
      · contradiction

theorem start_sound (db : ServerDb P) (clock : NanoTimestamp) : (start db clock).Sound where
  stored _ listed := by contradiction
  kept _ _ owed := by contradiction
  covered _ _ owed := by contradiction
  reading _ _ awake := by contradiction
  sweeping _ _ awake := by contradiction

/-- A row which is committed without its file breaks the promise at once. -/
theorem lands_of_kept {event : FragmentEvent P} {next : FragmentRun P} (kept : next.Kept)
    (taken : machine.step state event = some next) : state.Lands event := by
  cases event with
  | record index =>
      intro upload listed
      rw [Option.mem_def] at listed
      simp only [machine, listed] at taken
      obtain ⟨_, same⟩ := Option.ite_none_right_eq_some.mp taken
      cases same
      refine Classical.or_iff_not_imp_right.mpr fun still => ?_
      have owed : (upload.frag, upload.due) ∈ (state.record index upload).owed :=
        List.mem_append_right state.owed List.mem_cons_self
      have held := downloadFrag_eq_iff.mp (kept upload.frag upload.due owed still)
      exact AList.lookup_isSome.mp (Option.isSome_of_mem held)
  | _ => trivial

/-- In a run in which the expiries fit, every download until the time is over returns the
fragment, exactly when every row is committed while its file is still there. -/
theorem kept_iff_lands (free : P.CollisionFree) (db : ServerDb P) (clock : NanoTimestamp)
    {events : List (FragmentEvent P)}
    (fits : machine.Along ExpiryFits (start db clock) events) :
    machine.Always Kept (start db clock) events ↔ machine.Along Lands (start db clock) events := by
  constructor
  · intro always before event position state next reached taken
    exact lands_of_kept (always (before ++ [event]) position next
      (Machine.exec_snoc.mpr ⟨state, reached, taken⟩)) taken
  · intro lands
    have both : machine.Along (fun state event => state.ExpiryFits event ∧ state.Lands event)
        (start db clock) events := fun before event position state next reached taken =>
      ⟨fits before event position state next reached taken,
        lands before event position state next reached taken⟩
    have always := Machine.always_of_along
      (fun sound guard taken => sound_step free sound guard.1 guard.2 taken)
      (start_sound db clock) both
    exact fun before position state reached => (always before position state reached).kept

/-- A server which knows Alice's device. -/
def tokenServer : ServerDb symbolic :=
  ServerDb.empty.insertAuthToken alice (symbolic.bcsHash (1 : UInt8)) .anonymous

def smallFragment : Fragment symbolic := .node []

def smallUpload : List (FragmentEvent symbolic) :=
  [.upload .anonymous smallFragment 1, .store 0, .record 0]

/-- The fragment is there for a second. -/
theorem kept_iff_lands_smallUpload :
    machine.Along ExpiryFits (start tokenServer 0) smallUpload ∧
      (machine.Always Kept (start tokenServer 0) smallUpload ↔
        machine.Along Lands (start tokenServer 0) smallUpload) := by
  have fits : machine.Along ExpiryFits (start tokenServer 0) smallUpload := by
    refine Machine.along_cons.mpr fun _ uploaded => ⟨trivial, ?_⟩
    cases uploaded
    refine Machine.along_cons.mpr fun _ stored => ⟨trivial, ?_⟩
    cases stored
    refine Machine.along_cons.mpr fun _ _ => ⟨?_, Machine.along_nil _ _⟩
    intro upload listed
    cases listed
    exact .inr (.inl (by decide))
  exact ⟨fits, kept_iff_lands symbolic_collisionFree tokenServer 0 fits⟩

/-- The fragment is uploaded for a second, and after this second for ever: the janitor has
selected its row before, and removes the file between the file's and the row's step. -/
def sweptUpload : List (FragmentEvent symbolic) :=
  smallUpload ++ [.tick 1000000000, .upload .anonymous smallFragment 0, .store 0, .wake,
    .select [symbolic.bcsHash smallFragment], .delete, .remove false, .commit, .record 0]

/-- At the last clock reading which is a positive `i64`, a second ends before it begins. -/
def wrappedUpload : List (FragmentEvent symbolic) :=
  smallUpload ++ [.wake, .select [symbolic.bcsHash smallFragment], .delete, .remove false]

/-- The uploads returned `Ok`, and there is nothing to download. -/
theorem sweptUpload_breaks :
    (∃ final, machine.exec (start tokenServer 0) sweptUpload = some final ∧
      final.db.downloadFrag (symbolic.bcsHash smallFragment) = .ok none ∧ ¬final.Kept) ∧
    ∃ final, machine.exec (start tokenServer 0x7FFFFFFFFFFFFFFF) wrappedUpload = some final ∧
      final.db.downloadFrag (symbolic.bcsHash smallFragment) = .ok none ∧ ¬final.Kept := by
  constructor
  · refine ⟨_, rfl, by decide, fun kept => ?_⟩
    have still : ¬Passed 1000000000 none := by
      rintro ⟨moment, listed, _⟩
      contradiction
    have held := kept smallFragment none (by decide) still
    revert held
    decide
  · refine ⟨_, rfl, by decide, fun kept => ?_⟩
    have still : ¬Passed 0x7FFFFFFFFFFFFFFF (some (0x7FFFFFFFFFFFFFFF + 1000000000)) := by
      rintro ⟨moment, listed, reached⟩
      cases listed
      revert reached
      decide
    have held := kept smallFragment (some (0x7FFFFFFFFFFFFFFF + 1000000000)) (by decide) still
    revert held
    decide

/-- An upload whose steps nothing comes between is the call. -/
theorem upload_alone {state : FragmentRun P} {auth : AuthToken} (frag : Fragment P) (ttl : UInt32)
    (env : CallEnv P) (reading : env.now = state.clock) (works : env.dbFails = false)
    (known : state.db.authTokenExists auth = true) (idle : state.idle = true) :
    (machine.exec state [.upload auth frag ttl, .store state.uploads.length,
      .record state.uploads.length]).map FragmentRun.db =
        some (state.db.uploadFrag env auth frag ttl).1 := by
  rw [FragmentRun.idle] at idle
  simp [Machine.exec_cons, machine, known, FragmentRun.store, FragmentRun.record, withFiles,
    withRows, FragmentRun.idle, idle, ServerDb.uploadFrag, works, reading, FragUpload.row]

end FragmentRun
end Nullspace
