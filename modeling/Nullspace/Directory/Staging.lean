import Nullspace.Base.Machine
import Nullspace.Directory.Commit
import Nullspace.Symbolic

/-!
# Interleavings of inserts and commits

A run of the primary interleaves any number of `v1_insert_update` calls with the runs of
`commit_chunk`, of which the chunker starts one at a time. `KeepsAccepted` is what the
operations are for: committed, running and staged updates of a key always form a valid
history, no commit trips over its own batch, and an accepted update is in the history
once the commit which took it is over.

Nothing in the code makes an insert's history current when it gets the lock, and nothing
gives a failed commit's batch back. `keepsAccepted_iff` says that these are the only two
ways to lose the property.
-/

namespace Nullspace

open Nullspace.Base

variable {P : Primitives} {S : Smt P}

/-- An insert which has read a history and waits for the staging lock. -/
structure InsertCall (P : Primitives) where
  key : String
  update : DirectoryUpdate P
  history : List (DirectoryUpdate P)

/-- The state of a primary between two steps. -/
structure Primary (S : Smt P) where
  db : DirectoryDb S
  staging : Staging P
  /-- The batch of the running commit. -/
  committing : Option (Staging P)
  reading : Table Nat (InsertCall P)
  /-- The updates for which an insert returned `Ok`. The code keeps no such record. -/
  accepted : String → List (DirectoryUpdate P)

/-- One step of a call or of the chunker, with everything which is not the primary's choice. -/
inductive PrimaryEvent (P : Primitives) where
  | getPowSeed (seed : P.Hash) (now : Timestamp) (inserted purged : Bool)
  | insertRead (call : Nat) (env : InsertEnv) (key : String) (update : DirectoryUpdate P)
      (solution : PowSolution P)
  | insertPush (call : Nat)
  | commitTake
  | commitFinish (env : CommitEnv)

namespace Primary

/-- A primary which has just started over an empty database. -/
def fresh (store : S.Store) : Primary S := ⟨.fresh store, ∅, none, ∅, fun _ => []⟩

/-- The updates of a key in the running commit. -/
def inFlight (state : Primary S) (key : String) : List (DirectoryUpdate P) :=
  match state.committing with
  | none => []
  | some updates => Staging.pending updates key

def staged (state : Primary S) (key : String) : List (DirectoryUpdate P) :=
  Staging.pending state.staging key

/-- An insert returns `Ok` and leaves its update in the staging map. -/
def accept (state : Primary S) (call : Nat) (insert : InsertCall P) (staging : Staging P) :
    Primary S :=
  { state with
    staging := staging
    reading := state.reading.erase call
    accepted := Function.update state.accepted insert.key
      (state.accepted insert.key ++ [insert.update]) }

/-- The primary as a machine. -/
def machine (equixVerify : Bytes → Bytes → Bool) : Machine (Primary S) (PrimaryEvent P) where
  step state
    | .getPowSeed seed now inserted purged =>
        some { state with db := v1GetPowSeed state.db seed now inserted purged }
    | .insertRead call env key update solution =>
        if call ∈ state.reading then none
        else
          match insertRead equixVerify env state.db key solution with
          | (db, .error _) => some { state with db := db }
          | (db, .ok history) =>
              some { state with
                db := db
                reading := state.reading.insert call ⟨key, update, history⟩ }
    | .insertPush call =>
        match state.reading.lookup call with
        | none => none
        | some insert =>
            match insertPush state.staging insert.key insert.history insert.update with
            | .error _ => some { state with reading := state.reading.erase call }
            | .ok staging => some (state.accept call insert staging)
    | .commitTake =>
        match state.committing with
        | some _ => none
        | none => some { state with committing := some state.staging, staging := ∅ }
    | .commitFinish env =>
        match state.committing with
        | none => none
        | some updates =>
            some { state with db := (commitChunk env updates state.db).1, committing := none }

/-- What is committed, in flight and staged for a key is a valid history. -/
def Chained (state : Primary S) : Prop :=
  ∀ key, ∃ history, state.db.committed key = .ok history ∧
    ValidHistory (history ++ state.inFlight key ++ state.staged key)

/-- Whatever befalls the running commit, it does not fail on verification. -/
def Unpoisoned (state : Primary S) : Prop :=
  ∀ updates, state.committing = some updates → ∀ env err,
    (commitChunk env updates state.db).2 ≠ .error (.verification err)

/-- The events of one commit, from the take to the end, and what happens meanwhile. -/
def commitRun (middle : List (PrimaryEvent P)) (env : CommitEnv) : List (PrimaryEvent P) :=
  .commitTake :: middle ++ [.commitFinish env]

/-- No event of the list ends a commit. -/
def Unfinished (middle : List (PrimaryEvent P)) : Prop :=
  ∀ env, PrimaryEvent.commitFinish env ∉ middle

/-- No accepted update is lost, and none poisons a commit. -/
structure KeepsAccepted (equixVerify : Bytes → Bytes → Bool) (start : Primary S)
    (events : List (PrimaryEvent P)) : Prop where
  chained : (machine equixVerify).Always Chained start events
  unpoisoned : (machine equixVerify).Always Unpoisoned start events
  delivered : ∀ before middle env, before ++ commitRun middle env <+: events → Unfinished middle →
    ∀ taken finished, (machine equixVerify).exec start before = some taken →
      (machine equixVerify).exec taken (commitRun middle env) = some finished →
        ∀ key, ∀ update ∈ taken.accepted key, ∃ history,
          finished.db.committed key = .ok history ∧ update ∈ history

/-- An insert is accepted only over the history and the batch of the moment, and a
commit which carries updates is spared by failures. -/
def Current (state : Primary S) : PrimaryEvent P → Prop
  | .insertPush call => ∀ insert, state.reading.lookup call = some insert →
      ValidHistory (insert.history ++ state.staged insert.key ++ [insert.update]) →
        state.db.committed insert.key = .ok insert.history ∧ state.inFlight insert.key = []
  | .commitFinish env => ∀ updates, state.committing = some updates →
      env.Spares state.db updates ∨ ∀ key, Staging.pending updates key = []
  | _ => True

/-- The invariant behind the property: each key's accepted updates are, in order, what is
committed, in flight and staged, and every history read so far is a prefix of this. -/
structure Intact (state : Primary S) : Prop where
  sound : state.db.Sound
  line : ∀ key, ∃ history, state.db.committed key = .ok history ∧
    history ++ state.inFlight key ++ state.staged key = state.accepted key
  valid : ∀ key, ValidHistory (state.accepted key)
  reads : ∀ call insert, state.reading.lookup call = some insert → ∃ history,
    state.db.committed insert.key = .ok history ∧ insert.history <+: history

theorem intact_fresh (store : S.Store) : (fresh (P := P) store).Intact where
  sound := DirectoryDb.sound_fresh store
  line _ := ⟨[], rfl, rfl⟩
  valid _ := validHistory_nil
  reads call insert found := by simp [fresh] at found

/-- In an intact state every key's updates form a valid history. -/
theorem Intact.chained {state : Primary S} (intact : state.Intact) : state.Chained := by
  intro key
  obtain ⟨history, before, line⟩ := intact.line key
  refine ⟨history, before, ?_⟩
  rw [line]
  exact intact.valid key

/-- In an intact state the running commit does not fail on verification. -/
theorem Intact.unpoisoned {state : Primary S} (intact : state.Intact) : state.Unpoisoned := by
  intro updates running env err refused
  obtain ⟨key, history, before, invalid⟩ :=
    DirectoryDb.not_valid_of_verification (Prod.ext rfl refused)
  obtain ⟨earlier, earlierBefore, line⟩ := intact.line key
  have same : earlier = history := Except.ok.inj (earlierBefore.symm.trans before)
  have flight : state.inFlight key = Staging.pending updates key := by simp [inFlight, running]
  have valid := intact.valid key
  rw [← line, flight, same] at valid
  exact invalid valid.of_append

/-! ## Steps and runs -/

/-- Steps which touch neither histories nor batches: all they may add is a history that
was read just now. -/
theorem Intact.congr {state next : Primary S} (intact : state.Intact)
    (tables : next.db.headers = state.db.headers ∧ next.db.chunks = state.db.chunks ∧
      next.db.merkle = state.db.merkle)
    (staging : next.staging = state.staging) (committing : next.committing = state.committing)
    (accepted : next.accepted = state.accepted)
    (reads : ∀ call insert, next.reading.lookup call = some insert →
      state.reading.lookup call = some insert ∨
        state.db.committed insert.key = .ok insert.history) : next.Intact where
  sound := intact.sound.congr tables.1 tables.2.1 tables.2.2
  line key := by
    obtain ⟨history, before, line⟩ := intact.line key
    refine ⟨history, ?_, ?_⟩
    · rw [DirectoryDb.committed_congr tables.1 tables.2.2]
      exact before
    · rw [accepted, ← line, inFlight, inFlight, staged, staged, staging, committing]
  valid key := by
    rw [accepted]
    exact intact.valid key
  reads call insert found := by
    rw [DirectoryDb.committed_congr tables.1 tables.2.2]
    rcases reads call insert found with earlier | current
    · exact intact.reads call insert earlier
    · exact ⟨insert.history, current, List.prefix_refl _⟩

@[simp] theorem inFlight_accept (state : Primary S) (call : Nat) (insert : InsertCall P)
    (staging : Staging P) (key : String) :
    (state.accept call insert staging).inFlight key = state.inFlight key := rfl

theorem staged_accept (state : Primary S) (call : Nat) (insert : InsertCall P) (key : String) :
    (state.accept call insert (Staging.push state.staging insert.key insert.update)).staged key =
      if key = insert.key then state.staged insert.key ++ [insert.update] else state.staged key :=
  Staging.pending_push state.staging insert.key key insert.update

theorem accepted_accept (state : Primary S) (call : Nat) (insert : InsertCall P)
    (staging : Staging P) (key : String) :
    (state.accept call insert staging).accepted key =
      if key = insert.key then state.accepted insert.key ++ [insert.update]
      else state.accepted key := by
  by_cases touched : key = insert.key
  · subst touched
    simp [accept]
  · simp [accept, touched]

/-- An accepted push whose history was current keeps the invariant. -/
theorem Intact.push {state : Primary S} {call : Nat} {insert : InsertCall P}
    (intact : state.Intact)
    (accepts : ValidHistory (insert.history ++ state.staged insert.key ++ [insert.update]))
    (current : state.db.committed insert.key = .ok insert.history ∧
      state.inFlight insert.key = []) :
    (state.accept call insert (Staging.push state.staging insert.key insert.update)).Intact := by
  obtain ⟨before, idle⟩ := current
  obtain ⟨history, committedHistory, line⟩ := intact.line insert.key
  have same : history = insert.history := Except.ok.inj (committedHistory.symm.trans before)
  rw [same, idle, List.append_nil] at line
  refine ⟨intact.sound, ?_, ?_, ?_⟩
  · intro key
    rw [staged_accept, inFlight_accept, accepted_accept]
    by_cases touched : key = insert.key
    · subst touched
      refine ⟨insert.history, before, ?_⟩
      rw [if_pos rfl, if_pos rfl, idle, List.append_nil, ← line, List.append_assoc]
    · rw [if_neg touched, if_neg touched]
      exact intact.line key
  · intro key
    rw [accepted_accept]
    by_cases touched : key = insert.key
    · rw [if_pos touched, ← line]
      exact accepts
    · rw [if_neg touched]
      exact intact.valid key
  · intro other waitingOther found
    exact intact.reads other waitingOther (Table.lookup_of_lookup_erase found)

/-- The state stays intact when a commit takes the staged updates. -/
theorem Intact.take {state : Primary S} (intact : state.Intact) (idle : state.committing = none) :
    Intact { state with committing := some state.staging, staging := ∅ } where
  sound := intact.sound
  line key := by
    obtain ⟨history, before, line⟩ := intact.line key
    refine ⟨history, before, ?_⟩
    simp only [inFlight, idle, List.append_nil] at line
    simp only [inFlight, staged, Staging.pending_empty, List.append_nil]
    exact line
  valid := intact.valid
  reads := intact.reads

/-- After a commit: the histories it leaves, under the guard. -/
theorem Intact.committed_finish (free : P.CollisionFree) (functional : S.Functional [])
    {state : Primary S} {updates : Staging P} {env : CommitEnv} (intact : state.Intact)
    (running : state.committing = some updates)
    (spared : env.Spares state.db updates ∨ ∀ key, Staging.pending updates key = []) :
    (commitChunk env updates state.db).1.Sound ∧ ∀ key history,
      state.db.committed key = .ok history →
        (commitChunk env updates state.db).1.committed key =
          .ok (history ++ Staging.pending updates key) := by
  have succeeds : env.Spares state.db updates →
      ∃ next, commitChunk env updates state.db = (next, .ok ()) := by
    intro spares
    refine (intact.sound.commitChunk_succeeds functional).mpr ⟨spares, ?_⟩
    intro key _ history before
    obtain ⟨earlier, earlierBefore, line⟩ := intact.line key
    have same : earlier = history := Except.ok.inj (earlierBefore.symm.trans before)
    have valid := intact.valid key
    simp only [← line, inFlight, running, same] at valid
    exact valid.of_append
  rcases outcome : commitChunk env updates state.db with ⟨next, _ | _⟩
  · have empty : ∀ key, Staging.pending updates key = [] := by
      refine spared.resolve_left fun spares => ?_
      obtain ⟨other, done⟩ := succeeds spares
      simp [outcome] at done
    obtain ⟨sound, kept⟩ := intact.sound.commitChunk_keeps functional outcome
    refine ⟨sound, fun key history before => ?_⟩
    rw [kept key, empty key, List.append_nil]
    exact before
  · exact intact.sound.commitChunk_appends free functional outcome

/-- The state stays intact when a commit ends well, or took nothing. -/
theorem Intact.finish (free : P.CollisionFree) (functional : S.Functional [])
    {state : Primary S} {updates : Staging P} {env : CommitEnv} (intact : state.Intact)
    (running : state.committing = some updates)
    (spared : env.Spares state.db updates ∨ ∀ key, Staging.pending updates key = []) :
    Intact { state with db := (commitChunk env updates state.db).1, committing := none } := by
  obtain ⟨sound, appends⟩ := intact.committed_finish free functional running spared
  refine ⟨sound, ?_, intact.valid, ?_⟩
  · intro key
    obtain ⟨history, before, line⟩ := intact.line key
    refine ⟨_, appends key history before, ?_⟩
    simp only [inFlight, running] at line
    simp only [inFlight, staged, List.append_nil]
    exact line
  · intro call insert waiting
    obtain ⟨history, before, within⟩ := intact.reads call insert waiting
    exact ⟨_, appends insert.key history before, within.trans (List.prefix_append _ _)⟩

section Steps

variable {equixVerify : Bytes → Bytes → Bool} {state next : Primary S}

/-- The first half of an insertion is refused, or waits with the history which it read. -/
theorem step_insertRead {call : Nat} {env : InsertEnv} {key : String} {update : DirectoryUpdate P}
    {solution : PowSolution P}
    (taken : (machine equixVerify).step state (.insertRead call env key update solution) =
      some next) :
    call ∉ state.reading ∧
      ((∃ db err, insertRead equixVerify env state.db key solution = (db, .error err) ∧
          next = { state with db := db }) ∨
        ∃ db history, insertRead equixVerify env state.db key solution = (db, .ok history) ∧
          next = { state with
            db := db
            reading := state.reading.insert call ⟨key, update, history⟩ }) := by
  simp only [machine] at taken
  split at taken
  · cases taken
  · rename_i free
    refine ⟨free, ?_⟩
    split at taken
    · rename_i db err read
      exact Or.inl ⟨db, err, read, (Option.some.inj taken).symm⟩
    · rename_i db history read
      exact Or.inr ⟨db, history, read, (Option.some.inj taken).symm⟩

/-- A push accepts its update exactly when it extends the line which the insert sees. -/
theorem step_insertPush {call : Nat}
    (taken : (machine equixVerify).step state (.insertPush call) = some next) :
    ∃ insert, state.reading.lookup call = some insert ∧
      ((∃ err, insertPush state.staging insert.key insert.history insert.update = .error err ∧
          ¬ValidHistory (insert.history ++ state.staged insert.key ++ [insert.update]) ∧
          next = { state with reading := state.reading.erase call }) ∨
        ∃ staging,
          insertPush state.staging insert.key insert.history insert.update = .ok staging ∧
          ValidHistory (insert.history ++ state.staged insert.key ++ [insert.update]) ∧
          next = state.accept call insert staging) := by
  simp only [machine] at taken
  split at taken
  · cases taken
  · rename_i insert waiting
    refine ⟨insert, waiting, ?_⟩
    split at taken
    · rename_i err refused
      refine Or.inl ⟨err, refused, fun accepts => ?_, (Option.some.inj taken).symm⟩
      rw [insertPush_eq_ok.mpr ⟨accepts, rfl⟩] at refused
      cases refused
    · rename_i staging pushed
      exact Or.inr ⟨staging, pushed, (insertPush_eq_ok.mp pushed).1,
        (Option.some.inj taken).symm⟩

/-- A commit takes all of the staged updates, when none is running. -/
theorem step_commitTake (taken : (machine equixVerify).step state .commitTake = some next) :
    state.committing = none ∧
      next = { state with committing := some state.staging, staging := ∅ } := by
  simp only [machine] at taken
  split at taken
  · cases taken
  · rename_i idle
    exact ⟨idle, (Option.some.inj taken).symm⟩

/-- A commit ends with what it did to the database. -/
theorem step_commitFinish {env : CommitEnv}
    (taken : (machine equixVerify).step state (.commitFinish env) = some next) :
    ∃ updates, state.committing = some updates ∧
      next = { state with db := (commitChunk env updates state.db).1, committing := none } := by
  simp only [machine] at taken
  split at taken
  · cases taken
  · rename_i updates running
    exact ⟨updates, running, (Option.some.inj taken).symm⟩

end Steps

/-- A step which meets the guard keeps the invariant. -/
theorem Intact.step (free : P.CollisionFree) (functional : S.Functional [])
    {equixVerify : Bytes → Bytes → Bool} {state next : Primary S} {event : PrimaryEvent P}
    (intact : state.Intact) (current : state.Current event)
    (taken : (machine equixVerify).step state event = some next) : next.Intact := by
  cases event with
  | getPowSeed seed now inserted purged =>
      cases taken
      exact intact.congr (v1GetPowSeed_keeps state.db seed now inserted purged) rfl rfl rfl
        fun _ _ found => Or.inl found
  | insertRead call env key update solution =>
      have keeps := insertRead_keeps equixVerify env state.db key solution
      obtain ⟨_, ⟨db, err, read, rfl⟩ | ⟨db, history, read, rfl⟩⟩ := step_insertRead taken
      · rw [read] at keeps
        exact intact.congr keeps rfl rfl rfl fun _ _ found => Or.inl found
      · rw [read] at keeps
        refine intact.congr keeps rfl rfl rfl fun other insert found => ?_
        rcases Table.lookup_insert_cases found with ⟨_, same⟩ | found
        · cases same
          exact Or.inr (committed_of_insertRead read)
        · exact Or.inl found
  | insertPush call =>
      obtain ⟨insert, waiting, ⟨_, _, _, rfl⟩ | ⟨staging, pushed, accepts, rfl⟩⟩ :=
        step_insertPush taken
      · exact intact.congr ⟨rfl, rfl, rfl⟩ rfl rfl rfl
          fun _ _ found => Or.inl (Table.lookup_of_lookup_erase found)
      · obtain ⟨_, rfl⟩ := insertPush_eq_ok.mp pushed
        exact intact.push accepts (current insert waiting accepts)
  | commitTake =>
      obtain ⟨idle, rfl⟩ := step_commitTake taken
      exact intact.take idle
  | commitFinish env =>
      obtain ⟨updates, running, rfl⟩ := step_commitFinish taken
      exact intact.finish free functional running (current updates running)

/-- What inserts and seed requests may change: they add to the staging map and to the
record of what was accepted, and leave headers, chunks, trees and the batch alone. -/
structure Meanwhile (state next : Primary S) : Prop where
  committing : next.committing = state.committing
  tables : next.db.headers = state.db.headers ∧ next.db.chunks = state.db.chunks ∧
    next.db.merkle = state.db.merkle
  pushed : ∀ key, ∃ updates, next.staged key = state.staged key ++ updates ∧
    next.accepted key = state.accepted key ++ updates

theorem Meanwhile.refl (state : Primary S) : Meanwhile state state where
  committing := rfl
  tables := ⟨rfl, rfl, rfl⟩
  pushed _ := ⟨[], by simp⟩

theorem Meanwhile.trans {first second third : Primary S} (before : Meanwhile first second)
    (after : Meanwhile second third) : Meanwhile first third where
  committing := after.committing.trans before.committing
  tables := ⟨after.tables.1.trans before.tables.1, after.tables.2.1.trans before.tables.2.1,
    after.tables.2.2.trans before.tables.2.2⟩
  pushed key := by
    obtain ⟨early, earlyStaged, earlyAccepted⟩ := before.pushed key
    obtain ⟨late, lateStaged, lateAccepted⟩ := after.pushed key
    refine ⟨early ++ late, ?_, ?_⟩
    · rw [lateStaged, earlyStaged, List.append_assoc]
    · rw [lateAccepted, earlyAccepted, List.append_assoc]

/-- While a commit runs, the committed histories stay. -/
theorem Meanwhile.committed {state next : Primary S} (meanwhile : Meanwhile state next)
    (key : String) : next.db.committed key = state.db.committed key :=
  DirectoryDb.committed_congr meanwhile.tables.1 meanwhile.tables.2.2 key

/-- Every step but those of a commit. -/
theorem meanwhile_step {equixVerify : Bytes → Bytes → Bool} {state next : Primary S}
    {event : PrimaryEvent P} (noTake : event ≠ .commitTake)
    (noFinish : ∀ env, event ≠ .commitFinish env)
    (taken : (machine equixVerify).step state event = some next) : Meanwhile state next := by
  cases event with
  | getPowSeed seed now inserted purged =>
      cases taken
      exact ⟨rfl, v1GetPowSeed_keeps state.db seed now inserted purged, (Meanwhile.refl state).pushed⟩
  | insertRead call env key update solution =>
      have keeps := insertRead_keeps equixVerify env state.db key solution
      obtain ⟨_, ⟨db, err, read, rfl⟩ | ⟨db, history, read, rfl⟩⟩ := step_insertRead taken
      · rw [read] at keeps
        exact ⟨rfl, keeps, (Meanwhile.refl state).pushed⟩
      · rw [read] at keeps
        exact ⟨rfl, keeps, (Meanwhile.refl state).pushed⟩
  | insertPush call =>
      obtain ⟨insert, _, ⟨_, _, _, rfl⟩ | ⟨staging, pushed, _, rfl⟩⟩ := step_insertPush taken
      · exact ⟨rfl, ⟨rfl, rfl, rfl⟩, (Meanwhile.refl state).pushed⟩
      · obtain ⟨_, rfl⟩ := insertPush_eq_ok.mp pushed
        refine ⟨rfl, ⟨rfl, rfl, rfl⟩, fun key => ?_⟩
        rw [staged_accept, accepted_accept]
        by_cases touched : key = insert.key
        · subst touched
          exact ⟨[insert.update], by rw [if_pos rfl], by rw [if_pos rfl]⟩
        · rw [if_neg touched, if_neg touched]
          exact ⟨[], by simp⟩
  | commitTake => exact absurd rfl noTake
  | commitFinish env => exact absurd rfl (noFinish env)

/-- Every run which starts in a commit and does not end it. -/
theorem meanwhile_run {equixVerify : Bytes → Bytes → Bool} {state final : Primary S}
    {updates : Staging P} {middle : List (PrimaryEvent P)} (running : state.committing = some updates)
    (unfinished : Unfinished middle)
    (reached : (machine equixVerify).exec state middle = some final) : Meanwhile state final := by
  induction middle generalizing state with
  | nil =>
      cases reached
      exact .refl _
  | cons event rest ih =>
      rw [Machine.exec_cons] at reached
      obtain ⟨next, taken, remaining⟩ := Option.bind_eq_some_iff.mp reached
      have noTake : event ≠ .commitTake := by
        rintro rfl
        simp [machine, running] at taken
      have noFinish : ∀ env, event ≠ .commitFinish env := by
        rintro env rfl
        exact unfinished env List.mem_cons_self
      have first := meanwhile_step noTake noFinish taken
      have nextRunning := first.committing.trans running
      have restUnfinished : Unfinished rest := fun env listed =>
        unfinished env (List.mem_cons_of_mem _ listed)
      exact first.trans (ih nextRunning restUnfinished remaining)

/-- The states of one commit: where it was taken, and where it finished. -/
theorem exec_commitRun {equixVerify : Bytes → Bytes → Bool} {taken finished : Primary S}
    {middle : List (PrimaryEvent P)} {env : CommitEnv} (unfinished : Unfinished middle)
    (ran : (machine equixVerify).exec taken (commitRun middle env) = some finished) :
    taken.committing = none ∧ ∃ last, (machine equixVerify).exec
        { taken with committing := some taken.staging, staging := ∅ } middle = some last ∧
      Meanwhile { taken with committing := some taken.staging, staging := ∅ } last ∧
      finished =
        { last with db := (commitChunk env taken.staging last.db).1, committing := none } := by
  obtain ⟨last, reached, finish⟩ := Machine.exec_snoc.mp ran
  rw [Machine.exec_cons] at reached
  obtain ⟨next, take, remaining⟩ := Option.bind_eq_some_iff.mp reached
  obtain ⟨idle, rfl⟩ := step_commitTake take
  have begun : ({ taken with committing := some taken.staging, staging := ∅ } :
      Primary S).committing = some taken.staging := rfl
  have meanwhile := meanwhile_run begun unfinished remaining
  have running : last.committing = some taken.staging := meanwhile.committing
  obtain ⟨updates, carried, rfl⟩ := step_commitFinish finish
  cases running.symm.trans carried
  exact ⟨idle, last, remaining, meanwhile, rfl⟩

/-- A commit which runs was taken at some point, and nothing ended it since. -/
theorem exists_take {equixVerify : Bytes → Bytes → Bool} {start state : Primary S}
    {updates : Staging P} {before : List (PrimaryEvent P)} (idle : start.committing = none)
    (reached : (machine equixVerify).exec start before = some state)
    (running : state.committing = some updates) :
    ∃ first middle taken, before = first ++ .commitTake :: middle ∧ Unfinished middle ∧
      (machine equixVerify).exec start first = some taken ∧ taken.staging = updates := by
  induction before using List.reverseRecOn generalizing state with
  | nil =>
      cases reached
      simp [idle] at running
  | append_singleton events event ih =>
      obtain ⟨prior, priorReached, taken⟩ := Machine.exec_snoc.mp reached
      by_cases take : event = .commitTake
      · subst take
        refine ⟨events, [], prior, rfl, by simp [Unfinished], priorReached, ?_⟩
        obtain ⟨_, rfl⟩ := step_commitTake taken
        exact Option.some.inj running
      · have noFinish : ∀ env, event ≠ .commitFinish env := by
          rintro env rfl
          obtain ⟨_, _, rfl⟩ := step_commitFinish taken
          simp at running
        have meanwhile := meanwhile_step take noFinish taken
        have priorRunning := meanwhile.committing.symm.trans running
        obtain ⟨first, middle, start, rfl, unfinished, rest⟩ := ih priorReached priorRunning
        refine ⟨first, middle ++ [event], start, by simp, ?_, rest⟩
        intro env listed
        rcases List.mem_append.mp listed with earlier | last
        · exact unfinished env earlier
        · exact noFinish env (List.mem_singleton.mp last).symm

/-- What a run keeps its beginnings keep. -/
theorem KeepsAccepted.of_prefix {equixVerify : Bytes → Bytes → Bool} {start : Primary S}
    {events shorter : List (PrimaryEvent P)} (keeps : KeepsAccepted equixVerify start events)
    (within : shorter <+: events) : KeepsAccepted equixVerify start shorter where
  chained before position := keeps.chained before (position.trans within)
  unpoisoned before position := keeps.unpoisoned before (position.trans within)
  delivered before middle env position :=
    keeps.delivered before middle env (position.trans within)

/-- While no commit runs, an accepted update is committed or staged. -/
theorem Intact.mem_committed {state : Primary S} (intact : state.Intact)
    (idle : state.committing = none) {key : String} {update : DirectoryUpdate P}
    (accepted : update ∈ state.accepted key) : ∃ history,
      state.db.committed key = .ok history ∧ (update ∈ history ∨ update ∈ state.staged key) := by
  obtain ⟨history, before, line⟩ := intact.line key
  simp only [inFlight, idle, List.append_nil] at line
  rw [← line] at accepted
  exact ⟨history, before, List.mem_append.mp accepted⟩

/-- Under the guard, a commit delivers what was accepted when it took the staging map. -/
theorem delivered_of_along (free : P.CollisionFree) (functional : S.Functional [])
    {equixVerify : Bytes → Bytes → Bool} {taken finished : Primary S}
    {middle : List (PrimaryEvent P)} {env : CommitEnv} (intact : taken.Intact)
    (along : (machine equixVerify).Along Current taken (commitRun middle env))
    (unfinished : Unfinished middle)
    (ran : (machine equixVerify).exec taken (commitRun middle env) = some finished) :
    ∀ key, ∀ update ∈ taken.accepted key, ∃ history,
      finished.db.committed key = .ok history ∧ update ∈ history := by
  intro key update accepted
  obtain ⟨idle, last, reached, meanwhile, rfl⟩ := exec_commitRun unfinished ran
  have running : last.committing = some taken.staging := meanwhile.committing
  have takeThenMiddle : (machine equixVerify).exec taken (.commitTake :: middle) = some last := by
    rw [Machine.exec_cons]
    simp only [machine, idle]
    exact reached
  have inside := Machine.always_of_along (fun holds current => holds.step free functional current)
    intact along
  have lastIntact : last.Intact := inside _ (List.prefix_append _ [_]) last takeThenMiddle
  have finish : (machine equixVerify).step last (.commitFinish env) =
      some { last with db := (commitChunk env taken.staging last.db).1, committing := none } := by
    simp only [machine, running]
  have current := along _ _ (List.prefix_refl _) _ _ takeThenMiddle finish
  obtain ⟨_, appends⟩ := lastIntact.committed_finish free functional running
    (current taken.staging running)
  obtain ⟨history, before, held⟩ := intact.mem_committed idle accepted
  have lastBefore : last.db.committed key = .ok history := (meanwhile.committed key).trans before
  exact ⟨_, appends key history lastBefore, List.mem_append.mpr held⟩

/-- A push that keeps the key's line a valid history had read the whole line. -/
theorem Intact.current_of_chained (free : P.CollisionFree) {state : Primary S} {call : Nat}
    {insert : InsertCall P} (intact : state.Intact)
    (waiting : state.reading.lookup call = some insert)
    (accepts : ValidHistory (insert.history ++ state.staged insert.key ++ [insert.update]))
    (chained :
      (state.accept call insert (Staging.push state.staging insert.key insert.update)).Chained) :
    state.db.committed insert.key = .ok insert.history ∧ state.inFlight insert.key = [] := by
  obtain ⟨history, before, valid⟩ := chained insert.key
  rw [inFlight_accept, staged_accept, if_pos rfl, ← List.append_assoc] at valid
  obtain ⟨earlier, earlierBefore, rest, within⟩ := intact.reads call insert waiting
  have same : earlier = history := Except.ok.inj (earlierBefore.symm.trans before)
  obtain ⟨readLinked, readPrev⟩ := Linking.linkedFrom_snoc.mp accepts.linked
  obtain ⟨lineLinked, linePrev⟩ := Linking.linkedFrom_snoc.mp valid.linked
  have lines := readLinked.eq_of_tip free.updates lineLinked (readPrev.symm.trans linePrev)
  have whole : insert.history = history ++ state.inFlight insert.key :=
    List.append_cancel_right lines
  have lengths := congrArg List.length (within.trans same)
  have wholeLengths := congrArg List.length whole
  rw [List.length_append] at lengths wholeLengths
  have idle : state.inFlight insert.key = [] := List.eq_nil_of_length_eq_zero (by omega)
  rw [idle, List.append_nil] at whole
  exact ⟨whole ▸ before, idle⟩

/-- A commit which loses its batch loses an accepted update. -/
theorem spared_of_delivered (free : P.CollisionFree) (functional : S.Functional [])
    {equixVerify : Bytes → Bytes → Bool} {start state : Primary S} {updates : Staging P}
    {before : List (PrimaryEvent P)} {env : CommitEnv} (fresh : start.Intact)
    (idle : start.committing = none)
    (keeps : KeepsAccepted equixVerify start (before ++ [.commitFinish env]))
    (along : (machine equixVerify).Along Current start before)
    (reached : (machine equixVerify).exec start before = some state)
    (running : state.committing = some updates) :
    env.Spares state.db updates ∨ ∀ key, Staging.pending updates key = [] := by
  have inside := Machine.always_of_along (fun holds current => holds.step free functional current)
    fresh along
  have intact : state.Intact := inside.last reached
  by_contra neither
  rw [not_or, not_forall] at neither
  obtain ⟨struck, key, carried⟩ := neither
  obtain ⟨first, middle, taken, rfl, unfinished, takenReached, staging⟩ :=
    exists_take idle reached running
  have takenIntact : taken.Intact := inside first (List.prefix_append _ _) taken takenReached
  obtain ⟨update, listed⟩ := List.exists_mem_of_ne_nil _ carried
  have accepted : update ∈ taken.accepted key := by
    obtain ⟨_, _, line⟩ := takenIntact.line key
    rw [← line, staged, staging]
    exact List.mem_append_right _ listed
  -- the commit fails, so the histories stay as they were
  rcases outcome : commitChunk env updates state.db with ⟨next, err | done⟩
  · obtain ⟨_, kept⟩ := intact.sound.commitChunk_keeps functional outcome
    have finish : (machine equixVerify).step state (.commitFinish env) =
        some { state with db := next, committing := none } := by
      simp only [machine, running, outcome]
    have ran : (machine equixVerify).exec taken (commitRun middle env) =
        some { state with db := next, committing := none } := by
      refine Machine.exec_snoc.mpr ⟨state, ?_, finish⟩
      rw [Machine.exec_append, takenReached] at reached
      exact reached
    obtain ⟨history, after, member⟩ := keeps.delivered first middle env
      (by simp [commitRun]) unfinished taken _ takenReached ran key update accepted
    obtain ⟨earlier, earlierBefore, line⟩ := intact.line key
    have same : earlier = history :=
      Except.ok.inj (earlierBefore.symm.trans ((kept key).symm.trans after))
    have distinct := (intact.valid key).linked.nodup free.updates
    simp only [← line, inFlight, running, same] at distinct
    have apart := (List.nodup_append.mp (List.nodup_append.mp distinct).1).2.2
    exact apart update member update listed rfl
  · have succeeds : ∃ next, commitChunk env updates state.db = (next, .ok ()) := ⟨next, outcome⟩
    exact struck ((intact.sound.commitChunk_succeeds functional).mp succeeds).1

/-- No accepted update is lost or poisons a commit, exactly in the runs which accept only
over current histories and whose commits, when they carry updates, are spared. -/
theorem keepsAccepted_iff (free : P.CollisionFree) (functional : S.Functional [])
    (equixVerify : Bytes → Bytes → Bool) (store : S.Store) (events : List (PrimaryEvent P)) :
    KeepsAccepted equixVerify (fresh store) events ↔
      (machine equixVerify).Along Current (fresh store) events := by
  constructor
  · refine Machine.along_of_property (KeepsAccepted equixVerify (fresh store))
      KeepsAccepted.of_prefix ?_
    intro before event state next keeps along reached taken
    have intact : state.Intact :=
      (Machine.always_of_along (fun holds current => holds.step free functional current)
        (intact_fresh store) along).last reached
    cases event with
    | insertPush call =>
        intro insert waiting accepts
        have pushed : insertPush state.staging insert.key insert.history insert.update =
            .ok (Staging.push state.staging insert.key insert.update) :=
          insertPush_eq_ok.mpr ⟨accepts, rfl⟩
        have step : (machine equixVerify).step state (.insertPush call) =
            some (state.accept call insert (Staging.push state.staging insert.key insert.update)) := by
          simp only [machine, waiting, pushed]
        have whole := Machine.exec_snoc.mpr ⟨state, reached, step⟩
        exact intact.current_of_chained free waiting accepts
          (keeps.chained _ (List.prefix_refl _) _ whole)
    | commitFinish env =>
        intro updates running
        exact spared_of_delivered free functional (intact_fresh store) rfl keeps along reached running
    | getPowSeed => trivial
    | insertRead => trivial
    | commitTake => trivial
  · intro along
    have inside := Machine.always_of_along
      (fun holds current => holds.step free functional current) (intact_fresh store) along
    refine ⟨?_, ?_, ?_⟩
    · intro before position state reached
      exact (inside before position state reached).chained
    · intro before position state reached
      exact (inside before position state reached).unpoisoned
    · intro before middle env position unfinished taken finished reached ran
      have beforePosition : before <+: events := (List.prefix_append _ _).trans position
      have intact : taken.Intact := inside before beforePosition taken reached
      exact delivered_of_along free functional intact ((along.of_prefix position).rest reached)
        unfinished ran

def quietInsert : InsertEnv := ⟨0, fun _ => false⟩

def quietCommit : CommitEnv := ⟨0, fun _ => false⟩

def zeroSolution : PowSolution symbolic := ⟨[9], 0, List.replicate 16 0⟩

/-- Two calls read the empty history of a new name. The first is accepted and taken by a commit; the
second is accepted while that commit runs, against the history of before. -/
def staleRun : List (PrimaryEvent symbolic) :=
  [.getPowSeed [9] 0 true true, .commitTake, .commitFinish quietCommit,
    .insertRead 0 quietInsert "@alice" (firstUpdate 1) zeroSolution,
    .insertRead 1 quietInsert "@alice" (firstUpdate 2) zeroSolution,
    .insertPush 0, .commitTake, .insertPush 1]

theorem keepsAccepted_iff_staleRun :
    KeepsAccepted (fun _ _ => true) (fresh (S := symbolicSmt) ()) staleRun ↔
      (machine fun _ _ => true).Along Current (fresh (S := symbolicSmt) ()) staleRun :=
  keepsAccepted_iff symbolic_collisionFree symbolicSmt_functional _ _ _

/-- The run with a stale history loses an accepted update. -/
theorem staleRun_breaks :
    ¬KeepsAccepted (fun _ _ => true) (fresh (S := symbolicSmt) ()) staleRun := by
  intro keeps
  have ends : ((machine fun _ _ => true).exec (fresh (S := symbolicSmt) ()) staleRun).map
      (fun state => (state.db.committed "@alice", state.inFlight "@alice", state.staged "@alice")) =
      some (.ok [], [firstUpdate 1], [firstUpdate 2]) := by decide +kernel
  obtain ⟨state, reached, lines⟩ := Option.map_eq_some_iff.mp ends
  simp only [Prod.mk.injEq] at lines
  obtain ⟨empty, flight, staged⟩ := lines
  obtain ⟨history, before, valid⟩ := keeps.chained staleRun (List.prefix_refl _) state reached "@alice"
  have same : [] = history := Except.ok.inj (empty.symm.trans before)
  rw [flight, staged, ← same] at valid
  exact absurd valid (by decide +kernel)

end Primary
end Nullspace
