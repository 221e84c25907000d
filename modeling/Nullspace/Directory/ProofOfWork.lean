import Mathlib.Data.List.Dedup
import Nullspace.Directory.Staging

/-!
# What an accepted update costs

`v1_insert_update` looks the seed of a solution up and leaves its row where it is: a seed is
deleted when it is out of date and at no other time. `Ledger` is a primary beside a record
of which solutions were presented and which of them got an update accepted. As long as the
seed lives, one solution serves for any number of updates.
-/

namespace Nullspace

open Nullspace.Base

variable {P : Primitives} {S : Smt P}

/-- An accepted insert, with the solution which it presented. -/
structure AcceptedInsert (P : Primitives) where
  key : String
  update : DirectoryUpdate P
  solution : PowSolution P

/-- A primary and what has been presented to it. The code keeps no such record. -/
structure Ledger (S : Smt P) where
  primary : Primary S
  /-- The solution of the last call under each number. -/
  presented : Table Nat (PowSolution P)
  submitted : List (PowSolution P)
  accepted : List (AcceptedInsert P)

/-- The insert which a push accepts, if it accepts one. -/
def Primary.acceptedPush (state : Primary S) (call : Nat) : Option (InsertCall P) :=
  match state.reading.lookup call with
  | none => none
  | some insert =>
      match insertPush state.staging insert.key insert.history insert.update with
      | .error _ => none
      | .ok _ => some insert

namespace Ledger

def fresh (store : S.Store) : Ledger S := ⟨.fresh store, ∅, [], []⟩

/-- What an event adds to the record. -/
def note (ledger : Ledger S) : PrimaryEvent P → Ledger S
  | .insertRead call _ _ _ solution =>
      { ledger with
        presented := ledger.presented.insert call solution
        submitted := ledger.submitted ++ [solution] }
  | .insertPush call =>
      match ledger.primary.acceptedPush call, ledger.presented.lookup call with
      | some insert, some solution =>
          { ledger with
            accepted := ledger.accepted ++ [⟨insert.key, insert.update, solution⟩] }
      | _, _ => ledger
  | _ => ledger

/-- The primary takes its steps, and each is noted. -/
def machine (equixVerify : Bytes → Bytes → Bool) : Machine (Ledger S) (PrimaryEvent P) where
  step ledger event :=
    ((Primary.machine equixVerify).step ledger.primary event).map fun next =>
      { ledger.note event with primary := next }

/-- The solutions which got an update accepted. -/
def spent (ledger : Ledger S) : List (PowSolution P) :=
  ledger.accepted.map AcceptedInsert.solution

/-- No solution authorised two updates, so there are no more updates than solutions. -/
structure CostsWork (ledger : Ledger S) : Prop where
  once : ledger.spent.Nodup
  bounded : ledger.accepted.length ≤ ledger.submitted.dedup.length

/-- An insert which fits its key's history gets the staging lock with a solution which has
not authorised an update yet. -/
def Unspent (ledger : Ledger S) : PrimaryEvent P → Prop
  | .insertPush call => ∀ insert solution, ledger.primary.reading.lookup call = some insert →
      ledger.presented.lookup call = some solution →
      ValidHistory (insert.history ++ ledger.primary.staged insert.key ++ [insert.update]) →
        solution ∉ ledger.spent
  | _ => True

/-- A call brings a solution which no call before it brought. -/
def OwnSolution (ledger : Ledger S) : PrimaryEvent P → Prop
  | .insertRead _ _ _ _ solution => solution ∉ ledger.submitted
  | _ => True

/-- What the record has to do with the primary. -/
structure Faithful (ledger : Ledger S) : Prop where
  waiting : ∀ call insert, ledger.primary.reading.lookup call = some insert →
    ∃ solution, ledger.presented.lookup call = some solution
  presented : ∀ call solution, ledger.presented.lookup call = some solution →
    solution ∈ ledger.submitted
  covered : ledger.spent ⊆ ledger.submitted
  recorded : ∀ key, (ledger.accepted.filter fun insert => insert.key = key).map
    AcceptedInsert.update = ledger.primary.accepted key

theorem faithful_fresh (store : S.Store) : (fresh (P := P) store).Faithful where
  waiting call insert found := by simp [fresh, Primary.fresh] at found
  presented call solution found := by simp [fresh] at found
  covered := List.nil_subset _
  recorded _ := rfl

theorem costsWork_fresh (store : S.Store) : (fresh (P := P) store).CostsWork where
  once := List.nodup_nil
  bounded := Nat.zero_le _

/-! ## Steps and runs -/

/-- What a step may do. -/
inductive Moved (ledger : Ledger S) : PrimaryEvent P → Ledger S → Prop
  | idle {event : PrimaryEvent P} {primary : Primary S}
      (notRead : ∀ call env key update solution,
        event ≠ .insertRead call env key update solution)
      (notPush : ∀ call, event ≠ .insertPush call)
      (reading : primary.reading = ledger.primary.reading)
      (accepted : primary.accepted = ledger.primary.accepted) :
      Moved ledger event { ledger with primary := primary }
  | read {call : Nat} {env : InsertEnv} {key : String} {update : DirectoryUpdate P}
      {solution : PowSolution P} {primary : Primary S}
      (reading : ∀ other insert, primary.reading.lookup other = some insert →
        other = call ∨ other ≠ call ∧ ledger.primary.reading.lookup other = some insert)
      (accepted : primary.accepted = ledger.primary.accepted) :
      Moved ledger (.insertRead call env key update solution)
        { ledger with
          primary := primary
          presented := ledger.presented.insert call solution
          submitted := ledger.submitted ++ [solution] }
  | rejected {call : Nat} {insert : InsertCall P}
      (waiting : ledger.primary.reading.lookup call = some insert)
      (invalid : ¬ValidHistory
        (insert.history ++ ledger.primary.staged insert.key ++ [insert.update])) :
      Moved ledger (.insertPush call)
        { ledger with
          primary := { ledger.primary with reading := ledger.primary.reading.erase call } }
  | accepted {call : Nat} {insert : InsertCall P} {solution : PowSolution P} {staging : Staging P}
      (waiting : ledger.primary.reading.lookup call = some insert)
      (presented : ledger.presented.lookup call = some solution)
      (valid : ValidHistory
        (insert.history ++ ledger.primary.staged insert.key ++ [insert.update])) :
      Moved ledger (.insertPush call)
        { ledger with
          primary := ledger.primary.accept call insert staging
          accepted := ledger.accepted ++ [⟨insert.key, insert.update, solution⟩] }

/-- A row found after an erasure has another key. -/
theorem lookup_erase_cases {Row : Type} {table : Table Nat Row} {key other : Nat} {row : Row}
    (found : (table.erase key).lookup other = some row) :
    other ≠ key ∧ table.lookup other = some row := by
  refine ⟨?_, Table.lookup_of_lookup_erase found⟩
  rintro rfl
  rw [AList.lookup_erase] at found
  cases found

/-- A refused update is not accepted. -/
theorem acceptedPush_eq_none {state : Primary S} {call : Nat} {insert : InsertCall P}
    {err : DirectoryErr} (waiting : state.reading.lookup call = some insert)
    (refused : insertPush state.staging insert.key insert.history insert.update = .error err) :
    state.acceptedPush call = none := by
  rw [Primary.acceptedPush]
  simp only [waiting, refused]

/-- An update which may be pushed is accepted. -/
theorem acceptedPush_eq_some {state : Primary S} {call : Nat} {insert : InsertCall P}
    {staging : Staging P} (waiting : state.reading.lookup call = some insert)
    (pushed : insertPush state.staging insert.key insert.history insert.update = .ok staging) :
    state.acceptedPush call = some insert := by
  rw [Primary.acceptedPush]
  simp only [waiting, pushed]

/-- What a step records of the accepted updates. -/
theorem Faithful.moved {equixVerify : Bytes → Bytes → Bool} {ledger next : Ledger S}
    {event : PrimaryEvent P} (faithful : ledger.Faithful)
    (taken : (machine equixVerify).step ledger event = some next) : Moved ledger event next := by
  obtain ⟨primary, moves, rfl⟩ := Option.map_eq_some_iff.mp taken
  cases event with
  | getPowSeed seed now inserted purged =>
      cases moves
      exact .idle (by simp) (by simp) rfl rfl
  | insertRead call env key update solution =>
      obtain ⟨free, outcome⟩ := Primary.step_insertRead moves
      have others : ∀ other insert, ledger.primary.reading.lookup other = some insert →
          other = call ∨ other ≠ call ∧ ledger.primary.reading.lookup other = some insert := by
        intro other insert found
        refine Or.inr ⟨?_, found⟩
        rintro rfl
        rw [AList.lookup_eq_none.mpr free] at found
        cases found
      rcases outcome with ⟨db, err, _, rfl⟩ | ⟨db, history, _, rfl⟩
      · exact .read others rfl
      · refine .read ?_ rfl
        intro other insert found
        rcases Table.lookup_insert_cases found with ⟨same, _⟩ | earlier
        · exact Or.inl same
        · exact others other insert earlier
  | insertPush call =>
      obtain ⟨insert, waiting, ⟨err, refused, invalid, rfl⟩ | ⟨staging, pushed, valid, rfl⟩⟩ :=
        Primary.step_insertPush moves
      · have unnoted : ledger.note (.insertPush call) = ledger := by
          simp only [note, acceptedPush_eq_none waiting refused]
        rw [unnoted]
        exact .rejected waiting invalid
      · obtain ⟨solution, presented⟩ := faithful.waiting call insert waiting
        have noted : ledger.note (.insertPush call) =
            { ledger with
              accepted := ledger.accepted ++ [⟨insert.key, insert.update, solution⟩] } := by
          simp only [note, acceptedPush_eq_some waiting pushed, presented]
        rw [noted]
        exact .accepted waiting presented valid
  | commitTake =>
      obtain ⟨_, rfl⟩ := Primary.step_commitTake moves
      exact .idle (by simp) (by simp) rfl rfl
  | commitFinish env =>
      obtain ⟨_, _, rfl⟩ := Primary.step_commitFinish moves
      exact .idle (by simp) (by simp) rfl rfl

/-- Every step keeps the record faithful. -/
theorem Faithful.step {equixVerify : Bytes → Bytes → Bool} {ledger next : Ledger S}
    {event : PrimaryEvent P} (faithful : ledger.Faithful)
    (taken : (machine equixVerify).step ledger event = some next) : next.Faithful := by
  cases faithful.moved taken with
  | idle _ _ reading accepted =>
      refine ⟨?_, faithful.presented, faithful.covered, ?_⟩
      · intro call insert found
        exact faithful.waiting call insert (reading ▸ found)
      · intro key
        rw [accepted]
        exact faithful.recorded key
  | @read call _ _ _ solution _ reading accepted =>
      refine ⟨?_, ?_, ?_, ?_⟩
      · intro other insert found
        dsimp only
        rw [Table.lookup_insert_eq]
        rcases reading other insert found with rfl | ⟨apart, earlier⟩
        · exact ⟨solution, if_pos rfl⟩
        · rw [if_neg apart]
          exact faithful.waiting other insert earlier
      · intro other presented found
        rcases Table.lookup_insert_cases found with ⟨_, rfl⟩ | earlier
        · exact List.mem_append_right _ (List.mem_singleton_self _)
        · exact List.mem_append_left _ (faithful.presented other presented earlier)
      · exact List.subset_append_of_subset_left _ faithful.covered
      · intro key
        rw [accepted]
        exact faithful.recorded key
  | rejected _ _ =>
      refine ⟨?_, faithful.presented, faithful.covered, faithful.recorded⟩
      intro call insert found
      exact faithful.waiting call insert (Table.lookup_of_lookup_erase found)
  | @accepted call insert solution staging _ presented _ =>
      refine ⟨?_, faithful.presented, ?_, ?_⟩
      · intro other waiting found
        exact faithful.waiting other waiting (Table.lookup_of_lookup_erase found)
      · rw [Ledger.spent, List.map_append]
        refine List.append_subset.mpr ⟨faithful.covered, ?_⟩
        exact List.cons_subset.mpr
          ⟨faithful.presented call solution presented, List.nil_subset _⟩
      · intro key
        rw [Primary.accepted_accept, List.filter_append, List.map_append, faithful.recorded key]
        by_cases same : key = insert.key
        · subst same
          simp
        · simp [same, Ne.symm same]

/-- In a faithful record, updates cost work as long as no solution is spent twice. -/
theorem Faithful.costsWork_iff {ledger : Ledger S} (faithful : ledger.Faithful) :
    ledger.CostsWork ↔ ledger.spent.Nodup := by
  refine ⟨CostsWork.once, ?_⟩
  intro once
  refine ⟨once, ?_⟩
  have within : ledger.spent ⊆ ledger.submitted.dedup :=
    fun solution listed => List.mem_dedup.mpr (faithful.covered listed)
  have size := (List.subperm_of_subset once within).length_le
  rwa [Ledger.spent, List.length_map] at size

/-- A step keeps the price exactly when it does not accept an update for a spent solution. -/
theorem Faithful.costsWork_step {equixVerify : Bytes → Bytes → Bool} {ledger next : Ledger S}
    {event : PrimaryEvent P} (faithful : ledger.Faithful) (costs : ledger.CostsWork)
    (taken : (machine equixVerify).step ledger event = some next) :
    next.CostsWork ↔ ledger.Unspent event := by
  rw [(faithful.step taken).costsWork_iff]
  cases faithful.moved taken with
  | idle notRead notPush _ _ =>
      refine iff_of_true costs.once ?_
      cases event with
      | insertPush call => exact absurd rfl (notPush call)
      | _ => trivial
  | read _ _ => exact iff_of_true costs.once trivial
  | rejected waiting invalid =>
      refine iff_of_true costs.once ?_
      intro insert solution found _ valid
      cases waiting.symm.trans found
      exact absurd valid invalid
  | @accepted call insert solution staging waiting presented valid =>
      have appended : ({ ledger with
            primary := ledger.primary.accept call insert staging
            accepted := ledger.accepted ++ [⟨insert.key, insert.update, solution⟩] } :
          Ledger S).spent = ledger.spent ++ [solution] := List.map_append
      rw [appended, ← List.concat_eq_append, List.nodup_concat, and_iff_left costs.once]
      constructor
      · intro unspent other brought found held _
        cases presented.symm.trans held
        exact unspent
      · intro unspent
        exact unspent insert solution waiting presented valid

/-- Solutions which are each presented once. -/
structure Frugal (ledger : Ledger S) : Prop where
  faithful : ledger.Faithful
  costs : ledger.CostsWork
  unspent : ∀ call insert solution, ledger.primary.reading.lookup call = some insert →
    ledger.presented.lookup call = some solution → solution ∉ ledger.spent
  apart : ∀ call other insert waiting solution,
    ledger.primary.reading.lookup call = some insert →
    ledger.primary.reading.lookup other = some waiting →
    ledger.presented.lookup call = some solution →
    ledger.presented.lookup other = some solution → call = other

theorem frugal_fresh (store : S.Store) : (fresh (P := P) store).Frugal where
  faithful := faithful_fresh store
  costs := costsWork_fresh store
  unspent call insert solution found := by simp [fresh, Primary.fresh] at found
  apart call other insert waiting solution found := by simp [fresh, Primary.fresh] at found

/-- A caller which uses its own solutions only uses an unspent one. -/
theorem Frugal.allows {ledger : Ledger S} (frugal : ledger.Frugal) (event : PrimaryEvent P) :
    ledger.Unspent event := by
  cases event with
  | insertPush call =>
      intro insert solution waiting presented _
      exact frugal.unspent call insert solution waiting presented
  | _ => trivial

/-- Calls with solutions of their own keep the solutions apart. -/
theorem Frugal.step {equixVerify : Bytes → Bytes → Bool} {ledger next : Ledger S}
    {event : PrimaryEvent P} (frugal : ledger.Frugal) (own : ledger.OwnSolution event)
    (taken : (machine equixVerify).step ledger event = some next) : next.Frugal := by
  refine ⟨frugal.faithful.step taken,
    (frugal.faithful.costsWork_step frugal.costs taken).mpr (frugal.allows event), ?_, ?_⟩
  · cases frugal.faithful.moved taken with
    | idle _ _ reading _ =>
        intro call insert solution found
        exact frugal.unspent call insert solution (reading ▸ found)
    | @read call _ _ _ solution _ reading _ =>
        intro other insert held found presented spent
        rcases Table.lookup_insert_cases presented with ⟨_, rfl⟩ | earlier
        · exact own (frugal.faithful.covered spent)
        · rcases reading other insert found with rfl | ⟨_, before⟩
          · dsimp only at presented
            rw [Table.lookup_insert_eq, if_pos rfl] at presented
            cases presented
            exact own (frugal.faithful.covered spent)
          · exact frugal.unspent other insert held before earlier spent
    | rejected _ _ =>
        intro call insert solution found
        exact frugal.unspent call insert solution (Table.lookup_of_lookup_erase found)
    | @accepted call insert solution staging waiting presented valid =>
        intro other brought held found heldBy spent
        obtain ⟨apart, before⟩ := lookup_erase_cases found
        rw [Ledger.spent, List.map_append] at spent
        rcases List.mem_append.mp spent with earlier | now
        · exact frugal.unspent other brought held before heldBy earlier
        · cases List.mem_singleton.mp now
          exact apart (frugal.apart other call brought insert _ before waiting heldBy presented)
  · cases frugal.faithful.moved taken with
    | idle _ _ reading _ =>
        intro call other insert waiting solution found also
        exact frugal.apart call other insert waiting solution (reading ▸ found) (reading ▸ also)
    | @read call _ _ _ solution _ reading _ =>
        have unheard : ∀ other, ledger.presented.lookup other ≠ some solution :=
          fun other held => own (frugal.faithful.presented other solution held)
        intro first second insert waiting shared found also held heldToo
        dsimp only at held heldToo
        rw [Table.lookup_insert_eq] at held heldToo
        rcases reading first insert found with rfl | ⟨apart, before⟩
        · rw [if_pos rfl] at held
          cases held
          rcases reading second waiting also with rfl | ⟨apart, _⟩
          · rfl
          · rw [if_neg apart] at heldToo
            exact absurd heldToo (unheard second)
        · rw [if_neg apart] at held
          rcases reading second waiting also with rfl | ⟨apart, beforeToo⟩
          · rw [if_pos rfl] at heldToo
            cases heldToo
            exact absurd held (unheard first)
          · rw [if_neg apart] at heldToo
            exact frugal.apart first second insert waiting shared before beforeToo held heldToo
    | rejected _ _ =>
        intro call other insert waiting solution found also
        exact frugal.apart call other insert waiting solution (Table.lookup_of_lookup_erase found)
          (Table.lookup_of_lookup_erase also)
    | accepted _ _ _ =>
        intro call other insert waiting solution found also
        exact frugal.apart call other insert waiting solution (Table.lookup_of_lookup_erase found)
          (Table.lookup_of_lookup_erase also)

/-- Every accepted update has cost a solution of its own exactly in the runs in which no
fitting update reaches the staging lock with a spent solution; among them are the runs whose
calls each bring a solution of their own. -/
theorem costsWork_iff_unspent (equixVerify : Bytes → Bytes → Bool) (store : S.Store)
    (events : List (PrimaryEvent P)) :
    ((machine equixVerify).Always CostsWork (fresh store) events ↔
      (machine equixVerify).Along Unspent (fresh store) events) ∧
    ((machine equixVerify).Along OwnSolution (fresh store) events →
      (machine equixVerify).Always CostsWork (fresh store) events) := by
  constructor
  · exact Machine.always_iff_along_within Faithful Faithful.step Faithful.costsWork_step
      (faithful_fresh store) (costsWork_fresh store)
  · intro own before position state reached
    exact (Machine.always_of_along Frugal.step (frugal_fresh store) own before position state
      reached).costs

/-- A primary issues a seed and commits its first header; then two names are inserted, the
second with the solution of the first. -/
def sharedSolutionRun : List (PrimaryEvent symbolic) :=
  [.getPowSeed [9] 0 true true, .commitTake, .commitFinish Primary.quietCommit,
    .insertRead 0 Primary.quietInsert "@alice" (firstUpdate 1) Primary.zeroSolution,
    .insertPush 0,
    .insertRead 1 Primary.quietInsert "@bobby" (firstUpdate 2) Primary.zeroSolution,
    .insertPush 1]

/-- Two accepted updates with the work of one. -/
theorem sharedSolutionRun_free :
    ((machine fun _ _ => true).exec (fresh (S := symbolicSmt) ()) sharedSolutionRun).map
        (fun ledger => (ledger.accepted.length, ledger.submitted.dedup.length)) = some (2, 1) ∧
      ¬(machine fun _ _ => true).Always CostsWork (fresh (S := symbolicSmt) ()) sharedSolutionRun := by
  have ends : ((machine fun _ _ => true).exec (fresh (S := symbolicSmt) ()) sharedSolutionRun).map
      (fun ledger => (ledger.accepted.length, ledger.submitted.dedup.length)) = some (2, 1) := by
    decide +kernel
  refine ⟨ends, ?_⟩
  intro always
  obtain ⟨ledger, reached, sizes⟩ := Option.map_eq_some_iff.mp ends
  simp only [Prod.mk.injEq] at sizes
  have bounded := (always.last reached).bounded
  omega

end Ledger
end Nullspace
