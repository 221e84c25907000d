import Nullspace.Base.Machine
import Nullspace.Client.RosterLaws

/-!
# Loads of a roster beside the receive task

`GroupRoster::load` runs outside a transaction for `group_members` and in the rekey loop:
each of its statements is a step of its own. The receive task loads and applies a message
in one transaction.

The run records what every load wrote. `initializedOnce_iff_harmless` says when the loads
of a run initialize the roster once and leave it alone afterwards.
-/

namespace Nullspace

open Nullspace.Base

namespace GroupRoster

/-- What a load does next. -/
inductive LoadStatement where
  /-- The `SELECT` of `roster_version`. -/
  | readVersion
  /-- The `SELECT` of `upsert_member`. -/
  | readMember
  /-- The `INSERT` of `upsert_member`. -/
  | insertMember
  /-- The `UPDATE` to `roster_version = 1`. -/
  | markVersion
  | done
deriving DecidableEq

/-- The roster around a write of a load, and the messages applied before. -/
structure LoadWrite where
  before : GroupRoster
  after : GroupRoster
  applied : Nat

def LoadWrite.ChangesMember (write : LoadWrite) : Prop :=
  ∃ user, write.after.get user ≠ write.before.get user

def LoadWrite.ChangesVersion (write : LoadWrite) : Prop :=
  write.after.version ≠ write.before.version

/-- A group's roster, the loads outside a transaction, and what loads have written. -/
structure LoadRun where
  roster : GroupRoster
  loads : List LoadStatement
  writes : List LoadWrite
  applied : Nat

namespace LoadRun

inductive Event where
  /-- A load outside a transaction begins. -/
  | load
  /-- Its next statement. -/
  | statement (index : Nat)
  /-- Its next statement fails, or nobody waits for it any more. -/
  | abandon (index : Nat)
  /-- The receive task's transaction commits. -/
  | receive (sender : UserName) (manage : GroupManageMsg)

/-- A load writes. -/
def write (state : LoadRun) (after : GroupRoster) : LoadRun :=
  { state with roster := after, writes := state.writes ++ [⟨state.roster, after, state.applied⟩] }

def proceed (state : LoadRun) (index : Nat) (next : LoadStatement) : LoadRun :=
  { state with loads := state.loads.set index next }

/-- One statement of a load. -/
def statement (initAdmin : UserName) (state : LoadRun) (index : Nat) : LoadStatement → Option LoadRun
  | .readVersion =>
      some (state.proceed index (if state.roster.version ≠ 0 then .done else .readMember))
  | .readMember =>
      some (state.proceed index
        (if state.roster.get initAdmin = some initialMember then .markVersion else .insertMember))
  | .insertMember =>
      some ((state.write { state.roster with
        members := state.roster.members.insert initAdmin initialMember }).proceed index .markVersion)
  | .markVersion =>
      some ((state.write { state.roster with version := 1 }).proceed index .done)
  | .done => none

/-- The group's tasks as a machine. -/
def machine (initAdmin : UserName) : Machine LoadRun Event where
  step state
    | .load => some { state with loads := state.loads ++ [.readVersion] }
    | .statement index => (state.loads[index]?).bind (statement initAdmin state index)
    | .abandon index => some (state.proceed index .done)
    | .receive sender manage =>
        let loaded := state.write (state.roster.ensureInitialized initAdmin)
        some { loaded with
          roster := (loaded.roster.applyManageMessage sender manage).1
          applied := loaded.applied + 1 }

/-- The row of a group. Its founder loads the roster in the transaction which writes the
row. -/
def start (initAdmin : UserName) (founder : Bool) : LoadRun :=
  if founder then (⟨empty, [], [], 0⟩ : LoadRun).write (empty.ensureInitialized initAdmin)
  else ⟨empty, [], [], 0⟩

/-- Loads change the members at most once and the version at most once, before any message
is applied, and afterwards they change no member and lower no version. -/
structure InitializedOnce (writes : List LoadWrite) : Prop where
  membersOnce : writes.Pairwise fun first second => ¬(first.ChangesMember ∧ second.ChangesMember)
  versionOnce : writes.Pairwise fun first second => ¬(first.ChangesVersion ∧ second.ChangesVersion)
  early : ∀ write ∈ writes, write.ChangesMember ∨ write.ChangesVersion → write.applied = 0
  afterwards : ∀ write ∈ writes, write.before.version ≠ 0 →
    ¬write.ChangesMember ∧ write.before.version ≤ write.after.version

/-- A load's `INSERT` finds the roster not initialized or the row which it writes, and its
`UPDATE` finds no version which it would lower. -/
def Harmless (initAdmin : UserName) (state : LoadRun) : Event → Prop
  | .statement index =>
      (state.loads[index]? = some .insertMember →
        state.roster.version = 0 ∨ state.roster.get initAdmin = some initialMember) ∧
      (state.loads[index]? = some .markVersion → state.roster.version ≤ 1)
  | _ => True

/-! ## What a load writes -/

/-- A write of a load sets the initial admin's row, the version, both, or neither. -/
structure Initial (initAdmin : UserName) (before after : GroupRoster) : Prop where
  rows : ∀ user, after.get user = before.get user ∨
    user = initAdmin ∧ after.get user = some initialMember
  version : after.version = before.version ∨ after.version = 1

theorem initial_insert (initAdmin : UserName) (roster : GroupRoster) :
    Initial initAdmin roster
      { roster with members := roster.members.insert initAdmin initialMember } where
  rows user := by
    have written := Table.lookup_insert_eq roster.members initAdmin user initialMember
    by_cases same : user = initAdmin
    · rw [if_pos same] at written
      exact .inr ⟨same, written⟩
    · rw [if_neg same] at written
      exact .inl written
  version := .inl rfl

theorem initial_mark (initAdmin : UserName) (roster : GroupRoster) :
    Initial initAdmin roster { roster with version := 1 } where
  rows _ := .inl rfl
  version := .inr rfl

theorem initial_ensureInitialized (initAdmin : UserName) (roster : GroupRoster) :
    Initial initAdmin roster (roster.ensureInitialized initAdmin) where
  rows user := by
    rw [get_ensureInitialized]
    split
    · rename_i first
      exact .inr ⟨first.2, rfl⟩
    · exact .inl rfl
  version := by
    rw [ensureInitialized]
    split
    · exact .inl rfl
    · exact .inr rfl

/-- As long as the version is zero no message has been applied, no load has changed the
version, and a load which changed a member wrote the initial admin's row. -/
structure Unmarked (initAdmin : UserName) (state : LoadRun) : Prop where
  applied : state.roster.version = 0 → state.applied = 0
  version : state.roster.version = 0 → ∀ write ∈ state.writes, ¬write.ChangesVersion
  member : state.roster.version = 0 → ∀ write ∈ state.writes, write.ChangesMember →
    state.roster.get initAdmin = some initialMember

variable {initAdmin : UserName} {state : LoadRun} {after : GroupRoster}

/-- A load which goes on without writing marks nothing. -/
theorem Unmarked.proceed (unmarked : state.Unmarked initAdmin) (index : Nat)
    (next : LoadStatement) : (state.proceed index next).Unmarked initAdmin :=
  ⟨unmarked.applied, unmarked.version, unmarked.member⟩

/-- A roster which carries a version has been initialized. -/
theorem unmarked_of_version (initialized : state.roster.version ≠ 0) :
    state.Unmarked initAdmin :=
  ⟨fun zero => absurd zero initialized, fun zero => absurd zero initialized,
    fun zero => absurd zero initialized⟩

/-- A write of a load keeps what holds before the version is set. -/
theorem Unmarked.write (unmarked : state.Unmarked initAdmin)
    (initial : Initial initAdmin state.roster after) : (state.write after).Unmarked initAdmin := by
  by_cases marked : after.version = 0
  · have before : state.roster.version = 0 := by
      rcases initial.version with same | one
      · exact same.symm.trans marked
      · rw [one] at marked
        contradiction
    refine ⟨fun _ => unmarked.applied before, fun _ write listed => ?_,
      fun _ write listed changes => ?_⟩
    · rcases List.mem_append.mp listed with earlier | last
      · exact unmarked.version before write earlier
      · rw [List.mem_singleton.mp last]
        exact not_not.mpr (marked.trans before.symm)
    · rcases List.mem_append.mp listed with earlier | last
      · have held := unmarked.member before write earlier changes
        rcases initial.rows initAdmin with same | ⟨_, written⟩
        · exact same.trans held
        · exact written
      · rw [List.mem_singleton.mp last] at changes
        obtain ⟨user, differs⟩ := changes
        obtain ⟨same, written⟩ := (initial.rows user).resolve_left differs
        exact same ▸ written
  · exact unmarked_of_version marked

/-- A write of a load is in order when it finds the roster not initialized, or leaves it. -/
theorem initializedOnce_write_iff (unmarked : state.Unmarked initAdmin)
    (once : InitializedOnce state.writes) (initial : Initial initAdmin state.roster after) :
    InitializedOnce (state.write after).writes ↔ (state.roster.version ≠ 0 →
      (∀ user, after.get user = state.roster.get user) ∧ state.roster.version ≤ after.version) := by
  constructor
  · intro still initialized
    have last : ⟨state.roster, after, state.applied⟩ ∈ (state.write after).writes :=
      List.mem_append_right state.writes List.mem_cons_self
    obtain ⟨keeps, grows⟩ := still.afterwards _ last initialized
    exact ⟨fun user => not_not.mp fun differs => keeps ⟨user, differs⟩, grows⟩
  · intro harmless
    -- The write leaves an initialized roster as it is.
    have settled : state.roster.version ≠ 0 → (∀ user, after.get user = state.roster.get user) ∧
        after.version = state.roster.version := by
      intro initialized
      obtain ⟨keeps, grows⟩ := harmless initialized
      refine ⟨keeps, ?_⟩
      have version := initial.version
      omega
    refine ⟨?_, ?_, ?_, ?_⟩
    · refine List.pairwise_append.mpr ⟨once.membersOnce, List.pairwise_singleton _ _, ?_⟩
      rintro earlier listed last isLast ⟨changed, user, differs⟩
      rw [List.mem_singleton.mp isLast] at differs
      by_cases zero : state.roster.version = 0
      · obtain ⟨same, written⟩ := (initial.rows user).resolve_left differs
        have held := unmarked.member zero earlier listed changed
        rw [same] at differs written
        exact differs (written.trans held.symm)
      · exact differs ((settled zero).1 user)
    · refine List.pairwise_append.mpr ⟨once.versionOnce, List.pairwise_singleton _ _, ?_⟩
      rintro earlier listed last isLast ⟨changed, differs⟩
      rw [List.mem_singleton.mp isLast] at differs
      by_cases zero : state.roster.version = 0
      · exact unmarked.version zero earlier listed changed
      · exact differs (settled zero).2
    · intro write listed changes
      rcases List.mem_append.mp listed with earlier | last
      · exact once.early write earlier changes
      · rw [List.mem_singleton.mp last] at changes ⊢
        by_cases zero : state.roster.version = 0
        · exact unmarked.applied zero
        · rcases changes with ⟨user, differs⟩ | differs
          · exact absurd ((settled zero).1 user) differs
          · exact absurd (settled zero).2 differs
    · intro write listed initialized
      rcases List.mem_append.mp listed with earlier | last
      · exact once.afterwards write earlier initialized
      · rw [List.mem_singleton.mp last] at initialized ⊢
        obtain ⟨keeps, grows⟩ := harmless initialized
        exact ⟨fun ⟨user, differs⟩ => differs (keeps user), grows⟩

/-- Every step keeps what holds before the version is set. -/
theorem step_unmarked {event : Event} {next : LoadRun} (unmarked : state.Unmarked initAdmin)
    (taken : (machine initAdmin).step state event = some next) : next.Unmarked initAdmin := by
  cases event with
  | load =>
      cases taken
      exact ⟨unmarked.applied, unmarked.version, unmarked.member⟩
  | statement index =>
      obtain ⟨phase, _, stated⟩ := Option.bind_eq_some_iff.mp taken
      cases phase with
      | readVersion =>
          cases stated
          exact unmarked.proceed index _
      | readMember =>
          cases stated
          exact unmarked.proceed index _
      | insertMember =>
          cases stated
          exact (unmarked.write (initial_insert initAdmin state.roster)).proceed index _
      | markVersion =>
          cases stated
          exact (unmarked.write (initial_mark initAdmin state.roster)).proceed index _
      | done => contradiction
  | abandon index =>
      cases taken
      exact unmarked.proceed index .done
  | receive sender manage =>
      cases taken
      refine unmarked_of_version fun zero => ?_
      have version := ensureInitialized_version state.roster initAdmin
      have grows := applyManageMessage_version (state.roster.ensureInitialized initAdmin) sender
        manage
      exact version (Nat.eq_zero_of_le_zero (Nat.le_trans grows (Nat.le_of_eq zero)))

/-- A step keeps to one initialization exactly when it is harmless. -/
theorem step_initializedOnce_iff {event : Event} {next : LoadRun}
    (unmarked : state.Unmarked initAdmin) (once : InitializedOnce state.writes)
    (taken : (machine initAdmin).step state event = some next) :
    InitializedOnce next.writes ↔ state.Harmless initAdmin event := by
  cases event with
  | load =>
      cases taken
      exact iff_of_true once trivial
  | statement index =>
      obtain ⟨phase, reached, stated⟩ := Option.bind_eq_some_iff.mp taken
      cases phase with
      | readVersion =>
          cases stated
          refine iff_of_true once ?_
          simp [Harmless, reached]
      | readMember =>
          cases stated
          refine iff_of_true once ?_
          simp [Harmless, reached]
      | insertMember =>
          cases stated
          have initial := initial_insert initAdmin state.roster
          refine (initializedOnce_write_iff unmarked once initial).trans ?_
          simp only [Harmless, reached, Option.some.injEq, reduceCtorEq, true_implies, false_implies,
            and_true, Nat.le_refl]
          constructor
          · intro harmless
            refine Classical.or_iff_not_imp_left.mpr fun initialized => ?_
            rw [← harmless initialized initAdmin]
            exact AList.lookup_insert state.roster.members
          · intro harmless initialized user
            have held := harmless.resolve_left initialized
            rcases initial.rows user with same | ⟨same, written⟩
            · exact same
            · rw [written, same, held]
      | markVersion =>
          cases stated
          refine (initializedOnce_write_iff unmarked once (initial_mark initAdmin _)).trans ?_
          simp only [Harmless, reached, Option.some.injEq, reduceCtorEq, true_implies, false_implies,
            true_and]
          constructor
          · intro harmless
            by_contra above
            have := (harmless (by omega)).2
            omega
          · intro low initialized
            exact ⟨fun _ => rfl, low⟩
      | done => contradiction
  | abandon index =>
      cases taken
      exact iff_of_true once trivial
  | receive sender manage =>
      cases taken
      have initial := initial_ensureInitialized initAdmin state.roster
      refine iff_of_true ((initializedOnce_write_iff unmarked once initial).mpr ?_) trivial
      intro initialized
      rw [ensureInitialized_of_version initialized]
      exact ⟨fun _ => rfl, Nat.le_refl _⟩

theorem start_unmarked (initAdmin : UserName) (founder : Bool) :
    (start initAdmin founder).Unmarked initAdmin := by
  have fresh : (⟨empty, [], [], 0⟩ : LoadRun).Unmarked initAdmin := by
    refine ⟨fun _ => rfl, fun _ write listed => ?_, fun _ write listed => ?_⟩ <;> contradiction
  cases founder with
  | false => exact fresh
  | true => exact fresh.write (initial_ensureInitialized initAdmin empty)

theorem start_initializedOnce (initAdmin : UserName) (founder : Bool) :
    InitializedOnce (start initAdmin founder).writes := by
  have fresh : (⟨empty, [], [], 0⟩ : LoadRun).Unmarked initAdmin := start_unmarked initAdmin false
  have once : InitializedOnce [] :=
    ⟨List.Pairwise.nil, List.Pairwise.nil, fun _ listed => by contradiction,
      fun _ listed => by contradiction⟩
  cases founder with
  | false => exact once
  | true =>
      refine (initializedOnce_write_iff fresh once
        (initial_ensureInitialized initAdmin empty)).mpr ?_
      intro initialized
      contradiction

/-- In every run of a group's tasks the loads initialize the roster once and leave it alone
afterwards, exactly when every statement of a load outside a transaction is harmless. -/
theorem initializedOnce_iff_harmless (initAdmin : UserName) (founder : Bool) (events : List Event) :
    (machine initAdmin).Always (fun state => InitializedOnce state.writes)
        (start initAdmin founder) events ↔
      (machine initAdmin).Along (Harmless initAdmin) (start initAdmin founder) events :=
  Machine.always_iff_along_within (fun state => state.Unmarked initAdmin) step_unmarked
    step_initializedOnce_iff (start_unmarked initAdmin founder)
    (start_initializedOnce initAdmin founder)

/-- `group_members` reads version zero, and Alice is banned by Bobby before it goes on. -/
def staleLoad : List Event :=
  [.load, .statement 0, .receive alice (.inviteSent bobby), .receive alice (.addAdmin bobby),
    .receive bobby (.ban alice), .statement 0, .statement 0, .statement 0]

/-- Alice is an admin again, and the version is back at one. -/
theorem staleLoad_breaks :
    ∃ final, (machine alice).exec (start alice false) staleLoad = some final ∧
      final.roster.get alice = some initialMember ∧ final.roster.version = 1 ∧
      ¬InitializedOnce final.writes := by
  refine ⟨_, rfl, by decide, by decide, ?_⟩
  intro once
  obtain ⟨_, grows⟩ := once.afterwards _ (List.mem_of_getLast? rfl) (by decide)
  revert grows
  decide

end LoadRun
end GroupRoster
end Nullspace
