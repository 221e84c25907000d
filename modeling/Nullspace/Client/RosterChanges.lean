import Nullspace.Client.Rekey
import Nullspace.Client.RosterLaws

/-!
# What a management message changes

The answer of `apply_manage_message`, the rows of the group and the version in the group's row
say the same: `applyManageMessage_exact`. The loops which watch the versions see every change
of a roster and nothing else.
-/

namespace Nullspace

open Nullspace.Base
open PeerDb (sharedDb sharedGroup sharedDb_lookup)

variable {P : Primitives}

/-- The rows of `group_members` for a group, as (username, is_admin, status). -/
def GroupRoster.rowSet (roster : GroupRoster) : Set (UserName × Bool × GroupMemberStatus) :=
  {row | roster.get row.1 = some ⟨row.2.1, row.2.2⟩}

/-- Rosters have the same set of rows when each user has the same row. -/
theorem GroupRoster.rowSet_eq_iff {first second : GroupRoster} :
    first.rowSet = second.rowSet ↔ ∀ user, first.get user = second.get user := by
  constructor
  · intro same user
    have row : ∀ member, first.get user = some member ↔ second.get user = some member :=
      fun member => Set.ext_iff.mp same (user, member.isAdmin, member.status)
    exact Option.ext row
  · intro same
    ext row
    exact iff_of_eq (congrArg (· = some _) (same row.1))

namespace ClientDb

/-- `apply_manage_message` on the group's rows, and its answer. -/
def applyManageMessage (db : ClientDb P) (groupId : GroupId P) (sender : UserName)
    (manage : GroupManageMsg) : ClientDb P × Bool :=
  match db.groups.lookup groupId with
  | none => (db, false)
  | some group =>
      (db.updateGroup groupId fun row =>
        { row with roster := (row.roster.applyManageMessage sender manage).1 },
        (group.roster.applyManageMessage sender manage).2)

/-- The transaction of the receive path is a load with the message behind it. -/
theorem applyManagement_ok {env : ClientEnv P} {groupId : GroupId P} {initAdmin sender : UserName}
    {manage : GroupManageMsg} {db next : ClientDb P}
    (applied : db.applyManagement env groupId initAdmin sender manage = (next, .ok ())) :
    ∃ loaded, db.loadRoster env groupId initAdmin = (loaded, .ok ()) ∧
      next = (loaded.applyManageMessage groupId sender manage).1 := by
  rw [applyManagement] at applied
  split at applied
  · cases applied
  · split at applied <;> rename_i loaded loads
    · cases applied
    · refine ⟨loaded, loads, ?_⟩
      split at applied
      · cases applied
      · split at applied
        · cases applied
        · cases applied
          rw [applyManageMessage]
          cases listed : loaded.groups.lookup groupId with
          | none => simp only [updateGroup, listed]
          | some group => rfl

theorem lookup_updateGroup_of_ne {groupId other : GroupId P} (apart : other ≠ groupId)
    (db : ClientDb P) (change : GroupRecord P → GroupRecord P) :
    (db.updateGroup groupId change).groups.lookup other = db.groups.lookup other := by
  rw [updateGroup]
  split
  · rfl
  · exact AList.lookup_insert_ne apart

/-- The answer is true exactly when rows of the group change; the version goes up by one then
and only then; no row but that of the message's subject changes, and no other group. -/
theorem applyManageMessage_exact {db : ClientDb P} {groupId : GroupId P} {group : GroupRecord P}
    (listed : db.groups.lookup groupId = some group) (sender : UserName)
    (manage : GroupManageMsg) :
    ∃ after : GroupRecord P,
      (db.applyManageMessage groupId sender manage).1.groups.lookup groupId = some after ∧
      ((db.applyManageMessage groupId sender manage).2 = true ↔
        after.roster.rowSet ≠ group.roster.rowSet) ∧
      (after.roster.rowSet ≠ group.roster.rowSet →
        after.roster.version = group.roster.version + 1) ∧
      (after.roster.rowSet = group.roster.rowSet →
        after.roster.version = group.roster.version) ∧
      (∀ user, user ≠ GroupRoster.subject sender manage →
        after.roster.get user = group.roster.get user) ∧
      ∀ other, other ≠ groupId →
        (db.applyManageMessage groupId sender manage).1.groups.lookup other =
          db.groups.lookup other := by
  have changed : (group.roster.applyManageMessage sender manage).2 = true ↔
      (group.roster.applyManageMessage sender manage).1.rowSet ≠ group.roster.rowSet := by
    rw [GroupRoster.applyManageMessage_changed, Ne, GroupRoster.rowSet_eq_iff]
    constructor
    · intro alters same
      have given := same (GroupRoster.subject sender manage)
      obtain ⟨row, ruled, differs⟩ := alters
      rw [GroupRoster.get_applyManageMessage, if_pos rfl, ruled, Option.getD_some] at given
      exact differs given
    · intro differs
      by_contra idle
      rw [GroupRoster.applyManageMessage_of_not_alters idle] at differs
      exact differs fun _ => rfl
  have version := GroupRoster.version_applyManageMessage group.roster sender manage
  simp only [applyManageMessage, listed]
  refine ⟨_, lookup_updateGroup listed _, changed, ?_, ?_, ?_, ?_⟩
  · intro differs
    rw [version, if_pos (changed.mpr differs)]
  · intro same
    rw [version, if_neg fun reported => changed.mp reported same]
  · intro user apart
    rw [GroupRoster.get_applyManageMessage, if_neg apart]
  · intro other apart
    exact lookup_updateGroup_of_ne apart db _

/-- Alice, who runs the group, bans Bobby. -/
theorem applyManageMessage_exact_ban : ∃ after : GroupRecord symbolic,
    (sharedDb.client.applyManageMessage exampleGroup.id alice (.ban bobby)).1.groups.lookup
      exampleGroup.id = some after ∧
    ((sharedDb.client.applyManageMessage exampleGroup.id alice (.ban bobby)).2 = true ↔
      after.roster.rowSet ≠ sharedGroup.roster.rowSet) ∧
    (after.roster.rowSet ≠ sharedGroup.roster.rowSet →
      after.roster.version = sharedGroup.roster.version + 1) ∧
    (after.roster.rowSet = sharedGroup.roster.rowSet →
      after.roster.version = sharedGroup.roster.version) ∧
    (∀ user, user ≠ GroupRoster.subject alice (.ban bobby) →
      after.roster.get user = sharedGroup.roster.get user) ∧
    ∀ other, other ≠ exampleGroup.id →
      (sharedDb.client.applyManageMessage exampleGroup.id alice (.ban bobby)).1.groups.lookup
        other = sharedDb.client.groups.lookup other :=
  applyManageMessage_exact sharedDb_lookup alice (.ban bobby)

end ClientDb
end Nullspace
