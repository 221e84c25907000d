import Nullspace.Base.Table
import Nullspace.Structs.E2ee

/-!
# Group rosters

`applyManageMessage` is the transition which the clients run on their tables. `ruling`
says what the authorization rules make of a message: the row which its subject gets.
`get_applyManageMessage` connects the two, and everything else about the transition is
read off the ruling.
-/

namespace Nullspace

open Nullspace.Base

inductive GroupMemberStatus where
  | pending
  | accepted
  | banned
deriving DecidableEq

/-- A row of `group_members`, under its username. -/
structure RosterMember where
  isAdmin : Bool
  status : GroupMemberStatus
deriving DecidableEq

def RosterMember.isActive (member : RosterMember) : Bool :=
  match member.status with
  | .pending | .accepted => true
  | .banned => false

/-- The members of one group, and the `roster_version` in the group's row. -/
structure GroupRoster where
  version : Nat
  members : Table UserName RosterMember
deriving DecidableEq

namespace GroupRoster

def empty : GroupRoster := ⟨0, ∅⟩

/-- `get_raw`. The table's checks leave no row with another status. -/
def get (roster : GroupRoster) (username : UserName) : Option RosterMember :=
  roster.members.lookup username

/-- `upsert_member`, and whether it wrote a row. -/
def upsertMember (roster : GroupRoster) (username : UserName) (member : RosterMember) :
    GroupRoster × Bool :=
  if roster.get username = some member then (roster, false)
  else ({ roster with members := roster.members.insert username member }, true)

/-- `remove_member`, and whether there was a row. -/
def removeMember (roster : GroupRoster) (username : UserName) : GroupRoster × Bool :=
  ({ roster with members := roster.members.erase username }, (roster.get username).isSome)

def bumpVersion (roster : GroupRoster) : GroupRoster := { roster with version := roster.version + 1 }

/-- The row of the initial admin. -/
def initialMember : RosterMember := ⟨true, .accepted⟩

/-- `ensure_initialized`: the initial admin is written once. -/
def ensureInitialized (roster : GroupRoster) (initAdmin : UserName) : GroupRoster :=
  if roster.version ≠ 0 then roster
  else { (roster.upsertMember initAdmin initialMember).1 with version := 1 }

def senderActive (roster : GroupRoster) (sender : UserName) : Bool :=
  match roster.get sender with
  | some member => member.isActive
  | none => false

def senderAdmin (roster : GroupRoster) (sender : UserName) : Bool :=
  match roster.get sender with
  | some member => member.isAdmin && member.isActive
  | none => false

/-- The change which a message asks for, and whether it wrote. -/
def change (roster : GroupRoster) (sender : UserName) : GroupManageMsg → GroupRoster × Bool
  | .inviteSent username =>
      if !roster.senderActive sender then (roster, false)
      else
        match roster.get username with
        | some _ => (roster, false)
        | none => roster.upsertMember username ⟨false, .pending⟩
  | .inviteAccepted =>
      match roster.get sender with
      | some member =>
          if member.status = .banned then (roster, false)
          else roster.upsertMember sender ⟨false, .accepted⟩
      | none => roster.upsertMember sender ⟨false, .accepted⟩
  | .leave =>
      match roster.get sender with
      | some member =>
          if member.status = .banned then (roster, false) else roster.removeMember sender
      | none => (roster, false)
  | .ban username =>
      if !roster.senderAdmin sender then (roster, false)
      else roster.upsertMember username ⟨false, .banned⟩
  | .unban username =>
      if !roster.senderAdmin sender then (roster, false)
      else
        match roster.get username with
        | some member =>
            if member.status = .banned then roster.upsertMember username ⟨false, .pending⟩
            else (roster, false)
        | none => (roster, false)
  | .addAdmin username =>
      if !roster.senderAdmin sender then (roster, false)
      else
        match roster.get username with
        | some member =>
            if member.isActive then roster.upsertMember username ⟨true, member.status⟩
            else (roster, false)
        | none => (roster, false)
  | .removeAdmin username =>
      if !roster.senderAdmin sender then (roster, false)
      else
        match roster.get username with
        | some member =>
            if member.isActive then roster.upsertMember username ⟨false, member.status⟩
            else (roster, false)
        | none => (roster, false)

/-- `apply_manage_message`, and whether it changed the roster. -/
def applyManageMessage (roster : GroupRoster) (sender : UserName) (manage : GroupManageMsg) :
    GroupRoster × Bool :=
  let (next, changed) := roster.change sender manage
  if changed then (next.bumpVersion, true) else (next, false)

/-! ## The authorization rules -/

/-- The user whose row a message is about. -/
def subject (sender : UserName) : GroupManageMsg → UserName
  | .inviteSent username | .ban username | .unban username | .addAdmin username
  | .removeAdmin username => username
  | .inviteAccepted | .leave => sender

/-- The row, or the absence of one, which the rules give the subject; `none` when the
message is to be ignored. -/
def ruling (roster : GroupRoster) (sender : UserName) :
    GroupManageMsg → Option (Option RosterMember)
  | .inviteSent username =>
      if roster.senderActive sender ∧ roster.get username = none then some (some ⟨false, .pending⟩)
      else none
  | .inviteAccepted =>
      if ∃ member ∈ roster.get sender, member.status = .banned then none
      else some (some ⟨false, .accepted⟩)
  | .leave =>
      if ∃ member ∈ roster.get sender, member.status ≠ .banned then some none else none
  | .ban _ => if roster.senderAdmin sender then some (some ⟨false, .banned⟩) else none
  | .unban username =>
      if roster.senderAdmin sender ∧ ∃ member ∈ roster.get username, member.status = .banned then
        some (some ⟨false, .pending⟩)
      else none
  | .addAdmin username =>
      if roster.senderAdmin sender then
        ((roster.get username).filter RosterMember.isActive).map fun member =>
          some ⟨true, member.status⟩
      else none
  | .removeAdmin username =>
      if roster.senderAdmin sender then
        ((roster.get username).filter RosterMember.isActive).map fun member =>
          some ⟨false, member.status⟩
      else none

/-- The message is allowed and gives its subject another row. -/
def Alters (roster : GroupRoster) (sender : UserName) (manage : GroupManageMsg) : Prop :=
  ∃ row, roster.ruling sender manage = some row ∧ row ≠ roster.get (subject sender manage)

/-- A row which is written is the only one which changes. -/
theorem get_upsertMember (roster : GroupRoster) (username user : UserName) (member : RosterMember) :
    (roster.upsertMember username member).1.get user =
      if user = username then some member else roster.get user := by
  rw [upsertMember]
  split
  · rename_i same
    by_cases equal : user = username
    · rw [if_pos equal, equal, same]
    · rw [if_neg equal]
  · exact Table.lookup_insert_eq roster.members username user member

/-- A row is written where it differs from the one there. -/
theorem upsertMember_wrote (roster : GroupRoster) (username : UserName) (member : RosterMember) :
    (roster.upsertMember username member).2 = true ↔ some member ≠ roster.get username := by
  rw [upsertMember]
  split <;> rename_i held
  · simp [held]
  · simp [Ne.symm held]

theorem upsertMember_version (roster : GroupRoster) (username : UserName) (member : RosterMember) :
    (roster.upsertMember username member).1.version = roster.version := by
  rw [upsertMember]
  split <;> rfl

/-- A row which is removed is the only one which changes. -/
theorem get_removeMember (roster : GroupRoster) (username user : UserName) :
    (roster.removeMember username).1.get user =
      if user = username then none else roster.get user := by
  by_cases equal : user = username
  · rw [if_pos equal, equal]
    exact AList.lookup_erase username roster.members
  · rw [if_neg equal]
    exact AList.lookup_erase_ne equal

/-- What the rules decide is what a change does. -/
structure Follows (roster : GroupRoster) (user : UserName) (row : Option (Option RosterMember))
    (outcome : GroupRoster × Bool) : Prop where
  get : ∀ other, outcome.1.get other = if other = user then row.getD (roster.get user)
    else roster.get other
  wrote : outcome.2 = true ↔ ∃ given, row = some given ∧ given ≠ roster.get user
  kept : outcome.2 = false → outcome.1 = roster
  version : outcome.1.version = roster.version

/-- A message which is ignored changes nothing. -/
theorem follows_ignored (roster : GroupRoster) (user : UserName) :
    roster.Follows user none (roster, false) where
  get other := by
    by_cases same : other = user
    · simp [same]
    · simp [same]
  wrote := by simp
  kept _ := rfl
  version := rfl

/-- A row which the rules give is written. -/
theorem follows_upsert (roster : GroupRoster) (user : UserName) (member : RosterMember) :
    roster.Follows user (some (some member)) (roster.upsertMember user member) where
  get other := get_upsertMember roster user other member
  wrote := by simp [upsertMember_wrote]
  kept unwritten := by
    rw [upsertMember] at unwritten ⊢
    split
    · rfl
    · rename_i differs
      simp [differs] at unwritten
  version := upsertMember_version roster user member

/-- A row which the rules take is removed. -/
theorem follows_remove {roster : GroupRoster} {user : UserName} {member : RosterMember}
    (listed : roster.get user = some member) :
    roster.Follows user (some none) (roster.removeMember user) where
  get other := get_removeMember roster user other
  wrote := by simp [removeMember, listed]
  kept unwritten := by simp [removeMember, listed] at unwritten
  version := rfl

/-- Granting and revoking differ in the flag alone. -/
theorem follows_setAdmin (roster : GroupRoster) (sender username : UserName) (isAdmin : Bool) :
    roster.Follows username
      (if roster.senderAdmin sender then
        ((roster.get username).filter RosterMember.isActive).map fun member =>
          some ⟨isAdmin, member.status⟩
      else none)
      (if !roster.senderAdmin sender then (roster, false)
      else
        match roster.get username with
        | some member =>
            if member.isActive then roster.upsertMember username ⟨isAdmin, member.status⟩
            else (roster, false)
        | none => (roster, false)) := by
  cases admin : roster.senderAdmin sender with
  | false => simpa using follows_ignored roster username
  | true =>
      cases listed : roster.get username with
      | none => simpa using follows_ignored roster username
      | some member =>
          cases active : member.isActive with
          | true => simpa [Option.filter, active] using follows_upsert roster username _
          | false => simpa [Option.filter, active] using follows_ignored roster username

/-- Every change is what the rules decide. -/
theorem change_follows (roster : GroupRoster) (sender : UserName) (manage : GroupManageMsg) :
    roster.Follows (subject sender manage) (roster.ruling sender manage)
      (roster.change sender manage) := by
  cases manage with
  | inviteSent username =>
      cases active : roster.senderActive sender with
      | false => simpa [change, ruling, subject, active] using follows_ignored roster username
      | true =>
          cases listed : roster.get username with
          | none => simpa [change, ruling, subject, active, listed] using follows_upsert roster username _
          | some member => simpa [change, ruling, subject, active, listed] using follows_ignored roster username
  | inviteAccepted =>
      cases listed : roster.get sender with
      | none => simpa [change, ruling, subject, listed] using follows_upsert roster sender _
      | some member =>
          by_cases banned : member.status = .banned
          · simpa [change, ruling, subject, listed, banned] using follows_ignored roster sender
          · simpa [change, ruling, subject, listed, banned] using follows_upsert roster sender _
  | leave =>
      cases listed : roster.get sender with
      | none => simpa [change, ruling, subject, listed] using follows_ignored roster sender
      | some member =>
          by_cases banned : member.status = .banned
          · simpa [change, ruling, subject, listed, banned] using follows_ignored roster sender
          · simpa [change, ruling, subject, listed, banned] using follows_remove listed
  | ban username =>
      cases admin : roster.senderAdmin sender with
      | false => simpa [change, ruling, subject, admin] using follows_ignored roster username
      | true => simpa [change, ruling, subject, admin] using follows_upsert roster username _
  | unban username =>
      cases admin : roster.senderAdmin sender with
      | false => simpa [change, ruling, subject, admin] using follows_ignored roster username
      | true =>
          cases listed : roster.get username with
          | none => simpa [change, ruling, subject, admin, listed] using follows_ignored roster username
          | some member =>
              by_cases banned : member.status = .banned
              · simpa [change, ruling, subject, admin, listed, banned] using
                  follows_upsert roster username _
              · simpa [change, ruling, subject, admin, listed, banned] using
                  follows_ignored roster username
  | addAdmin username => exact follows_setAdmin roster sender username true
  | removeAdmin username => exact follows_setAdmin roster sender username false

/-- A message gives the rows of its change. -/
theorem applyManageMessage_get (roster : GroupRoster) (sender user : UserName)
    (manage : GroupManageMsg) : (roster.applyManageMessage sender manage).1.get user =
      (roster.change sender manage).1.get user := by
  simp only [applyManageMessage]
  split <;> rfl

/-- A message rewrites the row of its subject as the rules say, and no other row. -/
theorem get_applyManageMessage (roster : GroupRoster) (sender user : UserName)
    (manage : GroupManageMsg) :
    (roster.applyManageMessage sender manage).1.get user =
      if user = subject sender manage then
        (roster.ruling sender manage).getD (roster.get (subject sender manage))
      else roster.get user := by
  rw [applyManageMessage_get]
  exact (change_follows roster sender manage).get user

/-- The reported change is a change of the subject's row. -/
theorem applyManageMessage_changed (roster : GroupRoster) (sender : UserName)
    (manage : GroupManageMsg) :
    (roster.applyManageMessage sender manage).2 = true ↔ roster.Alters sender manage := by
  rw [Alters, ← (change_follows roster sender manage).wrote]
  simp only [applyManageMessage]
  split <;> rename_i changed <;> simp [changed]

/-- The version counts the changes. -/
theorem applyManageMessage_version (roster : GroupRoster) (sender : UserName)
    (manage : GroupManageMsg) :
    roster.version ≤ (roster.applyManageMessage sender manage).1.version := by
  have version := (change_follows roster sender manage).version
  simp only [applyManageMessage]
  split
  · rw [← version]
    exact Nat.le_succ _
  · exact Nat.le_of_eq version.symm

/-- A message which is not allowed, or asks for what is so already, leaves the roster alone. -/
theorem applyManageMessage_of_not_alters {roster : GroupRoster} {sender : UserName}
    {manage : GroupManageMsg} (idle : ¬roster.Alters sender manage) :
    (roster.applyManageMessage sender manage).1 = roster := by
  have follows := change_follows roster sender manage
  have unwritten : (roster.change sender manage).2 = false := by
    rw [← Bool.not_eq_true]
    exact fun wrote => idle (follows.wrote.mp wrote)
  have kept := follows.kept unwritten
  simp only [applyManageMessage, unwritten]
  exact kept

/-- The roster stays exactly when the message does not alter it. -/
theorem applyManageMessage_eq_iff {roster : GroupRoster} {sender : UserName}
    {manage : GroupManageMsg} :
    (roster.applyManageMessage sender manage).1 = roster ↔ ¬roster.Alters sender manage := by
  refine ⟨?_, applyManageMessage_of_not_alters⟩
  rintro same ⟨row, ruled, differs⟩
  have given := get_applyManageMessage roster sender (subject sender manage) manage
  rw [same, if_pos rfl, ruled, Option.getD_some] at given
  exact differs given.symm

/-- The same version, and the same row for every user. -/
structure Same (first second : GroupRoster) : Prop where
  version : first.version = second.version
  rows : ∀ user, first.get user = second.get user

theorem Same.refl (roster : GroupRoster) : roster.Same roster := ⟨rfl, fun _ => rfl⟩

theorem Same.symm {first second : GroupRoster} (same : first.Same second) : second.Same first :=
  ⟨same.version.symm, fun user => (same.rows user).symm⟩

theorem Same.trans {first second third : GroupRoster} (left : first.Same second)
    (right : second.Same third) : first.Same third :=
  ⟨left.version.trans right.version, fun user => (left.rows user).trans (right.rows user)⟩

theorem Same.senderAdmin {first second : GroupRoster} (same : first.Same second)
    (sender : UserName) : first.senderAdmin sender = second.senderAdmin sender := by
  rw [GroupRoster.senderAdmin, same.rows sender, GroupRoster.senderAdmin]

theorem Same.senderActive {first second : GroupRoster} (same : first.Same second)
    (sender : UserName) : first.senderActive sender = second.senderActive sender := by
  rw [GroupRoster.senderActive, same.rows sender, GroupRoster.senderActive]

/-- The rules look at rows only. -/
theorem Same.ruling {first second : GroupRoster} (same : first.Same second) (sender : UserName)
    (manage : GroupManageMsg) : first.ruling sender manage = second.ruling sender manage := by
  have active := same.senderActive sender
  have admin := same.senderAdmin sender
  cases manage with
  | inviteSent username => simp [GroupRoster.ruling, active, same.rows]
  | inviteAccepted => simp [GroupRoster.ruling, same.rows]
  | leave => simp [GroupRoster.ruling, same.rows]
  | ban username => simp [GroupRoster.ruling, admin]
  | unban username => simp [GroupRoster.ruling, admin, same.rows]
  | addAdmin username => simp [GroupRoster.ruling, admin, same.rows]
  | removeAdmin username => simp [GroupRoster.ruling, admin, same.rows]

theorem Same.alters {first second : GroupRoster} (same : first.Same second) (sender : UserName)
    (manage : GroupManageMsg) : first.Alters sender manage ↔ second.Alters sender manage := by
  rw [Alters, Alters, same.ruling sender manage, same.rows]

theorem Same.changed {first second : GroupRoster} (same : first.Same second) (sender : UserName)
    (manage : GroupManageMsg) : (first.applyManageMessage sender manage).2 =
      (second.applyManageMessage sender manage).2 := by
  rw [Bool.eq_iff_iff, applyManageMessage_changed, applyManageMessage_changed]
  exact same.alters sender manage

theorem version_applyManageMessage (roster : GroupRoster) (sender : UserName)
    (manage : GroupManageMsg) :
    (roster.applyManageMessage sender manage).1.version =
      if (roster.applyManageMessage sender manage).2 then roster.version + 1 else roster.version := by
  have version := (change_follows roster sender manage).version
  simp only [applyManageMessage]
  split
  · simp only [if_true, bumpVersion, version]
  · simp only [Bool.false_eq_true, if_false, version]

/-- The transition keeps rosters the same. -/
theorem Same.applyManageMessage {first second : GroupRoster} (same : first.Same second)
    (sender : UserName) (manage : GroupManageMsg) :
    (first.applyManageMessage sender manage).1.Same
      (second.applyManageMessage sender manage).1 where
  version := by
    rw [version_applyManageMessage, version_applyManageMessage, same.changed sender manage,
      same.version]
  rows user := by
    rw [get_applyManageMessage, get_applyManageMessage, same.ruling sender manage, same.rows,
      same.rows]

/-- The rows stay exactly when the message does not alter the roster. -/
theorem same_applyManageMessage_iff {roster : GroupRoster} {sender : UserName}
    {manage : GroupManageMsg} :
    (roster.applyManageMessage sender manage).1.Same roster ↔ ¬roster.Alters sender manage := by
  constructor
  · rintro same ⟨row, ruled, differs⟩
    have given := get_applyManageMessage roster sender (subject sender manage) manage
    rw [same.rows, if_pos rfl, ruled, Option.getD_some] at given
    exact differs given.symm
  · intro idle
    rw [applyManageMessage_of_not_alters idle]
    exact Same.refl roster

/-- An initialized roster has a version. -/
theorem ensureInitialized_version (roster : GroupRoster) (initAdmin : UserName) :
    (roster.ensureInitialized initAdmin).version ≠ 0 := by
  rw [ensureInitialized]
  split
  · assumption
  · exact Nat.one_ne_zero

/-- A roster is initialized once. -/
theorem ensureInitialized_of_version {roster : GroupRoster} (initialized : roster.version ≠ 0)
    (initAdmin : UserName) : roster.ensureInitialized initAdmin = roster := by
  rw [ensureInitialized, if_pos initialized]

/-- Writing a row again writes nothing. -/
theorem upsertMember_again (roster : GroupRoster) (username : UserName) (member : RosterMember) :
    (roster.upsertMember username member).1.upsertMember username member =
      ((roster.upsertMember username member).1, false) := by
  have written := get_upsertMember roster username username member
  rw [if_pos rfl] at written
  generalize (roster.upsertMember username member).1 = next at written
  rw [upsertMember, if_pos written]

/-- Writing the initial admin without the version's mark is made up for by the next load. -/
theorem ensureInitialized_of_unmarked {roster : GroupRoster} (unmarked : roster.version = 0)
    (initAdmin : UserName) :
    ((roster.upsertMember initAdmin initialMember).1.ensureInitialized initAdmin) =
      roster.ensureInitialized initAdmin := by
  have version := upsertMember_version roster initAdmin initialMember
  have again := congrArg Prod.fst (upsertMember_again roster initAdmin initialMember)
  rw [ensureInitialized, ensureInitialized, version, unmarked]
  simp only [ne_eq, not_true, if_false, again]

end GroupRoster
end Nullspace
