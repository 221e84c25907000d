import Nullspace.Client.Roster
import Nullspace.Symbolic

/-!
# Laws of rosters

What a management log can do to a row of the roster, read off the rulings.

A banned member has no influence: `banned_ruling` says who lifts a ban, and a message of
a banned sender gets no ruling at all, so `applyLog_eq_of_spared` takes any of them out of
a log.

The admin flag follows the admins' decisions but for one message: `invite_accepted` writes
a row without the flag whatever the sender's row has. `flagsDecided_iff` says when a
message keeps to the decisions.
-/

namespace Nullspace

open Nullspace.Base

namespace GroupRoster

/-- The roster after a management log. -/
def applyLog (roster : GroupRoster) (log : List (UserName × GroupManageMsg)) : GroupRoster :=
  log.foldl (fun roster entry => (roster.applyManageMessage entry.1 entry.2).1) roster

/-- The rosters which a group can have. A message is applied to the loaded roster. -/
inductive Reachable (initAdmin : UserName) : GroupRoster → Prop
  | created : Reachable initAdmin empty
  | loaded {roster : GroupRoster} (before : Reachable initAdmin roster) :
      Reachable initAdmin (roster.ensureInitialized initAdmin)
  | managed {roster : GroupRoster} (before : Reachable initAdmin roster) (sender : UserName)
      (manage : GroupManageMsg) :
      Reachable initAdmin
        ((roster.ensureInitialized initAdmin).applyManageMessage sender manage).1

/-- The user's row has status `banned`. -/
def Banned (roster : GroupRoster) (user : UserName) : Prop :=
  ∃ member ∈ roster.get user, member.status = .banned

instance (roster : GroupRoster) (user : UserName) : Decidable (roster.Banned user) :=
  inferInstanceAs (Decidable (∃ member ∈ roster.get user, member.status = .banned))

/-- A banned member is not active. -/
theorem senderActive_eq_false_of_banned {roster : GroupRoster} {user : UserName}
    (banned : roster.Banned user) : roster.senderActive user = false := by
  obtain ⟨member, listed, status⟩ := banned
  rw [Option.mem_def] at listed
  simp only [senderActive, listed, RosterMember.isActive, status]

/-- A banned member is no admin. -/
theorem senderAdmin_eq_false_of_banned {roster : GroupRoster} {user : UserName}
    (banned : roster.Banned user) : roster.senderAdmin user = false := by
  obtain ⟨member, listed, status⟩ := banned
  rw [Option.mem_def] at listed
  simp only [senderAdmin, listed, RosterMember.isActive, status, Bool.and_false]

/-- The rules ignore a banned sender. -/
theorem ruling_eq_none_of_banned {roster : GroupRoster} {sender : UserName}
    (banned : roster.Banned sender) (manage : GroupManageMsg) :
    roster.ruling sender manage = none := by
  have inactive := senderActive_eq_false_of_banned banned
  have powerless := senderAdmin_eq_false_of_banned banned
  cases manage with
  | inviteSent username => simp [ruling, inactive]
  | inviteAccepted => exact if_pos banned
  | leave =>
      refine if_neg ?_
      rintro ⟨member, listed, status⟩
      obtain ⟨other, same, held⟩ := banned
      exact status (Option.mem_unique listed same ▸ held)
  | ban username => simp [ruling, powerless]
  | unban username => simp [ruling, powerless]
  | addAdmin username => simp [ruling, powerless]
  | removeAdmin username => simp [ruling, powerless]

/-- Only an active admin's `unban` gives a banned subject a row which is not banned. -/
theorem banned_ruling {roster : GroupRoster} {sender : UserName} {manage : GroupManageMsg}
    {row : Option RosterMember} (banned : roster.Banned (subject sender manage))
    (ruled : roster.ruling sender manage = some row) :
    (∃ member ∈ row, member.status = .banned) ∨
      manage = .unban (subject sender manage) ∧ roster.senderAdmin sender = true := by
  have inactive : (roster.get (subject sender manage)).filter RosterMember.isActive = none := by
    obtain ⟨member, listed, status⟩ := banned
    rw [Option.mem_def] at listed
    simp [listed, Option.filter, RosterMember.isActive, status]
  cases manage with
  | inviteSent username =>
      obtain ⟨member, listed, _⟩ := banned
      rw [Option.mem_def, subject] at listed
      simp [ruling, listed] at ruled
  | inviteAccepted =>
      rw [subject] at banned
      rw [ruling_eq_none_of_banned banned] at ruled
      contradiction
  | leave =>
      rw [subject] at banned
      rw [ruling_eq_none_of_banned banned] at ruled
      contradiction
  | ban username =>
      rw [ruling] at ruled
      split at ruled
      · cases ruled
        exact .inl ⟨_, rfl, rfl⟩
      · contradiction
  | unban username =>
      rw [ruling] at ruled
      split at ruled
      · rename_i allowed
        exact .inr ⟨rfl, allowed.1⟩
      · contradiction
  | addAdmin username =>
      rw [subject] at inactive
      simp [ruling, inactive] at ruled
  | removeAdmin username =>
      rw [subject] at inactive
      simp [ruling, inactive] at ruled

/-- Only an admin's `unban` ends a ban. -/
theorem banned_applyManageMessage {roster : GroupRoster} {user : UserName}
    (banned : roster.Banned user) (sender : UserName) (manage : GroupManageMsg)
    (kept : ¬(manage = .unban user ∧ roster.senderAdmin sender = true)) :
    (roster.applyManageMessage sender manage).1.Banned user := by
  rw [Banned, get_applyManageMessage]
  by_cases same : user = subject sender manage
  · rw [if_pos same, ← same]
    cases ruled : roster.ruling sender manage with
    | none => exact banned
    | some row =>
        rw [same] at banned kept
        exact (banned_ruling banned ruled).resolve_right kept
  · rw [if_neg same]
    exact banned

/-- `kept` is the log without some of the messages which the user sent while banned. -/
inductive Spared (user : UserName) :
    GroupRoster → List (UserName × GroupManageMsg) → List (UserName × GroupManageMsg) → Prop
  | nil (roster : GroupRoster) : Spared user roster [] []
  | keep {roster : GroupRoster} {log kept : List (UserName × GroupManageMsg)} (sender : UserName)
      (manage : GroupManageMsg)
      (rest : Spared user (roster.applyManageMessage sender manage).1 log kept) :
      Spared user roster ((sender, manage) :: log) ((sender, manage) :: kept)
  | drop {roster : GroupRoster} {log kept : List (UserName × GroupManageMsg)}
      (manage : GroupManageMsg) (banned : roster.Banned user)
      (rest : Spared user (roster.applyManageMessage user manage).1 log kept) :
      Spared user roster ((user, manage) :: log) kept

/-- A banned member's messages leave no trace in the roster. -/
theorem applyLog_eq_of_spared {user : UserName} {roster : GroupRoster}
    {log kept : List (UserName × GroupManageMsg)} (spared : Spared user roster log kept) :
    roster.applyLog kept = roster.applyLog log := by
  induction spared with
  | nil roster => rfl
  | keep sender manage _ ih => exact ih
  | drop manage banned _ ih =>
      rename_i roster log kept rest
      have idle : (roster.applyManageMessage user manage).1 = roster := by
        apply applyManageMessage_of_not_alters
        rintro ⟨row, ruled, _⟩
        rw [ruling_eq_none_of_banned banned] at ruled
        contradiction
      have step : roster.applyLog ((user, manage) :: log) =
          (roster.applyManageMessage user manage).1.applyLog log := rfl
      rw [step, ← ih, idle]

/-- No banned member has the admin flag. -/
def BannedUnflagged (roster : GroupRoster) : Prop :=
  ∀ user, ∀ member ∈ roster.get user, member.status = .banned → member.isAdmin = false

/-- No ruling gives a banned member the flag. -/
theorem unflagged_of_ruling {roster : GroupRoster} {sender : UserName} {manage : GroupManageMsg}
    {member : RosterMember} (ruled : roster.ruling sender manage = some (some member))
    (banned : member.status = .banned) : member.isAdmin = false := by
  cases manage with
  | inviteSent username =>
      rw [ruling] at ruled
      split at ruled <;> cases ruled
      rfl
  | inviteAccepted =>
      rw [ruling] at ruled
      split at ruled <;> cases ruled
      rfl
  | leave =>
      rw [ruling] at ruled
      split at ruled <;> cases ruled
  | ban username =>
      rw [ruling] at ruled
      split at ruled <;> cases ruled
      rfl
  | unban username =>
      rw [ruling] at ruled
      split at ruled <;> cases ruled
      rfl
  | addAdmin username =>
      rw [ruling] at ruled
      split at ruled
      · obtain ⟨held, listed, given⟩ := Option.map_eq_some_iff.mp ruled
        cases given
        have active := (Option.filter_eq_some_iff.mp listed).2
        rw [RosterMember.isActive, banned] at active
        contradiction
      · contradiction
  | removeAdmin username =>
      rw [ruling] at ruled
      split at ruled
      · obtain ⟨held, _, given⟩ := Option.map_eq_some_iff.mp ruled
        cases given
        rfl
      · contradiction

/-- No message gives a banned member the admin flag. -/
theorem bannedUnflagged_applyManageMessage {roster : GroupRoster}
    (unflagged : roster.BannedUnflagged) (sender : UserName) (manage : GroupManageMsg) :
    (roster.applyManageMessage sender manage).1.BannedUnflagged := by
  intro user member listed banned
  rw [get_applyManageMessage] at listed
  by_cases same : user = subject sender manage
  · rw [if_pos same] at listed
    cases ruled : roster.ruling sender manage with
    | none =>
        rw [ruled] at listed
        exact unflagged _ member listed banned
    | some row =>
        rw [ruled, Option.getD_some, Option.mem_def] at listed
        rw [listed] at ruled
        exact unflagged_of_ruling ruled banned
  · rw [if_neg same] at listed
    exact unflagged user member listed banned

/-- Initialization writes the initial admin's row only. -/
theorem get_ensureInitialized (roster : GroupRoster) (initAdmin user : UserName) :
    (roster.ensureInitialized initAdmin).get user =
      if roster.version = 0 ∧ user = initAdmin then some initialMember else roster.get user := by
  rw [ensureInitialized]
  by_cases unmarked : roster.version = 0
  · rw [if_neg (not_not.mpr unmarked), if_congr (and_iff_right unmarked) rfl rfl]
    exact get_upsertMember roster initAdmin user initialMember
  · rw [if_pos unmarked, if_neg fun holds => unmarked holds.1]

/-- Initialization gives no banned member the admin flag. -/
theorem bannedUnflagged_ensureInitialized {roster : GroupRoster}
    (unflagged : roster.BannedUnflagged) (initAdmin : UserName) :
    (roster.ensureInitialized initAdmin).BannedUnflagged := by
  intro user member listed banned
  rw [get_ensureInitialized] at listed
  split at listed
  · cases listed
    contradiction
  · exact unflagged user member listed banned

/-- In a reachable roster no banned member has the admin flag. -/
theorem Reachable.bannedUnflagged {initAdmin : UserName} {roster : GroupRoster}
    (reachable : Reachable initAdmin roster) : roster.BannedUnflagged := by
  induction reachable with
  | created =>
      intro user member listed
      contradiction
  | loaded _ ih => exact bannedUnflagged_ensureInitialized ih initAdmin
  | managed _ sender manage ih =>
      exact bannedUnflagged_applyManageMessage (bannedUnflagged_ensureInitialized ih initAdmin)
        sender manage

/-- A ban holds until an active admin lifts it, the messages of a banned member count for
nothing, and no roster of a group has a banned admin. -/
theorem banned_without_influence (initAdmin user : UserName) :
    (∀ roster : GroupRoster, roster.Banned user → ∀ sender manage,
      ¬(manage = .unban user ∧ roster.senderAdmin sender = true) →
        (roster.applyManageMessage sender manage).1.Banned user) ∧
    (∀ roster log kept, Spared user roster log kept →
      roster.applyLog kept = roster.applyLog log) ∧
    ∀ roster, Reachable initAdmin roster → roster.BannedUnflagged := by
  refine ⟨?_, ?_, ?_⟩
  · intro roster banned sender manage kept
    exact banned_applyManageMessage banned sender manage kept
  · intro roster log kept spared
    exact applyLog_eq_of_spared spared
  · intro roster reachable
    exact reachable.bannedUnflagged

/-- Bobby is invited and banned, and what he says afterwards does not count. -/
theorem banned_without_influence_bobby :
    ((empty.ensureInitialized alice).applyLog
        [(alice, .inviteSent bobby), (alice, .ban bobby), (bobby, .leave)]).Banned bobby ∧
      (empty.ensureInitialized alice).applyLog [(alice, .inviteSent bobby), (alice, .ban bobby)] =
        (empty.ensureInitialized alice).applyLog
          [(alice, .inviteSent bobby), (alice, .ban bobby), (bobby, .leave)] ∧
      (empty.ensureInitialized alice).BannedUnflagged := by
  obtain ⟨banned, spared, unflagged⟩ := banned_without_influence alice bobby
  refine ⟨?_, ?_, unflagged _ (.loaded .created)⟩
  · refine banned ((empty.ensureInitialized alice).applyLog
      [(alice, .inviteSent bobby), (alice, .ban bobby)]) ?_ bobby .leave ?_
    · decide
    · simp
  · apply spared _ _ _
    refine .keep alice _ (.keep alice _ (.drop .leave ?_ (.nil _)))
    decide

/-- The admins' decisions about a user's flag. -/
def Decides (roster : GroupRoster) (sender user : UserName) (manage : GroupManageMsg) : Prop :=
  (manage = .addAdmin user ∨ manage = .removeAdmin user ∨ manage = .ban user) ∧
    roster.senderAdmin sender = true

/-- The flag of a user who is in the roster before and after the message changes by an
admin's decision only. -/
def FlagsDecided (roster : GroupRoster) (sender : UserName) (manage : GroupManageMsg) : Prop :=
  ∀ user before after, roster.get user = some before →
    (roster.applyManageMessage sender manage).1.get user = some after →
      after.isAdmin ≠ before.isAdmin → roster.Decides sender user manage

/-- The sender of an `invite_accepted` is an admin already. -/
def AcceptsAsAdmin (roster : GroupRoster) (sender : UserName) (manage : GroupManageMsg) : Prop :=
  manage = .inviteAccepted ∧ ∃ member ∈ roster.get sender, member.isAdmin = true

/-- A ruling about somebody who has a row keeps the flag, is an admin's decision, lifts a
ban, or answers an `invite_accepted`. -/
theorem flag_ruling {roster : GroupRoster} {sender : UserName} {manage : GroupManageMsg}
    {before after : RosterMember} (listed : roster.get (subject sender manage) = some before)
    (ruled : roster.ruling sender manage = some (some after)) :
    roster.Decides sender (subject sender manage) manage ∨
      before.status = .banned ∧ after.isAdmin = false ∨
      manage = .inviteAccepted ∧ after.isAdmin = false := by
  cases manage with
  | inviteSent username =>
      rw [subject] at listed
      simp [ruling, listed] at ruled
  | inviteAccepted =>
      rw [ruling] at ruled
      split at ruled <;> cases ruled
      exact .inr (.inr ⟨rfl, rfl⟩)
  | leave =>
      rw [ruling] at ruled
      split at ruled <;> cases ruled
  | ban username =>
      rw [ruling] at ruled
      split at ruled
      · rename_i admin
        exact .inl ⟨.inr (.inr rfl), admin⟩
      · contradiction
  | unban username =>
      rw [subject] at listed
      rw [ruling, listed] at ruled
      split at ruled
      · rename_i allowed
        obtain ⟨member, same, banned⟩ := allowed.2
        cases same
        cases ruled
        exact .inr (.inl ⟨banned, rfl⟩)
      · contradiction
  | addAdmin username =>
      rw [ruling] at ruled
      split at ruled
      · rename_i admin
        exact .inl ⟨.inl rfl, admin⟩
      · contradiction
  | removeAdmin username =>
      rw [ruling] at ruled
      split at ruled
      · rename_i admin
        exact .inl ⟨.inr (.inl rfl), admin⟩
      · contradiction

/-- In every roster of a group, a message keeps the flags to the admins' decisions exactly
when it is not the `invite_accepted` of an admin. -/
theorem flagsDecided_iff {initAdmin : UserName} {roster : GroupRoster}
    (reachable : Reachable initAdmin roster) (sender : UserName) (manage : GroupManageMsg) :
    roster.FlagsDecided sender manage ↔ ¬roster.AcceptsAsAdmin sender manage := by
  constructor
  · rintro decided ⟨rfl, member, listed, flagged⟩
    rw [Option.mem_def] at listed
    have active : ¬∃ other ∈ roster.get sender, other.status = .banned := by
      rintro ⟨other, same, banned⟩
      have unflagged := reachable.bannedUnflagged sender other same banned
      rw [Option.mem_unique same listed, flagged] at unflagged
      contradiction
    have accepted : (roster.applyManageMessage sender .inviteAccepted).1.get sender =
        some ⟨false, .accepted⟩ := by
      rw [get_applyManageMessage, subject, if_pos rfl, ruling, if_neg active]
      rfl
    have changes : (⟨false, .accepted⟩ : RosterMember).isAdmin ≠ member.isAdmin := by
      rw [flagged]
      exact Bool.false_ne_true
    obtain ⟨asked, _⟩ := decided sender member _ listed accepted changes
    rcases asked with adds | removes | bans <;> contradiction
  · intro kept user before after listed given changes
    rw [get_applyManageMessage] at given
    by_cases same : user = subject sender manage
    · subst same
      rw [if_pos rfl] at given
      cases ruled : roster.ruling sender manage with
      | none =>
          rw [ruled, Option.getD_none, listed] at given
          cases given
          exact absurd rfl changes
      | some row =>
          rw [ruled, Option.getD_some] at given
          subst given
          rcases flag_ruling listed ruled with decides | ⟨banned, cleared⟩ | ⟨rfl, cleared⟩
          · exact decides
          · have unflagged := reachable.bannedUnflagged _ before listed banned
            exact absurd (cleared.trans unflagged.symm) changes
          · refine absurd ⟨rfl, before, listed, ?_⟩ kept
            rw [cleared] at changes
            exact Bool.eq_true_of_not_eq_false (Ne.symm changes)
    · rw [if_neg same, listed] at given
      cases given
      exact absurd rfl changes

/-- Alice grants Bobby the flag, and takes it away. -/
theorem flagsDecided_iff_bobby :
    ¬((empty.ensureInitialized alice).applyLog [(alice, .inviteSent bobby)]).AcceptsAsAdmin alice
        (.addAdmin bobby) ∧
      ((empty.ensureInitialized alice).applyLog [(alice, .inviteSent bobby)]).FlagsDecided alice
        (.addAdmin bobby) := by
  have reachable : Reachable alice
      ((empty.ensureInitialized alice).applyLog [(alice, .inviteSent bobby)]) :=
    .managed .created alice (.inviteSent bobby)
  have kept : ¬((empty.ensureInitialized alice).applyLog
      [(alice, .inviteSent bobby)]).AcceptsAsAdmin alice (.addAdmin bobby) := by
    rintro ⟨accepts, _⟩
    contradiction
  exact ⟨kept, (flagsDecided_iff reachable alice (.addAdmin bobby)).mpr kept⟩

/-- The initial admin loses the flag by accepting once more, and Bobby the flag which he was
granted while pending. -/
theorem acceptingAdmin_breaks :
    (Reachable alice (empty.ensureInitialized alice) ∧
      ¬(empty.ensureInitialized alice).FlagsDecided alice .inviteAccepted) ∧
    Reachable alice ((empty.ensureInitialized alice).applyLog
        [(alice, .inviteSent bobby), (alice, .addAdmin bobby)]) ∧
      ¬((empty.ensureInitialized alice).applyLog
        [(alice, .inviteSent bobby), (alice, .addAdmin bobby)]).FlagsDecided bobby
          .inviteAccepted := by
  refine ⟨⟨.loaded .created, ?_⟩, ?_, ?_⟩
  · intro decided
    obtain ⟨asked, _⟩ := decided alice initialMember ⟨false, .accepted⟩ (by decide) (by decide)
      (by decide)
    rcases asked with adds | removes | bans <;> contradiction
  · exact .managed (.managed .created alice (.inviteSent bobby)) alice (.addAdmin bobby)
  · intro decided
    obtain ⟨asked, _⟩ := decided bobby ⟨true, .pending⟩ ⟨false, .accepted⟩ (by decide) (by decide)
      (by decide)
    rcases asked with adds | removes | bans <;> contradiction

end GroupRoster
end Nullspace
