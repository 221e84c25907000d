import Nullspace.Client.Determinism

/-!
# Copies of management messages

Whoever may post to a group's management mailbox can post the bytes of an earlier entry
again, and nothing in the path remembers what has been processed. One log is processed beside
the log with copies inserted. `agree_iff_spent` says in which runs the rosters stay the same:
those in which every copy comes when its message has nothing left to do.
-/

namespace Nullspace

open Nullspace.Base

variable {P : Primitives}

namespace GroupRoster

/-- The message is not allowed, or what it asks for is so already. -/
def Spent (roster : GroupRoster) (sender : UserName) : GroupManageMsg → Prop
  | .inviteSent username => roster.senderActive sender = true → roster.get username ≠ none
  | .inviteAccepted =>
      ∃ member ∈ roster.get sender, member.status = .banned ∨ member = ⟨false, .accepted⟩
  | .leave => ∀ member ∈ roster.get sender, member.status = .banned
  | .ban username => roster.senderAdmin sender = true → roster.get username = some ⟨false, .banned⟩
  | .unban username =>
      roster.senderAdmin sender = true → ∀ member ∈ roster.get username, member.status ≠ .banned
  | .addAdmin username =>
      roster.senderAdmin sender = true →
        ∀ member ∈ roster.get username, member.isActive = true → member.isAdmin = true
  | .removeAdmin username =>
      roster.senderAdmin sender = true →
        ∀ member ∈ roster.get username, member.isActive = true → member.isAdmin = false

/-- Setting the flag to what it is changes nothing. -/
theorem setAdmin_eq (member : RosterMember) (isAdmin : Bool) :
    (⟨isAdmin, member.status⟩ : RosterMember) = member ↔ member.isAdmin = isAdmin := by
  obtain ⟨flag, status⟩ := member
  simp [eq_comm]

/-- Spent messages are the ones which alter nothing. -/
theorem not_alters_iff_spent {roster : GroupRoster} {sender : UserName} {manage : GroupManageMsg} :
    ¬roster.Alters sender manage ↔ roster.Spent sender manage := by
  cases manage with
  | inviteSent username =>
      cases active : roster.senderActive sender <;> cases listed : roster.get username <;>
        simp [Alters, ruling, subject, Spent, active, listed]
  | inviteAccepted =>
      cases listed : roster.get sender with
      | none => simp [Alters, ruling, subject, Spent, listed]
      | some member =>
          by_cases banned : member.status = .banned
          · simp [Alters, ruling, subject, Spent, listed, banned]
          · simp [Alters, ruling, subject, Spent, listed, banned, @eq_comm _ member]
  | leave =>
      cases listed : roster.get sender with
      | none => simp [Alters, ruling, subject, Spent, listed]
      | some member =>
          by_cases banned : member.status = .banned <;>
            simp [Alters, ruling, subject, Spent, listed, banned]
  | ban username =>
      cases admin : roster.senderAdmin sender <;>
        simp [Alters, ruling, subject, Spent, admin, eq_comm]
  | unban username =>
      cases admin : roster.senderAdmin sender <;> cases listed : roster.get username with
      | none => simp [Alters, ruling, subject, Spent, admin, listed]
      | some member =>
          by_cases banned : member.status = .banned
          · have pending : (⟨false, .pending⟩ : RosterMember) ≠ member := by
              rintro rfl
              cases banned
            simp [Alters, ruling, subject, Spent, admin, listed, banned, pending]
          · simp [Alters, ruling, subject, Spent, admin, listed, banned]
  | addAdmin username =>
      cases admin : roster.senderAdmin sender <;> cases listed : roster.get username with
      | none => simp [Alters, ruling, subject, Spent, admin, listed]
      | some member =>
          cases active : member.isActive <;>
            simp [Alters, ruling, subject, Spent, admin, listed, active, setAdmin_eq]
  | removeAdmin username =>
      cases admin : roster.senderAdmin sender <;> cases listed : roster.get username with
      | none => simp [Alters, ruling, subject, Spent, admin, listed]
      | some member =>
          cases active : member.isActive <;>
            simp [Alters, ruling, subject, Spent, admin, listed, active, setAdmin_eq]

/-- A message has nothing left to do once its subject has the row which it asked for. -/
theorem spent_of_ruling {roster next : GroupRoster} {sender : UserName} {manage : GroupManageMsg}
    {row : Option RosterMember} (ruled : roster.ruling sender manage = some row)
    (written : next.get (subject sender manage) = row) : next.Spent sender manage := by
  cases manage with
  | inviteSent username =>
      obtain ⟨_, rfl⟩ := by simpa [ruling] using ruled
      simp only [subject] at written
      simp [Spent, written]
  | inviteAccepted =>
      obtain ⟨_, rfl⟩ := by simpa [ruling] using ruled
      exact ⟨_, written, Or.inr rfl⟩
  | leave =>
      obtain ⟨_, rfl⟩ := by simpa [ruling] using ruled
      simp only [subject] at written
      simp [Spent, written]
  | ban username =>
      obtain ⟨_, rfl⟩ := by simpa [ruling] using ruled
      exact fun _ => written
  | unban username =>
      obtain ⟨_, rfl⟩ := by simpa [ruling] using ruled
      simp only [subject] at written
      simp [Spent, written]
  | addAdmin username =>
      obtain ⟨_, member, _, rfl⟩ := by simpa [ruling] using ruled
      simp only [subject] at written
      simp [Spent, written]
  | removeAdmin username =>
      obtain ⟨_, member, _, rfl⟩ := by simpa [ruling] using ruled
      simp only [subject] at written
      simp [Spent, written]

/-- A message which has been processed is spent. -/
theorem spent_applyManageMessage (roster : GroupRoster) (sender : UserName) (manage : GroupManageMsg) :
    (roster.applyManageMessage sender manage).1.Spent sender manage := by
  by_cases alters : roster.Alters sender manage
  · obtain ⟨row, ruled, _⟩ := alters
    refine spent_of_ruling ruled ?_
    rw [get_applyManageMessage, if_pos rfl, ruled, Option.getD_some]
  · rw [applyManageMessage_of_not_alters alters]
    exact not_alters_iff_spent.mp alters

/-- It stays spent while its sender and its subject keep their rows. -/
theorem Spent.of_rows {first second : GroupRoster} {sender : UserName} {manage : GroupManageMsg}
    (spent : first.Spent sender manage) (ofSender : second.get sender = first.get sender)
    (ofSubject : second.get (subject sender manage) = first.get (subject sender manage)) :
    second.Spent sender manage := by
  have active : second.senderActive sender = first.senderActive sender := by
    rw [senderActive, senderActive, ofSender]
  have admin : second.senderAdmin sender = first.senderAdmin sender := by
    rw [senderAdmin, senderAdmin, ofSender]
  cases manage <;> simp only [subject] at ofSubject <;>
    simpa only [Spent, active, admin, ofSender, ofSubject] using spent

end GroupRoster

/-- One client reads a log, another one the log with copies; and what has been posted. -/
structure CopiedLog (P : Primitives) where
  pair : ClientPair P
  posted : List Blob

inductive CopyEvent (P : Primitives) where
  /-- An entry of the log, which both read, or anything else they do. -/
  | both (event : PairEvent P)
  /-- A copy of something posted before. -/
  | copy (entry : MailboxEntry P) (descriptor : UserName → Option (UserDescriptor P))
      (reading : Reading P)

/-- What an event posts. -/
def PairEvent.posts : PairEvent P → List Blob
  | .entry posted _ _ _ => [posted.message]
  | .aside _ _ => []

namespace CopiedLog

def start (first second : ClientDb P) : CopiedLog P := ⟨⟨first, second⟩, []⟩

def machine (json : JsonReader P) (groupId : GroupId P) : Machine (CopiedLog P) (CopyEvent P) where
  step state
    | .both event =>
        ((ClientPair.machine json groupId).step state.pair event).map fun pair =>
          ⟨pair, state.posted ++ event.posts⟩
    | .copy entry descriptor reading =>
        if entry.message ∉ state.posted then none
        else
          (state.pair.second.groups.lookup groupId).map fun group =>
            { state with pair.second := (state.pair.second.groupRecvOnce json
                (reading.env descriptor) groupId group .management entry).1 }

/-- The rosters are the same. -/
def Agree (groupId : GroupId P) (state : CopiedLog P) : Prop := state.pair.Agree groupId

/-- An entry of the log reads the same to both, and a copy is of a message which is spent. -/
def CopySpent (json : JsonReader P) (groupId : GroupId P) (state : CopiedLog P) :
    CopyEvent P → Prop
  | .both event => state.pair.Timely json groupId event
  | .copy entry descriptor reading =>
      ∀ group, state.pair.second.groups.lookup groupId = some group →
        ∀ sender manage,
          ClientDb.manageWrite json (reading.env descriptor) groupId group entry =
              some (sender, manage) →
            group.loadedRoster.Spent sender manage

/-- Entries which both read at one time read the same to both. -/
theorem timely_of_clock (json : JsonReader P) (groupId : GroupId P) (state : ClientPair P)
    (entry : MailboxEntry P) (descriptor : UserName → Option (UserDescriptor P))
    {first second : Reading P} (together : first.clock = second.clock) :
    state.Timely json groupId (.entry entry descriptor first second) := by
  intro _ _ _ _ _ _ _ _ signed _
  rw [together]

/-- A step keeps the rosters the same exactly when a copy in it is of a spent message. -/
theorem agree_step {json : JsonReader P} {groupId : GroupId P} {state next : CopiedLog P}
    {event : CopyEvent P} (agree : state.Agree groupId)
    (taken : (machine json groupId).step state event = some next) :
    next.Agree groupId ↔ CopySpent json groupId state event := by
  cases event with
  | both event =>
      obtain ⟨pair, stepped, rfl⟩ := Option.map_eq_some_iff.mp taken
      exact ClientPair.agree_step agree stepped
  | copy entry descriptor reading =>
      simp only [machine] at taken
      split at taken
      · cases taken
      · obtain ⟨group, listed, rfl⟩ := Option.map_eq_some_iff.mp taken
        obtain ⟨groupDescriptor, roster, copied, firstView, secondView, same⟩ := agree
        rw [ClientPair.managementView_of_lookup listed, Option.some.injEq, Prod.mk.injEq]
          at secondView
        obtain ⟨rfl, rfl⟩ := secondView
        have after := ClientPair.managementView_round json reading descriptor entry listed
        have idle := ClientDb.managed_same_iff group.loadedRoster
          (ClientDb.manageWrite json (reading.env descriptor) groupId group entry)
        constructor
        · rintro ⟨_, _, _, firstSeen, secondSeen, agrees⟩ found foundListed sender manage asked
          cases listed.symm.trans foundListed
          cases firstView.symm.trans firstSeen
          cases after.symm.trans secondSeen
          exact GroupRoster.not_alters_iff_spent.mp
            (idle.mp (agrees.symm.trans same) sender manage asked)
        · intro spent
          refine ⟨_, _, _, firstView, after, same.trans (idle.mpr ?_).symm⟩
          intro sender manage asked
          exact GroupRoster.not_alters_iff_spent.mpr (spent group listed sender manage asked)

/-- A log and the log with copies make the same roster throughout exactly when every copy is
of a message which is spent where the copy stands. -/
theorem agree_iff_spent (json : JsonReader P) {groupId : GroupId P} {first second : ClientDb P}
    (agree : ClientPair.Agree groupId ⟨first, second⟩) (events : List (CopyEvent P)) :
    (machine json groupId).Always (Agree groupId) (start first second) events ↔
      (machine json groupId).Along (CopySpent json groupId) (start first second) events :=
  Machine.always_iff_along (fun holds taken => agree_step holds taken) agree

/-- Both readers read a message of Alice's. -/
def readByBoth (manage : GroupManageMsg) (receivedAt : NanoTimestamp) : CopyEvent symbolic :=
  .both (.entry (manageEntry manage (rootChain 1 100) receivedAt) symbolicDirectory
    ⟨none, 10, 10⟩ ⟨none, 10, 10⟩)

/-- Alice bans Bobby, takes it back and bans him again. Somebody posts the second message once
more. -/
def unbanCopiedRun : List (CopyEvent symbolic) :=
  [readByBoth (.ban bobby) 5, readByBoth (.unban bobby) 6, readByBoth (.ban bobby) 7,
    .copy { manageEntry (.unban bobby) (rootChain 1 100) 6 with receivedAt := 8 }
      symbolicDirectory ⟨none, 10, 10⟩]

theorem agree_iff_spent_unbanCopied :
    (machine symbolicJson exampleGroup.id).Always (Agree exampleGroup.id) (start joinedDb joinedDb)
        unbanCopiedRun ↔
      (machine symbolicJson exampleGroup.id).Along (CopySpent symbolicJson exampleGroup.id)
        (start joinedDb joinedDb) unbanCopiedRun :=
  agree_iff_spent symbolicJson ClientPair.agree_joined unbanCopiedRun

/-- After the copied message the readers disagree. -/
theorem unbanCopied_breaks :
    ¬(machine symbolicJson exampleGroup.id).Always (Agree exampleGroup.id)
      (start joinedDb joinedDb) unbanCopiedRun := by
  intro always
  have ends : ((machine symbolicJson exampleGroup.id).exec (start joinedDb joinedDb)
      unbanCopiedRun).map (fun state => ClientPair.bobbyRows state.pair) =
      some (some (some ⟨false, .banned⟩, some ⟨false, .pending⟩)) := by decide +kernel
  obtain ⟨state, reached, rows⟩ := Option.map_eq_some_iff.mp ends
  obtain ⟨_, first, second, firstSeen, secondSeen, same⟩ := always.last reached
  simp only [ClientPair.bobbyRows, firstSeen, secondSeen, Option.some.injEq, Prod.mk.injEq] at rows
  have row := same.rows bobby
  rw [rows.1, rows.2] at row
  simp at row

end CopiedLog
end Nullspace
