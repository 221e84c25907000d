import Nullspace.Base.Machine
import Nullspace.Client.Rounds

/-!
# The roster as a function of the management log

Two clients process the same entries of a group's management mailbox without failures and
with the same answers of the directory, each at times of its own. Everything in the path is
a function of the entry but for one check: the chain of the sender is verified against the
reader's clock. `agree_iff` says in which runs the clients keep the same roster.
-/

namespace Nullspace

open Nullspace.Base

variable {P : Primitives}

/-- The verdict on the chain of a signed payload's sender. -/
def chainVerdict (descriptor : UserName → Option (UserDescriptor P)) (clock : Timestamp)
    (signed : DeviceSigned P) : Bool :=
  match descriptor signed.sender with
  | none => false
  | some found => signed.certChain.verifies clock found.rootCertHash

/-- What a management message was signed under has the same verdict at two clocks. -/
def SameVerdict (descriptor : UserName → Option (UserDescriptor P)) (managementKey : AeadKey)
    (message : Blob) (first second : Timestamp) : Prop :=
  ∀ signed, openManagement managementKey message = .ok (some signed) →
    chainVerdict descriptor first signed = chainVerdict descriptor second signed

theorem verifyBytes_congr {signed : DeviceSigned P} {rootHash : P.Hash} {first second : Timestamp}
    (same : signed.certChain.verifies first rootHash = signed.certChain.verifies second rootHash) :
    signed.verifyBytes first rootHash = signed.verifyBytes second rootHash := by
  have authentic : signed.authentic first rootHash = signed.authentic second rootHash := by
    rw [DeviceSigned.authentic, same, DeviceSigned.authentic]
  rw [DeviceSigned.verifyBytes, authentic, DeviceSigned.verifyBytes]

theorem readManagement_congr (json : JsonReader P) (groupId : GroupId P) {signed : DeviceSigned P}
    {rootHash : P.Hash} {first second : Timestamp}
    (same : signed.certChain.verifies first rootHash = signed.certChain.verifies second rootHash) :
    readManagement json groupId signed first rootHash =
      readManagement json groupId signed second rootHash := by
  simp only [readManagement, readContent, DeviceSigned.verifyBlob, verifyBytes_congr same]

/-- What is read was signed under a chain which verifies. -/
theorem verifies_of_readManagement {json : JsonReader P} {groupId : GroupId P}
    {signed : DeviceSigned P} {clock : Timestamp} {rootHash : P.Hash} {manage : GroupManageMsg}
    (read : readManagement json groupId signed clock rootHash = .ok (some manage)) :
    signed.certChain.verifies clock rootHash = true := by
  by_contra refused
  rw [Bool.not_eq_true] at refused
  simp [readManagement, readContent, DeviceSigned.verifyBlob, DeviceSigned.verifyBytes,
    DeviceSigned.authentic, refused] at read

namespace ClientDb

/-- Under the same verdict, a management message calls for the same change. -/
theorem manageWrite_congr (json : JsonReader P) (groupId : GroupId P) (first second : ClientEnv P)
    {firstGroup secondGroup : GroupRecord P} (entry : MailboxEntry P)
    (descriptor : first.descriptor = second.descriptor)
    (group : firstGroup.descriptor = secondGroup.descriptor)
    (verdict : SameVerdict first.descriptor firstGroup.descriptor.managementKey entry.message
      first.clock second.clock) :
    manageWrite json first groupId firstGroup entry =
      manageWrite json second groupId secondGroup entry := by
  rw [manageWrite, manageWrite, ← group, ← descriptor]
  cases opened : openManagement (P := P) firstGroup.descriptor.managementKey entry.message with
  | error err => rfl
  | ok payload =>
      cases payload with
      | none => rfl
      | some signed =>
          have same := verdict signed opened
          cases known : first.descriptor signed.sender with
          | none => simp only [known]
          | some found =>
              simp only [chainVerdict, known] at same
              simp only [known, readManagement_congr json groupId same]

/-- A management message which calls for a change was opened, and its sender's chain verifies. -/
theorem verdict_of_manageWrite {json : JsonReader P} {env : ClientEnv P} {groupId : GroupId P}
    {group : GroupRecord P} {entry : MailboxEntry P} {write : UserName × GroupManageMsg}
    (asked : manageWrite json env groupId group entry = some write) {signed : DeviceSigned P}
    (opened : openManagement group.descriptor.managementKey entry.message = .ok (some signed)) :
    chainVerdict env.descriptor env.clock signed = true := by
  simp only [manageWrite, opened] at asked
  cases known : env.descriptor signed.sender with
  | none => simp [known] at asked
  | some found =>
      simp only [known] at asked
      cases read : readManagement json groupId signed env.clock found.rootCertHash with
      | error err => simp [read] at asked
      | ok manage =>
          cases manage with
          | none => simp [read] at asked
          | some manage =>
              simp only [chainVerdict, known]
              exact verifies_of_readManagement read

/-- Under different verdicts, one of two readers ignores the message. -/
theorem manageWrite_apart (json : JsonReader P) (groupId : GroupId P) (first second : ClientEnv P)
    {firstGroup secondGroup : GroupRecord P} (entry : MailboxEntry P)
    (descriptor : first.descriptor = second.descriptor)
    (group : firstGroup.descriptor = secondGroup.descriptor)
    (verdict : ¬SameVerdict first.descriptor firstGroup.descriptor.managementKey entry.message
      first.clock second.clock) :
    manageWrite json first groupId firstGroup entry = none ∨
      manageWrite json second groupId secondGroup entry = none := by
  by_contra both
  rw [not_or, ← ne_eq, ← ne_eq, Option.ne_none_iff_exists', Option.ne_none_iff_exists'] at both
  obtain ⟨⟨firstWrite, firstAsked⟩, ⟨secondWrite, secondAsked⟩⟩ := both
  apply verdict
  intro signed opened
  rw [verdict_of_manageWrite firstAsked opened, descriptor]
  rw [group] at opened
  exact (verdict_of_manageWrite secondAsked opened).symm

/-- A roster keeps its rows exactly when the change which is called for alters none. -/
theorem managed_same_iff (roster : GroupRoster) (write : Option (UserName × GroupManageMsg)) :
    (managed roster write).Same roster ↔
      ∀ sender manage, write = some (sender, manage) → ¬roster.Alters sender manage := by
  cases write with
  | none => simpa [managed] using GroupRoster.Same.refl roster
  | some asked =>
      obtain ⟨asker, asks⟩ := asked
      rw [managed, GroupRoster.same_applyManageMessage_iff]
      constructor
      · rintro idle _ _ ⟨⟩
        exact idle
      · intro idle
        exact idle asker asks rfl

theorem managed_same {first second : GroupRoster} (same : first.Same second)
    (write : Option (UserName × GroupManageMsg)) :
    (managed first write).Same (managed second write) := by
  cases write with
  | none => exact same
  | some asked => exact same.applyManageMessage asked.1 asked.2

end ClientDb

/-- Two clients of one group. -/
structure ClientPair (P : Primitives) where
  first : ClientDb P
  second : ClientDb P

/-- As whom and when a client processes an entry. -/
structure Reading (P : Primitives) where
  identity : Option (Identity P)
  now : NanoTimestamp
  clock : Timestamp

/-- No operation fails, and the directory answers. -/
def Reading.env (reading : Reading P) (descriptor : UserName → Option (UserDescriptor P)) :
    ClientEnv P :=
  ⟨reading.identity, reading.now, reading.clock, descriptor, fun _ => false⟩

/-- Nothing fails in a reading. -/
theorem Reading.calm (reading : Reading P) (descriptor : UserName → Option (UserDescriptor P)) :
    (reading.env descriptor).Calm := fun _ => rfl

inductive PairEvent (P : Primitives) where
  | entry (entry : MailboxEntry P) (descriptor : UserName → Option (UserDescriptor P))
      (first second : Reading P)
  /-- What the clients do besides. -/
  | aside (first second : ClientDb P)

/-- What management messages decide about, and the key they are under. -/
def ClientDb.managementView (db : ClientDb P) (groupId : GroupId P) :
    Option (GroupDescriptor P × GroupRoster) :=
  (db.loadedGroup groupId).map fun group => (group.descriptor, group.roster)

namespace ClientPair

/-- Both clients process one entry, or do something else. -/
def machine (json : JsonReader P) (groupId : GroupId P) : Machine (ClientPair P) (PairEvent P) where
  step state
    | .entry entry descriptor first second =>
        match state.first.groups.lookup groupId, state.second.groups.lookup groupId with
        | some firstGroup, some secondGroup =>
            some
              ⟨(state.first.groupRecvOnce json (first.env descriptor) groupId firstGroup
                  .management entry).1,
                (state.second.groupRecvOnce json (second.env descriptor) groupId secondGroup
                  .management entry).1⟩
        | _, _ => none
    | .aside first second =>
        if first.managementView groupId = state.first.managementView groupId ∧
            second.managementView groupId = state.second.managementView groupId then
          some ⟨first, second⟩
        else none

/-- Both clients have the group, with the same roster. -/
def Agree (groupId : GroupId P) (state : ClientPair P) : Prop :=
  ∃ descriptor firstRoster secondRoster,
    state.first.managementView groupId = some (descriptor, firstRoster) ∧
      state.second.managementView groupId = some (descriptor, secondRoster) ∧
      firstRoster.Same secondRoster

/-- An entry which one of the clients reads as a change of the roster: the chain of its
sender has the same verdict at both clocks. -/
def Timely (json : JsonReader P) (groupId : GroupId P) (state : ClientPair P) :
    PairEvent P → Prop
  | .entry entry descriptor first second =>
      ∀ firstGroup secondGroup, state.first.groups.lookup groupId = some firstGroup →
        state.second.groups.lookup groupId = some secondGroup →
          ∀ sender manage,
            (ClientDb.manageWrite json (first.env descriptor) groupId firstGroup entry =
                some (sender, manage) ∨
              ClientDb.manageWrite json (second.env descriptor) groupId secondGroup entry =
                some (sender, manage)) →
              firstGroup.loadedRoster.Alters sender manage →
                SameVerdict descriptor firstGroup.descriptor.managementKey entry.message
                  first.clock second.clock
  | .aside _ _ => True

/-- What management messages decide about is the group's descriptor and its loaded roster. -/
theorem managementView_of_lookup {db : ClientDb P} {groupId : GroupId P} {group : GroupRecord P}
    (listed : db.groups.lookup groupId = some group) :
    db.managementView groupId = some (group.descriptor, group.loadedRoster) := by
  rw [ClientDb.managementView, ClientDb.loadedGroup_of_lookup listed]
  rfl

/-- A round of the management mailbox without failures. -/
theorem managementView_round (json : JsonReader P) (reading : Reading P)
    (descriptor : UserName → Option (UserDescriptor P)) {groupId : GroupId P}
    {group : GroupRecord P} (entry : MailboxEntry P) {db : ClientDb P}
    (listed : db.groups.lookup groupId = some group) :
    (db.groupRecvOnce json (reading.env descriptor) groupId group .management
      entry).1.managementView groupId =
        some (group.descriptor, ClientDb.managed group.loadedRoster
          (ClientDb.manageWrite json (reading.env descriptor) groupId group entry)) := by
  rw [ClientDb.managementView, ClientDb.groupRecvOnce_loadedGroup json _ .management entry listed,
    GroupRecord.received_management json (reading.calm descriptor)]
  rfl

/-- The rosters stay the same exactly when the two readings of an entry ask for the same,
or the one which asks for something asks for no change. -/
theorem managed_agree_iff {first second : GroupRoster} (same : first.Same second)
    {firstWrite secondWrite : Option (UserName × GroupManageMsg)} {verdicts : Prop}
    (equal : verdicts → firstWrite = secondWrite)
    (apart : ¬verdicts → firstWrite = none ∨ secondWrite = none) :
    (ClientDb.managed first firstWrite).Same (ClientDb.managed second secondWrite) ↔
      ∀ sender manage, (firstWrite = some (sender, manage) ∨ secondWrite = some (sender, manage)) →
        first.Alters sender manage → verdicts := by
  by_cases held : verdicts
  · rw [equal held]
    exact iff_of_true (ClientDb.managed_same same secondWrite) fun _ _ _ _ => held
  · rcases apart held with refused | refused
    · subst refused
      have idle := ClientDb.managed_same_iff second secondWrite
      constructor
      · rintro agree sender manage (⟨⟨⟩⟩ | asked) alters
        exact absurd ((same.alters sender manage).mp alters)
          (idle.mp (agree.symm.trans same) sender manage asked)
      · intro timely
        refine same.trans (idle.mpr fun sender manage asked alters => held ?_).symm
        exact timely sender manage (Or.inr asked) ((same.alters sender manage).mpr alters)
    · subst refused
      have idle := ClientDb.managed_same_iff first firstWrite
      constructor
      · rintro agree sender manage (asked | ⟨⟨⟩⟩) alters
        exact absurd alters (idle.mp (agree.trans same.symm) sender manage asked)
      · intro timely
        refine (idle.mpr fun sender manage asked alters => held ?_).trans same
        exact timely sender manage (Or.inl asked) alters

/-- A step keeps the rosters the same exactly when it is timely. -/
theorem agree_step {json : JsonReader P} {groupId : GroupId P} {state next : ClientPair P}
    {event : PairEvent P} (agree : state.Agree groupId)
    (taken : (machine json groupId).step state event = some next) :
    next.Agree groupId ↔ Timely json groupId state event := by
  obtain ⟨groupDescriptor, firstRoster, secondRoster, firstView, secondView, same⟩ := agree
  cases event with
  | aside first second =>
      simp only [machine] at taken
      split at taken
      · rename_i views
        cases taken
        refine iff_of_true ⟨groupDescriptor, firstRoster, secondRoster, ?_, ?_, same⟩ trivial
        · exact views.1.trans firstView
        · exact views.2.trans secondView
      · simp at taken
  | entry entry descriptor firstReading secondReading =>
      simp only [machine] at taken
      split at taken
      · rename_i firstGroup secondGroup firstListed secondListed
        cases taken
        rw [managementView_of_lookup firstListed, Option.some.injEq, Prod.mk.injEq] at firstView
        rw [managementView_of_lookup secondListed, Option.some.injEq, Prod.mk.injEq] at secondView
        obtain ⟨rfl, rfl⟩ := firstView
        obtain ⟨sameDescriptor, rfl⟩ := secondView
        have firstAfter := managementView_round json firstReading descriptor entry firstListed
        have secondAfter := managementView_round json secondReading descriptor entry secondListed
        have equal := ClientDb.manageWrite_congr json groupId (firstReading.env descriptor)
          (secondReading.env descriptor) entry rfl sameDescriptor.symm
        have apart := ClientDb.manageWrite_apart json groupId (firstReading.env descriptor)
          (secondReading.env descriptor) entry rfl sameDescriptor.symm
        have decided := managed_agree_iff same equal apart
        rw [sameDescriptor] at secondAfter
        constructor
        · rintro ⟨_, _, _, firstSeen, secondSeen, agree⟩ _ _ firstFound secondFound
          cases firstListed.symm.trans firstFound
          cases secondListed.symm.trans secondFound
          cases firstAfter.symm.trans firstSeen
          cases secondAfter.symm.trans secondSeen
          exact decided.mp agree
        · intro timely
          exact ⟨_, _, _, firstAfter, secondAfter,
            decided.mpr (timely firstGroup secondGroup firstListed secondListed)⟩
      · simp at taken

/-- Two clients which start with the same roster keep the same one exactly in the runs
whose entries are all timely. -/
theorem agree_iff (json : JsonReader P) {groupId : GroupId P} {start : ClientPair P}
    (agree : start.Agree groupId) (events : List (PairEvent P)) :
    (machine json groupId).Always (Agree groupId) start events ↔
      (machine json groupId).Along (Timely json groupId) start events :=
  Machine.always_iff_along (fun holds taken => agree_step holds taken) agree

/-- Alice invites Bobby under a chain which is valid until 50. One client reads the invite at 10,
the other one replays the log at 60. -/
def expiredRun : List (PairEvent symbolic) :=
  [.entry (manageEntry (.inviteSent bobby) (rootChain 1 50) 5) symbolicDirectory
    ⟨none, 10, 10⟩ ⟨none, 60, 60⟩]

theorem agree_joined : Agree exampleGroup.id (ClientPair.mk joinedDb joinedDb) :=
  ⟨exampleGroup, joinedGroup.loadedRoster, joinedGroup.loadedRoster,
    managementView_of_lookup joinedDb_lookup, managementView_of_lookup joinedDb_lookup, .refl _⟩

theorem agree_iff_expiredRun :
    (machine symbolicJson exampleGroup.id).Always (Agree exampleGroup.id) ⟨joinedDb, joinedDb⟩
        expiredRun ↔
      (machine symbolicJson exampleGroup.id).Along (Timely symbolicJson exampleGroup.id)
        ⟨joinedDb, joinedDb⟩ expiredRun :=
  agree_iff symbolicJson agree_joined expiredRun

/-- Bobby's row in the rosters of both clients. -/
def bobbyRows (state : ClientPair symbolic) : Option (Option RosterMember × Option RosterMember) :=
  match state.first.managementView exampleGroup.id, state.second.managementView exampleGroup.id with
  | some (_, first), some (_, second) => some (first.get bobby, second.get bobby)
  | _, _ => none

/-- The clients of the run disagree. -/
theorem expiredRun_breaks :
    ¬(machine symbolicJson exampleGroup.id).Always (Agree exampleGroup.id) ⟨joinedDb, joinedDb⟩
      expiredRun := by
  intro always
  have ends : ((machine symbolicJson exampleGroup.id).exec ⟨joinedDb, joinedDb⟩ expiredRun).map
      bobbyRows = some (some (some ⟨false, .pending⟩, none)) := by decide +kernel
  obtain ⟨state, reached, rows⟩ := Option.map_eq_some_iff.mp ends
  obtain ⟨_, first, second, firstSeen, secondSeen, same⟩ := always.last reached
  simp only [bobbyRows, firstSeen, secondSeen, Option.some.injEq, Prod.mk.injEq] at rows
  have row := same.rows bobby
  rw [rows.1, rows.2] at row
  simp at row

end ClientPair
end Nullspace
