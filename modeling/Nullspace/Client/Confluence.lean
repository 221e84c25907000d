import Nullspace.Base.Interleaving
import Nullspace.Client.Determinism

/-!
# The two mailboxes of a group

A member polls a group's two mailboxes independently: its run is one interleaving of the
management log and the messages log. Without failures a run refines `groupReader`: the
management log drives the roster, and a rekey of the messages log counts when its sender
is an active admin in the roster at that moment.

A rekey which does not count is never looked at again. So the rosters of two members
always end the same, and their keys do when the last rekey which counts for either has a
sender who is an admin for both.
-/

namespace Nullspace

open Nullspace.Base

variable {P : Primitives}

/-- An entry of a log, what the directory says when it is read, and who reads it and when. -/
structure LogRead (P : Primitives) where
  entry : MailboxEntry P
  descriptor : UserName → Option (UserDescriptor P)
  reading : Reading P

namespace LogRead

def env (read : LogRead P) : ClientEnv P := read.reading.env read.descriptor

/-- The signed payload of a rekey, when the reader can open it. -/
def opened (read : LogRead P) : Option (DeviceSigned P) :=
  if read.entry.message.kind = Blob.v1GroupRekey then
    read.reading.identity.bind fun identity => (openRekey identity read.entry.message).toOption
  else none

/-- The rekey which an entry carries, whether or not its sender may rekey. -/
def offer (groupId : GroupId P) (read : LogRead P) : Option (DeviceSigned P × AeadKey) :=
  match read.opened with
  | none => none
  | some signed =>
      match read.descriptor signed.sender with
      | none => none
      | some found =>
          match readRekey groupId signed read.reading.clock found.rootCertHash with
          | .ok (some newKey) => some (signed, newKey)
          | _ => none

/-- Two members read one entry of the management log with the same answers and verdict. -/
structure SameManagement (managementKey : AeadKey) (left right : LogRead P) : Prop where
  entry : left.entry = right.entry
  descriptor : left.descriptor = right.descriptor
  verdict : SameVerdict left.descriptor managementKey left.entry.message left.reading.clock
    right.reading.clock

/-- Two members read one entry of the messages log with the same answers and verdict; a
rekey opens to the same payload for both. -/
structure SameMessage (left right : LogRead P) : Prop where
  entry : left.entry = right.entry
  descriptor : left.descriptor = right.descriptor
  opened : left.opened = right.opened
  verdict : ∀ signed, left.opened = some signed →
    chainVerdict left.descriptor left.reading.clock signed =
      chainVerdict left.descriptor right.reading.clock signed

/-- Two members who read one entry alike see the same rekey in it. -/
theorem SameMessage.offer {left right : LogRead P} (same : SameMessage left right)
    (groupId : GroupId P) : left.offer groupId = right.offer groupId := by
  rw [LogRead.offer, LogRead.offer, ← same.opened, ← same.descriptor]
  cases opened : left.opened with
  | none => rfl
  | some signed =>
      have verdict := same.verdict signed opened
      cases known : left.descriptor signed.sender with
      | none => simp only [known]
      | some found =>
          simp only [chainVerdict, known] at verdict
          simp only [known, readRekey, verifyBytes_congr verdict]

end LogRead

/-- The logs of two members' runs. -/
structure SameLogs (managementKey : AeadKey) (left right : List (LogRead P ⊕ LogRead P)) :
    Prop where
  management : List.Forall₂ (LogRead.SameManagement managementKey) (firsts left) (firsts right)
  messages : List.Forall₂ LogRead.SameMessage (seconds left) (seconds right)

/-- What a member makes of the two logs: the roster, and the key. -/
def groupReader (json : JsonReader P) (groupId : GroupId P) (group : GroupRecord P) :
    Reader (LogRead P) (LogRead P) GroupRoster AeadKey where
  drive roster read :=
    ClientDb.managed roster (ClientDb.manageWrite json read.env groupId group read.entry)
  judge roster read :=
    match read.offer groupId with
    | none => none
    | some (signed, newKey) => if roster.senderAdmin signed.sender then some newKey else none

namespace ClientDb

/-- One round of the group's loop. -/
def consume (json : JsonReader P) (groupId : GroupId P) (db : ClientDb P)
    (round : LogRead P ⊕ LogRead P) : ClientDb P :=
  match db.groups.lookup groupId with
  | none => db
  | some group =>
      match round with
      | .inl read => (db.groupRecvOnce json read.env groupId group .management read.entry).1
      | .inr read => (db.groupRecvOnce json read.env groupId group .messages read.entry).1

/-- The group's row holds a roster and a current key. -/
def Holds (groupId : GroupId P) (descriptor : GroupDescriptor P) (db : ClientDb P)
    (held : GroupRoster × AeadKey) : Prop :=
  ∃ row, db.loadedGroup groupId = some row ∧ row.descriptor = descriptor ∧ row.roster = held.1 ∧
    row.groupKeyCurrent = held.2

/-- A rekey is written when it is offered by an admin. -/
theorem rekeyWrite_eq (groupId : GroupId P) (group : GroupRecord P) {read : LogRead P}
    (rekey : read.entry.message.kind = Blob.v1GroupRekey) :
    (read.env.identity.bind fun identity =>
      rekeyWrite read.env identity groupId group read.entry.message) =
      (read.offer groupId).filter fun offer => group.loadedRoster.senderAdmin offer.1.sender := by
  have sameIdentity : read.env.identity = read.reading.identity := rfl
  have sameDescriptor : read.env.descriptor = read.descriptor := rfl
  have sameClock : read.env.clock = read.reading.clock := rfl
  simp only [LogRead.offer, LogRead.opened, if_pos rekey, sameIdentity]
  cases read.reading.identity with
  | none => rfl
  | some identity =>
      simp only [Option.bind_some, rekeyWrite, sameDescriptor, sameClock]
      cases openRekey identity read.entry.message with
      | error err => rfl
      | ok signed =>
          simp only [Except.toOption]
          cases read.descriptor signed.sender with
          | none => simp
          | some found =>
              simp only
              cases readRekey groupId signed read.reading.clock found.rootCertHash with
              | error err => simp
              | ok payload =>
                  cases payload with
                  | none => simp
                  | some newKey => simp [Option.filter]

/-- The key after a rekey without failures. -/
theorem rekeyed_current (json : JsonReader P) (groupId : GroupId P) (start group : GroupRecord P)
    {read : LogRead P} (rekey : read.entry.message.kind = Blob.v1GroupRekey) :
    (rekeyed read.env groupId group read.entry.message).1 =
      ((groupReader json groupId start).judge group.loadedRoster read).getD
        group.groupKeyCurrent := by
  have calm : rekeyFails read.env group = false := by
    simp [rekeyFails, rosterFails, LogRead.env, Reading.env]
  rw [rekeyed, rekeyWrite_eq groupId group rekey, calm]
  simp only [groupReader]
  cases read.offer groupId with
  | none => rfl
  | some offer =>
      cases admin : group.loadedRoster.senderAdmin offer.1.sender with
      | false => simp [Option.filter, admin, GroupRecord.keys]
      | true => simp [Option.filter, admin]

/-- One round is one step of the reader. -/
theorem Holds.consume (json : JsonReader P) {groupId : GroupId P} {start : GroupRecord P}
    {db : ClientDb P} {held : GroupRoster × AeadKey}
    (holds : db.Holds groupId start.descriptor held) (round : LogRead P ⊕ LogRead P) :
    (db.consume json groupId round).Holds groupId start.descriptor
      ((groupReader json groupId start).read held round) := by
  obtain ⟨row, loaded, descriptor, roster, key⟩ := holds
  obtain ⟨group, listed, rfl⟩ := Option.map_eq_some_iff.mp loaded
  rw [GroupRecord.loaded_roster] at roster
  simp only [ClientDb.consume, listed]
  cases round with
  | inl read =>
      have after := groupRecvOnce_loadedGroup json read.env .management read.entry listed
      have calm : read.env.Calm := read.reading.calm read.descriptor
      rw [GroupRecord.received_management json calm] at after
      have write : manageWrite json read.env groupId group read.entry =
          manageWrite json read.env groupId start read.entry :=
        manageWrite_congr json groupId read.env read.env read.entry rfl descriptor fun _ _ => rfl
      refine ⟨_, after, descriptor, ?_, key⟩
      simp only [write, roster]
      rfl
  | inr read =>
      have after := groupRecvOnce_loadedGroup json read.env .messages read.entry listed
      rw [GroupRecord.received_messages json rfl rfl] at after
      by_cases rekey : read.entry.message.kind = Blob.v1GroupRekey
      · rw [if_pos rekey] at after
        have current := rekeyed_current json groupId start group rekey
        refine ⟨_, after, descriptor, roster, ?_⟩
        refine current.trans ?_
        rw [roster, Reader.read, ← key]
        rfl
      · rw [if_neg rekey] at after
        refine ⟨_, after, descriptor, roster, ?_⟩
        have ignored : (groupReader json groupId start).judge held.1 read = none := by
          simp [groupReader, LogRead.offer, LogRead.opened, if_neg rekey]
        rw [Reader.read, ignored]
        exact key

/-- A run without failures refines the reader. -/
theorem Holds.run (json : JsonReader P) {groupId : GroupId P} {start : GroupRecord P}
    {db : ClientDb P} {held : GroupRoster × AeadKey}
    (holds : db.Holds groupId start.descriptor held) (rounds : List (LogRead P ⊕ LogRead P)) :
    (rounds.foldl (ClientDb.consume json groupId) db).Holds groupId start.descriptor
      (rounds.foldl (groupReader json groupId start).read held) := by
  induction rounds generalizing db held with
  | nil => exact holds
  | cons round rounds ih => exact ih (holds.consume json round)

end ClientDb

/-- Two members have the group with the same roster and the same current key. -/
structure SameGroup (groupId : GroupId P) (first second : ClientDb P)
    (firstGroup secondGroup : GroupRecord P) : Prop where
  first : first.loadedGroup groupId = some firstGroup
  second : second.loadedGroup groupId = some secondGroup
  descriptor : firstGroup.descriptor = secondGroup.descriptor
  roster : firstGroup.roster.Same secondGroup.roster
  current : firstGroup.groupKeyCurrent = secondGroup.groupKeyCurrent

/-- The sender of the last rekey which counts for either member is an active admin for
both or for neither, in the rosters which they have when they read it. -/
def SendersAlike (json : JsonReader P) (groupId : GroupId P) (firstGroup secondGroup : GroupRecord P)
    (left right : List (LogRead P ⊕ LogRead P)) : Prop :=
  let reader := groupReader json groupId firstGroup
  ∀ pair ∈ (((reader.sightings firstGroup.roster left).zip
      (reader.sightings secondGroup.roster right)).filter fun pair =>
        (reader.worth pair.1).isSome || (reader.worth pair.2).isSome).getLast?,
    ∀ signed newKey, pair.1.2.offer groupId = some (signed, newKey) →
      pair.1.1.senderAdmin signed.sender = pair.2.1.senderAdmin signed.sender

/-- Readers of one management entry who have the same roster keep the same. -/
theorem drive_same (json : JsonReader P) (groupId : GroupId P) (group : GroupRecord P)
    {state other : GroupRoster} {left right : LogRead P} (same : state.Same other)
    (read : LogRead.SameManagement group.descriptor.managementKey left right) :
    ((groupReader json groupId group).drive state left).Same
      ((groupReader json groupId group).drive other right) := by
  have write : ClientDb.manageWrite json left.env groupId group left.entry =
      ClientDb.manageWrite json right.env groupId group left.entry :=
    ClientDb.manageWrite_congr json groupId left.env right.env left.entry read.descriptor rfl
      read.verdict
  simp only [groupReader, ← read.entry, ← write]
  exact ClientDb.managed_same same _

/-- A rekey counts when its sender is an active admin. -/
theorem judge_eq_some {json : JsonReader P} {groupId : GroupId P} {group : GroupRecord P}
    {roster : GroupRoster} {read : LogRead P} {key : AeadKey} :
    (groupReader json groupId group).judge roster read = some key ↔
      ∃ signed, read.offer groupId = some (signed, key) ∧
        roster.senderAdmin signed.sender = true := by
  simp only [groupReader]
  cases read.offer groupId with
  | none => simp
  | some offer =>
      obtain ⟨signed, newKey⟩ := offer
      by_cases admin : roster.senderAdmin signed.sender = true
      · simp [admin]
      · simp [admin]

/-- A rekey counts when it is offered by an admin. -/
theorem worth_isSome {json : JsonReader P} {groupId : GroupId P} {group : GroupRecord P}
    {seen : GroupRoster × LogRead P} :
    ((groupReader json groupId group).worth seen).isSome = true ↔
      ∃ signed newKey, seen.2.offer groupId = some (signed, newKey) ∧
        seen.1.senderAdmin signed.sender = true := by
  rw [Option.isSome_iff_exists]
  constructor
  · rintro ⟨newKey, counted⟩
    obtain ⟨signed, offered, admin⟩ := judge_eq_some.mp counted
    exact ⟨signed, newKey, offered, admin⟩
  · rintro ⟨signed, newKey, offered, admin⟩
    exact ⟨newKey, judge_eq_some.mpr ⟨signed, offered, admin⟩⟩

/-- What counts for both readers of one entry is the same key. -/
theorem judge_same (json : JsonReader P) (groupId : GroupId P) (group : GroupRecord P)
    {state other : GroupRoster} {left right : LogRead P} {key otherKey : AeadKey}
    (same : LogRead.SameMessage left right)
    (first : (groupReader json groupId group).judge state left = some key)
    (second : (groupReader json groupId group).judge other right = some otherKey) :
    key = otherKey := by
  obtain ⟨_, firstOffer, _⟩ := judge_eq_some.mp first
  obtain ⟨_, secondOffer, _⟩ := judge_eq_some.mp second
  rw [same.offer groupId, secondOffer] at firstOffer
  cases firstOffer
  rfl

/-- A sender of the same standing for both readers makes a rekey count for both or for neither. -/
theorem lastAlike_of_sendersAlike {json : JsonReader P} {groupId : GroupId P}
    {firstGroup secondGroup : GroupRecord P} {left right : List (LogRead P ⊕ LogRead P)}
    (messages : List.Forall₂ LogRead.SameMessage (seconds left) (seconds right))
    (alike : SendersAlike json groupId firstGroup secondGroup left right) :
    (groupReader json groupId firstGroup).LastAlike
      ((groupReader json groupId firstGroup).sightings firstGroup.roster left)
      ((groupReader json groupId firstGroup).sightings secondGroup.roster right) := by
  intro pair last
  obtain ⟨listed, counted⟩ := List.mem_filter.mp (List.mem_of_getLast? last)
  have same : LogRead.SameMessage pair.1.2 pair.2.2 :=
    (List.forall₂_iff_zip.mp ((groupReader json groupId firstGroup).forall₂_sightings messages _ _)).2 listed
  have standing := alike pair last
  have offers := same.offer groupId
  have both : ((groupReader json groupId firstGroup).worth pair.1).isSome = true ↔
      ((groupReader json groupId firstGroup).worth pair.2).isSome = true := by
    rw [worth_isSome, worth_isSome]
    constructor
    · rintro ⟨signed, newKey, offered, admin⟩
      exact ⟨signed, newKey, offers ▸ offered, standing signed newKey offered ▸ admin⟩
    · rintro ⟨signed, newKey, offered, admin⟩
      have leftOffered := offers.trans offered
      exact ⟨signed, newKey, leftOffered, (standing signed newKey leftOffered).trans admin⟩
  rcases Bool.or_eq_true_iff.mp counted with first | second
  · exact ⟨first, both.mp first⟩
  · exact ⟨both.mpr second, second⟩

/-- Members who consume the same logs, each in an order of its own, end with the same
roster, and with the same key if the last rekey which counts has a sender of the same
standing for both. -/
theorem confluence (json : JsonReader P) {groupId : GroupId P} {first second : ClientDb P}
    {firstGroup secondGroup : GroupRecord P}
    (start : SameGroup groupId first second firstGroup secondGroup)
    {left right : List (LogRead P ⊕ LogRead P)}
    (logs : SameLogs firstGroup.descriptor.managementKey left right) :
    ∃ firstFinal secondFinal,
      (left.foldl (ClientDb.consume json groupId) first).loadedGroup groupId = some firstFinal ∧
      (right.foldl (ClientDb.consume json groupId) second).loadedGroup groupId =
        some secondFinal ∧
      firstFinal.roster.Same secondFinal.roster ∧
      (SendersAlike json groupId firstGroup secondGroup left right →
        firstFinal.groupKeyCurrent = secondFinal.groupKeyCurrent) := by
  have firstHolds : first.Holds groupId firstGroup.descriptor
      (firstGroup.roster, firstGroup.groupKeyCurrent) := ⟨firstGroup, start.first, rfl, rfl, rfl⟩
  have secondHolds : second.Holds groupId firstGroup.descriptor
      (secondGroup.roster, firstGroup.groupKeyCurrent) :=
    ⟨secondGroup, start.second, start.descriptor.symm, rfl, start.current.symm⟩
  obtain ⟨firstFinal, firstLoaded, _, firstRoster, firstKey⟩ := firstHolds.run json left
  obtain ⟨secondFinal, secondLoaded, _, secondRoster, secondKey⟩ := secondHolds.run json right
  obtain ⟨rosters, keys⟩ := (groupReader json groupId firstGroup).confluent
    (fun same read => drive_same json groupId firstGroup same read)
    (fun same => judge_same json groupId firstGroup same) logs.management logs.messages
    start.roster firstGroup.groupKeyCurrent
  refine ⟨firstFinal, secondFinal, firstLoaded, secondLoaded, ?_, fun alike => ?_⟩
  · rw [firstRoster, secondRoster]
    exact rosters
  · rw [firstKey, secondKey]
    exact keys (lastAlike_of_sendersAlike logs.messages alike)

def readAs (identity : Identity symbolic) (entry : MailboxEntry symbolic) : LogRead symbolic :=
  ⟨entry, symbolicDirectory, ⟨some identity, 10, 10⟩⟩

def bobbyInvited : MailboxEntry symbolic := manageEntry (.inviteSent bobby) (rootChain 1 100) 5

def bobbyPromoted : MailboxEntry symbolic := manageEntry (.addAdmin bobby) (rootChain 1 100) 6

/-- Alice invites Bobby, makes him an admin, and someone rekeys. The management log comes first. -/
def managementFirst (identity : Identity symbolic) (rekey : MailboxEntry symbolic) :
    List (LogRead symbolic ⊕ LogRead symbolic) :=
  [.inl (readAs identity bobbyInvited), .inl (readAs identity bobbyPromoted),
    .inr (readAs identity rekey)]

/-- The messages log comes first. -/
def messagesFirst (identity : Identity symbolic) (rekey : MailboxEntry symbolic) :
    List (LogRead symbolic ⊕ LogRead symbolic) :=
  [.inr (readAs identity rekey), .inl (readAs identity bobbyInvited),
    .inl (readAs identity bobbyPromoted)]

theorem sameManagement_readAs (entry : MailboxEntry symbolic) :
    LogRead.SameManagement exampleGroup.managementKey (readAs aliceIdentity entry)
      (readAs bobbyIdentity entry) :=
  ⟨rfl, rfl, fun _ _ => rfl⟩

/-- Their runs have the same logs when the rekey opens to the same payload. -/
theorem sameLogs_readAs {rekey : MailboxEntry symbolic}
    (opened : (readAs aliceIdentity rekey).opened = (readAs bobbyIdentity rekey).opened) :
    SameLogs exampleGroup.managementKey (managementFirst aliceIdentity rekey)
      (messagesFirst bobbyIdentity rekey) :=
  ⟨.cons (sameManagement_readAs _) (.cons (sameManagement_readAs _) .nil),
    .cons ⟨rfl, rfl, opened, fun _ _ => rfl⟩ .nil⟩

/-- Both have just got the group. -/
theorem sameGroup_joined :
    SameGroup exampleGroup.id joinedDb joinedDb joinedGroup.loaded joinedGroup.loaded :=
  ⟨ClientDb.loadedGroup_of_lookup joinedDb_lookup, ClientDb.loadedGroup_of_lookup joinedDb_lookup,
    rfl, .refl _, rfl⟩

/-- Alice is an admin from the start. -/
def aliceRekey : MailboxEntry symbolic := rekeyEntry alice 1 (symbolicKey 4) 7

/-- Alice is an admin for both when they read her rekey. -/
theorem sendersAlike_aliceRekey : SendersAlike symbolicJson exampleGroup.id joinedGroup.loaded
    joinedGroup.loaded (managementFirst aliceIdentity aliceRekey)
    (messagesFirst bobbyIdentity aliceRekey) := by
  intro pair last signed newKey offered
  have listed := (List.mem_filter.mp (List.mem_of_getLast? last)).1
  simp only [managementFirst, messagesFirst, Reader.sightings, List.zip_cons_cons, List.zip_nil_left,
    List.mem_singleton] at listed
  obtain rfl := listed
  have sender : ((readAs aliceIdentity aliceRekey).offer exampleGroup.id).map
      (fun offer => offer.1.sender) = some alice := by decide +kernel
  rw [offered, Option.map_some, Option.some.injEq] at sender
  rw [sender]
  decide +kernel

theorem confluence_aliceRekey : ∃ firstFinal secondFinal,
    ((managementFirst aliceIdentity aliceRekey).foldl
      (ClientDb.consume symbolicJson exampleGroup.id) joinedDb).loadedGroup exampleGroup.id =
        some firstFinal ∧
    ((messagesFirst bobbyIdentity aliceRekey).foldl
      (ClientDb.consume symbolicJson exampleGroup.id) joinedDb).loadedGroup exampleGroup.id =
        some secondFinal ∧
    firstFinal.roster.Same secondFinal.roster ∧
    firstFinal.groupKeyCurrent = secondFinal.groupKeyCurrent := by
  have logs := sameLogs_readAs (show (readAs aliceIdentity aliceRekey).opened =
    (readAs bobbyIdentity aliceRekey).opened by decide +kernel)
  obtain ⟨firstFinal, secondFinal, first, second, rosters, keys⟩ :=
    confluence symbolicJson sameGroup_joined logs
  exact ⟨firstFinal, secondFinal, first, second, rosters, keys sendersAlike_aliceRekey⟩

/-- Bobby is an admin only once the management log says so. -/
def bobbyRekey : MailboxEntry symbolic := rekeyEntry bobby 2 (symbolicKey 3) 7

/-- The key which a member ends with. -/
def finalKey (rounds : List (LogRead symbolic ⊕ LogRead symbolic)) : Option AeadKey :=
  ((rounds.foldl (ClientDb.consume symbolicJson exampleGroup.id) joinedDb).loadedGroup
    exampleGroup.id).map GroupRecord.groupKeyCurrent

/-- With Bobby's rekey the two orders end in different keys. -/
theorem bobbyRekey_breaks :
    ¬∀ left right : List (LogRead symbolic ⊕ LogRead symbolic),
      SameLogs exampleGroup.managementKey left right → finalKey left = finalKey right := by
  intro confluent
  have logs := sameLogs_readAs (show (readAs aliceIdentity bobbyRekey).opened =
    (readAs bobbyIdentity bobbyRekey).opened by decide +kernel)
  have aliceKey : finalKey (managementFirst aliceIdentity bobbyRekey) = some (symbolicKey 3) := by
    decide +kernel
  have bobbyKey : finalKey (messagesFirst bobbyIdentity bobbyRekey) = some (symbolicKey 1) := by
    decide +kernel
  have equal := confluent _ _ logs
  rw [aliceKey, bobbyKey] at equal
  exact absurd equal (by decide)

end Nullspace
