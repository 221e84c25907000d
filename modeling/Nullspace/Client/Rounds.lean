import Nullspace.Client.Effects
import Nullspace.Symbolic

/-!
# What a round makes of a group's row

`GroupRecord.received` is one round of a group's loop as a function on the row alone,
seen as every reader sees it: with the initial admin in the roster. `groupRecvOnce_loadedGroup`
connects it with the loop, under any failures.
-/

namespace Nullspace

open Nullspace.Base

variable {P : Primitives}

/-- No operation fails. -/
def ClientEnv.Calm (env : ClientEnv P) : Prop := ∀ point, env.fails point = false

namespace GroupRecord

/-- The row with the roster which every load of it is followed by. -/
def loaded (group : GroupRecord P) : GroupRecord P := { group with roster := group.loadedRoster }

def withKeys (group : GroupRecord P) (keys : AeadKey × AeadKey) : GroupRecord P :=
  { group with groupKeyCurrent := keys.1, groupKeyPrev := keys.2 }

/-- The row after a round. -/
def received (json : JsonReader P) (env : ClientEnv P) (groupId : GroupId P)
    (kind : GroupMailboxKind) (entry : MailboxEntry P) (group : GroupRecord P) : GroupRecord P :=
  if env.fails .prepare || env.fails .cursor then group.loaded
  else
    match kind with
    | .messages =>
        if entry.message.kind = Blob.v1GroupRekey then
          group.loaded.withKeys (ClientDb.rekeyed env groupId group entry.message)
        else group.loaded
    | .management =>
        if ClientDb.manageFails env group then group.loaded
        else
          { group with
            roster := ClientDb.managed group.loadedRoster
              (ClientDb.manageWrite json env groupId group entry) }

/-- A loaded row has the loaded roster. -/
@[simp] theorem loaded_roster (group : GroupRecord P) : group.loaded.roster = group.loadedRoster :=
  rfl

@[simp] theorem withKeys_keys (group : GroupRecord P) (keys : AeadKey × AeadKey) :
    (group.withKeys keys).keys = keys := rfl

/-- A round of the management mailbox without failures. -/
theorem received_management (json : JsonReader P) {env : ClientEnv P} (calm : env.Calm)
    (groupId : GroupId P) (entry : MailboxEntry P) (group : GroupRecord P) :
    group.received json env groupId .management entry =
      { group with
        roster := ClientDb.managed group.loadedRoster
          (ClientDb.manageWrite json env groupId group entry) } := by
  have works : ClientDb.manageFails env group = false := by
    simp [ClientDb.manageFails, ClientDb.rosterFails, calm _]
  rw [received, calm .prepare, calm .cursor, works]
  rfl

/-- A round of the messages mailbox which gets as far as its cursor. -/
theorem received_messages (json : JsonReader P) {env : ClientEnv P}
    (prepares : env.fails .prepare = false) (stores : env.fails .cursor = false)
    (groupId : GroupId P) (entry : MailboxEntry P) (group : GroupRecord P) :
    group.received json env groupId .messages entry =
      if entry.message.kind = Blob.v1GroupRekey then
        group.loaded.withKeys (ClientDb.rekeyed env groupId group entry.message)
      else group.loaded := by
  rw [received, prepares, stores]
  rfl

end GroupRecord

namespace ClientDb

/-- A group's row, as every reader sees it. -/
def loadedGroup (db : ClientDb P) (groupId : GroupId P) : Option (GroupRecord P) :=
  (db.groups.lookup groupId).map GroupRecord.loaded

/-- What a reader sees of a group is its row as it is loaded. -/
theorem loadedGroup_of_lookup {db : ClientDb P} {groupId : GroupId P} {group : GroupRecord P}
    (listed : db.groups.lookup groupId = some group) :
    db.loadedGroup groupId = some group.loaded := by
  rw [loadedGroup, listed, Option.map_some]

/-- What a reader sees of a regrouped group. -/
theorem Regrouped.loadedGroup {groupId : GroupId P} {group : GroupRecord P}
    {keys : AeadKey × AeadKey} {roster : GroupRoster} {db next : ClientDb P}
    (regrouped : Regrouped groupId group keys roster db next) :
    next.loadedGroup groupId = some { group.withKeys keys with roster := roster } := by
  obtain ⟨stored, listed, same⟩ := regrouped.listed
  rw [loadedGroup_of_lookup listed, GroupRecord.loaded, GroupRecord.loadedRoster, same]
  rfl

/-- The tables when a group's loop has stored the cursor. -/
def cursorStored (groupId : GroupId P) (group : GroupRecord P) (kind : GroupMailboxKind)
    (receivedAt : NanoTimestamp) (db : ClientDb P) : ClientDb P :=
  ((db.ensureMailboxState (group.mailboxKey groupId .messages) 0).ensureMailboxState
    (group.mailboxKey groupId .management) 0).updateMailboxAfter (group.mailboxKey groupId kind)
      receivedAt

/-- A round whose cursor is stored goes on to its entry. -/
theorem groupRecvOnce_stored (json : JsonReader P) {env : ClientEnv P} (groupId : GroupId P)
    (group : GroupRecord P) (kind : GroupMailboxKind) (entry : MailboxEntry P) (db : ClientDb P)
    (prepares : env.fails .prepare = false) (stores : env.fails .cursor = false) :
    db.groupRecvOnce json env groupId group kind entry =
      (cursorStored groupId group kind entry.receivedAt db).processGroupEntry json env groupId
        group kind entry := by
  simp [groupRecvOnce, prepares, stores, cursorStored]

/-- A round does to the group's row what `received` says. -/
theorem groupRecvOnce_loadedGroup (json : JsonReader P) (env : ClientEnv P) {groupId : GroupId P}
    {group : GroupRecord P} (kind : GroupMailboxKind) (entry : MailboxEntry P) {db : ClientDb P}
    (listed : db.groups.lookup groupId = some group) :
    (db.groupRecvOnce json env groupId group kind entry).1.loadedGroup groupId =
      some (group.received json env groupId kind entry) := by
  by_cases prepares : env.fails .prepare = true
  · simp only [groupRecvOnce, GroupRecord.received, prepares, Bool.true_or, if_true]
    exact loadedGroup_of_lookup listed
  rw [Bool.not_eq_true] at prepares
  by_cases stores : env.fails .cursor = true
  · simp only [groupRecvOnce, GroupRecord.received, prepares, stores, Bool.or_true, if_true,
      Bool.false_eq_true, if_false]
    exact loadedGroup_of_lookup listed
  rw [Bool.not_eq_true] at stores
  have stored : (cursorStored groupId group kind entry.receivedAt db).groups.lookup groupId =
      some group := listed
  rw [groupRecvOnce_stored json groupId group kind entry db prepares stores]
  simp only [GroupRecord.received, prepares, stores, Bool.or_self, Bool.false_eq_true, if_false]
  cases kind with
  | messages =>
      by_cases rekey : entry.message.kind = Blob.v1GroupRekey
      · simp only [processGroupEntry, processGroupMessageEntry, if_pos rekey]
        exact (processGroupRekeyEntry_spec env entry.message stored).loadedGroup
      · have beside := (processGroupMessageEntry_spec json env groupId group
          (cursorStored groupId group .messages entry.receivedAt db) rekey).2
        simp only [processGroupEntry, if_neg rekey]
        apply loadedGroup_of_lookup
        rw [beside.groups]
        exact stored
  | management =>
      have managed := (processGroupManagementEntry_spec json env entry stored).loadedGroup
      simp only [processGroupEntry]
      rw [managed]
      split <;> rfl

end ClientDb

def aliceIdentity : Identity symbolic :=
  ⟨alice, some symbolicServer, 1, rootChain 1 100, aliceMedium, aliceMedium⟩

def bobbyIdentity : Identity symbolic :=
  ⟨bobby, some symbolicServer, 2, rootChain 2 100, bobbyMedium, bobbyMedium⟩

def exampleGroup : GroupDescriptor symbolic := ⟨[], alice, 0, symbolicServer, symbolicKey 9⟩

/-- The row of a group of which a client knows no members yet. -/
def joinedGroup : GroupRecord symbolic :=
  ⟨exampleGroup, symbolicServer, .anonymous, symbolicKey 1, symbolicKey 1, .empty⟩

def joinedDb : ClientDb symbolic :=
  { ClientDb.empty with
    groups := (∅ : Table (GroupId symbolic) (GroupRecord symbolic)).insert exampleGroup.id joinedGroup }

theorem joinedDb_lookup : joinedDb.groups.lookup exampleGroup.id = some joinedGroup :=
  AList.lookup_insert _

/-- What Alice posts to the management mailbox. -/
def manageEntry (manage : GroupManageMsg) (chain : CertificateChain symbolic)
    (receivedAt : NanoTimestamp) : MailboxEntry symbolic :=
  ⟨⟨Blob.v1GroupMessage, Bcs.toBytes (GroupMessage.encryptMessage zeroNonce
    ⟨.group exampleGroup.id, receivedAt, GroupManageMsg.mimeType, utf8 manage.compactJson⟩
    alice chain 1 exampleGroup.managementKey)⟩, receivedAt, none⟩

/-- A rekey which Alice and Bobby can open. -/
def rekeyEntry (sender : UserName) (device : UInt8) (newKey : AeadKey)
    (receivedAt : NanoTimestamp) : MailboxEntry symbolic :=
  ⟨sealedFor [aliceMedium, bobbyMedium] Blob.v1GroupRekey
    (.signBytes (Bcs.toBytes (exampleGroup.id, newKey.bytes)) sender (rootChain device 100) device),
    receivedAt, none⟩

end Nullspace
