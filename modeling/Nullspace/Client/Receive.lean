import Nullspace.Client.Database

/-!
# Processing mailbox entries

The three receive paths: direct messages, a group's messages with its rekeys, and a
group's management messages. Each opens an envelope, looks the sender up, reads what the
sender signed, and writes. All of them store the mailbox cursor before they look at the
entry.

`ok` also covers the entries which are ignored; an error is logged and nothing more.
-/

namespace Nullspace

open Nullspace.Base

variable {P : Primitives}

def HeaderEncryptionError.message : HeaderEncryptionError → String
  | .decrypt => "decrypt error"
  | .dh => "dh error"
  | .noRecipients => "no recipients"

def GroupMessageError.message : GroupMessageError → String
  | .decode => "decode error"
  | .decrypt => "decrypt error"

/-- Decrypt with the current medium-term key, or else with the previous one. -/
def Identity.openHeader (identity : Identity P) (encrypted : HeaderEncrypted P) :
    Except HeaderEncryptionError Bytes :=
  match encrypted.decryptBytes identity.mediumSkCurrent with
  | .ok decrypted => .ok decrypted
  | .error _ => encrypted.decryptBytes identity.mediumSkPrev

/-- The signed payload of a direct message; `none` is an entry of another kind. -/
def openDirect (identity : Identity P) (message : Blob) :
    Except EntryError (Option (DeviceSigned P)) :=
  if message.kind ≠ Blob.v1DirectMessage then .ok none
  else
    match Bcs.fromBytes (α := HeaderEncrypted P) message.inner with
    | none => .error .decode
    | some encrypted =>
        match identity.openHeader encrypted with
        | .error _ => .error (.said "failed to decrypt header-encrypted message")
        | .ok decrypted =>
            match Bcs.fromBytes decrypted with
            | none => .error .decode
            | some signed => .ok (some signed)

/-- The signed payload of a rekey. -/
def openRekey (identity : Identity P) (message : Blob) : Except EntryError (DeviceSigned P) :=
  match Bcs.fromBytes (α := HeaderEncrypted P) message.inner with
  | none => .error .decode
  | some encrypted =>
      match identity.openHeader encrypted with
      | .error err => .error (.said err.message)
      | .ok decrypted =>
          match Bcs.fromBytes decrypted with
          | none => .error .decode
          | some signed => .ok signed

/-- The signed payload of a group message, under the current key or else the previous one. -/
def openGroupMessage (group : GroupRecord P) (message : Blob) :
    Except EntryError (Option (DeviceSigned P)) :=
  if message.kind ≠ Blob.v1GroupMessage then .ok none
  else
    match Bcs.fromBytes (α := GroupMessage) message.inner with
    | none => .error .decode
    | some groupMessage =>
        match groupMessage.decryptMessage (P := P) group.groupKeyCurrent with
        | .ok signed => .ok (some signed)
        | .error _ =>
            match groupMessage.decryptMessage group.groupKeyPrev with
            | .ok signed => .ok (some signed)
            | .error err => .error (.said err.message)

/-- The signed payload of a management message. -/
def openManagement (managementKey : AeadKey) (message : Blob) :
    Except EntryError (Option (DeviceSigned P)) :=
  if message.kind ≠ Blob.v1GroupMessage then .ok none
  else
    match Bcs.fromBytes (α := GroupMessage) message.inner with
    | none => .error .decode
    | some groupMessage =>
        match groupMessage.decryptMessage managementKey with
        | .ok signed => .ok (some signed)
        | .error err => .error (.said err.message)

/-- The event of a signed payload; `none` is a payload of another kind. -/
def readContent (signed : DeviceSigned P) (clock : Timestamp) (senderRootHash : P.Hash)
    (refusal : String) : Except EntryError (Option (Event P)) :=
  match signed.verifyBlob clock senderRootHash with
  | .error _ => .error (.said refusal)
  | .ok message =>
      if message.kind ≠ Blob.v1MessageContent then .ok none
      else
        match Bcs.fromBytes message.inner with
        | none => .error .decode
        | some content => .ok (some content)

/-- The conversation of a direct message; `none` is a mismatched recipient. -/
def directPeer (identity : Identity P) (sender : UserName) (content : Event P) :
    Option (ConvoId P) :=
  match content.recipient with
  | .group _ => none
  | .user recipient =>
      if recipient ≠ identity.username ∧ sender ≠ identity.username then none
      else some (.direct (if sender = identity.username then recipient else sender))

/-- The event of a direct message and its conversation. -/
def readDirect (identity : Identity P) (signed : DeviceSigned P) (clock : Timestamp)
    (senderRootHash : P.Hash) : Except EntryError (Option (ConvoId P × Event P)) :=
  match readContent signed clock senderRootHash "failed to verify device-signed message" with
  | .error err => .error err
  | .ok none => .ok none
  | .ok (some content) =>
      .ok ((directPeer identity signed.sender content).map fun convo => (convo, content))

/-- The event of a group message. -/
def readGroupEvent (groupId : GroupId P) (signed : DeviceSigned P) (clock : Timestamp)
    (senderRootHash : P.Hash) : Except EntryError (Option (ConvoId P × Event P)) :=
  match readContent signed clock senderRootHash "failed to verify group message" with
  | .error err => .error err
  | .ok none => .ok none
  | .ok (some content) =>
      if content.recipient ≠ .group groupId then .ok none else .ok (some (.group groupId, content))

/-- The change which a management message asks for. -/
def readManagement (json : JsonReader P) (groupId : GroupId P) (signed : DeviceSigned P)
    (clock : Timestamp) (senderRootHash : P.Hash) : Except EntryError (Option GroupManageMsg) :=
  match readContent signed clock senderRootHash "failed to verify management message" with
  | .error err => .error err
  | .ok none => .ok none
  | .ok (some content) =>
      if content.recipient ≠ .group groupId then .ok none
      else if content.mime ≠ GroupManageMsg.mimeType then .ok none
      else
        match json.groupManage content.body with
        | none => .error .decode
        | some manage => .ok (some manage)

/-- The new key of a rekey; `none` is a rekey of another group. -/
def readRekey (groupId : GroupId P) (signed : DeviceSigned P) (clock : Timestamp)
    (senderRootHash : P.Hash) : Except EntryError (Option AeadKey) :=
  match signed.verifyBytes clock senderRootHash with
  | .error _ => .error (.said "failed to verify device-signed rekey")
  | .ok payload =>
      match Bcs.fromBytes (α := GroupId P × FixedBytes 32) payload with
      | none => .error .decode
      | some (rekeyGroup, keyBytes) =>
          if rekeyGroup ≠ groupId then .ok none else .ok (some ⟨keyBytes⟩)

namespace ClientDb

/-- The attachment root of an event, if it carries one. -/
def storeAttachment (json : JsonReader P) (sender : UserName) (content : Event P)
    (db : ClientDb P) : ClientDb P :=
  if content.mime = Attachment.mimeType then
    match json.attachment content.body with
    | some root => db.storeAttachmentRoot sender root
    | none => db
  else db

/-- What both message paths do with an event. A failure to store the attachment root is
ignored. -/
def storeMessage (json : JsonReader P) (env : ClientEnv P) (convo : ConvoId P)
    (sender : UserName) (content : Event P) (receivedAt : NanoTimestamp) (db : ClientDb P) :
    ClientDb P × Except EntryError Unit :=
  if env.fails .connection then (db, .error .database)
  else
    let rooted := if env.fails .attachment then db else db.storeAttachment json sender content
    if env.fails .convo then (rooted, .error .database)
    else
      let (opened, convoId) := rooted.ensureConvoId convo env.now
      if env.fails .message then (opened, .error .database)
      else (opened.insertMessage convoId sender content receivedAt, .ok ())

/-- `process_mailbox_entry` behind the cursor. -/
def receiveDirect (json : JsonReader P) (env : ClientEnv P) (identity : Identity P)
    (entry : MailboxEntry P) (db : ClientDb P) : ClientDb P × Except EntryError Unit :=
  match openDirect identity entry.message with
  | .error err => (db, .error err)
  | .ok none => (db, .ok ())
  | .ok (some signed) =>
      match db.getUserDescriptor env signed.sender with
      | (db, .error err) => (db, .error err)
      | (db, .ok descriptor) =>
          match readDirect identity signed env.clock descriptor.rootCertHash with
          | .error err => (db, .error err)
          | .ok none => (db, .ok ())
          | .ok (some (convo, content)) =>
              db.storeMessage json env convo signed.sender content entry.receivedAt

/-- `process_mailbox_entry`. -/
def processMailboxEntry (json : JsonReader P) (env : ClientEnv P) (key : MailboxKey P)
    (entry : MailboxEntry P) (db : ClientDb P) : ClientDb P × Except EntryError Unit :=
  if env.fails .identity then (db, .error .database)
  else
    match env.identity with
    | none => (db, .error (.said "client identity not initialized"))
    | some identity =>
        if env.fails .cursor then (db, .error .database)
        else
          (db.updateMailboxAfter key entry.receivedAt).receiveDirect json env identity entry

/-- `process_group_rekey_entry`. -/
def processGroupRekeyEntry (env : ClientEnv P) (groupId : GroupId P) (group : GroupRecord P)
    (message : Blob) (db : ClientDb P) : ClientDb P × Except EntryError Unit :=
  if env.fails .identity then (db, .error .database)
  else
    match env.identity with
    | none => (db, .error (.said "client identity not initialized"))
    | some identity =>
        match openRekey identity message with
        | .error err => (db, .error err)
        | .ok signed =>
            if env.fails .connection then (db, .error .database)
            else
              match db.loadRoster env groupId group.descriptor.initAdmin with
              | (db, .error err) => (db, .error err)
              | (db, .ok ()) =>
                  if env.fails .member then (db, .error .database)
                  else
                    let admin :=
                      match db.groups.lookup groupId with
                      | some row => row.roster.senderAdmin signed.sender
                      | none => false
                    if !admin then (db, .ok ())
                    else
                      match senderDescriptor env signed.sender with
                      | .error err => (db, .error err)
                      | .ok descriptor =>
                          match readRekey groupId signed env.clock descriptor.rootCertHash with
                          | .error err => (db, .error err)
                          | .ok none => (db, .ok ())
                          | .ok (some newKey) =>
                              if env.fails .groupKey then (db, .error .database)
                              else
                                (db.updateGroup groupId fun row =>
                                  { row with
                                    groupKeyPrev := group.groupKeyCurrent
                                    groupKeyCurrent := newKey }, .ok ())

/-- `process_group_message_entry`. -/
def processGroupMessageEntry (json : JsonReader P) (env : ClientEnv P) (groupId : GroupId P)
    (group : GroupRecord P) (entry : MailboxEntry P) (db : ClientDb P) :
    ClientDb P × Except EntryError Unit :=
  if entry.message.kind = Blob.v1GroupRekey then
    db.processGroupRekeyEntry env groupId group entry.message
  else
    match openGroupMessage group entry.message with
    | .error err => (db, .error err)
    | .ok none => (db, .ok ())
    | .ok (some signed) =>
        match senderDescriptor env signed.sender with
        | .error err => (db, .error err)
        | .ok descriptor =>
            match readGroupEvent groupId signed env.clock descriptor.rootCertHash with
            | .error err => (db, .error err)
            | .ok none => (db, .ok ())
            | .ok (some (convo, content)) =>
                db.storeMessage json env convo signed.sender content entry.receivedAt

/-- The transaction of a management message: all of it is kept, or nothing. -/
def applyManagement (env : ClientEnv P) (groupId : GroupId P) (initAdmin : UserName)
    (sender : UserName) (manage : GroupManageMsg) (db : ClientDb P) :
    ClientDb P × Except EntryError Unit :=
  if env.fails .connection then (db, .error .database)
  else
    match db.loadRoster env groupId initAdmin with
    | (_, .error err) => (db, .error err)
    | (loaded, .ok ()) =>
        if env.fails .manage then (db, .error .database)
        else if env.fails .commit then (db, .error .database)
        else
          (loaded.updateGroup groupId fun row =>
            { row with roster := (row.roster.applyManageMessage sender manage).1 }, .ok ())

/-- `process_group_management_entry`. -/
def processGroupManagementEntry (json : JsonReader P) (env : ClientEnv P) (groupId : GroupId P)
    (group : GroupRecord P) (entry : MailboxEntry P) (db : ClientDb P) :
    ClientDb P × Except EntryError Unit :=
  match openManagement group.descriptor.managementKey entry.message with
  | .error err => (db, .error err)
  | .ok none => (db, .ok ())
  | .ok (some signed) =>
      match senderDescriptor env signed.sender with
      | .error err => (db, .error err)
      | .ok descriptor =>
          match readManagement json groupId signed env.clock descriptor.rootCertHash with
          | .error err => (db, .error err)
          | .ok none => (db, .ok ())
          | .ok (some manage) =>
              db.applyManagement env groupId group.descriptor.initAdmin signed.sender manage

end ClientDb

inductive GroupMailboxKind where
  | messages
  | management
deriving DecidableEq

/-- The mailbox of a group. -/
def GroupMailboxKind.mailbox (groupId : GroupId P) : GroupMailboxKind → MailboxId P
  | .messages => .groupMessages groupId
  | .management => .groupManagement groupId

/-- Where a group's mailbox is. -/
def GroupRecord.mailboxKey (group : GroupRecord P) (groupId : GroupId P)
    (kind : GroupMailboxKind) : MailboxKey P :=
  (group.serverName, kind.mailbox groupId)

namespace ClientDb

/-- What `group_recv_once` does with an entry behind the cursor. -/
def processGroupEntry (json : JsonReader P) (env : ClientEnv P) (groupId : GroupId P)
    (group : GroupRecord P) (kind : GroupMailboxKind) (entry : MailboxEntry P)
    (db : ClientDb P) : ClientDb P × Except EntryError Unit :=
  match kind with
  | .messages => db.processGroupMessageEntry json env groupId group entry
  | .management => db.processGroupManagementEntry json env groupId group entry

/-- One round of `group_recv_task`: the group's row and its cursors are read anew. -/
def groupRecvOnce (json : JsonReader P) (env : ClientEnv P) (groupId : GroupId P)
    (group : GroupRecord P) (kind : GroupMailboxKind) (entry : MailboxEntry P)
    (db : ClientDb P) : ClientDb P × Except EntryError Unit :=
  if env.fails .prepare then (db, .error .database)
  else
    let ready := (db.ensureMailboxState (group.mailboxKey groupId .messages) 0).ensureMailboxState
      (group.mailboxKey groupId .management) 0
    if env.fails .cursor then (ready, .error .database)
    else
      (ready.updateMailboxAfter (group.mailboxKey groupId kind) entry.receivedAt).processGroupEntry
        json env groupId group kind entry

end ClientDb
end Nullspace
