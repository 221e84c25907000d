import Nullspace.Client.DeviceRows
import Nullspace.Client.Rekey

/-!
# The send loop

`send_loop_once` takes the oldest pending row, tries to send it up to eight times, and records
what came of it. A direct message is sent twice, to the peer and to the user's own mailbox,
and each try begins with the peer. A request may reach the server while its answer is lost,
at any later time; a crash leaves nothing but the database and the requests on their way.

Beside the device which sends, the machine has another device of the user and one of the
recipient.
-/

namespace Nullspace

open Nullspace.Base

variable {P : Primitives}

/-- The event of a row. -/
def ConvoMessage.content (row : ConvoMessage) (convo : ConvoId P) : Event P :=
  ⟨convo.recipient, row.sentAt, row.mime, row.body⟩

/-- What an attempt draws and looks up besides the device's own database. -/
structure SealInput (P : Primitives) where
  /-- The result of `recipients_from_peer`. -/
  recipients : List P.DhPublic
  senderEsk : P.DhSecret
  key : AeadKey
  nonce : FixedBytes 24
  /-- What the server notes about who sends. -/
  senderAuthTokenHash : Option P.Hash

/-- An event under the signature of the device. -/
def Identity.signContent (identity : Identity P) (content : Event P) : DeviceSigned P :=
  .signBlob ⟨Blob.v1MessageContent, Bcs.toBytes content⟩ identity.username identity.certChain
    identity.deviceSecret

/-- The message of `send_dm_once`. -/
def Identity.sealDirect (identity : Identity P) (input : SealInput P) (content : Event P) :
    Option Blob :=
  match HeaderEncrypted.encryptBytes input.senderEsk input.key
      (Bcs.toBytes (identity.signContent content)) input.recipients with
  | .error _ => none
  | .ok encrypted => some ⟨Blob.v1DirectMessage, Bcs.toBytes encrypted⟩

/-- The message of `send_group_message`. -/
def Identity.sealGroup (identity : Identity P) (input : SealInput P) (group : GroupRecord P)
    (content : Event P) : Blob :=
  ⟨Blob.v1GroupMessage, Bcs.toBytes (GroupMessage.encryptMessage input.nonce content
    identity.username identity.certChain identity.deviceSecret group.groupKeyCurrent)⟩

/-- The message of one copy of a row, unless its group is unknown or encryption fails. -/
def ClientDb.sealCopy (db : ClientDb P) (identity : Identity P) (input : SealInput P)
    (row : ConvoMessage) (convo : ConvoId P) : Option Blob :=
  match convo with
  | .direct _ => identity.sealDirect input (row.content convo)
  | .group groupId =>
      (db.groups.lookup groupId).map fun group =>
        identity.sealGroup input group (row.content convo)

/-- A message to another user has a second copy, for the user's own devices. -/
def ConvoId.hasSelfCopy (identity : Identity P) : ConvoId P → Bool
  | .direct peer => decide (identity.username ≠ peer)
  | .group _ => false

/-- A copy of a row as a request to a mailbox. -/
structure MessageCopy (P : Primitives) where
  rowId : Nat
  convo : ConvoId P
  /-- It is the second copy. -/
  toSelf : Bool
  /-- What was sealed. -/
  event : ShownEvent
  entry : MailboxEntry P

section

variable {identity reader : Identity P} {input : SealInput P} {content : Event P}
  {env : ClientEnv P} {descriptor : UserDescriptor P} {message : Blob}

/-- What a device signs is read as it was written. -/
theorem readContent_signContent (signs : P.SignsCorrectly) {clock : Timestamp} {root : P.Hash}
    (chain : identity.certChain.verifies clock root = true)
    (device : identity.certChain.lastDevice.pk = P.publicKey identity.deviceSecret)
    (refusal : String) :
    readContent (identity.signContent content) clock root refusal = .ok (some content) := by
  have verified : Signable.verify (identity.signContent content)
      identity.certChain.lastDevice.pk = true := by
    rw [device]
    exact signs identity.deviceSecret _
  have authentic : (identity.signContent content).authentic clock root = true := by
    rw [DeviceSigned.authentic, Bool.and_eq_true]
    exact ⟨chain, verified⟩
  have body : (identity.signContent content).body =
      Bcs.toBytes (⟨Blob.v1MessageContent, Bcs.toBytes content⟩ : Blob) := rfl
  simp only [readContent, DeviceSigned.verifyBlob, DeviceSigned.verifyBytes, authentic, if_true,
    body, Bcs.fromBytes_toBytes, ne_eq, not_true_eq_false, if_false]

/-- A device opens a message which was sealed for one of its medium-term keys. -/
theorem openDirect_sealDirect (sealing : P.Sealing) {secret : P.DhSecret}
    (made : identity.sealDirect input content = some message)
    (own : secret = reader.mediumSkCurrent ∨ secret = reader.mediumSkPrev)
    (listed : P.dhPublicKey secret ∈ input.recipients) :
    openDirect reader message = .ok (some (identity.signContent content)) := by
  rw [Identity.sealDirect] at made
  split at made
  · cases made
  · rename_i encrypted encrypts
    cases made
    obtain ⟨_, contributes, rfl⟩ := HeaderEncrypted.encryptBytes_eq_ok.mp encrypts
    have opened : reader.openHeader (HeaderEncrypted.sealed input.senderEsk input.key
        (Bcs.toBytes (identity.signContent content)) input.recipients) =
          .ok (Bcs.toBytes (identity.signContent content)) :=
      Identity.openHeader_sealed sealing own listed (contributes _ listed)
    simp only [openDirect, ne_eq, not_true_eq_false, if_false, Bcs.fromBytes_toBytes, opened]

/-- A message to the user of a device is in the conversation with its sender. -/
theorem directPeer_content (reader : Identity P) (sender : UserName) (row : ConvoMessage) :
    directPeer reader sender (row.content (.direct reader.username)) = some (.direct sender) := by
  simp only [directPeer, ConvoMessage.content, ConvoId.recipient, ne_eq, not_true_eq_false,
    false_and, if_false]
  split
  · rename_i own
    rw [own]
  · rfl

/-- A copy brings its event to each device which it is sealed for, when nothing fails. -/
theorem directEvent_sealed (sealing : P.Sealing) (signs : P.SignsCorrectly) {secret : P.DhSecret}
    (made : identity.sealDirect input content = some message)
    (own : secret = reader.mediumSkCurrent ∨ secret = reader.mediumSkPrev)
    (listed : P.dhPublicKey secret ∈ input.recipients)
    (reads : env.identity = some reader) (works : ∀ point, env.fails point = false)
    {db : ClientDb P} (known : db.descriptorFor env identity.username = some descriptor)
    (chain : identity.certChain.verifies env.clock descriptor.rootCertHash = true)
    (device : identity.certChain.lastDevice.pk = P.publicKey identity.deviceSecret)
    (receivedAt : NanoTimestamp) (hash : Option P.Hash) :
    db.directEvent env ⟨message, receivedAt, hash⟩ =
      (directPeer reader identity.username content).map fun convo =>
        (convo, content.shown identity.username) := by
  have sender : (identity.signContent content).sender = identity.username := rfl
  have write : db.directWrite env reader ⟨message, receivedAt, hash⟩ =
      (directPeer reader identity.username content).map fun convo =>
        (convo, identity.username, content) := by
    simp only [ClientDb.directWrite, openDirect_sealDirect sealing made own listed, sender,
      known, readDirect, readContent_signContent signs chain device]
    cases directPeer reader identity.username content <;> rfl
  have looks : db.lookupFails env identity.username = false := by
    simp only [ClientDb.lookupFails, works, Bool.or_self, Bool.and_false]
  have stores : ClientDb.storeFails env = false := by
    simp only [ClientDb.storeFails, works, Bool.or_self]
  simp only [ClientDb.directEvent, reads, works, Bool.or_self, write]
  cases directPeer reader identity.username content with
  | none => rfl
  | some convo => simp [looks, stores]

/-- A copy brings its event to each member which has the key. -/
theorem groupEvent_sealed (sealing : P.Sealing) (signs : P.SignsCorrectly)
    {groupId : GroupId P} (recipient : content.recipient = .group groupId)
    {group row : GroupRecord P} (sameKey : row.groupKeyCurrent = group.groupKeyCurrent)
    (works : ∀ point, env.fails point = false)
    (known : env.descriptor identity.username = some descriptor)
    (chain : identity.certChain.verifies env.clock descriptor.rootCertHash = true)
    (device : identity.certChain.lastDevice.pk = P.publicKey identity.deviceSecret)
    (receivedAt : NanoTimestamp) (hash : Option P.Hash) :
    ClientDb.groupEvent env groupId row
        ⟨identity.sealGroup input group content, receivedAt, hash⟩ =
      some (.group groupId, content.shown identity.username) := by
  have sender : (identity.signContent content).sender = identity.username := rfl
  have opened : openGroupMessage row (identity.sealGroup input group content) =
      .ok (some (identity.signContent content)) := by
    simp only [openGroupMessage, Identity.sealGroup, ne_eq, not_true_eq_false, if_false,
      Bcs.fromBytes_toBytes, GroupMessage.decryptMessage, GroupMessage.encryptMessage, sameKey,
      sealing.opens]
    rfl
  have noRekey : (identity.sealGroup input group content).kind ≠ Blob.v1GroupRekey := by
    have kinds : Blob.v1GroupMessage ≠ Blob.v1GroupRekey := by decide
    exact kinds
  have write : ClientDb.groupWrite env groupId row
      ⟨identity.sealGroup input group content, receivedAt, hash⟩ =
        some (.group groupId, identity.username, content) := by
    simp only [ClientDb.groupWrite, opened, sender, known, readGroupEvent,
      readContent_signContent signs chain device, recipient, ne_eq, not_true_eq_false, if_false]
  have stores : ClientDb.storeFails env = false := by
    simp only [ClientDb.storeFails, works, Bool.or_self]
  simp only [ClientDb.groupEvent, noRekey, if_false, write, works, stores, Bool.or_self,
    Bool.false_eq_true]

end

/-- Where `retry_backoff` is. -/
inductive SendPhase where
  /-- `send_message` begins, after some failed attempts. -/
  | first (attempts : Nat)
  | second (attempts : Nat)
  | sent (receivedAt : NanoTimestamp)
  | failed
deriving DecidableEq

/-- An attempt has failed. -/
def SendPhase.retry (attempts : Nat) : SendPhase :=
  if attempts < 7 then .first (attempts + 1) else .failed

/-- The pending message which the loop holds. -/
structure Sending (P : Primitives) where
  row : ConvoMessage
  convo : ConvoId P
  phase : SendPhase

/-- How a request ends for the sender. -/
inductive SendOutcome where
  | refused
  /-- The server may process it later, at a time by its clock. -/
  | unanswered (receivedAt : NanoTimestamp)
  | answered (receivedAt : NanoTimestamp)

inductive Device where
  | sender
  | own
  | peer
deriving DecidableEq

/-- Whose device it is. -/
def Device.username (identity : Identity P) (peer : UserName) : Device → UserName
  | .sender | .own => identity.username
  | .peer => peer

structure SendRun (P : Primitives) where
  devices : Device → ClientDb P
  sending : Option (Sending P)
  inFlight : List (MessageCopy P)
  posted : List (MessageCopy P)
  /-- What the copies have brought which a device has processed. -/
  received : Device → List (ConvoId P × ShownEvent)

inductive SendStep (P : Primitives) where
  | pick
  /-- The next copy of the current attempt is sent. -/
  | attempt (input : SealInput P) (outcome : SendOutcome)
  /-- The server processes a request whose answer nobody waits for. -/
  | land (position : Nat)
  | record (now : NanoTimestamp) (err : String) (fails : Bool)
  /-- A crash, or an error which ends `send_loop_once`. -/
  | restart
  | read (device : Device) (position : Nat) (reading : EntryReading P)
  | aside (device : Device) (step : DeviceStep P)

namespace SendRun

variable (json : JsonReader P) (identity : Identity P)

def start (devices : Device → ClientDb P) : SendRun P := ⟨devices, none, [], [], fun _ => []⟩

/-- A request of the sender, and how it ends. -/
def request (run : SendRun P) (sending : Sending P) (toSelf : Bool) (attempts : Nat)
    (input : SealInput P) (next : NanoTimestamp → SendPhase) : SendOutcome → SendRun P
  | .refused => { run with sending := some { sending with phase := .retry attempts } }
  | .unanswered receivedAt =>
      match (run.devices .sender).sealCopy identity input sending.row sending.convo with
      | none => { run with sending := some { sending with phase := .retry attempts } }
      | some message =>
          { run with
            sending := some { sending with phase := .retry attempts }
            inFlight := run.inFlight ++
              [⟨sending.row.id, sending.convo, toSelf,
                (sending.row.content sending.convo).shown identity.username,
                ⟨message, receivedAt, input.senderAuthTokenHash⟩⟩] }
  | .answered receivedAt =>
      match (run.devices .sender).sealCopy identity input sending.row sending.convo with
      | none => { run with sending := some { sending with phase := .retry attempts } }
      | some message =>
          { run with
            sending := some { sending with phase := next receivedAt }
            posted := run.posted ++
              [⟨sending.row.id, sending.convo, toSelf,
                (sending.row.content sending.convo).shown identity.username,
                ⟨message, receivedAt, input.senderAuthTokenHash⟩⟩] }

/-- The database of one device is replaced. -/
def setDevice (run : SendRun P) (device : Device) (db : ClientDb P) : SendRun P :=
  { run with devices := Function.update run.devices device db }

@[simp] theorem setDevice_same (run : SendRun P) (device : Device) (db : ClientDb P) :
    (run.setDevice device db).devices device = db := by
  simp [setDevice]

theorem setDevice_of_ne {device other : Device} (apart : other ≠ device) (run : SendRun P)
    (db : ClientDb P) : (run.setDevice device db).devices other = run.devices other := by
  simp [setDevice, apart]

def machine (peer : UserName) : Machine (SendRun P) (SendStep P) where
  step run
    | .pick =>
        match run.sending with
        | some _ => none
        | none =>
            (run.devices .sender).nextPendingMessage.map fun (row, convo) =>
              { run with sending := some ⟨row, convo, .first 0⟩ }
    | .attempt input outcome =>
        match run.sending with
        | none => none
        | some sending =>
            match sending.phase with
            | .first attempts =>
                some (run.request identity sending false attempts input (fun receivedAt =>
                  if sending.convo.hasSelfCopy identity then .second attempts
                  else .sent receivedAt) outcome)
            | .second attempts =>
                some (run.request identity sending true attempts input .sent outcome)
            | .sent _ | .failed => none
    | .land position =>
        match run.inFlight[position]? with
        | none => none
        | some copy =>
            some { run with
              inFlight := run.inFlight.eraseIdx position
              posted := run.posted ++ [copy] }
    | .record now err fails =>
        match run.sending with
        | none => none
        | some sending =>
            match sending.phase with
            | .sent receivedAt =>
                if fails then some { run with sending := none }
                else
                  some { run.setDevice .sender
                    ((run.devices .sender).markMessageSent sending.row.id receivedAt) with
                    sending := none }
            | .failed =>
                if fails then some { run with sending := none }
                else
                  some { run.setDevice .sender
                    ((run.devices .sender).markMessageFailed sending.row.id err now) with
                    sending := none }
            | .first _ | .second _ => none
    | .restart => some { run with sending := none }
    | .read device position reading =>
        match run.posted[position]? with
        | none => none
        | some copy =>
            let (db, event) := (reading.event copy.entry).process json (run.devices device)
            some { run.setDevice device db with
              received := Function.update run.received device
                (run.received device ++ event.toList) }
    | .aside device step =>
        some (run.setDevice device
          (step.run json (device.username identity peer) (run.devices device)))

end SendRun
end Nullspace
