import Nullspace.Structs.Server

/-!
# Events and their envelopes

An event is signed by a device and then encrypted: towards medium-term keys behind
per-recipient headers, or under a key which a group shares. Random choices of a sender
(the ephemeral secret, the message key, a nonce) are arguments.
-/

namespace Nullspace

open Nullspace.Base

variable (P : Primitives)

/-- The intended recipient of an event payload. -/
inductive Recipient where
  | user (username : UserName)
  | group (group : GroupId P)
deriving DecidableEq

/-- A decoded event payload. -/
structure Event where
  recipient : Recipient P
  sentAt : NanoTimestamp
  mime : String
  body : Bytes
deriving DecidableEq

/-- A group management message, sent in JSON format. -/
inductive GroupManageMsg where
  | inviteSent (username : UserName)
  | inviteAccepted
  | ban (username : UserName)
  | unban (username : UserName)
  | leave
  | addAdmin (username : UserName)
  | removeAdmin (username : UserName)
deriving DecidableEq

/-- What the clients read with `serde_json`. -/
structure JsonReader where
  attachment : Bytes → Option (Attachment P)
  groupManage : Bytes → Option GroupManageMsg

/-- A group descriptor. Describes a group as it exists on a particular server. -/
structure GroupDescriptor where
  nonce : P.Hash
  initAdmin : UserName
  createdAt : Timestamp
  server : ServerName
  managementKey : AeadKey
deriving DecidableEq

/-- A device-signed payload that authenticates the sender and body. -/
structure DeviceSigned where
  sender : UserName
  certChain : CertificateChain P
  body : Bytes
  signature : P.Signature
deriving DecidableEq

/-- A single recipient header for header encryption. -/
structure EncryptionHeader where
  receiverMpkShort : FixedBytes 2
  receiverKey : Bytes
deriving DecidableEq

/-- A header-encrypted payload with per-recipient headers. -/
structure HeaderEncrypted where
  senderEpk : P.DhPublic
  headers : List EncryptionHeader
  body : Bytes
deriving DecidableEq

/-- A device-signed payload under a group's key. -/
structure GroupMessage where
  nonce : FixedBytes 24
  ciphertext : Bytes
deriving DecidableEq

variable {P}

/-- The mime type of an attachment's root. -/
def Attachment.mimeType : String := "application/vnd.nullspace.v1.attachment"

/-- The mime type of a management message. -/
def GroupManageMsg.mimeType : String := "application/vnd.nullspace.v1.group_manage"

instance : Bcs (Recipient P) where
  put
    | .user username => 0 :: Bcs.put username
    | .group group => 1 :: Bcs.put group
  get
    | 0 :: rest => (Bcs.get rest).map fun (username, rest) => (.user username, rest)
    | 1 :: rest => (Bcs.get rest).map fun (group, rest) => (.group group, rest)
    | _ => none
  get_put value rest := by cases value <;> simp [Bcs.get_put]

instance : Bcs (Event P) :=
  Bcs.iso (fun (recipient, sentAt, mime, body) => Event.mk recipient sentAt mime body)
    (fun event => (event.recipient, event.sentAt, event.mime, event.body)) fun _ => rfl

instance : Bcs (GroupDescriptor P) :=
  Bcs.iso
    (fun (nonce, initAdmin, createdAt, server, managementKey) =>
      GroupDescriptor.mk nonce initAdmin createdAt server managementKey)
    (fun descriptor => (descriptor.nonce, descriptor.initAdmin, descriptor.createdAt,
      descriptor.server, descriptor.managementKey)) fun _ => rfl

instance : Bcs (DeviceSigned P) :=
  Bcs.iso
    (fun (sender, certChain, body, signature) => DeviceSigned.mk sender certChain body signature)
    (fun signed => (signed.sender, signed.certChain, signed.body, signed.signature)) fun _ => rfl

instance : Bcs EncryptionHeader :=
  Bcs.iso (fun (receiverMpkShort, receiverKey) => EncryptionHeader.mk receiverMpkShort receiverKey)
    (fun header => (header.receiverMpkShort, header.receiverKey)) fun _ => rfl

instance : Bcs (HeaderEncrypted P) :=
  Bcs.iso (fun (senderEpk, headers, body) => HeaderEncrypted.mk senderEpk headers body)
    (fun encrypted => (encrypted.senderEpk, encrypted.headers, encrypted.body)) fun _ => rfl

instance : Bcs GroupMessage :=
  Bcs.iso (fun (nonce, ciphertext) => GroupMessage.mk nonce ciphertext)
    (fun message => (message.nonce, message.ciphertext)) fun _ => rfl

instance : Signable P (DeviceSigned P) where
  signedValue signed := Bcs.toBytes (signed.sender, signed.certChain, signed.body)
  signature signed := signed.signature

/-- `GroupDescriptor::id`. -/
def GroupDescriptor.id (descriptor : GroupDescriptor P) : GroupId P := ⟨P.bcsHash descriptor⟩

inductive DeviceSignedError where
  | decode
  | verify
deriving DecidableEq

namespace DeviceSigned

/-- `DeviceSigned::sign_bytes`. -/
def signBytes (body : Bytes) (sender : UserName) (certChain : CertificateChain P)
    (senderDevice : P.SigningSecret) : DeviceSigned P :=
  ⟨sender, certChain, body, P.sign senderDevice (Bcs.toBytes (sender, certChain, body))⟩

/-- `DeviceSigned::sign_blob`. -/
def signBlob (message : Blob) (sender : UserName) (certChain : CertificateChain P)
    (senderDevice : P.SigningSecret) : DeviceSigned P :=
  signBytes (Bcs.toBytes message) sender certChain senderDevice

/-- The two checks of `verify_bytes`: the chain at a time, and the signature by its last device. -/
def authentic (signed : DeviceSigned P) (now : Timestamp) (senderRootHash : P.Hash) : Bool :=
  signed.certChain.verifies now senderRootHash &&
    Signable.verify signed signed.certChain.lastDevice.pk

/-- `DeviceSigned::verify_bytes`. -/
def verifyBytes (signed : DeviceSigned P) (now : Timestamp) (senderRootHash : P.Hash) :
    Except DeviceSignedError Bytes :=
  if signed.authentic now senderRootHash then .ok signed.body else .error .verify

/-- `DeviceSigned::verify_blob`. -/
def verifyBlob (signed : DeviceSigned P) (now : Timestamp) (senderRootHash : P.Hash) :
    Except DeviceSignedError Blob :=
  match signed.verifyBytes now senderRootHash with
  | .error err => .error err
  | .ok body =>
      match Bcs.fromBytes body with
      | none => .error .decode
      | some blob => .ok blob

end DeviceSigned

inductive HeaderEncryptionError where
  | decrypt
  | dh
  | noRecipients
deriving DecidableEq

/-- `[0u8; 24]`. -/
def zeroNonce : FixedBytes 24 := ⟨List.replicate 24 0, by simp⟩

/-- `mpk_short`: the first two bytes of the hash of a medium-term key. -/
def mpkShort (mpk : P.DhPublic) : FixedBytes 2 :=
  let hash := P.hashBytes (P.bcsHash mpk)
  ⟨[hash.getD 0 0, hash.getD 1 0], rfl⟩

/-- `header_aad`. -/
def headerAad (senderEpk : P.DhPublic) (headers : List EncryptionHeader) : Bytes :=
  Bcs.toBytes (senderEpk, headers)

namespace HeaderEncrypted

/-- The header which seals the message key for one recipient. -/
def sealHeader (senderEsk : P.DhSecret) (key : AeadKey) (recipientMpk : P.DhPublic) :
    Except HeaderEncryptionError EncryptionHeader :=
  match P.diffieHellman senderEsk recipientMpk with
  | none => .error .dh
  | some shared => .ok ⟨mpkShort recipientMpk, P.applyKeystream shared zeroNonce key.bytes.1⟩

/-- `HeaderEncrypted::encrypt_bytes`, with the random secret and key it draws. -/
def encryptBytes (senderEsk : P.DhSecret) (key : AeadKey) (plaintext : Bytes)
    (recipients : List P.DhPublic) : Except HeaderEncryptionError (HeaderEncrypted P) := do
  let headers ← recipients.mapM (sealHeader senderEsk key)
  if headers.isEmpty then .error .noRecipients
  else
    let senderEpk := P.dhPublicKey senderEsk
    .ok ⟨senderEpk, headers, P.aeadEncrypt key zeroNonce plaintext (headerAad senderEpk headers)⟩

/-- The first matching header whose key opens the body. -/
def openHeaders (encrypted : HeaderEncrypted P) (shared : FixedBytes 32)
    (headers : List EncryptionHeader) : Option Bytes :=
  headers.findSome? fun header =>
    match FixedBytes.ofBytes? 32 (P.applyKeystream shared zeroNonce header.receiverKey) with
    | none => none
    | some keyBytes =>
        P.aeadDecrypt ⟨keyBytes⟩ zeroNonce encrypted.body
          (headerAad encrypted.senderEpk encrypted.headers)

/-- `HeaderEncrypted::decrypt_bytes`. -/
def decryptBytes (encrypted : HeaderEncrypted P) (recipientMedium : P.DhSecret) :
    Except HeaderEncryptionError Bytes :=
  match P.diffieHellman recipientMedium encrypted.senderEpk with
  | none => .error .dh
  | some shared =>
      match encrypted.openHeaders shared (encrypted.headers.filter fun header =>
          decide (header.receiverMpkShort = mpkShort (P.dhPublicKey recipientMedium))) with
      | none => .error .decrypt
      | some plaintext => .ok plaintext

end HeaderEncrypted

inductive GroupMessageError where
  | decode
  | decrypt
deriving DecidableEq

namespace GroupMessage

/-- `GroupMessage::encrypt_message`, with the random nonce it draws. -/
def encryptMessage (nonce : FixedBytes 24) (message : Event P) (senderUsername : UserName)
    (senderChain : CertificateChain P) (senderDevice : P.SigningSecret) (key : AeadKey) :
    GroupMessage :=
  let blob : Blob := ⟨Blob.v1MessageContent, Bcs.toBytes message⟩
  let signed := DeviceSigned.signBlob blob senderUsername senderChain senderDevice
  ⟨nonce, P.aeadEncrypt key nonce (Bcs.toBytes signed) []⟩

/-- `GroupMessage::decrypt_message`. -/
def decryptMessage (message : GroupMessage) (key : AeadKey) :
    Except GroupMessageError (DeviceSigned P) :=
  match P.aeadDecrypt key message.nonce message.ciphertext [] with
  | none => .error .decrypt
  | some plaintext =>
      match Bcs.fromBytes plaintext with
      | none => .error .decode
      | some signed => .ok signed

end GroupMessage
end Nullspace
