import Nullspace.Structs.Certificate

/-!
# Server wire types

What clients and servers exchange about mailboxes, devices, profiles and fragments.
-/

namespace Nullspace

open Nullspace.Base

/-- The rights which an ACL entry grants. -/
structure AclRights where
  canEditAcl : Bool
  canSend : Bool
  canRecv : Bool
deriving DecidableEq

variable (P : Primitives)

/-- An ACL entry for a mailbox. -/
structure MailboxAcl where
  tokenHash : P.Hash
  rights : AclRights
deriving DecidableEq

/-- An entry of a mailbox, with the metadata which the server adds. -/
structure MailboxEntry where
  message : Blob
  receivedAt : NanoTimestamp
  senderAuthTokenHash : Option P.Hash
deriving DecidableEq

structure MailboxRecvArgs where
  auth : AuthToken
  mailbox : MailboxId P
  after : NanoTimestamp
deriving DecidableEq

/-- A medium-term key of a device, signed by its device key. -/
structure SignedMediumPk where
  mediumPk : P.DhPublic
  created : Timestamp
  signature : P.Signature
deriving DecidableEq

/-- The root of a tree of encrypted fragments. -/
structure Attachment where
  filename : String
  mime : String
  children : List (P.Hash × UInt64)
  contentKey : AeadKey
deriving DecidableEq

/-- A fragment: pointers to other fragments, or encrypted data. -/
inductive Fragment where
  | node (children : List (P.Hash × UInt64))
  | leaf (nonce : FixedBytes 24) (data : Bytes)
deriving DecidableEq

/-- A signed user profile. -/
structure UserProfile where
  displayName : Option String
  avatar : Option (Attachment P)
  created : Timestamp
  signature : P.Signature
deriving DecidableEq

variable {P}

inductive ServerRpcError where
  | accessDenied
  | retryLater
deriving DecidableEq

def ServerRpcError.message : ServerRpcError → String
  | .accessDenied => "access denied"
  | .retryLater => "rate limited, retry later"

inductive ProxyError where
  | notSupported
  | upstream (reason : String)
deriving DecidableEq

instance : Bcs (Attachment P) :=
  Bcs.iso
    (fun (filename, mime, children, contentKey) => Attachment.mk filename mime children contentKey)
    (fun root => (root.filename, root.mime, root.children, root.contentKey)) fun _ => rfl

/-- The nonce of a leaf is written with its length. -/
instance : Bcs (Fragment P) where
  put
    | .node children => 0 :: Bcs.put children
    | .leaf nonce data => 1 :: Bcs.put (nonce.1, data)
  get
    | 0 :: rest => (Bcs.get rest).map fun (children, rest) => (.node children, rest)
    | 1 :: rest =>
        match Bcs.get (α := Bytes × Bytes) rest with
        | none => none
        | some ((nonce, data), rest) =>
            (FixedBytes.ofBytes? 24 nonce).map fun nonce => (.leaf nonce data, rest)
    | _ => none
  get_put value rest := by cases value <;> simp [Bcs.get_put]

instance : Signable P (SignedMediumPk P) where
  signedValue key := Bcs.toBytes (key.mediumPk, key.created)
  signature key := key.signature

/-- A profile is signed through a keyed hash of its fields. -/
instance : Signable P (UserProfile P) where
  signedValue profile :=
    P.hashBytes (P.keyedDigest (utf8 "user_profile")
      (Bcs.toBytes (profile.displayName, profile.avatar, profile.created)))
  signature profile := profile.signature

end Nullspace
