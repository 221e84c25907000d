import Nullspace.Crypt

/-!
# Names, timestamps, tokens and tagged blobs

The small wire types which the directory, the servers and the clients share.
-/

namespace Nullspace

open Nullspace.Base

/-- Seconds since the Unix epoch. -/
abbrev Timestamp := UInt64

/-- Nanoseconds since the Unix epoch. -/
abbrev NanoTimestamp := UInt64

/-- The value SQLite stores for a `u64` bound with `as i64`. -/
def asI64 (value : UInt64) : Int := value.toInt64.toInt

/-- The cast to a signed integer loses nothing. -/
theorem asI64_inj {first second : UInt64} : asI64 first = asI64 second ↔ first = second := by
  constructor
  · intro same
    have casts : first.toInt64 = second.toInt64 := Int64.toInt_inj.mp same
    exact congrArg Int64.toUInt64 casts
  · exact congrArg asI64

/-- A value below half of the range is kept by the cast to a signed integer. -/
theorem asI64_of_lt {value : UInt64} (small : value.toNat < 2 ^ 63) :
    asI64 value = value.toNat := by
  rw [asI64, Int64.toInt, UInt64.toInt64, Int64.toBitVec]
  dsimp only
  rw [BitVec.toInt_eq_toNat_of_lt]
  · rfl
  · show 2 * value.toNat < 2 ^ 64
    omega

/-- `[A-Za-z0-9_]`. -/
def isNameChar (char : Char) : Bool := char.isAlphanum || char == '_'

/-- A sigil followed by five to fifteen name characters. -/
def matchesName (sigil : Char) (name : String) : Bool :=
  match name.toList with
  | [] => false
  | first :: rest =>
      first == sigil && decide (5 ≤ rest.length) && decide (rest.length ≤ 15) &&
        rest.all isNameChar

/-- A username that matches the rules for usernames. -/
structure UserName where
  str : String
  valid : matchesName '@' str = true
deriving DecidableEq

/-- A server name that matches the rules for server names. -/
structure ServerName where
  str : String
  valid : matchesName '~' str = true
deriving DecidableEq

/-- Accept a string which matches the rules as it stands. -/
def UserName.ofString? (str : String) : Option UserName :=
  if valid : matchesName '@' str = true then some ⟨str, valid⟩ else none

def ServerName.ofString? (str : String) : Option ServerName :=
  if valid : matchesName '~' str = true then some ⟨str, valid⟩ else none

/-- `UserName::parse`, which also accepts the name without its sigil. -/
def UserName.parse (str : String) : Option UserName :=
  (UserName.ofString? str).orElse fun _ => UserName.ofString? ("@" ++ str)

def ServerName.parse (str : String) : Option ServerName :=
  (ServerName.ofString? str).orElse fun _ => ServerName.ofString? ("~" ++ str)

/-- A valid name is parsed from its text. -/
@[simp] theorem UserName.ofString?_str (name : UserName) : UserName.ofString? name.str = some name := by
  simp [UserName.ofString?, name.valid]

/-- A valid server name is parsed from its text. -/
@[simp] theorem ServerName.ofString?_str (name : ServerName) :
    ServerName.ofString? name.str = some name := by
  simp [ServerName.ofString?, name.valid]

instance : Bcs UserName := Bcs.refine UserName.ofString? UserName.str UserName.ofString?_str

instance : Bcs ServerName := Bcs.refine ServerName.ofString? ServerName.str ServerName.ofString?_str

/-- An opaque 20-byte authentication token, written with its length. -/
structure AuthToken where
  bytes : FixedBytes 20
deriving DecidableEq

/-- The all-zero token, whose ACL entry applies to every token without one. -/
def AuthToken.anonymous : AuthToken := ⟨⟨List.replicate 20 0, by simp⟩⟩

instance : Bcs AuthToken :=
  Bcs.refine (α := Bytes) (fun bytes => (FixedBytes.ofBytes? 20 bytes).map AuthToken.mk)
    (fun token => token.bytes.1) (by intro token; simp)

/-- A generic tagged blob. -/
structure Blob where
  kind : String
  inner : Bytes
deriving DecidableEq

namespace Blob

instance : Bcs Blob :=
  Bcs.iso (fun (kind, inner) => Blob.mk kind inner) (fun blob => (blob.kind, blob.inner))
    fun _ => rfl

def v1UserDescriptor : String := "v1.user_descriptor"
def v1ServerDescriptor : String := "v1.server_descriptor"
def v1MessageContent : String := "v1.message_content"
def v1DirectMessage : String := "v1.direct_message"
def v1GroupMessage : String := "v1.group_message"
def v1GroupRekey : String := "v1.group_rekey"

end Blob

variable (P : Primitives)

/-- What the directory holds for a username. -/
structure UserDescriptor where
  serverName : ServerName
  rootCertHash : P.Hash
deriving DecidableEq

instance : Bcs (UserDescriptor P) :=
  Bcs.iso (fun (serverName, rootCertHash) => UserDescriptor.mk serverName rootCertHash)
    (fun descriptor => (descriptor.serverName, descriptor.rootCertHash)) fun _ => rfl

/-- The identifier of a group: the hash of its descriptor. -/
structure GroupId where
  hash : P.Hash
deriving DecidableEq

instance : Bcs (GroupId P) := Bcs.iso GroupId.mk GroupId.hash fun _ => rfl

/-- A mailbox identifier at a server, wrapping a hash. -/
structure MailboxId where
  hash : P.Hash
deriving DecidableEq

variable {P}

/-- The UTF-8 bytes of a domain key. -/
def utf8 (text : String) : Bytes := text.toUTF8.data.toList

/-- Texts with the same UTF-8 bytes are the same. -/
theorem utf8_injective : Function.Injective utf8 := by
  intro first second same
  have bytes : first.toUTF8 = second.toUTF8 := ByteArray.ext (Array.toList_inj.mp same)
  exact String.toByteArray_inj.mp bytes

namespace MailboxId

/-- The mailbox for direct messages to a user. -/
def direct (username : UserName) : MailboxId P :=
  ⟨P.keyedDigest (utf8 "direct-mailbox") (utf8 username.str)⟩

def groupMessages (group : GroupId P) : MailboxId P :=
  ⟨P.keyedDigest (utf8 "group-messages") (P.hashBytes group.hash)⟩

def groupManagement (group : GroupId P) : MailboxId P :=
  ⟨P.keyedDigest (utf8 "group-management") (P.hashBytes group.hash)⟩

end MailboxId
end Nullspace
