import Nullspace.Structs.Directory
import Nullspace.Structs.E2ee
import Nullspace.Structs.Server

/-!
# The byte strings which a device key signs

A device signs certificates, payloads, medium-term keys, profiles and directory updates.
Only the profile goes through a keyed hash; the others are bare encodings, so that what
keeps two of them apart is their length and their first bytes. `CryptoFunctions` fixes the
sizes and encodings of hashes and keys, and leaves the functions of the cryptographic crates
open.
-/

namespace Nullspace

open Nullspace.Base

/-- A byte array which is written as a byte string, with its length. -/
structure SizedBytes (count : Nat) where
  bytes : FixedBytes count
deriving DecidableEq

instance (count : Nat) : Bcs (SizedBytes count) :=
  Bcs.refine (α := Bytes) (fun bytes => (FixedBytes.ofBytes? count bytes).map SizedBytes.mk)
    (fun array => array.bytes.1) (by intro array; simp)

/-- The functions of the cryptographic crates, at the sizes which `nullspace-crypt` uses. -/
structure CryptoFunctions where
  /-- The 32 bytes are a point, so that `VerificationKey::try_from` takes them. -/
  isPoint : FixedBytes 32 → Bool
  digest : Bytes → FixedBytes 32
  keyedDigest : Bytes → Bytes → FixedBytes 32
  publicKey : FixedBytes 32 → { key : SizedBytes 32 // isPoint key.bytes = true }
  sign : FixedBytes 32 → Bytes → FixedBytes 64
  verify : FixedBytes 32 → FixedBytes 64 → Bytes → Bool
  dhPublicKey : FixedBytes 32 → FixedBytes 32
  x25519 : FixedBytes 32 → FixedBytes 32 → FixedBytes 32
  applyKeystream : FixedBytes 32 → FixedBytes 24 → Bytes → Bytes
  aeadEncrypt : AeadKey → FixedBytes 24 → Bytes → Bytes → Bytes
  aeadDecrypt : AeadKey → FixedBytes 24 → Bytes → Bytes → Option Bytes

namespace CryptoFunctions

variable (functions : CryptoFunctions)

/-- `SigningPublic`: the bytes of a point. -/
abbrev PublicKey := { key : SizedBytes 32 // functions.isPoint key.bytes = true }

instance : Bcs functions.PublicKey :=
  Bcs.refine (α := SizedBytes 32)
    (fun key => if point : functions.isPoint key.bytes = true then some ⟨key, point⟩ else none)
    Subtype.val (by intro key; simp [key.2])

/-- The primitives with hashes, keys and signatures as `nullspace-crypt` encodes them. -/
@[reducible] def primitives : Primitives where
  Hash := SizedBytes 32
  SigningPublic := functions.PublicKey
  SigningSecret := FixedBytes 32
  Signature := SizedBytes 64
  DhPublic := SizedBytes 32
  DhSecret := FixedBytes 32
  digest message := ⟨functions.digest message⟩
  keyedDigest key message := ⟨functions.keyedDigest key message⟩
  hashBytes hash := hash.bytes.1
  zeroHash := ⟨⟨List.replicate 32 0, List.length_replicate⟩⟩
  publicKey := functions.publicKey
  sign secret message := ⟨functions.sign secret message⟩
  verify signer signature message := functions.verify signer.1.bytes signature.bytes message
  dhPublicKey secret := ⟨functions.dhPublicKey secret⟩
  x25519 secret peer := functions.x25519 secret peer.bytes
  applyKeystream := functions.applyKeystream
  aeadEncrypt := functions.aeadEncrypt
  aeadDecrypt := functions.aeadDecrypt

end CryptoFunctions

/-- What a device key signs. -/
inductive Signed (P : Primitives) where
  | certificate (cert : DeviceCertificate P)
  | payload (signed : DeviceSigned P)
  | mediumPk (key : SignedMediumPk P)
  | profile (signed : UserProfile P)
  | update (changed : DirectoryUpdate P)

inductive SignedKind where
  | certificate
  | payload
  | mediumPk
  | profile
  | update
deriving DecidableEq

namespace Signed

variable {P : Primitives}

def kind : Signed P → SignedKind
  | .certificate _ => .certificate
  | .payload _ => .payload
  | .mediumPk _ => .mediumPk
  | .profile _ => .profile
  | .update _ => .update

/-- The `signed_value` of each type. -/
def signedValue : Signed P → Bytes
  | .certificate cert => Signable.signedValue cert
  | .payload signed => Signable.signedValue signed
  | .mediumPk key => Signable.signedValue key
  | .profile signed => Signable.signedValue signed
  | .update changed => Signable.signedValue changed

end Signed

/-! ## Sizes and collisions -/

/-- A length below 128 is one byte. -/
theorem putUleb_small {number : Nat} (small : number < 128) :
    Bcs.putUleb number = [UInt8.ofNat number] := by
  rw [Bcs.putUleb, Bcs.putUlebAux, if_pos small]

theorem put_bytes (bytes : Bytes) : Bcs.put bytes = Bcs.putUleb bytes.length ++ bytes := by
  have singles : bytes.flatMap Bcs.put = bytes := List.flatMap_singleton' bytes
  exact congrArg (Bcs.putUleb bytes.length ++ ·) singles

theorem put_sized {count : Nat} (small : count < 128) (array : SizedBytes count) :
    Bcs.put array = UInt8.ofNat count :: array.bytes.1 := by
  have written : Bcs.put array = Bcs.put array.bytes.1 := rfl
  rw [written, put_bytes, array.bytes.2, putUleb_small small]
  rfl

theorem put_uint64_length (number : UInt64) : (Bcs.put number).length = 8 :=
  Bcs.leBytes_length 8 number.toNat

theorem put_bool_length (value : Bool) : (Bcs.put value).length = 1 := by
  cases value <;> rfl

/-- The characters of a name take one byte each. -/
theorem utf8Size_of_isNameChar {char : Char} (allowed : isNameChar char = true) :
    char.utf8Size = 1 := by
  have ascii : char.val.toNat ≤ 127 := by
    delta isNameChar Char.isAlphanum Char.isAlpha Char.isUpper Char.isLower Char.isDigit at allowed
    simp only [UInt32.le_iff_toNat_le, Bool.or_eq_true, Bool.and_eq_true, decide_eq_true_eq,
      beq_iff_eq] at allowed
    rcases allowed with ((⟨_, upper⟩ | ⟨_, lower⟩) | ⟨_, digit⟩) | rfl
    · exact Nat.le_trans upper (by decide)
    · exact Nat.le_trans lower (by decide)
    · exact Nat.le_trans digit (by decide)
    · decide
  rw [Char.utf8Size]
  exact if_pos (UInt32.le_iff_toNat_le.mpr ascii)

/-- The characters of a name take one byte each. -/
theorem utf8ByteSize_ofList_name {chars : List Char} (allowed : chars.all isNameChar = true) :
    (String.ofList chars).utf8ByteSize = chars.length := by
  induction chars with
  | nil => rfl
  | cons char chars ih =>
      rw [List.all_cons, Bool.and_eq_true] at allowed
      rw [String.ofList_cons, String.utf8ByteSize_append, String.utf8ByteSize_singleton,
        utf8Size_of_isNameChar allowed.1, ih allowed.2, List.length_cons, Nat.add_comm]

/-- A username takes at most sixteen bytes. -/
theorem UserName.utf8ByteSize_le (name : UserName) : name.str.utf8ByteSize ≤ 16 := by
  have valid := name.valid
  rw [matchesName] at valid
  split at valid
  · contradiction
  · rename_i first rest shape
    simp only [Bool.and_eq_true, beq_iff_eq, decide_eq_true_eq] at valid
    obtain ⟨⟨⟨rfl, _⟩, short⟩, allowed⟩ := valid
    have spelled : name.str = String.ofList ('@' :: rest) := by
      rw [← shape, String.ofList_toList]
    have sigil : ('@').utf8Size = 1 := rfl
    rw [spelled, String.ofList_cons, String.utf8ByteSize_append, String.utf8ByteSize_singleton,
      sigil, utf8ByteSize_ofList_name allowed]
    omega

/-- The encoding of a username starts with its size. -/
theorem put_userName (name : UserName) :
    Bcs.put name = UInt8.ofNat name.str.utf8ByteSize :: utf8 name.str := by
  have size : (utf8 name.str).length = name.str.utf8ByteSize := rfl
  have small : name.str.utf8ByteSize < 128 := by
    have bound := name.utf8ByteSize_le
    omega
  have written : Bcs.put name = Bcs.put (utf8 name.str) := rfl
  rw [written, put_bytes, size, putUleb_small small]
  rfl

namespace Signed

variable {functions : CryptoFunctions}

/-- A directory update reads like a key and the fields behind it: it carries the key's bytes
as its previous hash, and a blob whose encoding, behind the tag of its variant, is what the
fields encode to. -/
def Lookalike (changed : DirectoryUpdate functions.primitives) (key : SizedBytes 32)
    (fields : Bytes) : Prop :=
  changed.prevUpdateHash = key ∧
    ∃ blob, changed.updateType = .update blob ∧ 2 :: Bcs.toBytes blob = fields

/-- A directory update which reads like a medium-term key or a certificate. -/
def Confusable : Signed functions.primitives → Signed functions.primitives → Prop
  | .update changed, .mediumPk key | .mediumPk key, .update changed =>
      Lookalike changed key.mediumPk (Bcs.toBytes key.created)
  | .update changed, .certificate cert | .certificate cert, .update changed =>
      Lookalike changed cert.pk.1 (Bcs.toBytes (cert.expiry, cert.canIssue))
  | _, _ => False

/-- What is signed of a certificate begins with its key. -/
theorem signedValue_certificate (cert : DeviceCertificate functions.primitives) :
    (certificate cert).signedValue =
      32 :: (cert.pk.1.bytes.1 ++ Bcs.toBytes (cert.expiry, cert.canIssue)) := by
  have key : Bcs.put cert.pk = 32 :: cert.pk.1.bytes.1 := put_sized (by decide) cert.pk.1
  exact congrArg (· ++ Bcs.toBytes (cert.expiry, cert.canIssue)) key

/-- What is signed of a medium-term key begins with the key. -/
theorem signedValue_mediumPk (key : SignedMediumPk functions.primitives) :
    (mediumPk key).signedValue = 32 :: (key.mediumPk.bytes.1 ++ Bcs.toBytes key.created) :=
  congrArg (· ++ Bcs.toBytes key.created) (put_sized (by decide) key.mediumPk)

/-- What is signed of an update begins with the hash of the one before. -/
theorem signedValue_update (changed : DirectoryUpdate functions.primitives) :
    (update changed).signedValue =
      32 :: (changed.prevUpdateHash.bytes.1 ++ Bcs.toBytes changed.updateType) :=
  congrArg (· ++ Bcs.toBytes changed.updateType) (put_sized (by decide) changed.prevUpdateHash)

theorem certificate_fields_length (expiry : Timestamp) (canIssue : Bool) :
    (Bcs.toBytes (expiry, canIssue)).length = 9 := by
  have written : Bcs.toBytes (expiry, canIssue) = Bcs.put expiry ++ Bcs.put canIssue := rfl
  rw [written, List.length_append, put_uint64_length, put_bool_length]

theorem toBytes_uint64_length (number : UInt64) : (Bcs.toBytes number).length = 8 :=
  put_uint64_length number

/-- A payload starts with the size of its sender's name. -/
theorem signedValue_payload (signed : DeviceSigned functions.primitives) :
    ∃ size rest, size ≤ 16 ∧ (payload signed).signedValue = UInt8.ofNat size :: rest :=
  ⟨_, _, signed.sender.utf8ByteSize_le,
    congrArg (· ++ Bcs.toBytes (signed.certChain, signed.body)) (put_userName signed.sender)⟩

/-- Everything but a profile signs more than 32 bytes. -/
theorem lt_length_signedValue {signed : Signed functions.primitives}
    (other : signed.kind ≠ .profile) : 32 < signed.signedValue.length := by
  cases signed with
  | certificate cert =>
      rw [signedValue_certificate, List.length_cons, List.length_append, cert.pk.1.bytes.2]
      omega
  | mediumPk key =>
      rw [signedValue_mediumPk, List.length_cons, List.length_append, key.mediumPk.bytes.2]
      omega
  | update changed =>
      rw [signedValue_update, List.length_cons, List.length_append,
        changed.prevUpdateHash.bytes.2]
      omega
  | payload signed =>
      -- The certificate of the sender's device starts with its key.
      have written : (payload signed).signedValue =
          Bcs.put signed.sender ++ ((Bcs.put signed.certChain.ancestors ++
            (Bcs.put signed.certChain.this.pk ++ Bcs.put (signed.certChain.this.expiry,
              signed.certChain.this.canIssue, signed.certChain.this.signature))) ++
            Bcs.put signed.body) := rfl
      have key : Bcs.put signed.certChain.this.pk = 32 :: signed.certChain.this.pk.1.bytes.1 :=
        put_sized (by decide) signed.certChain.this.pk.1
      have size := signed.certChain.this.pk.1.bytes.2
      rw [written, put_userName, key]
      simp only [List.length_append, List.length_cons, size]
      omega
  | profile _ => exact absurd rfl other

/-- A profile signs a hash. -/
theorem length_signedValue_profile (signed : UserProfile functions.primitives) :
    (profile signed).signedValue.length = 32 :=
  SizedBytes.bytes _ |>.2

/-- An update encodes to a key and up to nine bytes of fields only when it reads like them. -/
theorem signedValue_update_eq_iff {changed : DirectoryUpdate functions.primitives}
    {key : SizedBytes 32} {fields : Bytes} (short : fields.length ≤ 9) :
    (update changed).signedValue = 32 :: (key.bytes.1 ++ fields) ↔
      Lookalike changed key fields := by
  rw [signedValue_update, List.cons.injEq, and_iff_right rfl]
  have sizes : changed.prevUpdateHash.bytes.1.length = key.bytes.1.length := by
    rw [changed.prevUpdateHash.bytes.2, key.bytes.2]
  constructor
  · intro same
    obtain ⟨hash, rest⟩ := List.append_inj same sizes
    refine ⟨congrArg SizedBytes.mk (Subtype.ext hash), ?_⟩
    have ownerTooLong : ∀ (tag : UInt8) (owner : functions.PublicKey),
        tag :: Bcs.put owner ≠ fields := by
      rintro tag owner rfl
      have written : Bcs.put owner = 32 :: owner.1.bytes.1 := put_sized (by decide) owner.1
      rw [written, List.length_cons, List.length_cons, owner.1.bytes.2] at short
      omega
    generalize changed.updateType = type at rest
    cases type with
    | addOwner owner => exact absurd rest (ownerTooLong 0 owner)
    | delOwner owner => exact absurd rest (ownerTooLong 1 owner)
    | update blob => exact ⟨blob, rfl, rest⟩
  · rintro ⟨rfl, blob, isBlob, rfl⟩
    rw [isBlob]
    rfl

/-- A blob whose encoding takes at most eight bytes has little in it. -/
theorem Lookalike.small {changed : DirectoryUpdate functions.primitives} {key : SizedBytes 32}
    {fields : Bytes} (looks : Lookalike changed key fields) (short : fields.length ≤ 9) :
    ∃ blob, changed.updateType = .update blob ∧
      blob.kind.utf8ByteSize + blob.inner.length ≤ 6 := by
  obtain ⟨_, blob, isBlob, rfl⟩ := looks
  refine ⟨blob, isBlob, ?_⟩
  have lengthWritten : ∀ number, 0 < (Bcs.putUleb number).length := by
    intro number
    rw [Bcs.putUleb, Bcs.putUlebAux]
    split <;> exact Nat.succ_pos _
  have written : Bcs.toBytes blob = Bcs.put (utf8 blob.kind) ++ Bcs.put blob.inner := rfl
  have size : (utf8 blob.kind).length = blob.kind.utf8ByteSize := rfl
  have kindLength := lengthWritten (utf8 blob.kind).length
  have innerLength := lengthWritten blob.inner.length
  rw [written, List.length_cons, List.length_append, put_bytes, put_bytes, List.length_append,
    List.length_append] at short
  omega

/-- A payload signs other bytes than a certificate, a medium-term key or an update. -/
theorem signedValue_payload_ne (signed : DeviceSigned functions.primitives) (rest : Bytes) :
    (payload signed).signedValue ≠ 32 :: rest := by
  obtain ⟨size, behind, bound, written⟩ := signedValue_payload signed
  rw [written]
  intro same
  have digit := congrArg UInt8.toNat (List.cons.inj same).1
  rw [UInt8.toNat_ofNat'] at digit
  have number : (32 : UInt8).toNat = 32 := rfl
  omega

/-- A certificate and a medium-term key differ in length when they are signed. -/
theorem signedValue_certificate_ne_mediumPk (cert : DeviceCertificate functions.primitives)
    (key : SignedMediumPk functions.primitives) :
    (certificate cert).signedValue ≠ (mediumPk key).signedValue := by
  intro same
  have lengths := congrArg List.length same
  rw [signedValue_certificate, signedValue_mediumPk, List.length_cons, List.length_cons,
    List.length_append, List.length_append, cert.pk.1.bytes.2, key.mediumPk.bytes.2,
    certificate_fields_length, toBytes_uint64_length] at lengths
  omega

/-- An update is signed like a medium-term key exactly when it looks like that key and its time of
creation. -/
theorem signedValue_update_eq_mediumPk_iff {changed : DirectoryUpdate functions.primitives}
    {key : SignedMediumPk functions.primitives} :
    (update changed).signedValue = (mediumPk key).signedValue ↔
      Lookalike changed key.mediumPk (Bcs.toBytes key.created) := by
  rw [signedValue_mediumPk]
  apply signedValue_update_eq_iff
  rw [toBytes_uint64_length]
  omega

/-- An update is signed like a certificate exactly when it looks like the certificate's fields. -/
theorem signedValue_update_eq_certificate_iff {changed : DirectoryUpdate functions.primitives}
    {cert : DeviceCertificate functions.primitives} :
    (update changed).signedValue = (certificate cert).signedValue ↔
      Lookalike changed cert.pk.1 (Bcs.toBytes (cert.expiry, cert.canIssue)) := by
  rw [signedValue_certificate]
  apply signedValue_update_eq_iff
  rw [certificate_fields_length]

/-- Signed values of different types coincide exactly when they are confusable. -/
theorem signedValue_eq_iff {first second : Signed functions.primitives}
    (different : first.kind ≠ second.kind) :
    first.signedValue = second.signedValue ↔ Confusable first second := by
  have byLength : ∀ {signed : UserProfile functions.primitives}
      {other : Signed functions.primitives}, other.kind ≠ .profile →
      (profile signed).signedValue ≠ other.signedValue := by
    intro signed other apart same
    have long := lt_length_signedValue apart
    rw [← same, length_signedValue_profile] at long
    omega
  cases first with
  | profile signed =>
      refine iff_of_false (byLength different.symm) ?_
      cases second <;> exact id
  | payload signed =>
      have apart := signedValue_payload_ne signed
      cases second with
      | payload _ => exact absurd rfl different
      | profile _ => exact iff_of_false (byLength different).symm id
      | certificate cert => exact iff_of_false (signedValue_certificate cert ▸ apart _) id
      | mediumPk key => exact iff_of_false (signedValue_mediumPk key ▸ apart _) id
      | update changed => exact iff_of_false (signedValue_update changed ▸ apart _) id
  | certificate cert =>
      cases second with
      | certificate _ => exact absurd rfl different
      | profile _ => exact iff_of_false (byLength different).symm id
      | payload signed =>
          exact iff_of_false (signedValue_certificate cert ▸ (signedValue_payload_ne signed _).symm) id
      | mediumPk key => exact iff_of_false (signedValue_certificate_ne_mediumPk cert key) id
      | update changed => exact eq_comm.trans signedValue_update_eq_certificate_iff
  | mediumPk key =>
      cases second with
      | mediumPk _ => exact absurd rfl different
      | profile _ => exact iff_of_false (byLength different).symm id
      | payload signed =>
          exact iff_of_false (signedValue_mediumPk key ▸ (signedValue_payload_ne signed _).symm) id
      | certificate cert =>
          exact iff_of_false (signedValue_certificate_ne_mediumPk cert key).symm id
      | update changed => exact eq_comm.trans signedValue_update_eq_mediumPk_iff
  | update changed =>
      cases second with
      | update _ => exact absurd rfl different
      | profile _ => exact iff_of_false (byLength different).symm id
      | payload signed =>
          exact iff_of_false (signedValue_update changed ▸ (signedValue_payload_ne signed _).symm) id
      | certificate cert => exact signedValue_update_eq_certificate_iff
      | mediumPk key => exact signedValue_update_eq_mediumPk_iff

/-- Only a directory update which brings a nearly empty blob can be confused. -/
theorem Confusable.small {first second : Signed functions.primitives}
    (confusable : Confusable first second) :
    ∃ changed blob, (first = .update changed ∨ second = .update changed) ∧
      changed.updateType = .update blob ∧ blob.kind.utf8ByteSize + blob.inner.length ≤ 6 := by
  have keyShort : ∀ number : UInt64, (Bcs.toBytes number).length ≤ 9 := by
    intro number
    rw [toBytes_uint64_length]
    omega
  have certShort : ∀ (expiry : Timestamp) (canIssue : Bool),
      (Bcs.toBytes (expiry, canIssue)).length ≤ 9 :=
    fun expiry canIssue => (certificate_fields_length expiry canIssue).le
  unfold Confusable at confusable
  split at confusable
  · obtain ⟨blob, small⟩ := confusable.small (keyShort _)
    exact ⟨_, blob, Or.inl rfl, small⟩
  · obtain ⟨blob, small⟩ := confusable.small (keyShort _)
    exact ⟨_, blob, Or.inr rfl, small⟩
  · obtain ⟨blob, small⟩ := confusable.small (certShort _ _)
    exact ⟨_, blob, Or.inl rfl, small⟩
  · obtain ⟨blob, small⟩ := confusable.small (certShort _ _)
    exact ⟨_, blob, Or.inr rfl, small⟩
  · exact confusable.elim

/-- Two values of different types which a device key signs are signed as different bytes
unless they are confusable; and then one of them is a directory update whose blob has at
most six bytes, kind and content together. -/
theorem signed_values_differ_iff (first second : Signed functions.primitives)
    (different : first.kind ≠ second.kind) :
    (first.signedValue ≠ second.signedValue ↔ ¬Confusable first second) ∧
      (Confusable first second → ∃ changed blob,
        (first = .update changed ∨ second = .update changed) ∧
          changed.updateType = .update blob ∧
          blob.kind.utf8ByteSize + blob.inner.length ≤ 6) :=
  ⟨not_congr (signedValue_eq_iff different), Confusable.small⟩

end Signed

/-- Primitives of the right sizes which do nothing. -/
def blankCrypto : CryptoFunctions where
  isPoint _ := true
  digest _ := ⟨List.replicate 32 0, List.length_replicate⟩
  keyedDigest _ _ := ⟨List.replicate 32 0, List.length_replicate⟩
  publicKey secret := ⟨⟨secret⟩, rfl⟩
  sign _ _ := ⟨List.replicate 64 0, List.length_replicate⟩
  verify _ _ _ := true
  dhPublicKey secret := secret
  x25519 secret _ := secret
  applyKeystream _ _ bytes := bytes
  aeadEncrypt _ _ plaintext _ := plaintext
  aeadDecrypt _ _ ciphertext _ := some ciphertext

theorem length_replicate_key (byte : UInt8) : (List.replicate 32 byte).length = 32 :=
  List.length_replicate

/-- 32 equal bytes. -/
def filled (byte : UInt8) : SizedBytes 32 :=
  ⟨⟨List.replicate 32 byte, length_replicate_key byte⟩⟩

/-- The signature of a value which is not signed yet. -/
def unsigned : SizedBytes 64 := ⟨⟨List.replicate 64 0, List.length_replicate⟩⟩

/-- A medium-term key made at a certain second. -/
def mediumPkExample : SignedMediumPk blankCrypto.primitives :=
  ⟨filled 7, UInt64.ofNat (Bcs.leValue [2, 0, 5, 1, 2, 3, 4, 5]), unsigned⟩

/-- An update which brings a blob without a kind and with five bytes. -/
def blobUpdateExample : DirectoryUpdate blankCrypto.primitives :=
  ⟨filled 7, .update ⟨"", [1, 2, 3, 4, 5]⟩, unsigned⟩

theorem mediumPk_signed_like_update :
    Signed.kind (.mediumPk mediumPkExample) ≠ Signed.kind (.update blobUpdateExample) ∧
      Signed.signedValue (.mediumPk mediumPkExample) =
        Signed.signedValue (.update blobUpdateExample) := by
  decide +kernel

theorem descriptor_update_apart :
    Signed.signedValue (.mediumPk mediumPkExample) ≠
      Signed.signedValue (P := blankCrypto.primitives)
        (.update ⟨filled 7, .update ⟨Blob.v1UserDescriptor, []⟩, unsigned⟩) := by
  have different : Signed.kind (.mediumPk mediumPkExample) ≠
      Signed.kind (P := blankCrypto.primitives)
        (.update ⟨filled 7, .update ⟨Blob.v1UserDescriptor, []⟩, unsigned⟩) := by
    decide
  refine (Signed.signed_values_differ_iff _ _ different).1.mpr ?_
  intro confusable
  obtain ⟨changed, blob, either, isBlob, small⟩ := confusable.small
  rcases either with impossible | same
  · cases impossible
  · cases same
    cases isBlob
    revert small
    decide

end Nullspace
