import Nullspace.Base.Bcs
import Mathlib.Logic.Function.Basic

/-!
# Cryptographic primitives

BLAKE3, Ed25519, X25519, XChaCha20 and XChaCha20-Poly1305 come from other crates. The
development takes them as one parameter, `Primitives`, and names what a result asks
of them. `Hash` is a type of its own rather than 32 bytes, so that collision freedom is
a statement some instance meets.
-/

namespace Nullspace

open Nullspace.Base

/-- A 32-byte secret of a symmetric cipher, written with its length. -/
structure AeadKey where
  bytes : FixedBytes 32
deriving DecidableEq

instance : Bcs AeadKey :=
  Bcs.refine (α := Bytes) (fun bytes => (FixedBytes.ofBytes? 32 bytes).map AeadKey.mk)
    (fun key => key.bytes.1) (by intro key; simp)

/-- What the program uses of the external cryptographic crates. -/
structure Primitives where
  Hash : Type
  SigningPublic : Type
  SigningSecret : Type
  Signature : Type
  DhPublic : Type
  DhSecret : Type
  [hashEq : DecidableEq Hash]
  [signingPublicEq : DecidableEq SigningPublic]
  [signatureEq : DecidableEq Signature]
  [dhPublicEq : DecidableEq DhPublic]
  [hashBcs : Bcs Hash]
  [signingPublicBcs : Bcs SigningPublic]
  [signatureBcs : Bcs Signature]
  [dhPublicBcs : Bcs DhPublic]
  /-- `Hash::digest`. -/
  digest : Bytes → Hash
  /-- `Hash::keyed_digest`. -/
  keyedDigest : Bytes → Bytes → Hash
  /-- `Hash::to_bytes`. -/
  hashBytes : Hash → Bytes
  /-- `Hash::from_bytes([0u8; 32])`. -/
  zeroHash : Hash
  publicKey : SigningSecret → SigningPublic
  sign : SigningSecret → Bytes → Signature
  verify : SigningPublic → Signature → Bytes → Bool
  dhPublicKey : DhSecret → DhPublic
  /-- The X25519 function, before the all-zero check. -/
  x25519 : DhSecret → DhPublic → FixedBytes 32
  /-- XChaCha20 keystream application. -/
  applyKeystream : FixedBytes 32 → FixedBytes 24 → Bytes → Bytes
  aeadEncrypt : AeadKey → FixedBytes 24 → Bytes → Bytes → Bytes
  aeadDecrypt : AeadKey → FixedBytes 24 → Bytes → Bytes → Option Bytes

attribute [instance] Primitives.hashEq Primitives.signingPublicEq Primitives.signatureEq
  Primitives.dhPublicEq Primitives.hashBcs Primitives.signingPublicBcs Primitives.signatureBcs
  Primitives.dhPublicBcs

namespace Primitives

variable (P : Primitives)

/-- BLAKE3 is collision free and never yields the all-zero hash. -/
structure CollisionFree : Prop where
  digest : Function.Injective P.digest
  neverZero : ∀ message, P.digest message ≠ P.zeroHash

/-- A signature verifies under the public key of the secret which made it. -/
def SignsCorrectly : Prop :=
  ∀ secret message, P.verify (P.publicKey secret) (P.sign secret message) message = true

/-- A signature verifies under no other key. -/
def SignsExclusively : Prop :=
  ∀ secret message other, P.verify other (P.sign secret message) message = true →
    other = P.publicKey secret

/-- `BcsHashExt::bcs_hash`. -/
def bcsHash {α : Type} [Bcs α] (value : α) : P.Hash := P.digest (Bcs.toBytes value)

/-- `DhSecret::diffie_hellman`: the all-zero shared secret of a low-order point is an error. -/
def diffieHellman (secret : P.DhSecret) (peer : P.DhPublic) : Option (FixedBytes 32) :=
  let shared := P.x25519 secret peer
  if shared.1 = List.replicate 32 0 then none else some shared

variable {P}

/-- Without collisions, values with the same hash are the same. -/
theorem CollisionFree.bcsHash_inj (free : P.CollisionFree) {α : Type} [Bcs α] {first second : α} :
    P.bcsHash first = P.bcsHash second ↔ first = second :=
  ⟨fun same => Bcs.toBytes_injective (free.digest same), congrArg P.bcsHash⟩

/-- Without collisions, nothing hashes to zero. -/
theorem CollisionFree.bcsHash_ne_zero (free : P.CollisionFree) {α : Type} [Bcs α] (value : α) :
    P.bcsHash value ≠ P.zeroHash :=
  free.neverZero (Bcs.toBytes value)

end Primitives

/-- Values which carry a signature over a serialized payload. -/
class Signable (P : outParam Primitives) (α : Type) where
  signedValue : α → Bytes
  signature : α → P.Signature

/-- `Signable::verify`. -/
def Signable.verify {P : Primitives} {α : Type} [Signable P α] (value : α)
    (signer : P.SigningPublic) : Bool :=
  P.verify signer (Signable.signature value) (Signable.signedValue value)

end Nullspace
