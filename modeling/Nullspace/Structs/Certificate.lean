import Nullspace.Structs.Basic

/-!
# Device certificates

`CertificateChain.verify` runs the two loops of the source: the first takes every
certificate of the root key out of the pending list, the second keeps passing over what
is left while some pass verifies a certificate under a signer trusted so far.
-/

namespace Nullspace

open Nullspace.Base

/-- The certificate of a device: its key and its capabilities, signed by the issuer. -/
structure DeviceCertificate (P : Primitives) where
  pk : P.SigningPublic
  expiry : Timestamp
  canIssue : Bool
  signature : P.Signature
deriving DecidableEq

/-- A chain of certificates that authenticates the device key of `this`. -/
structure CertificateChain (P : Primitives) where
  ancestors : List (DeviceCertificate P)
  this : DeviceCertificate P
deriving DecidableEq

variable {P : Primitives}

instance : Bcs (DeviceCertificate P) :=
  Bcs.iso
    (fun (pk, expiry, canIssue, signature) => DeviceCertificate.mk pk expiry canIssue signature)
    (fun cert => (cert.pk, cert.expiry, cert.canIssue, cert.signature)) fun _ => rfl

instance : Bcs (CertificateChain P) :=
  Bcs.iso (fun (ancestors, this) => CertificateChain.mk ancestors this)
    (fun chain => (chain.ancestors, chain.this)) fun _ => rfl

instance : Signable P (DeviceCertificate P) where
  signedValue cert := Bcs.toBytes (cert.pk, cert.expiry, cert.canIssue)
  signature cert := cert.signature

/-- `DeviceSecret::issue_certificate`: a certificate for another device key. -/
def issueCertificate (secret : P.SigningSecret) (subject : P.SigningPublic) (expiry : Timestamp)
    (canIssue : Bool) : DeviceCertificate P :=
  ⟨subject, expiry, canIssue, P.sign secret (Bcs.toBytes (subject, expiry, canIssue))⟩

/-- `DeviceSecret::self_signed`: a device's certificate for itself. -/
def selfSigned (secret : P.SigningSecret) (expiry : Timestamp) (canIssue : Bool) :
    DeviceCertificate P :=
  issueCertificate secret (P.publicKey secret) expiry canIssue

/-- Why a chain does not verify. -/
inductive ChainError where
  | invalidSignature
  | noTrustedRoot
  | unverifiableEntries
  | leafNotAuthenticated
deriving DecidableEq

def ChainError.message : ChainError → String
  | .invalidSignature => "signature verification failed"
  | .noTrustedRoot => "certificate chain does not include trusted root"
  | .unverifiableEntries => "certificate chain contains unverifiable entries"
  | .leafNotAuthenticated => "certificate chain does not authenticate leaf device"

namespace CertificateChain

/-- What the two loops of `verify` accumulate. -/
structure Progress (P : Primitives) where
  trustedSigners : List P.SigningPublic
  trustedRootFound : Bool
  thisVerified : Bool

/-- A verified certificate counts only while it is unexpired. -/
def Progress.accept (now : Timestamp) (this cert : DeviceCertificate P) (progress : Progress P) :
    Progress P :=
  if now < cert.expiry then
    { progress with
      trustedSigners :=
        if cert.canIssue then progress.trustedSigners ++ [cert.pk] else progress.trustedSigners
      thisVerified := progress.thisVerified || decide (cert = this) }
  else progress

/-- The first loop: take out the certificates of the trusted root key. -/
def takeRoots (now : Timestamp) (trustedPkHash : P.Hash) (this : DeviceCertificate P)
    (progress : Progress P) :
    List (DeviceCertificate P) → Except ChainError (Progress P × List (DeviceCertificate P))
  | [] => .ok (progress, [])
  | cert :: rest =>
      if P.bcsHash cert.pk = trustedPkHash then
        if Signable.verify cert cert.pk then
          let accepted := progress.accept now this cert
          takeRoots now trustedPkHash this
            { accepted with
              trustedRootFound := accepted.trustedRootFound || decide (now < cert.expiry) } rest
        else .error .invalidSignature
      else
        match takeRoots now trustedPkHash this progress rest with
        | .ok (final, pending) => .ok (final, cert :: pending)
        | .error err => .error err

/-- One pass of the second loop over the pending list, and whether it made progress. -/
def signerPass (now : Timestamp) (this : DeviceCertificate P) (progress : Progress P) :
    List (DeviceCertificate P) → Progress P × List (DeviceCertificate P) × Bool
  | [] => (progress, [], false)
  | cert :: rest =>
      if progress.trustedSigners.any fun pk => Signable.verify cert pk then
        let (final, pending, _) := signerPass now this (progress.accept now this cert) rest
        (final, pending, true)
      else
        let (final, pending, moved) := signerPass now this progress rest
        (final, cert :: pending, moved)

/-- The second loop. Every pass but the last shortens the pending list, so as many passes
as it has entries, and one more, are enough. -/
def signerRounds (now : Timestamp) (this : DeviceCertificate P) :
    Nat → Progress P → List (DeviceCertificate P) → Progress P × List (DeviceCertificate P)
  | 0, progress, pending => (progress, pending)
  | fuel + 1, progress, pending =>
      match signerPass now this progress pending with
      | (final, left, true) =>
          if left.isEmpty then (final, left) else signerRounds now this fuel final left
      | (final, left, false) => (final, left)

/-- `CertificateChain::verify` against a trusted root public key hash, at a time `now`. -/
def verify (chain : CertificateChain P) (now : Timestamp) (trustedPkHash : P.Hash) :
    Except ChainError Unit :=
  let certs := chain.ancestors ++ [chain.this]
  match takeRoots now trustedPkHash chain.this ⟨[], false, false⟩ certs with
  | .error err => .error err
  | .ok (progress, pending) =>
      if !progress.trustedRootFound then .error .noTrustedRoot
      else
        let (final, left) := signerRounds now chain.this (pending.length + 1) progress pending
        if !left.isEmpty then .error .unverifiableEntries
        else if !final.thisVerified then .error .leafNotAuthenticated
        else .ok ()

/-- The verdict alone. -/
def verifies (chain : CertificateChain P) (now : Timestamp) (trustedPkHash : P.Hash) : Bool :=
  match chain.verify now trustedPkHash with
  | .ok _ => true
  | .error _ => false

/-- The certificate which the chain authenticates. -/
def lastDevice (chain : CertificateChain P) : DeviceCertificate P := chain.this

end CertificateChain
end Nullspace
