import Nullspace.Structs.Trust
import Nullspace.Symbolic

/-!
# Expired ancestors of a certificate chain

An expired certificate adds no trusted signer, so the trusted signers of a chain are those
of its unexpired certificates. `verify` still asks for the signature of an expired
ancestor: one which no trusted signer made stays pending and fails the chain, although
deleting it would leave a chain which verifies.
-/

namespace Nullspace

open Nullspace.Base

variable {P : Primitives}

namespace CertificateChain

/-- The chain without the ancestors which are expired at a time. -/
def dropExpired (chain : CertificateChain P) (now : Timestamp) : CertificateChain P :=
  { chain with ancestors := chain.ancestors.filter fun cert => now < cert.expiry }

/-- The signature which `verify` asks of a listed certificate, whatever its expiry. -/
def Endorsed (now : Timestamp) (trustedPkHash : P.Hash) (certs : List (DeviceCertificate P))
    (cert : DeviceCertificate P) : Prop :=
  if P.bcsHash cert.pk = trustedPkHash then Signable.verify cert cert.pk = true
  else SignedByTrusted now trustedPkHash certs cert

/-- The signatures of all expired ancestors are such as `verify` asks for. -/
def ExpiredEndorsed (chain : CertificateChain P) (now : Timestamp) (trustedPkHash : P.Hash) :
    Prop :=
  ∀ cert ∈ chain.ancestors, ¬now < cert.expiry →
    Endorsed now trustedPkHash (chain.dropExpired now).certs cert

variable {now : Timestamp} {trustedPkHash : P.Hash}

/-- Only unexpired certificates make trusted signers. -/
theorem TrustedSigner.of_unexpired {certs kept : List (DeviceCertificate P)}
    (keeps : ∀ cert ∈ certs, now < cert.expiry → cert ∈ kept) {signer : P.SigningPublic}
    (trusted : TrustedSigner now trustedPkHash certs signer) :
    TrustedSigner now trustedPkHash kept signer := by
  induction trusted with
  | root listed trusted selfSigned issues =>
      exact .root (keeps _ listed issues.1) trusted selfSigned issues
  | issued listed _ signed issues ih => exact .issued (keeps _ listed issues.1) ih signed issues

/-- Trust in a certificate needs no expired certificate. -/
theorem SignedByTrusted.of_unexpired {certs kept : List (DeviceCertificate P)}
    (keeps : ∀ cert ∈ certs, now < cert.expiry → cert ∈ kept) {cert : DeviceCertificate P}
    (signed : SignedByTrusted now trustedPkHash certs cert) :
    SignedByTrusted now trustedPkHash kept cert := by
  obtain ⟨signer, trusted, verifies⟩ := signed
  exact ⟨signer, trusted.of_unexpired keeps, verifies⟩

/-- A chain consists of its ancestors and its own certificate. -/
theorem mem_certs {chain : CertificateChain P} {cert : DeviceCertificate P} :
    cert ∈ chain.certs ↔ cert ∈ chain.ancestors ∨ cert = chain.this := by
  rw [certs, List.mem_append, List.mem_singleton]

/-- What is left of a chain are its unexpired ancestors and its own certificate. -/
theorem mem_dropExpired {chain : CertificateChain P} {cert : DeviceCertificate P} :
    cert ∈ (chain.dropExpired now).certs ↔
      cert ∈ chain.ancestors ∧ now < cert.expiry ∨ cert = chain.this := by
  rw [mem_certs, dropExpired, List.mem_filter, decide_eq_true_iff]

/-- A certificate of the chain is dropped only when it is expired. -/
theorem dropExpired_keeps (chain : CertificateChain P) (now : Timestamp)
    (cert : DeviceCertificate P) (listed : cert ∈ chain.certs) (unexpired : now < cert.expiry) :
    cert ∈ (chain.dropExpired now).certs :=
  mem_dropExpired.mpr ((mem_certs.mp listed).imp_left fun ancestor => ⟨ancestor, unexpired⟩)

/-- Dropping expired ancestors adds nothing. -/
theorem dropExpired_subset (chain : CertificateChain P) (now : Timestamp) :
    (chain.dropExpired now).certs ⊆ chain.certs := by
  intro cert listed
  exact mem_certs.mpr ((mem_dropExpired.mp listed).imp_left And.left)

/-- What deleting the expired ancestors leaves of a trusted chain is trusted. -/
theorem Trusted.dropExpired {chain : CertificateChain P}
    (trusted : chain.Trusted now trustedPkHash) :
    (chain.dropExpired now).Trusted now trustedPkHash where
  rootsSelfSigned cert listed := trusted.rootsSelfSigned cert (chain.dropExpired_subset now listed)
  rootUnexpired := by
    obtain ⟨cert, listed, root, unexpired⟩ := trusted.rootUnexpired
    exact ⟨cert, chain.dropExpired_keeps now cert listed unexpired, root, unexpired⟩
  othersSigned cert listed apart :=
    (trusted.othersSigned cert (chain.dropExpired_subset now listed) apart).of_unexpired
      (chain.dropExpired_keeps now)
  thisUnexpired := trusted.thisUnexpired
  thisAuthentic :=
    trusted.thisAuthentic.imp_right fun signed => signed.of_unexpired (chain.dropExpired_keeps now)

/-- In a trusted chain a trusted signer signed every expired ancestor. -/
theorem Trusted.expiredEndorsed {chain : CertificateChain P}
    (trusted : chain.Trusted now trustedPkHash) : chain.ExpiredEndorsed now trustedPkHash := by
  intro cert ancestor _
  have listed : cert ∈ chain.certs := mem_certs.mpr (Or.inl ancestor)
  rw [Endorsed]
  split
  · rename_i root
    exact trusted.rootsSelfSigned cert listed root
  · rename_i apart
    exact (trusted.othersSigned cert listed apart).of_unexpired (chain.dropExpired_keeps now)

/-- The expired ancestors can be put back as long as their signatures are good. -/
theorem Trusted.of_dropExpired {chain : CertificateChain P}
    (trusted : (chain.dropExpired now).Trusted now trustedPkHash)
    (endorsed : chain.ExpiredEndorsed now trustedPkHash) :
    chain.Trusted now trustedPkHash := by
  have every : ∀ cert ∈ chain.certs,
      cert ∈ (chain.dropExpired now).certs ∨
        Endorsed now trustedPkHash (chain.dropExpired now).certs cert := by
    intro cert listed
    rcases mem_certs.mp listed with ancestor | rfl
    · by_cases unexpired : now < cert.expiry
      · exact Or.inl (chain.dropExpired_keeps now cert listed unexpired)
      · exact Or.inr (endorsed cert ancestor unexpired)
    · exact Or.inl (mem_dropExpired.mpr (Or.inr rfl))
  refine ⟨?_, ?_, ?_, trusted.thisUnexpired, ?_⟩
  · intro cert listed root
    rcases every cert listed with kept | good
    · exact trusted.rootsSelfSigned cert kept root
    · rwa [Endorsed, if_pos root] at good
  · obtain ⟨cert, listed, root⟩ := trusted.rootUnexpired
    exact ⟨cert, chain.dropExpired_subset now listed, root⟩
  · intro cert listed apart
    refine SignedByTrusted.mono (chain.dropExpired_subset now) ?_
    rcases every cert listed with kept | good
    · exact trusted.othersSigned cert kept apart
    · rwa [Endorsed, if_neg apart] at good
  · exact trusted.thisAuthentic.imp_right fun signed => signed.mono (chain.dropExpired_subset now)

/-- A chain whose unexpired part verifies is itself accepted exactly when every expired
ancestor carries the signature of a trusted signer, or its own if its key is the root key. -/
theorem verify_dropExpired (chain : CertificateChain P) (now : Timestamp) (trustedPkHash : P.Hash) :
    ((chain.dropExpired now).verify now trustedPkHash = .ok () →
      (chain.verify now trustedPkHash = .ok () ↔ chain.ExpiredEndorsed now trustedPkHash)) ∧
    (chain.verify now trustedPkHash = .ok () →
      (chain.dropExpired now).verify now trustedPkHash = .ok ()) := by
  rw [verify_eq_ok, verify_eq_ok]
  constructor
  · intro accepted
    exact ⟨Trusted.expiredEndorsed, accepted.of_dropExpired⟩
  · exact Trusted.dropExpired

/-- A root device whose chain also lists an expired certificate which nobody signed. -/
def strayAncestor : CertificateChain symbolic :=
  { rootChain 1 100 with ancestors := [⟨2, 5, false, []⟩] }

theorem strayAncestor_refused :
    (strayAncestor.dropExpired 10).verify 10 (symbolic.bcsHash (1 : UInt8)) = .ok () ∧
      strayAncestor.verify 10 (symbolic.bcsHash (1 : UInt8)) = .error .unverifiableEntries := by
  decide

/-- An expired ancestor which the root device did certify changes nothing. -/
def expiredSibling : CertificateChain symbolic :=
  { rootChain 1 100 with ancestors := [⟨2, 5, false, 1 :: Bcs.toBytes ((2 : UInt8), (5 : Timestamp), false)⟩] }

theorem expiredSibling_endorsed :
    (expiredSibling.dropExpired 10).verify 10 (symbolic.bcsHash (1 : UInt8)) = .ok () ∧
      expiredSibling.ExpiredEndorsed 10 (symbolic.bcsHash (1 : UInt8)) := by
  have accepted : (expiredSibling.dropExpired 10).verify 10 (symbolic.bcsHash (1 : UInt8)) =
      .ok () := by decide
  have whole : expiredSibling.verify 10 (symbolic.bcsHash (1 : UInt8)) = .ok () := by decide
  exact ⟨accepted,
    ((verify_dropExpired expiredSibling 10 (symbolic.bcsHash (1 : UInt8))).1 accepted).mp whole⟩

end CertificateChain
end Nullspace
