import Mathlib.Data.List.Basic
import Nullspace.Base.Worklist
import Nullspace.Structs.Certificate

/-!
# What a certificate chain proves

`TrustedSigner` is the least set of keys which may certify a device: it starts from the
root certificates and follows the certificates of issuing devices while they are
unexpired. `verify_decides_trust` says that the two loops of `CertificateChain.verify`
decide membership in it, for certificates in any order, with repetitions and cycles.
-/

namespace Nullspace

open Nullspace.Base

variable {P : Primitives}

/-- The key of the certificate may certify other devices. -/
def DeviceCertificate.Issues (now : Timestamp) (cert : DeviceCertificate P) : Prop :=
  now < cert.expiry ∧ cert.canIssue = true

namespace CertificateChain

/-- All certificates of the chain. -/
def certs (chain : CertificateChain P) : List (DeviceCertificate P) :=
  chain.ancestors ++ [chain.this]

/-- The least set of trusted signers. -/
inductive TrustedSigner (now : Timestamp) (trustedPkHash : P.Hash)
    (certs : List (DeviceCertificate P)) : P.SigningPublic → Prop
  | root {cert : DeviceCertificate P} (listed : cert ∈ certs)
      (trusted : P.bcsHash cert.pk = trustedPkHash)
      (selfSigned : Signable.verify cert cert.pk = true) (issues : cert.Issues now) :
      TrustedSigner now trustedPkHash certs cert.pk
  | issued {cert : DeviceCertificate P} {signer : P.SigningPublic} (listed : cert ∈ certs)
      (trusted : TrustedSigner now trustedPkHash certs signer)
      (signed : Signable.verify cert signer = true) (issues : cert.Issues now) :
      TrustedSigner now trustedPkHash certs cert.pk

/-- Some trusted signer signed the certificate. -/
def SignedByTrusted (now : Timestamp) (trustedPkHash : P.Hash)
    (certs : List (DeviceCertificate P)) (cert : DeviceCertificate P) : Prop :=
  ∃ signer, TrustedSigner now trustedPkHash certs signer ∧ Signable.verify cert signer = true

/-- What a chain has to show. -/
structure Trusted (chain : CertificateChain P) (now : Timestamp) (trustedPkHash : P.Hash) :
    Prop where
  rootsSelfSigned : ∀ cert ∈ chain.certs, P.bcsHash cert.pk = trustedPkHash →
    Signable.verify cert cert.pk = true
  rootUnexpired : ∃ cert ∈ chain.certs, P.bcsHash cert.pk = trustedPkHash ∧ now < cert.expiry
  othersSigned : ∀ cert ∈ chain.certs, P.bcsHash cert.pk ≠ trustedPkHash →
    SignedByTrusted now trustedPkHash chain.certs cert
  thisUnexpired : now < chain.this.expiry
  thisAuthentic :
    (P.bcsHash chain.this.pk = trustedPkHash ∧ Signable.verify chain.this chain.this.pk = true) ∨
      SignedByTrusted now trustedPkHash chain.certs chain.this

/-! ## The closure and the loops -/

theorem TrustedSigner.mono {now : Timestamp} {trustedPkHash : P.Hash}
    {certs more : List (DeviceCertificate P)} (within : certs ⊆ more) {signer : P.SigningPublic}
    (trusted : TrustedSigner now trustedPkHash certs signer) :
    TrustedSigner now trustedPkHash more signer := by
  induction trusted with
  | root listed trusted selfSigned issues => exact .root (within listed) trusted selfSigned issues
  | issued listed _ signed issues ih => exact .issued (within listed) ih signed issues

theorem SignedByTrusted.mono {now : Timestamp} {trustedPkHash : P.Hash}
    {certs more : List (DeviceCertificate P)} (within : certs ⊆ more) {cert : DeviceCertificate P}
    (signed : SignedByTrusted now trustedPkHash certs cert) :
    SignedByTrusted now trustedPkHash more cert := by
  obtain ⟨signer, trusted, verifies⟩ := signed
  exact ⟨signer, trusted.mono within, verifies⟩

/-- A trusted signer is an unexpired issuing device of the chain. -/
theorem TrustedSigner.issuer {now : Timestamp} {trustedPkHash : P.Hash}
    {certs : List (DeviceCertificate P)} {signer : P.SigningPublic}
    (trusted : TrustedSigner now trustedPkHash certs signer) :
    ∃ cert ∈ certs, cert.pk = signer ∧ cert.Issues now := by
  cases trusted with
  | root listed _ _ issues => exact ⟨_, listed, rfl, issues⟩
  | issued listed _ _ issues => exact ⟨_, listed, rfl, issues⟩

/-- Whether a chain is trusted does not depend on the order of its certificates. -/
theorem Trusted.reorder {chain other : CertificateChain P} {now : Timestamp}
    {trustedPkHash : P.Hash} (trusted : chain.Trusted now trustedPkHash)
    (this : chain.this = other.this) (members : ∀ cert, cert ∈ chain.certs ↔ cert ∈ other.certs) :
    other.Trusted now trustedPkHash where
  rootsSelfSigned cert listed := trusted.rootsSelfSigned cert ((members cert).mpr listed)
  rootUnexpired := by
    obtain ⟨cert, listed, root⟩ := trusted.rootUnexpired
    exact ⟨cert, (members cert).mp listed, root⟩
  othersSigned cert listed apart :=
    (trusted.othersSigned cert ((members cert).mpr listed) apart).mono fun _ => (members _).mp
  thisUnexpired := this ▸ trusted.thisUnexpired
  thisAuthentic := by
    rw [← this]
    exact trusted.thisAuthentic.imp_right fun signed => signed.mono fun _ => (members _).mp

/-- The progress is that of a list of accepted certificates. -/
structure Progress.Counts (now : Timestamp) (this : DeviceCertificate P)
    (counted : List (DeviceCertificate P)) (progress : Progress P) : Prop where
  signers : ∀ pk, pk ∈ progress.trustedSigners ↔ ∃ cert ∈ counted, cert.Issues now ∧ cert.pk = pk
  verified : progress.thisVerified = true ↔ this ∈ counted ∧ now < this.expiry

/-- Before the loops nothing is counted. -/
theorem Progress.Counts.start (now : Timestamp) (this : DeviceCertificate P) (found : Bool) :
    (⟨[], found, false⟩ : Progress P).Counts now this [] where
  signers _ := by simp
  verified := by simp

/-- The flag of a found root does not bear on what is counted. -/
theorem Progress.Counts.found {now : Timestamp} {this : DeviceCertificate P}
    {counted : List (DeviceCertificate P)} {progress : Progress P}
    (counts : progress.Counts now this counted) (found : Bool) :
    { progress with trustedRootFound := found }.Counts now this counted :=
  ⟨counts.signers, counts.verified⟩

/-- An accepted certificate leaves the flag of a found root as it is. -/
theorem Progress.accept_trustedRootFound (now : Timestamp) (this cert : DeviceCertificate P)
    (progress : Progress P) :
    (progress.accept now this cert).trustedRootFound = progress.trustedRootFound := by
  rw [Progress.accept]
  split <;> rfl

/-- An accepted certificate is counted. -/
theorem Progress.Counts.accept {now : Timestamp} {this : DeviceCertificate P}
    {counted : List (DeviceCertificate P)} {progress : Progress P}
    (counts : progress.Counts now this counted) (cert : DeviceCertificate P) :
    (progress.accept now this cert).Counts now this (cert :: counted) := by
  by_cases unexpired : now < cert.expiry
  · rw [Progress.accept, if_pos unexpired]
    constructor
    · intro pk
      by_cases issuing : cert.canIssue = true
      · have issues : cert.Issues now := ⟨unexpired, issuing⟩
        simp only [if_pos issuing, List.mem_append, counts.signers pk, List.mem_singleton,
          List.exists_mem_cons_iff, issues, true_and]
        rw [or_comm, eq_comm]
      · have idle : ¬cert.Issues now := fun issues => issuing issues.2
        simp only [if_neg issuing, counts.signers pk, List.exists_mem_cons_iff, idle, false_and,
          false_or]
    · rw [Bool.or_eq_true, counts.verified, decide_eq_true_iff, List.mem_cons]
      constructor
      · rintro (⟨listed, valid⟩ | rfl)
        · exact ⟨Or.inr listed, valid⟩
        · exact ⟨Or.inl rfl, unexpired⟩
      · rintro ⟨rfl | listed, valid⟩
        · exact Or.inr rfl
        · exact Or.inl ⟨listed, valid⟩
  · rw [Progress.accept, if_neg unexpired]
    constructor
    · intro pk
      have idle : ¬cert.Issues now := fun issues => unexpired issues.1
      simp only [counts.signers pk, List.exists_mem_cons_iff, idle, false_and, false_or]
    · rw [counts.verified, List.mem_cons]
      constructor
      · rintro ⟨listed, valid⟩
        exact ⟨Or.inr listed, valid⟩
      · rintro ⟨rfl | listed, valid⟩
        · exact absurd valid unexpired
        · exact ⟨listed, valid⟩

/-- The certificates of the trusted root key, and the others. -/
def roots (trustedPkHash : P.Hash) (certs : List (DeviceCertificate P)) :
    List (DeviceCertificate P) :=
  certs.filter fun cert => P.bcsHash cert.pk = trustedPkHash

def others (trustedPkHash : P.Hash) (certs : List (DeviceCertificate P)) :
    List (DeviceCertificate P) :=
  certs.filter fun cert => P.bcsHash cert.pk ≠ trustedPkHash

@[simp] theorem mem_roots {trustedPkHash : P.Hash} {certs : List (DeviceCertificate P)}
    {cert : DeviceCertificate P} :
    cert ∈ roots trustedPkHash certs ↔ cert ∈ certs ∧ P.bcsHash cert.pk = trustedPkHash := by
  simp [roots]

@[simp] theorem mem_others {trustedPkHash : P.Hash} {certs : List (DeviceCertificate P)}
    {cert : DeviceCertificate P} :
    cert ∈ others trustedPkHash certs ↔ cert ∈ certs ∧ P.bcsHash cert.pk ≠ trustedPkHash := by
  simp [others]

/-- The first loop fails on a root certificate which is not self-signed. -/
theorem takeRoots_isOk {now : Timestamp} {trustedPkHash : P.Hash} {this : DeviceCertificate P}
    {certs : List (DeviceCertificate P)} (progress : Progress P) :
    (∃ result, takeRoots now trustedPkHash this progress certs = .ok result) ↔
      ∀ cert ∈ roots trustedPkHash certs, Signable.verify cert cert.pk = true := by
  induction certs generalizing progress with
  | nil => simp [takeRoots, roots]
  | cons cert rest ih =>
      by_cases root : P.bcsHash cert.pk = trustedPkHash
      · have first : roots trustedPkHash (cert :: rest) = cert :: roots trustedPkHash rest := by
          simp [roots, root]
        rw [takeRoots, if_pos root, first, List.forall_mem_cons]
        by_cases selfSigned : Signable.verify cert cert.pk = true
        · rw [if_pos selfSigned, ih]
          exact (and_iff_right selfSigned).symm
        · rw [if_neg selfSigned]
          simp [selfSigned]
      · have first : roots trustedPkHash (cert :: rest) = roots trustedPkHash rest := by
          simp [roots, root]
        rw [takeRoots, if_neg root, first, ← ih progress]
        cases takeRoots now trustedPkHash this progress rest with
        | ok result => simp
        | error err => simp

/-- The first loop accepts the root certificates and leaves the others pending. -/
theorem takeRoots_spec {now : Timestamp} {trustedPkHash : P.Hash} {this : DeviceCertificate P}
    {certs counted pending : List (DeviceCertificate P)} {progress final : Progress P}
    (taken : takeRoots now trustedPkHash this progress certs = .ok (final, pending))
    (counts : progress.Counts now this counted) :
    final.Counts now this ((roots trustedPkHash certs).reverse ++ counted) ∧
      pending = others trustedPkHash certs ∧
      (final.trustedRootFound = true ↔ progress.trustedRootFound = true ∨
        ∃ cert ∈ roots trustedPkHash certs, now < cert.expiry) := by
  induction certs generalizing progress counted pending with
  | nil =>
      cases taken
      exact ⟨counts, rfl, by simp [roots]⟩
  | cons cert rest ih =>
      by_cases root : P.bcsHash cert.pk = trustedPkHash
      · have first : roots trustedPkHash (cert :: rest) = cert :: roots trustedPkHash rest := by
          simp [roots, root]
        have remaining : others trustedPkHash (cert :: rest) = others trustedPkHash rest := by
          simp [others, root]
        rw [takeRoots, if_pos root] at taken
        split at taken
        · obtain ⟨counted, left, found⟩ := ih taken ((counts.accept cert).found _)
          rw [first, remaining, List.reverse_cons, List.append_assoc]
          refine ⟨counted, left, found.trans ?_⟩
          rw [Progress.accept_trustedRootFound, Bool.or_eq_true, decide_eq_true_iff,
            List.exists_mem_cons_iff, or_assoc]
        · cases taken
      · have first : roots trustedPkHash (cert :: rest) = roots trustedPkHash rest := by
          simp [roots, root]
        have remaining : others trustedPkHash (cert :: rest) = cert :: others trustedPkHash rest := by
          simp [others, root]
        rw [takeRoots, if_neg root] at taken
        split at taken
        · rename_i final' pending' taken'
          cases taken
          obtain ⟨counted, left, found⟩ := ih taken' counts
          rw [first, remaining, left]
          exact ⟨counted, rfl, found⟩
        · cases taken

/-- The second loop as a worklist. -/
def signerWork (now : Timestamp) (this : DeviceCertificate P) :
    Worklist (Progress P) (DeviceCertificate P) where
  ready progress cert := progress.trustedSigners.any fun pk => Signable.verify cert pk
  absorb progress cert := progress.accept now this cert

/-- The inner loop is a pass over the pending certificates. -/
theorem signerPass_eq (now : Timestamp) (this : DeviceCertificate P) (progress : Progress P)
    (pending : List (DeviceCertificate P)) :
    signerPass now this progress pending = (signerWork now this).pass progress pending := by
  induction pending generalizing progress with
  | nil => rfl
  | cons cert rest ih =>
      rw [signerPass, Worklist.pass, ih, ih]
      rfl

/-- The outer loop repeats the pass. -/
theorem signerRounds_eq (now : Timestamp) (this : DeviceCertificate P) (fuel : Nat)
    (progress : Progress P) (pending : List (DeviceCertificate P)) :
    signerRounds now this fuel progress pending =
      (signerWork now this).rounds fuel progress pending := by
  induction fuel generalizing progress pending with
  | zero => rfl
  | succ fuel ih =>
      rw [signerRounds, Worklist.rounds, signerPass_eq]
      rcases (signerWork now this).pass progress pending with ⟨final, left, moved⟩
      cases moved with
      | false => rfl
      | true => simp only [ih]

/-- Between two certificates of the second loop: what is counted is authentic, and only
certificates of other keys than the root key are pending. -/
structure Saturating (chain : CertificateChain P) (now : Timestamp) (trustedPkHash : P.Hash)
    (counted : List (DeviceCertificate P)) (progress : Progress P)
    (pending : List (DeviceCertificate P)) : Prop where
  counts : progress.Counts now chain.this counted
  split : ∀ cert, cert ∈ chain.certs ↔ cert ∈ counted ∨ cert ∈ pending
  authentic : ∀ cert ∈ counted,
    (P.bcsHash cert.pk = trustedPkHash ∧ Signable.verify cert cert.pk = true) ∨
      SignedByTrusted now trustedPkHash chain.certs cert
  pendingOthers : ∀ cert ∈ pending, P.bcsHash cert.pk ≠ trustedPkHash

namespace Saturating

variable {chain : CertificateChain P} {now : Timestamp} {trustedPkHash : P.Hash}
  {counted pending : List (DeviceCertificate P)} {progress : Progress P}

/-- Every key trusted so far is a trusted signer. -/
theorem sound (saturating : chain.Saturating now trustedPkHash counted progress pending)
    {signer : P.SigningPublic} (trusted : signer ∈ progress.trustedSigners) :
    TrustedSigner now trustedPkHash chain.certs signer := by
  obtain ⟨cert, listed, issues, rfl⟩ := (saturating.counts.signers signer).mp trusted
  have inChain : cert ∈ chain.certs := (saturating.split cert).mpr (Or.inl listed)
  rcases saturating.authentic cert listed with ⟨root, selfSigned⟩ | ⟨signer, above, signed⟩
  · exact .root inChain root selfSigned issues
  · exact .issued inChain above signed issues

/-- The step of the second loop: a certificate which some trusted key signed is counted. -/
theorem take {front back : List (DeviceCertificate P)} {cert : DeviceCertificate P}
    (saturating : chain.Saturating now trustedPkHash counted progress (front ++ cert :: back))
    (ready : (signerWork now chain.this).ready progress cert = true) :
    chain.Saturating now trustedPkHash (cert :: counted)
      ((signerWork now chain.this).absorb progress cert) (front ++ back) where
  counts := saturating.counts.accept cert
  split other := by
    rw [saturating.split other, List.mem_append, List.mem_append, List.mem_cons, List.mem_cons,
      or_left_comm (b := other = cert)]
    exact (or_left_comm).trans or_assoc.symm
  authentic := by
    obtain ⟨signer, trusted, signed⟩ := List.any_eq_true.mp ready
    rw [List.forall_mem_cons]
    exact ⟨Or.inr ⟨signer, saturating.sound trusted, signed⟩, saturating.authentic⟩
  pendingOthers other listed := by
    apply saturating.pendingOthers other
    rcases List.mem_append.mp listed with inFront | inBack
    · exact List.mem_append_left _ inFront
    · exact List.mem_append_right _ (List.mem_cons_of_mem cert inBack)

/-- Once no pending certificate is signed by a trusted key, the trusted keys are all
trusted signers. -/
theorem complete (saturating : chain.Saturating now trustedPkHash counted progress pending)
    (stuck : ∀ cert ∈ pending, (signerWork now chain.this).ready progress cert = false)
    {signer : P.SigningPublic} (trusted : TrustedSigner now trustedPkHash chain.certs signer) :
    signer ∈ progress.trustedSigners := by
  induction trusted with
  | @root cert listed root selfSigned issues =>
      rcases (saturating.split cert).mp listed with isCounted | isPending
      · exact (saturating.counts.signers cert.pk).mpr ⟨cert, isCounted, issues, rfl⟩
      · exact absurd root (saturating.pendingOthers cert isPending)
  | @issued cert signer listed _ signed issues ih =>
      rcases (saturating.split cert).mp listed with isCounted | isPending
      · exact (saturating.counts.signers cert.pk).mpr ⟨cert, isCounted, issues, rfl⟩
      · have ready : (signerWork now chain.this).ready progress cert = true :=
          List.any_eq_true.mpr ⟨signer, ih, signed⟩
        rw [stuck cert isPending] at ready
        exact absurd ready Bool.false_ne_true

end Saturating

/-- The second loop ends with everything counted that a trusted signer signed. -/
theorem signerRounds_spec {chain : CertificateChain P} {now : Timestamp} {trustedPkHash : P.Hash}
    {counted pending left : List (DeviceCertificate P)} {progress final : Progress P}
    (saturating : chain.Saturating now trustedPkHash counted progress pending)
    (ended : signerRounds now chain.this (pending.length + 1) progress pending = (final, left)) :
    (∃ counted, chain.Saturating now trustedPkHash counted final left) ∧
      ∀ cert ∈ left, ¬SignedByTrusted now trustedPkHash chain.certs cert := by
  rw [signerRounds_eq] at ended
  have runs := (signerWork now chain.this).rounds_runs (pending.length + 1) progress pending
  have stuck := (signerWork now chain.this).rounds_stuck progress (Nat.lt_succ_self pending.length)
  rw [ended] at runs stuck
  have saturated : ∃ counted, chain.Saturating now trustedPkHash counted final left :=
    Worklist.Runs.keeps
      (fun progress pending => ∃ counted,
        chain.Saturating now trustedPkHash counted progress pending)
      runs (fun ready ⟨counted, holds⟩ => ⟨_, holds.take ready⟩) ⟨counted, saturating⟩
  refine ⟨saturated, ?_⟩
  rintro cert listed ⟨signer, trusted, signed⟩
  obtain ⟨_, saturated⟩ := saturated
  have ready : (signerWork now chain.this).ready final cert = true :=
    List.any_eq_true.mpr ⟨signer, saturated.complete stuck trusted, signed⟩
  rw [stuck cert listed] at ready
  exact Bool.false_ne_true ready

/-- What the first loop leaves to the second one. -/
theorem saturating_of_takeRoots {chain : CertificateChain P} {now : Timestamp}
    {trustedPkHash : P.Hash} {progress : Progress P} {pending : List (DeviceCertificate P)}
    (rootsSelfSigned : ∀ cert ∈ roots trustedPkHash chain.certs,
      Signable.verify cert cert.pk = true)
    (taken : takeRoots now trustedPkHash chain.this ⟨[], false, false⟩ chain.certs =
      .ok (progress, pending)) :
    ∃ counted, chain.Saturating now trustedPkHash counted progress pending := by
  obtain ⟨counts, rfl, _⟩ := takeRoots_spec taken (.start now chain.this false)
  rw [List.append_nil] at counts
  refine ⟨_, ⟨counts, ?_, ?_, ?_⟩⟩
  · intro cert
    rw [List.mem_reverse, mem_roots, mem_others, ← and_or_left]
    exact (and_iff_left (em _)).symm
  · intro cert listed
    rw [List.mem_reverse] at listed
    exact Or.inl ⟨(mem_roots.mp listed).2, rootsSelfSigned cert listed⟩
  · intro cert listed
    exact (mem_others.mp listed).2

/-- When the second loop has ended, its two checks say that the chain is trusted. -/
theorem trusted_iff_of_saturated {chain : CertificateChain P} {now : Timestamp}
    {trustedPkHash : P.Hash} {counted left : List (DeviceCertificate P)} {final : Progress P}
    (rootsSelfSigned : ∀ cert ∈ chain.certs, P.bcsHash cert.pk = trustedPkHash →
      Signable.verify cert cert.pk = true)
    (rootUnexpired : ∃ cert ∈ chain.certs, P.bcsHash cert.pk = trustedPkHash ∧ now < cert.expiry)
    (saturated : chain.Saturating now trustedPkHash counted final left)
    (rejected : ∀ cert ∈ left, ¬SignedByTrusted now trustedPkHash chain.certs cert) :
    (left = [] ∧ final.thisVerified = true) ↔ chain.Trusted now trustedPkHash := by
  have listed : chain.this ∈ chain.certs := List.mem_append_right _ List.mem_cons_self
  constructor
  · rintro ⟨rfl, verified⟩
    have all : ∀ cert ∈ chain.certs, cert ∈ counted := by
      intro cert inChain
      exact ((saturated.split cert).mp inChain).resolve_right List.not_mem_nil
    obtain ⟨thisCounted, unexpired⟩ := saturated.counts.verified.mp verified
    refine ⟨rootsSelfSigned, rootUnexpired, ?_, unexpired, saturated.authentic _ thisCounted⟩
    intro cert inChain apart
    rcases saturated.authentic cert (all cert inChain) with ⟨root, _⟩ | signed
    · exact absurd root apart
    · exact signed
  · intro trusted
    have none : left = [] := by
      refine List.eq_nil_iff_forall_not_mem.mpr ?_
      intro cert isLeft
      have inChain : cert ∈ chain.certs := (saturated.split cert).mpr (Or.inr isLeft)
      exact rejected cert isLeft
        (trusted.othersSigned cert inChain (saturated.pendingOthers cert isLeft))
    subst none
    have thisCounted := ((saturated.split chain.this).mp listed).resolve_right List.not_mem_nil
    exact ⟨rfl, saturated.counts.verified.mpr ⟨thisCounted, trusted.thisUnexpired⟩⟩

/-- `verify` returns `Ok` exactly for the trusted chains. -/
theorem verify_eq_ok {chain : CertificateChain P} {now : Timestamp} {trustedPkHash : P.Hash} :
    chain.verify now trustedPkHash = .ok () ↔ chain.Trusted now trustedPkHash := by
  have all : chain.certs = chain.ancestors ++ [chain.this] := rfl
  simp only [verify, ← all]
  cases taken : takeRoots now trustedPkHash chain.this ⟨[], false, false⟩ chain.certs with
  | error err =>
      refine iff_of_false (by simp) ?_
      intro trusted
      have selfSigned : ∀ cert ∈ roots trustedPkHash chain.certs,
          Signable.verify cert cert.pk = true :=
        fun cert listed => trusted.rootsSelfSigned cert (mem_roots.mp listed).1
          (mem_roots.mp listed).2
      obtain ⟨_, works⟩ := (takeRoots_isOk _).mpr selfSigned
      cases taken.symm.trans works
  | ok result =>
      obtain ⟨progress, pending⟩ := result
      have selfSigned := (takeRoots_isOk _).mp ⟨_, taken⟩
      have rootsSelfSigned : ∀ cert ∈ chain.certs, P.bcsHash cert.pk = trustedPkHash →
          Signable.verify cert cert.pk = true :=
        fun cert listed root => selfSigned cert (mem_roots.mpr ⟨listed, root⟩)
      obtain ⟨_, saturating⟩ := saturating_of_takeRoots selfSigned taken
      have found := (takeRoots_spec taken (.start now chain.this false)).2.2
      simp only [Bool.false_eq_true, false_or, mem_roots, and_assoc] at found
      by_cases rootFound : progress.trustedRootFound = true
      · simp only [rootFound, Bool.not_true, Bool.false_eq_true, if_false]
        cases ended : signerRounds now chain.this (pending.length + 1) progress pending with
        | mk final left =>
            obtain ⟨⟨_, saturated⟩, rejected⟩ := signerRounds_spec saturating ended
            rw [← trusted_iff_of_saturated rootsSelfSigned (found.mp rootFound) saturated rejected]
            cases left <;> cases final.thisVerified <;> simp
      · simp only [rootFound, Bool.not_false, if_true]
        refine iff_of_false (by simp) ?_
        intro trusted
        exact rootFound (found.mpr trusted.rootUnexpired)

/-- Verification decides the trust closure. Its verdict does not depend on the order of
the ancestors, and a device which only non-issuing or expired devices certify is refused. -/
theorem verify_decides_trust (chain : CertificateChain P) (now : Timestamp)
    (trustedPkHash : P.Hash) :
    (chain.verify now trustedPkHash = .ok () ↔ chain.Trusted now trustedPkHash) ∧
      (∀ ancestors, chain.ancestors.Perm ancestors →
        (verify ⟨ancestors, chain.this⟩ now trustedPkHash = .ok () ↔
          chain.verify now trustedPkHash = .ok ())) ∧
      (P.bcsHash chain.this.pk ≠ trustedPkHash →
        (∀ issuer ∈ chain.certs, Signable.verify chain.this issuer.pk = true →
          ¬issuer.Issues now) →
        chain.verify now trustedPkHash ≠ .ok ()) := by
  refine ⟨verify_eq_ok, ?_, ?_⟩
  · intro ancestors reordered
    have members : ∀ cert, cert ∈ chain.certs ↔ cert ∈ certs ⟨ancestors, chain.this⟩ := by
      intro cert
      rw [certs, certs, List.mem_append, List.mem_append, reordered.mem_iff]
    rw [verify_eq_ok, verify_eq_ok]
    constructor
    · intro trusted
      exact trusted.reorder rfl fun cert => (members cert).symm
    · intro trusted
      exact trusted.reorder rfl members
  · intro notRoot unissued accepted
    rcases (verify_eq_ok.mp accepted).thisAuthentic with ⟨root, _⟩ | ⟨signer, trusted, signed⟩
    · exact notRoot root
    · obtain ⟨issuer, listed, rfl, issues⟩ := trusted.issuer
      exact unissued issuer listed signed issues

end CertificateChain
end Nullspace
