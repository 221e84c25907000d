import Nullspace.Base.Machine
import Nullspace.Client.Database
import Nullspace.Structs.Trust
import Nullspace.Symbolic

/-!
# Adding devices to a username

The first device of a username certifies itself. From then on a device which may issue
makes the secret and the chain of a new one: its own chain, and below it the certificate it
signs. `issuance` takes one such step at a time, at any issuer.
-/

namespace Nullspace

open Nullspace.Base

/-- `Timestamp(u64::MAX)`. -/
def maxTimestamp : Timestamp := 0xFFFFFFFFFFFFFFFF

/-- The chain which `register_bootstrap` makes for the first device. -/
def bootstrapChain {P : Primitives} (secret : P.SigningSecret) : CertificateChain P :=
  ⟨[], selfSigned secret maxTimestamp true⟩

inductive InternalRpcError where
  | notReady
  | accessDenied
  | other (text : String)
deriving DecidableEq

def InternalRpcError.message : InternalRpcError → String
  | .notReady => "client not ready"
  | .accessDenied => "access denied"
  | .other text => text

variable (P : Primitives)

/-- What a new device is given. -/
structure BundleInner where
  username : UserName
  deviceSecret : P.SigningSecret
  certChain : CertificateChain P

variable {P}

/-- The row which `persist_identity` inserts. -/
def Identity.persisted (username : UserName) (serverName : ServerName)
    (deviceSecret : P.SigningSecret) (certChain : CertificateChain P) (mediumSk : P.DhSecret) :
    Identity P :=
  ⟨username, some serverName, deviceSecret, certChain, mediumSk, mediumSk⟩

/-- `new_device_bundle`, with the secret it draws. The bundle is handed on in its encoding. -/
def newDeviceBundle (identity : Option (Identity P)) (newSecret : P.SigningSecret)
    (canIssue : Bool) (expiry : Timestamp) : Except InternalRpcError (BundleInner P) :=
  match identity with
  | none => .error (.other "client identity not initialized")
  | some identity =>
      let issuerCert := identity.certChain.lastDevice
      if issuerCert.pk = P.publicKey identity.deviceSecret ∧ issuerCert.canIssue then
        .ok {
          username := identity.username
          deviceSecret := newSecret
          certChain := {
            ancestors := identity.certChain.ancestors ++ [identity.certChain.this]
            this := issueCertificate identity.deviceSecret (P.publicKey newSecret) expiry
              canIssue } }
      else .error .accessDenied

/-- One device more: who issues it, what `new_device_bundle` is asked for, and what the new
device is registered with. -/
structure NewDevice (P : Primitives) where
  issuer : Nat
  newSecret : P.SigningSecret
  canIssue : Bool
  expiry : Timestamp
  serverName : ServerName
  mediumSk : P.DhSecret

/-- The devices issued so far, in order; a refused bundle issues none. -/
def issuance (P : Primitives) : Machine (List (Identity P)) (NewDevice P) where
  step devices event :=
    match newDeviceBundle devices[event.issuer]? event.newSecret event.canIssue event.expiry with
    | .error _ => none
    | .ok bundle =>
        some (devices ++ [.persisted bundle.username event.serverName bundle.deviceSecret
          bundle.certChain event.mediumSk])

/-- The key drawn for a new device is no earlier device's. -/
def DistinctKey (devices : List (Identity P)) (event : NewDevice P) : Prop :=
  P.publicKey event.newSecret ∉ devices.map fun device => device.certChain.this.pk

instance (devices : List (Identity P)) (event : NewDevice P) :
    Decidable (DistinctKey devices event) :=
  inferInstanceAs (Decidable (_ ∉ _))

/-- What a device key certifies carries its signature. -/
theorem verify_issueCertificate (signs : P.SignsCorrectly) (secret : P.SigningSecret)
    (subject : P.SigningPublic) (expiry : Timestamp) (canIssue : Bool) :
    Signable.verify (issueCertificate secret subject expiry canIssue) (P.publicKey secret) = true :=
  signs secret _

/-- The chains which issuing makes, below the self-signed certificate of a root device. -/
inductive IssuedChain (rootSecret : P.SigningSecret) : CertificateChain P → Prop
  | root : IssuedChain rootSecret (bootstrapChain rootSecret)
  | issued {chain : CertificateChain P} {secret : P.SigningSecret} {subject : P.SigningPublic}
      (prior : IssuedChain rootSecret chain) (holder : chain.this.pk = P.publicKey secret)
      (issues : chain.this.canIssue = true) (distinct : subject ≠ P.publicKey rootSecret)
      (expiry : Timestamp) (canIssue : Bool) :
      IssuedChain rootSecret
        ⟨chain.ancestors ++ [chain.this], issueCertificate secret subject expiry canIssue⟩

namespace IssuedChain

open CertificateChain

variable {rootSecret : P.SigningSecret} {chain : CertificateChain P} {now : Timestamp}

/-- The certificate of the root device. -/
abbrev rootCert (rootSecret : P.SigningSecret) : DeviceCertificate P :=
  selfSigned rootSecret maxTimestamp true

/-- An issued chain begins with the root device's certificate. -/
theorem rootCert_mem (issued : IssuedChain rootSecret chain) :
    rootCert rootSecret ∈ chain.certs := by
  induction issued with
  | root => exact List.mem_singleton_self _
  | issued _ _ _ _ _ _ ih => exact List.mem_append_left _ ih

/-- While nothing in the chain is expired, a certificate which is not the root's belongs to
another key and carries the signature of a trusted signer. -/
theorem signed (signs : P.SignsCorrectly) (issued : IssuedChain rootSecret chain)
    (unexpired : ∀ cert ∈ chain.certs, now < cert.expiry) (cert : DeviceCertificate P)
    (listed : cert ∈ chain.certs) :
    cert = rootCert rootSecret ∨ cert.pk ≠ P.publicKey rootSecret ∧
      SignedByTrusted now (P.bcsHash (P.publicKey rootSecret)) chain.certs cert := by
  induction issued generalizing cert with
  | root => exact Or.inl (List.mem_singleton.mp listed)
  | @issued chain secret subject prior holder issues distinct expiry canIssue ih =>
      have within : chain.certs ⊆ certs
          ⟨chain.ancestors ++ [chain.this], issueCertificate secret subject expiry canIssue⟩ :=
        fun _ => List.mem_append_left _
      have earlier := ih fun cert listed => unexpired cert (within listed)
      rcases List.mem_append.mp listed with old | new
      · exact (earlier cert old).imp_right fun ⟨apart, signed⟩ => ⟨apart, signed.mono within⟩
      · rw [List.mem_singleton] at new
        subst new
        have issuerListed : chain.this ∈ chain.certs :=
          List.mem_append_right _ List.mem_cons_self
        have issuing : chain.this.Issues now := ⟨unexpired _ (within issuerListed), issues⟩
        -- The issuer is the root device, or was itself certified by a trusted signer.
        have trusted : TrustedSigner now (P.bcsHash (P.publicKey rootSecret)) chain.certs
            chain.this.pk := by
          rcases earlier chain.this issuerListed with isRoot | ⟨_, signer, above, signed⟩
          · refine .root issuerListed ?_ ?_ issuing
            · rw [isRoot]
              rfl
            · rw [isRoot]
              exact verify_issueCertificate signs _ _ _ _
          · exact .issued issuerListed above signed issuing
        refine Or.inr ⟨distinct, chain.this.pk, trusted.mono within, ?_⟩
        rw [holder]
        exact verify_issueCertificate signs secret subject expiry canIssue

/-- An issued chain is trusted as long as none of its certificates is expired. -/
theorem trusted (free : P.CollisionFree) (signs : P.SignsCorrectly)
    (issued : IssuedChain rootSecret chain)
    (unexpired : ∀ cert ∈ chain.certs, now < cert.expiry) :
    chain.Trusted now (P.bcsHash (P.publicKey rootSecret)) := by
  have rootListed := issued.rootCert_mem
  have thisListed : chain.this ∈ chain.certs := List.mem_append_right _ List.mem_cons_self
  have selfVerifies : Signable.verify (rootCert rootSecret) (rootCert rootSecret).pk = true :=
    verify_issueCertificate signs _ _ _ _
  refine ⟨?_, ⟨_, rootListed, rfl, unexpired _ rootListed⟩, ?_, unexpired _ thisListed, ?_⟩
  · intro cert listed root
    rcases issued.signed signs unexpired cert listed with rfl | ⟨apart, _⟩
    · exact selfVerifies
    · exact absurd (free.bcsHash_inj.mp root) apart
  · intro cert listed apart
    rcases issued.signed signs unexpired cert listed with rfl | ⟨_, signed⟩
    · exact absurd rfl apart
    · exact signed
  · rcases issued.signed signs unexpired chain.this thisListed with isRoot | ⟨_, signed⟩
    · rw [isRoot]
      exact Or.inl ⟨rfl, selfVerifies⟩
    · exact Or.inr signed

end IssuedChain

/-- A bundle is made by a device which may issue, for a chain one longer. -/
theorem newDeviceBundle_eq_ok {identity : Option (Identity P)} {newSecret : P.SigningSecret}
    {canIssue : Bool} {expiry : Timestamp} {bundle : BundleInner P} :
    newDeviceBundle identity newSecret canIssue expiry = .ok bundle ↔
      ∃ issuer, identity = some issuer ∧
        issuer.certChain.this.pk = P.publicKey issuer.deviceSecret ∧
        issuer.certChain.this.canIssue = true ∧
        bundle = ⟨issuer.username, newSecret,
          ⟨issuer.certChain.ancestors ++ [issuer.certChain.this],
            issueCertificate issuer.deviceSecret (P.publicKey newSecret) expiry canIssue⟩⟩ := by
  cases identity with
  | none => simp [newDeviceBundle]
  | some issuer =>
      simp only [newDeviceBundle, Option.some.injEq]
      by_cases allowed : issuer.certChain.lastDevice.pk = P.publicKey issuer.deviceSecret ∧
          issuer.certChain.lastDevice.canIssue = true
      · rw [if_pos allowed, Except.ok.injEq]
        constructor
        · rintro rfl
          exact ⟨issuer, rfl, allowed.1, allowed.2, rfl⟩
        · rintro ⟨_, rfl, _, _, rfl⟩
          rfl
      · rw [if_neg allowed]
        refine iff_of_false (by simp) ?_
        rintro ⟨_, rfl, holder, issues, _⟩
        exact allowed ⟨holder, issues⟩

/-- What every device issued below a root device has. -/
structure IssuedBelow (rootSecret : P.SigningSecret) (devices : List (Identity P)) : Prop where
  chains : ∀ device ∈ devices, IssuedChain rootSecret device.certChain
  rootKey : P.publicKey rootSecret ∈ devices.map fun device => device.certChain.this.pk

/-- Every device issued with a key of its own is below the root device. -/
theorem IssuedBelow.step {rootSecret : P.SigningSecret} {devices next : List (Identity P)}
    {event : NewDevice P} (below : IssuedBelow rootSecret devices)
    (distinct : DistinctKey devices event) (taken : (issuance P).step devices event = some next) :
    IssuedBelow rootSecret next := by
  simp only [issuance] at taken
  split at taken
  · cases taken
  · rename_i bundle made
    obtain ⟨issuer, found, holder, issues, rfl⟩ := newDeviceBundle_eq_ok.mp made
    cases taken
    constructor
    · intro device listed
      rcases List.mem_append.mp listed with old | new
      · exact below.chains device old
      · rw [List.mem_singleton] at new
        subst new
        refine .issued (below.chains issuer (List.mem_of_getElem? found)) holder issues ?_ _ _
        intro same
        exact distinct (same ▸ below.rootKey)
    · rw [List.map_append]
      exact List.mem_append_left _ below.rootKey

/-- The chain of every device issued below a bootstrapped root device verifies at every time
before the least expiry in the chain, and never from the expiry of the device on. -/
theorem issued_devices_verify (free : P.CollisionFree) (signs : P.SignsCorrectly)
    {root : Identity P} (bootstrapped : root.certChain = bootstrapChain root.deviceSecret)
    {events : List (NewDevice P)} (distinct : (issuance P).Along DistinctKey [root] events)
    {devices : List (Identity P)} (reached : (issuance P).exec [root] events = some devices)
    {device : Identity P} (issued : device ∈ devices) (now : Timestamp) :
    ((∀ cert ∈ device.certChain.certs, now < cert.expiry) →
      device.certChain.verify now (P.bcsHash (P.publicKey root.deviceSecret)) = .ok ()) ∧
    (device.certChain.this.expiry ≤ now →
      device.certChain.verify now (P.bcsHash (P.publicKey root.deviceSecret)) ≠ .ok ()) := by
  have initial : IssuedBelow root.deviceSecret [root] := by
    constructor
    · intro other listed
      rw [List.mem_singleton.mp listed, bootstrapped]
      exact .root
    · rw [List.map_singleton, bootstrapped]
      exact List.mem_singleton_self _
  have below : IssuedBelow root.deviceSecret devices :=
    (Machine.always_of_along IssuedBelow.step initial distinct).last reached
  have chain := below.chains device issued
  constructor
  · intro unexpired
    exact CertificateChain.verify_eq_ok.mpr (chain.trusted free signs unexpired)
  · intro expired accepted
    have fresh := (CertificateChain.verify_eq_ok.mp accepted).thisUnexpired
    exact UInt64.not_lt.mpr expired fresh

/-- Alice's first device. -/
def aliceRoot : Identity symbolic :=
  .persisted alice symbolicServer (1 : UInt8) (bootstrapChain (P := symbolic) (1 : UInt8)) 5

/-- Alice's first device issues a second one, which issues a third one that expires later. -/
def aliceIssues : List (NewDevice symbolic) :=
  [⟨0, (2 : UInt8), true, 50, symbolicServer, (6 : UInt8)⟩,
    ⟨1, (3 : UInt8), false, 90, symbolicServer, (7 : UInt8)⟩]

/-- The third device's chain verifies until the second one's certificate expires. -/
theorem aliceIssues_verify : ∃ devices third,
    (issuance symbolic).exec [aliceRoot] aliceIssues = some devices ∧ devices[2]? = some third ∧
      third.certChain.verify 40 (symbolic.bcsHash (1 : UInt8)) = .ok () ∧
      third.certChain.verify 90 (symbolic.bcsHash (1 : UInt8)) ≠ .ok () := by
  have distinct : (issuance symbolic).Along DistinctKey [aliceRoot] aliceIssues := by
    decide
  have bootstrapped : aliceRoot.certChain = bootstrapChain aliceRoot.deviceSecret := rfl
  refine ⟨_, _, rfl, rfl, ?_, ?_⟩
  · refine (issued_devices_verify symbolic_collisionFree symbolic_signsCorrectly bootstrapped
      distinct rfl (List.mem_of_getElem? (i := 2) rfl) 40).1 ?_
    decide
  · refine (issued_devices_verify symbolic_collisionFree symbolic_signsCorrectly bootstrapped
      distinct rfl (List.mem_of_getElem? (i := 2) rfl) 90).2 ?_
    decide

end Nullspace
