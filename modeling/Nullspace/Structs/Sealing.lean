import Nullspace.Structs.E2ee
import Nullspace.Symbolic

/-!
# Header encryption between honest keys

What the sender seals for a medium-term key, the holder of the key opens. The results ask of
the primitives that a shared secret is the same from both sides, that applying a keystream
twice changes nothing, and that a ciphertext opens under its own key alone.
-/

namespace Nullspace

open Nullspace.Base

namespace Primitives

/-- What header encryption relies on. -/
structure Sealing (P : Primitives) : Prop where
  agrees : ∀ first second, P.x25519 first (P.dhPublicKey second) =
    P.x25519 second (P.dhPublicKey first)
  involutive : ∀ key nonce bytes,
    P.applyKeystream key nonce (P.applyKeystream key nonce bytes) = bytes
  opens : ∀ key nonce plaintext aad,
    P.aeadDecrypt key nonce (P.aeadEncrypt key nonce plaintext aad) aad = some plaintext
  rejects : ∀ {key other : AeadKey}, other ≠ key → ∀ nonce plaintext aad,
    P.aeadDecrypt other nonce (P.aeadEncrypt key nonce plaintext aad) aad = none

/-- The shared secret is not the all-zero one of a low-order point. -/
def Contributes (P : Primitives) (secret : P.DhSecret) (peer : P.DhPublic) : Prop :=
  (P.x25519 secret peer).1 ≠ List.replicate 32 0

instance (P : Primitives) (secret : P.DhSecret) (peer : P.DhPublic) :
    Decidable (P.Contributes secret peer) :=
  inferInstanceAs (Decidable (_ ≠ _))

/-- A key exchange to which the peer contributes gives the shared secret. -/
theorem diffieHellman_of_contributes {P : Primitives} {secret : P.DhSecret} {peer : P.DhPublic}
    (contributes : P.Contributes secret peer) :
    P.diffieHellman secret peer = some (P.x25519 secret peer) :=
  if_neg contributes

/-- A key exchange with a low-order point fails. -/
theorem diffieHellman_of_not_contributes {P : Primitives} {secret : P.DhSecret}
    {peer : P.DhPublic} (lowOrder : ¬P.Contributes secret peer) :
    P.diffieHellman secret peer = none :=
  if_pos (not_not.mp lowOrder)

end Primitives

/-- How long the tag of the symbolic cipher is. -/
theorem length_symbolicTag (key : AeadKey) (nonce : FixedBytes 24) (aad : Bytes) :
    (symbolicTag key nonce aad).length = 56 + (Bcs.toBytes aad).length := by
  rw [symbolicTag, List.length_append, List.length_append, key.bytes.2, nonce.2]

/-- The tag of the symbolic cipher names its key. -/
theorem symbolicTag_inj {key other : AeadKey} {nonce : FixedBytes 24} {aad : Bytes}
    (same : symbolicTag key nonce aad = symbolicTag other nonce aad) : key = other := by
  have whole := List.append_cancel_right (List.append_cancel_right same)
  cases key
  cases other
  exact congrArg AeadKey.mk (Subtype.ext whole)

/-- Both sides of a symbolic exchange share the same secret. -/
theorem symbolicShared_comm (first second : UInt8) :
    symbolicShared first second = symbolicShared second first := by
  have low : (if first ≤ second then first else second) =
      if second ≤ first then second else first := by
    grind
  have high : (if first ≤ second then second else first) =
      if second ≤ first then first else second := by
    grind
  have lowest : min first second = min second first := low
  have highest : max first second = max second first := high
  rw [symbolicShared, symbolicShared]
  simp only [lowest, highest]

/-- The symbolic primitives open what they have sealed. -/
theorem symbolic_sealing : symbolic.Sealing where
  agrees := symbolicShared_comm
  involutive key nonce bytes := by
    have twice : ∀ byte : UInt8, byte ^^^ byteSum key.1 ^^^ byteSum nonce.1 ^^^ byteSum key.1 ^^^
        byteSum nonce.1 = byte := by
      intro byte
      calc byte ^^^ byteSum key.1 ^^^ byteSum nonce.1 ^^^ byteSum key.1 ^^^ byteSum nonce.1 =
          byte ^^^ (byteSum key.1 ^^^ byteSum key.1) ^^^ (byteSum nonce.1 ^^^ byteSum nonce.1) := by
            ac_rfl
        _ = byte := by simp
    simp [Function.comp_def, twice]
  opens key nonce plaintext aad := by simp [stripPrefix]
  rejects := by
    intro key other apart nonce plaintext aad
    have front : (symbolicTag key nonce aad ++ plaintext).take
        (symbolicTag other nonce aad).length = symbolicTag key nonce aad := by
      rw [length_symbolicTag, ← length_symbolicTag key, List.take_left]
    have refused : ¬(symbolicTag key nonce aad ++ plaintext).take
        (symbolicTag other nonce aad).length = symbolicTag other nonce aad := by
      rw [front]
      exact fun same => apart (symbolicTag_inj same).symm
    exact if_neg refused

/-- No symbolic key is of low order. -/
theorem symbolic_contributes (secret peer : UInt8) : symbolic.Contributes secret peer := by
  intro same
  have first : (1 : UInt8) = 0 := (List.cons.inj same).1
  revert first
  decide

variable {P : Primitives}

namespace HeaderEncrypted

/-- The header of a recipient. -/
def sealedHeader (senderEsk : P.DhSecret) (key : AeadKey) (recipientMpk : P.DhPublic) :
    EncryptionHeader :=
  ⟨mpkShort recipientMpk,
    P.applyKeystream (P.x25519 senderEsk recipientMpk) zeroNonce key.bytes.1⟩

/-- What `encrypt_bytes` makes when it does not fail. -/
def sealed (senderEsk : P.DhSecret) (key : AeadKey) (plaintext : Bytes)
    (recipients : List P.DhPublic) : HeaderEncrypted P :=
  let headers := recipients.map (sealedHeader senderEsk key)
  ⟨P.dhPublicKey senderEsk, headers,
    P.aeadEncrypt key zeroNonce plaintext (headerAad (P.dhPublicKey senderEsk) headers)⟩

/-- Headers are sealed for all recipients, or for none when one of them has a low-order key. -/
theorem mapM_sealHeader (senderEsk : P.DhSecret) (key : AeadKey) (recipients : List P.DhPublic) :
    recipients.mapM (sealHeader senderEsk key) =
      if ∀ mpk ∈ recipients, P.Contributes senderEsk mpk then
        .ok (recipients.map (sealedHeader senderEsk key))
      else .error .dh := by
  induction recipients with
  | nil => rfl
  | cons mpk rest ih =>
      rw [List.mapM_cons, ih, sealHeader]
      by_cases contributes : P.Contributes senderEsk mpk
      · rw [P.diffieHellman_of_contributes contributes]
        by_cases others : ∀ other ∈ rest, P.Contributes senderEsk other
        · rw [if_pos others, if_pos (List.forall_mem_cons.mpr ⟨contributes, others⟩)]
          rfl
        · rw [if_neg others, if_neg fun all => others (List.forall_mem_cons.mp all).2]
          rfl
      · rw [P.diffieHellman_of_not_contributes contributes,
          if_neg fun all => contributes (List.forall_mem_cons.mp all).1]
        rfl

/-- Encryption succeeds exactly when there is a recipient, and no low-order key among them. -/
theorem encryptBytes_eq_ok {senderEsk : P.DhSecret} {key : AeadKey} {plaintext : Bytes}
    {recipients : List P.DhPublic} {encrypted : HeaderEncrypted P} :
    encryptBytes senderEsk key plaintext recipients = .ok encrypted ↔
      recipients ≠ [] ∧ (∀ mpk ∈ recipients, P.Contributes senderEsk mpk) ∧
        encrypted = sealed senderEsk key plaintext recipients := by
  rw [encryptBytes, mapM_sealHeader]
  by_cases contributes : ∀ mpk ∈ recipients, P.Contributes senderEsk mpk
  · rw [if_pos contributes]
    cases recipients with
    | nil => simp [bind, Except.bind]
    | cons mpk rest =>
        have made : (Except.ok (sealed senderEsk key plaintext (mpk :: rest)) :
            Except HeaderEncryptionError _) = .ok encrypted ↔
              encrypted = sealed senderEsk key plaintext (mpk :: rest) := by
          rw [Except.ok.injEq, eq_comm]
        rw [and_iff_right (List.cons_ne_nil _ _), and_iff_right contributes]
        exact made
  · rw [if_neg contributes]
    simp [bind, Except.bind, contributes]

/-- A header yields the plaintext, or nothing. -/
theorem openHeaders_sealed (sealing : P.Sealing) (senderEsk : P.DhSecret) (key : AeadKey)
    (plaintext : Bytes) (recipients : List P.DhPublic) (shared : FixedBytes 32)
    (headers : List EncryptionHeader) :
    (sealed senderEsk key plaintext recipients).openHeaders shared headers = none ∨
      (sealed senderEsk key plaintext recipients).openHeaders shared headers = some plaintext := by
  rw [openHeaders]
  induction headers with
  | nil => exact .inl rfl
  | cons header rest ih =>
      rw [List.findSome?_cons]
      cases FixedBytes.ofBytes? 32 (P.applyKeystream shared zeroNonce header.receiverKey) with
      | none => exact ih
      | some keyBytes =>
          by_cases same : (⟨keyBytes⟩ : AeadKey) = key
          · subst same
            have opened := sealing.opens ⟨keyBytes⟩ zeroNonce plaintext
              (headerAad (P.dhPublicKey senderEsk)
                (recipients.map (sealedHeader senderEsk ⟨keyBytes⟩)))
            right
            simp only [sealed, opened]
          · have refused := sealing.rejects same zeroNonce plaintext
              (headerAad (P.dhPublicKey senderEsk) (recipients.map (sealedHeader senderEsk key)))
            simp only [sealed, refused]
            exact ih

/-- Whoever opens a sealed payload gets what was sealed. -/
theorem decryptBytes_sealed_cases (sealing : P.Sealing) (senderEsk : P.DhSecret) (key : AeadKey)
    (plaintext : Bytes) (recipients : List P.DhPublic) (secret : P.DhSecret) :
    (∃ err, (sealed senderEsk key plaintext recipients).decryptBytes secret = .error err) ∨
      (sealed senderEsk key plaintext recipients).decryptBytes secret = .ok plaintext := by
  rw [decryptBytes]
  cases P.diffieHellman secret (sealed senderEsk key plaintext recipients).senderEpk with
  | none => exact .inl ⟨_, rfl⟩
  | some shared =>
      dsimp only
      rcases openHeaders_sealed sealing senderEsk key plaintext recipients shared
        ((sealed senderEsk key plaintext recipients).headers.filter fun header =>
          decide (header.receiverMpkShort = mpkShort (P.dhPublicKey secret))) with missed | opened
      · rw [missed]
        exact .inl ⟨_, rfl⟩
      · rw [opened]
        exact .inr rfl

/-- A recipient whose key contributes opens what was sealed for it. -/
theorem decryptBytes_sealed (sealing : P.Sealing) {senderEsk secret : P.DhSecret} {key : AeadKey}
    {plaintext : Bytes} {recipients : List P.DhPublic}
    (listed : P.dhPublicKey secret ∈ recipients)
    (contributes : P.Contributes senderEsk (P.dhPublicKey secret)) :
    (sealed senderEsk key plaintext recipients).decryptBytes secret = .ok plaintext := by
  have agreed := sealing.agrees senderEsk secret
  have returned : P.Contributes secret (P.dhPublicKey senderEsk) := by
    rwa [Primitives.Contributes, ← agreed]
  have own : sealedHeader senderEsk key (P.dhPublicKey secret) ∈
      (sealed senderEsk key plaintext recipients).headers.filter fun header =>
        decide (header.receiverMpkShort = mpkShort (P.dhPublicKey secret)) :=
    List.mem_filter.mpr ⟨List.mem_map.mpr ⟨_, listed, rfl⟩, decide_eq_true rfl⟩
  have opened : (sealed senderEsk key plaintext recipients).openHeaders
      (P.x25519 secret (P.dhPublicKey senderEsk))
      ((sealed senderEsk key plaintext recipients).headers.filter fun header =>
        decide (header.receiverMpkShort = mpkShort (P.dhPublicKey secret))) = some plaintext := by
    refine (openHeaders_sealed sealing senderEsk key plaintext recipients _ _).resolve_left ?_
    intro missed
    -- The recipient's own header carries the message key.
    have refused := List.findSome?_eq_none_iff.mp missed _ own
    have unsealed : P.applyKeystream (P.x25519 secret (P.dhPublicKey senderEsk)) zeroNonce
        (sealedHeader senderEsk key (P.dhPublicKey secret)).receiverKey = key.bytes.1 := by
      rw [sealedHeader, agreed]
      exact sealing.involutive _ _ _
    simp only [unsealed, FixedBytes.ofBytes?_val, sealed, sealing.opens] at refused
    cases refused
  rw [decryptBytes]
  simp only [sealed, P.diffieHellman_of_contributes returned] at opened ⊢
  rw [opened]

/-- What is sealed for a list of keys can be opened with the secret of each, and as well from
the bytes in which it travels. -/
theorem decryptBytes_encryptBytes (sealing : P.Sealing) {senderEsk : P.DhSecret}
    {recipients : List P.DhPublic} (nonempty : recipients ≠ [])
    (contributes : ∀ mpk ∈ recipients, P.Contributes senderEsk mpk) (key : AeadKey)
    (plaintext : Bytes) :
    ∃ encrypted : HeaderEncrypted P,
      encryptBytes senderEsk key plaintext recipients = .ok encrypted ∧
        ∀ secret, P.dhPublicKey secret ∈ recipients →
          encrypted.decryptBytes secret = .ok plaintext ∧
            ∃ received : HeaderEncrypted P, Bcs.fromBytes (Bcs.toBytes encrypted) = some received ∧
              received.decryptBytes secret = .ok plaintext := by
  refine ⟨sealed senderEsk key plaintext recipients,
    encryptBytes_eq_ok.mpr ⟨nonempty, contributes, rfl⟩, ?_⟩
  intro secret listed
  have opened := @decryptBytes_sealed P sealing senderEsk secret key plaintext recipients listed
    (contributes _ listed)
  exact ⟨opened, _, Bcs.fromBytes_toBytes _, opened⟩

/-- Two recipients, one of them twice. -/
theorem decryptBytes_encryptBytes_repeated :
    ∃ encrypted : HeaderEncrypted symbolic,
      encryptBytes (9 : UInt8) (symbolicKey 5) (utf8 "hello recipients")
        [aliceMedium, bobbyMedium, aliceMedium] = .ok encrypted ∧
        ∀ secret, symbolic.dhPublicKey secret ∈ [aliceMedium, bobbyMedium, aliceMedium] →
          encrypted.decryptBytes secret = .ok (utf8 "hello recipients") ∧
            ∃ received : HeaderEncrypted symbolic,
              Bcs.fromBytes (Bcs.toBytes encrypted) = some received ∧
                received.decryptBytes secret = .ok (utf8 "hello recipients") :=
  decryptBytes_encryptBytes symbolic_sealing (List.cons_ne_nil _ _)
    (fun _ _ => symbolic_contributes _ _) _ _

end HeaderEncrypted
end Nullspace
