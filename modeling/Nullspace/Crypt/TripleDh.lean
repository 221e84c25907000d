import Mathlib.Data.List.Lex
import Mathlib.Data.Prod.Lex
import Nullspace.Structs.Sealing

/-!
# Triple Diffie-Hellman

Two parties combine the secrets of their long-term and ephemeral keys into one key. The two
cross products have to come in the same order on both sides: the party whose public keys are
less gives its long-term one first. `tripleDh_symmetric` says that both get the same key, or
both an error.
-/

namespace Nullspace

open Nullspace.Base

section Agreement

variable {Party Value : Type} [LinearOrder Party]

/-- Two values, the one of the lesser party first. -/
def lesserFirst (near far : Party) (first second : Value) : Value × Value :=
  if near ≤ far then (first, second) else (second, first)

/-- Both parties have the same order when the values of equal parties are equal. -/
theorem lesserFirst_comm {near far : Party} {first second : Value}
    (tie : near = far → first = second) :
    lesserFirst near far first second = lesserFirst far near second first := by
  unfold lesserFirst
  rcases lt_trichotomy near far with before | equal | after
  · rw [if_pos before.le, if_neg before.not_ge]
  · rw [if_pos equal.le, if_pos equal.ge, tie equal]
  · rw [if_neg after.not_ge, if_pos after.le]

end Agreement

variable {P : Primitives}

/-- `triple_dh_key`. -/
def tripleDhKey (dh1 dh2 dh3 : FixedBytes 32) : Bytes :=
  P.hashBytes (P.digest (dh1.1 ++ dh2.1 ++ dh3.1))

/-- The pair of public keys by which `triple_dh` orders the parties, byte by byte. `toBytes` is
`DhPublic::to_bytes`. -/
def tripleDhId (toBytes : P.DhPublic → FixedBytes 32) (longTerm ephemeral : P.DhPublic) :
    Lex (List Nat × List Nat) :=
  toLex ((toBytes longTerm).1.map UInt8.toNat, (toBytes ephemeral).1.map UInt8.toNat)

/-- `triple_dh`. -/
def tripleDh (toBytes : P.DhPublic → FixedBytes 32) (localLongTerm localEphemeral : P.DhSecret)
    (remoteLongTerm remoteEphemeral : P.DhPublic) : Option Bytes := do
  let localLtPub := P.dhPublicKey localLongTerm
  let localEphPub := P.dhPublicKey localEphemeral
  let dh1 ← P.diffieHellman localLongTerm remoteEphemeral
  let dh2 ← P.diffieHellman localEphemeral remoteLongTerm
  let dh3 ← P.diffieHellman localEphemeral remoteEphemeral
  let localId := tripleDhId toBytes localLtPub localEphPub
  let remoteId := tripleDhId toBytes remoteLongTerm remoteEphemeral
  let ordered := lesserFirst localId remoteId dh1 dh2
  some (tripleDhKey (P := P) ordered.1 ordered.2 dh3)

/-! ## Both sides -/

/-- The byte strings determine the keys. -/
theorem tripleDhId_inj {toBytes : P.DhPublic → FixedBytes 32}
    (distinct : Function.Injective toBytes) {longTerm ephemeral longTerm' ephemeral' : P.DhPublic}
    (same : tripleDhId toBytes longTerm ephemeral = tripleDhId toBytes longTerm' ephemeral') :
    longTerm = longTerm' ∧ ephemeral = ephemeral' := by
  have bytes : Function.Injective fun key => (toBytes key).1.map UInt8.toNat :=
    (List.map_injective_iff.mpr fun _ _ => UInt8.toNat_inj.mp).comp
      (Subtype.val_injective.comp distinct)
  obtain ⟨first, second⟩ := Prod.mk.inj (toLex.injective same)
  exact ⟨bytes first, bytes second⟩

/-- Parties with the same public keys have the same cross products. -/
theorem crossProducts_tie
    (exchange : ∀ first second : P.DhSecret,
      P.diffieHellman first (P.dhPublicKey second) = P.diffieHellman second (P.dhPublicKey first))
    {aLongTerm aEphemeral bLongTerm bEphemeral : P.DhSecret}
    (longTerm : P.dhPublicKey aLongTerm = P.dhPublicKey bLongTerm)
    (ephemeral : P.dhPublicKey aEphemeral = P.dhPublicKey bEphemeral) :
    P.diffieHellman aLongTerm (P.dhPublicKey bEphemeral) =
      P.diffieHellman aEphemeral (P.dhPublicKey bLongTerm) := by
  rw [← ephemeral, ← longTerm]
  exact exchange aLongTerm aEphemeral

/-- Both parties compute the same key, or neither computes one. -/
theorem tripleDh_symmetric (toBytes : P.DhPublic → FixedBytes 32)
    (distinct : Function.Injective toBytes)
    (exchange : ∀ first second : P.DhSecret,
      P.diffieHellman first (P.dhPublicKey second) = P.diffieHellman second (P.dhPublicKey first))
    (aLongTerm aEphemeral bLongTerm bEphemeral : P.DhSecret) :
    tripleDh toBytes aLongTerm aEphemeral (P.dhPublicKey bLongTerm) (P.dhPublicKey bEphemeral) =
      tripleDh toBytes bLongTerm bEphemeral (P.dhPublicKey aLongTerm)
        (P.dhPublicKey aEphemeral) := by
  have tie := @crossProducts_tie P exchange aLongTerm aEphemeral bLongTerm bEphemeral
  -- The second party's products are those of the first, the cross products exchanged.
  simp only [tripleDh]
  rw [exchange bLongTerm aEphemeral, exchange bEphemeral aLongTerm, exchange bEphemeral aEphemeral]
  cases first : P.diffieHellman aLongTerm (P.dhPublicKey bEphemeral) with
  | none => cases P.diffieHellman aEphemeral (P.dhPublicKey bLongTerm) <;> rfl
  | some dh1 =>
      cases second : P.diffieHellman aEphemeral (P.dhPublicKey bLongTerm) with
      | none => rfl
      | some dh2 =>
          have equal : tripleDhId toBytes (P.dhPublicKey aLongTerm) (P.dhPublicKey aEphemeral) =
              tripleDhId toBytes (P.dhPublicKey bLongTerm) (P.dhPublicKey bEphemeral) →
              dh1 = dh2 := by
            intro same
            obtain ⟨longTerm, ephemeral⟩ := tripleDhId_inj distinct same
            have products := tie longTerm ephemeral
            rw [first, second] at products
            exact Option.some.inj products
          simp only [Option.bind_eq_bind, Option.bind_some, lesserFirst_comm equal]

/-- Two parties of whom one uses its long-term key for both, and one who talks to itself. -/
theorem tripleDh_symmetric_symbolic :
    tripleDh (P := symbolic) (fun key => ⟨List.replicate 32 key, List.length_replicate⟩) 3 3
        (symbolic.dhPublicKey 3) (symbolic.dhPublicKey 9) =
      tripleDh (P := symbolic) (fun key => ⟨List.replicate 32 key, List.length_replicate⟩) 3 9
        (symbolic.dhPublicKey 3) (symbolic.dhPublicKey 3) := by
  refine tripleDh_symmetric (P := symbolic) _ ?_ ?_ 3 3 3 9
  · intro first second same
    exact (List.cons.inj (congrArg Subtype.val same)).1
  · intro first second
    simp only [Primitives.diffieHellman, symbolicShared_comm first second]

end Nullspace
