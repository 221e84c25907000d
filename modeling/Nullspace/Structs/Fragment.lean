import Mathlib.Algebra.GroupWithZero.Nat
import Nullspace.Structs.Server

/-!
# Sizes of attachments

Attachments and fragment nodes list their children with declared sizes. Sums of sizes are
checked: the release profile aborts the process on an overflow. Offsets saturate instead.
-/

namespace Nullspace

open Nullspace.Base

variable {P : Primitives}

/-- `total_size`, of attachments and of nodes; `none` is an overflow, which aborts. -/
def totalSize (children : List (P.Hash × UInt64)) : Option UInt64 :=
  children.foldlM (fun total child =>
    if total.toNat + child.2.toNat < 2 ^ 64 then some (total + child.2) else none) 0

/-- `u64::saturating_add`. -/
def saturatingAdd (first second : UInt64) : UInt64 :=
  UInt64.ofNat (min (first.toNat + second.toNat) (2 ^ 64 - 1))

/-- The children, each with its offset. -/
def offsetsFrom (offset : UInt64) : List (P.Hash × UInt64) → List (P.Hash × UInt64)
  | [] => []
  | (hash, size) :: rest => (hash, offset) :: offsetsFrom (saturatingAdd offset size) rest

/-- `child_offsets`. -/
def childOffsets (attachment : Attachment P) : List (P.Hash × UInt64) :=
  offsetsFrom 0 attachment.children

/-- The sum of the declared sizes. -/
def sizeSum (children : List (P.Hash × UInt64)) : Nat := (children.map fun child => child.2.toNat).sum

@[simp] theorem sizeSum_nil : sizeSum ([] : List (P.Hash × UInt64)) = 0 := rfl

@[simp] theorem sizeSum_cons (child : P.Hash × UInt64) (children : List (P.Hash × UInt64)) :
    sizeSum (child :: children) = child.2.toNat + sizeSum children := by
  rw [sizeSum, List.map_cons, List.sum_cons]
  rfl

/-- Sizes of children add up. -/
theorem sizeSum_append (first second : List (P.Hash × UInt64)) :
    sizeSum (first ++ second) = sizeSum first + sizeSum second := by
  rw [sizeSum, sizeSum, sizeSum, List.map_append, List.sum_append]

/-- A sum of sizes from a start value stops where it leaves the 64 bits. -/
theorem totalSize_from (start : UInt64) (children : List (P.Hash × UInt64)) :
    (children.foldlM (fun total child =>
      if total.toNat + child.2.toNat < 2 ^ 64 then some (total + child.2) else none) start) =
      if start.toNat + sizeSum children < 2 ^ 64 then
        some (UInt64.ofNat (start.toNat + sizeSum children)) else none := by
  induction children generalizing start with
  | nil =>
      have small := start.toNat_lt
      rw [sizeSum_nil, Nat.add_zero, if_pos small, UInt64.ofNat_toNat]
      rfl
  | cons child children ih =>
      rw [List.foldlM_cons, sizeSum_cons]
      by_cases fits : start.toNat + child.2.toNat < 2 ^ 64
      · have sum : (start + child.2).toNat = start.toNat + child.2.toNat := by
          rw [UInt64.toNat_add]
          exact Nat.mod_eq_of_lt fits
        rw [if_pos fits]
        refine (ih (start + child.2)).trans ?_
        rw [sum, Nat.add_assoc]
      · rw [if_neg fits, if_neg (by omega)]
        rfl

/-- The sum of the sizes is computed exactly when it fits. -/
theorem totalSize_eq (children : List (P.Hash × UInt64)) :
    totalSize children =
      if sizeSum children < 2 ^ 64 then some (UInt64.ofNat (sizeSum children)) else none := by
  refine (totalSize_from 0 children).trans ?_
  simp

/-- The total is the sum of the sizes, when it is given. -/
theorem totalSize_eq_some {children : List (P.Hash × UInt64)} {total : UInt64} :
    totalSize children = some total ↔ total.toNat = sizeSum children := by
  rw [totalSize_eq]
  constructor
  · intro computed
    obtain ⟨fits, same⟩ := Option.ite_none_right_eq_some.mp computed
    rw [← Option.some.inj same]
    exact UInt64.toNat_ofNat_of_lt' fits
  · intro same
    rw [if_pos (same ▸ total.toNat_lt), ← same, UInt64.ofNat_toNat]

/-- There is no total when the sizes leave the 64 bits. -/
theorem totalSize_eq_none {children : List (P.Hash × UInt64)} :
    totalSize children = none ↔ 2 ^ 64 ≤ sizeSum children := by
  rw [totalSize_eq]
  split <;> simp <;> omega

/-- A saturating sum below the limit is the sum. -/
theorem saturatingAdd_of_lt {first second : UInt64} (fits : first.toNat + second.toNat < 2 ^ 64) :
    (saturatingAdd first second).toNat = first.toNat + second.toNat := by
  rw [saturatingAdd, Nat.min_eq_left (by omega)]
  exact UInt64.toNat_ofNat_of_lt' fits

end Nullspace
