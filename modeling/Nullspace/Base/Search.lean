import Mathlib.Data.Nat.Find
import Mathlib.Logic.Function.Iterate
import Mathlib.Tactic.Common

/-!
# Trying one position after the other

A loop without a bound, as far as a number of turns lets it come. `searchFrom_eq_some_iff` says
what it returns: the result of the first position which has one.
-/

namespace Nullspace.Base

universe u v

variable {Position : Type u} {Result : Type v} (attempt : Position → Option Result)
  (next : Position → Position)

/-- The result of the first position which has one, within a number of turns. -/
def searchFrom : Nat → Position → Option Result
  | 0, _ => none
  | turns + 1, position =>
      match attempt position with
      | some result => some result
      | none => searchFrom turns (next position)

variable {attempt next}

/-- A search finds what the first successful attempt gives, within its number of turns. -/
theorem searchFrom_eq_some_iff {turns : Nat} {start : Position} {result : Result} :
    searchFrom attempt next turns start = some result ↔
      ∃ steps < turns, attempt (next^[steps] start) = some result ∧
        ∀ earlier < steps, attempt (next^[earlier] start) = none := by
  induction turns generalizing start with
  | zero => simp [searchFrom]
  | succ turns ih =>
      rw [searchFrom]
      cases tried : attempt start with
      | some found =>
          constructor
          · intro same
            exact ⟨0, Nat.succ_pos turns, tried.trans same, fun _ before => by omega⟩
          · rintro ⟨steps, -, found, nothing⟩
            cases steps with
            | zero => exact tried.symm.trans found
            | succ steps =>
                have first : attempt start = none := nothing 0 (Nat.succ_pos steps)
                rw [tried] at first
                cases first
      | none =>
          dsimp only
          rw [ih]
          constructor
          · rintro ⟨steps, bound, found, nothing⟩
            refine ⟨steps + 1, Nat.succ_lt_succ bound, found, ?_⟩
            intro earlier before
            cases earlier with
            | zero => exact tried
            | succ earlier => exact nothing earlier (Nat.lt_of_succ_lt_succ before)
          · rintro ⟨steps, bound, found, nothing⟩
            cases steps with
            | zero =>
                rw [Function.iterate_zero_apply, tried] at found
                cases found
            | succ steps =>
                exact ⟨steps, Nat.lt_of_succ_lt_succ bound, found, fun earlier before =>
                  nothing (earlier + 1) (Nat.succ_lt_succ before)⟩

/-- Some number of turns is enough exactly when a position has a result. -/
theorem exists_searchFrom_iff {start : Position} :
    (∃ turns result, searchFrom attempt next turns start = some result) ↔
      ∃ steps result, attempt (next^[steps] start) = some result := by
  constructor
  · rintro ⟨turns, result, found⟩
    obtain ⟨steps, -, tried, -⟩ := searchFrom_eq_some_iff.mp found
    exact ⟨steps, result, tried⟩
  · intro somewhere
    classical
    obtain ⟨result, tried⟩ := Nat.find_spec somewhere
    refine ⟨Nat.find somewhere + 1, result, searchFrom_eq_some_iff.mpr
      ⟨Nat.find somewhere, Nat.lt_succ_self _, tried, ?_⟩⟩
    intro earlier before
    have nothing := Nat.find_min somewhere before
    exact Option.eq_none_iff_forall_ne_some.mpr fun other found => nothing ⟨other, found⟩

end Nullspace.Base
