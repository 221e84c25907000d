import Mathlib.Data.Nat.Basic
import Mathlib.Tactic.Common

/-!
# Repeating a step which may fail

`retry` repeats a numbered step on a state until it succeeds, a bounded number of times. When
the success of an attempt depends on its number alone, `retry_ok_iff` says which attempts make
the whole succeed; `retry_holds_iff` says what the failed attempts leave behind.
-/

namespace Nullspace.Base

universe u v w

variable {State : Type u} {Err : Type v} {Value : Type w}

/-- Attempts from the given number on: one, and some more as long as they fail. -/
def retry (step : Nat → State → State × Except Err Value) :
    Nat → Nat → State → State × Except Err Value
  | 0, attempt, state => step attempt state
  | more + 1, attempt, state =>
      match step attempt state with
      | (next, .ok value) => (next, .ok value)
      | (next, .error _) => retry step more (attempt + 1) next

/-- The outcome is a success. -/
def Succeeds (outcome : Except Err Value) : Prop := ∃ value, outcome = .ok value

variable {step : Nat → State → State × Except Err Value} {succeeds leaves : Nat → Prop}
  {holds : State → Prop}

/-- The first attempt which succeeds is the last one. -/
theorem retry_succ_of_ok {more attempt : Nat} {state : State}
    (succeeded : Succeeds (step attempt state).2) :
    retry step (more + 1) attempt state = step attempt state := by
  obtain ⟨value, outcome⟩ := succeeded
  rw [retry]
  split <;> rename_i taken
  · exact taken.symm
  · rw [taken] at outcome
    cases outcome

/-- After a failed attempt the next one goes on from the state which it left. -/
theorem retry_succ_of_error {more attempt : Nat} {state : State}
    (failed : ¬Succeeds (step attempt state).2) :
    retry step (more + 1) attempt state = retry step more (attempt + 1) (step attempt state).1 := by
  rw [retry]
  split <;> rename_i taken
  · rw [taken] at failed
    exact absurd ⟨_, rfl⟩ failed
  · rw [taken]

/-- The whole succeeds exactly when one of its attempts does. -/
theorem retry_ok_iff
    (independent : ∀ attempt state, Succeeds (step attempt state).2 ↔ succeeds attempt)
    (more attempt : Nat) (state : State) :
    Succeeds (retry step more attempt state).2 ↔
      ∃ later, attempt ≤ later ∧ later ≤ attempt + more ∧ succeeds later := by
  induction more generalizing attempt state with
  | zero =>
      rw [retry, independent]
      constructor
      · exact fun now => ⟨attempt, le_rfl, le_rfl, now⟩
      · rintro ⟨later, first, last, success⟩
        rwa [le_antisymm first last]
  | succ more ih =>
      by_cases now : succeeds attempt
      · rw [retry_succ_of_ok ((independent attempt state).mpr now), independent]
        exact iff_of_true now ⟨attempt, le_rfl, Nat.le_add_right _ _, now⟩
      · rw [retry_succ_of_error (mt (independent attempt state).mp now), ih]
        constructor
        · rintro ⟨later, first, last, success⟩
          exact ⟨later, Nat.le_of_succ_le first, by omega, success⟩
        · rintro ⟨later, first, last, success⟩
          have further : attempt ≠ later := by
            rintro rfl
            exact now success
          exact ⟨later, by omega, by omega, success⟩

/-- When no attempt succeeds, what holds in the end held before or is left by an attempt. -/
theorem retry_holds_iff
    (effect : ∀ attempt state, holds (step attempt state).1 ↔ holds state ∨ leaves attempt)
    (more attempt : Nat) (state : State)
    (failed : ¬Succeeds (retry step more attempt state).2) :
    holds (retry step more attempt state).1 ↔
      holds state ∨ ∃ later, attempt ≤ later ∧ later ≤ attempt + more ∧ leaves later := by
  induction more generalizing attempt state with
  | zero =>
      rw [retry, effect]
      refine or_congr_right ⟨fun now => ⟨attempt, le_rfl, le_rfl, now⟩, ?_⟩
      rintro ⟨later, first, last, left⟩
      rwa [le_antisymm first last]
  | succ more ih =>
      have now : ¬Succeeds (step attempt state).2 := by
        intro success
        rw [retry_succ_of_ok success] at failed
        exact failed success
      rw [retry_succ_of_error now] at failed ⊢
      rw [ih _ _ failed, effect, or_assoc]
      apply or_congr_right
      constructor
      · rintro (left | ⟨later, first, last, left⟩)
        · exact ⟨attempt, le_rfl, Nat.le_add_right _ _, left⟩
        · exact ⟨later, Nat.le_of_succ_le first, by omega, left⟩
      · rintro ⟨later, first, last, left⟩
        by_cases same : attempt = later
        · exact .inl (same ▸ left)
        · exact .inr ⟨later, by omega, by omega, left⟩

end Nullspace.Base
