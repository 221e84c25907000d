import Nullspace.Base.Retry
import Nullspace.Structs.Fragment

/-!
# How long failed sends wait

`retryBackoff` runs a step until it succeeds, eight times at most, and sleeps in between.
`retryBackoff_outcome` says that apart from the delays it is `retry`, and
`transientBackoff_iff` for which attempt numbers the delay is the one which is expected of
it. The delays of a run never get shorter.
-/

namespace Nullspace

open Nullspace.Base

universe u v w

/-- `u64::checked_shl`. -/
def checkedShl (value : UInt64) (shift : UInt32) : Option UInt64 :=
  if shift < 64 then some (value <<< shift.toUInt64) else none

/-- `u64::saturating_mul`. -/
def saturatingMul (first second : UInt64) : UInt64 :=
  UInt64.ofNat (min (first.toNat * second.toNat) (2 ^ 64 - 1))

/-- `BASE_MS`. -/
def backoffBaseMs : UInt64 := 25

/-- `MAX_MS`. -/
def backoffMaxMs : UInt64 := 20000

/-- `transient_backoff`, in milliseconds. -/
def transientBackoff (transientAttempt : UInt32) : UInt64 :=
  let shift := min transientAttempt 62
  let factor := (checkedShl 1 shift).getD (UInt64.ofNat (2 ^ 64 - 1))
  min (saturatingMul backoffBaseMs factor) backoffMaxMs

theorem toNat_min_uInt32 (first second : UInt32) :
    (min first second).toNat = min first.toNat second.toNat := by
  rw [show min first second = if first ≤ second then first else second from rfl]
  split <;> rename_i order <;> rw [UInt32.le_iff_toNat_le] at order <;> omega

theorem toNat_min_uInt64 (first second : UInt64) :
    (min first second).toNat = min first.toNat second.toNat := by
  rw [show min first second = if first ≤ second then first else second from rfl]
  split <;> rename_i order <;> rw [UInt64.le_iff_toNat_le] at order <;> omega

theorem toNat_saturatingMul (first second : UInt64) :
    (saturatingMul first second).toNat = min (first.toNat * second.toNat) (2 ^ 64 - 1) := by
  rw [saturatingMul, UInt64.toNat_ofNat', Nat.mod_eq_of_lt (by omega)]

/-- One shifted by less than 64 is a power of two. -/
theorem checkedShl_one {shift : UInt32} (small : shift.toNat < 64) :
    ∃ shifted, checkedShl 1 shift = some shifted ∧ shifted.toNat = 2 ^ shift.toNat := by
  refine ⟨1 <<< shift.toUInt64, if_pos (UInt32.lt_iff_toNat_lt.mpr small), ?_⟩
  have fits : 2 ^ shift.toNat < 2 ^ 64 := Nat.pow_lt_pow_right (by decide) small
  rw [UInt64.toNat_shiftLeft, UInt32.toNat_toUInt64, Nat.mod_eq_of_lt small, Nat.shiftLeft_eq,
    show (1 : UInt64).toNat = 1 from rfl, Nat.one_mul, Nat.mod_eq_of_lt fits]

/-- Doubled for every attempt, and cut off at twenty seconds. -/
theorem transientBackoff_toNat (attempt : UInt32) :
    (transientBackoff attempt).toNat = min (25 * 2 ^ attempt.toNat) 20000 := by
  have clamped : (min attempt 62).toNat = min attempt.toNat 62 := toNat_min_uInt32 _ _
  obtain ⟨factor, shifted, power⟩ := @checkedShl_one (min attempt 62) (by omega)
  rw [transientBackoff, shifted, Option.getD_some, toNat_min_uInt64, toNat_saturatingMul, power,
    clamped, show backoffBaseMs.toNat = 25 from rfl, show backoffMaxMs.toNat = 20000 from rfl]
  by_cases early : attempt.toNat ≤ 10
  · have bound : 2 ^ attempt.toNat ≤ 2 ^ 10 := Nat.pow_le_pow_right (by decide) early
    rw [Nat.min_eq_left (Nat.le_trans early (by decide))]
    omega
  · have bound : 2 ^ 10 ≤ 2 ^ attempt.toNat := Nat.pow_le_pow_right (by decide) (by omega)
    have clampedBound : 2 ^ 10 ≤ 2 ^ min attempt.toNat 62 :=
      Nat.pow_le_pow_right (by decide) (by omega)
    omega

/-- What is expected of the delay: doubled for every attempt, and cut off at two seconds. -/
def DoublesAndCaps (attempt : UInt32) : Prop :=
  (transientBackoff attempt).toNat = min (25 * 2 ^ attempt.toNat) 2000

/-- The delay is as expected exactly for attempts below 7. -/
theorem doublesAndCaps_iff (attempt : UInt32) : DoublesAndCaps attempt ↔ attempt < 7 := by
  rw [DoublesAndCaps, transientBackoff_toNat, UInt32.lt_iff_toNat_lt]
  by_cases early : attempt.toNat < 7
  · have bound : 2 ^ attempt.toNat ≤ 2 ^ 6 := Nat.pow_le_pow_right (by decide) (by omega)
    exact iff_of_true (by omega) early
  · have bound : 2 ^ 7 ≤ 2 ^ attempt.toNat := Nat.pow_le_pow_right (by decide) (by omega)
    exact iff_of_false (by omega) early

/-- A later attempt waits no less. -/
theorem transientBackoff_mono {earlier later : UInt32} (order : earlier.toNat ≤ later.toNat) :
    (transientBackoff earlier).toNat ≤ (transientBackoff later).toNat := by
  rw [transientBackoff_toNat, transientBackoff_toNat]
  have powers : 2 ^ earlier.toNat ≤ 2 ^ later.toNat := Nat.pow_le_pow_right (by decide) order
  omega

variable {State : Type u} {Err : Type v} {Value : Type w}

/-- `u32::saturating_add` with one. -/
def UInt32.saturatingSucc (attempts : UInt32) : UInt32 :=
  UInt32.ofNat (min (attempts.toNat + 1) (2 ^ 32 - 1))

/-- Among few attempts the next one has the next number. -/
theorem UInt32.toNat_saturatingSucc {attempts : UInt32} (few : attempts < 7) :
    (UInt32.saturatingSucc attempts).toNat = attempts.toNat + 1 := by
  have bound : attempts.toNat < 7 := UInt32.lt_iff_toNat_lt.mp few
  rw [UInt32.saturatingSucc, UInt32.toNat_ofNat', Nat.mod_eq_of_lt (by omega)]
  omega

/-- A turn of the loop leaves fewer. -/
theorem attempts_left {attempts : UInt32} (few : attempts < 7) :
    7 - (UInt32.saturatingSucc attempts).toNat < 7 - attempts.toNat := by
  have bound : attempts.toNat < 7 := UInt32.lt_iff_toNat_lt.mp few
  rw [UInt32.toNat_saturatingSucc few]
  omega

/-- What `retry_backoff` leaves: the state, the delays for which it slept, and its result. -/
structure Retried (State : Type u) (Err : Type v) (Value : Type w) where
  state : State
  delays : List UInt64
  outcome : Except Err Value

/-- `retry_backoff` with a number of attempts behind it. -/
def retryBackoff (step : Nat → State → State × Except Err Value) (attempts : UInt32)
    (state : State) : Retried State Err Value :=
  match step attempts.toNat state with
  | (next, .ok value) => ⟨next, [], .ok value⟩
  | (next, .error err) =>
      if attempts < 7 then
        let later := retryBackoff step (UInt32.saturatingSucc attempts) next
        ⟨later.state, transientBackoff attempts :: later.delays, later.outcome⟩
      else ⟨next, [], .error err⟩
termination_by 7 - attempts.toNat
decreasing_by exact attempts_left ‹_›

variable {step : Nat → State → State × Except Err Value} {attempts : UInt32} {state : State}

/-- Apart from its delays the loop is the bounded repetition. -/
theorem retryBackoff_outcome (step : Nat → State → State × Except Err Value)
    (attempts : UInt32) (state : State) :
    ((retryBackoff step attempts state).state, (retryBackoff step attempts state).outcome) =
      retry step (7 - attempts.toNat) attempts.toNat state := by
  induction attempts, state using retryBackoff.induct step with
  | case1 attempts state next value taken =>
      rw [retryBackoff, taken]
      cases 7 - attempts.toNat with
      | zero => rw [retry, taken]
      | succ more => rw [retry, taken]
  | case2 attempts state next err taken few ih =>
      rw [retryBackoff, taken]
      have bound : attempts.toNat < 7 := UInt32.lt_iff_toNat_lt.mp few
      rw [show 7 - attempts.toNat = 7 - (attempts.toNat + 1) + 1 by omega, retry, taken]
      rw [UInt32.toNat_saturatingSucc few] at ih
      simpa only [few, if_true] using ih
  | case3 attempts state next err taken many =>
      rw [retryBackoff, taken]
      have bound : ¬attempts.toNat < 7 :=
        fun early => many (UInt32.lt_iff_toNat_lt.mpr early)
      rw [show 7 - attempts.toNat = 0 by omega, retry, taken]
      simp only [many, if_false]

/-- The delays belong to the attempts from the given one on, which are less than seven. -/
theorem retryBackoff_delays (step : Nat → State → State × Except Err Value)
    (attempts : UInt32) (state : State) :
    ∃ taken : List UInt32, (retryBackoff step attempts state).delays = taken.map transientBackoff ∧
      (∀ attempt ∈ taken, attempts.toNat ≤ attempt.toNat ∧ attempt < 7) ∧
      taken.Pairwise fun earlier later => earlier.toNat ≤ later.toNat := by
  induction attempts, state using retryBackoff.induct step with
  | case1 attempts state next value taken =>
      rw [retryBackoff, taken]
      exact ⟨[], rfl, by simp, .nil⟩
  | case2 attempts state next err taken few ih =>
      obtain ⟨later, delays, bounds, sorted⟩ := ih
      rw [UInt32.toNat_saturatingSucc few] at bounds
      refine ⟨attempts :: later, ?_, ?_, .cons ?_ sorted⟩
      · rw [retryBackoff, taken]
        simp only [few, if_true, delays, List.map_cons]
      · intro attempt listed
        rcases List.mem_cons.mp listed with rfl | listed
        · exact ⟨le_rfl, few⟩
        · exact ⟨Nat.le_of_succ_le (bounds attempt listed).1, (bounds attempt listed).2⟩
      · exact fun attempt listed => Nat.le_of_succ_le (bounds attempt listed).1
  | case3 attempts state next err taken many =>
      rw [retryBackoff, taken]
      exact ⟨[], by simp only [many, if_false, List.map_nil], by simp, .nil⟩

/-- The delays of a retried call do not fall. -/
theorem retryBackoff_delays_sorted (step : Nat → State → State × Except Err Value)
    (attempts : UInt32) (state : State) :
    (retryBackoff step attempts state).delays.Pairwise
      fun earlier later => earlier.toNat ≤ later.toNat := by
  obtain ⟨taken, delays, -, sorted⟩ := retryBackoff_delays step attempts state
  rw [delays, List.pairwise_map]
  exact sorted.imp transientBackoff_mono

/-- No delay of a retried call is above two seconds. -/
theorem retryBackoff_delays_bounded (step : Nat → State → State × Except Err Value)
    (attempts : UInt32) (state : State) :
    ∀ delay ∈ (retryBackoff step attempts state).delays, delay.toNat ≤ 2000 := by
  obtain ⟨taken, delays, bounds, -⟩ := retryBackoff_delays step attempts state
  intro delay listed
  rw [delays] at listed
  obtain ⟨attempt, among, rfl⟩ := List.mem_map.mp listed
  have expected : DoublesAndCaps attempt :=
    (doublesAndCaps_iff attempt).mpr (bounds attempt among).2
  rw [DoublesAndCaps] at expected
  omega

/-- The delay is the expected one for the attempts before the seventh and for no other. The
loop sleeps after no other, so its delays never get shorter and stay within two seconds. -/
theorem transientBackoff_iff :
    (∀ attempt : UInt32,
      (transientBackoff attempt).toNat = min (25 * 2 ^ attempt.toNat) 2000 ↔ attempt < 7) ∧
    (∀ attempt : UInt32,
      (transientBackoff attempt).toNat = min (25 * 2 ^ attempt.toNat) 20000) ∧
    ∀ (step : Nat → State → State × Except Err Value) (state : State),
      ((retryBackoff step 0 state).delays.Pairwise
        fun earlier later => earlier.toNat ≤ later.toNat) ∧
      ∀ delay ∈ (retryBackoff step 0 state).delays, delay.toNat ≤ 2000 :=
  ⟨doublesAndCaps_iff, transientBackoff_toNat, fun step state =>
    ⟨retryBackoff_delays_sorted step 0 state, retryBackoff_delays_bounded step 0 state⟩⟩

/-- After the seventh failure the delay would be over three seconds. -/
theorem transientBackoff_seven :
    ¬∀ attempt : UInt32,
      (transientBackoff attempt).toNat = min (25 * 2 ^ attempt.toNat) 2000 := by
  intro expected
  have seventh := expected 7
  rw [transientBackoff_toNat] at seventh
  exact absurd seventh (by decide)

end Nullspace
