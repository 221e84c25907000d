import Nullspace.Base.Machine

/-!
# Waiting for a change of the database

`DbNotify::touch` raises a generation which all tasks share and wakes the futures which wait
for it; `wait_for_change` compares the generation with the one it has seen and waits when they
are the same. Between its comparison and the creation of the `notified()` future a touch can
take place whole, and it wakes nobody.

`notStranded_iff_caught` says in which runs no task is left waiting behind the generation.
-/

namespace Nullspace

open Nullspace.Base

/-- Where a task is in `wait_for_change`. -/
inductive WaitPhase where
  /-- It has not called, or the call has returned. -/
  | outside
  | looping
  /-- The generation is the one which the task has seen. -/
  | compared
  /-- The `notified()` future exists, and nobody has notified it. -/
  | waiting
  | woken
deriving DecidableEq

/-- The shared generation, the touches under way, and a task. -/
structure NotifyRun where
  generation : UInt64
  /-- The touches which have raised the generation and not notified the waiters yet. -/
  raised : Nat
  lastSeen : UInt64
  phase : WaitPhase
deriving DecidableEq

inductive NotifyStep where
  /-- The `fetch_add` of a touch. -/
  | raise
  /-- The `notify_waiters` of a touch. -/
  | notify
  /-- The task calls `wait_for_change`. -/
  | call
  /-- The task loads the generation and compares it. -/
  | compare
  /-- The task creates the `notified()` future. -/
  | await
  /-- The future is ready, and the loop begins again. -/
  | resume
  /-- The call is dropped. -/
  | cancel
deriving DecidableEq

namespace NotifyRun

/-- `DbNotify::new`, while some touches may be under way. -/
def start (generation : UInt64) (raised : Nat) : NotifyRun :=
  ⟨generation, raised, generation, .outside⟩

/-- The touches and the task, one step of one of them at a time. -/
def machine : Machine NotifyRun NotifyStep where
  step state
    | .raise => some { state with generation := state.generation + 1, raised := state.raised + 1 }
    | .notify =>
        match state.raised with
        | 0 => none
        | raised + 1 =>
            some { state with
              raised := raised
              phase := if state.phase = .waiting then .woken else state.phase }
    | .call => if state.phase = .outside then some { state with phase := .looping } else none
    | .compare =>
        if state.phase ≠ .looping then none
        else if state.generation ≠ state.lastSeen then
          some { state with lastSeen := state.generation, phase := .outside }
        else some { state with phase := .compared }
    | .await => if state.phase = .compared then some { state with phase := .waiting } else none
    | .resume => if state.phase = .woken then some { state with phase := .looping } else none
    | .cancel => some { state with phase := .outside }

/-- The task waits behind the generation, and nobody is going to wake it. -/
def Stranded (state : NotifyRun) : Prop :=
  state.phase = .waiting ∧ state.lastSeen ≠ state.generation ∧ state.raised = 0

/-- When the task creates its future, the generation is still the one it has seen, or a touch
has yet to notify. -/
def Caught (state : NotifyRun) (step : NotifyStep) : Prop :=
  step = .await → state.lastSeen = state.generation ∨ 0 < state.raised

instance (state : NotifyRun) (step : NotifyStep) : Decidable (Caught state step) :=
  inferInstanceAs (Decidable (_ → _))

/-- Only the creation of the future can strand the task: whoever raises the generation later
notifies later too. -/
theorem notStranded_step {state next : NotifyRun} {step : NotifyStep}
    (_ : ¬state.Stranded) (taken : machine.step state step = some next) :
    ¬next.Stranded ↔ Caught state step := by
  cases step with
  | raise =>
      cases taken
      refine iff_of_true ?_ nofun
      rintro ⟨_, _, settled⟩
      exact absurd settled (Nat.succ_ne_zero _)
  | notify =>
      simp only [machine] at taken
      split at taken
      · cases taken
      · cases taken
        refine iff_of_true ?_ nofun
        rintro ⟨waiting, _, _⟩
        dsimp only at waiting
        split at waiting
        · cases waiting
        · contradiction
  | call =>
      simp only [machine] at taken
      split at taken <;> cases taken
      exact iff_of_true (fun stranded => nomatch stranded.1) nofun
  | compare =>
      simp only [machine] at taken
      split at taken
      · cases taken
      · split at taken <;> cases taken <;>
          exact iff_of_true (fun stranded => nomatch stranded.1) nofun
  | await =>
      simp only [machine] at taken
      split at taken <;> cases taken
      constructor
      · intro free _
        by_contra missed
        obtain ⟨behind, settled⟩ := not_or.mp missed
        exact free ⟨rfl, behind, Nat.eq_zero_of_not_pos settled⟩
      · rintro caught ⟨_, behind, settled⟩
        rcases caught rfl with same | underway
        · exact behind same
        · exact Nat.ne_of_gt underway settled
  | resume =>
      simp only [machine] at taken
      split at taken <;> cases taken
      exact iff_of_true (fun stranded => nomatch stranded.1) nofun
  | cancel =>
      cases taken
      exact iff_of_true (fun stranded => nomatch stranded.1) nofun

/-- The task is never left waiting with a generation which it has not seen exactly when every
future that it creates catches the touches which took place since it looked. -/
theorem notStranded_iff_caught (generation : UInt64) (raised : Nat) (steps : List NotifyStep) :
    machine.Always (fun state => ¬state.Stranded) (start generation raised) steps ↔
      machine.Along Caught (start generation raised) steps :=
  Machine.always_iff_along notStranded_step fun stranded => nomatch stranded.1

/-- A touch takes place between the comparison and the creation of the future. -/
def missedTouch : List NotifyStep := [.call, .compare, .raise, .notify, .await]

theorem missedTouch_strands :
    ¬machine.Always (fun state => ¬state.Stranded) (start 0 0) missedTouch := by
  intro always
  have reached : machine.exec (start 0 0) missedTouch = some ⟨1, 0, 0, .waiting⟩ := by decide
  exact always.last reached ⟨rfl, by decide, rfl⟩

end NotifyRun
end Nullspace
