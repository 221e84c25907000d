import Nullspace.Base.Machine

/-!
# Refinement of machines

A machine refines another when each of its steps is a step of the other on what both know of the
state, or changes nothing there. Events and acts may have labels, which both agree on: a step
with a label is a step with the same label, and a step without one is hidden.

`Refines.exec` lifts this to runs, and `Refines.always` brings invariants of the other machine
down to the one which refines it.
-/

namespace Nullspace.Base.Machine

universe u v

variable {State View : Type u} {Event Act Label : Type v}

structure Refines (lower : Machine State Event) (upper : Machine View Act) (view : State → View)
    (inv : State → Prop) (sees : Event → Option Label) (shows : Act → Option Label) : Prop where
  kept : ∀ {state event next}, inv state → lower.step state event = some next → inv next
  step : ∀ {state event next}, inv state → lower.step state event = some next →
    (sees event = none ∧ view next = view state) ∨
      ∃ act, upper.step (view state) act = some (view next) ∧ shows act = sees event

namespace Refines

variable {lower : Machine State Event} {upper : Machine View Act} {view : State → View}
  {inv : State → Prop} {sees : Event → Option Label} {shows : Act → Option Label}

/-- Every run is a run of the other machine with the same labels. -/
theorem exec (refines : Refines lower upper view inv sees shows) {start final : State}
    {events : List Event} (initial : inv start) (reached : lower.exec start events = some final) :
    ∃ acts, upper.exec (view start) acts = some (view final) ∧
      acts.filterMap shows = events.filterMap sees := by
  induction events generalizing start with
  | nil =>
      cases reached
      exact ⟨[], rfl, rfl⟩
  | cons event events ih =>
      rw [exec_cons] at reached
      obtain ⟨next, taken, onward⟩ := Option.bind_eq_some_iff.mp reached
      obtain ⟨acts, ran, labels⟩ := ih (refines.kept initial taken) onward
      rcases refines.step initial taken with ⟨hidden, same⟩ | ⟨act, moved, label⟩
      · refine ⟨acts, same ▸ ran, ?_⟩
        rw [labels, List.filterMap_cons_none hidden]
      · refine ⟨act :: acts, ?_, ?_⟩
        · rw [exec_cons, moved]
          exact ran
        · rw [List.filterMap_cons, List.filterMap_cons, label, labels]

/-- An invariant which steps of the other machine keep when their labels meet a guard. -/
theorem always (refines : Refines lower upper view inv sees shows) (holds : View → Prop)
    (guard : View → Label → Prop)
    (preserved : ∀ {seen act next}, holds seen → (∀ label ∈ shows act, guard seen label) →
      upper.step seen act = some next → holds next)
    {start : State} {events : List Event} (initial : inv start) (begins : holds (view start))
    (along : lower.Along (fun state event => ∀ label ∈ sees event, guard (view state) label)
      start events) :
    lower.Always (fun state => inv state ∧ holds (view state)) start events := by
  refine always_of_along ?_ ⟨initial, begins⟩ along
  rintro state event next ⟨inside, before⟩ allowed taken
  refine ⟨refines.kept inside taken, ?_⟩
  rcases refines.step inside taken with ⟨_, same⟩ | ⟨act, moved, label⟩
  · exact same ▸ before
  · exact preserved before (fun other shown => allowed other (label ▸ shown)) moved

end Refines
end Nullspace.Base.Machine
