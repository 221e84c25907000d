import Mathlib.Data.List.Induction

/-!
# Deterministic event machines

A machine consumes one event at a time and either refuses it or moves on. Every
choice which is not the program's own (the interleaving, a fault, a clock reading)
is carried by the event, so one event list fixes one run.

`always_of_along` is the induction rule for invariants; `always_iff_along` is its
exact form, for a guard which decides whether a step keeps the invariant.
-/

namespace Nullspace.Base

universe u v

/-- A deterministic transition function which may refuse an event. -/
structure Machine (State : Type u) (Event : Type v) where
  step : State → Event → Option State

namespace Machine

variable {State : Type u} {Event : Type v} (machine : Machine State Event)

/-- Run a whole event list; one refused event refuses the list. -/
def exec (state : State) : List Event → Option State
  | [] => some state
  | event :: events =>
      match machine.step state event with
      | some next => exec next events
      | none => none

/-- The invariant holds in every state the run passes through. -/
def Always (inv : State → Prop) (start : State) (events : List Event) : Prop :=
  ∀ before, before <+: events → ∀ state, machine.exec start before = some state → inv state

/-- Every step the run takes meets the guard in the state it is taken from. -/
def Along (guard : State → Event → Prop) (start : State) (events : List Event) : Prop :=
  ∀ before event, before ++ [event] <+: events → ∀ state next,
    machine.exec start before = some state → machine.step state event = some next →
      guard state event

variable {machine}

@[simp] theorem exec_nil (state : State) : machine.exec state [] = some state := rfl

theorem exec_cons (state : State) (event : Event) (events : List Event) :
    machine.exec state (event :: events) =
      (machine.step state event).bind fun next => machine.exec next events := by
  simp only [exec]
  cases machine.step state event <;> rfl

/-- A run in two parts is the second part from where the first one ends. -/
theorem exec_append (state : State) (first second : List Event) :
    machine.exec state (first ++ second) =
      (machine.exec state first).bind fun middle => machine.exec middle second := by
  induction first generalizing state with
  | nil => rfl
  | cons event events ih =>
      rw [List.cons_append, exec_cons, exec_cons, Option.bind_assoc]
      congr 1
      funext next
      exact ih next

/-- The last step of a run, seen from the run before it. -/
theorem exec_snoc {start final : State} {events : List Event} {event : Event} :
    machine.exec start (events ++ [event]) = some final ↔
      ∃ state, machine.exec start events = some state ∧
        machine.step state event = some final := by
  rw [exec_append]
  cases machine.exec start events with
  | none => simp
  | some state =>
      cases taken : machine.step state event <;> simp [exec_cons, taken]

/-- A guard along a run is a guard along each of its prefixes. -/
theorem Along.of_prefix {guard : State → Event → Prop} {start : State}
    {events shorter : List Event} (along : machine.Along guard start events)
    (within : shorter <+: events) : machine.Along guard start shorter :=
  fun before event position => along before event (position.trans within)

/-- A guard along a run is a guard along what follows any of its prefixes. -/
theorem Along.rest {guard : State → Event → Prop} {start middle : State} {first second : List Event}
    (along : machine.Along guard start (first ++ second))
    (reached : machine.exec start first = some middle) : machine.Along guard middle second := by
  intro before event position state next after taken
  have whole : machine.exec start (first ++ before) = some state := by
    rw [exec_append, reached]
    exact after
  refine along (first ++ before) event ?_ state next whole taken
  rw [List.append_assoc]
  exact (List.prefix_append_right_inj first).mpr position

@[simp] theorem along_nil (guard : State → Event → Prop) (start : State) :
    machine.Along guard start [] := by
  intro before event position
  simp at position

/-- A guard along a run, one step at a time. -/
theorem along_cons {guard : State → Event → Prop} {start : State} {event : Event}
    {events : List Event} : machine.Along guard start (event :: events) ↔
      ∀ next, machine.step start event = some next →
        guard start event ∧ machine.Along guard next events := by
  constructor
  · intro along next taken
    have reached : machine.exec start [event] = some next := by
      rw [exec_cons, taken]
      rfl
    refine ⟨along [] event (List.prefix_append [event] events) start next rfl taken, ?_⟩
    rw [← List.singleton_append] at along
    exact along.rest reached
  · intro steps before last position state next reached taken
    cases before with
    | nil =>
        obtain ⟨rfl, _⟩ := List.cons_prefix_cons.mp position
        cases reached
        exact (steps next taken).1
    | cons first before =>
        obtain ⟨rfl, shorter⟩ := List.cons_prefix_cons.mp position
        rw [exec_cons] at reached
        obtain ⟨middle, moved, rest⟩ := Option.bind_eq_some_iff.mp reached
        exact (steps middle moved).2 before last shorter state next rest taken

/-- A guard along a run whose first step is known. -/
theorem along_cons_of_step {guard : State → Event → Prop} {start next : State} {event : Event}
    {events : List Event} (taken : machine.step start event = some next) :
    machine.Along guard start (event :: events) ↔
      guard start event ∧ machine.Along guard next events := by
  rw [along_cons]
  constructor
  · exact fun steps => steps next taken
  · intro holds other moves
    cases taken.symm.trans moves
    exact holds

/-- A guard which can be decided can be decided along a run. -/
instance decidableAlong {guard : State → Event → Prop}
    [decide : ∀ state event, Decidable (guard state event)] (start : State) :
    (events : List Event) → Decidable (machine.Along guard start events)
  | [] => isTrue (along_nil guard start)
  | event :: events =>
      match taken : machine.step start event with
      | none => isTrue (along_cons.mpr fun next moves => by
          rw [taken] at moves
          contradiction)
      | some next =>
          have rest : Decidable (machine.Along guard next events) := decidableAlong next events
          decidable_of_iff (guard start event ∧ machine.Along guard next events)
            (along_cons_of_step taken).symm

/-- A property of the last state of every prefix, read at the whole run. -/
theorem Always.last {inv : State → Prop} {start final : State} {events : List Event}
    (always : machine.Always inv start events) (reached : machine.exec start events = some final) :
    inv final :=
  always events (List.prefix_refl events) final reached

/-- The induction rule: a step which meets the guard keeps the invariant, so a run
whose steps all meet it stays inside. -/
theorem always_of_along {inv : State → Prop} {guard : State → Event → Prop}
    (preserved : ∀ {state event next}, inv state → guard state event →
      machine.step state event = some next → inv next)
    {start : State} {events : List Event} (initial : inv start)
    (along : machine.Along guard start events) : machine.Always inv start events := by
  intro before
  induction before using List.reverseRecOn with
  | nil =>
      intro _ state reached
      rw [exec_nil, Option.some.injEq] at reached
      exact reached ▸ initial
  | append_singleton before event ih =>
      intro position state reached
      obtain ⟨prior, priorReached, taken⟩ := exec_snoc.mp reached
      have shorter : before <+: events := (List.prefix_append before [event]).trans position
      exact preserved (ih shorter prior priorReached)
        (along before event position prior state priorReached taken) taken

/-- The induction rule with hindsight: on the way to a known end, each step keeps the
invariant. -/
theorem inv_of_exec (inv : State → Prop) {final : State}
    (preserved : ∀ {state event next rest}, inv state → machine.step state event = some next →
      machine.exec next rest = some final → inv next)
    {start : State} {events : List Event} (initial : inv start)
    (reached : machine.exec start events = some final) : inv final := by
  induction events generalizing start with
  | nil =>
      cases reached
      exact initial
  | cons event events ih =>
      rw [exec_cons] at reached
      obtain ⟨next, taken, onward⟩ := Option.bind_eq_some_iff.mp reached
      exact ih (preserved initial taken onward) onward

/-- The unguarded induction rule. -/
theorem always_of_step {inv : State → Prop}
    (preserved : ∀ {state event next}, inv state → machine.step state event = some next → inv next)
    {start : State} (events : List Event) (initial : inv start) :
    machine.Always inv start events := by
  have along : machine.Along (fun _ _ => True) start events := fun _ _ _ _ _ _ _ => trivial
  exact always_of_along (fun holds _ taken => preserved holds taken) initial along

/-- When the guard decides exactly whether a step keeps the invariant, a run stays
inside the invariant exactly when all its steps meet the guard. -/
theorem always_iff_along {inv : State → Prop} {guard : State → Event → Prop}
    (exact_step : ∀ {state event next}, inv state → machine.step state event = some next →
      (inv next ↔ guard state event))
    {start : State} {events : List Event} (initial : inv start) :
    machine.Always inv start events ↔ machine.Along guard start events := by
  constructor
  · intro always before event position state next reached taken
    have shorter : before <+: events := (List.prefix_append before [event]).trans position
    have holds : inv state := always before shorter state reached
    have after : inv next :=
      always (before ++ [event]) position next (exec_snoc.mpr ⟨state, reached, taken⟩)
    exact (exact_step holds taken).mp after
  · intro along
    exact always_of_along (fun holds allowed taken => (exact_step holds taken).mpr allowed)
      initial along

/-- The exact form within an invariant which every step keeps. -/
theorem always_iff_along_within {inv : State → Prop} (within : State → Prop)
    {guard : State → Event → Prop}
    (kept : ∀ {state event next}, within state → machine.step state event = some next →
      within next)
    (exact_step : ∀ {state event next}, within state → inv state →
      machine.step state event = some next → (inv next ↔ guard state event))
    {start : State} {events : List Event} (inside : within start) (initial : inv start) :
    machine.Always inv start events ↔ machine.Along guard start events := by
  have stays := always_of_step (fun holds taken => kept holds taken) events inside
  have both : machine.Always (fun state => within state ∧ inv state) start events ↔
      machine.Along guard start events := by
    refine always_iff_along ?_ ⟨inside, initial⟩
    intro state event next holds taken
    rw [and_iff_right (kept holds.1 taken)]
    exact exact_step holds.1 holds.2 taken
  rw [← both]
  constructor
  · intro always before position state reached
    exact ⟨stays before position state reached, always before position state reached⟩
  · intro always before position state reached
    exact (always before position state reached).2

/-- A property of runs which, once the steps before have met the guard, forces the next
step to meet it too, forces the guard along the whole run. -/
theorem along_of_property {guard : State → Event → Prop} {start : State}
    (property : List Event → Prop)
    (inherited : ∀ {events shorter}, property events → shorter <+: events → property shorter)
    (forces : ∀ {before event state next}, property (before ++ [event]) →
      machine.Along guard start before → machine.exec start before = some state →
      machine.step state event = some next → guard state event)
    {events : List Event} (holds : property events) : machine.Along guard start events := by
  induction events using List.reverseRecOn with
  | nil =>
      intro before event position
      simp at position
  | append_singleton events last ih =>
      have along := ih (inherited holds (List.prefix_append events [last]))
      intro before event position state next reached taken
      rcases List.prefix_concat_iff.mp position with whole | shorter
      · obtain ⟨rfl, same⟩ := List.append_inj' whole rfl
        cases same
        exact forces holds along reached taken
      · exact along before event shorter state next reached taken

end Machine
end Nullspace.Base
