import Mathlib.Data.List.Induction
import Mathlib.Data.List.Forall2

/-!
# Two logs in one order

A trace is an interleaving of two logs. Entries of the first drive a state; an entry of
the second is judged under the state at its position, and what it is judged to be worth
replaces a value.

The state a trace ends in depends on the first log alone. The value depends on the trace
through the last entry which any of its readers takes.
-/

namespace Nullspace.Base

universe u v w x

variable {First : Type u} {Second : Type v} {State : Type w} {Value : Type x}

/-- How a reader of both logs proceeds. -/
structure Reader (First : Type u) (Second : Type v) (State : Type w) (Value : Type x) where
  drive : State → First → State
  judge : State → Second → Option Value

/-- The first log of a trace. -/
def firsts (trace : List (First ⊕ Second)) : List First := trace.filterMap Sum.getLeft?

/-- The second log of a trace. -/
def seconds (trace : List (First ⊕ Second)) : List Second := trace.filterMap Sum.getRight?

namespace Reader

variable (reader : Reader First Second State Value)

/-- One entry of a trace. -/
def read (held : State × Value) : First ⊕ Second → State × Value
  | .inl first => (reader.drive held.1 first, held.2)
  | .inr second => (held.1, (reader.judge held.1 second).getD held.2)

/-- The entries of the second log, each with the state in which it is judged. -/
def sightings (state : State) : List (First ⊕ Second) → List (State × Second)
  | [] => []
  | .inl first :: trace => sightings (reader.drive state first) trace
  | .inr second :: trace => (state, second) :: sightings state trace

/-- What an entry counts for where it is seen. -/
def worth (seen : State × Second) : Option Value := reader.judge seen.1 seen.2

/-- The sightings are the events of the second kind, in their order. -/
theorem sightings_map_snd (state : State) (trace : List (First ⊕ Second)) :
    (reader.sightings state trace).map Prod.snd = seconds trace := by
  induction trace generalizing state with
  | nil => rfl
  | cons entry trace ih =>
      cases entry with
      | inl first => exact ih (reader.drive state first)
      | inr second =>
          rw [sightings, List.map_cons, ih state]
          rfl

variable {reader}

/-- The state depends on the first log alone. -/
theorem foldl_read_fst (held : State × Value) (trace : List (First ⊕ Second)) :
    (trace.foldl reader.read held).1 = (firsts trace).foldl reader.drive held.1 := by
  induction trace generalizing held with
  | nil => rfl
  | cons entry trace ih =>
      rw [List.foldl_cons, ih]
      cases entry with
      | inl first => rfl
      | inr second => rfl

/-- The value is what the last entry which counts was worth. -/
theorem foldl_read_snd (held : State × Value) (trace : List (First ⊕ Second)) :
    (trace.foldl reader.read held).2 =
      ((reader.sightings held.1 trace).filterMap reader.worth).getLast?.getD held.2 := by
  induction trace generalizing held with
  | nil => rfl
  | cons entry trace ih =>
      rw [List.foldl_cons, ih]
      cases entry with
      | inl first => rfl
      | inr second =>
          rw [sightings, List.filterMap_cons]
          cases judged : reader.judge held.1 second with
          | none => simp only [read, worth, judged, Option.getD_none]
          | some value =>
              simp only [read, worth, judged, Option.getD_some, List.getLast?_cons]

end Reader

/-- Two readers of one log agree about what it was worth last, when they agree about the
last entry which counts for either. -/
theorem getLast?_filterMap_eq {Left : Type u} {Right : Type v} (left : Left → Option Value)
    (right : Right → Option Value) (pairs : List (Left × Right))
    (alike : ∀ pair ∈ pairs, ∀ first second, left pair.1 = some first →
      right pair.2 = some second → first = second)
    (last : ∀ pair ∈ (pairs.filter fun pair =>
      (left pair.1).isSome || (right pair.2).isSome).getLast?,
        (left pair.1).isSome ∧ (right pair.2).isSome) :
    ((pairs.map Prod.fst).filterMap left).getLast? =
      ((pairs.map Prod.snd).filterMap right).getLast? := by
  induction pairs using List.reverseRecOn with
  | nil => rfl
  | append_singleton pairs pair ih =>
      have earlier := fun other (listed : other ∈ pairs) =>
        alike other (List.mem_append_left [pair] listed)
      have here := alike pair (List.mem_append_right pairs List.mem_cons_self)
      simp only [List.filter_append, List.filter_cons, List.filter_nil] at last
      simp only [List.map_append, List.map_cons, List.map_nil, List.filterMap_append,
        List.filterMap_cons, List.filterMap_nil]
      cases first : left pair.1 with
      | none =>
          cases second : right pair.2 with
          | none =>
              simp only [first, second, Option.isSome_none, Bool.or_self, Bool.false_eq_true,
                if_false, List.append_nil] at last
              simpa using ih earlier last
          | some value => simp [first, second] at last
      | some value =>
          cases second : right pair.2 with
          | none => simp [first, second] at last
          | some other =>
              obtain rfl := here value other first second
              simp

namespace Reader

variable (reader : Reader First Second State Value)

/-- The last entry which counts in one of two traces counts in both. -/
def LastAlike (left right : List (State × Second)) : Prop :=
  ∀ pair ∈ ((left.zip right).filter fun pair =>
    (reader.worth pair.1).isSome || (reader.worth pair.2).isSome).getLast?,
      (reader.worth pair.1).isSome ∧ (reader.worth pair.2).isSome

/-- Traces whose second events are related pair by pair have sightings so related, in any states. -/
theorem forall₂_sightings {sameSecond : Second → Second → Prop}
    {left right : List (First ⊕ Second)}
    (logs : List.Forall₂ sameSecond (seconds left) (seconds right)) (state other : State) :
    List.Forall₂ (fun first second => sameSecond first.2 second.2) (reader.sightings state left)
      (reader.sightings other right) := by
  rw [← reader.sightings_map_snd state left, ← reader.sightings_map_snd other right,
    List.forall₂_map_left_iff, List.forall₂_map_right_iff] at logs
  exact logs

variable {reader}

/-- A relation which related events keep holds after logs which are related event by event. -/
theorem foldl_related {sameFirst : First → First → Prop} {related : State → State → Prop}
    (driven : ∀ {state other first second}, related state other → sameFirst first second →
      related (reader.drive state first) (reader.drive other second))
    {left right : List First} (logs : List.Forall₂ sameFirst left right) {state other : State}
    (start : related state other) :
    related (left.foldl reader.drive state) (right.foldl reader.drive other) := by
  induction logs generalizing state other with
  | nil => exact start
  | cons same _ ih => exact ih (driven start same)

/-- Two traces of the same logs end in related states, and with the same value when the
last entry which counts in one of them counts in both. -/
theorem confluent {sameFirst : First → First → Prop} {sameSecond : Second → Second → Prop}
    {related : State → State → Prop}
    (driven : ∀ {state other first second}, related state other → sameFirst first second →
      related (reader.drive state first) (reader.drive other second))
    (judged : ∀ {state other first second value given}, sameSecond first second →
      reader.judge state first = some value → reader.judge other second = some given →
        value = given)
    {left right : List (First ⊕ Second)}
    (firstLogs : List.Forall₂ sameFirst (firsts left) (firsts right))
    (secondLogs : List.Forall₂ sameSecond (seconds left) (seconds right))
    {state other : State} (start : related state other) (value : Value) :
    related (left.foldl reader.read (state, value)).1 (right.foldl reader.read (other, value)).1 ∧
      (reader.LastAlike (reader.sightings state left) (reader.sightings other right) →
        (left.foldl reader.read (state, value)).2 =
          (right.foldl reader.read (other, value)).2) := by
  constructor
  · rw [foldl_read_fst, foldl_read_fst]
    exact foldl_related driven firstLogs start
  · intro last
    have sightings := reader.forall₂_sightings secondLogs state other
    have length := sightings.length_eq
    have alike := getLast?_filterMap_eq reader.worth reader.worth
      ((reader.sightings state left).zip (reader.sightings other right))
      (fun pair listed first second => judged ((List.forall₂_iff_zip.mp sightings).2 listed)) last
    rw [List.map_fst_zip (Nat.le_of_eq length), List.map_snd_zip (Nat.le_of_eq length.symm)] at alike
    rw [foldl_read_snd, foldl_read_snd, alike]

end Reader
end Nullspace.Base
