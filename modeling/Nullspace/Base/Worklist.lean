import Mathlib.Logic.Relation

/-!
# Worklists

A worklist keeps passing over its pending items. A pass takes out every item which is
ready in the state it meets and lets the state absorb it, so that an item taken early may
make a later one ready. `rounds` repeats passes until one takes nothing out.

`rounds_runs` and `rounds_stuck` say all that matters of the order in which items are
taken: the result is reached by taking out ready items one at a time, and nothing that is
left is ready.
-/

namespace Nullspace.Base

universe u v

/-- When an item may be taken out, and what the state becomes. -/
structure Worklist (State : Type u) (Item : Type v) where
  ready : State → Item → Bool
  absorb : State → Item → State

namespace Worklist

variable {State : Type u} {Item : Type v} (work : Worklist State Item)

/-- One pass over the pending items, and whether it took any out. -/
def pass (state : State) : List Item → State × List Item × Bool
  | [] => (state, [], false)
  | item :: rest =>
      if work.ready state item then
        let (final, pending, _) := pass (work.absorb state item) rest
        (final, pending, true)
      else
        let (final, pending, moved) := pass state rest
        (final, item :: pending, moved)

/-- Passes until one takes nothing out or nothing is left. -/
def rounds : Nat → State → List Item → State × List Item
  | 0, state, pending => (state, pending)
  | fuel + 1, state, pending =>
      match work.pass state pending with
      | (final, left, true) => if left.isEmpty then (final, left) else rounds fuel final left
      | (final, left, false) => (final, left)

/-- One ready item is taken out, wherever it stands. -/
inductive Takes : State × List Item → State × List Item → Prop
  | take {state : State} {front back : List Item} {item : Item}
      (ready : work.ready state item = true) :
      Takes (state, front ++ item :: back) (work.absorb state item, front ++ back)

/-- Ready items are taken out one at a time. -/
abbrev Runs : State × List Item → State × List Item → Prop := Relation.ReflTransGen work.Takes

variable {work}

/-- A pass over the rest of a list takes out of the whole list. -/
theorem pass_runs (state : State) (front items : List Item) :
    work.Runs (state, front ++ items)
      ((work.pass state items).1, front ++ (work.pass state items).2.1) := by
  induction items generalizing state front with
  | nil => exact Relation.ReflTransGen.refl
  | cons item rest ih =>
      by_cases ready : work.ready state item = true
      · rw [pass, if_pos ready]
        exact Relation.ReflTransGen.head (Takes.take ready) (ih (work.absorb state item) front)
      · rw [pass, if_neg ready]
        have onward := ih state (front ++ [item])
        rw [List.append_assoc, List.append_assoc] at onward
        exact onward

/-- A pass which takes nothing out meets no ready item, and leaves everything as it was. -/
theorem pass_idle {state : State} {items : List Item} (idle : (work.pass state items).2.2 = false) :
    (work.pass state items).1 = state ∧
      ∀ item ∈ (work.pass state items).2.1, work.ready state item = false := by
  induction items with
  | nil => exact ⟨rfl, fun _ member => absurd member List.not_mem_nil⟩
  | cons item rest ih =>
      by_cases ready : work.ready state item = true
      · simp [pass, ready] at idle
      · rw [pass, if_neg ready] at idle ⊢
        obtain ⟨same, refused⟩ := ih idle
        refine ⟨same, ?_⟩
        intro other member
        rcases List.mem_cons.mp member with rfl | later
        · exact Bool.not_eq_true _ ▸ ready
        · exact refused other later

/-- A pass leaves no more items than it was given. -/
theorem pass_length_le (state : State) (items : List Item) :
    (work.pass state items).2.1.length ≤ items.length := by
  induction items generalizing state with
  | nil => exact Nat.le_refl 0
  | cons item rest ih =>
      by_cases ready : work.ready state item = true
      · rw [pass, if_pos ready]
        exact Nat.le_succ_of_le (ih (work.absorb state item))
      · rw [pass, if_neg ready]
        exact Nat.succ_le_succ (ih state)

/-- A pass which takes something out leaves fewer items. -/
theorem pass_length_lt {state : State} {items : List Item}
    (moved : (work.pass state items).2.2 = true) :
    (work.pass state items).2.1.length < items.length := by
  induction items with
  | nil => simp [pass] at moved
  | cons item rest ih =>
      by_cases ready : work.ready state item = true
      · rw [pass, if_pos ready]
        exact Nat.lt_succ_of_le (pass_length_le (work.absorb state item) rest)
      · rw [pass, if_neg ready] at moved ⊢
        exact Nat.succ_lt_succ (ih moved)

variable (work) in
/-- What the rounds leave is reached by passes. -/
theorem rounds_runs (fuel : Nat) (state : State) (pending : List Item) :
    work.Runs (state, pending) (work.rounds fuel state pending) := by
  induction fuel generalizing state pending with
  | zero => exact Relation.ReflTransGen.refl
  | succ fuel ih =>
      have first : work.Runs (state, pending) _ := pass_runs state [] pending
      rw [rounds]
      rcases passed : work.pass state pending with ⟨final, left, moved⟩
      rw [passed] at first
      cases moved with
      | false => exact first
      | true =>
          dsimp only
          split
          · exact first
          · exact first.trans (ih final left)

variable (work) in
/-- With a pass for each pending item, and one more, nothing that is left is ready. -/
theorem rounds_stuck {fuel : Nat} (state : State) {pending : List Item}
    (enough : pending.length < fuel) :
    ∀ item ∈ (work.rounds fuel state pending).2,
      work.ready (work.rounds fuel state pending).1 item = false := by
  induction fuel generalizing state pending with
  | zero => omega
  | succ fuel ih =>
      have idle : (work.pass state pending).2.2 = false → _ := pass_idle
      have shorter : (work.pass state pending).2.2 = true → _ := pass_length_lt
      rw [rounds]
      rcases passed : work.pass state pending with ⟨final, left, moved⟩
      rw [passed] at idle shorter
      cases moved with
      | false =>
          obtain ⟨same, refused⟩ := idle rfl
          intro item member
          dsimp only at same ⊢
          rw [same]
          exact refused item member
      | true =>
          have fewer : left.length < pending.length := shorter rfl
          dsimp only
          split
          · rename_i empty
            rw [List.isEmpty_iff.mp empty]
            exact fun _ member => absurd member List.not_mem_nil
          · exact ih final (by omega)

/-- The rule for what holds of the state and the items taken out: kept by every item
which is absorbed while it is ready. -/
theorem Runs.keeps (inv : State → List Item → Prop) {start final : State × List Item}
    (runs : work.Runs start final)
    (preserved : ∀ {state front item back}, work.ready state item = true →
      inv state (front ++ item :: back) → inv (work.absorb state item) (front ++ back))
    (initial : inv start.1 start.2) : inv final.1 final.2 := by
  induction runs with
  | refl => exact initial
  | tail _ takes ih =>
      cases takes with
      | take ready => exact preserved ready ih

end Worklist
end Nullspace.Base
