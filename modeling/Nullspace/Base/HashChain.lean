import Mathlib.Data.List.Induction
import Mathlib.Data.List.Infix
import Mathlib.Logic.Function.Basic

/-!
# Hash-linked lists

Every item names the hash of the item before it; the first one names a genesis value.
When the hash is injective and never yields the genesis value, the tip alone
determines the whole list: `LinkedFrom.eq_of_tip` walks down from it. So an item which
names the tip of a chain can be appended there and nowhere else, `LinkedFrom.snoc_prefix`,
and appends to one line have an order, `appends_ordered`.
-/

namespace Nullspace.Base

universe u v

/-- How items are linked: the hash an item names, and the hash it has. -/
structure Linking (Item : Type u) (Hash : Type v) where
  prev : Item → Hash
  hash : Item → Hash
  genesis : Hash

namespace Linking

variable {Item : Type u} {Hash : Type v} (linking : Linking Item Hash)

/-- The hash the next item has to name, when `expected` was due before `items`. -/
def tipFrom (expected : Hash) : List Item → Hash
  | [] => expected
  | item :: items => tipFrom (linking.hash item) items

/-- Each item names the hash of its predecessor, the first one names `expected`. -/
def LinkedFrom (expected : Hash) : List Item → Prop
  | [] => True
  | item :: items => linking.prev item = expected ∧ LinkedFrom (linking.hash item) items

instance LinkedFrom.decidable [DecidableEq Hash] (expected : Hash) :
    (items : List Item) → Decidable (linking.LinkedFrom expected items)
  | [] => isTrue trivial
  | item :: items =>
      have := LinkedFrom.decidable (linking.hash item) items
      inferInstanceAs (Decidable (linking.prev item = expected ∧ _))

/-- A chain starts at the genesis value. -/
abbrev Linked (items : List Item) : Prop := linking.LinkedFrom linking.genesis items

/-- The hash of the last item, or the genesis value. -/
abbrev tip (items : List Item) : Hash := linking.tipFrom linking.genesis items

/-- The two facts about the hash function which the chain arguments rest on. -/
structure CollisionFree : Prop where
  injective : Function.Injective linking.hash
  neverGenesis : ∀ item, linking.hash item ≠ linking.genesis

variable {linking}

@[simp] theorem tipFrom_nil (expected : Hash) : linking.tipFrom expected [] = expected := rfl

/-- The tip of a chain in two parts is the tip of the second from the tip of the first. -/
@[simp] theorem tipFrom_append (expected : Hash) (first second : List Item) :
    linking.tipFrom expected (first ++ second) =
      linking.tipFrom (linking.tipFrom expected first) second := by
  induction first generalizing expected with
  | nil => rfl
  | cons item items ih => exact ih (linking.hash item)

theorem tipFrom_snoc (expected : Hash) (items : List Item) (item : Item) :
    linking.tipFrom expected (items ++ [item]) = linking.hash item := by
  simp [tipFrom]

@[simp] theorem linkedFrom_nil (expected : Hash) : linking.LinkedFrom expected [] := trivial

/-- A chain in two parts is linked when each part is, the second from the tip of the first. -/
theorem linkedFrom_append {expected : Hash} {first second : List Item} :
    linking.LinkedFrom expected (first ++ second) ↔
      linking.LinkedFrom expected first ∧
        linking.LinkedFrom (linking.tipFrom expected first) second := by
  induction first generalizing expected with
  | nil => simp
  | cons item items ih => simp only [List.cons_append, LinkedFrom, tipFrom, ih, and_assoc]

theorem linkedFrom_snoc {expected : Hash} {items : List Item} {item : Item} :
    linking.LinkedFrom expected (items ++ [item]) ↔
      linking.LinkedFrom expected items ∧
        linking.prev item = linking.tipFrom expected items := by
  simp [linkedFrom_append, LinkedFrom]

/-- A prefix of a linked chain is linked. -/
theorem LinkedFrom.of_prefix {expected : Hash} {items shorter : List Item}
    (linked : linking.LinkedFrom expected items) (within : shorter <+: items) :
    linking.LinkedFrom expected shorter := by
  obtain ⟨rest, rfl⟩ := within
  exact (linkedFrom_append.mp linked).1

/-- A non-empty chain never has the genesis value as its tip. -/
theorem tip_ne_genesis (sound : linking.CollisionFree) {items : List Item}
    (nonempty : items ≠ []) : linking.tip items ≠ linking.genesis := by
  obtain ⟨front, last, rfl⟩ := List.eq_nil_or_concat items |>.resolve_left nonempty
  rw [List.concat_eq_append, tip, tipFrom_snoc]
  exact sound.neverGenesis last

/-- Two chains with the same tip are the same chain. The induction goes down from the
tip: equal tips give equal last items, and these name equal tips below. -/
theorem LinkedFrom.eq_of_tip (sound : linking.CollisionFree) {first second : List Item}
    (firstLinked : linking.Linked first) (secondLinked : linking.Linked second)
    (tips : linking.tip first = linking.tip second) : first = second := by
  induction first using List.reverseRecOn generalizing second with
  | nil =>
      by_contra different
      exact tip_ne_genesis sound (Ne.symm different) tips.symm
  | append_singleton front last ih =>
      rcases List.eq_nil_or_concat second with rfl | ⟨otherFront, otherLast, rfl⟩
      · exact absurd tips (tip_ne_genesis sound (by simp))
      · rw [List.concat_eq_append] at secondLinked tips ⊢
        have lasts : last = otherLast := by
          rw [tip, tip, tipFrom_snoc, tipFrom_snoc] at tips
          exact sound.injective tips
        subst lasts
        obtain ⟨frontLinked, named⟩ := linkedFrom_snoc.mp firstLinked
        obtain ⟨otherLinked, otherNamed⟩ := linkedFrom_snoc.mp secondLinked
        rw [ih frontLinked otherLinked (named.symm.trans otherNamed)]

/-- A chain has no item twice. -/
theorem LinkedFrom.nodup (sound : linking.CollisionFree) {items : List Item}
    (linked : linking.Linked items) : items.Nodup := by
  induction items using List.reverseRecOn with
  | nil => exact List.nodup_nil
  | append_singleton front last ih =>
      have frontLinked : linking.Linked front := linked.of_prefix (List.prefix_append front [last])
      refine List.nodup_append.mpr ⟨ih frontLinked, by simp, ?_⟩
      rintro item member other single rfl
      obtain rfl := List.mem_singleton.mp single
      obtain ⟨part, rest, rfl⟩ := List.append_of_mem member
      have partLinked : linking.Linked (part ++ [item]) :=
        frontLinked.of_prefix ⟨rest, by simp⟩
      have tips : linking.tip (part ++ [item]) = linking.tip (part ++ item :: rest ++ [item]) := by
        rw [tip, tip, tipFrom_snoc, tipFrom_snoc]
      have same := partLinked.eq_of_tip sound linked tips
      have lengths := congrArg List.length same
      simp at lengths

/-- An item of a chain stands right behind the chain whose tip it names. -/
theorem LinkedFrom.snoc_prefix (sound : linking.CollisionFree) {line prior : List Item} {item : Item}
    (linked : linking.Linked line) (priorLinked : linking.Linked prior) (member : item ∈ line)
    (named : linking.prev item = linking.tip prior) : prior ++ [item] <+: line := by
  obtain ⟨part, rest, rfl⟩ := List.append_of_mem member
  obtain ⟨partLinked, tail⟩ := linkedFrom_append.mp linked
  have same : part = prior := partLinked.eq_of_tip sound priorLinked (tail.1.symm.trans named)
  rw [← same]
  exact ⟨rest, by rw [List.append_assoc, List.singleton_append]⟩

end Linking

section Appends

variable {Item : Type u} {line first second : List Item} {item other : Item}

/-- Two appends to one line are one append, or one of them was made over the other. -/
theorem appends_ordered (firstIn : first ++ [item] <+: line) (secondIn : second ++ [other] <+: line) :
    first ++ [item] <+: second ∨ second ++ [other] <+: first ∨ first = second ∧ item = other := by
  rcases List.prefix_or_prefix_of_prefix firstIn secondIn with within | within
  · rcases List.prefix_concat_iff.mp within with same | shorter
    · obtain ⟨fronts, lasts⟩ := List.append_inj' same rfl
      exact .inr (.inr ⟨fronts, List.singleton_inj.mp lasts⟩)
    · exact .inl shorter
  · rcases List.prefix_concat_iff.mp within with same | shorter
    · obtain ⟨fronts, lasts⟩ := List.append_inj' same rfl
      exact .inr (.inr ⟨fronts.symm, (List.singleton_inj.mp lasts).symm⟩)
    · exact .inr (.inl shorter)

/-- A part of the line is from before an append, or has it. -/
theorem append_seen {part : List Item} (within : part <+: line)
    (appended : first ++ [item] <+: line) : part <+: first ∨ first ++ [item] <+: part := by
  rcases List.prefix_or_prefix_of_prefix within appended with before | after
  · rcases List.prefix_concat_iff.mp before with same | shorter
    · exact .inr (same ▸ List.prefix_refl _)
    · exact .inl shorter
  · exact .inr after

end Appends
end Nullspace.Base
