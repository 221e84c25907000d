import Mathlib.Order.Lattice
import Mathlib.Data.List.Induction

/-!
# Last-writer-wins registers

A register keeps the item with the greatest stamp, and of several with the same stamp the
last one. It is blind to anything else about the items: `register_good_iff` says when the
item it ends with has a property which the register does not check.
-/

namespace Nullspace.Base

universe u v

variable {Item : Type u} {Stamp : Type v} [LinearOrder Stamp] (stamp : Item → Stamp)

/-- One more item: it replaces the held one unless it is older. -/
def newer (held : Option Item) (item : Item) : Option Item :=
  match held with
  | some existing => if stamp item < stamp existing then some existing else some item
  | none => some item

/-- The register after some items. -/
def register (held : Option Item) (items : List Item) : Option Item := items.foldl (newer stamp) held

variable {stamp}

@[simp] theorem register_nil (held : Option Item) : register stamp held [] = held := rfl

/-- Offers in two parts are made one part after the other. -/
theorem register_append (held : Option Item) (first second : List Item) :
    register stamp held (first ++ second) = register stamp (register stamp held first) second :=
  List.foldl_append

theorem register_snoc (held : Option Item) (items : List Item) (item : Item) :
    register stamp held (items ++ [item]) = newer stamp (register stamp held items) item :=
  register_append held items [item]

/-- An item which is not older than the one which is held replaces it. -/
theorem register_of_newest {held : Option Item} {item : Item}
    (newest : ∀ old, held = some old → stamp old ≤ stamp item) :
    register stamp held [item] = some item := by
  rw [register, List.foldl_cons, List.foldl_nil]
  cases held with
  | none => rfl
  | some old => exact if_neg (not_lt.mpr (newest old rfl))

/-- An item which is held counts like the first one. -/
theorem register_toList (held : Option Item) (items : List Item) :
    register stamp none (held.toList ++ items) = register stamp held items := by
  rw [register_append]
  cases held <;> rfl

/-- Once something was offered, something is held. -/
theorem exists_newer (held : Option Item) (item : Item) :
    ∃ kept, newer stamp held item = some kept := by
  cases held with
  | none => exact ⟨item, rfl⟩
  | some existing =>
      by_cases older : stamp item < stamp existing
      · exact ⟨existing, if_pos older⟩
      · exact ⟨item, if_neg older⟩

/-- Something is held after anything was written. -/
theorem exists_register (stamp : Item → Stamp) {items : List Item} (written : items ≠ []) :
    ∃ item, register stamp none items = some item := by
  cases items using List.reverseRecOn with
  | nil => contradiction
  | append_singleton items last =>
      rw [register_snoc]
      exact exists_newer _ last

/-- A register ends with the item before which nothing is newer, and after which everything
is older. -/
theorem register_eq_some {items : List Item} {item : Item}
    (held : register stamp none items = some item) :
    ∃ before after, items = before ++ item :: after ∧
      (∀ other ∈ before, stamp other ≤ stamp item) ∧ ∀ other ∈ after, stamp other < stamp item := by
  induction items using List.reverseRecOn generalizing item with
  | nil => contradiction
  | append_singleton items last ih =>
      rw [register_snoc] at held
      cases earlier : register stamp none items with
      | none =>
          rw [earlier] at held
          cases held
          have empty : items = [] := by
            by_contra written
            obtain ⟨kept, found⟩ := exists_register stamp written
            rw [earlier] at found
            contradiction
          exact ⟨[], [], by rw [empty], fun _ listed => by contradiction,
            fun _ listed => by contradiction⟩
      | some existing =>
          obtain ⟨before, after, split, atMost, below⟩ := ih earlier
          simp only [earlier, newer] at held
          split at held
          · rename_i older
            cases held
            refine ⟨before, after ++ [last], by rw [split, List.append_assoc]; rfl, atMost, ?_⟩
            intro other listed
            rcases List.mem_append.mp listed with inside | final
            · exact below other inside
            · rw [List.mem_singleton.mp final]
              exact older
          · rename_i recent
            cases held
            have reaches : stamp existing ≤ stamp last := not_lt.mp recent
            refine ⟨items, [], rfl, ?_, fun _ listed => by contradiction⟩
            intro other listed
            rw [split] at listed
            rcases List.mem_append.mp listed with inside | behind
            · exact le_trans (atMost other inside) reaches
            · rcases List.mem_cons.mp behind with rfl | inside
              · exact reaches
              · exact le_trans (le_of_lt (below other inside)) reaches

/-- What is held is one of the items, and no item is newer. -/
theorem register_mem {items : List Item} {item : Item}
    (held : register stamp none items = some item) :
    item ∈ items ∧ ∀ other ∈ items, stamp other ≤ stamp item := by
  obtain ⟨before, after, rfl, atMost, below⟩ := register_eq_some held
  refine ⟨List.mem_append_right before List.mem_cons_self, fun other listed => ?_⟩
  rcases List.mem_append.mp listed with inside | behind
  · exact atMost other inside
  · rcases List.mem_cons.mp behind with rfl | inside
    · exact le_rfl
    · exact le_of_lt (below other inside)

/-- A good item stands against a bad one: it is newer, or as new and later. -/
def Outbid (stamp : Item → Stamp) (good : Item → Prop) (before : List Item) (bad : Item)
    (after : List Item) : Prop :=
  (∃ better ∈ before, good better ∧ stamp bad < stamp better) ∨
    ∃ better ∈ after, good better ∧ stamp bad ≤ stamp better

/-- A register to which a good item is written ends with a good one exactly when every bad
one is outbid. -/
theorem register_good_iff {good : Item → Prop} {items : List Item}
    (written : ∃ item ∈ items, good item) :
    (∃ item, register stamp none items = some item ∧ good item) ↔
      ∀ before bad after, items = before ++ bad :: after → ¬good bad →
        Outbid stamp good before bad after := by
  constructor
  · rintro ⟨winner, held, wins⟩ before bad after split fails
    obtain ⟨front, back, sides, atMost, below⟩ := register_eq_some held
    have same := split.symm.trans sides
    rcases List.append_eq_append_iff.mp same with ⟨middle, rfl, rest⟩ | ⟨middle, rfl, rest⟩
    · cases middle with
      | nil =>
          cases rest
          exact absurd wins fails
      | cons first middle =>
          cases rest
          refine .inr ⟨winner, ?_, wins, atMost bad ?_⟩
          · exact List.mem_append_right middle List.mem_cons_self
          · exact List.mem_append_right before List.mem_cons_self
    · cases middle with
      | nil =>
          cases rest
          exact absurd wins fails
      | cons first middle =>
          cases rest
          refine .inl ⟨winner, ?_, wins, below bad ?_⟩
          · exact List.mem_append_right front List.mem_cons_self
          · exact List.mem_append_right middle List.mem_cons_self
  · intro outbid
    obtain ⟨some, listed, _⟩ := written
    obtain ⟨winner, held⟩ := exists_register stamp (List.ne_nil_of_mem listed)
    obtain ⟨front, back, sides, atMost, below⟩ := register_eq_some held
    refine ⟨winner, held, ?_⟩
    by_contra fails
    rcases outbid front winner back sides fails with
      ⟨better, inside, _, newer⟩ | ⟨better, inside, _, newer⟩
    · exact absurd newer (not_lt.mpr (atMost better inside))
    · exact absurd newer (not_le.mpr (below better inside))

/-- What is held is one of the items, and none of them is newer. -/
structure HoldsNewest (stamp : Item → Stamp) (held : Option Item) (items : List Item) : Prop where
  listed : ∀ item ∈ held, item ∈ items
  newest : ∀ item ∈ items, ∃ kept ∈ held, stamp item ≤ stamp kept

/-- Before any offer the held item is the newest one. -/
theorem holdsNewest_toList (held : Option Item) : HoldsNewest stamp held held.toList where
  listed _ kept := Option.mem_toList.mpr kept
  newest item kept := ⟨item, Option.mem_toList.mp kept, le_rfl⟩

/-- Writing an item keeps the newest one exactly when nothing newer was held. -/
theorem holdsNewest_write_iff {held : Option Item} {items : List Item}
    (before : HoldsNewest stamp held items) {item : Item} :
    HoldsNewest stamp (some item) (items ++ [item]) ↔ ∀ kept ∈ held, stamp kept ≤ stamp item := by
  constructor
  · intro after kept holds
    obtain ⟨written, found, reaches⟩ := after.newest kept
      (List.mem_append_left [item] (before.listed kept holds))
    cases found
    exact reaches
  · intro reaches
    refine ⟨?_, ?_⟩
    · intro written found
      cases found
      exact List.mem_append_right items (List.mem_singleton_self item)
    · intro other member
      refine ⟨item, rfl, ?_⟩
      rcases List.mem_append.mp member with earlier | last
      · obtain ⟨kept, holds, below⟩ := before.newest other earlier
        exact le_trans below (reaches kept holds)
      · rw [List.mem_singleton.mp last]

/-- Passing over an item keeps the newest one exactly when something as new was held. -/
theorem holdsNewest_refuse_iff {held : Option Item} {items : List Item}
    (before : HoldsNewest stamp held items) {item : Item} :
    HoldsNewest stamp held (items ++ [item]) ↔ ∃ kept ∈ held, stamp item ≤ stamp kept := by
  constructor
  · intro after
    exact after.newest item (List.mem_append_right items (List.mem_singleton_self item))
  · intro reached
    refine ⟨fun kept holds => List.mem_append_left [item] (before.listed kept holds), ?_⟩
    intro other member
    rcases List.mem_append.mp member with earlier | last
    · exact before.newest other earlier
    · rwa [List.mem_singleton.mp last]

/-- Of items with different stamps the one with the greatest stamp is held. -/
theorem HoldsNewest.eq_some {held : Option Item} {items : List Item}
    (holds : HoldsNewest stamp held items)
    (distinct : ∀ first ∈ items, ∀ second ∈ items, stamp first = stamp second → first = second)
    {item : Item} (member : item ∈ items) (greatest : ∀ other ∈ items, stamp other ≤ stamp item) :
    held = some item := by
  obtain ⟨kept, found, reaches⟩ := holds.newest item member
  have listed := holds.listed kept found
  have same := distinct kept listed item member (le_antisymm (greatest kept listed) reaches)
  rw [← same]
  exact found

end Nullspace.Base
