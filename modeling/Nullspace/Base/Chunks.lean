import Mathlib.Data.List.Flatten
import Mathlib.Data.List.Forall2

/-!
# Lists in chunks, and traversals of lists

A list is cut into chunks of one length, the last of which may be shorter. A traversal takes
a step for each item, and ends with the first which fails.
-/

namespace Nullspace.Base

universe u v

variable {Item : Type u} {Other : Type v}

/-- How many chunks there are. -/
def chunkCount (size length : Nat) : Nat := (length + size - 1) / size

/-- One of the chunks. -/
def chunkAt (size : Nat) (items : List Item) (index : Nat) : List Item :=
  (items.drop (index * size)).take size

def chunks (size : Nat) (items : List Item) : List (List Item) :=
  (List.range (chunkCount size items.length)).map (chunkAt size items)

/-- There are as many chunks as the length is divided by the size, rounded up. -/
theorem length_chunks (size : Nat) (items : List Item) :
    (chunks size items).length = chunkCount size items.length := by
  rw [chunks, List.length_map, List.length_range]

/-- The chunks have room for all of the items. -/
theorem le_chunkCount_mul {size : Nat} (positive : 0 < size) (length : Nat) :
    length ≤ chunkCount size length * size := by
  have whole := Nat.div_add_mod (length + size - 1) size
  have rest := Nat.mod_lt (length + size - 1) positive
  rw [chunkCount, Nat.mul_comm]
  omega

/-- There are fewer chunks than items, unless chunks are single items. -/
theorem chunkCount_lt {size length : Nat} (several : 1 < size) (above : size < length) :
    chunkCount size length < length := by
  rw [chunkCount, Nat.div_lt_iff_lt_mul (by omega)]
  have grows : length * 2 ≤ length * size := Nat.mul_le_mul_left length several
  omega

/-- The first chunks hold the first items, in order. -/
theorem flatten_range_chunkAt (size : Nat) (items : List Item) (count : Nat) :
    ((List.range count).map (chunkAt size items)).flatten = items.take (count * size) := by
  induction count with
  | zero => simp
  | succ count ih =>
      rw [List.range_succ, List.map_append, List.flatten_append, ih, Nat.succ_mul, List.take_add]
      simp [chunkAt]

/-- Chunks put together are the list which was cut. -/
theorem flatten_chunks {size : Nat} (positive : 0 < size) (items : List Item) :
    (chunks size items).flatten = items := by
  rw [chunks, flatten_range_chunkAt]
  exact List.take_of_length_le (le_chunkCount_mul positive items.length)

/-- A chunk of lists holds no more items than all of the lists do. -/
theorem length_flatten_chunkAt (size : Nat) (lists : List (List Item)) (index : Nat) :
    (chunkAt size lists index).flatten.length ≤ lists.flatten.length := by
  have sublist : (chunkAt size lists index).Sublist lists :=
    (List.take_sublist _ _).trans (List.drop_sublist _ _)
  exact sublist.flatten.length_le

/-- Chunks of lists which are related item by item are related item by item. -/
theorem forall₂_chunkAt {related : Item → Other → Prop} {items : List Item} {others : List Other}
    (size : Nat) (all : List.Forall₂ related items others) (index : Nat) :
    List.Forall₂ related (chunkAt size items index) (chunkAt size others index) :=
  List.forall₂_take size (List.forall₂_drop (index * size) all)

/-- Related lists have related chunks. -/
theorem forall₂_chunks {related : Item → Other → Prop} {items : List Item} {others : List Other}
    (size : Nat) (all : List.Forall₂ related items others) :
    List.Forall₂ (List.Forall₂ related) (chunks size items) (chunks size others) := by
  rw [chunks, chunks, ← all.length_eq, List.forall₂_map_left_iff, List.forall₂_map_right_iff,
    List.forall₂_same]
  exact fun index _ => forall₂_chunkAt size all index

/-- A traversal succeeds with the results of its steps. -/
theorem mapM_eq_ok {Error Result : Type u} {step : Item → Except Error Result}
    {items : List Item} {results : List Result} :
    items.mapM step = .ok results ↔
      List.Forall₂ (fun item result => step item = .ok result) items results := by
  induction items generalizing results with
  | nil => simp [List.mapM_nil, pure, Except.pure, eq_comm]
  | cons item items ih =>
      rw [List.mapM_cons, List.forall₂_cons_left_iff]
      cases head : step item with
      | error err => simp [bind, Except.bind]
      | ok result =>
          cases tail : items.mapM step with
          | error err =>
              simp only [tail] at ih
              simp [bind, Except.bind, ← ih]
          | ok others =>
              simp only [tail] at ih
              simp [bind, Except.bind, pure, Except.pure, ← ih, eq_comm]

/-- A traversal whose every step succeeds succeeds. -/
theorem exists_mapM_eq_ok {Error Result : Type u} {step : Item → Except Error Result}
    {items : List Item} (steps : ∀ item ∈ items, ∃ result, step item = .ok result) :
    ∃ results, items.mapM step = .ok results := by
  induction items with
  | nil => exact ⟨[], rfl⟩
  | cons item items ih =>
      obtain ⟨result, head⟩ := steps item List.mem_cons_self
      obtain ⟨results, tail⟩ := ih fun other listed => steps other (List.mem_cons_of_mem _ listed)
      exact ⟨result :: results, mapM_eq_ok.mpr (.cons head (mapM_eq_ok.mp tail))⟩

/-- A traversal fails with the error of one of its steps. -/
theorem exists_of_mapM_eq_error {Error Result : Type u} {step : Item → Except Error Result}
    {items : List Item} {err : Error} (failed : items.mapM step = .error err) :
    ∃ item ∈ items, step item = .error err := by
  induction items with
  | nil => contradiction
  | cons item items ih =>
      rw [List.mapM_cons] at failed
      cases head : step item with
      | error reason =>
          rw [head] at failed
          cases failed
          exact ⟨item, List.mem_cons_self, head⟩
      | ok result =>
          cases tail : items.mapM step with
          | error reason =>
              rw [head, tail] at failed
              cases failed
              obtain ⟨found, listed, holds⟩ := ih tail
              exact ⟨found, List.mem_cons_of_mem _ listed, holds⟩
          | ok results =>
              rw [head, tail] at failed
              contradiction

/-- Each item of the first list has a related one in the second. -/
theorem exists_of_mem_forall₂ {related : Item → Other → Prop} {items : List Item} {others : List Other}
    (all : List.Forall₂ related items others) {item : Item} (listed : item ∈ items) :
    ∃ other ∈ others, related item other := by
  induction all with
  | nil => contradiction
  | cons head _ ih =>
      rcases List.mem_cons.mp listed with rfl | later
      · exact ⟨_, List.mem_cons_self, head⟩
      · obtain ⟨other, inside, holds⟩ := ih later
        exact ⟨other, List.mem_cons_of_mem _ inside, holds⟩

end Nullspace.Base
