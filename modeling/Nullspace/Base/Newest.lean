import Mathlib.Data.List.Sort
import Mathlib.Data.List.Count

/-!
# The newest rows of a list

`ORDER BY key DESC LIMIT n` over rows with different keys: `mem_newest` says which rows that
are, `newest_sorted` in which order they come, and `head_newest_eq_some` which one is the first.
-/

namespace Nullspace.Base

universe u

variable {Row : Type u} (key : Row → Nat)

/-- The first rows in the descending order of the key. -/
def newest (limit : Nat) (rows : List Row) : List Row :=
  (rows.mergeSort fun first second => key second ≤ key first).take limit

variable {key} {rows : List Row}

/-- Sorting puts the largest keys first. -/
theorem mergeSort_descending (rows : List Row) :
    (rows.mergeSort fun first second => key second ≤ key first).Pairwise fun first second =>
      key second ≤ key first := by
  have sorted : (rows.mergeSort fun first second => key second ≤ key first).Pairwise
      fun first second => decide (key second ≤ key first) = true := by
    apply List.pairwise_mergeSort
    · intro first second third before after
      simp only [decide_eq_true_eq] at before after ⊢
      omega
    · intro first second
      simp only [Bool.or_eq_true, decide_eq_true_eq]
      omega
  exact sorted.imp of_decide_eq_true

/-- The newest rows are given with the largest keys first. -/
theorem newest_sorted (limit : Nat) :
    (newest key limit rows).Pairwise fun first second => key second ≤ key first :=
  (mergeSort_descending rows).take

/-- The rows of a descending list which are among its first. -/
theorem mem_take_descending {sorted : List Row}
    (descends : sorted.Pairwise fun first second => key second ≤ key first)
    (distinct : (sorted.map key).Nodup) (limit : Nat) (row : Row) :
    row ∈ sorted.take limit ↔
      row ∈ sorted ∧ sorted.countP (fun other => key row < key other) < limit := by
  induction sorted generalizing limit with
  | nil => simp
  | cons first rest ih =>
      obtain ⟨below, descendsRest⟩ := List.pairwise_cons.mp descends
      rw [List.map_cons, List.nodup_cons] at distinct
      cases limit with
      | zero => simp
      | succ limit =>
          rw [List.take_succ_cons, List.mem_cons, List.mem_cons, ih descendsRest distinct.2,
            List.countP_cons]
          constructor
          · rintro (rfl | ⟨listed, few⟩)
            · have none : rest.countP (fun other => decide (key row < key other)) = 0 := by
                rw [List.countP_eq_zero]
                intro other listed
                have low := below other listed
                simpa using low
              simp [none]
            · refine ⟨Or.inr listed, ?_⟩
              split <;> omega
          · rintro ⟨rfl | listed, few⟩
            · exact Or.inl rfl
            · refine Or.inr ⟨listed, ?_⟩
              have low := below row listed
              have apart : key row ≠ key first := fun same =>
                distinct.1 (same ▸ List.mem_map_of_mem listed)
              have above : key row < key first := by omega
              rw [if_pos (decide_eq_true above)] at few
              omega

/-- A row is among the newest when few rows are newer. -/
theorem mem_newest (distinct : (rows.map key).Nodup) (limit : Nat) (row : Row) :
    row ∈ newest key limit rows ↔
      row ∈ rows ∧ rows.countP (fun other => key row < key other) < limit := by
  have perm : (rows.mergeSort fun first second => key second ≤ key first).Perm rows :=
    List.mergeSort_perm rows _
  rw [newest, mem_take_descending (mergeSort_descending rows)
    ((perm.map key).nodup_iff.mpr distinct), perm.mem_iff, perm.countP_eq]

/-- The newest row is the one which no row is newer than. -/
theorem head_newest_eq_some (distinct : (rows.map key).Nodup) {row : Row} :
    (newest key 1 rows).head? = some row ↔ row ∈ rows ∧ ∀ other ∈ rows, key other ≤ key row := by
  have short : (newest key 1 rows).length ≤ 1 := List.length_take_le 1 _
  have listed : (newest key 1 rows).head? = some row ↔ row ∈ newest key 1 rows := by
    cases found : newest key 1 rows with
    | nil => simp
    | cons first rest =>
        rw [found, List.length_cons] at short
        have alone : rest = [] := List.length_eq_zero_iff.mp (by omega)
        rw [alone, List.head?_cons, Option.some.injEq, List.mem_singleton]
        exact eq_comm
  rw [listed, mem_newest distinct, Nat.lt_one_iff, List.countP_eq_zero]
  simp only [decide_eq_true_eq, Nat.not_lt]

/-- There is no newest row only where there is no row. -/
theorem head_newest_eq_none : (newest key 1 rows).head? = none ↔ rows = [] := by
  rw [List.head?_eq_none_iff, newest, List.take_eq_nil_iff, or_iff_right (by decide),
    ← List.length_eq_zero_iff, List.length_mergeSort, List.length_eq_zero_iff]

/-- Of an ascending list the last rows are the newest. -/
theorem newest_of_ascending
    (ascends : rows.Pairwise fun first second => key first < key second) (limit : Nat) :
    newest key limit rows = rows.reverse.take limit := by
  have descends : rows.reverse.Pairwise fun first second => key second ≤ key first :=
    (List.pairwise_reverse.mpr ascends).imp le_of_lt
  have perm : (rows.mergeSort fun first second => key second ≤ key first).Perm rows.reverse :=
    (List.mergeSort_perm rows _).trans (List.reverse_perm rows).symm
  have distinct : (rows.map key).Nodup :=
    List.pairwise_map.mpr (ascends.imp fun below => ne_of_lt below)
  rw [newest, perm.eq_of_pairwise ?_ (mergeSort_descending rows) descends]
  intro first second listed other below above
  refine List.inj_on_of_nodup_map distinct ?_ (List.mem_reverse.mp other) (le_antisymm above below)
  exact (List.mergeSort_perm rows _).mem_iff.mp listed

end Nullspace.Base
