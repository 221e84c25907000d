import Mathlib.Data.List.AList
import Mathlib.Data.List.Sort

/-!
# Keyed tables

A database table or an ordered map, as far as only its rows by key matter: an
association list with distinct keys. The order of the rows is not an iteration order
of the source.
-/

namespace Nullspace.Base

universe u v

/-- Rows with distinct keys. -/
abbrev Table (Key : Type u) (Row : Type v) := AList fun _ : Key => Row

namespace Table

variable {Key : Type u} {Row : Type v}

/-- The rows as key-row pairs. -/
def rows (table : Table Key Row) : List (Key × Row) :=
  table.entries.map fun entry => (entry.1, entry.2)

/-- Each key of a table has one row. -/
theorem rows_keys_nodup (table : Table Key Row) : (table.rows.map Prod.fst).Nodup := by
  have nodup := table.nodupKeys
  rw [List.NodupKeys, List.keys] at nodup
  simpa [rows, Function.comp_def] using nodup

variable [DecidableEq Key]

theorem mem_rows {table : Table Key Row} {key : Key} {row : Row} :
    (key, row) ∈ table.rows ↔ table.lookup key = some row := by
  rw [← Option.mem_def, AList.mem_lookup_iff]
  constructor
  · intro member
    obtain ⟨entry, listed, same⟩ := List.mem_map.mp member
    obtain ⟨entryKey, entryRow⟩ := entry
    cases same
    exact listed
  · intro listed
    exact List.mem_map.mpr ⟨⟨key, row⟩, listed, rfl⟩

/-- The rows which pass a check, as `DELETE` leaves them. -/
def keep (table : Table Key Row) (check : Row → Bool) : Table Key Row :=
  ⟨table.entries.filter fun entry => check entry.2, table.nodupKeys.sublist List.filter_sublist⟩

/-- The rows which pass a check together with their keys. -/
def keepRows (table : Table Key Row) (check : Key → Row → Bool) : Table Key Row :=
  ⟨table.entries.filter fun entry => check entry.1 entry.2,
    table.nodupKeys.sublist List.filter_sublist⟩

/-- A row which is kept was there and passes the check. -/
theorem lookup_keepRows {table : Table Key Row} {check : Key → Row → Bool} {key : Key}
    {row : Row} : (table.keepRows check).lookup key = some row ↔
      table.lookup key = some row ∧ check key row = true := by
  rw [← Option.mem_def, ← Option.mem_def, AList.mem_lookup_iff, AList.mem_lookup_iff, keepRows,
    List.mem_filter]

/-- A table is empty exactly when it finds nothing. -/
theorem isEmpty_entries {table : Table Key Row} :
    table.entries.isEmpty = false ↔ ∃ key row, table.lookup key = some row := by
  simp only [← Option.mem_def, AList.mem_lookup_iff, List.isEmpty_eq_false_iff_exists_mem]
  constructor
  · rintro ⟨⟨key, row⟩, listed⟩
    exact ⟨key, row, listed⟩
  · rintro ⟨key, row, listed⟩
    exact ⟨⟨key, row⟩, listed⟩

/-- `INSERT` of a row whose key must be new. -/
def insertNew (table : Table Key Row) (key : Key) (row : Row) : Option (Table Key Row) :=
  if key ∈ table then none else some (table.insert key row)

/-- An insertion changes the row of its own key only. -/
theorem lookup_insert_eq (table : Table Key Row) (key other : Key) (row : Row) :
    (table.insert key row).lookup other = if other = key then some row else table.lookup other := by
  by_cases same : other = key
  · subst same
    simp
  · rw [AList.lookup_insert_ne same, if_neg same]

/-- A row which is found after an insertion is the new one, or was there. -/
theorem lookup_insert_cases {table : Table Key Row} {key other : Key} {row found : Row}
    (looked : (table.insert key row).lookup other = some found) :
    (other = key ∧ found = row) ∨ table.lookup other = some found := by
  rw [lookup_insert_eq] at looked
  split at looked
  · rename_i same
    exact .inl ⟨same, (Option.some.inj looked).symm⟩
  · exact .inr looked

/-- A row found after an erasure was there before. -/
theorem lookup_of_lookup_erase {table : Table Key Row} {key other : Key} {row : Row}
    (found : (table.erase key).lookup other = some row) : table.lookup other = some row := by
  by_cases same : other = key
  · subst same
    simp at found
  · rwa [AList.lookup_erase_ne same] at found

/-- A row found after some rows were dropped was there before. -/
theorem lookup_of_lookup_keep {table : Table Key Row} {check : Row → Bool} {key : Key} {row : Row}
    (found : (table.keep check).lookup key = some row) : table.lookup key = some row := by
  rw [← Option.mem_def, AList.mem_lookup_iff] at found ⊢
  exact (List.mem_filter.mp found).1

/-- A row with a new key comes in front. -/
theorem rows_insert {table : Table Key Row} {key : Key} {row : Row} (absent : key ∉ table) :
    rows (table.insert key row) = (key, row) :: table.rows := by
  rw [rows, AList.entries_insert_of_notMem absent, List.map_cons]
  rfl

omit [DecidableEq Key] in
/-- The rows which are kept, in the order of before. -/
theorem rows_keep (table : Table Key Row) (check : Row → Bool) :
    (table.keep check).rows = table.rows.filter fun row => check row.2 := by
  rw [rows, keep, rows, List.filter_map]
  rfl

/-- A row which passes, or a missing one, is found as before. -/
theorem lookup_keep {table : Table Key Row} {check : Row → Bool} {key : Key}
    (passes : ∀ row, table.lookup key = some row → check row = true) :
    (table.keep check).lookup key = table.lookup key := by
  cases found : table.lookup key with
  | none =>
      refine Option.eq_none_iff_forall_ne_some.mpr ?_
      intro row kept
      rw [lookup_of_lookup_keep kept] at found
      cases found
  | some row =>
      rw [← mem_rows, rows_keep, List.mem_filter]
      exact ⟨mem_rows.mpr found, passes row found⟩

/-- What is read from the rows stays the same when neither the new row nor the row whose
place it takes counts. -/
theorem filterMap_rows_insert {Item : Type v} {read : Key × Row → Option Item}
    {table : Table Key Row} {key : Key} {row : Row} (new : read (key, row) = none)
    (old : ∀ earlier, table.lookup key = some earlier → read (key, earlier) = none) :
    (rows (table.insert key row)).filterMap read = table.rows.filterMap read := by
  have erased : ∀ entries : List (Sigma fun _ : Key => Row),
      (∀ earlier, ⟨key, earlier⟩ ∈ entries → read (key, earlier) = none) →
        ((entries.kerase key).map fun entry => (entry.1, entry.2)).filterMap read =
          (entries.map fun entry => (entry.1, entry.2)).filterMap read := by
    intro entries silent
    induction entries with
    | nil => rfl
    | cons entry rest ih =>
        by_cases same : key = entry.1
        · subst same
          rw [List.kerase_cons_eq rfl, List.map_cons,
            List.filterMap_cons_none (silent entry.2 List.mem_cons_self)]
        · rw [List.kerase_cons_ne same, List.map_cons, List.map_cons, List.filterMap_cons,
            List.filterMap_cons, ih fun earlier listed => silent earlier (List.mem_cons_of_mem _ listed)]
  rw [rows, AList.entries_insert, List.map_cons, List.filterMap_cons_none new, rows]
  apply erased
  intro earlier listed
  exact old earlier (AList.mem_lookup_iff.mpr listed)

/-- What is read from the rows is the same, in some order, when a row takes the place of one which
reads the same. -/
theorem map_rows_insert_perm {Item : Type v} {read : Key × Row → Item} {table : Table Key Row}
    {key : Key} {row earlier : Row} (present : table.lookup key = some earlier)
    (same : read (key, row) = read (key, earlier)) :
    ((rows (table.insert key row)).map read).Perm (table.rows.map read) := by
  have listed : key ∈ table.entries.keys :=
    AList.mem_keys.mp (AList.lookup_isSome.mp (by rw [present]; rfl))
  obtain ⟨found, before, after, -, entries, erased⟩ := List.exists_of_kerase listed
  have replaced : found = earlier := by
    have member : (⟨key, found⟩ : Sigma fun _ : Key => Row) ∈ table.entries := by
      rw [entries]
      exact List.mem_append_right before List.mem_cons_self
    exact Option.some.inj ((AList.mem_lookup_iff.mpr member).symm.trans present)
  subst replaced
  rw [rows, AList.entries_insert, erased, rows, entries]
  simp only [List.map_cons, List.map_append, same]
  exact List.perm_middle.symm

/-- The row of the greatest height: `ORDER BY height DESC LIMIT 1`. -/
def last? (table : Table Nat Row) : Option (Nat × Row) :=
  match table.keys.max? with
  | none => none
  | some height => (table.lookup height).map fun row => (height, row)

/-- The last row is the one with the largest height. -/
theorem last?_eq_some {table : Table Nat Row} {height : Nat} {row : Row} :
    table.last? = some (height, row) ↔
      table.lookup height = some row ∧ ∀ other ∈ table.keys, other ≤ height := by
  constructor
  · intro found
    rw [last?] at found
    cases greatest : table.keys.max? with
    | none => simp [greatest] at found
    | some top =>
        simp only [greatest, Option.map_eq_some_iff, Prod.mk.injEq] at found
        obtain ⟨_, looked, rfl, rfl⟩ := found
        exact ⟨looked, (List.max?_eq_some_iff.mp greatest).2⟩
  · rintro ⟨looked, bound⟩
    have listed : height ∈ table.keys := AList.mem_keys.mp (AList.lookup_isSome.mp (by simp [looked]))
    have greatest : table.keys.max? = some height := List.max?_eq_some_iff.mpr ⟨listed, bound⟩
    simp [last?, greatest, looked]

/-- Only an empty table has no last row. -/
theorem last?_eq_none {table : Table Nat Row} : table.last? = none ↔ table = ∅ := by
  constructor
  · intro missing
    cases greatest : table.keys.max? with
    | none =>
        have noKeys : table.keys = [] := List.max?_eq_none_iff.mp greatest
        exact AList.ext (by simpa [AList.keys, List.keys] using noKeys)
    | some top =>
        have listed : top ∈ table := AList.mem_keys.mpr (List.max?_eq_some_iff.mp greatest).1
        obtain ⟨row, looked⟩ := Option.isSome_iff_exists.mp (AList.lookup_isSome.mpr listed)
        simp [last?, greatest, looked] at missing
  · rintro rfl
    rfl

/-- A row above all others becomes the last one. -/
theorem last?_insert {table : Table Nat Row} {height : Nat} (row : Row)
    (above : ∀ other ∈ table.keys, other < height) :
    Table.last? (table.insert height row) = some (height, row) := by
  refine last?_eq_some.mpr ⟨AList.lookup_insert table, ?_⟩
  intro other listed
  rcases (AList.mem_insert table).mp (AList.mem_keys.mpr listed) with rfl | earlier
  · exact le_refl _
  · exact Nat.le_of_lt (above other (AList.mem_keys.mp earlier))

/-- Tables with the same rows have the same last row. -/
theorem last?_congr {first second : Table Nat Row}
    (same : ∀ height, first.lookup height = second.lookup height) : first.last? = second.last? := by
  cases last : first.last? with
  | none =>
      cases other : second.last? with
      | none => rfl
      | some found =>
          have listed := (last?_eq_some.mp other).1
          rw [← same, last?_eq_none.mp last] at listed
          cases listed
  | some found =>
      obtain ⟨height, row⟩ := found
      obtain ⟨found, greatest⟩ := last?_eq_some.mp last
      refine (last?_eq_some.mpr ⟨?_, ?_⟩).symm
      · rw [← same]
        exact found
      · intro other listed
        refine greatest other (AList.mem_keys.mp (AList.lookup_isSome.mp ?_))
        rw [same]
        exact AList.lookup_isSome.mpr (AList.mem_keys.mpr listed)

/-- They have the same heights, in order. -/
theorem sortedKeys_congr {first second : Table Nat Row}
    (same : ∀ height, first.lookup height = second.lookup height) (check : Nat → Bool) :
    (first.keys.filter check).insertionSort (· ≤ ·) =
      (second.keys.filter check).insertionSort (· ≤ ·) := by
  have keys : first.keys.Perm second.keys := by
    refine (List.perm_ext_iff_of_nodup first.keys_nodup second.keys_nodup).mpr ?_
    intro height
    rw [← AList.mem_keys, ← AList.mem_keys, ← AList.lookup_isSome, ← AList.lookup_isSome, same]
  have sorted := (List.perm_insertionSort (· ≤ ·) (first.keys.filter check)).trans
    ((keys.filter check).trans (List.perm_insertionSort (· ≤ ·) _).symm)
  exact sorted.eq_of_pairwise (fun _ _ _ _ => Nat.le_antisymm) (List.pairwise_insertionSort _ _)
    (List.pairwise_insertionSort _ _)

end Table
end Nullspace.Base
