import Mathlib.Data.List.Nodup

/-!
# Inserting unless the key is there

A table with a unique key, as a list of its rows, to which rows are inserted as by
`INSERT OR IGNORE`: a row whose key the table has already is dropped. `complete_iff` says
when nothing gets lost that way.
-/

namespace Nullspace.Base

universe u v

variable {Row : Type u} {Key : Type v} [DecidableEq Key]

/-- Insert a row unless its key is there. -/
def insertOrIgnore (key : Row → Key) (rows : List Row) (row : Row) : List Row :=
  if key row ∈ rows.map key then rows else rows ++ [row]

/-- Insert rows one by one. -/
def insertAll (key : Row → Key) (rows inserts : List Row) : List Row :=
  inserts.foldl (insertOrIgnore key) rows

/-- Different rows have different keys. -/
def KeyTells (key : Row → Key) (rows : List Row) : Prop :=
  ∀ first ∈ rows, ∀ second ∈ rows, key first = key second → first = second

instance [DecidableEq Row] (key : Row → Key) (rows : List Row) : Decidable (KeyTells key rows) :=
  inferInstanceAs (Decidable (∀ first ∈ rows, ∀ second ∈ rows, key first = key second → first = second))

variable {key : Row → Key} {rows inserts : List Row}

/-- No row is lost by an insertion. -/
theorem subset_insertOrIgnore (row : Row) : rows ⊆ insertOrIgnore key rows row := by
  rw [insertOrIgnore]
  split
  · exact List.Subset.refl _
  · exact List.subset_append_left _ _

/-- An insertion brings no other row than its own. -/
theorem mem_of_mem_insertOrIgnore {row other : Row}
    (listed : other ∈ insertOrIgnore key rows row) : other ∈ rows ∨ other = row := by
  rw [insertOrIgnore] at listed
  split at listed
  · exact Or.inl listed
  · exact (List.mem_append.mp listed).imp_right List.mem_singleton.mp

/-- After an insertion there is a row with the key, the new one or an older one. -/
theorem key_mem_insertOrIgnore (row : Row) :
    key row ∈ (insertOrIgnore key rows row).map key := by
  rw [insertOrIgnore]
  split
  · assumption
  · exact List.mem_map_of_mem (List.mem_append_right _ (List.mem_singleton_self row))

/-- A row which gives way to no different one is there afterwards. -/
theorem mem_insertOrIgnore_self {row : Row}
    (alone : ∀ other ∈ rows, key other = key row → other = row) :
    row ∈ insertOrIgnore key rows row := by
  rw [insertOrIgnore]
  split
  · rename_i known
    obtain ⟨other, listed, same⟩ := List.mem_map.mp known
    exact alone other listed same ▸ listed
  · exact List.mem_append_right _ (List.mem_singleton_self row)

/-- Keys stay distinct. -/
theorem nodup_insertOrIgnore (distinct : (rows.map key).Nodup) (row : Row) :
    ((insertOrIgnore key rows row).map key).Nodup := by
  rw [insertOrIgnore]
  split
  · exact distinct
  · rename_i absent
    rw [List.map_append, List.map_singleton]
    exact distinct.append (List.nodup_singleton _) (List.disjoint_singleton.mpr absent)

/-- Insertions in two parts are made one part after the other. -/
theorem insertAll_append (later : List Row) :
    insertAll key rows (inserts ++ later) = insertAll key (insertAll key rows inserts) later :=
  List.foldl_append

/-- No row is lost by insertions. -/
theorem subset_insertAll : rows ⊆ insertAll key rows inserts := by
  induction inserts generalizing rows with
  | nil => exact List.Subset.refl _
  | cons first rest ih => exact List.Subset.trans (subset_insertOrIgnore first) ih

/-- Rows are only added behind the others. -/
theorem prefix_insertAll : rows <+: insertAll key rows inserts := by
  induction inserts generalizing rows with
  | nil => exact List.prefix_refl _
  | cons first rest ih =>
      have grown : rows <+: insertOrIgnore key rows first := by
        rw [insertOrIgnore]
        split
        · exact List.prefix_refl _
        · exact List.prefix_append _ _
      exact grown.trans ih

/-- A row was there before or is one of the inserted ones. -/
theorem mem_of_mem_insertAll {row : Row} (listed : row ∈ insertAll key rows inserts) :
    row ∈ rows ∨ row ∈ inserts := by
  induction inserts generalizing rows with
  | nil => exact Or.inl listed
  | cons first rest ih =>
      rcases ih listed with early | late
      · rcases mem_of_mem_insertOrIgnore early with old | rfl
        · exact Or.inl old
        · exact Or.inr List.mem_cons_self
      · exact Or.inr (List.mem_cons_of_mem first late)

/-- Whatever was inserted, a row with its key is there. -/
theorem key_mem_insertAll {row : Row} (listed : row ∈ inserts) :
    key row ∈ (insertAll key rows inserts).map key := by
  induction inserts generalizing rows with
  | nil => cases listed
  | cons first rest ih =>
      rcases List.mem_cons.mp listed with rfl | later
      · have here : key row ∈ (insertOrIgnore key rows row).map key := key_mem_insertOrIgnore row
        have kept : insertOrIgnore key rows row ⊆ insertAll key rows (row :: rest) :=
          subset_insertAll
        exact List.map_subset key kept here
      · exact ih later

/-- Keys stay distinct over any number of insertions. -/
theorem nodup_insertAll (distinct : (rows.map key).Nodup) :
    ((insertAll key rows inserts).map key).Nodup := by
  induction inserts generalizing rows with
  | nil => exact distinct
  | cons first rest ih => exact ih (nodup_insertOrIgnore distinct first)

omit [DecidableEq Key] in
/-- Where the keys are distinct, a row is told by its key. -/
theorem keyTells_of_nodup (distinct : (rows.map key).Nodup) : KeyTells key rows :=
  fun _ first _ second same => List.inj_on_of_nodup_map distinct first second same

/-- The table has all rows inserted exactly when different ones have different keys. -/
theorem complete_iff (distinct : (rows.map key).Nodup) :
    (∀ row, row ∈ insertAll key rows inserts ↔ row ∈ rows ∨ row ∈ inserts) ↔
      KeyTells key (rows ++ inserts) := by
  constructor
  · intro complete first firstListed second secondListed same
    exact keyTells_of_nodup (nodup_insertAll distinct)
      first ((complete first).mpr (List.mem_append.mp firstListed))
      second ((complete second).mpr (List.mem_append.mp secondListed)) same
  · intro tells row
    refine ⟨mem_of_mem_insertAll, ?_⟩
    rintro (old | inserted)
    · exact subset_insertAll old
    · have there : key row ∈ (insertAll key rows inserts).map key := key_mem_insertAll inserted
      obtain ⟨other, kept, same⟩ := List.mem_map.mp there
      have known : other ∈ rows ++ inserts := List.mem_append.mpr (mem_of_mem_insertAll kept)
      rw [← tells other known row (List.mem_append_right _ inserted) same]
      exact kept

/-- Numbers whose first copies come in ascending order. -/
def FirstsAscend (ids : List Nat) : Prop :=
  ∀ first ∈ ids, ∀ second ∈ ids, first < second → ids.idxOf first < ids.idxOf second

/-- Another copy, or a number which is not below the others. -/
theorem FirstsAscend.append {ids : List Nat} (ascend : FirstsAscend ids) {id : Nat}
    (fits : id ∈ ids ∨ ∀ other ∈ ids, other ≤ id) : FirstsAscend (ids ++ [id]) := by
  intro first firstListed second secondListed below
  have cases : ∀ {other}, other ∈ ids ++ [id] → other ∈ ids ∨ other = id := fun listed =>
    (List.mem_append.mp listed).imp_right List.mem_singleton.mp
  by_cases firstKnown : first ∈ ids
  · rw [List.idxOf_append_of_mem firstKnown]
    by_cases secondKnown : second ∈ ids
    · rw [List.idxOf_append_of_mem secondKnown]
      exact ascend first firstKnown second secondKnown below
    · rw [List.idxOf_append_of_notMem secondKnown]
      have inside := List.idxOf_lt_length_of_mem firstKnown
      omega
  · have isNew : first = id := (cases firstListed).resolve_left firstKnown
    subst isNew
    have highest := fits.resolve_left firstKnown
    rcases cases secondListed with secondKnown | same
    · have low := highest second secondKnown
      omega
    · omega

end Nullspace.Base
