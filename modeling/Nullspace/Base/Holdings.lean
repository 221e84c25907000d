import Nullspace.Base.Table

/-!
# Rows in different hands

Several parties work on one table, each on keys of its own. A holding is a key with what its
holder knows of the row there. While no two holdings are of one key, a write to one of them
leaves what is known of the others as it is.
-/

namespace Nullspace.Base

universe u v

variable {Key : Type u} {Row : Type v} [DecidableEq Key]

/-- A key, and what its holder knows of the row. -/
abbrev Holding (Key : Type u) (Row : Type v) := Key × (Row → Prop)

/-- The holdings are of different keys, and what is known of the rows is right. -/
structure Held (table : Table Key Row) (holdings : List (Holding Key Row)) : Prop where
  apart : (holdings.map Prod.fst).Nodup
  known : ∀ holding ∈ holdings, ∃ row ∈ table.lookup holding.1, holding.2 row

namespace Held

variable {table : Table Key Row} {holdings others : List (Holding Key Row)} {key : Key}
  {knows : Row → Prop} {row : Row}

/-- Any table has what an empty list of holdings says. -/
theorem nil (table : Table Key Row) : Held table [] :=
  ⟨.nil, fun _ listed => by contradiction⟩

/-- The order of the holdings does not matter. -/
theorem perm (held : Held table holdings) (same : holdings.Perm others) : Held table others :=
  ⟨(same.map Prod.fst).nodup_iff.mp held.apart,
    fun holding listed => held.known holding (same.mem_iff.mpr listed)⟩

/-- Holdings can be given up. -/
theorem drop (held : Held table (holdings ++ others)) : Held table others where
  apart := by
    have apart := held.apart
    rw [List.map_append] at apart
    exact apart.of_append_right
  known holding listed := held.known holding (List.mem_append_right _ listed)

/-- A holding has its row, which is as it says. -/
theorem lookup (held : Held table ((key, knows) :: holdings)) :
    ∃ row ∈ table.lookup key, knows row :=
  held.known _ List.mem_cons_self

/-- A key without a suitable row is in nobody's hands. -/
theorem notMem (held : Held table holdings) {suits : Row → Prop}
    (free : ∀ row ∈ table.lookup key, ¬suits row)
    (all : ∀ holding ∈ holdings, ∀ row, holding.2 row → suits row) :
    key ∉ holdings.map Prod.fst := by
  intro listed
  obtain ⟨holding, inside, rfl⟩ := List.mem_map.mp listed
  obtain ⟨row, found, holds⟩ := held.known holding inside
  exact free row found (all holding inside row holds)

/-- Nobody holds a key which the table does not have. -/
theorem notMem_of_absent (held : Held table holdings) (absent : key ∉ table) :
    key ∉ holdings.map Prod.fst := by
  intro listed
  obtain ⟨holding, inside, rfl⟩ := List.mem_map.mp listed
  obtain ⟨row, found, _⟩ := held.known holding inside
  rw [AList.lookup_eq_none.mpr absent] at found
  contradiction

/-- A row is written at a key which nobody holds, and is held from then on. -/
theorem insert (held : Held table holdings) (fresh : key ∉ holdings.map Prod.fst)
    (knows : Row → Prop) (right : knows row) :
    Held (table.insert key row) ((key, knows) :: holdings) where
  apart := List.nodup_cons.mpr ⟨fresh, held.apart⟩
  known := by
    refine List.forall_mem_cons.mpr ⟨⟨row, AList.lookup_insert table, right⟩, ?_⟩
    intro holding listed
    obtain ⟨found, looked, holds⟩ := held.known holding listed
    have other : holding.1 ≠ key := by
      rintro rfl
      exact fresh (List.mem_map_of_mem listed)
    exact ⟨found, (AList.lookup_insert_ne other).trans looked, holds⟩

/-- The row of a holding is written. -/
theorem update {before : Row → Prop} (held : Held table ((key, before) :: holdings))
    (knows : Row → Prop) (right : knows row) : Held (table.insert key row) ((key, knows) :: holdings) := by
  have whole : Held table ([(key, _)] ++ holdings) := held
  exact whole.drop.insert (List.nodup_cons.mp held.apart).1 knows right

/-- The row of a holding is deleted. -/
theorem erase (held : Held table ((key, knows) :: holdings)) : Held (table.erase key) holdings := by
  obtain ⟨fresh, apart⟩ : key ∉ holdings.map Prod.fst ∧ (holdings.map Prod.fst).Nodup :=
    List.nodup_cons.mp held.apart
  refine ⟨apart, fun holding listed => ?_⟩
  obtain ⟨found, looked, holds⟩ := held.known holding (List.mem_cons_of_mem _ listed)
  have other : holding.1 ≠ key := by
    rintro rfl
    exact fresh (List.mem_map_of_mem listed)
  exact ⟨found, (AList.lookup_erase_ne other).trans looked, holds⟩

end Held
end Nullspace.Base
