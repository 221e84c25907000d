import Mathlib.Data.List.GetD

/-!
# Writes at offsets

A file is written at offsets, in any order: a write replaces what it covers, and what it
skips beyond the end is filled. `overlay` is what some writes leave. Its length is the
farthest end, and at each position it has what the last write there put (`last?`).

`Buffered limit waiting running order` says in which orders writers get their writes in
which are started one after the other, at most `limit` of them at a time. Whatever the
order, a position has what some writer put there last.
-/

namespace Nullspace.Base

universe u

variable {Item : Type u}

/-- Some data for an offset. -/
abbrev Write (Item : Type u) := Nat × List Item

/-- The file after a write. Writing nothing does not extend a file. -/
def overwrite (filler : Item) (content : List Item) (write : Write Item) : List Item :=
  if write.2 = [] then content
  else
    content.take write.1 ++ List.replicate (write.1 - content.length) filler ++ write.2 ++
      content.drop (write.1 + write.2.length)

/-- The file after some writes. -/
def overlay (filler : Item) (content : List Item) (writes : List (Write Item)) : List Item :=
  writes.foldl (overwrite filler) content

/-- What a write puts at a position. -/
def puts (write : Write Item) (position : Nat) : Option Item :=
  if write.1 ≤ position then write.2[position - write.1]? else none

/-- What the last write at a position puts there. -/
def last? (writes : List (Write Item)) (position : Nat) : Option Item :=
  writes.reverse.findSome? fun write => puts write position

/-- Where a write ends; one of nothing ends nowhere. -/
def endOf (write : Write Item) : Nat := if write.2 = [] then 0 else write.1 + write.2.length

/-- The farthest end. -/
def reach (writes : List (Write Item)) : Nat := writes.foldr (fun write far => max (endOf write) far) 0

/-! ## What writes leave -/

/-- A write reaches as far as its end, and shortens nothing. -/
theorem length_overwrite (filler : Item) (content : List Item) (write : Write Item) :
    (overwrite filler content write).length = max content.length (endOf write) := by
  rw [overwrite, endOf]
  split
  · simp
  · simp only [List.length_append, List.length_take, List.length_replicate, List.length_drop]
    omega

/-- What stands before the data of a write. -/
theorem getD_padded {filler : Item} {content : List Item} {offset position : Nat}
    (before : position < offset) :
    (content.take offset ++ List.replicate (offset - content.length) filler).getD position filler =
      content.getD position filler := by
  by_cases inside : position < content.length
  · have within : position < (content.take offset).length := by
      rw [List.length_take]
      omega
    rw [List.getD_append _ _ _ _ within]
    simp [before]
  · have beyond : (content.take offset).length ≤ position := by
      rw [List.length_take]
      omega
    rw [List.getD_append_right _ _ _ _ beyond, List.getD_eq_default content filler (by omega)]
    rw [List.getD_eq_getElem?_getD, List.getElem?_replicate]
    split <;> rfl

/-- A position holds what the write puts there, or else what was there before. -/
theorem getD_overwrite (filler : Item) (content : List Item) (write : Write Item) (position : Nat) :
    (overwrite filler content write).getD position filler =
      (puts write position).getD (content.getD position filler) := by
  rw [overwrite, puts]
  split
  · rename_i nothing
    simp [nothing]
  · have front : (content.take write.1 ++
        List.replicate (write.1 - content.length) filler).length = write.1 := by
      simp only [List.length_append, List.length_take, List.length_replicate]
      omega
    rw [List.append_assoc]
    by_cases before : position < write.1
    · rw [List.getD_append _ _ _ _ (by omega), getD_padded before, if_neg (by omega)]
      rfl
    · rw [List.getD_append_right _ _ _ _ (by omega), front, if_pos (by omega)]
      by_cases inside : position - write.1 < write.2.length
      · rw [List.getD_append _ _ _ _ inside]
        simp [List.getElem?_eq_getElem inside]
      · rw [List.getD_append_right _ _ _ _ (by omega)]
        have position_eq : write.1 + write.2.length + (position - write.1 - write.2.length) =
            position := by omega
        simp [List.getElem?_eq_none (Nat.le_of_not_lt inside), position_eq]

/-- The last writer of a position is one of the later writes, if any of them puts something
there. -/
theorem last?_append (first second : List (Write Item)) (position : Nat) :
    last? (first ++ second) position = (last? second position).or (last? first position) := by
  rw [last?, List.reverse_append, List.findSome?_append]
  rfl

/-- The first write of a list counts where no later one puts anything. -/
theorem last?_cons (write : Write Item) (writes : List (Write Item)) (position : Nat) :
    last? (write :: writes) position = (last? writes position).or (puts write position) := by
  rw [← List.singleton_append, last?_append]
  congr 1
  simp [last?]

/-- The writes reach no further than a bound when none of them does. -/
theorem reach_le_iff {writes : List (Write Item)} {bound : Nat} :
    reach writes ≤ bound ↔ ∀ write ∈ writes, endOf write ≤ bound := by
  induction writes with
  | nil => simp [reach]
  | cons write writes ih =>
      have far : reach (write :: writes) = max (endOf write) (reach writes) := rfl
      rw [far, Nat.max_le, ih, List.forall_mem_cons]

theorem reach_perm {first second : List (Write Item)} (same : first.Perm second) :
    reach first = reach second := by
  apply Nat.le_antisymm
  · exact reach_le_iff.mpr fun write listed =>
      reach_le_iff.mp (Nat.le_refl (reach second)) write (same.mem_iff.mp listed)
  · exact reach_le_iff.mpr fun write listed =>
      reach_le_iff.mp (Nat.le_refl (reach first)) write (same.mem_iff.mpr listed)

/-- Writes make a content as long as they reach, and never shorter. -/
theorem length_overlay (filler : Item) (content : List Item) (writes : List (Write Item)) :
    (overlay filler content writes).length = max content.length (reach writes) := by
  induction writes generalizing content with
  | nil => simp [overlay, reach]
  | cons write writes ih =>
      have step : overlay filler content (write :: writes) =
          overlay filler (overwrite filler content write) writes := rfl
      have far : reach (write :: writes) = max (endOf write) (reach writes) := rfl
      rw [step, ih, length_overwrite, far, Nat.max_assoc]

/-- At each position the file has what the last write there put. -/
theorem getD_overlay (filler : Item) (content : List Item) (writes : List (Write Item))
    (position : Nat) : (overlay filler content writes).getD position filler =
      (last? writes position).getD (content.getD position filler) := by
  induction writes generalizing content with
  | nil => rfl
  | cons write writes ih =>
      have step : overlay filler content (write :: writes) =
          overlay filler (overwrite filler content write) writes := rfl
      rw [step, ih, getD_overwrite, last?_cons]
      cases last? writes position <;> rfl

/-- The orders in which writers finish all they have to write, when they are started one
after the other and at most `limit` are running. -/
inductive Buffered (limit : Nat) {Step : Type u} :
    List (List Step) → List (List Step) → List Step → Prop
  | done : Buffered limit [] [] []
  | start {waiting running : List (List Step)} {order : List Step} (writer : List Step)
      (room : running.length < limit) (rest : Buffered limit waiting (running ++ [writer]) order) :
      Buffered limit (writer :: waiting) running order
  | write {waiting before after : List (List Step)} {order : List Step} (step : Step)
      (writer : List Step) (rest : Buffered limit waiting (before ++ writer :: after) order) :
      Buffered limit waiting (before ++ (step :: writer) :: after) (step :: order)
  | finish {waiting before after : List (List Step)} {order : List Step}
      (rest : Buffered limit waiting (before ++ after) order) :
      Buffered limit waiting (before ++ [] :: after) order

/-- Nothing is lost, and nothing is written twice. -/
theorem Buffered.perm {limit : Nat} {Step : Type u} {waiting running : List (List Step)}
    {order : List Step} (buffered : Buffered limit waiting running order) :
    order.Perm (running ++ waiting).flatten := by
  induction buffered with
  | done => exact .nil
  | start writer _ _ ih => simpa using ih
  | write step writer _ ih =>
      rename_i waiting before after order _
      refine (List.Perm.cons step ih).trans ?_
      simp only [List.flatten_append, List.flatten_cons, List.append_assoc, List.cons_append]
      exact List.perm_middle.symm
  | finish _ ih => simpa using ih

/-- What stands at a position was put there last by some writer; where nothing stands, no
writer has written. -/
theorem Buffered.last? {limit : Nat} {waiting running : List (List (Write Item))}
    {order : List (Write Item)} (buffered : Buffered limit waiting running order)
    (position : Nat) :
    (∀ item, Base.last? order position = some item → ∃ writer ∈ running ++ waiting,
        Base.last? writer position = some item) ∧
      (Base.last? order position = none → ∀ writer ∈ running ++ waiting,
        Base.last? writer position = none) := by
  induction buffered with
  | done =>
      refine ⟨fun item written => by contradiction, fun _ writer listed => by contradiction⟩
  | start writer _ _ ih => simpa using ih
  | write step writer _ ih =>
      rename_i waiting before after order _
      rw [last?_cons]
      constructor
      · intro item written
        cases later : Base.last? order position with
        | some other =>
            rw [later, Option.some_or] at written
            cases written
            obtain ⟨found, listed, holds⟩ := ih.1 item later
            simp only [List.append_assoc, List.cons_append, List.mem_append, List.mem_cons] at listed
            rcases listed with inside | rfl | inside | inside
            · exact ⟨found, by simp [inside], holds⟩
            · refine ⟨step :: found, by simp, ?_⟩
              rw [last?_cons, holds]
              rfl
            · exact ⟨found, by simp [inside], holds⟩
            · exact ⟨found, by simp [inside], holds⟩
        | none =>
            rw [later, Option.none_or] at written
            have silent := ih.2 later writer (by simp)
            refine ⟨step :: writer, by simp, ?_⟩
            rw [last?_cons, silent]
            exact written
      · intro untouched found listed
        obtain ⟨later, here⟩ := Option.or_eq_none_iff.mp untouched
        simp only [List.append_assoc, List.cons_append, List.mem_append, List.mem_cons] at listed
        rcases listed with inside | rfl | inside | inside
        · exact ih.2 later found (by simp [inside])
        · rw [last?_cons, ih.2 later writer (by simp), here]
          rfl
        · exact ih.2 later found (by simp [inside])
        · exact ih.2 later found (by simp [inside])
  | finish _ ih =>
      rename_i waiting before after order _
      refine ⟨fun item written => ?_, fun untouched writer listed => ?_⟩
      · obtain ⟨found, listed, holds⟩ := ih.1 item written
        simp only [List.append_assoc, List.mem_append] at listed
        refine ⟨found, ?_, holds⟩
        simp only [List.append_assoc, List.cons_append, List.mem_append, List.mem_cons]
        exact listed.imp_right .inr
      · simp only [List.append_assoc, List.cons_append, List.mem_append, List.mem_cons] at listed
        rcases listed with inside | rfl | inside
        · exact ih.2 untouched writer (by simp [inside])
        · rfl
        · refine ih.2 untouched writer ?_
          simp only [List.append_assoc, List.mem_append]
          exact .inr inside

/-- A running writer writes all it has. -/
theorem Buffered.drain {limit : Nat} {Step : Type u} {waiting held : List (List Step)}
    {order : List Step} (writer : List Step) (rest : Buffered limit waiting held order) :
    Buffered limit waiting (held ++ [writer]) (writer ++ order) := by
  induction writer with
  | nil =>
      have gone : Buffered limit waiting (held ++ []) order := by rwa [List.append_nil]
      exact .finish gone
  | cons step writer ih => exact .write step writer ih

/-- Writers are started and write all they have, one after the other, beside some which
hold still. -/
theorem Buffered.drainAll {limit : Nat} {Step : Type u} {waiting held : List (List Step)}
    {order : List Step} (writers : List (List Step)) (room : held.length < limit)
    (rest : Buffered limit waiting held order) :
    Buffered limit (writers ++ waiting) held (writers.flatten ++ order) := by
  induction writers with
  | nil => exact rest
  | cons writer writers ih =>
      rw [List.flatten_cons, List.append_assoc]
      exact .start writer room (ih.drain writer)

/-- Any writer can be the last to write. -/
theorem Buffered.lastly {limit : Nat} {Step : Type u} (several : 1 < limit)
    (before : List (List Step)) (writer : List Step) (after : List (List Step)) :
    Buffered limit (before ++ writer :: after) []
      (before.flatten ++ (after.flatten ++ writer)) := by
  refine Buffered.drainAll before (Nat.lt_trans Nat.zero_lt_one several) ?_
  refine .start writer (Nat.lt_trans Nat.zero_lt_one several) ?_
  have alone : Buffered limit [] ([] ++ [writer]) (writer ++ []) := Buffered.done.drain writer
  rw [List.append_nil] at alone
  have rest := alone.drainAll after several
  rwa [List.append_nil] at rest

/-- Writers agree with a file: it is as long as they make it, and what a writer leaves at a
position is what the file has there. -/
structure Agrees (filler : Item) (size : Nat) (writers : List (List (Write Item)))
    (target : List Item) : Prop where
  length : max size (reach writers.flatten) = target.length
  written : ∀ writer ∈ writers, ∀ position item, last? writer position = some item →
    target.getD position filler = item
  unwritten : ∀ position, (∀ writer ∈ writers, last? writer position = none) →
    target.getD position filler = filler

/-- Over a content of fillers, a position holds what its last writer puts there. -/
theorem getD_overlay_replicate (filler : Item) (size : Nat) (order : List (Write Item))
    (position : Nat) : (overlay filler (List.replicate size filler) order).getD position filler =
      (last? order position).getD filler := by
  rw [getD_overlay]
  congr 1
  rw [List.getD_eq_getElem?_getD, List.getElem?_replicate]
  split <;> rfl

/-- Writers who agree with a file write it in every order. -/
theorem Agrees.overlay_eq {filler : Item} {size limit : Nat} {writers : List (List (Write Item))}
    {target : List Item} (agrees : Agrees filler size writers target)
    {order : List (Write Item)} (buffered : Buffered limit writers [] order) :
    overlay filler (List.replicate size filler) order = target := by
  have length : (overlay filler (List.replicate size filler) order).length = target.length := by
    rw [length_overlay, List.length_replicate, ← agrees.length, reach_perm buffered.perm]
    rfl
  refine List.ext_getElem length fun position here there => ?_
  rw [← List.getD_eq_getElem _ filler here, ← List.getD_eq_getElem _ filler there,
    getD_overlay_replicate]
  obtain ⟨puts, leaves⟩ := buffered.last? position
  rw [List.nil_append] at puts leaves
  cases found : last? order position with
  | some item =>
      obtain ⟨writer, listed, last⟩ := puts item found
      exact (agrees.written writer listed position item last).symm
  | none => exact (agrees.unwritten position (leaves found)).symm

/-- Only writers who agree with a file write it in every order. -/
theorem agrees_of_overlay_eq {filler : Item} {size limit : Nat} (several : 1 < limit)
    {writers : List (List (Write Item))} {target : List Item}
    (same : ∀ order, Buffered limit writers [] order →
      overlay filler (List.replicate size filler) order = target) :
    Agrees filler size writers target := by
  have orderly : Buffered limit writers [] writers.flatten := by
    have nobody : Buffered limit [] [] ([] : List (Write Item)) := .done
    have all := nobody.drainAll writers (Nat.lt_trans Nat.zero_lt_one several)
    rwa [List.append_nil, List.append_nil] at all
  constructor
  · rw [← same _ orderly, length_overlay, List.length_replicate]
  · intro writer listed position item last
    obtain ⟨before, after, rfl⟩ := List.append_of_mem listed
    rw [← same _ (Buffered.lastly several before writer after), getD_overlay_replicate,
      ← List.append_assoc, last?_append, last]
    rfl
  · intro position silent
    rw [← same _ orderly, getD_overlay_replicate]
    have nothing : last? writers.flatten position = none := by
      obtain ⟨puts, _⟩ := orderly.last? position
      rw [List.nil_append] at puts
      cases found : last? writers.flatten position with
      | none => rfl
      | some item =>
          obtain ⟨writer, listed, last⟩ := puts item found
          rw [silent writer listed] at last
          contradiction
    rw [nothing]
    rfl

/-- The writes of some pieces, each where the one before ends. -/
def placed (offset : Nat) : List (List Item) → List (Write Item)
  | [] => []
  | piece :: pieces => (offset, piece) :: placed (offset + piece.length) pieces

/-- Writers of some pieces, each beginning where the one before ends. -/
def placedAll (offset : Nat) : List (List (List Item)) → List (List (Write Item))
  | [] => []
  | pieces :: rest => placed offset pieces :: placedAll (offset + pieces.flatten.length) rest

/-- Pieces placed in two groups: the second group begins where the first one ends. -/
theorem placed_append (offset : Nat) (first second : List (List Item)) :
    placed offset (first ++ second) =
      placed offset first ++ placed (offset + first.flatten.length) second := by
  induction first generalizing offset with
  | nil => rfl
  | cons piece pieces ih =>
      rw [List.cons_append, placed, placed, ih, List.flatten_cons, List.length_append,
        Nat.add_assoc]
      rfl

/-- Placing pieces leaves them as they are. -/
theorem placed_map_snd (offset : Nat) (pieces : List (List Item)) :
    (placed offset pieces).map Prod.snd = pieces := by
  induction pieces generalizing offset with
  | nil => rfl
  | cons piece pieces ih => rw [placed, List.map_cons, ih]

/-- Groups placed one after another are all of their pieces placed one after another. -/
theorem flatten_placedAll (offset : Nat) (groups : List (List (List Item))) :
    (placedAll offset groups).flatten = placed offset groups.flatten := by
  induction groups generalizing offset with
  | nil => rfl
  | cons pieces rest ih => rw [placedAll, List.flatten_cons, ih, List.flatten_cons, placed_append]

/-- What pieces placed side by side put at a position is the item of their concatenation there. -/
theorem last?_placed (offset : Nat) (pieces : List (List Item)) (position : Nat) :
    last? (placed offset pieces) position =
      if offset ≤ position then pieces.flatten[position - offset]? else none := by
  induction pieces generalizing offset with
  | nil => simp [placed, last?]
  | cons piece pieces ih =>
      rw [placed, last?_cons, ih, puts, List.flatten_cons, List.getElem?_append]
      by_cases behind : offset + piece.length ≤ position
      · have reached : offset ≤ position := by omega
        have outside : piece[position - offset]? = none := List.getElem?_eq_none (by omega)
        have rest : position - (offset + piece.length) = position - offset - piece.length := by
          omega
        simp only [if_pos behind, if_pos reached, outside, Option.or_none, rest]
        rw [if_neg (by omega)]
      · rw [if_neg behind, Option.none_or]
        by_cases reached : offset ≤ position
        · rw [if_pos reached, if_pos reached, if_pos (by omega)]
        · rw [if_neg reached, if_neg reached]

/-- Pieces placed side by side end where their concatenation does. -/
theorem reach_placed_le (offset : Nat) (pieces : List (List Item)) :
    reach (placed offset pieces) ≤ offset + pieces.flatten.length := by
  induction pieces generalizing offset with
  | nil => exact Nat.zero_le _
  | cons piece pieces ih =>
      have far : reach (placed offset (piece :: pieces)) =
          max (endOf (offset, piece)) (reach (placed (offset + piece.length) pieces)) := rfl
      have own : endOf (offset, piece) ≤ offset + piece.length := by
        rw [endOf]
        split
        · exact Nat.zero_le _
        · exact Nat.le_refl _
      have behind := ih (offset + piece.length)
      rw [far, List.flatten_cons, List.length_append]
      omega

/-- A placed group begins after all the groups before it. -/
theorem mem_placedAll {offset : Nat} {groups : List (List (List Item))}
    {writer : List (Write Item)} (listed : writer ∈ placedAll offset groups) :
    ∃ before pieces after, groups = before ++ pieces :: after ∧
      writer = placed (offset + before.flatten.flatten.length) pieces := by
  induction groups generalizing offset with
  | nil => contradiction
  | cons pieces rest ih =>
      rcases List.mem_cons.mp listed with rfl | later
      · exact ⟨[], pieces, rest, rfl, rfl⟩
      · obtain ⟨before, own, after, rfl, rfl⟩ := ih later
        refine ⟨pieces :: before, own, after, rfl, ?_⟩
        rw [List.flatten_cons, List.flatten_append, List.length_append, Nat.add_assoc]

/-- Writers of pieces which follow one another agree with the pieces' concatenation. -/
theorem agrees_placedAll (filler : Item) (groups : List (List (List Item))) :
    Agrees filler groups.flatten.flatten.length (placedAll 0 groups) groups.flatten.flatten where
  length := by
    have within := reach_placed_le 0 groups.flatten
    rw [flatten_placedAll]
    omega
  written writer listed position item last := by
    obtain ⟨before, pieces, after, rfl, rfl⟩ := mem_placedAll listed
    rw [last?_placed, Nat.zero_add] at last
    obtain ⟨reached, found⟩ := Option.ite_none_right_eq_some.mp last
    obtain ⟨inside, _⟩ := List.getElem?_eq_some_iff.mp found
    rw [List.flatten_append, List.flatten_append, List.flatten_cons, List.flatten_append,
      List.getD_append_right _ _ _ _ reached, List.getD_append _ _ _ _ inside,
      List.getD_eq_getElem?_getD, found]
    rfl
  unwritten position silent := by
    have together : last? (placed 0 groups.flatten) position = none := by
      rw [← flatten_placedAll]
      cases found : last? (placedAll 0 groups).flatten position with
      | none => rfl
      | some item =>
          have nobody : Buffered 1 [] [] ([] : List (Write Item)) := .done
          have all := nobody.drainAll (placedAll 0 groups) Nat.zero_lt_one
          rw [List.append_nil, List.append_nil] at all
          obtain ⟨writer, listed, last⟩ := (all.last? position).1 item found
          rw [silent writer listed] at last
          contradiction
    rw [last?_placed, if_pos (Nat.zero_le position), Nat.sub_zero] at together
    rw [List.getD_eq_getElem?_getD, together]
    rfl

end Nullspace.Base
