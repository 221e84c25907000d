import Mathlib.Data.List.Infix

/-!
# Lines

A writer ends every line with a symbol which no line has. A reader has some front part of what
was written, cut anywhere, and looks for the end of a line in as much of it as a line may have.

`readLine_of_written` says that what it reads is the first of the lines, and that it is left
with a front part of the others; `prefix_of_written` says what it has when no end comes any more.
-/

namespace Nullspace.Base

universe u

variable {Symbol : Type u}

/-- Lines with their ends. -/
def writeLines (newline : Symbol) (lines : List (List Symbol)) : List Symbol :=
  lines.flatMap (· ++ [newline])

/-- What a reader finds in its buffer. -/
inductive LineReading (Symbol : Type u) where
  | line (content rest : List Symbol)
  | tooLong
  /-- The end of the line is not there yet. -/
  | more

section

variable [DecidableEq Symbol]

def readLine (newline : Symbol) (limit : Nat) (buffer : List Symbol) : LineReading Symbol :=
  if newline ∈ buffer.take (limit + 1) then
    .line (buffer.takeWhile (· ≠ newline)) (buffer.dropWhile (· ≠ newline)).tail
  else if limit < buffer.length then .tooLong
  else .more

end

variable {newline : Symbol} {lines : List (List Symbol)} {line buffer wire : List Symbol}

@[simp] theorem writeLines_nil : writeLines newline [] = [] := rfl

@[simp] theorem writeLines_cons : writeLines newline (line :: lines) =
    line ++ newline :: writeLines newline lines := by
  rw [writeLines, List.flatMap_cons, List.append_assoc]
  rfl

theorem writeLines_snoc :
    writeLines newline (lines ++ [line]) = writeLines newline lines ++ (line ++ [newline]) := by
  rw [writeLines, List.flatMap_append, List.flatMap_singleton]
  rfl

/-- Two texts which begin with a line each begin with the same line when one of them begins with
the other. -/
theorem append_newline_prefix {first second rest others : List Symbol} (left : newline ∉ first)
    (right : newline ∉ second) :
    first ++ newline :: rest <+: second ++ newline :: others ↔ first = second ∧ rest <+: others := by
  induction first generalizing second with
  | nil =>
      cases second with
      | nil => simp
      | cons symbol second => simp [List.ne_of_not_mem_cons right]
  | cons symbol first ih =>
      rw [List.mem_cons, not_or] at left
      cases second with
      | nil => simp [Ne.symm left.1]
      | cons other second =>
          rw [List.mem_cons, not_or] at right
          rw [List.cons_append, List.cons_append, List.cons_prefix_cons, ih left.2 right.2,
            List.cons_eq_cons, and_assoc]

section

variable [DecidableEq Symbol] {limit : Nat} {content rest : List Symbol}

/-- A line which is read ends where its end is first. -/
theorem readLine_eq_line (read : readLine newline limit buffer = .line content rest) :
    buffer = content ++ newline :: rest ∧ newline ∉ content := by
  rw [readLine] at read
  split_ifs at read with found long
  obtain ⟨before, after, rfl, ends⟩ := List.eq_append_cons_of_mem (List.mem_of_mem_take found)
  have inside : ∀ symbol ∈ before, decide (symbol ≠ newline) = true := by
    intro symbol member
    exact decide_eq_true fun same => ends (same ▸ member)
  rw [List.takeWhile_append_of_pos inside, List.dropWhile_append_of_pos inside] at read
  simp only [ne_eq, not_true_eq_false, decide_false, Bool.false_eq_true, not_false_eq_true,
    List.takeWhile_cons_of_neg, List.append_nil, List.dropWhile_cons_of_neg, List.tail_cons,
    LineReading.line.injEq] at read
  obtain ⟨rfl, rfl⟩ := read
  exact ⟨rfl, ends⟩

/-- A buffer without an end of a line. -/
theorem readLine_eq_more (read : readLine newline limit buffer = .more) : newline ∉ buffer := by
  rw [readLine] at read
  split_ifs at read with found long
  rwa [List.take_of_length_le (by omega)] at found

/-- A line is read as it was written, and what is left is of the lines after it. -/
theorem readLine_of_written (plain : ∀ line ∈ lines, newline ∉ line)
    (written : buffer ++ wire <+: writeLines newline lines)
    (read : readLine newline limit buffer = .line content rest) :
    ∃ others, lines = content :: others ∧ rest ++ wire <+: writeLines newline others := by
  obtain ⟨whole, ends⟩ := readLine_eq_line read
  rw [whole, List.append_assoc, List.cons_append] at written
  cases lines with
  | nil => simp at written
  | cons line others =>
      rw [writeLines_cons,
        append_newline_prefix ends (plain line List.mem_cons_self)] at written
      obtain ⟨rfl, within⟩ := written
      exact ⟨others, rfl, within⟩

end

/-- Where no end of a line is left, the buffer has a front part of one line at most. -/
theorem prefix_of_written (written : buffer <+: writeLines newline lines)
    (endless : newline ∉ buffer) (some : buffer ≠ []) :
    ∃ line others, lines = line :: others ∧ buffer <+: line := by
  cases lines with
  | nil => exact absurd (List.prefix_nil.mp written) some
  | cons line others =>
      refine ⟨line, others, rfl, ?_⟩
      rw [writeLines_cons] at written
      rcases List.prefix_or_prefix_of_prefix written (List.prefix_append line _) with
        within | ⟨longer, rfl⟩
      · exact within
      · cases longer with
        | nil => rw [List.append_nil]
        | cons symbol longer =>
            obtain ⟨rfl, _⟩ :=
              List.cons_prefix_cons.mp ((List.prefix_append_right_inj line).mp written)
            exact absurd (List.mem_append_right _ List.mem_cons_self) endless

end Nullspace.Base
