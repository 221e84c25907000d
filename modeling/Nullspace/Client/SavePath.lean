import Nullspace.Client.SavedFiles

/-!
# The path of a download

The sender of an attachment chooses its filename. `sanitizeFilename` and `unique_path` make a
path of it, and `uniquePath_inside` says that this is always a free one in the directory for
downloads: whatever name would lead elsewhere is already there.
-/

namespace Nullspace

/-- A path whose only separator is `/`. -/
abbrev FilePath := List Char

/-- A path before which something can be put. -/
def FilePath.withSlash (path : FilePath) : FilePath :=
  if path.getLast? = none ∨ path.getLast? = some '/' then path else path ++ ['/']

/-- `Path::join`: an absolute path takes the place of the whole. -/
def FilePath.join (path : FilePath) (name : FilePath) : FilePath :=
  if name.head? = some '/' then name else path.withSlash ++ name

/-- A directory which `create_dir_all` has made, or found. -/
structure SaveDir where
  path : FilePath
  /-- The names of the files and directories in it. -/
  names : List FileName
  /-- Why a name cannot be looked up. -/
  refuses : FileName → Option String

namespace SaveDir

/-- `try_exists` for a name in the directory. The directory and its parent exist. -/
def tryExists (dir : SaveDir) (name : FileName) : Except String Bool :=
  match dir.refuses name with
  | some err => .error err
  | none => .ok (decide (name = ".".toList ∨ name = "..".toList ∨ name ∈ dir.names))

/-- `unique_path` from one of its names on, with some more behind it. -/
def uniquePathFrom (dir : SaveDir) (filename : FileName) (more index : Nat) :
    Except String FilePath :=
  match dir.tryExists (candidate filename index) with
  | .error err => .error err
  | .ok false => .ok (dir.path.join (candidate filename index))
  | .ok true =>
      match more with
      | 0 => .error "could not pick unique filename"
      | more + 1 => uniquePathFrom dir filename more (index + 1)

/-- `unique_path`. -/
def uniquePath (dir : SaveDir) (filename : FileName) : Except String FilePath :=
  dir.uniquePathFrom filename 9999 0

/-! ## What is chosen -/

/-- A name which is said to be free is that of no entry. -/
theorem absent_of_tryExists {dir : SaveDir} {name : FileName}
    (free : dir.tryExists name = .ok false) :
    name ≠ ".".toList ∧ name ≠ "..".toList ∧ name ∉ dir.names := by
  unfold tryExists at free
  cases refused : dir.refuses name with
  | some err =>
      rw [refused] at free
      cases free
  | none =>
      simp only [refused] at free
      have neither := of_decide_eq_false (Except.ok.inj free)
      rw [not_or, not_or] at neither
      exact neither

/-- The path belongs to a name at which nothing is. -/
theorem uniquePathFrom_chosen {dir : SaveDir} {filename : FileName} {more index : Nat}
    {path : FilePath} (chosen : dir.uniquePathFrom filename more index = .ok path) :
    ∃ number, path = dir.path.join (candidate filename number) ∧
      dir.tryExists (candidate filename number) = .ok false := by
  induction more generalizing index with
  | zero =>
      unfold uniquePathFrom at chosen
      split at chosen
      · cases chosen
      · rename_i free
        exact ⟨index, (Except.ok.inj chosen).symm, free⟩
      · cases chosen
  | succ more ih =>
      unfold uniquePathFrom at chosen
      split at chosen
      · cases chosen
      · rename_i free
        exact ⟨index, (Except.ok.inj chosen).symm, free⟩
      · exact ih chosen

end SaveDir

/-- A character which may stand in a component of a path. -/
def Harmless (char : Char) : Prop := char ≠ '/' ∧ isControl char = false

/-- A fixed text is gone through. -/
theorem harmless_of_all {text : FileName}
    (all : (text.all fun char => decide (char ≠ '/') && !isControl char) = true) {char : Char}
    (listed : char ∈ text) : Harmless char := by
  have passes := List.all_eq_true.mp all char listed
  simp only [Bool.and_eq_true, decide_eq_true_eq, Bool.not_eq_true'] at passes
  exact passes

theorem mem_trim {name : FileName} {char : Char} (listed : char ∈ trim name) : char ∈ name := by
  rw [trim, List.mem_reverse] at listed
  have inner := (List.dropWhile_suffix isWhitespace).mem listed
  rw [List.mem_reverse] at inner
  exact (List.dropWhile_suffix isWhitespace).mem inner

/-- A sanitized name has harmless characters only. -/
theorem harmless_sanitizeFilename {name : FileName} {char : Char}
    (listed : char ∈ sanitizeFilename name) : Harmless char := by
  unfold sanitizeFilename at listed
  split at listed
  · exact harmless_of_all (by decide) listed
  · rename_i trimmed filtered
    have kept := (List.mem_filter.mp (mem_trim listed)).2
    simp only [Bool.and_eq_true, Bool.not_eq_true', decide_eq_true_eq] at kept
    exact ⟨kept.1.1, kept.2⟩

theorem sanitizeFilename_ne_nil (name : FileName) : sanitizeFilename name ≠ [] := by
  unfold sanitizeFilename
  split
  · decide
  · rename_i trimmed found
    exact found

/-- Both parts of a name are cut out of it. -/
theorem mem_splitExtension {filename : FileName} {char : Char}
    (listed : char ∈ (splitExtension filename).1 ∨ char ∈ (splitExtension filename).2) :
    char ∈ filename := by
  unfold splitExtension at listed
  split at listed
  · rename_i extHead ext dot stemHead stem extSame stemSame
    rcases listed with inStem | inExt
    · have inner : char ∈ dot :: stemHead :: stem :=
        List.mem_cons_of_mem dot (List.mem_reverse.mp inStem)
      rw [← stemSame] at inner
      exact List.mem_reverse.mp ((List.dropWhile_suffix _).mem inner)
    · rw [← extSame, List.mem_reverse] at inExt
      exact List.mem_reverse.mp ((List.takeWhile_prefix _).mem inExt)
  · rcases listed with inName | nowhere
    · exact inName
    · cases nowhere

theorem harmless_repr {number : Nat} {char : Char} (listed : char ∈ number.repr.toList) :
    Harmless char := by
  rw [Nat.toList_repr] at listed
  have digit : char.isDigit = true :=
    Nat.isDigit_of_mem_toDigits (by decide) (by decide) listed
  simp only [Char.isDigit, Bool.and_eq_true, decide_eq_true_eq, ge_iff_le,
    UInt32.le_iff_toNat_le] at digit
  have low : 48 ≤ char.toNat := digit.1
  have high : char.toNat ≤ 57 := digit.2
  refine ⟨?_, ?_⟩
  · rintro rfl
    exact absurd low (by decide)
  · simp only [isControl, Bool.or_eq_false_iff, Bool.and_eq_false_iff, decide_eq_false_iff_not]
    omega

/-- The names which are tried have harmless characters only. -/
theorem harmless_candidate {filename : FileName} (harmless : ∀ char ∈ filename, Harmless char)
    (index : Nat) : ∀ char ∈ candidate filename index, Harmless char := by
  have stem : ∀ char ∈ (splitExtension filename).1, Harmless char :=
    fun char listed => harmless char (mem_splitExtension (.inl listed))
  have ext : ∀ char ∈ (splitExtension filename).2, Harmless char :=
    fun char listed => harmless char (mem_splitExtension (.inr listed))
  have opening : ∀ char ∈ " (".toList, Harmless char := fun _ => harmless_of_all (by decide)
  have closing : ∀ char ∈ ").".toList, Harmless char := fun _ => harmless_of_all (by decide)
  intro char listed
  cases index with
  | zero => exact harmless char listed
  | succ index =>
      rw [candidate] at listed
      split at listed
      · rename_i stemPart parts
        rw [parts] at stem
        simp only [List.mem_append] at listed
        rcases listed with ((inStem | opens) | number) | closes
        · exact stem char inStem
        · exact opening char opens
        · exact harmless_repr number
        · exact closing char (List.mem_cons.mpr (.inl (List.mem_singleton.mp closes)))
      · rename_i stemPart extPart some parts
        rw [parts] at stem ext
        simp only [List.mem_append] at listed
        rcases listed with (((inStem | opens) | number) | closes) | inExt
        · exact stem char inStem
        · exact opening char opens
        · exact harmless_repr number
        · exact closing char closes
        · exact ext char inExt

theorem candidate_ne_nil {filename : FileName} (inhabited : filename ≠ []) (index : Nat) :
    candidate filename index ≠ [] := by
  cases index with
  | zero => exact inhabited
  | succ index =>
      rw [candidate]
      split <;> simp

/-- One step of a path, downwards. -/
structure SingleComponent (component : FileName) : Prop where
  inhabited : component ≠ []
  notDot : component ≠ ".".toList
  notDotDot : component ≠ "..".toList
  noSlash : '/' ∉ component
  noControl : ∀ char ∈ component, isControl char = false

/-- A component without a slash stands right below the path. -/
theorem FilePath.join_of_noSlash {path : FilePath} {component : FileName}
    (noSlash : '/' ∉ component) : path.join component = path.withSlash ++ component := by
  rw [FilePath.join, if_neg]
  intro absolute
  exact noSlash (List.mem_of_mem_head? absolute)

/-- Whatever filename the sender gives and whatever is in the directory, a download goes to a
free name in the directory. -/
theorem uniquePath_inside (dir : SaveDir) (filename : String) {path : FilePath}
    (chosen : dir.uniquePath (sanitizeFilename filename.toList) = .ok path) :
    ∃ component, path = dir.path.withSlash ++ component ∧ SingleComponent component ∧
      component ∉ dir.names := by
  obtain ⟨number, rfl, free⟩ := SaveDir.uniquePathFrom_chosen chosen
  obtain ⟨notDot, notDotDot, absent⟩ := SaveDir.absent_of_tryExists free
  have harmless := harmless_candidate (fun char => @harmless_sanitizeFilename filename.toList char)
    number
  have noSlash : '/' ∉ candidate (sanitizeFilename filename.toList) number :=
    fun listed => (harmless '/' listed).1 rfl
  refine ⟨_, FilePath.join_of_noSlash noSlash, ⟨?_, notDot, notDotDot, noSlash, ?_⟩, absent⟩
  · exact candidate_ne_nil (sanitizeFilename_ne_nil filename.toList) number
  · exact fun char listed => (harmless char listed).2

/-- The name of the parent directory, hidden behind a space and a slash. -/
theorem uniquePath_inside_parent :
    ∃ component, "/home/downloads/.. (2)".toList = FilePath.withSlash "/home/downloads".toList ++
        component ∧ SingleComponent component ∧ component ∉ [".. (1)".toList] := by
  refine uniquePath_inside ⟨"/home/downloads".toList, [".. (1)".toList], fun _ => none⟩ " ./." ?_
  decide +kernel

end Nullspace
