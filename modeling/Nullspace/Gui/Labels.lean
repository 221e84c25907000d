import Nullspace.Base.Table
import Nullspace.Symbolic

/-!
# Labels of users

The GUI calls a user by the display name which it has loaded, with the username behind it when
the display name is counted more than once. The counts are made anew only when the loader is
marked dirty. Users choose their display names, and `labelFor_ne_iff` says in which states two
users have different labels.
-/

namespace Nullspace

open Nullspace.Base

/-- `UserDetails`, as far as the loader reads them. -/
structure UserDetails where
  username : UserName
  displayName : Option String
deriving DecidableEq

/-- `ProfileEntry`. A promise which is held is all that is known of it here. -/
structure ProfileEntry where
  lastGood : Option UserDetails := none
  inflight : Bool := false
  lastError : Option String := none
  retryAfter : Option Nat := none
  missing : Bool := false
  forceRefresh : Bool := false
deriving DecidableEq

/-- `ProfileLoader`, without the directory of its cache. -/
structure ProfileLoader where
  entries : Table UserName ProfileEntry
  labelCounts : Table String Nat
  labelIndexDirty : Bool

/-- What `view` meets: what the promise gives if it has come, and the clock at two moments. -/
structure ProfilePoll where
  taken : Option (Except String UserDetails)
  failedAt : Nat
  now : Nat

/-- `PROFILE_RETRY_BACKOFF`, in seconds. -/
def profileRetryBackoff : Nat := 60

namespace ProfileEntry

/-- The display name which is loaded. -/
def displayName (entry : ProfileEntry) : Option String := entry.lastGood.bind (·.displayName)

/-- The part of `view` which takes the promise's result. -/
def poll (meets : ProfilePoll) (entry : ProfileEntry) : ProfileEntry :=
  if entry.inflight then
    match meets.taken with
    | some (.ok profile) =>
        { entry with
          inflight := false, missing := false, lastGood := some profile, lastError := none,
          retryAfter := none }
    | some (.error err) =>
        { entry with
          inflight := false, lastError := some err,
          retryAfter := some (meets.failedAt + profileRetryBackoff) }
    | none => entry
  else entry

/-- The part of `view` which asks for the details. -/
def fetch (meets : ProfilePoll) (entry : ProfileEntry) : ProfileEntry :=
  if !entry.inflight && (entry.forceRefresh || (entry.lastGood.isNone && !entry.missing &&
      (entry.retryAfter.map fun retryAt => decide (retryAt ≤ meets.now)).getD true)) then
    { entry with forceRefresh := false, inflight := true }
  else entry

/-- What `refresh_label_index` counts for a user. -/
def base (username : UserName) (entry : ProfileEntry) : String :=
  entry.displayName.getD username.str

@[simp] theorem fetch_lastGood (meets : ProfilePoll) (entry : ProfileEntry) :
    (entry.fetch meets).lastGood = entry.lastGood := by
  unfold fetch
  split <;> rfl

@[simp] theorem fetch_displayName (meets : ProfilePoll) (entry : ProfileEntry) :
    (entry.fetch meets).displayName = entry.displayName := by
  rw [displayName, fetch_lastGood, displayName]

end ProfileEntry

namespace ProfileLoader

/-- `ProfileLoader::new`, with the profiles which `load_all` finds. -/
def new (cached : Table UserName UserDetails) : ProfileLoader where
  entries := cached.rows.foldl
    (fun entries row => entries.insert row.1 { lastGood := some row.2 }) ∅
  labelCounts := ∅
  labelIndexDirty := true

/-- `view`. -/
def view (username : UserName) (meets : ProfilePoll) (loader : ProfileLoader) :
    ProfileLoader × Option UserDetails :=
  let entry := (loader.entries.lookup username).getD {}
  let created := (loader.entries.lookup username).isNone
  let polled := entry.poll meets
  let next := polled.fetch meets
  ({ loader with
      entries := loader.entries.insert username next
      labelIndexDirty := loader.labelIndexDirty || created ||
        decide (entry.displayName ≠ polled.displayName) },
    next.lastGood)

/-- How often a base name is counted. -/
def countOf (loader : ProfileLoader) (base : String) : Nat :=
  (loader.labelCounts.lookup base).getD 0

/-- One more of a base name. -/
def countOnce (counts : Table String Nat) (base : String) : Table String Nat :=
  counts.insert base ((counts.lookup base).getD 0 + 1)

/-- `refresh_label_index`. -/
def refreshLabelIndex (loader : ProfileLoader) : ProfileLoader :=
  if loader.labelIndexDirty then
    { loader with
      labelCounts := (loader.entries.rows.map fun row => row.2.base row.1).foldl countOnce ∅
      labelIndexDirty := false }
  else loader

/-- What stands behind a base name which is counted more than once. -/
def withUsername (base : String) (username : UserName) : String :=
  base ++ " (" ++ username.str ++ ")"

/-- `label_for`. -/
def labelFor (username : UserName) (meets : ProfilePoll) (loader : ProfileLoader) :
    ProfileLoader × String :=
  let viewed := loader.view username meets
  let loader := viewed.1.refreshLabelIndex
  let displayName := viewed.2.bind (·.displayName)
  let base := displayName.getD username.str
  (loader,
    if displayName.isSome ∧ 1 < loader.countOf base then withUsername base username else base)

/-- `invalidate`. -/
def invalidate (username : UserName) (loader : ProfileLoader) : ProfileLoader :=
  let entry := (loader.entries.lookup username).getD {}
  { loader with
    entries := loader.entries.insert username
      { entry with missing := false, lastError := none, retryAfter := none, forceRefresh := true } }

/-- A call of the loader. -/
inductive Call where
  | view (username : UserName) (meets : ProfilePoll)
  | labelFor (username : UserName) (meets : ProfilePoll)
  | invalidate (username : UserName)

def call (loader : ProfileLoader) : Call → ProfileLoader
  | .view username meets => (loader.view username meets).1
  | .labelFor username meets => (loader.labelFor username meets).1
  | .invalidate username => loader.invalidate username

/-- The loader after some calls. -/
def run (cached : Table UserName UserDetails) (calls : List Call) : ProfileLoader :=
  calls.foldl call (new cached)

/-! ## What is shown and counted -/

/-- The display name which is loaded for a user. -/
def displayOf (loader : ProfileLoader) (username : UserName) : Option String :=
  (loader.entries.lookup username).bind ProfileEntry.displayName

/-- `label_for` would count the base name more than once. -/
def Shared (loader : ProfileLoader) (base : String) : Prop :=
  1 < loader.refreshLabelIndex.countOf base

instance (loader : ProfileLoader) (base : String) : Decidable (loader.Shared base) :=
  inferInstanceAs (Decidable (_ < _))

/-- The label by what is loaded and counted. -/
def label (loader : ProfileLoader) (username : UserName) : String :=
  match loader.displayOf username with
  | some name => if loader.Shared name then withUsername name username else name
  | none => username.str

/-- A refresh of the index changes no entry. -/
@[simp] theorem refreshLabelIndex_entries (loader : ProfileLoader) :
    loader.refreshLabelIndex.entries = loader.entries := by
  unfold refreshLabelIndex
  split <;> rfl

/-- A refresh of the index changes no display name. -/
@[simp] theorem displayOf_refreshLabelIndex (loader : ProfileLoader) (username : UserName) :
    loader.refreshLabelIndex.displayOf username = loader.displayOf username := by
  rw [displayOf, refreshLabelIndex_entries, displayOf]

/-- After a refresh the index is clean. -/
theorem refreshLabelIndex_clean (loader : ProfileLoader) :
    loader.refreshLabelIndex.labelIndexDirty = false := by
  unfold refreshLabelIndex
  split
  · rfl
  · exact Bool.eq_false_iff.mpr ‹_›

/-- A clean index is not refreshed. -/
theorem refreshLabelIndex_of_clean {loader : ProfileLoader}
    (clean : loader.labelIndexDirty = false) : loader.refreshLabelIndex = loader := by
  rw [refreshLabelIndex, clean]
  rfl

/-- Every occurrence of a base name counts. -/
theorem count_foldl_countOnce (bases : List String) (counts : Table String Nat) (base : String) :
    ((bases.foldl countOnce counts).lookup base).getD 0 =
      (counts.lookup base).getD 0 + bases.count base := by
  induction bases generalizing counts with
  | nil => rfl
  | cons first rest ih =>
      rw [List.foldl_cons, ih, countOnce, Table.lookup_insert_eq, List.count_cons]
      by_cases same : base = first
      · subst same
        simp only [if_true, Option.getD_some, beq_self_eq_true]
        omega
      · have other : (first == base) = false := beq_eq_false_iff_ne.mpr (Ne.symm same)
        simp only [same, if_false, other, Bool.false_eq_true]
        omega

/-- A refreshed index counts the base names of all entries. -/
theorem countOf_refreshed {loader : ProfileLoader} (dirty : loader.labelIndexDirty = true)
    (base : String) :
    loader.refreshLabelIndex.countOf base =
      (loader.entries.rows.map fun row => row.2.base row.1).count base := by
  rw [refreshLabelIndex, dirty, if_pos rfl, countOf, count_foldl_countOnce]
  simp

/-- Two rows of one base name count twice. -/
theorem one_lt_count {rows : List (UserName × ProfileEntry)} {base : String}
    {first second : UserName × ProfileEntry} (apart : first ≠ second) (listed : first ∈ rows)
    (other : second ∈ rows) (firstBase : first.2.base first.1 = base)
    (secondBase : second.2.base second.1 = base) :
    1 < (rows.map fun row => row.2.base row.1).count base := by
  obtain ⟨before, after, rfl⟩ := List.append_of_mem listed
  have elsewhere : second ∈ before ++ after := by
    rw [List.mem_append, List.mem_cons] at other
    rcases other with earlier | same | later
    · exact List.mem_append_left after earlier
    · exact absurd same.symm apart
    · exact List.mem_append_right before later
  have counted : 0 < ((before ++ after).map fun row => row.2.base row.1).count base :=
    List.count_pos_iff.mpr (List.mem_map.mpr ⟨second, elsewhere, secondBase⟩)
  rw [List.map_append, List.count_append] at counted
  rw [List.map_append, List.map_cons, firstBase, List.count_append, List.count_cons_self]
  omega

/-- Unless the loader is marked dirty, the display names of two users count twice. -/
def Indexed (loader : ProfileLoader) : Prop :=
  loader.labelIndexDirty = false → ∀ first second name, first ≠ second →
    loader.displayOf first = some name → loader.displayOf second = some name →
    1 < loader.countOf name

/-- The display name of a user is the base name of an entry. -/
theorem base_of_displayOf {loader : ProfileLoader} {username : UserName} {name : String}
    (shown : loader.displayOf username = some name) :
    ∃ entry, (username, entry) ∈ loader.entries.rows ∧ entry.base username = name := by
  obtain ⟨entry, found, display⟩ := Option.bind_eq_some_iff.mp shown
  refine ⟨entry, Table.mem_rows.mpr found, ?_⟩
  rw [ProfileEntry.base, display, Option.getD_some]

/-- After a refresh the display names of two users count twice. -/
theorem Indexed.refreshLabelIndex {loader : ProfileLoader} (indexed : loader.Indexed) :
    loader.refreshLabelIndex.Indexed := by
  cases dirty : loader.labelIndexDirty with
  | false => rwa [refreshLabelIndex_of_clean dirty]
  | true =>
      intro _ first second name apart firstShown secondShown
      rw [displayOf_refreshLabelIndex] at firstShown secondShown
      obtain ⟨firstEntry, listed, firstBase⟩ := base_of_displayOf firstShown
      obtain ⟨secondEntry, other, secondBase⟩ := base_of_displayOf secondShown
      rw [countOf_refreshed dirty]
      refine one_lt_count ?_ listed other firstBase secondBase
      exact fun same => apart (congrArg Prod.fst same)

/-- A call keeps the index when it leaves the counts and, unless it marks the loader, what is
shown. -/
theorem Indexed.of_same {before after : ProfileLoader} (indexed : before.Indexed)
    (counts : after.labelCounts = before.labelCounts)
    (same : after.labelIndexDirty = false → before.labelIndexDirty = false ∧
      ∀ username, after.displayOf username = before.displayOf username) : after.Indexed := by
  intro clean first second name apart firstShown secondShown
  obtain ⟨cleanBefore, shown⟩ := same clean
  rw [shown] at firstShown secondShown
  have counted := indexed cleanBefore first second name apart firstShown secondShown
  rwa [countOf, counts]

/-- An inserted entry changes the display name of its own user. -/
theorem displayOf_insert (loader : ProfileLoader) (username other : UserName)
    (entry : ProfileEntry) (dirty : Bool) :
    displayOf { loader with
      entries := loader.entries.insert username entry, labelIndexDirty := dirty } other =
      if other = username then entry.displayName else loader.displayOf other := by
  rw [displayOf, Table.lookup_insert_eq]
  split <;> rfl

/-- A missing entry has no display name. -/
theorem displayName_getD (loader : ProfileLoader) (username : UserName) :
    ((loader.entries.lookup username).getD {}).displayName = loader.displayOf username := by
  rw [displayOf]
  cases loader.entries.lookup username <;> rfl

/-- Unless `view` marks the loader, it changes nothing which is shown. -/
theorem clean_of_view {loader : ProfileLoader} {username : UserName} {meets : ProfilePoll}
    (clean : (loader.view username meets).1.labelIndexDirty = false) :
    loader.labelIndexDirty = false ∧
      ∀ other, (loader.view username meets).1.displayOf other = loader.displayOf other := by
  simp only [view, Bool.or_eq_false_iff, decide_eq_false_iff_not, not_not] at clean
  obtain ⟨⟨before, -⟩, same⟩ := clean
  refine ⟨before, fun other => ?_⟩
  rw [view, displayOf_insert, ProfileEntry.fetch_displayName, ← same, displayName_getD]
  split
  · subst other
    rfl
  · rfl

/-- An invalidated entry keeps its display name. -/
theorem displayOf_invalidate (loader : ProfileLoader) (username other : UserName) :
    (loader.invalidate username).displayOf other = loader.displayOf other := by
  rw [← displayName_getD loader other, displayOf, invalidate, Table.lookup_insert_eq]
  split
  · subst other
    rfl
  · rw [displayName_getD, displayOf]

/-- Every call keeps a clean index up to date. -/
theorem indexed_call {loader : ProfileLoader} (indexed : loader.Indexed) (made : Call) :
    (loader.call made).Indexed := by
  cases made with
  | view username meets => exact indexed.of_same rfl clean_of_view
  | labelFor username meets =>
      exact Indexed.refreshLabelIndex (indexed.of_same rfl clean_of_view)
  | invalidate username =>
      exact indexed.of_same rfl fun clean => ⟨clean, displayOf_invalidate loader username⟩

/-- The index of a new loader is up to date. -/
theorem indexed_new (cached : Table UserName UserDetails) : (new cached).Indexed := by
  intro clean
  cases clean

/-- In every run a clean index is up to date. -/
theorem indexed_run (cached : Table UserName UserDetails) (calls : List Call) :
    (run cached calls).Indexed := by
  have later : ∀ loader : ProfileLoader, loader.Indexed → (calls.foldl call loader).Indexed := by
    induction calls with
    | nil => exact fun _ indexed => indexed
    | cons made rest ih => exact fun loader indexed => ih _ (indexed_call indexed made)
  exact later _ (indexed_new cached)

/-- A poll which brings nothing changes nothing. -/
theorem poll_none (failedAt now : Nat) (entry : ProfileEntry) :
    entry.poll ⟨none, failedAt, now⟩ = entry := by
  unfold ProfileEntry.poll
  split <;> rfl

/-- Looking at a user of the loader while nothing comes leaves what is counted and shown. -/
theorem view_quiet {loader : ProfileLoader} {username : UserName} {entry : ProfileEntry}
    (present : loader.entries.lookup username = some entry) (failedAt now : Nat) :
    loader.view username ⟨none, failedAt, now⟩ =
      ({ loader with
        entries := loader.entries.insert username (entry.fetch ⟨none, failedAt, now⟩) },
        entry.lastGood) := by
  rw [view, present, Option.getD_some, poll_none, ProfileEntry.fetch_lastGood]
  simp

/-- Viewing a loaded user changes no count. -/
theorem countOf_view_quiet {loader : ProfileLoader} {username : UserName}
    (present : username ∈ loader.entries) (failedAt now : Nat) (base : String) :
    (loader.view username ⟨none, failedAt, now⟩).1.refreshLabelIndex.countOf base =
      loader.refreshLabelIndex.countOf base := by
  obtain ⟨entry, found⟩ := Option.isSome_iff_exists.mp (AList.lookup_isSome.mpr present)
  rw [view_quiet found]
  cases dirty : loader.labelIndexDirty with
  | false =>
      rw [refreshLabelIndex_of_clean dirty, refreshLabelIndex_of_clean]
      · rfl
      · rfl
  | true =>
      rw [countOf_refreshed dirty, countOf_refreshed]
      · apply List.Perm.count_eq
        apply Table.map_rows_insert_perm found
        rw [ProfileEntry.base, ProfileEntry.base, ProfileEntry.fetch_displayName]
      · rfl

/-- `label_for` while nothing comes. -/
theorem labelFor_quiet {loader : ProfileLoader} {username : UserName}
    (present : username ∈ loader.entries) (failedAt now : Nat) :
    (loader.labelFor username ⟨none, failedAt, now⟩).2 = loader.label username := by
  obtain ⟨entry, found⟩ := Option.isSome_iff_exists.mp (AList.lookup_isSome.mpr present)
  have shown : (loader.view username ⟨none, failedAt, now⟩).2.bind (·.displayName) =
      loader.displayOf username := by
    rw [view_quiet found, displayOf, found]
    rfl
  simp only [labelFor, label, shown, countOf_view_quiet present]
  cases loader.displayOf username with
  | none => rfl
  | some name =>
      simp only [Option.getD_some, Option.isSome_some, true_and]
      rfl

/-- A user name is an at sign and name characters. -/
theorem isNameChar_of_mem {username : UserName} {char : Char}
    (listed : char ∈ username.str.toList) : char = '@' ∨ isNameChar char = true := by
  have valid := username.valid
  unfold matchesName at valid
  cases chars : username.str.toList with
  | nil => rw [chars] at listed; cases listed
  | cons first rest =>
      rw [chars] at valid listed
      simp only [Bool.and_eq_true, beq_iff_eq, List.all_eq_true] at valid
      rcases List.mem_cons.mp listed with rfl | later
      · exact .inl valid.1.1.1
      · exact .inr (valid.2 char later)

/-- No username has a parenthesis. -/
theorem paren_notMem (username : UserName) : '(' ∉ username.str.toList := by
  intro listed
  rcases isNameChar_of_mem listed with sigil | name
  · exact absurd sigil (by decide)
  · exact absurd name (by decide)

/-- What stands behind the last occurrence of an item. -/
theorem behind_last {Item : Type} {item : Item} {before before' after after' : List Item}
    (absent : item ∉ after) (absent' : item ∉ after')
    (same : before ++ item :: after = before' ++ item :: after') : after = after' := by
  rcases List.append_eq_append_iff.mp same with ⟨middle, -, rest⟩ | ⟨middle, -, rest⟩
  · cases middle with
    | nil => exact (List.cons.inj rest).2
    | cons first middle =>
        obtain ⟨-, rfl⟩ := List.cons.inj rest
        exact absurd (List.mem_append_right middle List.mem_cons_self) absent
  · cases middle with
    | nil => exact (List.cons.inj rest).2.symm
    | cons first middle =>
        obtain ⟨-, rfl⟩ := List.cons.inj rest
        exact absurd (List.mem_append_right middle List.mem_cons_self) absent'

/-- The characters of a label with a user name. -/
theorem toList_withUsername (base : String) (username : UserName) :
    (withUsername base username).toList =
      (base.toList ++ [' ']) ++ '(' :: (username.str.toList ++ [')']) := by
  simp [withUsername, String.toList_append]

/-- The username in parentheses can be read off. -/
theorem withUsername_inj {base base' : String} {username username' : UserName}
    (same : withUsername base username = withUsername base' username') : username = username' := by
  have lists := congrArg String.toList same
  rw [toList_withUsername, toList_withUsername] at lists
  have absent : ∀ name : UserName, '(' ∉ name.str.toList ++ [')'] := by
    intro name listed
    rcases List.mem_append.mp listed with inside | last
    · exact paren_notMem name inside
    · exact absurd (List.mem_singleton.mp last) (by decide)
  have names := behind_last (absent username) (absent username') lists
  have strings := String.toList_inj.mp (List.append_cancel_right names)
  cases username
  cases username'
  cases strings
  rfl

/-- No username looks like a label with one behind it. -/
theorem withUsername_ne_str (base : String) (username other : UserName) :
    withUsername base username ≠ other.str := by
  intro same
  apply paren_notMem other
  rw [← same, toList_withUsername]
  exact List.mem_append_right _ List.mem_cons_self

/-- The display name of one user is the label of the other, whose own display name is shared. -/
def Imitates (loader : ProfileLoader) (imitator user : UserName) : Prop :=
  ∃ name, loader.displayOf user = some name ∧ loader.Shared name ∧
    loader.displayOf imitator = some (withUsername name user) ∧
    ¬loader.Shared (withUsername name user)

/-- The display name of one user is the username of the other, who has no display name, and
the index does not count both. -/
def Borrows (loader : ProfileLoader) (borrower user : UserName) : Prop :=
  loader.displayOf user = none ∧ loader.displayOf borrower = some user.str ∧
    ¬loader.Shared user.str

/-- A user whose display name imitates a label has that label. -/
theorem label_of_imitates {loader : ProfileLoader} {imitator user : UserName}
    (imitates : loader.Imitates imitator user) :
    loader.label imitator = loader.label user := by
  obtain ⟨name, shown, shared, chosen, single⟩ := imitates
  simp only [label, shown, chosen, if_pos shared, if_neg single]

/-- A user who borrows a display name has the same label. -/
theorem label_of_borrows {loader : ProfileLoader} {borrower user : UserName}
    (borrows : loader.Borrows borrower user) : loader.label borrower = loader.label user := by
  obtain ⟨unnamed, chosen, single⟩ := borrows
  simp only [label, unnamed, chosen, if_neg single]

/-- A user without a display name has the label of another only when it is borrowed. -/
theorem borrows_of_label {loader : ProfileLoader} {first second : UserName}
    (apart : first ≠ second) (unnamed : loader.displayOf second = none)
    (same : loader.label first = loader.label second) : loader.Borrows first second := by
  simp only [label, unnamed] at same
  cases shown : loader.displayOf first with
  | none =>
      rw [shown] at same
      cases first
      cases second
      cases same
      exact absurd rfl apart
  | some name =>
      simp only [shown] at same
      by_cases shared : loader.Shared name
      · rw [if_pos shared] at same
        exact absurd same (withUsername_ne_str name first second)
      · rw [if_neg shared] at same
        subst same
        exact ⟨unnamed, shown, shared⟩

/-- Equal labels are imitated or borrowed. -/
theorem label_inj {loader : ProfileLoader} (indexed : loader.Indexed) {first second : UserName}
    (apart : first ≠ second) (same : loader.label first = loader.label second) :
    loader.Imitates first second ∨ loader.Imitates second first ∨
      loader.Borrows first second ∨ loader.Borrows second first := by
  cases named : loader.displayOf second with
  | none => exact .inr (.inr (.inl (borrows_of_label apart named same)))
  | some secondName =>
      cases shown : loader.displayOf first with
      | none => exact .inr (.inr (.inr (borrows_of_label apart.symm shown same.symm)))
      | some firstName =>
          simp only [label, named, shown] at same
          by_cases firstShared : loader.Shared firstName <;>
            by_cases secondShared : loader.Shared secondName
          · rw [if_pos firstShared, if_pos secondShared] at same
            exact absurd (withUsername_inj same) apart
          · rw [if_pos firstShared, if_neg secondShared] at same
            subst same
            exact .inr (.inl ⟨firstName, shown, firstShared, named, secondShared⟩)
          · rw [if_neg firstShared, if_pos secondShared] at same
            subst same
            exact .inl ⟨secondName, named, secondShared, shown, firstShared⟩
          · rw [if_neg firstShared, if_neg secondShared] at same
            subst same
            refine absurd ?_ firstShared
            apply indexed.refreshLabelIndex (refreshLabelIndex_clean loader) first second firstName
              apart
            · rw [displayOf_refreshLabelIndex, shown]
            · rw [displayOf_refreshLabelIndex, named]

/-- A label which is given is the one which would be given again. -/
theorem labelFor_settles (loader : ProfileLoader) (username : UserName) (meets : ProfilePoll)
    (failedAt now : Nat) :
    ((loader.labelFor username meets).1.labelFor username ⟨none, failedAt, now⟩).2 =
      (loader.labelFor username meets).2 := by
  have present : username ∈ (loader.labelFor username meets).1.entries := by
    rw [labelFor, refreshLabelIndex_entries]
    exact (AList.mem_insert _).mpr (.inl rfl)
  have shown : (loader.labelFor username meets).1.displayOf username =
      (loader.view username meets).2.bind (·.displayName) := by
    rw [labelFor, displayOf_refreshLabelIndex, view, displayOf_insert, if_pos rfl]
    rfl
  have clean : (loader.labelFor username meets).1.labelIndexDirty = false :=
    refreshLabelIndex_clean _
  rw [labelFor_quiet present, label, shown]
  simp only [Shared, refreshLabelIndex_of_clean clean]
  simp only [labelFor]
  cases (loader.view username meets).2.bind (·.displayName) with
  | none => rfl
  | some name =>
      simp only [Option.getD_some, Option.isSome_some, true_and]
      rfl

/-- In every state which calls lead to, `label_for` gives two users different labels unless one
of them has chosen the label of the other. The labels are those which are given while no promise
comes; a call with which one comes gives the label which would be given after it. -/
theorem labelFor_ne_iff (cached : Table UserName UserDetails) (calls : List Call) :
    (∀ first second, first ≠ second → first ∈ (run cached calls).entries →
      second ∈ (run cached calls).entries → ∀ failedAt now failedAt' now',
      (((run cached calls).labelFor first ⟨none, failedAt, now⟩).2 ≠
          ((run cached calls).labelFor second ⟨none, failedAt', now'⟩).2 ↔
        ¬(run cached calls).Imitates first second ∧ ¬(run cached calls).Imitates second first ∧
          ¬(run cached calls).Borrows first second ∧
          ¬(run cached calls).Borrows second first)) ∧
    ∀ username meets failedAt now,
      (((run cached calls).labelFor username meets).1.labelFor username
        ⟨none, failedAt, now⟩).2 = ((run cached calls).labelFor username meets).2 := by
  refine ⟨?_, labelFor_settles (run cached calls)⟩
  intro first second apart present other failedAt now failedAt' now'
  rw [labelFor_quiet present, labelFor_quiet other]
  constructor
  · intro different
    exact ⟨mt label_of_imitates different, mt label_of_imitates different.symm,
      mt label_of_borrows different, mt label_of_borrows different.symm⟩
  · rintro ⟨imitates, imitates', borrows, borrows'⟩ same
    rcases label_inj (indexed_run cached calls) apart same with chosen | chosen | chosen | chosen
    · exact imitates chosen
    · exact imitates' chosen
    · exact borrows chosen
    · exact borrows' chosen

def carol : UserName := ⟨"@carol", by decide⟩

/-- Two users called Al, and a third whose display name is the label of one of them. -/
def imitatedProfiles : Table UserName UserDetails :=
  (((∅ : Table UserName UserDetails).insert alice ⟨alice, some "Al"⟩).insert bobby
    ⟨bobby, some "Al"⟩).insert carol ⟨carol, some "Al (@bobby)"⟩

/-- Labels of different users can be equal. -/
theorem labels_imitated :
    ¬∀ (cached : Table UserName UserDetails) (calls : List Call) (first second : UserName),
      first ≠ second → first ∈ (run cached calls).entries →
      second ∈ (run cached calls).entries →
      ((run cached calls).labelFor first ⟨none, 0, 0⟩).2 ≠
        ((run cached calls).labelFor second ⟨none, 0, 0⟩).2 := by
  intro different
  have same : ((run imitatedProfiles []).labelFor carol ⟨none, 0, 0⟩).2 =
      ((run imitatedProfiles []).labelFor bobby ⟨none, 0, 0⟩).2 := by
    decide +kernel
  exact different imitatedProfiles [] carol bobby (by decide) (by decide +kernel)
    (by decide +kernel) same

/-- A user whom `invalidate` adds is not counted, so that her username serves as the display name
of another. -/
example :
    ((run ((∅ : Table UserName UserDetails).insert bobby ⟨bobby, some "@carol"⟩)
        [.labelFor bobby ⟨none, 0, 0⟩, .invalidate carol]).labelFor bobby ⟨none, 0, 0⟩).2 =
      ((run ((∅ : Table UserName UserDetails).insert bobby ⟨bobby, some "@carol"⟩)
        [.labelFor bobby ⟨none, 0, 0⟩, .invalidate carol]).labelFor carol ⟨none, 0, 0⟩).2 := by
  decide +kernel

end ProfileLoader

end Nullspace
