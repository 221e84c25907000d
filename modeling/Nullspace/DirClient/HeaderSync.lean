import Nullspace.Directory.Db

/-!
# Header synchronisation of the directory client

`syncHeaders` fetches headers from an untrusted server, batch by batch, and stores each
batch before it asks for the next; only the last hash is compared with the anchor. The
server's answers are an argument: a batch, or `none` for anything which ends the call.

`Stores` is the invariant of the table, and `syncHeaders_spec` says that every call,
failed ones included, at most appends to it.
-/

namespace Nullspace

open Nullspace.Base

variable {P : Primitives}

/-- The table `_dirclient_headers`. -/
abbrev HeaderTable (P : Primitives) := Table Nat (HeaderRow P)

def batchLimit : Nat := 1000

inductive SyncError where
  /-- The call, the server or the local database failed. -/
  | unavailable
  | incomplete (got expected : Nat)
  | mismatch (height : Nat)
  | anchorMismatch (height : Nat)
  /-- `expect("gap")`: the program stops. -/
  | gap
deriving DecidableEq

namespace HeaderTable

def maxStoredHeight (table : HeaderTable P) : Option Nat := table.keys.max?

def loadHeader (table : HeaderTable P) (height : Nat) : Option (DirectoryHeader P) :=
  (table.lookup height).map HeaderRow.header

/-- The rows of a batch, once each header names the hash before it. -/
def stage (height : Nat) (expectedPrev : P.Hash) :
    List (DirectoryHeader P) → Except SyncError (List (Nat × HeaderRow P))
  | [] => .ok []
  | header :: rest =>
      if header.prev ≠ expectedPrev then .error (.mismatch height)
      else
        match stage (height + 1) header.hash rest with
        | .error err => .error err
        | .ok staged => .ok ((height, ⟨header, header.hash⟩) :: staged)

/-- `INSERT OR REPLACE` of staged rows in one transaction. -/
def insertRows (table : HeaderTable P) (staged : List (Nat × HeaderRow P)) : HeaderTable P :=
  staged.foldl (fun table row => table.insert row.1 row.2) table

/-- The hash of the last row stored. -/
def lastHash (prevHash : P.Hash) (staged : List (Nat × HeaderRow P)) : P.Hash :=
  staged.foldl (fun _ row => row.2.headerHash) prevHash

/-- The loop of `sync_headers` over the server's answers. -/
def syncLoop (target : Nat) (table : HeaderTable P) (next : Nat) (prevHash : P.Hash) :
    List (Option (List (DirectoryHeader P))) → HeaderTable P × Except SyncError P.Hash
  | [] => (table, if next ≤ target then .error .unavailable else .ok prevHash)
  | reply :: rest =>
      if next ≤ target then
        match reply with
        | none => (table, .error .unavailable)
        | some headers =>
            let last := min (next + batchLimit - 1) target
            let expected := last - next + 1
            if headers.length ≠ expected then
              (table, .error (.incomplete headers.length expected))
            else
              match stage next prevHash headers with
              | .error err => (table, .error err)
              | .ok staged =>
                  syncLoop target (table.insertRows staged) (last + 1) (lastHash prevHash staged)
                    rest
      else (table, .ok prevHash)

/-- Where a call starts: the height to fetch next, and the hash it has to name. -/
def resumePoint (table : HeaderTable P) : Except SyncError (Nat × P.Hash) :=
  match table.maxStoredHeight with
  | none => .ok (0, P.zeroHash)
  | some current =>
      match table.lookup current with
      | none => .error .gap
      | some row => .ok (current + 1, row.headerHash)

/-- `sync_headers`. -/
def syncHeaders (table : HeaderTable P) (anchor : DirectoryAnchor P)
    (replies : List (Option (List (DirectoryHeader P)))) :
    HeaderTable P × Except SyncError Unit :=
  match table.resumePoint with
  | .error err => (table, .error err)
  | .ok (next, prevHash) =>
      match table.syncLoop anchor.lastHeaderHeight next prevHash replies with
      | (table, .error err) => (table, .error err)
      | (table, .ok lastHash) =>
          if lastHash ≠ anchor.lastHeaderHash then
            (table, .error (.anchorMismatch anchor.lastHeaderHeight))
          else (table, .ok ())

/-- The row which stores a header. -/
def rowOf (header : DirectoryHeader P) : HeaderRow P := ⟨header, header.hash⟩

/-- The table holds exactly a chain, each header at its position and beside its hash. -/
structure Stores (table : HeaderTable P) (chain : List (DirectoryHeader P)) : Prop where
  rows : ∀ height, table.lookup height = chain[height]?.map rowOf
  linked : (headerLinking P).Linked chain

theorem stores_empty : Stores (∅ : HeaderTable P) [] where
  rows _ := rfl
  linked := trivial

/-- A table which stores a chain has its headers by height. -/
theorem Stores.loadHeader {table : HeaderTable P} {chain : List (DirectoryHeader P)}
    (stores : table.Stores chain) (height : Nat) : table.loadHeader height = chain[height]? := by
  rw [HeaderTable.loadHeader, stores.rows]
  cases chain[height]? <;> rfl

/-- The greatest height is that of the last header. -/
theorem Stores.maxStoredHeight {table : HeaderTable P} {chain : List (DirectoryHeader P)}
    (stores : table.Stores chain) {height : Nat} :
    table.maxStoredHeight = some height ↔ chain.length = height + 1 := by
  have listed : ∀ height, height ∈ table.keys ↔ height < chain.length := by
    intro height
    rw [← AList.mem_keys, ← AList.lookup_isSome, stores.rows]
    simp
  rw [HeaderTable.maxStoredHeight, List.max?_eq_some_iff, listed]
  constructor
  · rintro ⟨short, greatest⟩
    have next := greatest (height + 1)
    rw [listed] at next
    omega
  · intro length
    refine ⟨by omega, ?_⟩
    intro other member
    have bound := (listed other).mp member
    omega

/-- The hash the next header has to name stands in the last row. -/
theorem Stores.resumePoint {table : HeaderTable P} {chain : List (DirectoryHeader P)}
    (stores : table.Stores chain) :
    table.resumePoint = .ok (chain.length, (headerLinking P).tip chain) := by
  rcases List.eq_nil_or_concat chain with rfl | ⟨front, last, rfl⟩
  · have none : table.maxStoredHeight = none := by
      refine Option.eq_none_iff_forall_ne_some.mpr ?_
      intro height greatest
      cases stores.maxStoredHeight.mp greatest
    simp only [HeaderTable.resumePoint, none]
    rfl
  · rw [List.concat_eq_append] at *
    have greatest : table.maxStoredHeight = some front.length := by
      rw [stores.maxStoredHeight, List.length_append, List.length_singleton]
    have row : table.lookup front.length = some (rowOf last) := by
      rw [stores.rows, List.getElem?_append_right (Nat.le_refl _)]
      simp
    simp only [HeaderTable.resumePoint, greatest, row, Linking.tip,
      Linking.tipFrom_snoc, List.length_append, List.length_singleton]
    rfl

/-- A header which names the last one of the chain is stored behind it. -/
theorem Stores.snoc {table : HeaderTable P} {chain : List (DirectoryHeader P)}
    {header : DirectoryHeader P} (stores : table.Stores chain)
    (named : header.prev = (headerLinking P).tip chain) :
    Stores (table.insert chain.length (rowOf header)) (chain ++ [header]) where
  rows height := by
    rw [Table.lookup_insert_eq]
    by_cases new : height = chain.length
    · subst new
      simp
    · rw [if_neg new, stores.rows]
      rcases Nat.lt_or_gt_of_ne new with below | above
      · rw [List.getElem?_append_left below]
      · rw [List.getElem?_eq_none (Nat.le_of_lt above),
          List.getElem?_eq_none (by rw [List.length_append, List.length_singleton]; omega)]
  linked := Linking.linkedFrom_snoc.mpr ⟨stores.linked, named⟩

/-- A batch which passes the check extends the chain of the table. -/
theorem Stores.insertRows {table : HeaderTable P} {chain headers : List (DirectoryHeader P)}
    {staged : List (Nat × HeaderRow P)} (stores : table.Stores chain)
    (checked : stage chain.length ((headerLinking P).tip chain) headers = .ok staged) :
    (table.insertRows staged).Stores (chain ++ headers) ∧
      lastHash ((headerLinking P).tip chain) staged = (headerLinking P).tip (chain ++ headers) := by
  induction headers generalizing table chain staged with
  | nil =>
      cases checked
      rw [List.append_nil]
      exact ⟨stores, rfl⟩
  | cons header rest ih =>
      rw [stage] at checked
      split at checked
      · simp at checked
      · rename_i named
        split at checked
        · simp at checked
        · rename_i others remaining
          cases checked
          have extended := stores.snoc (not_not.mp named)
          have tips : (headerLinking P).tip (chain ++ [header]) = header.hash :=
            Linking.tipFrom_snoc _ _ _
          have further : stage (chain ++ [header]).length ((headerLinking P).tip (chain ++ [header]))
              rest = .ok others := by
            rw [tips, List.length_append, List.length_singleton]
            exact remaining
          obtain ⟨restStored, restTip⟩ := ih extended further
          rw [List.append_assoc, List.singleton_append] at restStored restTip
          rw [tips] at restTip
          exact ⟨restStored, restTip⟩

/-- A batch is staged exactly when it is linked. -/
theorem exists_stage_iff {height : Nat} {prevHash : P.Hash} {headers : List (DirectoryHeader P)} :
    (∃ staged, stage height prevHash headers = .ok staged) ↔
      (headerLinking P).LinkedFrom prevHash headers := by
  induction headers generalizing height prevHash with
  | nil => simp [stage]
  | cons header rest ih =>
      rw [stage]
      by_cases named : header.prev = prevHash
      · have tail := @ih (height + 1) header.hash
        rw [if_neg (not_not.mpr named)]
        constructor
        · rintro ⟨staged, checked⟩
          split at checked
          · cases checked
          · rename_i others remaining
            exact ⟨named, tail.mp ⟨others, remaining⟩⟩
        · rintro ⟨_, linked⟩
          obtain ⟨others, remaining⟩ := tail.mpr linked
          exact ⟨_, by rw [remaining]⟩
      · rw [if_pos named]
        simp only [reduceCtorEq, exists_false, false_iff]
        exact fun linked => named linked.1

/-- Where the batch from a height ends. -/
def batchEnd (target next : Nat) : Nat := min (next + batchLimit - 1) target

/-- The loop stores this answer: it is complete, and linked to what is stored. -/
structure Takes (target : Nat) (chain headers : List (DirectoryHeader P)) : Prop where
  more : chain.length ≤ target
  complete : headers.length = batchEnd target chain.length - chain.length + 1
  linked : (headerLinking P).LinkedFrom ((headerLinking P).tip chain) headers

/-- A batch ends at its last height. -/
theorem Takes.length {target : Nat} {chain headers : List (DirectoryHeader P)}
    (takes : Takes target chain headers) :
    (chain ++ headers).length = batchEnd target chain.length + 1 := by
  have more := takes.more
  rw [List.length_append, takes.complete]
  simp only [batchEnd, batchLimit]
  omega

/-- A turn of the loop stores the answer and goes on, or it ends with the table as it is. -/
theorem Stores.syncLoop_cons {target : Nat} {table next : HeaderTable P}
    {chain : List (DirectoryHeader P)} {result : Except SyncError P.Hash}
    {reply : Option (List (DirectoryHeader P))} {rest : List (Option (List (DirectoryHeader P)))}
    (stores : table.Stores chain)
    (ran : table.syncLoop target chain.length ((headerLinking P).tip chain) (reply :: rest) =
      (next, result)) :
    (∃ headers extended, reply = some headers ∧ Takes target chain headers ∧
      Stores extended (chain ++ headers) ∧
      extended.syncLoop target (chain ++ headers).length
        ((headerLinking P).tip (chain ++ headers)) rest = (next, result)) ∨
    (¬∃ headers, reply = some headers ∧ Takes target chain headers) ∧ next = table ∧
      ((chain.length ≤ target ∧ ∃ err, result = .error err) ∨
        target < chain.length ∧ result = .ok ((headerLinking P).tip chain)) := by
  unfold HeaderTable.syncLoop at ran
  split at ran
  · rename_i more
    cases reply with
    | none =>
        cases ran
        exact .inr ⟨by simp, rfl, .inl ⟨more, _, rfl⟩⟩
    | some headers =>
        dsimp only at ran
        split at ran
        · rename_i short
          cases ran
          refine .inr ⟨?_, rfl, .inl ⟨more, _, rfl⟩⟩
          rintro ⟨_, same, takes⟩
          cases same
          exact short takes.complete
        · rename_i complete
          split at ran
          · rename_i refused
            cases ran
            refine .inr ⟨?_, rfl, .inl ⟨more, _, rfl⟩⟩
            rintro ⟨_, same, takes⟩
            cases same
            obtain ⟨staged, checked⟩ : ∃ staged, stage chain.length _ _ = .ok staged :=
              exists_stage_iff.mpr takes.linked
            rw [refused] at checked
            cases checked
          · rename_i staged checked
            obtain ⟨extended, tips⟩ := stores.insertRows checked
            have takes : Takes target chain headers :=
              ⟨more, not_not.mp complete, exists_stage_iff.mp ⟨staged, checked⟩⟩
            refine .inl ⟨headers, _, rfl, takes, extended, ?_⟩
            rw [takes.length, ← tips]
            exact ran
  · rename_i beyond
    cases ran
    refine .inr ⟨?_, rfl, .inr ⟨Nat.not_le.mp beyond, rfl⟩⟩
    rintro ⟨_, _, takes⟩
    exact beyond takes.more

/-- The loop appends to the chain, never beyond the target; when it ends without an error, the
chain reaches the target. -/
theorem Stores.syncLoop {target : Nat} {table next : HeaderTable P}
    {chain : List (DirectoryHeader P)} {result : Except SyncError P.Hash}
    {replies : List (Option (List (DirectoryHeader P)))} (stores : table.Stores chain)
    (ran : table.syncLoop target chain.length ((headerLinking P).tip chain) replies =
      (next, result)) :
    ∃ more, next.Stores (chain ++ more) ∧
      (chain ++ more).length ≤ max chain.length (target + 1) ∧ ∀ lastHash, result = .ok lastHash →
        lastHash = (headerLinking P).tip (chain ++ more) ∧ target < (chain ++ more).length := by
  induction replies generalizing table chain with
  | nil =>
      rw [HeaderTable.syncLoop] at ran
      cases ran
      refine ⟨[], by rwa [List.append_nil], by simp, ?_⟩
      intro lastHash ended
      split at ended
      · simp at ended
      · rename_i beyond
        cases ended
        rw [List.append_nil]
        exact ⟨rfl, by omega⟩
  | cons reply rest ih =>
      rcases stores.syncLoop_cons ran with
        ⟨headers, extended, rfl, takes, stored, ran⟩ | ⟨_, rfl, ended⟩
      · obtain ⟨more, held, bound, ended⟩ := ih stored ran
        have length := takes.length
        simp only [batchEnd] at length
        rw [List.append_assoc] at held bound ended
        exact ⟨headers ++ more, held, by omega, ended⟩
      · refine ⟨[], by rwa [List.append_nil], by simp, ?_⟩
        rw [List.append_nil]
        rcases ended with ⟨_, err, rfl⟩ | ⟨beyond, rfl⟩
        · simp
        · intro lastHash ended
          cases ended
          exact ⟨rfl, beyond⟩

/-- Every call appends to the chain of the table, whatever the server answers. When it
succeeds, the chain ends with the anchor's hash, at the anchor's height or above. -/
theorem Stores.syncHeaders {table next : HeaderTable P} {chain : List (DirectoryHeader P)}
    {anchor : DirectoryAnchor P} {replies : List (Option (List (DirectoryHeader P)))}
    {result : Except SyncError Unit} (stores : table.Stores chain)
    (ran : table.syncHeaders anchor replies = (next, result)) :
    ∃ more, next.Stores (chain ++ more) ∧ (result = .ok () →
      (headerLinking P).tip (chain ++ more) = anchor.lastHeaderHash ∧
        anchor.lastHeaderHeight < (chain ++ more).length) := by
  simp only [HeaderTable.syncHeaders, stores.resumePoint] at ran
  rcases looped : table.syncLoop anchor.lastHeaderHeight chain.length
    ((headerLinking P).tip chain) replies with ⟨final, err | lastHash⟩
  · obtain ⟨more, stored, _, _⟩ := stores.syncLoop looped
    simp only [looped, Prod.mk.injEq] at ran
    obtain ⟨rfl, rfl⟩ := ran
    exact ⟨more, stored, by simp⟩
  · obtain ⟨more, stored, _, ended⟩ := stores.syncLoop looped
    obtain ⟨tips, reaches⟩ := ended lastHash rfl
    simp only [looped] at ran
    split at ran
    · cases ran
      exact ⟨more, stored, by simp⟩
    · rename_i anchored
      cases ran
      exact ⟨more, stored, fun _ => ⟨tips.symm.trans (not_not.mp anchored), reaches⟩⟩

/-- A table holds one chain only. -/
theorem Stores.unique {table : HeaderTable P} {chain other : List (DirectoryHeader P)}
    (stores : table.Stores chain) (same : table.Stores other) : chain = other := by
  refine List.ext_getElem? fun height => ?_
  rw [← stores.loadHeader, same.loadHeader]

/-- The headers between two heights of a chain. -/
def slice (chain : List (DirectoryHeader P)) (first last : Nat) : List (DirectoryHeader P) :=
  (chain.drop first).take (last + 1 - first)

/-- What a server of a chain answers to the requests of one call; `fuel` bounds their number. -/
def honestReplies (chain : List (DirectoryHeader P)) (target : Nat) :
    Nat → Nat → List (Option (List (DirectoryHeader P)))
  | 0, _ => []
  | fuel + 1, next =>
      some (slice chain next (batchEnd target next)) ::
        honestReplies chain target fuel (batchEnd target next + 1)

/-- `sync_headers` against a server of the chain. -/
def syncHonestly (table : HeaderTable P) (chain : List (DirectoryHeader P))
    (anchor : DirectoryAnchor P) : HeaderTable P × Except SyncError Unit :=
  match table.resumePoint with
  | .error err => (table, .error err)
  | .ok (next, _) =>
      table.syncHeaders anchor
        (honestReplies chain anchor.lastHeaderHeight (anchor.lastHeaderHeight + 1) next)

/-- The anchor names a header of the chain, by height and hash. -/
def Names (chain : List (DirectoryHeader P)) (anchor : DirectoryAnchor P) : Prop :=
  ∃ header, chain[anchor.lastHeaderHeight]? = some header ∧ header.hash = anchor.lastHeaderHash

/-- An anchor names a height of the chain. -/
theorem Names.lt_length {chain : List (DirectoryHeader P)} {anchor : DirectoryAnchor P}
    (names : Names chain anchor) : anchor.lastHeaderHeight < chain.length := by
  obtain ⟨header, found, _⟩ := names
  exact (List.getElem?_eq_some_iff.mp found).1

/-- An anchor which names a header of a chain names one of every longer chain. -/
theorem Names.grow {chain later : List (DirectoryHeader P)} {anchor : DirectoryAnchor P}
    (names : Names chain anchor) (grown : chain <+: later) : Names later anchor := by
  have within := names.lt_length
  obtain ⟨header, found, hash⟩ := names
  obtain ⟨rest, rfl⟩ := grown
  exact ⟨header, (List.getElem?_append_left within).trans found, hash⟩

/-- The anchor's hash is the tip of the chain up to its height. -/
theorem Names.tip {chain : List (DirectoryHeader P)} {anchor : DirectoryAnchor P}
    (names : Names chain anchor) :
    (headerLinking P).tip (chain.take (anchor.lastHeaderHeight + 1)) = anchor.lastHeaderHash := by
  obtain ⟨header, found, hash⟩ := names
  rw [List.take_add_one, found, Option.toList_some, Linking.tip, Linking.tipFrom_snoc]
  exact hash

/-- What is stored of a chain, and the next batch of it. -/
theorem append_slice {chain stored : List (DirectoryHeader P)} (within : stored <+: chain)
    {last : Nat} (after : stored.length ≤ last + 1) :
    stored ++ slice chain stored.length last = chain.take (last + 1) := by
  obtain ⟨rest, rfl⟩ := within
  rw [slice, List.drop_left, List.take_append, List.take_of_length_le after]

/-- The loop stores the next batch of the chain. -/
theorem takes_slice {chain stored : List (DirectoryHeader P)} {target : Nat}
    (linked : (headerLinking P).Linked chain) (within : stored <+: chain)
    (reaches : target < chain.length) (more : stored.length ≤ target) :
    Takes target stored (slice chain stored.length (batchEnd target stored.length)) where
  more := more
  complete := by
    rw [slice, List.length_take, List.length_drop]
    simp only [batchEnd, batchLimit]
    omega
  linked := by
    have step : stored.length ≤ batchEnd target stored.length + 1 := by
      simp only [batchEnd, batchLimit]
      omega
    have further := linked.of_prefix (List.take_prefix (batchEnd target stored.length + 1) chain)
    rw [← append_slice within step] at further
    exact (Linking.linkedFrom_append.mp further).2

/-- From a part of the chain, the loop reaches the target. -/
theorem Stores.syncLoop_honest {chain stored : List (DirectoryHeader P)} {table : HeaderTable P}
    {target fuel : Nat} (linked : (headerLinking P).Linked chain) (stores : table.Stores stored)
    (within : stored <+: chain) (reaches : target < chain.length)
    (short : stored.length ≤ target + 1) (enough : target + 1 - stored.length ≤ fuel) :
    ∃ next, table.syncLoop target stored.length ((headerLinking P).tip stored)
        (honestReplies chain target fuel stored.length) =
          (next, .ok ((headerLinking P).tip (chain.take (target + 1)))) ∧
      next.Stores (chain.take (target + 1)) := by
  induction fuel generalizing stored table with
  | zero =>
      have whole : stored = chain.take (target + 1) := by
        rw [List.prefix_iff_eq_take.mp within, show stored.length = target + 1 by omega]
      rw [honestReplies, HeaderTable.syncLoop, if_neg (by omega), ← whole]
      exact ⟨table, rfl, stores⟩
  | succ fuel ih =>
      rw [honestReplies]
      rcases ran : table.syncLoop target stored.length ((headerLinking P).tip stored)
        (some (slice chain stored.length (batchEnd target stored.length)) ::
          honestReplies chain target fuel (batchEnd target stored.length + 1)) with ⟨next, result⟩
      rcases stores.syncLoop_cons ran with
        ⟨_, extended, answered, takes, held, looped⟩ | ⟨refused, rfl, ended⟩
      · cases answered
        have more := takes.more
        have length := takes.length
        have grown := takes.complete
        have further : stored ++ slice chain stored.length (batchEnd target stored.length) <+:
            chain := by
          rw [append_slice within (by rw [← length, List.length_append]; omega)]
          exact List.take_prefix _ _
        have inside : batchEnd target stored.length ≤ target := Nat.min_le_right _ _
        rw [List.length_append] at length
        obtain ⟨final, again, whole⟩ := ih held further (by rw [List.length_append]; omega)
          (by rw [List.length_append]; omega)
        rw [takes.length] at again looped
        exact ⟨final, looped.symm.trans again, whole⟩
      · rcases ended with ⟨more, _⟩ | ⟨beyond, rfl⟩
        · exact absurd ⟨_, rfl, takes_slice linked within reaches more⟩ refused
        · have whole : stored = chain.take (target + 1) := by
            rw [List.prefix_iff_eq_take.mp within, show stored.length = target + 1 by omega]
          rw [← whole]
          exact ⟨next, rfl, stores⟩

/-- A call with an anchor at or above the table fills the table up to the anchor. -/
theorem Stores.syncHonestly {chain stored : List (DirectoryHeader P)} {table : HeaderTable P}
    {anchor : DirectoryAnchor P} (linked : (headerLinking P).Linked chain)
    (stores : table.Stores stored) (within : stored <+: chain) (names : Names chain anchor)
    (short : stored.length ≤ anchor.lastHeaderHeight + 1) :
    ∃ next, table.syncHonestly chain anchor = (next, .ok ()) ∧
      next.Stores (chain.take (anchor.lastHeaderHeight + 1)) := by
  obtain ⟨next, looped, held⟩ := stores.syncLoop_honest linked within names.lt_length short
    (Nat.sub_le _ _)
  refine ⟨next, ?_, held⟩
  simp only [HeaderTable.syncHonestly, HeaderTable.syncHeaders, stores.resumePoint, looped,
    names.tip, ne_eq, not_true_eq_false, if_false]

/-- A call with an anchor below the table compares it with the wrong header, and fails. -/
theorem Stores.syncHonestly_above (free : P.CollisionFree) {chain stored : List (DirectoryHeader P)}
    {table : HeaderTable P} {anchor : DirectoryAnchor P} (linked : (headerLinking P).Linked chain)
    (stores : table.Stores stored) (within : stored <+: chain) (names : Names chain anchor)
    (above : anchor.lastHeaderHeight + 1 < stored.length) :
    table.syncHonestly chain anchor = (table, .error (.anchorMismatch anchor.lastHeaderHeight)) := by
  have ahead : ¬stored.length ≤ anchor.lastHeaderHeight := by omega
  have tips : (headerLinking P).tip stored ≠ anchor.lastHeaderHash := by
    rw [← names.tip]
    intro same
    have lengths := congrArg List.length
      ((linked.of_prefix within).eq_of_tip free.headers (linked.of_prefix (List.take_prefix _ _)) same)
    rw [List.length_take] at lengths
    omega
  have idle : table.syncLoop anchor.lastHeaderHeight stored.length ((headerLinking P).tip stored)
      (honestReplies chain anchor.lastHeaderHeight (anchor.lastHeaderHeight + 1) stored.length) =
        (table, .ok ((headerLinking P).tip stored)) := by
    rw [honestReplies]
    unfold HeaderTable.syncLoop
    rw [if_neg ahead]
  simp only [HeaderTable.syncHonestly, HeaderTable.syncHeaders, stores.resumePoint, idle, tips,
    ne_eq, not_false_eq_true, if_true]

end HeaderTable
end Nullspace
