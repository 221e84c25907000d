import Nullspace.Directory.Server

/-!
# What a commit does

`DirectoryDb.Sound` says that the tree at the last header is whole: every node is there
and every value is a history. On a sound database a commit which meets no failure, and
whose batch passes verification, appends the batch to the histories and changes nothing
else; a commit which fails leaves every header, chunk and history as it was.
-/

namespace Nullspace

open Nullspace.Base

variable {P : Primitives} {S : Smt P}

namespace DirectoryDb

/-- The tree at the last header is whole, and no chunk stands above the headers. -/
structure Sound (db : DirectoryDb S) : Prop where
  readable : ∀ height header, db.loadLastHeader = some (height, header) →
    S.Readable (S.openTree db.merkle header.smtRoot)
  decodes : ∀ key, ∃ history, db.committed key = .ok history
  chunked : ∀ height ∈ db.chunks, height ∈ db.headers

theorem sound_fresh (store : S.Store) : (fresh (P := P) store).Sound where
  readable _ _ found := by simp [fresh, loadLastHeader, Table.last?_eq_none.mpr] at found
  decodes _ := ⟨[], rfl⟩
  chunked _ listed := listed

/-- Where the histories are read, nothing but the headers and the nodes matters. -/
theorem committed_congr {db next : DirectoryDb S} (headers : next.headers = db.headers)
    (merkle : next.merkle = db.merkle) (key : String) : next.committed key = db.committed key := by
  simp only [committed, loadLastHeader, headers, merkle]

theorem loadLastHeader_congr {db next : DirectoryDb S} (headers : next.headers = db.headers) :
    next.loadLastHeader = db.loadLastHeader := by
  simp only [loadLastHeader, headers]

/-- Soundness depends on the headers, the chunks and the store only. -/
theorem Sound.congr {db next : DirectoryDb S} (sound : db.Sound)
    (headers : next.headers = db.headers) (chunks : next.chunks = db.chunks)
    (merkle : next.merkle = db.merkle) : next.Sound where
  readable height header found := by
    rw [loadLastHeader_congr headers] at found
    rw [merkle]
    exact sound.readable height header found
  decodes key := by
    rw [committed_congr headers merkle]
    exact sound.decodes key
  chunked height listed := by
    rw [chunks] at listed
    rw [headers]
    exact sound.chunked height listed

/-- A history survives later commits to the store. -/
theorem loadHistory_kept (functional : S.Functional []) {store store' : S.Store} {tree : S.Tree}
    {committedRoot root : P.Hash} (stored : S.commit store tree = some (store', committedRoot))
    (readable : S.Readable (S.openTree store root)) (key : String) :
    loadHistory store' root key = loadHistory (P := P) store root key := by
  obtain ⟨value, read⟩ := readable (keyHash key)
  have kept := functional.get_kept stored read
  simp only [loadHistory, read, kept]

end DirectoryDb

/-- The history before a commit is loaded when no fault comes and the tree has it. -/
theorem loadBefore_ok {faulty : Bool} {store : S.Store} {last : Option (Nat × DirectoryHeader P)}
    {key : String} {history : List (DirectoryUpdate P)} :
    loadBefore faulty store last key = .ok history ↔
      (faulty && last.isSome) = false ∧
        DirectoryDb.historyBefore store last key = .ok history := by
  rw [loadBefore]
  cases faulty && last.isSome with
  | true => simp
  | false => cases DirectoryDb.historyBefore store last key <;> simp

/-- A history which is not loaded is the reason for which the commit fails. -/
theorem loadBefore_error {faulty : Bool} {store : S.Store}
    {last : Option (Nat × DirectoryHeader P)} {key : String} {err : CommitError}
    (failed : loadBefore faulty store last key = .error err) : ∃ reason, err = .history reason := by
  rw [loadBefore] at failed
  split at failed
  · exact ⟨_, (Except.error.inj failed).symm⟩
  · split at failed
    · exact ⟨_, (Except.error.inj failed).symm⟩
    · simp at failed

/-- The first loop passes when each key's history, with its new updates, is valid. -/
theorem verifyBatch_ok {env : CommitEnv} {store : S.Store}
    {last : Option (Nat × DirectoryHeader P)} {rows : List (String × List (DirectoryUpdate P))} :
    verifyBatch env store last rows = .ok () ↔
      ∀ row ∈ rows, ∃ history,
        loadBefore (env.faults (.checkedHistory row.1)) store last row.1 = .ok history ∧
          ValidHistory (history ++ row.2) := by
  induction rows with
  | nil => simp [verifyBatch]
  | cons row rest ih =>
      obtain ⟨key, list⟩ := row
      rw [verifyBatch, List.forall_mem_cons, ← ih]
      cases loaded : loadBefore (env.faults (.checkedHistory key)) store last key with
      | error err => simp
      | ok history =>
          cases verified : verifyHistory (history ++ list) with
          | error err => simp [ValidHistory, verified]
          | ok value => simp [ValidHistory, verified]

/-- A batch is refused for its content only when one of its histories is not valid. -/
theorem verifyBatch_verification {env : CommitEnv} {store : S.Store}
    {last : Option (Nat × DirectoryHeader P)} {rows : List (String × List (DirectoryUpdate P))}
    {err : DirectoryHistoryError}
    (refused : verifyBatch env store last rows = .error (.verification err)) :
    ∃ row ∈ rows, ∃ history, DirectoryDb.historyBefore store last row.1 = .ok history ∧
      ¬ValidHistory (history ++ row.2) := by
  induction rows with
  | nil => simp [verifyBatch] at refused
  | cons row rest ih =>
      obtain ⟨key, list⟩ := row
      rw [verifyBatch] at refused
      cases loaded : loadBefore (env.faults (.checkedHistory key)) store last key with
      | error other =>
          obtain ⟨reason, rfl⟩ := loadBefore_error loaded
          simp [loaded] at refused
      | ok history =>
          cases verified : verifyHistory (history ++ list) with
          | error reason =>
              have before := (loadBefore_ok.mp loaded).2
              exact ⟨(key, list), List.mem_cons_self, history, before, by simp [ValidHistory, verified]⟩
          | ok value =>
              simp only [loaded, verified] at refused
              obtain ⟨other, listed, rest⟩ := ih refused
              exact ⟨other, List.mem_cons_of_mem _ listed, rest⟩

/-- The second loop writes the first key and goes on with the rest. -/
theorem writeBatch_cons {env : CommitEnv} {store : S.Store}
    {last : Option (Nat × DirectoryHeader P)} {tree final : S.Tree} {key : String}
    {list : List (DirectoryUpdate P)} {rest : List (String × List (DirectoryUpdate P))} :
    writeBatch env store last tree ((key, list) :: rest) = .ok final ↔
      ∃ history, loadBefore (env.faults (.writtenHistory key)) store last key = .ok history ∧
        env.faults (.treeUpdate key) = false ∧ ∃ next,
          S.write tree (DirectoryDb.keyHash key) (Bcs.toBytes (history ++ list)) = some next ∧
            writeBatch env store last next rest = .ok final := by
  rw [writeBatch]
  cases loadBefore (env.faults (.writtenHistory key)) store last key with
  | error err => simp
  | ok history =>
      cases env.faults (.treeUpdate key) with
      | true => simp
      | false =>
          cases written :
            S.write tree (DirectoryDb.keyHash key) (Bcs.toBytes (history ++ list)) <;> simp [written]

/-- The second loop judges no history. -/
theorem writeBatch_error {env : CommitEnv} {store : S.Store}
    {last : Option (Nat × DirectoryHeader P)} {tree : S.Tree}
    {rows : List (String × List (DirectoryUpdate P))} {reason : DirectoryHistoryError} :
    writeBatch env store last tree rows ≠ .error (.verification reason) := by
  induction rows generalizing tree with
  | nil => simp [writeBatch]
  | cons row rest ih =>
      obtain ⟨key, list⟩ := row
      rw [writeBatch]
      split
      · rename_i err failed
        obtain ⟨cause, rfl⟩ := loadBefore_error failed
        simp
      · split
        · simp
        · split
          · simp
          · exact ih

/-- The second loop leaves a tree which can be read. -/
theorem writeBatch_readable (functional : S.Functional []) {env : CommitEnv} {store : S.Store}
    {last : Option (Nat × DirectoryHeader P)} {tree final : S.Tree}
    {rows : List (String × List (DirectoryUpdate P))} (readable : S.Readable tree)
    (written : writeBatch env store last tree rows = .ok final) : S.Readable final := by
  induction rows generalizing tree with
  | nil =>
      cases written
      exact readable
  | cons row rest ih =>
      obtain ⟨_, _, _, next, stored, remaining⟩ := writeBatch_cons.mp written
      exact ih (functional.readable_write readable stored) remaining

/-- What the second loop leaves in the tree: the extended history at each key of the
batch, and what was there at every other key. -/
theorem writeBatch_contents (free : P.CollisionFree) (functional : S.Functional [])
    {env : CommitEnv} {store : S.Store} {last : Option (Nat × DirectoryHeader P)}
    {tree final : S.Tree} {rows : List (String × List (DirectoryUpdate P))}
    (distinct : (rows.map Prod.fst).Nodup)
    (written : writeBatch env store last tree rows = .ok final) :
    (∀ row ∈ rows, ∃ history, DirectoryDb.historyBefore store last row.1 = .ok history ∧
        S.get final (DirectoryDb.keyHash row.1) = some (Bcs.toBytes (history ++ row.2))) ∧
      ∀ hash, (∀ row ∈ rows, DirectoryDb.keyHash row.1 ≠ hash) →
        S.get final hash = S.get tree hash := by
  induction rows generalizing tree with
  | nil =>
      cases written
      exact ⟨by simp, fun _ _ => rfl⟩
  | cons row rest ih =>
      obtain ⟨key, list⟩ := row
      obtain ⟨history, loaded, _, next, stored, remaining⟩ := writeBatch_cons.mp written
      rw [List.map_cons, List.nodup_cons] at distinct
      obtain ⟨fresh, distinctRest⟩ := distinct
      obtain ⟨listed, others⟩ := ih distinctRest remaining
      have untouched : ∀ row ∈ rest, DirectoryDb.keyHash (P := P) row.1 ≠ DirectoryDb.keyHash key := by
        intro row member same
        have keys : row.1 = key := free.keyHash same
        exact fresh (List.mem_map.mpr ⟨row, member, keys⟩)
      constructor
      · intro row member
        rcases List.mem_cons.mp member with rfl | later
        · refine ⟨history, (loadBefore_ok.mp loaded).2, ?_⟩
          rw [others _ untouched]
          exact functional.get_written stored
        · exact listed row later
      · intro hash apart
        rw [others hash fun row member => apart row (List.mem_cons_of_mem _ member)]
        exact functional.get_other stored (apart (key, list) List.mem_cons_self).symm

/-- The second loop ends exactly when every history loads and every write is spared. -/
theorem writeBatch_defined (functional : S.Functional []) {env : CommitEnv} {store : S.Store}
    {last : Option (Nat × DirectoryHeader P)} {tree : S.Tree}
    {rows : List (String × List (DirectoryUpdate P))} (readable : S.Readable tree) :
    (∃ final, writeBatch env store last tree rows = .ok final) ↔
      ∀ row ∈ rows, (∃ history,
        loadBefore (env.faults (.writtenHistory row.1)) store last row.1 = .ok history) ∧
        env.faults (.treeUpdate row.1) = false := by
  induction rows generalizing tree with
  | nil => simp [writeBatch]
  | cons row rest ih =>
      obtain ⟨key, list⟩ := row
      rw [List.forall_mem_cons]
      constructor
      · rintro ⟨final, written⟩
        obtain ⟨history, loaded, spared, next, stored, remaining⟩ := writeBatch_cons.mp written
        have nextReadable := functional.readable_write readable stored
        exact ⟨⟨⟨history, loaded⟩, spared⟩, (ih nextReadable).mp ⟨final, remaining⟩⟩
      · rintro ⟨⟨⟨history, loaded⟩, spared⟩, others⟩
        obtain ⟨next, stored⟩ := functional.write_defined tree (DirectoryDb.keyHash key)
          (Bcs.toBytes (history ++ list)) readable
        have nextReadable := functional.readable_write readable stored
        obtain ⟨final, remaining⟩ := (ih nextReadable).mpr others
        exact ⟨final, writeBatch_cons.mpr ⟨history, loaded, spared, next, stored, remaining⟩⟩

/-- A tree is committed when both loops pass and no fault comes. -/
theorem commitTree_ok {env : CommitEnv} {updates : Staging P} {db : DirectoryDb S}
    {merkle : S.Store} {root : P.Hash} :
    commitTree env updates db = .ok (merkle, root) ↔
      env.faults .lastHeader = false ∧ env.faults .treeCommit = false ∧
      verifyBatch env db.merkle db.loadLastHeader updates.rows = .ok () ∧
      ∃ tree,
        writeBatch env db.merkle db.loadLastHeader (startTree db.merkle db.loadLastHeader)
          updates.rows = .ok tree ∧
        S.commit db.merkle tree = some (merkle, root) := by
  rw [commitTree]
  cases env.faults .lastHeader with
  | true => simp
  | false =>
    cases verified : verifyBatch env db.merkle db.loadLastHeader updates.rows with
    | error err => simp [verified]
    | ok value =>
      cases written : writeBatch env db.merkle db.loadLastHeader
          (startTree db.merkle db.loadLastHeader) updates.rows with
      | error err => simp [verified, written]
      | ok tree =>
        cases env.faults .treeCommit with
        | true => simp [verified, written]
        | false => cases stored : S.commit db.merkle tree <;> simp [verified, written, stored]

/-- A commit succeeds when the tree is committed and the chunk is inserted. -/
theorem commitChunk_ok {env : CommitEnv} {updates : Staging P} {db next : DirectoryDb S} :
    commitChunk env updates db = (next, .ok ()) ↔
      ∃ merkle root, commitTree env updates db = .ok (merkle, root) ∧
        env.faults .insertChunk = false ∧
        { db with merkle := merkle }.insertChunk (nextLink db.loadLastHeader).1
          (nextHeader env db root) (nextHeader env db root).hash
          ⟨nextHeader env db root, updates⟩ = some next := by
  rw [commitChunk]
  cases commitTree env updates db with
  | error err => simp
  | ok committed =>
    obtain ⟨merkle, root⟩ := committed
    cases env.faults .insertChunk with
    | true => simp
    | false =>
      cases inserted : { db with merkle := merkle }.insertChunk (nextLink db.loadLastHeader).1
          (nextHeader env db root) (nextHeader env db root).hash
          ⟨nextHeader env db root, updates⟩ <;> simp [inserted]

/-- A commit which fails has written nothing, or nodes which no header names yet. -/
theorem commitChunk_error {env : CommitEnv} {updates : Staging P} {db next : DirectoryDb S}
    {err : CommitError} (failed : commitChunk env updates db = (next, .error err)) :
    next = db ∨ ∃ tree merkle root,
      S.commit db.merkle tree = some (merkle, root) ∧ next = { db with merkle := merkle } := by
  rw [commitChunk] at failed
  cases treed : commitTree env updates db with
  | error other =>
      simp only [treed, Prod.mk.injEq] at failed
      exact Or.inl failed.1.symm
  | ok committed =>
      obtain ⟨merkle, root⟩ := committed
      obtain ⟨_, _, _, tree, _, stored⟩ := commitTree_ok.mp treed
      refine Or.inr ⟨tree, merkle, root, stored, ?_⟩
      simp only [treed] at failed
      split at failed
      · exact (Prod.mk.inj failed).1.symm
      · split at failed
        · exact (Prod.mk.inj failed).1.symm
        · simp at failed

/-- A history is loaded from its encoding in the tree. -/
theorem loadHistory_of_get {store : S.Store} {root : P.Hash} {key : String}
    {history : List (DirectoryUpdate P)}
    (read : S.get (S.openTree store root) (DirectoryDb.keyHash key) = some (Bcs.toBytes history)) :
    DirectoryDb.loadHistory store root key = .ok history := by
  simp only [DirectoryDb.loadHistory, read, Bcs.toBytes_list_ne_nil, if_false,
    Bcs.fromBytes_toBytes]

/-- The next header stands above all others. -/
theorem lt_nextLink (db : DirectoryDb S) :
    ∀ height ∈ db.headers.keys, height < (nextLink db.loadLastHeader).1 := by
  intro height listed
  cases last : db.headers.last? with
  | none =>
      rw [Table.last?_eq_none.mp last] at listed
      simp at listed
  | some found =>
      obtain ⟨top, row⟩ := found
      have bound := (Table.last?_eq_some.mp last).2 height listed
      simp only [DirectoryDb.loadLastHeader, last, Option.map_some, nextLink]
      omega

namespace DirectoryDb

/-- A commit starts from a tree which can be read. -/
theorem Sound.readable_startTree (functional : S.Functional []) {db : DirectoryDb S}
    (sound : db.Sound) : S.Readable (startTree db.merkle db.loadLastHeader) := by
  cases last : db.loadLastHeader with
  | none => exact functional.readable_empty db.merkle
  | some found =>
      obtain ⟨height, header⟩ := found
      exact sound.readable height header last

/-- Reading at a root whose tree holds, at this key, what the batch's start tree holds. -/
theorem loadHistory_of_untouched (functional : S.Functional []) {db : DirectoryDb S}
    {store : S.Store} {root : P.Hash} {key : String}
    (same : S.get (S.openTree store root) (keyHash key) =
      S.get (startTree db.merkle db.loadLastHeader) (keyHash key)) :
    loadHistory store root key = db.committed key := by
  rw [committed]
  cases last : db.loadLastHeader with
  | none =>
      rw [last] at same
      simp only [loadHistory, same, startTree, functional.get_empty, if_true, historyBefore]
  | some found =>
      obtain ⟨height, header⟩ := found
      rw [last] at same
      simp only [loadHistory, same, startTree, historyBefore]

/-- What the new tree holds for every key. -/
theorem Sound.loadHistory_commitTree (free : P.CollisionFree) (functional : S.Functional [])
    {env : CommitEnv} {updates : Staging P} {db : DirectoryDb S} (sound : db.Sound)
    {merkle : S.Store} {root : P.Hash} (treed : commitTree env updates db = .ok (merkle, root)) :
    S.Readable (S.openTree merkle root) ∧ ∀ key history, db.committed key = .ok history →
      loadHistory merkle root key = .ok (history ++ Staging.pending updates key) := by
  obtain ⟨_, _, _, tree, written, stored⟩ := commitTree_ok.mp treed
  have readable := writeBatch_readable functional (sound.readable_startTree functional) written
  obtain ⟨listed, others⟩ :=
    writeBatch_contents free functional (Table.rows_keys_nodup updates) written
  have reads : ∀ hash, S.get (S.openTree merkle root) hash = S.get tree hash :=
    functional.get_committed stored
  constructor
  · intro hash
    obtain ⟨value, read⟩ := readable hash
    exact ⟨value, (reads hash).trans read⟩
  · intro key history before
    by_cases present : key ∈ updates
    · obtain ⟨list, looked⟩ := Option.isSome_iff_exists.mp (AList.lookup_isSome.mpr present)
      have member := Table.mem_rows.mpr looked
      obtain ⟨earlier, loaded, read⟩ := listed (key, list) member
      have same : earlier = history := by
        rw [committed, loaded] at before
        exact Except.ok.inj before
      rw [Staging.pending_of_mem_rows member, ← same]
      exact loadHistory_of_get ((reads _).trans read)
    · have apart : ∀ row ∈ updates.rows, keyHash (P := P) row.1 ≠ keyHash key := by
        intro row member same
        have keys : row.1 = key := free.keyHash same
        have looked : updates.lookup row.1 = some row.2 := Table.mem_rows.mp member
        rw [keys] at looked
        exact present (AList.lookup_isSome.mp (by rw [looked]; rfl))
      rw [Staging.pending_of_not_mem present, List.append_nil, ← before]
      exact loadHistory_of_untouched functional ((reads _).trans (others _ apart))

/-- A chunk got in: its tree was built over the head, and its header names the head. -/
structure Extended (env : CommitEnv) (chunk : DirectoryChunk P) (db next : DirectoryDb S) :
    Prop where
  prev : chunk.header.prev = (nextLink db.loadLastHeader).2
  inserted : ∃ merkle, commitTree env chunk.updates db = .ok (merkle, chunk.header.smtRoot) ∧
    { db with merkle := merkle }.insertChunk (nextLink db.loadLastHeader).1 chunk.header
      chunk.header.hash chunk = some next

/-- No table was written; nodes which no header names yet may have been. -/
def NodesOnly (db next : DirectoryDb S) : Prop :=
  next = db ∨ ∃ tree merkle root,
    S.commit db.merkle tree = some (merkle, root) ∧ next = { db with merkle := merkle }

/-- After a successful commit its header is the last one. -/
theorem Extended.loadLastHeader {env : CommitEnv} {chunk : DirectoryChunk P}
    {db next : DirectoryDb S} (extended : Extended env chunk db next) :
    next.loadLastHeader = some ((nextLink db.loadLastHeader).1, chunk.header) := by
  obtain ⟨merkle, _, inserted⟩ := extended.inserted
  exact loadLastHeader_insertChunk inserted (lt_nextLink db)

/-- A chunk which gets in appends its updates and keeps the database sound. -/
theorem Sound.extended (free : P.CollisionFree) (functional : S.Functional []) {env : CommitEnv}
    {chunk : DirectoryChunk P} {db next : DirectoryDb S} (sound : db.Sound)
    (extended : Extended env chunk db next) :
    next.Sound ∧ ∀ key history, db.committed key = .ok history →
      next.committed key = .ok (history ++ Staging.pending chunk.updates key) := by
  have last := extended.loadLastHeader
  obtain ⟨merkle, treed, inserted⟩ := extended.inserted
  obtain ⟨readable, appends⟩ := sound.loadHistory_commitTree free functional treed
  obtain ⟨_, _, inserts⟩ := insertChunk_eq_some.mp inserted
  have stored : next.merkle = merkle := by rw [inserts]
  have committedNext : ∀ key, next.committed key =
      loadHistory merkle chunk.header.smtRoot key := by
    intro key
    simp only [committed, last, stored, historyBefore]
  refine ⟨⟨?_, ?_, ?_⟩, ?_⟩
  · intro height header found
    rw [last] at found
    cases found
    rw [stored]
    exact readable
  · intro key
    obtain ⟨history, before⟩ := sound.decodes key
    exact ⟨_, (committedNext key).trans (appends key history before)⟩
  · intro height listed
    rw [inserts] at listed ⊢
    rcases (AList.mem_insert _).mp listed with rfl | earlier
    · exact (AList.mem_insert _).mpr (Or.inl rfl)
    · exact (AList.mem_insert _).mpr (Or.inr (sound.chunked height earlier))
  · intro key history before
    exact (committedNext key).trans (appends key history before)

/-- Nodes alone leave the database sound and every history as it was. -/
theorem Sound.nodesOnly (functional : S.Functional []) {db next : DirectoryDb S} (sound : db.Sound)
    (nodesOnly : NodesOnly db next) :
    next.Sound ∧ ∀ key, next.committed key = db.committed key := by
  rcases nodesOnly with rfl | ⟨tree, merkle, root, stored, rfl⟩
  · exact ⟨sound, fun _ => rfl⟩
  · have kept : ∀ key, committed { db with merkle := merkle } key = db.committed key := by
      intro key
      simp only [committed, DirectoryDb.loadLastHeader]
      cases last : db.headers.last? with
      | none => rfl
      | some found =>
          obtain ⟨height, row⟩ := found
          have readable := sound.readable height row.header
            (by simp [DirectoryDb.loadLastHeader, last])
          exact loadHistory_kept functional stored readable key
    refine ⟨⟨?_, ?_, sound.chunked⟩, kept⟩
    · intro height header found hash
      obtain ⟨value, read⟩ := sound.readable height header found hash
      exact ⟨value, functional.get_kept stored read⟩
    · intro key
      rw [kept key]
      exact sound.decodes key

/-- A successful commit extends the chain by one header. -/
theorem extended_of_commitChunk {env : CommitEnv} {updates : Staging P} {db next : DirectoryDb S}
    (done : commitChunk env updates db = (next, .ok ())) :
    ∃ header, Extended env ⟨header, updates⟩ db next := by
  obtain ⟨merkle, root, treed, _, inserted⟩ := commitChunk_ok.mp done
  exact ⟨nextHeader env db root, rfl, merkle, treed, inserted⟩

/-- A commit which succeeds appends the batch and keeps the database sound. -/
theorem Sound.commitChunk_appends (free : P.CollisionFree) (functional : S.Functional [])
    {env : CommitEnv} {updates : Staging P} {db next : DirectoryDb S} (sound : db.Sound)
    (done : commitChunk env updates db = (next, .ok ())) :
    next.Sound ∧ ∀ key history, db.committed key = .ok history →
      next.committed key = .ok (history ++ Staging.pending updates key) := by
  obtain ⟨_, extended⟩ := extended_of_commitChunk done
  exact sound.extended free functional extended

/-- A commit which fails leaves the database sound and every history as it was. -/
theorem Sound.commitChunk_keeps (functional : S.Functional []) {env : CommitEnv}
    {updates : Staging P} {db next : DirectoryDb S} {err : CommitError} (sound : db.Sound)
    (failed : commitChunk env updates db = (next, .error err)) :
    next.Sound ∧ ∀ key, next.committed key = db.committed key :=
  sound.nodesOnly functional (commitChunk_error failed)

end DirectoryDb

/-- The points which a commit of these updates passes, unless it fails before them. -/
def CommitPoint.Passed (db : DirectoryDb S) (updates : Staging P) : CommitPoint → Prop
  | .checkedHistory key => db.loadLastHeader.isSome = true ∧ key ∈ updates
  | .writtenHistory key => db.loadLastHeader.isSome = true ∧ key ∈ updates
  | .treeUpdate key => key ∈ updates
  | .lastHeader => True
  | .treeCommit => True
  | .insertChunk => True

/-- No failure strikes the commit at a point which it passes. -/
def CommitEnv.Spares (env : CommitEnv) (db : DirectoryDb S) (updates : Staging P) : Prop :=
  ∀ point : CommitPoint, point.Passed db updates → env.faults point = false

/-- A row is listed under a key of the batch. -/
theorem mem_of_mem_rows {updates : Staging P} {row : String × List (DirectoryUpdate P)}
    (listed : row ∈ updates.rows) : row.1 ∈ updates := by
  have looked : updates.lookup row.1 = some row.2 := Table.mem_rows.mp listed
  exact AList.lookup_isSome.mp (by rw [looked]; rfl)

/-- Every key of a batch has its row. -/
theorem exists_row_of_mem {updates : Staging P} {key : String} (present : key ∈ updates) :
    ∃ list, (key, list) ∈ updates.rows := by
  obtain ⟨list, looked⟩ := Option.isSome_iff_exists.mp (AList.lookup_isSome.mpr present)
  exact ⟨list, Table.mem_rows.mpr looked⟩

/-- A history which was loaded met no fault. -/
theorem spared_of_loadBefore {faulty : Bool} {store : S.Store}
    {last : Option (Nat × DirectoryHeader P)} {key : String} {history : List (DirectoryUpdate P)}
    (loaded : loadBefore faulty store last key = .ok history) (header : last.isSome = true) :
    faulty = false := by
  have spared := (loadBefore_ok.mp loaded).1
  rwa [header, Bool.and_true] at spared

namespace DirectoryDb

/-- A commit succeeds exactly when it is spared and every extended history is valid. -/
theorem Sound.commitChunk_succeeds (functional : S.Functional []) {env : CommitEnv}
    {updates : Staging P} {db : DirectoryDb S} (sound : db.Sound) :
    (∃ next, commitChunk env updates db = (next, .ok ())) ↔
      env.Spares db updates ∧ ∀ key ∈ updates, ∀ history, db.committed key = .ok history →
        ValidHistory (history ++ Staging.pending updates key) := by
  have startReadable := sound.readable_startTree functional
  constructor
  · rintro ⟨next, done⟩
    obtain ⟨merkle, root, treed, insertSpared, _⟩ := commitChunk_ok.mp done
    obtain ⟨headerSpared, commitSpared, verified, tree, written, _⟩ := commitTree_ok.mp treed
    have checks := verifyBatch_ok.mp verified
    have writes := (writeBatch_defined functional startReadable).mp ⟨tree, written⟩
    constructor
    · intro point passed
      cases point with
      | lastHeader => exact headerSpared
      | treeCommit => exact commitSpared
      | insertChunk => exact insertSpared
      | checkedHistory key =>
          obtain ⟨list, listed⟩ := exists_row_of_mem passed.2
          obtain ⟨history, loaded, _⟩ := checks _ listed
          exact spared_of_loadBefore loaded passed.1
      | writtenHistory key =>
          obtain ⟨list, listed⟩ := exists_row_of_mem passed.2
          obtain ⟨⟨history, loaded⟩, _⟩ := writes _ listed
          exact spared_of_loadBefore loaded passed.1
      | treeUpdate key =>
          obtain ⟨list, listed⟩ := exists_row_of_mem passed
          exact (writes _ listed).2
    · intro key present history before
      obtain ⟨list, listed⟩ := exists_row_of_mem present
      obtain ⟨earlier, loaded, valid⟩ := checks _ listed
      have same : earlier = history := by
        rw [committed, (loadBefore_ok.mp loaded).2] at before
        exact Except.ok.inj before
      rw [Staging.pending_of_mem_rows listed, ← same]
      exact valid
  · rintro ⟨spares, valid⟩
    have loads : ∀ row ∈ updates.rows, ∀ point,
        (db.loadLastHeader.isSome = true → env.faults point = false) →
        ∃ history, loadBefore (env.faults point) db.merkle db.loadLastHeader row.1 =
          .ok history := by
      intro row _ point spared
      obtain ⟨history, before⟩ := sound.decodes row.1
      refine ⟨history, loadBefore_ok.mpr ⟨?_, before⟩⟩
      cases last : db.loadLastHeader.isSome with
      | false => exact Bool.and_false _
      | true => rw [spared last]; rfl
    have verified : verifyBatch env db.merkle db.loadLastHeader updates.rows = .ok () := by
      refine verifyBatch_ok.mpr fun row listed => ?_
      obtain ⟨history, loaded⟩ := loads row listed (.checkedHistory row.1)
        fun header => spares _ ⟨header, mem_of_mem_rows listed⟩
      have extended := valid row.1 (mem_of_mem_rows listed) history (loadBefore_ok.mp loaded).2
      rw [Staging.pending_of_mem_rows listed] at extended
      exact ⟨history, loaded, extended⟩
    obtain ⟨tree, written⟩ := (writeBatch_defined functional startReadable).mpr
      fun row listed => ⟨loads row listed (.writtenHistory row.1)
        fun header => spares _ ⟨header, mem_of_mem_rows listed⟩,
        spares (.treeUpdate row.1) (mem_of_mem_rows listed)⟩
    have readable := writeBatch_readable functional startReadable written
    obtain ⟨⟨merkle, root⟩, stored⟩ := functional.commit_defined db.merkle tree readable
    have treed : commitTree env updates db = .ok (merkle, root) :=
      commitTree_ok.mpr ⟨spares .lastHeader trivial, spares .treeCommit trivial, verified, tree,
        written, stored⟩
    have above := lt_nextLink db
    have headerNew : (nextLink db.loadLastHeader).1 ∉ db.headers :=
      fun listed => Nat.lt_irrefl _ (above _ (AList.mem_keys.mp listed))
    have chunkNew : (nextLink db.loadLastHeader).1 ∉ db.chunks :=
      fun listed => headerNew (sound.chunked _ listed)
    exact ⟨_, commitChunk_ok.mpr ⟨merkle, root, treed, spares .insertChunk trivial,
      insertChunk_eq_some.mpr ⟨headerNew, chunkNew, rfl⟩⟩⟩

/-- A commit is refused for its content only when some extended history is not valid. -/
theorem not_valid_of_verification {env : CommitEnv} {updates : Staging P}
    {db next : DirectoryDb S} {err : DirectoryHistoryError}
    (refused : commitChunk env updates db = (next, .error (.verification err))) :
    ∃ key history, db.committed key = .ok history ∧
      ¬ValidHistory (history ++ Staging.pending updates key) := by
  have treed : commitTree env updates db = .error (.verification err) := by
    rw [commitChunk] at refused
    split at refused
    · rename_i failed
      rw [failed]
      exact congrArg Except.error (Except.error.inj (Prod.mk.inj refused).2)
    · dsimp only at refused
      split at refused
      · simp at refused
      · split at refused <;> simp at refused
  have batch : verifyBatch env db.merkle db.loadLastHeader updates.rows =
      .error (.verification err) := by
    rw [commitTree] at treed
    split at treed
    · simp at treed
    · dsimp only at treed
      split at treed
      · rename_i failed
        rw [failed]
        exact congrArg Except.error (Except.error.inj treed)
      · split at treed
        · rename_i failed
          exact absurd (Except.error.inj treed ▸ failed) writeBatch_error
        · split at treed
          · simp at treed
          · split at treed <;> simp at treed
  obtain ⟨row, listed, history, before, invalid⟩ := verifyBatch_verification batch
  rw [← Staging.pending_of_mem_rows listed] at invalid
  exact ⟨row.1, history, before, invalid⟩

end DirectoryDb
end Nullspace
