import Nullspace.Directory.Mirror
import Nullspace.Directory.Staging

/-!
# The directory only grows

`DirectoryDb.AppendOnly` is about every height at once: the headers are one chain from
height 0, and each tree holds valid histories which extend those of the tree below. The
invariant behind it is `DirectoryDb.Ledger`. A chunk which gets in keeps it by
`Ledger.extended`, whoever built the chunk; nodes without a header keep it by
`Ledger.nodesOnly`. Both nodes do nothing else to these tables.
-/

namespace Nullspace

open Nullspace.Base

variable {P : Primitives} {S : Smt P}

namespace DirectoryDb

/-- The history of a key in the tree of a header. -/
def historyAt (db : DirectoryDb S) (row : HeaderRow P) (key : String) :
    Except DirectoryErr (List (DirectoryUpdate P)) :=
  loadHistory db.merkle row.header.smtRoot key

/-- The headers are a chain from height 0, and the histories below them only grow. -/
structure AppendOnly (db : DirectoryDb S) : Prop where
  contiguous : ∀ height ∈ db.headers, ∀ lower < height, lower ∈ db.headers
  genesis : ∀ row, db.headers.lookup 0 = some row → row.header.prev = P.zeroHash
  linked : ∀ height lower upper, db.headers.lookup height = some lower →
    db.headers.lookup (height + 1) = some upper → upper.header.prev = lower.header.hash
  valid : ∀ height row key, db.headers.lookup height = some row →
    ∃ history, db.historyAt row key = .ok history ∧ ValidHistory history
  grows : ∀ height lower upper key before after, db.headers.lookup height = some lower →
    db.headers.lookup (height + 1) = some upper → db.historyAt lower key = .ok before →
      db.historyAt upper key = .ok after → before <+: after

/-- What every write keeps of the tables and trees. -/
structure Ledger (db : DirectoryDb S) : Prop where
  sound : db.Sound
  heights : ∀ height, height ∈ db.headers ↔ height < (nextLink db.loadLastHeader).1
  hashed : ∀ height row, db.headers.lookup height = some row → row.headerHash = row.header.hash
  chunk : ∀ height row, db.headers.lookup height = some row →
    ∃ updates, db.chunks.lookup height = some ⟨row.header, updates⟩
  readable : ∀ height row, db.headers.lookup height = some row →
    S.Readable (S.openTree db.merkle row.header.smtRoot)
  appendOnly : db.AppendOnly

theorem ledger_fresh (store : S.Store) : (fresh (P := P) store).Ledger where
  sound := sound_fresh store
  heights height := by simp [fresh, loadLastHeader, Table.last?_eq_none.mpr, nextLink]
  hashed height row found := by simp [fresh] at found
  chunk height row found := by simp [fresh] at found
  readable height row found := by simp [fresh] at found
  appendOnly :=
    { contiguous := fun height listed => by simp [fresh] at listed
      genesis := fun row found => by simp [fresh] at found
      linked := fun height lower upper found => by simp [fresh] at found
      valid := fun height row key found => by simp [fresh] at found
      grows := fun height lower upper key before after found => by simp [fresh] at found }

/-- The head is a row of the table. -/
theorem exists_row_of_last {db : DirectoryDb S} {height : Nat} {header : DirectoryHeader P}
    (last : db.loadLastHeader = some (height, header)) :
    ∃ row, db.headers.lookup height = some row ∧ row.header = header := by
  obtain ⟨⟨top, row⟩, found, same⟩ := Option.map_eq_some_iff.mp last
  cases same
  exact ⟨row, (Table.last?_eq_some.mp found).1, rfl⟩

/-- What a commit starts from is valid. -/
theorem Ledger.valid_committed {db : DirectoryDb S} (ledger : db.Ledger) {key : String}
    {history : List (DirectoryUpdate P)} (before : db.committed key = .ok history) :
    ValidHistory history := by
  rw [committed] at before
  cases last : db.loadLastHeader with
  | none =>
      rw [last] at before
      cases before
      exact validHistory_nil
  | some found =>
      obtain ⟨height, header⟩ := found
      obtain ⟨row, listed, rfl⟩ := exists_row_of_last last
      obtain ⟨other, read, valid⟩ := ledger.appendOnly.valid height row key listed
      rw [last] at before
      cases read.symm.trans before
      exact valid

/-- The batch of a chunk which got in makes valid histories. -/
theorem Ledger.valid_extended {db : DirectoryDb S} (ledger : db.Ledger) {env : CommitEnv}
    {updates : Staging P} {merkle : S.Store} {root : P.Hash}
    (treed : commitTree env updates db = .ok (merkle, root)) {key : String}
    {history : List (DirectoryUpdate P)} (before : db.committed key = .ok history) :
    ValidHistory (history ++ Staging.pending updates key) := by
  by_cases present : key ∈ updates
  · obtain ⟨_, _, verified, _⟩ := commitTree_ok.mp treed
    obtain ⟨list, listed⟩ := exists_row_of_mem present
    obtain ⟨earlier, loaded, valid⟩ := verifyBatch_ok.mp verified _ listed
    have same : earlier = history := by
      rw [committed, (loadBefore_ok.mp loaded).2] at before
      exact Except.ok.inj before
    rw [Staging.pending_of_mem_rows listed, ← same]
    exact valid
  · rw [Staging.pending_of_not_mem present, List.append_nil]
    exact ledger.valid_committed before

/-! ## What the writes keep -/

/-- Reading below a header which stands is the same after a commit to the store. -/
theorem Ledger.historyAt_kept (functional : S.Functional []) {db next : DirectoryDb S}
    (ledger : db.Ledger) {tree : S.Tree} {root : P.Hash}
    (stored : S.commit db.merkle tree = some (next.merkle, root)) {height : Nat}
    {row : HeaderRow P} (found : db.headers.lookup height = some row) (key : String) :
    next.historyAt row key = db.historyAt row key :=
  loadHistory_kept functional stored (ledger.readable height row found) key

/-- The tables stay and the trees read as before. -/
theorem Ledger.congr {db next : DirectoryDb S} (ledger : db.Ledger) (sound : next.Sound)
    (headers : next.headers = db.headers) (chunks : next.chunks = db.chunks)
    (readable : ∀ height row, db.headers.lookup height = some row →
      S.Readable (S.openTree next.merkle row.header.smtRoot))
    (same : ∀ height row key, db.headers.lookup height = some row →
      next.historyAt row key = db.historyAt row key) : next.Ledger where
  sound := sound
  heights height := by
    rw [headers, loadLastHeader_congr headers]
    exact ledger.heights height
  hashed height row found := ledger.hashed height row (headers ▸ found)
  chunk height row found := by
    rw [chunks]
    exact ledger.chunk height row (headers ▸ found)
  readable height row found := readable height row (headers ▸ found)
  appendOnly := by
    obtain ⟨contiguous, genesis, linked, valid, grows⟩ := ledger.appendOnly
    rw [← headers] at contiguous genesis linked valid grows
    refine ⟨contiguous, genesis, linked, ?_, ?_⟩
    · intro height row key found
      rw [same height row key (headers ▸ found)]
      exact valid height row key found
    · intro height lower upper key before after foundLower foundUpper readLower readUpper
      rw [same height lower key (headers ▸ foundLower)] at readLower
      rw [same (height + 1) upper key (headers ▸ foundUpper)] at readUpper
      exact grows height lower upper key before after foundLower foundUpper readLower readUpper

/-- Writing nodes of the store keeps a ledger. -/
theorem Ledger.nodesOnly (functional : S.Functional []) {db next : DirectoryDb S}
    (ledger : db.Ledger) (nodesOnly : NodesOnly db next) : next.Ledger := by
  have sound := (ledger.sound.nodesOnly functional nodesOnly).1
  rcases nodesOnly with rfl | ⟨tree, merkle, root, stored, rfl⟩
  · exact ledger
  · refine ledger.congr sound rfl rfl ?_ ?_
    · intro height row found hash
      obtain ⟨value, read⟩ := ledger.readable height row found hash
      exact ⟨value, functional.get_kept stored read⟩
    · intro height row key found
      exact ledger.historyAt_kept functional stored found key

/-- Only the seeds differ. -/
theorem Ledger.of_tables {db next : DirectoryDb S} (ledger : db.Ledger)
    (headers : next.headers = db.headers) (chunks : next.chunks = db.chunks)
    (merkle : next.merkle = db.merkle) : next.Ledger := by
  refine ledger.congr (ledger.sound.congr headers chunks merkle) headers chunks ?_ ?_
  · rw [merkle]
    exact ledger.readable
  · intro height row key _
    rw [historyAt, historyAt, merkle]

/-- A row below a new one is an old row, at a lower height. -/
theorem Ledger.lookup_insert_cases {db : DirectoryDb S} (ledger : db.Ledger) {height other : Nat}
    {new row : HeaderRow P} (top : (nextLink db.loadLastHeader).1 = height)
    (found : (db.headers.insert height new).lookup other = some row) :
    (other = height ∧ row = new) ∨ other < height ∧ db.headers.lookup other = some row := by
  refine (Table.lookup_insert_cases found).imp_right ?_
  intro old
  refine ⟨?_, old⟩
  rw [← top]
  exact (ledger.heights other).mp (AList.lookup_isSome.mp (by rw [old]; rfl))

/-- The row below the next height is the head. -/
theorem loadLastHeader_of_lookup {db : DirectoryDb S} {lower : Nat} {row : HeaderRow P}
    (top : (nextLink db.loadLastHeader).1 = lower + 1)
    (found : db.headers.lookup lower = some row) :
    db.loadLastHeader = some (lower, row.header) := by
  cases before : db.loadLastHeader with
  | none =>
      rw [before] at top
      cases top
  | some pair =>
      obtain ⟨head, header⟩ := pair
      obtain ⟨headRow, headFound, rfl⟩ := exists_row_of_last before
      rw [before] at top
      cases top
      rw [headFound] at found
      cases found
      rfl

/-- A chunk which gets in links to the head, and its tree extends the head's. -/
theorem Ledger.appendOnly_extended (free : P.CollisionFree) (functional : S.Functional [])
    {env : CommitEnv} {chunk : DirectoryChunk P} {db next : DirectoryDb S} (ledger : db.Ledger)
    (extended : Extended env chunk db next) : next.AppendOnly := by
  obtain ⟨merkle, treed, inserted⟩ := extended.inserted
  obtain ⟨_, _, rfl⟩ := insertChunk_eq_some.mp inserted
  obtain ⟨_, _, _, _, _, stored⟩ := commitTree_ok.mp treed
  obtain ⟨_, appends⟩ := ledger.sound.loadHistory_commitTree free functional treed
  generalize top : (nextLink db.loadLastHeader).1 = height
  have kept : ∀ other row key, db.headers.lookup other = some row →
      loadHistory merkle row.header.smtRoot key = db.historyAt row key := fun other row key found =>
    loadHistory_kept functional stored (ledger.readable other row found) key
  refine ⟨?_, ?_, ?_, ?_, ?_⟩
  · intro other listed lower below
    rw [AList.mem_insert, ledger.heights, top] at listed ⊢
    omega
  · intro row found
    rcases ledger.lookup_insert_cases top found with ⟨zero, rfl⟩ | ⟨_, old⟩
    · rw [extended.prev]
      cases before : db.loadLastHeader with
      | none => rfl
      | some pair =>
          rw [before] at top
          exact absurd (top.trans zero.symm) (Nat.succ_ne_zero _)
    · exact ledger.appendOnly.genesis row old
  · intro other lower upper foundLower foundUpper
    rcases ledger.lookup_insert_cases top foundLower with ⟨rfl, _⟩ | ⟨_, oldLower⟩
    · rcases ledger.lookup_insert_cases top foundUpper with
        ⟨impossible, _⟩ | ⟨impossible, _⟩ <;> omega
    · rcases ledger.lookup_insert_cases top foundUpper with ⟨above, rfl⟩ | ⟨_, oldUpper⟩
      · rw [extended.prev, loadLastHeader_of_lookup (top.trans above.symm) oldLower]
        rfl
      · exact ledger.appendOnly.linked other lower upper oldLower oldUpper
  · intro other row key found
    rcases ledger.lookup_insert_cases top found with ⟨_, rfl⟩ | ⟨_, old⟩
    · obtain ⟨history, before⟩ := ledger.sound.decodes key
      exact ⟨_, appends key history before, ledger.valid_extended treed before⟩
    · obtain ⟨history, read, valid⟩ := ledger.appendOnly.valid other row key old
      exact ⟨history, (kept other row key old).trans read, valid⟩
  · intro other lower upper key before after foundLower foundUpper readLower readUpper
    rcases ledger.lookup_insert_cases top foundLower with ⟨rfl, _⟩ | ⟨_, oldLower⟩
    · rcases ledger.lookup_insert_cases top foundUpper with
        ⟨impossible, _⟩ | ⟨impossible, _⟩ <;> omega
    · have readBefore := (kept other lower key oldLower).symm.trans readLower
      rcases ledger.lookup_insert_cases top foundUpper with ⟨above, rfl⟩ | ⟨_, oldUpper⟩
      · have head : db.committed key = .ok before := by
          rw [committed, loadLastHeader_of_lookup (top.trans above.symm) oldLower]
          exact readBefore
        cases (appends key before head).symm.trans readUpper
        exact List.prefix_append _ _
      · have readAfter := (kept _ upper key oldUpper).symm.trans readUpper
        exact ledger.appendOnly.grows other lower upper key before after oldLower oldUpper
          readBefore readAfter

/-- A chunk which gets in keeps the ledger. -/
theorem Ledger.extended (free : P.CollisionFree) (functional : S.Functional []) {env : CommitEnv}
    {chunk : DirectoryChunk P} {db next : DirectoryDb S} (ledger : db.Ledger)
    (extended : Extended env chunk db next) : next.Ledger := by
  have sound := (ledger.sound.extended free functional extended).1
  have appendOnly := ledger.appendOnly_extended free functional extended
  have last := extended.loadLastHeader
  obtain ⟨merkle, treed, inserted⟩ := extended.inserted
  obtain ⟨_, _, rfl⟩ := insertChunk_eq_some.mp inserted
  obtain ⟨_, _, _, tree, _, stored⟩ := commitTree_ok.mp treed
  obtain ⟨readable, _⟩ := ledger.sound.loadHistory_commitTree free functional treed
  generalize top : (nextLink db.loadLastHeader).1 = height at last inserted sound appendOnly ⊢
  refine ⟨sound, ?_, ?_, ?_, ?_, appendOnly⟩
  · intro other
    rw [last, AList.mem_insert, ledger.heights, top]
    simp only [nextLink]
    omega
  · intro other row found
    rcases ledger.lookup_insert_cases top found with ⟨_, rfl⟩ | ⟨_, old⟩
    · rfl
    · exact ledger.hashed other row old
  · intro other row found
    rcases ledger.lookup_insert_cases top found with ⟨rfl, rfl⟩ | ⟨below, old⟩
    · exact ⟨chunk.updates, by rw [Table.lookup_insert_eq, if_pos rfl]⟩
    · obtain ⟨updates, stands⟩ := ledger.chunk other row old
      refine ⟨updates, ?_⟩
      rw [Table.lookup_insert_eq, if_neg (by omega)]
      exact stands
  · intro other row found
    rcases ledger.lookup_insert_cases top found with ⟨_, rfl⟩ | ⟨_, old⟩
    · exact readable
    · intro hash
      obtain ⟨value, read⟩ := ledger.readable other row old hash
      exact ⟨value, functional.get_kept stored read⟩

end DirectoryDb

/-- What a step of the primary does to its headers, chunks and trees. -/
theorem Primary.databases_step {equixVerify : Bytes → Bytes → Bool} {state next : Primary S}
    {event : PrimaryEvent P} (taken : (machine equixVerify).step state event = some next) :
    (next.db.headers = state.db.headers ∧ next.db.chunks = state.db.chunks ∧
        next.db.merkle = state.db.merkle) ∨
      (∃ env chunk, DirectoryDb.Extended env chunk state.db next.db) ∨
        DirectoryDb.NodesOnly state.db next.db := by
  by_cases take : event = .commitTake
  · subst take
    obtain ⟨_, rfl⟩ := step_commitTake taken
    exact Or.inl ⟨rfl, rfl, rfl⟩
  · by_cases finish : ∃ env, event = .commitFinish env
    · obtain ⟨env, rfl⟩ := finish
      obtain ⟨updates, _, rfl⟩ := step_commitFinish taken
      rcases commitChunk_cases env updates state.db with ⟨header, extended⟩ | nodesOnly
      · exact Or.inr (Or.inl ⟨env, _, extended⟩)
      · exact Or.inr (Or.inr nodesOnly)
    · exact Or.inl (meanwhile_step take (fun env same => finish ⟨env, same⟩) taken).tables

/-- Every step of the primary keeps the ledger. -/
theorem Primary.ledger_step (free : P.CollisionFree) (functional : S.Functional [])
    {equixVerify : Bytes → Bytes → Bool} {state next : Primary S} {event : PrimaryEvent P}
    (ledger : state.db.Ledger) (taken : (machine equixVerify).step state event = some next) :
    next.db.Ledger := by
  rcases databases_step taken with ⟨headers, chunks, merkle⟩ | ⟨env, chunk, extended⟩ | nodesOnly
  · exact ledger.of_tables headers chunks merkle
  · exact ledger.extended free functional extended
  · exact ledger.nodesOnly functional nodesOnly

/-- Every step of a mirror keeps the ledger. -/
theorem Mirror.ledger_step (free : P.CollisionFree) (functional : S.Functional [])
    {db next : DirectoryDb S} {event : MirrorEvent P} (ledger : db.Ledger)
    (taken : machine.step db event = some next) : next.Ledger := by
  cases event with
  | apply env height chunk =>
      cases taken
      rcases applyChunk_cases env height chunk db with extended | nodesOnly
      · exact ledger.extended free functional extended
      · exact ledger.nodesOnly functional nodesOnly
  | getPowSeed seed now inserted purged =>
      cases taken
      obtain ⟨headers, chunks, merkle⟩ := v1GetPowSeed_keeps db seed now inserted purged
      exact ledger.of_tables headers chunks merkle

/-- In every run of a primary, and on a mirror under any chunks, the headers are one chain
from height 0 and the histories are valid and only grow. -/
theorem DirectoryDb.appendOnly_always (free : P.CollisionFree) (functional : S.Functional [])
    (equixVerify : Bytes → Bytes → Bool) (store : S.Store) :
    (∀ events, (Primary.machine equixVerify).Always (fun state => state.db.AppendOnly)
      (Primary.fresh store) events) ∧
      ∀ events, Mirror.machine.Always AppendOnly (fresh store) events := by
  constructor
  · intro events before position state reached
    have ledgers : (Primary.machine equixVerify).Always (fun state => state.db.Ledger)
        (Primary.fresh store) events :=
      Machine.always_of_step (Primary.ledger_step free functional) events (ledger_fresh store)
    exact (ledgers before position state reached).appendOnly
  · intro events before position db reached
    have ledgers : Mirror.machine.Always Ledger (fresh store) events :=
      Machine.always_of_step (Mirror.ledger_step free functional) events (ledger_fresh store)
    exact (ledgers before position db reached).appendOnly

/-- Over trees which spell out their content. -/
theorem DirectoryDb.appendOnly_always_symbolic :
    (∀ events, (Primary.machine fun _ _ => true).Always (fun state => state.db.AppendOnly)
      (Primary.fresh (S := symbolicSmt) ()) events) ∧
      ∀ events, Mirror.machine.Always AppendOnly (fresh (S := symbolicSmt) ()) events :=
  appendOnly_always symbolic_collisionFree symbolicSmt_functional (fun _ _ => true) ()

end Nullspace
