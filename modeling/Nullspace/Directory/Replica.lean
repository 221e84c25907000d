import Nullspace.Directory.AppendOnly
import Nullspace.Directory.Atomicity

/-!
# A mirror refines its primary

A mirror which applies the chunks of a primary in the order of their heights computes the
same trees, although it builds them in a store of its own. `Mirrors` is the simulation
relation: equal tables, and equal content below every header. One chunk is
`Mirrors.applyChunk`; `replicated_always` carries it through every run of the primary, and
`mirror_refines` reads the answers off the relation.
-/

namespace Nullspace

open Nullspace.Base

variable {P : Primitives} {S : Smt P}

namespace DirectoryDb

/-- The mirror's tables are the primary's, and its trees read as the primary's do. -/
structure Mirrors (primary mirror : DirectoryDb S) : Prop where
  headers : ∀ height, mirror.headers.lookup height = primary.headers.lookup height
  chunks : ∀ height, mirror.chunks.lookup height = primary.chunks.lookup height
  trees : ∀ height row, primary.headers.lookup height = some row →
    S.SameContent (S.openTree mirror.merkle row.header.smtRoot)
      (S.openTree primary.merkle row.header.smtRoot)

namespace Mirrors

variable {primary mirror : DirectoryDb S}

/-- A mirror of a database has its last header. -/
theorem loadLastHeader (mirrors : Mirrors primary mirror) :
    mirror.loadLastHeader = primary.loadLastHeader := by
  rw [DirectoryDb.loadLastHeader, DirectoryDb.loadLastHeader,
    Table.last?_congr mirrors.headers]

/-- A mirror of a database has its histories. -/
theorem loadHistory (mirrors : Mirrors primary mirror) {height : Nat} {row : HeaderRow P}
    (found : primary.headers.lookup height = some row) (key : String) :
    mirror.historyAt row key = primary.historyAt row key := by
  simp only [historyAt, DirectoryDb.loadHistory, mirrors.trees height row found (keyHash key)]

/-- The histories which a batch is put behind are the same. -/
theorem committed (mirrors : Mirrors primary mirror) (key : String) :
    mirror.committed key = primary.committed key := by
  rw [DirectoryDb.committed, DirectoryDb.committed, mirrors.loadLastHeader]
  cases last : primary.loadLastHeader with
  | none => rfl
  | some pair =>
      obtain ⟨height, header⟩ := pair
      obtain ⟨row, found, rfl⟩ := exists_row_of_last last
      exact mirrors.loadHistory found key

/-- A mirror commits from a tree with the primary's contents. -/
theorem startTree (functional : S.Functional []) (mirrors : Mirrors primary mirror) :
    S.SameContent (Nullspace.startTree mirror.merkle mirror.loadLastHeader)
      (Nullspace.startTree primary.merkle primary.loadLastHeader) := by
  rw [mirrors.loadLastHeader]
  cases last : primary.loadLastHeader with
  | none =>
      intro key
      simp only [Nullspace.startTree, functional.get_empty]
  | some pair =>
      obtain ⟨height, header⟩ := pair
      obtain ⟨row, found, rfl⟩ := exists_row_of_last last
      exact mirrors.trees height row found

end Mirrors
end DirectoryDb

/-- Two writers which start from the same content and histories end with the same content. -/
theorem writeBatch_sameContent (free : P.CollisionFree) (functional : S.Functional [])
    {env otherEnv : CommitEnv} {store other : S.Store}
    {last otherLast : Option (Nat × DirectoryHeader P)} {tree otherTree final otherFinal : S.Tree}
    {rows : List (String × List (DirectoryUpdate P))} (distinct : (rows.map Prod.fst).Nodup)
    (histories : ∀ key, DirectoryDb.historyBefore store last key =
      DirectoryDb.historyBefore other otherLast key)
    (start : S.SameContent tree otherTree)
    (written : writeBatch env store last tree rows = .ok final)
    (otherWritten : writeBatch otherEnv other otherLast otherTree rows = .ok otherFinal) :
    S.SameContent final otherFinal := by
  obtain ⟨listed, others⟩ := writeBatch_contents free functional distinct written
  obtain ⟨otherListed, otherOthers⟩ := writeBatch_contents free functional distinct otherWritten
  intro hash
  by_cases touched : ∃ row ∈ rows, DirectoryDb.keyHash (P := P) row.1 = hash
  · obtain ⟨row, member, rfl⟩ := touched
    obtain ⟨history, before, read⟩ := listed row member
    obtain ⟨otherHistory, otherBefore, otherRead⟩ := otherListed row member
    rw [histories] at before
    cases before.symm.trans otherBefore
    exact read.trans otherRead.symm
  · have apart : ∀ row ∈ rows, DirectoryDb.keyHash (P := P) row.1 ≠ hash :=
      fun row member same => touched ⟨row, member, same⟩
    rw [others hash apart, otherOthers hash apart]
    exact start hash

namespace DirectoryDb

/-- An environment in which nothing fails. -/
def Quiet (env : CommitEnv) : Prop := ∀ point, env.faults point = false

/-- The mirror computes the primary's root over any batch. -/
theorem Mirrors.commitTree (free : P.CollisionFree) (functional : S.Functional [])
    (canonical : S.Canonical) {primary mirror : DirectoryDb S} (mirrors : Mirrors primary mirror)
    (ledger : primary.Ledger) (sound : mirror.Sound) {env quiet : CommitEnv} (spared : Quiet quiet)
    {updates : Staging P} {merkle : S.Store} {root : P.Hash}
    (treed : Nullspace.commitTree env updates primary = .ok (merkle, root)) :
    ∃ store, Nullspace.commitTree quiet updates mirror = .ok (store, root) ∧
      S.SameContent (S.openTree store root) (S.openTree merkle root) := by
  have succeeds : ∃ next, commitChunk quiet updates mirror = (next, .ok ()) := by
    refine (sound.commitChunk_succeeds functional).mpr ⟨fun point _ => spared point, ?_⟩
    intro key _ history before
    rw [mirrors.committed] at before
    exact ledger.valid_extended treed before
  obtain ⟨_, done⟩ := succeeds
  obtain ⟨store, other, otherTreed, _⟩ := commitChunk_ok.mp done
  obtain ⟨_, _, _, tree, written, stored⟩ := commitTree_ok.mp treed
  obtain ⟨_, _, _, otherTree, otherWritten, otherStored⟩ := commitTree_ok.mp otherTreed
  have same : S.SameContent otherTree tree :=
    writeBatch_sameContent free functional (Table.rows_keys_nodup updates) mirrors.committed
      (mirrors.startTree functional) otherWritten written
  have roots : other = root := canonical.root otherStored stored same
  subst roots
  refine ⟨store, otherTreed, ?_⟩
  intro key
  rw [functional.get_committed otherStored, functional.get_committed stored]
  exact same key

/-- A chunk which got in at the primary gets in at the mirror. -/
theorem Mirrors.applyChunk (free : P.CollisionFree) (functional : S.Functional [])
    (canonical : S.Canonical) {primary next mirror : DirectoryDb S} (mirrors : Mirrors primary mirror)
    (ledger : primary.Ledger) (sound : mirror.Sound) {env quiet : CommitEnv} (spared : Quiet quiet)
    {chunk : DirectoryChunk P} (extended : Extended env chunk primary next) :
    ∃ following,
      Nullspace.applyChunk quiet (nextLink primary.loadLastHeader).1 chunk mirror =
          (following, .ok ()) ∧
        Mirrors next following ∧ following.Sound := by
  obtain ⟨merkle, treed, inserted⟩ := extended.inserted
  obtain ⟨_, _, rfl⟩ := insertChunk_eq_some.mp inserted
  obtain ⟨store, otherTreed, sameTop⟩ :=
    mirrors.commitTree free functional canonical ledger sound spared treed
  obtain ⟨_, _, _, tree, _, stored⟩ := commitTree_ok.mp treed
  obtain ⟨_, _, _, otherTree, _, otherStored⟩ := commitTree_ok.mp otherTreed
  have heads := mirrors.loadLastHeader
  have above := lt_nextLink mirror
  rw [heads] at above
  have headerNew : (nextLink primary.loadLastHeader).1 ∉ mirror.headers :=
    fun listed => Nat.lt_irrefl _ (above _ (AList.mem_keys.mp listed))
  have chunkNew : (nextLink primary.loadLastHeader).1 ∉ mirror.chunks :=
    fun listed => headerNew (sound.chunked _ listed)
  have entered : insertChunk { mirror with merkle := store } _ chunk.header chunk.header.hash
      chunk = some _ := insertChunk_eq_some.mpr ⟨headerNew, chunkNew, rfl⟩
  have applied := applyChunk_ok.mpr ⟨(congrArg (fun last => (nextLink last).1) heads).symm,
    extended.prev.trans (congrArg (fun last => (nextLink last).2) heads).symm, store, otherTreed,
    spared .insertChunk, entered⟩
  refine ⟨_, applied, ⟨?_, ?_, ?_⟩, ?_⟩
  · intro height
    simp only [Table.lookup_insert_eq, mirrors.headers]
  · intro height
    simp only [Table.lookup_insert_eq, mirrors.chunks]
  · intro height row found
    rcases Table.lookup_insert_cases found with ⟨_, same⟩ | found
    · cases same
      exact sameTop
    · intro key
      obtain ⟨value, read⟩ := ledger.readable height row found key
      rw [functional.get_kept stored read, functional.get_kept otherStored
        ((mirrors.trees height row found key).trans read)]
  · suffices mirrored : Extended quiet chunk mirror _ from
      (sound.extended free functional mirrored).1
    refine ⟨?_, ?_⟩
    · rw [heads]
      exact extended.prev
    · rw [heads]
      exact ⟨store, otherTreed, entered⟩

end DirectoryDb

theorem applyChunks_snoc {env : Nat → CommitEnv} {chunkAt : Nat → Option (DirectoryChunk P)}
    {lastHash hash : P.Hash} {db middle next : DirectoryDb S} {heights : List Nat} {height : Nat}
    {chunk : DirectoryChunk P}
    (before : applyChunks env chunkAt lastHash db heights = (middle, .ok hash))
    (fetched : chunkAt height = some chunk)
    (applied : applyChunk (env height) height chunk middle = (next, .ok ())) :
    applyChunks env chunkAt lastHash db (heights ++ [height]) = (next, .ok chunk.header.hash) := by
  induction heights generalizing lastHash db with
  | nil =>
      cases before
      simp only [List.nil_append, applyChunks, fetched, applied]
  | cons first rest ih =>
      rw [List.cons_append]
      simp only [applyChunks] at before ⊢
      split at before
      · cases before
      · split at before
        · cases before
        · exact ih before

theorem applyChunks_congr {env : Nat → CommitEnv} {chunkAt other : Nat → Option (DirectoryChunk P)}
    {heights : List Nat} (same : ∀ height ∈ heights, chunkAt height = other height)
    (lastHash : P.Hash) (db : DirectoryDb S) :
    applyChunks env chunkAt lastHash db heights = applyChunks env other lastHash db heights := by
  induction heights generalizing lastHash db with
  | nil => rfl
  | cons first rest ih =>
      simp only [applyChunks, same first List.mem_cons_self]
      cases other first with
      | none => rfl
      | some chunk =>
          dsimp only
          split
          · rfl
          · exact ih (fun height listed => same height (List.mem_cons_of_mem _ listed)) _ _

namespace DirectoryDb

/-- A mirror which starts empty and applies the chunks of the database, all of them. -/
def Replicated (env : Nat → CommitEnv) (store : S.Store) (db : DirectoryDb S) : Prop :=
  ∃ mirror, applyChunks env (fun height => db.chunks.lookup height) P.zeroHash (fresh store)
      (List.range (nextLink db.loadLastHeader).1) = (mirror, .ok (nextLink db.loadLastHeader).2) ∧
    Mirrors db mirror ∧ mirror.Sound

theorem replicated_fresh (env : Nat → CommitEnv) (store other : S.Store) :
    Replicated env store (fresh (P := P) other) := by
  refine ⟨fresh store, ?_, ⟨fun _ => rfl, fun _ => rfl, ?_⟩, sound_fresh store⟩
  · simp [fresh, loadLastHeader, Table.last?_eq_none.mpr, nextLink, applyChunks]
  · intro height row found
    simp [fresh] at found

/-- Equal tables whose trees read the same have the same mirror. -/
theorem Replicated.congr {env : Nat → CommitEnv} {store : S.Store} {db next : DirectoryDb S}
    (replicated : Replicated env store db) (headers : next.headers = db.headers)
    (chunks : next.chunks = db.chunks)
    (trees : ∀ height row, db.headers.lookup height = some row →
      S.SameContent (S.openTree db.merkle row.header.smtRoot)
        (S.openTree next.merkle row.header.smtRoot)) : Replicated env store next := by
  obtain ⟨mirror, ran, mirrors, sound⟩ := replicated
  refine ⟨mirror, ?_, ⟨?_, ?_, ?_⟩, sound⟩
  · rw [chunks, loadLastHeader_congr headers]
    exact ran
  · rw [headers]
    exact mirrors.headers
  · rw [chunks]
    exact mirrors.chunks
  · intro height row found key
    rw [headers] at found
    exact (mirrors.trees height row found key).trans (trees height row found key)

/-- Writing nodes of the store keeps a database replicated. -/
theorem Replicated.nodesOnly (functional : S.Functional []) {env : Nat → CommitEnv}
    {store : S.Store} {db next : DirectoryDb S} (replicated : Replicated env store db)
    (ledger : db.Ledger) (nodesOnly : NodesOnly db next) : Replicated env store next := by
  rcases nodesOnly with rfl | ⟨tree, merkle, root, stored, rfl⟩
  · exact replicated
  · refine replicated.congr rfl rfl ?_
    intro height row found key
    obtain ⟨value, read⟩ := ledger.readable height row found key
    rw [read, functional.get_kept stored read]

/-- A database extended by a commit is replicated with one more chunk. -/
theorem Replicated.extended (free : P.CollisionFree) (functional : S.Functional [])
    (canonical : S.Canonical) {quiet : Nat → CommitEnv} (spared : ∀ height, Quiet (quiet height))
    {store : S.Store} {env : CommitEnv} {chunk : DirectoryChunk P} {db next : DirectoryDb S}
    (replicated : Replicated quiet store db) (ledger : db.Ledger)
    (extended : Extended env chunk db next) : Replicated quiet store next := by
  obtain ⟨mirror, ran, mirrors, sound⟩ := replicated
  obtain ⟨following, applied, nextMirrors, nextSound⟩ :=
    mirrors.applyChunk free functional canonical ledger sound (spared _) extended
  refine ⟨following, ?_, nextMirrors, nextSound⟩
  rw [extended.loadLastHeader]
  obtain ⟨_, _, inserted⟩ := extended.inserted
  obtain ⟨_, _, rfl⟩ := insertChunk_eq_some.mp inserted
  have below : ∀ height ∈ List.range (nextLink db.loadLastHeader).1,
      (db.chunks.insert (nextLink db.loadLastHeader).1 chunk).lookup height =
        db.chunks.lookup height := by
    intro height listed
    rw [Table.lookup_insert_eq, if_neg (by have := List.mem_range.mp listed; omega)]
  have same : applyChunks quiet _ _ _ _ = applyChunks quiet _ _ _ _ :=
    applyChunks_congr below P.zeroHash (fresh (P := P) store)
  have top : (db.chunks.insert (nextLink db.loadLastHeader).1 chunk).lookup
      (nextLink db.loadLastHeader).1 = some chunk := by rw [Table.lookup_insert_eq, if_pos rfl]
  simp only [nextLink] at top ⊢
  rw [List.range_succ]
  exact applyChunks_snoc (same.trans ran) top applied

end DirectoryDb

namespace Primary

/-- Every step of the primary keeps its database replicated. -/
theorem replicated_step (free : P.CollisionFree) (functional : S.Functional [])
    (canonical : S.Canonical) {quiet : Nat → CommitEnv}
    (spared : ∀ height, DirectoryDb.Quiet (quiet height)) {store : S.Store}
    {equixVerify : Bytes → Bytes → Bool} {state next : Primary S} {event : PrimaryEvent P}
    (holds : state.db.Ledger ∧ state.db.Replicated quiet store)
    (taken : (machine equixVerify).step state event = some next) :
    next.db.Ledger ∧ next.db.Replicated quiet store := by
  obtain ⟨ledger, replicated⟩ := holds
  refine ⟨ledger_step free functional ledger taken, ?_⟩
  rcases databases_step taken with ⟨headers, chunks, merkle⟩ | ⟨env, chunk, extended⟩ | nodesOnly
  · refine replicated.congr headers chunks ?_
    intro _ _ _ _
    rw [merkle]
  · exact replicated.extended free functional canonical spared ledger extended
  · exact replicated.nodesOnly functional ledger nodesOnly

/-- Every state of a primary has its mirror. -/
theorem replicated_always (free : P.CollisionFree) (functional : S.Functional [])
    (canonical : S.Canonical) {quiet : Nat → CommitEnv}
    (spared : ∀ height, DirectoryDb.Quiet (quiet height)) (equixVerify : Bytes → Bytes → Bool)
    (store other : S.Store) (events : List (PrimaryEvent P)) :
    (machine equixVerify).Always
      (fun state => state.db.Ledger ∧ state.db.Replicated quiet store) (fresh other) events :=
  Machine.always_of_step (replicated_step free functional canonical spared) events
    ⟨DirectoryDb.ledger_fresh other, DirectoryDb.replicated_fresh quiet store other⟩

/-- A chunk which stands stays. -/
theorem chunk_kept {equixVerify : Bytes → Bytes → Bool} {state final : Primary S}
    {events : List (PrimaryEvent P)} (reached : (machine equixVerify).exec state events = some final)
    {height : Nat} {chunk : DirectoryChunk P} (stands : state.db.chunks.lookup height = some chunk) :
    final.db.chunks.lookup height = some chunk := by
  induction events generalizing state with
  | nil =>
      cases reached
      exact stands
  | cons event rest ih =>
      rw [Machine.exec_cons] at reached
      obtain ⟨next, taken, remaining⟩ := Option.bind_eq_some_iff.mp reached
      refine ih remaining ?_
      rcases databases_step taken with ⟨_, chunks, _⟩ | ⟨env, other, extended⟩ | nodesOnly
      · rw [chunks]
        exact stands
      · obtain ⟨_, _, inserted⟩ := extended.inserted
        obtain ⟨_, new, same⟩ := DirectoryDb.insertChunk_eq_some.mp inserted
        rw [same, Table.lookup_insert_eq, if_neg, stands]
        rintro rfl
        exact new (AList.lookup_isSome.mp (by rw [stands]; rfl))
      · rcases nodesOnly with same | ⟨_, _, _, _, same⟩ <;> rw [same] <;> exact stands

end Primary

namespace DirectoryDb.Mirrors

variable {primary mirror : DirectoryDb S}

/-- A mirror answers for headers as its primary does. -/
theorem v1GetHeaders (mirrors : Mirrors primary mirror) (dbFails : Bool) (first last : UInt64) :
    Nullspace.v1GetHeaders dbFails mirror first last =
      Nullspace.v1GetHeaders dbFails primary first last := by
  simp only [Nullspace.v1GetHeaders, loadHeaders, mirrors.headers,
    Table.sortedKeys_congr mirrors.headers]

/-- A mirror answers for chunks as its primary does. -/
theorem v1GetChunk (mirrors : Mirrors primary mirror) (dbFails : Bool) (height : Nat) :
    Nullspace.v1GetChunk dbFails mirror height = Nullspace.v1GetChunk dbFails primary height := by
  simp only [Nullspace.v1GetChunk, mirrors.chunks]

/-- A mirror proves the same items. -/
theorem v1GetItem (canonical : S.Canonical) (mirrors : Mirrors primary mirror)
    (compress : S.Proof → Bytes) (dbFails : Bool) (key : String) :
    Nullspace.v1GetItem compress dbFails mirror key =
      Nullspace.v1GetItem compress dbFails primary key := by
  simp only [Nullspace.v1GetItem, mirrors.loadLastHeader]
  cases last : primary.loadLastHeader with
  | none => rfl
  | some pair =>
      obtain ⟨height, header⟩ := pair
      obtain ⟨row, found, rfl⟩ := exists_row_of_last last
      have proofs := canonical.proof (mirrors.trees height row found) (keyHash key)
      have histories := mirrors.loadHistory found key
      simp only [historyAt] at histories
      simp only [buildHistoryAndProof, proofs, histories]

end DirectoryDb.Mirrors

/-- At any moment of a run of the primary, with its head at a height: a mirror which starts
empty and applies the chunks up to there, as the primary returned them at any moments of the
run, accepts all of them, and answers every query as the primary does. -/
theorem mirror_refines (free : P.CollisionFree) (functional : S.Functional [])
    (canonical : S.Canonical) (compress : S.Proof → Bytes) {equixVerify : Bytes → Bytes → Bool}
    {primaryStore : S.Store} (mirrorStore : S.Store) {env : Nat → CommitEnv}
    (quiet : ∀ height, DirectoryDb.Quiet (env height)) {events before : List (PrimaryEvent P)}
    (position : before <+: events) {primary : Primary S}
    (reached : (Primary.machine equixVerify).exec (.fresh primaryStore) before = some primary)
    {height : Nat} {header : DirectoryHeader P}
    (head : primary.db.loadLastHeader = some (height, header))
    {chunkAt : Nat → Option (DirectoryChunk P)}
    (served : ∀ lower ≤ height, ∃ chunk, chunkAt lower = some chunk ∧ ∃ moment, moment <+: events ∧
      ∃ state, (Primary.machine equixVerify).exec (.fresh primaryStore) moment = some state ∧
        v1GetChunk false state.db lower = .ok chunk) :
    ∃ mirror, applyChunks env chunkAt P.zeroHash (.fresh mirrorStore) (List.range (height + 1)) =
        (mirror, .ok header.hash) ∧
      mirror.loadLastHeader = some (height, header) ∧
      (∀ dbFails first last, v1GetHeaders dbFails mirror first last =
        v1GetHeaders dbFails primary.db first last) ∧
      (∀ dbFails lower, v1GetChunk dbFails mirror lower = v1GetChunk dbFails primary.db lower) ∧
      ∀ dbFails key, v1GetItem compress dbFails mirror key =
        v1GetItem compress dbFails primary.db key := by
  obtain ⟨ledger, mirror, ran, mirrors, _⟩ :=
    Primary.replicated_always free functional canonical quiet equixVerify mirrorStore primaryStore
      events before position primary reached
  have chunks : ∀ lower ∈ List.range (height + 1),
      chunkAt lower = primary.db.chunks.lookup lower := by
    intro lower listed
    obtain ⟨chunk, fetched, moment, within, state, there, answered⟩ :=
      served lower (by have := List.mem_range.mp listed; omega)
    have stands : state.db.chunks.lookup lower = some chunk := by
      simp only [v1GetChunk, Bool.false_eq_true, if_false] at answered
      split at answered
      · cases answered
      · rename_i found
        cases answered
        exact found
    rw [fetched]
    rcases List.prefix_or_prefix_of_prefix within position with ⟨rest, rfl⟩ | ⟨rest, rfl⟩
    · rw [Machine.exec_append, there] at reached
      exact (Primary.chunk_kept reached stands).symm
    · rw [Machine.exec_append, reached] at there
      have present : lower ∈ primary.db.headers := by
        rw [ledger.heights, head]
        exact List.mem_range.mp listed
      obtain ⟨row, found⟩ := Option.isSome_iff_exists.mp (AList.lookup_isSome.mpr present)
      obtain ⟨updates, own⟩ := ledger.chunk lower row found
      rw [own, ← stands, Primary.chunk_kept there own]
  rw [head] at ran
  refine ⟨mirror, (applyChunks_congr chunks _ _).trans ran, mirrors.loadLastHeader.trans head,
    mirrors.v1GetHeaders, mirrors.v1GetChunk, mirrors.v1GetItem canonical compress⟩

/-- The primary commits an empty chunk, accepts the first update of a name, and commits it. -/
def twoChunkRun : List (PrimaryEvent symbolic) :=
  Primary.acceptedRun ++ [.commitTake, .commitFinish Primary.quietCommit]

theorem mirror_refines_twoChunkRun : ∃ (primary : Primary sortedSmt)
    (header : DirectoryHeader symbolic) (mirror : DirectoryDb sortedSmt),
    (Primary.machine fun _ _ => true).exec (.fresh ()) twoChunkRun = some primary ∧
      primary.db.loadLastHeader = some (1, header) ∧
      applyChunks (fun _ => Primary.quietCommit) (fun height => primary.db.chunks.lookup height)
          symbolic.zeroHash (.fresh ()) (List.range 2) = (mirror, .ok header.hash) ∧
      mirror.loadLastHeader = some (1, header) ∧
      v1GetItem (fun _ => []) false mirror "@alice" =
        v1GetItem (fun _ => []) false primary.db "@alice" := by
  have ends : ((Primary.machine fun _ _ => true).exec (.fresh (S := sortedSmt) ())
      twoChunkRun).map (fun state => (state.db.loadLastHeader.map Prod.fst,
        (List.range 2).map fun height => (state.db.chunks.lookup height).isSome)) =
      some (some 1, [true, true]) := by decide +kernel
  obtain ⟨primary, reached, read⟩ := Option.map_eq_some_iff.mp ends
  simp only [Prod.mk.injEq] at read
  obtain ⟨⟨height, header⟩, head, rfl⟩ := Option.map_eq_some_iff.mp read.1
  have served : ∀ lower ≤ 1, ∃ chunk, primary.db.chunks.lookup lower = some chunk ∧
      ∃ moment, moment <+: twoChunkRun ∧ ∃ state,
        (Primary.machine fun _ _ => true).exec (.fresh (S := sortedSmt) ()) moment = some state ∧
          v1GetChunk false state.db lower = .ok chunk := by
    intro lower below
    have present : (primary.db.chunks.lookup lower).isSome = true := by
      have listed := read.2
      simp only [List.range_succ, List.range_zero, List.map_nil, List.map_cons, List.nil_append,
        List.singleton_append, List.cons.injEq, and_true] at listed
      obtain rfl | rfl : lower = 0 ∨ lower = 1 := by omega
      · exact listed.1
      · exact listed.2
    obtain ⟨chunk, stands⟩ := Option.isSome_iff_exists.mp present
    refine ⟨chunk, stands, _, List.prefix_refl _, primary, reached, ?_⟩
    simp only [v1GetChunk, stands, Bool.false_eq_true, if_false]
  have quiet : ∀ _ : Nat, DirectoryDb.Quiet Primary.quietCommit := fun _ _ => rfl
  obtain ⟨mirror, ran, same, _, _, items⟩ :=
    mirror_refines symbolic_collisionFree sortedSmt_functional sortedSmt_canonical (fun _ => [])
      () quiet (List.prefix_refl _) reached head served
  exact ⟨primary, header, mirror, reached, head, ran, same, items false "@alice"⟩

end Nullspace
