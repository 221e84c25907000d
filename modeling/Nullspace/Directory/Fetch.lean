import Nullspace.Directory.Replica
import Nullspace.Rpc.Message
import Nullspace.Structs.Text

/-!
# Chunks as messages

A chunk holds everything which was staged in one interval. A mirror reads it through a
transport, as one message. `followed_iff_commitFits` says when mirrors can follow a
primary for ever: exactly when every commit writes a chunk which fits into a message.
-/

namespace Nullspace

open Nullspace.Base Nullspace.Base.Json

variable {P : Primitives} {S : Smt P}

/-- `applyChunks` over a list in two parts. -/
theorem applyChunks_append (env : Nat → CommitEnv) (chunkAt : Nat → Option (DirectoryChunk P))
    (lastHash : P.Hash) (db : DirectoryDb S) (first second : List Nat) :
    applyChunks env chunkAt lastHash db (first ++ second) =
      match applyChunks env chunkAt lastHash db first with
      | (db, .error err) => (db, .error err)
      | (db, .ok hash) => applyChunks env chunkAt hash db second := by
  induction first generalizing lastHash db with
  | nil => rfl
  | cons height rest ih =>
      rw [List.cons_append, applyChunks, applyChunks]
      cases chunkAt height with
      | none => rfl
      | some chunk =>
          dsimp only
          rcases applyChunk (env height) height chunk db with ⟨next, err | _⟩
          · rfl
          · exact ih chunk.header.hash next

/-- Chunks which are applied in order become the head. -/
theorem nextLink_applyChunks {env : Nat → CommitEnv} {chunkAt : Nat → Option (DirectoryChunk P)}
    {lastHash hash : P.Hash} {db next : DirectoryDb S} {first count : Nat}
    (head : nextLink db.loadLastHeader = (first, lastHash))
    (applied : applyChunks env chunkAt lastHash db (List.range' first count) = (next, .ok hash)) :
    nextLink next.loadLastHeader = (first + count, hash) := by
  induction count generalizing first lastHash db with
  | zero =>
      cases applied
      exact head
  | succ count ih =>
      rw [List.range'_succ, applyChunks] at applied
      split at applied
      · cases applied
      · rename_i chunk fetched
        split at applied
        · cases applied
        · rename_i middle ran
          obtain ⟨_, prev, merkle, treed, _, inserted⟩ := applyChunk_ok.mp ran
          have extended : DirectoryDb.Extended (env first) chunk db middle :=
            ⟨prev, merkle, treed, (applyChunk_ok.mp ran).1 ▸ inserted⟩
          have last : nextLink middle.loadLastHeader = (first + 1, chunk.header.hash) := by
            rw [extended.loadLastHeader, head]
            rfl
          rw [ih last applied]
          exact congrArg (·, hash) (by omega)

namespace DirectoryDb

/-- What a mirror gets when it asks for a chunk. -/
def fetchChunk (envelope : Envelope) (raw : RawBytes P) (db : DirectoryDb S) (height : Nat) :
    Option (DirectoryChunk P) :=
  match v1GetChunk false db height with
  | .error _ => none
  | .ok chunk => if Fits (envelope.response (chunk.json raw)) then some chunk else none

/-- Every chunk fits into a message. -/
def Fetchable (envelope : Envelope) (raw : RawBytes P) (db : DirectoryDb S) : Prop :=
  ∀ height chunk, v1GetChunk false db height = .ok chunk →
    Fits (envelope.response (chunk.json raw))

/-- The anchor names the head. -/
def NamesHead (db : DirectoryDb S) (anchor : DirectoryAnchor P) : Prop :=
  ∃ header, db.loadLastHeader = some (anchor.lastHeaderHeight, header) ∧
    header.hash = anchor.lastHeaderHash

/-- Wherever the calls of a mirror have brought it, the next `sync_once` brings it to the head. -/
def Followed (envelope : Envelope) (raw : RawBytes P) (db : DirectoryDb S) : Prop :=
  ∀ (env : Nat → CommitEnv) (store : S.Store), (∀ height, Quiet (env height)) →
    ∀ count ≤ (nextLink db.loadLastHeader).1, ∃ reached hash,
      applyChunks env (fun height => db.chunks.lookup height) P.zeroHash (fresh store)
        (List.range count) = (reached, .ok hash) ∧
      ∀ anchor known, NamesHead db anchor → ∃ mirror,
        syncOnce false env (some anchor) (db.fetchChunk envelope raw) ⟨reached, known⟩ =
          (mirror, .ok ()) ∧
        mirror.anchor = some anchor ∧ mirror.db.loadLastHeader = db.loadLastHeader

/-- A chunk is served when the database has it. -/
theorem v1GetChunk_eq_ok {db : DirectoryDb S} {height : Nat} {chunk : DirectoryChunk P} :
    v1GetChunk false db height = .ok chunk ↔ db.chunks.lookup height = some chunk := by
  simp only [v1GetChunk, Bool.false_eq_true, if_false]
  cases db.chunks.lookup height <;> simp

/-- Where every chunk fits, a mirror gets what stands in the table. -/
theorem Fetchable.fetchChunk {envelope : Envelope} {raw : RawBytes P} {db : DirectoryDb S}
    (fetchable : Fetchable envelope raw db) (height : Nat) :
    db.fetchChunk envelope raw height = db.chunks.lookup height := by
  rw [DirectoryDb.fetchChunk]
  cases found : db.chunks.lookup height with
  | none => simp only [v1GetChunk, found, Bool.false_eq_true, if_false]
  | some chunk =>
      have answered := v1GetChunk_eq_ok.mpr found
      rw [answered]
      dsimp only
      rw [if_pos (fetchable height chunk answered)]

/-- Every mirror which starts empty can apply the chunks of the database. -/
def Replicable (db : DirectoryDb S) : Prop :=
  ∀ (env : Nat → CommitEnv) (store : S.Store), (∀ height, Quiet (env height)) →
    Replicated env store db

/-- Mirrors which get every chunk reach the head. -/
theorem Fetchable.followed {envelope : Envelope} {raw : RawBytes P} {db : DirectoryDb S}
    (fetchable : Fetchable envelope raw db) (replicable : Replicable db) :
    Followed envelope raw db := by
  intro env store quiet count within
  obtain ⟨whole, ran, mirrors, _⟩ := replicable env store quiet
  have split : List.range (nextLink db.loadLastHeader).1 =
      List.range count ++ List.range' count ((nextLink db.loadLastHeader).1 - count) := by
    have joined := List.range'_append_1 (s := 0) (m := count)
      (n := (nextLink db.loadLastHeader).1 - count)
    rw [Nat.zero_add, Nat.add_sub_of_le within] at joined
    rw [List.range_eq_range', List.range_eq_range', joined]
  rw [split, applyChunks_append] at ran
  rcases part : applyChunks env (fun height => db.chunks.lookup height) P.zeroHash (fresh store)
    (List.range count) with ⟨reached, err | hash⟩
  · rw [part] at ran
    cases ran
  · rw [part] at ran
    dsimp only at ran
    refine ⟨reached, hash, rfl, ?_⟩
    rintro anchor known ⟨header, head, named⟩
    have start : nextLink (fresh (P := P) store).loadLastHeader = (0, P.zeroHash) := rfl
    have at_ : nextLink reached.loadLastHeader = (count, hash) := by
      rw [List.range_eq_range'] at part
      rw [nextLink_applyChunks start part, Nat.zero_add]
    have top : nextLink db.loadLastHeader = (anchor.lastHeaderHeight + 1, header.hash) := by
      rw [head, nextLink]
    rw [top] at ran within
    have same : (db.fetchChunk envelope raw) = fun height => db.chunks.lookup height :=
      funext fetchable.fetchChunk
    simp only [syncOnce, Bool.false_eq_true, if_false, at_, missingHeights, same]
    rw [if_neg (by dsimp only at within; omega)]
    by_cases done : count = anchor.lastHeaderHeight + 1
    · rw [done, Nat.sub_self] at ran
      cases ran
      rw [if_pos done, if_neg (not_not.mpr named)]
      exact ⟨_, rfl, rfl, mirrors.loadLastHeader⟩
    · rw [if_neg done, ran]
      dsimp only
      rw [if_pos named]
      exact ⟨_, rfl, rfl, mirrors.loadLastHeader⟩

end DirectoryDb

namespace Primary

/-- A commit which writes a chunk writes one which fits into a message. -/
def CommitFits (envelope : Envelope) (raw : RawBytes P) (state : Primary S) :
    PrimaryEvent P → Prop
  | .commitFinish env => ∀ updates merkle root, state.committing = some updates →
      commitTree env updates state.db = .ok (merkle, root) → env.faults .insertChunk = false →
        DirectoryChunk.jsonSize raw ⟨nextHeader env state.db root, updates⟩ + envelope.overhead ≤
          maxMessageBytes
  | _ => True

/-- Only the end of a commit touches the chunks. -/
theorem chunks_step {equixVerify : Bytes → Bytes → Bool} {state next : Primary S}
    {event : PrimaryEvent P} (noFinish : ∀ env, event ≠ .commitFinish env)
    (taken : (machine equixVerify).step state event = some next) :
    next.db.chunks = state.db.chunks := by
  by_cases take : event = .commitTake
  · subst take
    simp only [machine] at taken
    split at taken
    · cases taken
    · cases taken
      rfl
  · exact (meanwhile_step take noFinish taken).tables.2.1

/-- An answer fits when the chunk and its envelope do. -/
theorem fits_iff (envelope : Envelope) (raw : RawBytes P) (chunk : DirectoryChunk P) :
    Fits (envelope.response (chunk.json raw)) ↔
      chunk.jsonSize raw + envelope.overhead ≤ maxMessageBytes := by
  rw [Fits, envelope.size_response, DirectoryChunk.size_json]

/-- The end of a commit keeps every chunk readable exactly when what it writes fits. -/
theorem fetchable_commit {envelope : Envelope} {raw : RawBytes P} {env : CommitEnv}
    {updates : Staging P} {db : DirectoryDb S} (ledger : db.Ledger)
    (fetchable : db.Fetchable envelope raw) :
    (commitChunk env updates db).1.Fetchable envelope raw ↔
      ∀ merkle root, commitTree env updates db = .ok (merkle, root) →
        env.faults .insertChunk = false →
          DirectoryChunk.jsonSize raw ⟨nextHeader env db root, updates⟩ + envelope.overhead ≤
            maxMessageBytes := by
  have new : (nextLink db.loadLastHeader).1 ∉ db.headers := by
    rw [ledger.heights]
    exact lt_irrefl _
  have newChunk : (nextLink db.loadLastHeader).1 ∉ db.chunks := fun listed =>
    new (ledger.sound.chunked _ listed)
  rcases outcome : commitChunk env updates db with ⟨next, err | _⟩
  · refine iff_of_true ?_ ?_
    · intro height chunk answered
      refine fetchable height chunk ?_
      rcases commitChunk_error outcome with rfl | ⟨_, merkle, _, _, rfl⟩ <;> exact answered
    · intro merkle root treed spared
      have inserted : ∃ next, DirectoryDb.insertChunk { db with merkle := merkle }
          (nextLink db.loadLastHeader).1 (nextHeader env db root) (nextHeader env db root).hash
          ⟨nextHeader env db root, updates⟩ = some next :=
        ⟨_, DirectoryDb.insertChunk_eq_some.mpr ⟨new, newChunk, rfl⟩⟩
      obtain ⟨next', inserted⟩ := inserted
      rw [commitChunk_ok.mpr ⟨merkle, root, treed, spared, inserted⟩] at outcome
      cases outcome
  · obtain ⟨merkle, root, treed, spared, inserted⟩ := commitChunk_ok.mp outcome
    obtain ⟨_, _, rfl⟩ := DirectoryDb.insertChunk_eq_some.mp inserted
    constructor
    · intro readable merkle' root' treed' _
      rw [treed] at treed'
      cases treed'
      rw [← fits_iff]
      refine readable (nextLink db.loadLastHeader).1 _ (DirectoryDb.v1GetChunk_eq_ok.mpr ?_)
      rw [Table.lookup_insert_eq, if_pos rfl]
    · intro small height chunk answered
      have found := DirectoryDb.v1GetChunk_eq_ok.mp answered
      rcases Table.lookup_insert_cases found with ⟨_, same⟩ | found
      · cases same
        exact (fits_iff envelope raw _).mpr (small merkle root treed spared)
      · exact fetchable height chunk (DirectoryDb.v1GetChunk_eq_ok.mpr found)

/-- A step leaves all chunks fetchable exactly when the chunk which it commits fits. -/
theorem fetchable_step {equixVerify : Bytes → Bytes → Bool} {envelope : Envelope}
    {raw : RawBytes P} {state next : Primary S} {event : PrimaryEvent P}
    (ledger : state.db.Ledger) (fetchable : state.db.Fetchable envelope raw)
    (taken : (machine equixVerify).step state event = some next) :
    next.db.Fetchable envelope raw ↔ state.CommitFits envelope raw event := by
  by_cases finish : ∃ env, event = .commitFinish env
  · obtain ⟨env, rfl⟩ := finish
    simp only [machine] at taken
    split at taken
    · cases taken
    · rename_i updates running
      cases taken
      rw [fetchable_commit ledger fetchable]
      constructor
      · intro small other merkle root same
        rw [running] at same
        cases same
        exact small merkle root
      · intro small merkle root
        exact small updates merkle root running
  · have chunks := chunks_step (fun env same => finish ⟨env, same⟩) taken
    refine iff_of_true ?_ ?_
    · intro height chunk answered
      rw [DirectoryDb.v1GetChunk_eq_ok, chunks, ← DirectoryDb.v1GetChunk_eq_ok] at answered
      exact fetchable height chunk answered
    · cases event <;> first | trivial | exact absurd ⟨_, rfl⟩ finish

/-- In a run of the primary, mirrors can read every chunk and always reach the head exactly when
every commit writes a chunk which fits into a message. -/
theorem followed_iff_commitFits (free : P.CollisionFree) (functional : S.Functional [])
    (canonical : S.Canonical) (equixVerify : Bytes → Bytes → Bool) (envelope : Envelope)
    (raw : RawBytes P) (store : S.Store) (events : List (PrimaryEvent P)) :
    (machine equixVerify).Always
        (fun state => state.db.Fetchable envelope raw ∧ state.db.Followed envelope raw)
        (fresh store) events ↔
      (machine equixVerify).Along (CommitFits envelope raw) (fresh store) events := by
  have fetchable : (machine equixVerify).Always (fun state => state.db.Fetchable envelope raw)
      (fresh store) events ↔
        (machine equixVerify).Along (CommitFits envelope raw) (fresh store) events :=
    Machine.always_iff_along_within (fun state => state.db.Ledger)
      (fun ledger taken => ledger_step free functional ledger taken)
      (fun ledger readable taken => fetchable_step ledger readable taken)
      (DirectoryDb.ledger_fresh store) fun height chunk answered => by
        rw [DirectoryDb.v1GetChunk_eq_ok] at answered
        cases answered
  rw [← fetchable]
  constructor
  · intro always before position state reached
    exact (always before position state reached).1
  · intro always before position state reached
    have readable := always before position state reached
    refine ⟨readable, readable.followed ?_⟩
    intro env mirrorStore quiet
    exact (replicated_always free functional canonical quiet equixVerify mirrorStore store events
      before position state reached).2

/-- Nothing limits the name under which an update is staged. -/
def longKeyRun (key : String) : List (PrimaryEvent symbolic) :=
  [.getPowSeed [9] 0 true true, .commitTake, .commitFinish quietCommit,
    .insertRead 0 quietInsert key (firstUpdate 1) zeroSolution, .insertPush 0,
    .commitTake, .commitFinish quietCommit]

/-- The run commits one update under the given key. -/
theorem updates_longKeyRun (key : String) :
    ((machine fun _ _ => true).exec (fresh (S := sortedSmt) ()) (longKeyRun key)).map
      (fun state => (state.db.chunks.lookup 1).map fun chunk => chunk.updates.rows) =
        some (some [(key, [firstUpdate 1])]) := by
  rfl

/-- There are keys of any length. -/
theorem exists_longKey (length : Nat) : ∃ key, escapedLength key = length := by
  refine ⟨String.ofList (List.replicate length 'a'), ?_⟩
  have letter : escapedSize 'a' = 1 := by decide
  rw [escapedLength, String.toList_ofList, List.map_replicate, letter, List.sum_replicate_nat,
    Nat.mul_one]

/-- Keys and signatures as the symbolic primitives have them. -/
def symbolicBytes : RawBytes symbolic := ⟨fun key => [key], fun signature => signature⟩

theorem followed_iff_commitFits_longKeyRun :
    (machine fun _ _ => true).Always (fun state => state.db.Fetchable (jsonRpc "1") symbolicBytes ∧
        state.db.Followed (jsonRpc "1") symbolicBytes)
        (fresh (S := sortedSmt) ()) (longKeyRun "@alice") ↔
      (machine fun _ _ => true).Along (CommitFits (jsonRpc "1") symbolicBytes)
        (fresh (S := sortedSmt) ()) (longKeyRun "@alice") :=
  followed_iff_commitFits symbolic_collisionFree sortedSmt_functional sortedSmt_canonical _ _ _ _ _

/-- A long key makes a chunk which nobody can fetch. -/
theorem longKeyRun_breaks : ¬∀ (envelope : Envelope) (raw : RawBytes symbolic)
    (events : List (PrimaryEvent symbolic)),
    (machine fun _ _ => true).Always (fun state => state.db.Fetchable envelope raw)
      (fresh (S := sortedSmt) ()) events := by
  intro property
  obtain ⟨key, length⟩ := exists_longKey 1100000
  have always := property (jsonRpc "1") symbolicBytes (longKeyRun key)
  obtain ⟨state, reached, found⟩ := Option.map_eq_some_iff.mp (updates_longKeyRun key)
  obtain ⟨chunk, stands, rows⟩ := Option.map_eq_some_iff.mp found
  have fits := always.last reached 1 chunk (DirectoryDb.v1GetChunk_eq_ok.mpr stands)
  rw [fits_iff, DirectoryChunk.jsonSize, rows, List.map_singleton, List.sum_singleton,
    DirectoryChunk.rowSize, length, maxMessageBytes] at fits
  omega

end Primary
end Nullspace
