import Mathlib.Data.List.Sort
import Nullspace.Directory.Db

/-!
# The primary directory server

`v1_insert_update` reads without a lock and pushes under the staging lock, so it is two
functions here, `insertRead` and `insertPush`. `commitChunk` is what follows the
`mem::take` of the staging map. Every call of the database or of a tree may fail: the
environment of an operation says at which points it does.
-/

namespace Nullspace

open Nullspace.Base

variable {P : Primitives} {S : Smt P}

/-- `Solution::NUM_BYTES` of the `equix` crate. -/
def solutionNumBytes : Nat := 16

/-- A big-endian number. -/
def beValue (bytes : Bytes) : Nat := Bcs.leValue bytes.reverse

/-- `pow::validate_solution`; `equixVerify` is the check of the `equix` crate, of a
solution against a challenge. -/
def validateSolution (equixVerify : Bytes → Bytes → Bool) (seed : P.Hash) (effort : UInt64)
    (solution : PowSolution P) : Except DirectoryErr Unit :=
  if seed ≠ solution.seed then .error (.updateRejected "seed mismatch")
  else
    let nonce := (Bcs.toBytes solution.nonce).reverse
    let challenge := P.keyedDigest (P.hashBytes solution.seed) nonce
    if solution.solution.length ≠ solutionNumBytes then
      .error (.updateRejected "invalid solution length")
    else if !equixVerify (P.hashBytes challenge) solution.solution then
      .error (.updateRejected "invalid equix solution")
    else
      let value := beValue ((P.hashBytes (P.digest solution.solution)).take 8)
      if value * effort.toNat < 2 ^ 64 then .ok ()
      else .error (.updateRejected "insufficient effort")

/-- `POW_EFFORT` and `SEED_TTL_SECS`. -/
def powEffort : UInt64 := 1000

def seedTtlSecs : UInt64 := 120

/-- `v1_get_pow_seed`: a failure of either statement is logged and otherwise ignored. -/
def v1GetPowSeed (db : DirectoryDb S) (seed : P.Hash) (now : Timestamp) (inserted purged : Bool) :
    DirectoryDb S :=
  let db := if inserted then db.insertPowSeed seed ⟨now + seedTtlSecs, powEffort⟩ else db
  if purged then db.purgePowSeeds now else db

/-- Handing out a seed leaves the chain and the store as they are. -/
theorem v1GetPowSeed_keeps (db : DirectoryDb S) (seed : P.Hash) (now : Timestamp)
    (inserted purged : Bool) :
    (v1GetPowSeed db seed now inserted purged).headers = db.headers ∧
      (v1GetPowSeed db seed now inserted purged).chunks = db.chunks ∧
        (v1GetPowSeed db seed now inserted purged).merkle = db.merkle := by
  cases inserted <;> cases purged <;> exact ⟨rfl, rfl, rfl⟩

/-- The points at which the first half of `v1_insert_update` may fail. -/
inductive InsertPoint where
  | purgeSeeds
  | fetchSeed
  | lastHeader
  | history
deriving DecidableEq

/-- The clock and the failures that one call meets. -/
structure InsertEnv where
  now : Timestamp
  faults : InsertPoint → Bool

/-- The proof of work has to answer a seed issued here and still usable. -/
def checkSolution (equixVerify : Bytes → Bytes → Bool) (env : InsertEnv) (db : DirectoryDb S)
    (solution : PowSolution P) : Except DirectoryErr Unit :=
  if env.faults .fetchSeed then .error .retryLater
  else
    match db.powSeeds.lookup solution.seed with
    | none => .error (.updateRejected "unknown pow seed")
    | some row =>
        if row.useBefore ≤ env.now then .error (.updateRejected "pow seed expired")
        else validateSolution equixVerify solution.seed row.effort solution

/-- The key's history at the last header. -/
def readHistory (env : InsertEnv) (db : DirectoryDb S) (key : String) :
    Except DirectoryErr (List (DirectoryUpdate P)) :=
  if env.faults .lastHeader then .error .retryLater
  else
    match db.loadLastHeader with
    | none => .error .retryLater
    | some (_, header) =>
        if env.faults .history then .error .retryLater
        else DirectoryDb.loadHistory db.merkle header.smtRoot key

/-- `v1_insert_update` up to the staging lock. -/
def insertRead (equixVerify : Bytes → Bytes → Bool) (env : InsertEnv) (db : DirectoryDb S)
    (key : String) (solution : PowSolution P) :
    DirectoryDb S × Except DirectoryErr (List (DirectoryUpdate P)) :=
  if env.faults .purgeSeeds then (db, .error .retryLater)
  else
    let purged := db.purgePowSeeds env.now
    match checkSolution equixVerify env purged solution with
    | .error err => (purged, .error err)
    | .ok () => (purged, readHistory env purged key)

/-- `v1_insert_update` under the staging lock, with the history it read before. -/
def insertPush (staging : Staging P) (key : String) (history : List (DirectoryUpdate P))
    (update : DirectoryUpdate P) : Except DirectoryErr (Staging P) :=
  match verifyHistory (history ++ Staging.pending staging key ++ [update]) with
  | .error err => .error (.updateRejected err.message)
  | .ok () => .ok (Staging.push staging key update)

/-- The first half of an insertion leaves the chain and the store as they are. -/
theorem insertRead_keeps (equixVerify : Bytes → Bytes → Bool) (env : InsertEnv)
    (db : DirectoryDb S) (key : String) (solution : PowSolution P) :
    (insertRead equixVerify env db key solution).1.headers = db.headers ∧
      (insertRead equixVerify env db key solution).1.chunks = db.chunks ∧
        (insertRead equixVerify env db key solution).1.merkle = db.merkle := by
  rw [insertRead]
  split
  · exact ⟨rfl, rfl, rfl⟩
  · dsimp only
    split <;> exact ⟨rfl, rfl, rfl⟩

/-- A history which the first half hands on is the committed one at that moment. -/
theorem committed_of_insertRead {equixVerify : Bytes → Bytes → Bool} {env : InsertEnv}
    {db next : DirectoryDb S} {key : String} {solution : PowSolution P}
    {history : List (DirectoryUpdate P)}
    (read : insertRead equixVerify env db key solution = (next, .ok history)) :
    db.committed key = .ok history := by
  have reading : readHistory env (db.purgePowSeeds env.now) key = .ok history := by
    rw [insertRead] at read
    split at read
    · simp at read
    · dsimp only at read
      split at read
      · simp at read
      · exact (Prod.mk.inj read).2
  rw [readHistory] at reading
  split at reading
  · simp at reading
  · split at reading
    · simp at reading
    · rename_i height header last
      split at reading
      · simp at reading
      · have lastHere : db.loadLastHeader = some (height, header) := last
        simp only [DirectoryDb.committed, DirectoryDb.historyBefore, lastHere]
        exact reading

/-- An update is pushed when it continues the history and the pending updates. -/
theorem insertPush_eq_ok {staging next : Staging P} {key : String}
    {history : List (DirectoryUpdate P)} {update : DirectoryUpdate P} :
    insertPush staging key history update = .ok next ↔
      ValidHistory (history ++ Staging.pending staging key ++ [update]) ∧
        next = Staging.push staging key update := by
  rw [insertPush, ValidHistory]
  cases verifyHistory (history ++ Staging.pending staging key ++ [update]) with
  | error err => simp
  | ok value => simp [eq_comm]

/-- The points at which `commit_chunk` may fail for a reason outside the program. -/
inductive CommitPoint where
  | lastHeader
  /-- Loading a history to check it. -/
  | checkedHistory (key : String)
  /-- Loading a history to write it. -/
  | writtenHistory (key : String)
  | treeUpdate (key : String)
  | treeCommit
  | insertChunk
deriving DecidableEq

/-- The clock and the failures that one commit meets. -/
structure CommitEnv where
  now : Timestamp
  faults : CommitPoint → Bool

inductive CommitError where
  | database
  | tree
  | history (err : DirectoryErr)
  | verification (err : DirectoryHistoryError)
deriving DecidableEq

/-- The history a key's updates are put behind. -/
def loadBefore (faulty : Bool) (store : S.Store) (last : Option (Nat × DirectoryHeader P))
    (key : String) : Except CommitError (List (DirectoryUpdate P)) :=
  if faulty && last.isSome then .error (.history .retryLater)
  else
    match DirectoryDb.historyBefore store last key with
    | .error err => .error (.history err)
    | .ok history => .ok history

/-- The loop of `commit_chunk` which checks every extended history. -/
def verifyBatch (env : CommitEnv) (store : S.Store) (last : Option (Nat × DirectoryHeader P)) :
    List (String × List (DirectoryUpdate P)) → Except CommitError Unit
  | [] => .ok ()
  | (key, list) :: rest =>
      match loadBefore (env.faults (.checkedHistory key)) store last key with
      | .error err => .error err
      | .ok history =>
          match verifyHistory (history ++ list) with
          | .error err => .error (.verification err)
          | .ok () => verifyBatch env store last rest

/-- The loop of `commit_chunk` which writes every extended history. -/
def writeBatch (env : CommitEnv) (store : S.Store) (last : Option (Nat × DirectoryHeader P))
    (tree : S.Tree) : List (String × List (DirectoryUpdate P)) → Except CommitError S.Tree
  | [] => .ok tree
  | (key, list) :: rest =>
      match loadBefore (env.faults (.writtenHistory key)) store last key with
      | .error err => .error err
      | .ok history =>
          if env.faults (.treeUpdate key) then .error .tree
          else
            match S.write tree (DirectoryDb.keyHash key) (Bcs.toBytes (history ++ list)) with
            | none => .error .tree
            | some next => writeBatch env store last next rest

/-- The tree which the batch is written to. -/
def startTree (store : S.Store) : Option (Nat × DirectoryHeader P) → S.Tree
  | none => S.empty store
  | some (_, header) => S.openTree store header.smtRoot

/-- The height of the next header, and the hash it has to name. -/
def nextLink : Option (Nat × DirectoryHeader P) → Nat × P.Hash
  | none => (0, P.zeroHash)
  | some (height, header) => (height + 1, header.hash)

/-- `commit_chunk` up to the committed tree: check the batch, then write it. -/
def commitTree (env : CommitEnv) (updates : Staging P) (db : DirectoryDb S) :
    Except CommitError (S.Store × P.Hash) :=
  if env.faults .lastHeader then .error .database
  else
    let last := db.loadLastHeader
    match verifyBatch env db.merkle last updates.rows with
    | .error err => .error err
    | .ok () =>
        match writeBatch env db.merkle last (startTree db.merkle last) updates.rows with
        | .error err => .error err
        | .ok tree =>
            if env.faults .treeCommit then .error .tree
            else
              match S.commit db.merkle tree with
              | none => .error .tree
              | some committed => .ok committed

/-- The header which a commit writes over a tree of the given root. -/
def nextHeader (env : CommitEnv) (db : DirectoryDb S) (root : P.Hash) : DirectoryHeader P :=
  ⟨(nextLink db.loadLastHeader).2, root, env.now⟩

/-- `commit_chunk` from the updates it took out of the staging map. -/
def commitChunk (env : CommitEnv) (updates : Staging P) (db : DirectoryDb S) :
    DirectoryDb S × Except CommitError Unit :=
  match commitTree env updates db with
  | .error err => (db, .error err)
  | .ok (merkle, root) =>
      let written := { db with merkle := merkle }
      let header := nextHeader env db root
      if env.faults .insertChunk then (written, .error .database)
      else
        match written.insertChunk (nextLink db.loadLastHeader).1 header header.hash
            ⟨header, updates⟩ with
        | none => (written, .error .database)
        | some next => (next, .ok ())

/-- `load_headers`: `BETWEEN` two heights as SQLite compares them, in the order of heights. -/
def DirectoryDb.loadHeaders (db : DirectoryDb S) (first last : UInt64) :
    List (DirectoryHeader P) :=
  ((db.headers.keys.filter fun height : Nat =>
    decide (asI64 first ≤ (height : Int) ∧ (height : Int) ≤ asI64 last)).insertionSort
      (· ≤ ·)).filterMap fun height => (db.headers.lookup height).map HeaderRow.header

/-- A mirror answers a query from its own database, as a primary does. -/
def v1GetHeaders (dbFails : Bool) (db : DirectoryDb S) (first last : UInt64) :
    Except DirectoryErr (List (DirectoryHeader P)) :=
  if dbFails then .error .retryLater else .ok (db.loadHeaders first last)

def v1GetChunk (dbFails : Bool) (db : DirectoryDb S) (height : Nat) :
    Except DirectoryErr (DirectoryChunk P) :=
  if dbFails then .error .retryLater
  else
    match db.chunks.lookup height with
    | none => .error (.updateRejected "chunk not found")
    | some chunk => .ok chunk

/-- `build_history_and_proof`; `compress` writes a proof of the `novasmt` crate. -/
def buildHistoryAndProof (compress : S.Proof → Bytes) (store : S.Store) (root : P.Hash)
    (key : String) : Except DirectoryErr (List (DirectoryUpdate P) × Bytes) :=
  match S.prove (S.openTree store root) (DirectoryDb.keyHash key) with
  | none => .error .retryLater
  | some proof =>
      match DirectoryDb.loadHistory store root key with
      | .error err => .error err
      | .ok history => .ok (history, compress proof)

def v1GetItem (compress : S.Proof → Bytes) (dbFails : Bool) (db : DirectoryDb S) (key : String) :
    Except DirectoryErr (DirectoryResponse P) :=
  if dbFails then .error .retryLater
  else
    match db.loadLastHeader with
    | none => .error .retryLater
    | some (height, header) =>
        match buildHistoryAndProof compress db.merkle header.smtRoot key with
        | .error err => .error err
        | .ok (history, proof) => .ok ⟨history, height, proof⟩

end Nullspace
