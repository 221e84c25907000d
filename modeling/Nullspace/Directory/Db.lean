import Nullspace.Base.AuthMap
import Nullspace.Structs.Directory

/-!
# The directory's database

The tables of `directory.db`, the node store of the sparse Merkle trees, and the staging
map. Headers and chunks are kept as values: their columns hold encodings which
`Bcs.fromBytes_toBytes` reads back. Heights are below `2^63`, where the casts between
`u64` and SQLite's `i64` change nothing.
-/

namespace Nullspace

open Nullspace.Base

/-- The sparse Merkle trees of the `novasmt` crate: 32-byte roots and keys, byte values. -/
abbrev Smt (P : Primitives) := AuthMap P.Hash P.Hash Bytes

variable {P : Primitives}

/-- A row of `pow_seeds`. -/
structure PowSeedRow where
  useBefore : UInt64
  effort : UInt64
deriving DecidableEq

/-- A row of `headers`. -/
structure HeaderRow (P : Primitives) where
  header : DirectoryHeader P
  headerHash : P.Hash
deriving DecidableEq

/-- What a directory keeps on disk. -/
structure DirectoryDb (S : Smt P) where
  powSeeds : Table P.Hash PowSeedRow
  headers : Table Nat (HeaderRow P)
  chunks : Table Nat (DirectoryChunk P)
  merkle : S.Store

namespace DirectoryDb

variable {S : Smt P}

/-- A new database over a node store. -/
def fresh (store : S.Store) : DirectoryDb S := ⟨∅, ∅, ∅, store⟩

def insertPowSeed (db : DirectoryDb S) (seed : P.Hash) (row : PowSeedRow) : DirectoryDb S :=
  { db with powSeeds := db.powSeeds.insert seed row }

/-- Seeds are compared as SQLite stores them. -/
def purgePowSeeds (db : DirectoryDb S) (now : Timestamp) : DirectoryDb S :=
  { db with powSeeds := db.powSeeds.keep fun row => !decide (asI64 row.useBefore < asI64 now) }

def loadLastHeader (db : DirectoryDb S) : Option (Nat × DirectoryHeader P) :=
  db.headers.last?.map fun (height, row) => (height, row.header)

/-- `insert_chunk`: one transaction, refused when either table has a row at the height. -/
def insertChunk (db : DirectoryDb S) (height : Nat) (header : DirectoryHeader P)
    (headerHash : P.Hash) (chunk : DirectoryChunk P) : Option (DirectoryDb S) :=
  match db.headers.insertNew height ⟨header, headerHash⟩ with
  | none => none
  | some headers =>
      match db.chunks.insertNew height chunk with
      | none => none
      | some chunks => some { db with headers := headers, chunks := chunks }

/-- A chunk is inserted at a height which is free. -/
theorem insertChunk_eq_some {db next : DirectoryDb S} {height : Nat} {header : DirectoryHeader P}
    {headerHash : P.Hash} {chunk : DirectoryChunk P} :
    db.insertChunk height header headerHash chunk = some next ↔
      height ∉ db.headers ∧ height ∉ db.chunks ∧
        next = { db with
          headers := db.headers.insert height ⟨header, headerHash⟩
          chunks := db.chunks.insert height chunk } := by
  by_cases headerTaken : height ∈ db.headers <;> by_cases chunkTaken : height ∈ db.chunks <;>
    simp [insertChunk, Table.insertNew, headerTaken, chunkTaken, eq_comm]

/-- A chunk above all others brings the last header. -/
theorem loadLastHeader_insertChunk {db next : DirectoryDb S} {height : Nat}
    {header : DirectoryHeader P} {headerHash : P.Hash} {chunk : DirectoryChunk P}
    (inserted : db.insertChunk height header headerHash chunk = some next)
    (above : ∀ other ∈ db.headers.keys, other < height) :
    next.loadLastHeader = some (height, header) := by
  obtain ⟨_, _, rfl⟩ := insertChunk_eq_some.mp inserted
  have last := Table.last?_insert (⟨header, headerHash⟩ : HeaderRow P) above
  simp only [loadLastHeader, last, Option.map_some]

/-- The key of the tree at which the history of a name stands. -/
def keyHash (key : String) : P.Hash := P.digest (utf8 key)

/-- `load_history_from_smt`: an absent key holds the empty value, and an empty history. -/
def loadHistory (store : S.Store) (root : P.Hash) (key : String) :
    Except DirectoryErr (List (DirectoryUpdate P)) :=
  match S.get (S.openTree store root) (keyHash key) with
  | none => .error .retryLater
  | some value =>
      if value = [] then .ok []
      else
        match Bcs.fromBytes value with
        | none => .error .retryLater
        | some history => .ok history

/-- The history which a commit starts from: none has been committed without a header. -/
def historyBefore (store : S.Store) (last : Option (Nat × DirectoryHeader P)) (key : String) :
    Except DirectoryErr (List (DirectoryUpdate P)) :=
  match last with
  | none => .ok []
  | some (_, header) => loadHistory store header.smtRoot key

/-- The history of a key in the tree at the last header. -/
def committed (db : DirectoryDb S) (key : String) :
    Except DirectoryErr (List (DirectoryUpdate P)) :=
  historyBefore db.merkle db.loadLastHeader key

end DirectoryDb

/-- Without collisions two names have two keys in the tree. -/
theorem Primitives.CollisionFree.keyHash (free : P.CollisionFree) :
    Function.Injective (DirectoryDb.keyHash (P := P)) :=
  fun _ _ same => utf8_injective (free.digest same)

/-- The updates accepted since the last commit, by key. -/
abbrev Staging (P : Primitives) := Table String (List (DirectoryUpdate P))

namespace Staging

/-- The staged updates of a key. -/
def pending (staging : Staging P) (key : String) : List (DirectoryUpdate P) :=
  (staging.lookup key).getD []

/-- `staging.entry(key).or_default().push(update)`. -/
def push (staging : Staging P) (key : String) (update : DirectoryUpdate P) : Staging P :=
  staging.insert key (pending staging key ++ [update])

@[simp] theorem pending_empty (key : String) : pending (∅ : Staging P) key = [] := rfl

/-- A pushed update is the last one pending for its key. -/
theorem pending_push (staging : Staging P) (key other : String) (update : DirectoryUpdate P) :
    pending (push staging key update) other =
      if other = key then pending staging key ++ [update] else pending staging other := by
  rw [pending, push, Table.lookup_insert_eq]
  by_cases same : other = key
  · simp [same]
  · simp [same, pending]

/-- The updates of a row are those pending for its key. -/
theorem pending_of_mem_rows {staging : Staging P} {key : String} {list : List (DirectoryUpdate P)}
    (listed : (key, list) ∈ staging.rows) : pending staging key = list := by
  rw [pending, Table.mem_rows.mp listed, Option.getD_some]

/-- Nothing is pending for a key without a row. -/
theorem pending_of_not_mem {staging : Staging P} {key : String} (absent : key ∉ staging) :
    pending staging key = [] := by
  rw [pending, AList.lookup_eq_none.mpr absent, Option.getD_none]

end Staging
end Nullspace
