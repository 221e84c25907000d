import Nullspace.Base.Machine
import Nullspace.Directory.Commit

/-!
# The mirror

A mirror fetches chunks from a server which it does not trust and writes them as the
primary wrote them. `apply_chunk` takes the same two loops over the same trees as
`commit_chunk`: `commitTree` is both. What differs is that a chunk comes with its header,
and that the mirror holds the chunk to its own head and to the root which it computes.

`commitChunk_cases` and `applyChunk_cases` say the same of both: a chunk gets in over the
head, or no table changes.
-/

namespace Nullspace

open Nullspace.Base

variable {P : Primitives} {S : Smt P}

inductive ApplyError where
  /-- The failures which `commit_chunk` has too. -/
  | commit (err : CommitError)
  | unexpectedHeight (height expected : Nat)
  | prevMismatch (height : Nat)
  | rootMismatch (height : Nat)
deriving DecidableEq

/-- `apply_chunk`. The head which `commitTree` reads is the one read here. -/
def applyChunk (env : CommitEnv) (height : Nat) (chunk : DirectoryChunk P) (db : DirectoryDb S) :
    DirectoryDb S × Except ApplyError Unit :=
  if env.faults .lastHeader then (db, .error (.commit .database))
  else
    let (expectedHeight, expectedPrev) := nextLink db.loadLastHeader
    if height ≠ expectedHeight then (db, .error (.unexpectedHeight height expectedHeight))
    else if chunk.header.prev ≠ expectedPrev then (db, .error (.prevMismatch height))
    else
      match commitTree env chunk.updates db with
      | .error err => (db, .error (.commit err))
      | .ok (merkle, smtHash) =>
          let written := { db with merkle := merkle }
          if smtHash ≠ chunk.header.smtRoot then (written, .error (.rootMismatch height))
          else if env.faults .insertChunk then (written, .error (.commit .database))
          else
            match written.insertChunk height chunk.header chunk.header.hash chunk with
            | none => (written, .error (.commit .database))
            | some next => (next, .ok ())

/-- A chunk is applied when it is the next one and its updates lead to the root in its header. -/
theorem applyChunk_ok {env : CommitEnv} {height : Nat} {chunk : DirectoryChunk P}
    {db next : DirectoryDb S} :
    applyChunk env height chunk db = (next, .ok ()) ↔
      height = (nextLink db.loadLastHeader).1 ∧
        chunk.header.prev = (nextLink db.loadLastHeader).2 ∧ ∃ merkle,
          commitTree env chunk.updates db = .ok (merkle, chunk.header.smtRoot) ∧
            env.faults .insertChunk = false ∧
              { db with merkle := merkle }.insertChunk height chunk.header chunk.header.hash chunk =
                some next := by
  rw [applyChunk]
  by_cases failed : env.faults .lastHeader = true
  · simp [failed, commitTree]
  · rw [if_neg failed]
    dsimp only
    by_cases here : height = (nextLink db.loadLastHeader).1
    · by_cases linked : chunk.header.prev = (nextLink db.loadLastHeader).2
      · rw [if_neg (not_not.mpr here), if_neg (not_not.mpr linked)]
        cases treed : commitTree env chunk.updates db with
        | error err => simp
        | ok built =>
            obtain ⟨merkle, root⟩ := built
            by_cases same : root = chunk.header.smtRoot
            · cases env.faults .insertChunk with
              | true => simp [same]
              | false =>
                  cases inserted : { db with merkle := merkle }.insertChunk height chunk.header
                    chunk.header.hash chunk <;> simp [same, here, linked]
                  all_goals simp [← here, inserted]
            · simp [same]
      · simp [linked, here]
    · simp [here]

/-- What a commit does to the database. -/
theorem commitChunk_cases (env : CommitEnv) (updates : Staging P) (db : DirectoryDb S) :
    (∃ header, DirectoryDb.Extended env ⟨header, updates⟩ db (commitChunk env updates db).1) ∨
      DirectoryDb.NodesOnly db (commitChunk env updates db).1 := by
  rcases outcome : commitChunk env updates db with ⟨next, err | _⟩
  · exact Or.inr (commitChunk_error outcome)
  · exact Or.inl (DirectoryDb.extended_of_commitChunk outcome)

/-- What an offered chunk does to the database. -/
theorem applyChunk_cases (env : CommitEnv) (height : Nat) (chunk : DirectoryChunk P)
    (db : DirectoryDb S) :
    DirectoryDb.Extended env chunk db (applyChunk env height chunk db).1 ∨
      DirectoryDb.NodesOnly db (applyChunk env height chunk db).1 := by
  rcases outcome : applyChunk env height chunk db with ⟨next, err | _⟩
  · right
    simp only [applyChunk] at outcome
    have written : ∀ {merkle root}, commitTree env chunk.updates db = .ok (merkle, root) →
        DirectoryDb.NodesOnly db { db with merkle := merkle } := by
      intro merkle root treed
      obtain ⟨_, _, _, tree, _, stored⟩ := commitTree_ok.mp treed
      exact Or.inr ⟨tree, merkle, root, stored, rfl⟩
    repeat' split at outcome
    all_goals cases outcome
    all_goals first
      | exact Or.inl rfl
      | exact written (by assumption)
  · obtain ⟨rfl, prev, merkle, treed, _, inserted⟩ := applyChunk_ok.mp outcome
    exact Or.inl ⟨prev, merkle, treed, inserted⟩

/-- What a mirror adds to a directory's database. -/
structure Mirror (S : Smt P) where
  db : DirectoryDb S
  anchor : Option (DirectoryAnchor P)

inductive MirrorError where
  /-- A call, the upstream server or the local database failed. -/
  | unavailable
  | apply (err : ApplyError)
  | headerMismatch
deriving DecidableEq

/-- The loop of `sync_once` over the heights to fetch; `chunkAt` is what upstream answers. -/
def applyChunks (env : Nat → CommitEnv) (chunkAt : Nat → Option (DirectoryChunk P))
    (lastHash : P.Hash) (db : DirectoryDb S) :
    List Nat → DirectoryDb S × Except MirrorError P.Hash
  | [] => (db, .ok lastHash)
  | next :: rest =>
      match chunkAt next with
      | none => (db, .error .unavailable)
      | some chunk =>
          match applyChunk (env next) next chunk db with
          | (db, .error err) => (db, .error (.apply err))
          | (db, .ok ()) => applyChunks env chunkAt chunk.header.hash db rest

/-- The heights which `sync_once` asks for, from the one above the local head. -/
def missingHeights (last : Option (Nat × DirectoryHeader P)) (target : Nat) : List Nat :=
  List.range' (nextLink last).1 (target + 1 - (nextLink last).1)

/-- `sync_once`. A head above the anchor is logged and left alone. -/
def syncOnce (headFails : Bool) (env : Nat → CommitEnv) (anchor : Option (DirectoryAnchor P))
    (chunkAt : Nat → Option (DirectoryChunk P)) (mirror : Mirror S) :
    Mirror S × Except MirrorError Unit :=
  match anchor with
  | none => (mirror, .error .unavailable)
  | some anchor =>
      if headFails then (mirror, .error .unavailable)
      else
        let (next, lastHash) := nextLink mirror.db.loadLastHeader
        if next > anchor.lastHeaderHeight + 1 then (mirror, .ok ())
        else if next = anchor.lastHeaderHeight + 1 then
          if lastHash ≠ anchor.lastHeaderHash then (mirror, .error .headerMismatch)
          else ({ mirror with anchor := some anchor }, .ok ())
        else
          match applyChunks env chunkAt lastHash mirror.db
              (missingHeights mirror.db.loadLastHeader anchor.lastHeaderHeight) with
          | (db, .error err) => ({ mirror with db := db }, .error err)
          | (db, .ok lastHash) =>
              if lastHash = anchor.lastHeaderHash then (⟨db, some anchor⟩, .ok ())
              else ({ mirror with db := db }, .ok ())

inductive MirrorEvent (P : Primitives) where
  /-- A chunk is offered for a height. -/
  | apply (env : CommitEnv) (height : Nat) (chunk : DirectoryChunk P)
  /-- The mirror issues proof-of-work seeds of its own. -/
  | getPowSeed (seed : P.Hash) (now : Timestamp) (inserted purged : Bool)

namespace Mirror

/-- A mirror's database under any chunks which it is offered. -/
def machine : Machine (DirectoryDb S) (MirrorEvent P) where
  step db
    | .apply env height chunk => some (applyChunk env height chunk db).1
    | .getPowSeed seed now inserted purged => some (v1GetPowSeed db seed now inserted purged)

end Mirror
end Nullspace
