import Nullspace.Directory.Staging

/-!
# Failed commits

A commit which fails leaves headers, chunks and the head root alone at every exit, but
its batch was taken out of the staging map before the first of them and is never put
back. `asBefore_iff` is about every state, every failure and everything that inserts do
meanwhile. The chunker's next commit takes only what was staged after the take.
-/

namespace Nullspace

open Nullspace.Base

variable {P : Primitives} {S : Smt P}

namespace Primary

/-- The root of the tree at the last header. -/
def headRoot (state : Primary S) : Option P.Hash :=
  state.db.loadLastHeader.map fun (_, header) => header.smtRoot

/-- The directory is as it was, except that the updates accepted meanwhile are staged
behind those which were staged before. -/
structure AsBefore (before after : Primary S) : Prop where
  headers : after.db.headers = before.db.headers
  chunks : after.db.chunks = before.db.chunks
  headRoot : after.headRoot = before.headRoot
  staged : ∀ key pushed, after.accepted key = before.accepted key ++ pushed →
    after.staged key = before.staged key ++ pushed

/-- A failed commit changes no table. -/
theorem tables_of_failed {env : CommitEnv} {updates : Staging P} {db : DirectoryDb S}
    {err : CommitError} (failed : (commitChunk env updates db).2 = .error err) :
    (commitChunk env updates db).1.headers = db.headers ∧
      (commitChunk env updates db).1.chunks = db.chunks := by
  rcases outcome : commitChunk env updates db with ⟨next, result⟩
  rw [outcome] at failed
  obtain rfl : result = .error err := failed
  rcases commitChunk_error outcome with rfl | ⟨_, _, _, _, rfl⟩
  · exact ⟨rfl, rfl⟩
  · exact ⟨rfl, rfl⟩

/-- A commit that fails is undone exactly when it had taken no update. -/
theorem asBefore_iff {equixVerify : Bytes → Bytes → Bool} {state last final : Primary S}
    {middle : List (PrimaryEvent P)} {env : CommitEnv} {err : CommitError}
    (unfinished : Unfinished middle)
    (meanwhile : (machine equixVerify).exec state (.commitTake :: middle) = some last)
    (failed : (commitChunk env state.staging last.db).2 = .error err)
    (ran : (machine equixVerify).exec state (commitRun middle env) = some final) :
    AsBefore state final ↔ ∀ key, state.staged key = [] := by
  obtain ⟨idle, other, reached, pushes, rfl⟩ := exec_commitRun unfinished ran
  have same : other = last := by
    rw [Machine.exec_cons] at meanwhile
    simp only [machine, idle, Option.bind_some] at meanwhile
    exact Option.some.inj (reached.symm.trans meanwhile)
  subst same
  obtain ⟨headers, chunks⟩ := tables_of_failed failed
  constructor
  · intro asBefore key
    obtain ⟨pushed, staged, accepted⟩ := pushes.pushed key
    have whole : other.staged key = state.staged key ++ pushed := asBefore.staged key pushed accepted
    have fromEmpty : other.staged key = [] ++ pushed := staged
    exact List.append_cancel_right (whole.symm.trans fromEmpty)
  · intro empty
    have tables : (commitChunk env state.staging other.db).1.headers = state.db.headers :=
      headers.trans pushes.tables.1
    refine ⟨tables, chunks.trans pushes.tables.2.1, ?_, ?_⟩
    · rw [headRoot, headRoot, DirectoryDb.loadLastHeader_congr tables]
    · intro key pushed accepted
      obtain ⟨actual, staged, recorded⟩ := pushes.pushed key
      have same : actual = pushed := List.append_cancel_left (recorded.symm.trans accepted)
      rw [empty key, ← same]
      exact staged

/-- A run in which the first update of a name is accepted. -/
def acceptedRun : List (PrimaryEvent symbolic) :=
  [.getPowSeed [9] 0 true true, .commitTake, .commitFinish quietCommit,
    .insertRead 0 quietInsert "@alice" (firstUpdate 1) zeroSolution, .insertPush 0]

/-- The database is locked when the commit reads the last header. -/
def lockedCommit : CommitEnv := ⟨0, fun point => decide (point = .lastHeader)⟩

/-- The state after a run of the symbolic primary. -/
def symbolicRun (events : List (PrimaryEvent symbolic)) : Option (Primary symbolicSmt) :=
  (machine fun _ _ => true).exec (fresh ()) events

/-- A primary with one staged update. -/
def oneStaged : Primary symbolicSmt :=
  { fresh () with staging := Staging.push ∅ "@alice" (firstUpdate 1) }

theorem asBefore_iff_oneStaged :
    AsBefore oneStaged { oneStaged with staging := ∅ } ↔ ∀ key, oneStaged.staged key = [] := by
  have unfinished : Unfinished ([] : List (PrimaryEvent symbolic)) := by simp [Unfinished]
  have meanwhile : (machine fun _ _ => true).exec oneStaged [.commitTake] =
      some { oneStaged with committing := some oneStaged.staging, staging := ∅ } := rfl
  have failed : (commitChunk lockedCommit oneStaged.staging oneStaged.db).2 = .error .database := rfl
  have ran : (machine fun _ _ => true).exec oneStaged (commitRun [] lockedCommit) =
      some { oneStaged with staging := ∅ } := rfl
  exact asBefore_iff unfinished meanwhile failed ran

/-- The failed commit drops the staged update. -/
theorem failedCommit_drops : ¬∀ state final, symbolicRun acceptedRun = some state →
    (commitChunk lockedCommit state.staging state.db).2 = .error .database →
    symbolicRun (acceptedRun ++ commitRun [] lockedCommit) = some final → AsBefore state final := by
  intro atomic
  have before : (symbolicRun acceptedRun).map (fun state =>
      ((commitChunk lockedCommit state.staging state.db).2, state.staged "@alice",
        state.accepted "@alice")) =
      some (.error .database, [firstUpdate 1], [firstUpdate 1]) := by decide +kernel
  have after : (symbolicRun (acceptedRun ++ commitRun [] lockedCommit)).map (fun state =>
      (state.staged "@alice", state.accepted "@alice")) = some ([], [firstUpdate 1]) := by
    decide +kernel
  obtain ⟨state, reached, held⟩ := Option.map_eq_some_iff.mp before
  obtain ⟨final, finalReached, left⟩ := Option.map_eq_some_iff.mp after
  simp only [Prod.mk.injEq] at held left
  obtain ⟨failed, staged, accepted⟩ := held
  obtain ⟨finalStaged, finalAccepted⟩ := left
  have same := (atomic state final reached failed finalReached).staged "@alice" []
    (by rw [finalAccepted, accepted, List.append_nil])
  rw [finalStaged, staged] at same
  exact absurd same (by simp)

end Primary
end Nullspace
