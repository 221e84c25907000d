import Nullspace.DirClient.Agreement

/-!
# What a failed synchronisation leaves behind

`sync_headers` stores each batch as it comes and compares the last hash with the anchor at
the end, so a server can have headers stored which are on no anchored chain. They stay, and
every later call builds on them. `recovers_iff` says which failed calls do no harm: those
in which every batch that got stored is the chain's.
-/

namespace Nullspace

open Nullspace.Base

variable {P : Primitives}

namespace HeaderTable

/-- Every answer which the loop would store, because it is complete and linked to what is
stored, is the batch of the chain. -/
def Credible (chain : List (DirectoryHeader P)) (target : Nat) :
    Nat → List (Option (List (DirectoryHeader P))) → Prop
  | _, [] => True
  | next, reply :: rest =>
      next ≤ target → ∀ headers, reply = some headers →
        headers.length = batchEnd target next - next + 1 →
          (headerLinking P).LinkedFrom ((headerLinking P).tip (chain.take next)) headers →
            headers = slice chain next (batchEnd target next) ∧
              Credible chain target (batchEnd target next + 1) rest

/-- What the loop leaves is a part of the chain exactly when every stored answer was. -/
theorem Stores.syncLoop_prefix {chain stored : List (DirectoryHeader P)}
    {table next : HeaderTable P} {target : Nat} {result : Except SyncError P.Hash}
    {replies : List (Option (List (DirectoryHeader P)))} (stores : table.Stores stored)
    (within : stored <+: chain)
    (ran : table.syncLoop target stored.length ((headerLinking P).tip stored) replies =
      (next, result)) :
    ∃ kept, next.Stores kept ∧ (kept <+: chain ↔ Credible chain target stored.length replies) := by
  induction replies generalizing stored table with
  | nil =>
      rw [HeaderTable.syncLoop] at ran
      cases ran
      exact ⟨stored, stores, iff_of_true within trivial⟩
  | cons reply rest ih =>
      have head : (headerLinking P).tip (chain.take stored.length) = (headerLinking P).tip stored :=
        congrArg _ (List.prefix_iff_eq_take.mp within).symm
      rcases stores.syncLoop_cons ran with
        ⟨headers, extended, rfl, takes, held, ran⟩ | ⟨refused, rfl, _⟩
      · have batch := append_slice within (by rw [← takes.length, List.length_append]; omega :
          stored.length ≤ batchEnd target stored.length + 1)
        by_cases honest : headers = slice chain stored.length (batchEnd target stored.length)
        · have further : stored ++ headers <+: chain := by
            rw [honest, batch]
            exact List.take_prefix _ _
          obtain ⟨final, kept, same⟩ := ih held further ran
          rw [takes.length] at same
          refine ⟨final, kept, same.trans ?_⟩
          constructor
          · intro credible _ others answered _ _
            cases answered
            exact ⟨honest, credible⟩
          · intro credible
            exact (credible takes.more headers rfl takes.complete (head ▸ takes.linked)).2
        · obtain ⟨further, kept, _⟩ := held.syncLoop ran
          have off : ¬stored ++ headers ++ further <+: chain := by
            intro onChain
            have part := (List.prefix_append (stored ++ headers) further).trans onChain
            rw [List.prefix_iff_eq_take, takes.length, ← batch] at part
            exact honest (List.append_cancel_left part)
          refine ⟨_, kept, iff_of_false off ?_⟩
          intro credible
          exact honest
            (credible takes.more headers rfl takes.complete (head ▸ takes.linked)).1
      · refine ⟨stored, stores, iff_of_true within ?_⟩
        intro more headers answered complete linked
        exact absurd ⟨headers, answered, more, complete, head ▸ linked⟩ refused

/-- The same for a whole call, which never stores beyond its anchor. -/
theorem Stores.syncHeaders_prefix {chain stored : List (DirectoryHeader P)}
    {table next : HeaderTable P} {anchor : DirectoryAnchor P} {result : Except SyncError Unit}
    {replies : List (Option (List (DirectoryHeader P)))} (stores : table.Stores stored)
    (within : stored <+: chain) (ran : table.syncHeaders anchor replies = (next, result)) :
    ∃ kept, next.Stores kept ∧ kept.length ≤ max stored.length (anchor.lastHeaderHeight + 1) ∧
      (kept <+: chain ↔ Credible chain anchor.lastHeaderHeight stored.length replies) := by
  rcases looped : table.syncLoop anchor.lastHeaderHeight stored.length
    ((headerLinking P).tip stored) replies with ⟨final, ended⟩
  have same : next = final := by
    simp only [HeaderTable.syncHeaders, stores.resumePoint, looped] at ran
    cases ended with
    | error err => exact (Prod.mk.inj ran).1.symm
    | ok lastHash =>
        dsimp only at ran
        split at ran <;> exact (Prod.mk.inj ran).1.symm
  obtain ⟨more, held, bound, _⟩ := stores.syncLoop looped
  obtain ⟨kept, stored, decided⟩ := stores.syncLoop_prefix within looped
  cases held.unique stored
  exact ⟨_, same ▸ held, bound, decided⟩

/-- Against an honest server a call succeeds only from a part of the chain. -/
theorem Stores.prefix_of_syncHonestly (free : P.CollisionFree)
    {chain stored : List (DirectoryHeader P)} {table next : HeaderTable P}
    {anchor : DirectoryAnchor P} (linked : (headerLinking P).Linked chain)
    (stores : table.Stores stored) (names : Names chain anchor)
    (ran : table.syncHonestly chain anchor = (next, .ok ())) : stored <+: chain := by
  rw [HeaderTable.syncHonestly, stores.resumePoint] at ran
  obtain ⟨more, extended, ended⟩ := stores.syncHeaders ran
  obtain ⟨tips, _⟩ := ended rfl
  rw [← names.tip] at tips
  have whole := extended.linked.eq_of_tip free.headers
    (linked.of_prefix (List.take_prefix _ chain)) tips
  exact (List.prefix_append stored more).trans (whole ▸ List.take_prefix _ chain)

/-- What a failed call leaves is a part of the anchored chain, and later calls with newer
anchors of the chain succeed against an honest server, exactly when every batch which the
call stored is the chain's. -/
theorem recovers_iff (free : P.CollisionFree) {chain stored : List (DirectoryHeader P)}
    {table next : HeaderTable P} {anchor : DirectoryAnchor P} {err : SyncError}
    {replies : List (Option (List (DirectoryHeader P)))} (stores : table.Stores stored)
    (within : stored <+: chain) (names : Names chain anchor)
    (failed : table.syncHeaders anchor replies = (next, .error err)) :
    ((∃ kept, kept <+: chain ∧ next.Stores kept) ↔
      Credible chain anchor.lastHeaderHeight stored.length replies) ∧
    ∀ later newer, chain <+: later → (headerLinking P).Linked later → Names later newer →
      anchor.lastHeaderHeight ≤ newer.lastHeaderHeight →
        stored.length ≤ newer.lastHeaderHeight + 1 →
          ((∃ done, next.syncHonestly later newer = (done, .ok ())) ↔
            Credible chain anchor.lastHeaderHeight stored.length replies) := by
  obtain ⟨kept, held, bound, onChain⟩ := stores.syncHeaders_prefix within failed
  refine ⟨⟨?_, fun credible => ⟨kept, onChain.mpr credible, held⟩⟩, ?_⟩
  · rintro ⟨other, part, same⟩
    rw [same.unique held] at part
    exact onChain.mp part
  · intro later newer grown linked namesLater newerAnchor above
    rw [← onChain]
    constructor
    · rintro ⟨done, ran⟩
      have reaches := names.lt_length
      have part := within.length_le
      exact List.prefix_of_prefix_length_le
        (held.prefix_of_syncHonestly free linked namesLater ran) grown (by omega)
    · intro part
      obtain ⟨done, ran, _⟩ := held.syncHonestly linked (part.trans grown) namesLater (by omega)
      exact ⟨done, ran⟩

/-- The anchor of the first header, signed with the key 7. -/
def firstAnchor : DirectoryAnchor symbolic :=
  ⟨"directory", 0, DirClient.firstHeader.hash,
    7 :: Bcs.toBytes ("directory", UInt64.ofNat 0, DirClient.firstHeader.hash)⟩

/-- A first header with a tree of the server's choice. -/
def forgedHeader : DirectoryHeader symbolic := ⟨[], Bcs.toBytes (DirClient.twoContents 1), 0⟩

theorem firstAnchor_names : Names DirClient.twoChain.headers firstAnchor :=
  ⟨DirClient.firstHeader, rfl, rfl⟩

/-- The table after the server answered with the forged header. -/
def forgedTable : HeaderTable symbolic := insertRows ∅ [(0, rowOf forgedHeader)]

/-- The forged header is stored, and the synchronization fails. -/
theorem forged_fails : syncHeaders (∅ : HeaderTable symbolic) firstAnchor [some [forgedHeader]] =
    (forgedTable, .error (.anchorMismatch 0)) :=
  Prod.ext (AList.ext (by decide +kernel)) (by decide +kernel)

theorem recovers_iff_forged : ¬∃ done, forgedTable.syncHonestly DirClient.twoChain.headers
    DirClient.secondAnchor = (done, .ok ()) := by
  have decided := (recovers_iff symbolic_collisionFree stores_empty List.nil_prefix
    firstAnchor_names forged_fails).2 _ DirClient.secondAnchor (List.prefix_refl _)
    DirClient.twoChain.linked DirClient.twoChain_contains (by decide) (by decide)
  rw [decided]
  intro credible
  have same := (credible (by decide) [forgedHeader] rfl rfl ⟨rfl, trivial⟩).1
  exact absurd same (by decide +kernel)

/-- The forged header stays, and every later call stumbles over it. -/
theorem forged_breaks : ¬∀ (chain stored : List (DirectoryHeader symbolic))
    (table next : HeaderTable symbolic) (anchor : DirectoryAnchor symbolic) (err : SyncError)
    (replies : List (Option (List (DirectoryHeader symbolic)))),
    (headerLinking symbolic).Linked chain → table.Stores stored → stored <+: chain →
    Names chain anchor → table.syncHeaders anchor replies = (next, .error err) →
    ∀ newer, Names chain newer → anchor.lastHeaderHeight < newer.lastHeaderHeight →
      ∃ done, next.syncHonestly chain newer = (done, .ok ()) := by
  intro recovers
  obtain ⟨done, ran⟩ := recovers _ [] ∅ _ firstAnchor _ _ DirClient.twoChain.linked stores_empty
    List.nil_prefix firstAnchor_names forged_fails DirClient.secondAnchor
    DirClient.twoChain_contains (by decide)
  have refused : (forgedTable.syncHonestly DirClient.twoChain.headers DirClient.secondAnchor).2 =
      .error (.mismatch 1) := by decide +kernel
  rw [ran] at refused
  cases refused

end HeaderTable
end Nullspace
