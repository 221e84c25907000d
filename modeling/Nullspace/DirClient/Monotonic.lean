import Nullspace.DirClient.Agreement

/-!
# Rollback by an old proof height

A response is checked against the header at the height which the server names. The only
bound on the height is the anchor's from above, so a server may answer from an older
header than it answered from before. `prefix_iff` says when two answers of one run are
in the right order: when the heights are, or when nothing changed between them.
-/

namespace Nullspace

open Nullspace.Base

variable {P : Primitives} {S : Smt P}

/-- The chain never takes a committed update back. -/
def AnchoredChain.AppendOnly (chain : AnchoredChain S) : Prop :=
  ∀ earlier later key, earlier ≤ later → chain.committed earlier key <+: chain.committed later key

namespace DirClient

/-- In every run, of two responses accepted for a key one after the other, the earlier
history is a prefix of the later one exactly when the later proof height is not below the
earlier one or the chain commits the same history at both. -/
theorem prefix_iff (free : P.CollisionFree) (binding : S.Binding) {chain : AnchoredChain S}
    (appendOnly : chain.AppendOnly) {decompress : Bytes → Option S.Proof}
    {anchorPk : P.SigningPublic} {events : List (DirClientEvent P)} {client : DirClient P}
    (covered : chain.Covers anchorPk events)
    (reached : (machine decompress anchorPk).exec fresh events = some client) {key : String}
    {earlier later : DirectoryResponse P}
    (accepted : [(key, earlier), (key, later)].Sublist client.accepted) :
    earlier.history <+: later.history ↔
      earlier.proofHeight ≤ later.proofHeight ∨
        chain.committed earlier.proofHeight key = chain.committed later.proofHeight key := by
  have consistent := consistent_of_exec free binding (consistent_fresh chain) covered
    reached
  have earlierListed : (key, earlier) ∈ client.accepted := accepted.subset List.mem_cons_self
  have laterListed : (key, later) ∈ client.accepted :=
    accepted.subset (List.mem_cons_of_mem _ List.mem_cons_self)
  rw [consistent.accepted key earlier earlierListed, consistent.accepted key later laterListed]
  constructor
  · intro ordered
    by_cases heights : earlier.proofHeight ≤ later.proofHeight
    · exact Or.inl heights
    · have back := appendOnly later.proofHeight earlier.proofHeight key (by omega)
      exact Or.inr (ordered.eq_of_length (Nat.le_antisymm ordered.length_le back.length_le))
  · rintro (heights | same)
    · exact appendOnly _ _ key heights
    · rw [same]

theorem twoChain_appendOnly : twoChain.AppendOnly := by
  intro earlier later key ordered
  simp only [twoChain, twoCommitted]
  by_cases held : 1 ≤ earlier ∧ key = "@alice"
  · rw [if_pos held, if_pos ⟨by omega, held.2⟩]
  · rw [if_neg held]
    exact List.nil_prefix

/-- Two queries, the later one answered from the older header. -/
def rollbackRun : List (DirClientEvent symbolic) := queryAt 0 1 ++ queryAt 1 0

theorem covers_rollbackRun : twoChain.Covers 7 rollbackRun := by
  intro event listed
  rcases List.mem_append.mp listed with first | second
  · exact covers_queryAt 0 1 event first
  · exact covers_queryAt 1 0 event second

theorem accepted_rollbackRun : (symbolicClient rollbackRun).map DirClient.accepted =
    some [("@alice", aliceAt 1), ("@alice", aliceAt 0)] := by decide +kernel

theorem prefix_iff_rollbackRun : (aliceAt 1).history <+: (aliceAt 0).history ↔
    1 ≤ 0 ∨ twoChain.committed 1 "@alice" = twoChain.committed 0 "@alice" := by
  obtain ⟨client, reached, accepted⟩ := Option.map_eq_some_iff.mp accepted_rollbackRun
  have ordered : [("@alice", aliceAt 1), ("@alice", aliceAt 0)].Sublist client.accepted := by
    rw [accepted]
  exact prefix_iff symbolic_collisionFree symbolicSmt_binding twoChain_appendOnly
    covers_rollbackRun reached ordered

/-- The run accepts a history and then a shorter one. -/
theorem rollbackRun_breaks : ¬∀ (events : List (DirClientEvent symbolic)) (client : DirClient symbolic)
    (key : String) (earlier later : DirectoryResponse symbolic), twoChain.Covers 7 events →
    symbolicClient events = some client →
    [(key, earlier), (key, later)].Sublist client.accepted → earlier.history <+: later.history := by
  intro monotonic
  obtain ⟨client, reached, accepted⟩ := Option.map_eq_some_iff.mp accepted_rollbackRun
  have ordered : [("@alice", aliceAt 1), ("@alice", aliceAt 0)].Sublist client.accepted := by
    rw [accepted]
  have before := monotonic rollbackRun client "@alice" _ _ covers_rollbackRun reached ordered
  exact absurd before (by decide +kernel)

end DirClient
end Nullspace
