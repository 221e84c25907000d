import Mathlib.Data.List.Infix
import Nullspace.DirClient.Client
import Nullspace.Symbolic

/-!
# No equivocation

The anchors which verify under the directory's key name headers of one chain. Then what a
client accepts at a height is what the chain commits at this height, whatever its
servers answered before and now: `Consistent` is the invariant, and `accepted_agree`
compares two clients.
-/

namespace Nullspace

open Nullspace.Base

variable {P : Primitives} {S : Smt P}

/-- The header chain of a directory, with the histories which its trees commit. -/
structure AnchoredChain (S : Smt P) where
  headers : List (DirectoryHeader P)
  linked : (headerLinking P).Linked headers
  committed : Nat → String → List (DirectoryUpdate P)
  proved : ∀ height header key, headers[height]? = some header →
    ∃ proof, S.check proof header.smtRoot (DirectoryDb.keyHash key)
      (historyValue (committed height key)) = true

namespace AnchoredChain

variable (chain : AnchoredChain S)

/-- The anchor names a header of the chain, by height and hash. -/
def Contains (anchor : DirectoryAnchor P) : Prop :=
  ∃ header, chain.headers[anchor.lastHeaderHeight]? = some header ∧
    header.hash = anchor.lastHeaderHash

/-- Every anchor which a server offers and which verifies names a header of the chain. -/
def Covers (anchorPk : P.SigningPublic) (events : List (DirClientEvent P)) : Prop :=
  ∀ event ∈ events, ∀ anchor, some anchor ∈ event.anchors →
    Signable.verify anchor anchorPk = true → chain.Contains anchor

variable {chain}

/-- A table whose tip is an anchor's holds the chain up to the anchor, and no more. -/
theorem eq_take_of_tip (free : P.CollisionFree) {stored : List (DirectoryHeader P)}
    {anchor : DirectoryAnchor P} (linked : (headerLinking P).Linked stored)
    (contained : chain.Contains anchor)
    (tips : (headerLinking P).tip stored = anchor.lastHeaderHash) :
    stored = chain.headers.take (anchor.lastHeaderHeight + 1) := by
  obtain ⟨header, found, hash⟩ := contained
  have upTo : chain.headers.take (anchor.lastHeaderHeight + 1) =
      chain.headers.take anchor.lastHeaderHeight ++ [header] := by
    rw [List.take_add_one, found]
    rfl
  have part : (headerLinking P).Linked (chain.headers.take (anchor.lastHeaderHeight + 1)) :=
    chain.linked.of_prefix (List.take_prefix _ _)
  refine linked.eq_of_tip free.headers part ?_
  rw [tips, upTo, Linking.tip, Linking.tipFrom_snoc]
  exact hash.symm

/-- A response which verifies against a header of the chain carries the committed history. -/
theorem history_eq_committed (binding : S.Binding) {height : Nat} {header : DirectoryHeader P}
    {key : String} {history : List (DirectoryUpdate P)} {proof : S.Proof}
    (found : chain.headers[height]? = some header)
    (checked : S.check proof header.smtRoot (DirectoryDb.keyHash key) (historyValue history) = true) :
    history = chain.committed height key := by
  obtain ⟨honest, honestChecked⟩ := chain.proved height header key found
  exact historyValue_injective (binding _ _ _ _ _ _ checked honestChecked)

end AnchoredChain

namespace DirClient

variable (chain : AnchoredChain S)

/-- What a client holds, relative to the chain. -/
structure Consistent (client : DirClient P) : Prop where
  stored : ∃ stored, client.headers.Stores stored ∧ ∀ query running,
    client.queries.lookup query = some running → chain.Contains running.anchor ∧
      (running.synced = true →
        chain.headers.take (running.anchor.lastHeaderHeight + 1) <+: stored)
  cached : ∀ height anchor, client.anchorCache.lookup height = some anchor →
    chain.Contains anchor
  accepted : ∀ key response, (key, response) ∈ client.accepted →
    response.history = chain.committed response.proofHeight key

theorem consistent_fresh : Consistent chain fresh where
  stored := ⟨[], HeaderTable.stores_empty, fun query running found => by simp [fresh] at found⟩
  cached height anchor found := by simp [fresh] at found
  accepted key response listed := by simp [fresh] at listed

variable {chain}

/-- An anchor for a query is cached, or offered and signed. -/
theorem contains_anchorFor {anchorPk : P.SigningPublic} {client : DirClient P} {height : Nat}
    {evicted : Bool} {anchors : List (Option (DirectoryAnchor P))} {anchor : DirectoryAnchor P}
    (consistent : Consistent chain client)
    (covered : ∀ offered, some offered ∈ anchors → Signable.verify offered anchorPk = true →
      chain.Contains offered)
    (obtained : client.anchorFor anchorPk height evicted anchors = .ok anchor) :
    chain.Contains anchor := by
  have awaits : awaitAnchor anchorPk height anchors = .ok anchor → chain.Contains anchor := by
    intro awaited
    obtain ⟨listed, signed, _⟩ := awaitAnchor_ok awaited
    exact covered anchor listed signed
  rw [anchorFor] at obtained
  split at obtained
  · exact awaits obtained
  · rename_i cachedAnchor found
    split at obtained
    · exact awaits obtained
    · cases obtained
      exact consistent.cached height _ found

/-- A verified response carries the history of the chain. -/
theorem Consistent.verified (binding : S.Binding) {decompress : Bytes → Option S.Proof}
    {client : DirClient P} {query : Nat} {running : Query P} (consistent : Consistent chain client)
    (found : client.queries.lookup query = some running) (synced : running.synced = true)
    (verified : verifyResponse decompress client.headers running.key running.anchor
      running.response = .ok ()) :
    running.response.history = chain.committed running.response.proofHeight running.key := by
  obtain ⟨stored, stores, held⟩ := consistent.stored
  obtain ⟨_, upTo⟩ := held query running found
  obtain ⟨rest, whole⟩ := upTo synced
  obtain ⟨within, header, loaded, proof, _, checked⟩ := verifyResponse_ok.mp verified
  rw [stores.loadHeader, ← whole] at loaded
  have onChain : chain.headers[running.response.proofHeight]? = some header := by
    by_cases short : running.response.proofHeight <
        (chain.headers.take (running.anchor.lastHeaderHeight + 1)).length
    · rw [List.getElem?_append_left short, List.getElem?_take_of_lt (by omega)] at loaded
      exact loaded
    · obtain ⟨last, reaches, _⟩ := (held query running found).1
      have reached := (List.getElem?_eq_some_iff.mp reaches).1
      rw [List.length_take] at short
      omega
  exact AnchoredChain.history_eq_committed binding onChain checked

/-- Every step keeps what the client holds consistent with the chain. -/
theorem Consistent.step (free : P.CollisionFree) (binding : S.Binding)
    {decompress : Bytes → Option S.Proof} {anchorPk : P.SigningPublic} {client next : DirClient P}
    {event : DirClientEvent P} (consistent : Consistent chain client)
    (covered : chain.Covers anchorPk [event])
    (taken : (machine decompress anchorPk).step client event = some next) :
    Consistent chain next := by
  obtain ⟨stored, stores, held⟩ := consistent.stored
  cases event with
  | fetch query key response evicted anchors =>
      simp only [machine] at taken
      split at taken
      · simp at taken
      · split at taken
        · cases taken
          exact consistent
        · rename_i response
          split at taken
          · cases taken
            exact consistent
          · rename_i anchor obtained
            cases taken
            have contained : chain.Contains anchor := contains_anchorFor consistent
              (fun offered => covered _ List.mem_cons_self offered) obtained
            refine ⟨⟨stored, stores, ?_⟩, ?_, consistent.accepted⟩
            · intro other running found
              rcases Table.lookup_insert_cases found with ⟨_, same⟩ | found
              · cases same
                exact ⟨contained, by simp⟩
              · exact held other running found
            · intro height cachedAnchor found
              rcases Table.lookup_insert_cases found with ⟨_, same⟩ | found
              · cases same
                exact contained
              · exact consistent.cached height cachedAnchor found
  | sync query replies =>
      simp only [machine] at taken
      split at taken
      · simp at taken
      · rename_i running found
        split at taken
        · simp at taken
        · split at taken
          · rename_i headers err ran
            cases taken
            obtain ⟨more, extended, _⟩ := stores.syncHeaders ran
            refine ⟨⟨_, extended, ?_⟩, consistent.cached, consistent.accepted⟩
            intro other waiting otherFound
            obtain ⟨contained, upTo⟩ := held other waiting (Table.lookup_of_lookup_erase otherFound)
            exact ⟨contained, fun synced => (upTo synced).trans (List.prefix_append _ _)⟩
          · rename_i headers ran
            cases taken
            obtain ⟨more, extended, ended⟩ := stores.syncHeaders ran
            obtain ⟨tips, _⟩ := ended rfl
            refine ⟨⟨_, extended, ?_⟩, consistent.cached, consistent.accepted⟩
            intro other waiting otherFound
            rcases Table.lookup_insert_cases otherFound with ⟨_, same⟩ | otherFound
            · cases same
              have contained := (held query running found).1
              have whole := AnchoredChain.eq_take_of_tip free extended.linked contained tips
              refine ⟨contained, fun _ => ?_⟩
              rw [whole]
            · obtain ⟨contained, upTo⟩ := held other waiting otherFound
              exact ⟨contained, fun synced => (upTo synced).trans (List.prefix_append _ _)⟩
  | verify query =>
      simp only [machine] at taken
      split at taken
      · simp at taken
      · rename_i running found
        split at taken
        · simp at taken
        · rename_i synced
          have kept : ∀ other waiting,
              (client.queries.erase query).lookup other = some waiting →
                chain.Contains waiting.anchor ∧ (waiting.synced = true →
                  chain.headers.take (waiting.anchor.lastHeaderHeight + 1) <+: stored) :=
            fun other waiting otherFound => held other waiting (Table.lookup_of_lookup_erase otherFound)
          split at taken
          · cases taken
            exact ⟨⟨stored, stores, kept⟩, consistent.cached, consistent.accepted⟩
          · rename_i verified
            cases taken
            refine ⟨⟨stored, stores, kept⟩, consistent.cached, ?_⟩
            intro key response listed
            rcases List.mem_append.mp listed with earlier | last
            · exact consistent.accepted key response earlier
            · cases List.mem_singleton.mp last
              exact consistent.verified binding found (by simpa using synced) verified
  | restart =>
      cases taken
      exact ⟨⟨stored, stores, fun _ _ found => by simp at found⟩,
        fun _ _ found => by simp at found, consistent.accepted⟩

/-- Every run of a client leaves it consistent with the chain. -/
theorem consistent_of_exec (free : P.CollisionFree) (binding : S.Binding)
    {decompress : Bytes → Option S.Proof} {anchorPk : P.SigningPublic}
    {events : List (DirClientEvent P)} {client final : DirClient P}
    (consistent : Consistent chain client) (covered : chain.Covers anchorPk events)
    (reached : (machine decompress anchorPk).exec client events = some final) :
    Consistent chain final := by
  induction events generalizing client with
  | nil =>
      cases reached
      exact consistent
  | cons event rest ih =>
      rw [Machine.exec_cons] at reached
      obtain ⟨next, taken, remaining⟩ := Option.bind_eq_some_iff.mp reached
      have first : chain.Covers anchorPk [event] := by
        intro other listed
        cases List.mem_singleton.mp listed
        exact covered event List.mem_cons_self
      have later : chain.Covers anchorPk rest := fun other listed =>
        covered other (List.mem_cons_of_mem _ listed)
      exact ih (consistent.step free binding first taken) later remaining

/-- Two clients which accept a response for one key at one height accept the same history,
and it is the one which the chain commits there. -/
theorem accepted_agree (free : P.CollisionFree) (binding : S.Binding) (chain : AnchoredChain S)
    {decompress : Bytes → Option S.Proof} {anchorPk : P.SigningPublic}
    {firstEvents secondEvents : List (DirClientEvent P)} {first second : DirClient P}
    (firstCovered : chain.Covers anchorPk firstEvents)
    (secondCovered : chain.Covers anchorPk secondEvents)
    (firstReached : (machine decompress anchorPk).exec fresh firstEvents = some first)
    (secondReached : (machine decompress anchorPk).exec fresh secondEvents = some second)
    {key : String} {firstResponse secondResponse : DirectoryResponse P}
    (firstAccepted : (key, firstResponse) ∈ first.accepted)
    (secondAccepted : (key, secondResponse) ∈ second.accepted)
    (height : firstResponse.proofHeight = secondResponse.proofHeight) :
    firstResponse.history = secondResponse.history ∧
      firstResponse.history = chain.committed firstResponse.proofHeight key := by
  have firstConsistent := consistent_of_exec free binding (consistent_fresh chain)
    firstCovered firstReached
  have secondConsistent := consistent_of_exec free binding (consistent_fresh chain)
    secondCovered secondReached
  have firstHistory := firstConsistent.accepted key firstResponse firstAccepted
  have secondHistory := secondConsistent.accepted key secondResponse secondAccepted
  rw [height] at firstHistory
  refine ⟨firstHistory.trans secondHistory.symm, ?_⟩
  rw [height]
  exact firstHistory

/-- What the trees of two headers hold: the first one commits nothing, the second one the first
update of a name. -/
def twoContents : Nat → List (Bytes × Bytes)
  | 0 => []
  | _ => [(DirectoryDb.keyHash (P := symbolic) "@alice", Bcs.toBytes [firstUpdate 1])]

def firstHeader : DirectoryHeader symbolic := ⟨[], Bcs.toBytes (twoContents 0), 0⟩

def secondHeader : DirectoryHeader symbolic := ⟨firstHeader.hash, Bcs.toBytes (twoContents 1), 30⟩

/-- The histories which the two headers commit. -/
def twoCommitted (height : Nat) (key : String) : List (DirectoryUpdate symbolic) :=
  if 1 ≤ height ∧ key = "@alice" then [firstUpdate 1] else []

theorem twoCommitted_value (height : Nat) (key : String) :
    contentAt (twoContents height) (DirectoryDb.keyHash (P := symbolic) key) =
      historyValue (twoCommitted height key) := by
  cases height with
  | zero => simp [twoContents, contentAt, twoCommitted, historyValue]
  | succ height =>
      by_cases same : key = "@alice"
      · subst same
        simp [twoContents, contentAt, twoCommitted, historyValue]
      · have apart : DirectoryDb.keyHash (P := symbolic) key ≠ DirectoryDb.keyHash "@alice" :=
          fun keys => same (symbolic_collisionFree.keyHash keys)
        have different : (DirectoryDb.keyHash (P := symbolic) key ==
            DirectoryDb.keyHash (P := symbolic) "@alice") = false := by simpa using apart
        simp [twoContents, contentAt, twoCommitted, historyValue, same, different]

/-- The chain of the two headers. -/
def twoChain : AnchoredChain symbolicSmt where
  headers := [firstHeader, secondHeader]
  linked := ⟨rfl, rfl, trivial⟩
  committed := twoCommitted
  proved height header key found := by
    have root : header.smtRoot = Bcs.toBytes (twoContents height) := by
      match height, found with
      | 0, found => cases found; rfl
      | 1, found => cases found; rfl
    refine ⟨(), ?_⟩
    simp only [root, Bcs.fromBytes_toBytes, twoCommitted_value, decide_true]

/-- The anchor of the second header, signed with the key 7. -/
def secondAnchor : DirectoryAnchor symbolic :=
  ⟨"directory", 1, secondHeader.hash,
    7 :: Bcs.toBytes ("directory", UInt64.ofNat 1, secondHeader.hash)⟩

def aliceAt (height : Nat) : DirectoryResponse symbolic := ⟨twoCommitted height "@alice", height, []⟩

/-- A query which is answered at a height, under the anchor of the second header. -/
def queryAt (query height : Nat) : List (DirClientEvent symbolic) :=
  [.fetch query "@alice" (some (aliceAt height)) false [some secondAnchor],
    .sync query [some [firstHeader, secondHeader]], .verify query]

theorem twoChain_contains : twoChain.Contains secondAnchor := ⟨secondHeader, rfl, rfl⟩

theorem covers_queryAt (query height : Nat) : twoChain.Covers 7 (queryAt query height) := by
  intro event listed anchor offered _
  simp only [queryAt, List.mem_cons, List.not_mem_nil, or_false] at listed
  rcases listed with rfl | rfl | rfl
  · simp only [DirClientEvent.anchors, List.mem_singleton, Option.some.injEq] at offered
    exact offered ▸ twoChain_contains
  · simp [DirClientEvent.anchors] at offered
  · simp [DirClientEvent.anchors] at offered

/-- The client after a list of events, over the symbolic primitives. -/
def symbolicClient (events : List (DirClientEvent symbolic)) : Option (DirClient symbolic) :=
  (machine (S := symbolicSmt) (fun _ => some ()) (7 : UInt8)).exec fresh events

theorem accepted_queryAt : (symbolicClient (queryAt 0 1)).map DirClient.accepted =
    some [("@alice", aliceAt 1)] := by decide +kernel

theorem accepted_agree_queryAt : (aliceAt 1).history = twoChain.committed 1 "@alice" := by
  obtain ⟨client, reached, accepted⟩ := Option.map_eq_some_iff.mp accepted_queryAt
  have covered := covers_queryAt 0 1
  have listed : ("@alice", aliceAt 1) ∈ client.accepted := by
    rw [accepted]
    exact List.mem_cons_self
  exact (accepted_agree symbolic_collisionFree symbolicSmt_binding twoChain covered covered reached
    reached listed listed rfl).2

end DirClient
end Nullspace
