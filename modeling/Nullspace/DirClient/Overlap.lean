import Nullspace.Base.Machine
import Nullspace.DirClient.Recovery

/-!
# Overlapping queries

Several clients of one process share a header table, and each of their queries goes through
the steps of `fetch_verified_response` at its own pace: the item, an anchor from the cache
or from the server, the synchronisation. The directory is honest, and its chain grows
meanwhile. The semaphore of `sync_headers` makes each synchronisation one step.

`synced_iff_aboveTable` says when they all succeed: exactly when no query synchronises with
an anchor below the table.
-/

namespace Nullspace

open Nullspace.Base

variable {P : Primitives}

/-- What the directory signs with, and the key its clients hold. -/
structure AnchorKeys (P : Primitives) where
  directoryId : String
  secretKey : P.SigningSecret
  anchorPk : P.SigningPublic

/-- `v1_get_anchor` of a primary whose headers are the chain. -/
def v1GetAnchor (keys : AnchorKeys P) (chain : List (DirectoryHeader P)) :
    Option (DirectoryAnchor P) :=
  chain.getLast?.map fun header =>
    let height := chain.length - 1
    ⟨keys.directoryId, height, header.hash,
      P.sign keys.secretKey (Bcs.toBytes (keys.directoryId, UInt64.ofNat height, header.hash))⟩

/-- How far a query has come. -/
inductive QueryStage (P : Primitives) where
  /-- It has a response with a proof at this height. -/
  | answered (proofHeight : Nat)
  | anchored (anchor : DirectoryAnchor P)

/-- The directory, and the clients which share a header table. -/
structure SharedClients (P : Primitives) where
  chain : List (DirectoryHeader P)
  headers : HeaderTable P
  /-- The `anchor_cache` of each client, by client and proof height. -/
  anchorCaches : Table (Nat × Nat) (DirectoryAnchor P)
  queries : Table Nat (Nat × QueryStage P)
  /-- What the synchronisations returned. The code keeps no record. -/
  outcomes : List (Except SyncError Unit)

inductive SharedEvent (P : Primitives) where
  /-- The directory commits a header. -/
  | commit (header : DirectoryHeader P)
  | fetchItem (client query : Nat)
  | fetchAnchor (query : Nat) (evicted : Bool)
  | sync (query : Nat)
  /-- The caller drops the query, in its synchronisation after some answers. -/
  | drop (query answers : Nat)
  /-- The process starts again over the same database. -/
  | restart

namespace HeaderTable

/-- A synchronisation which ends after some answers of an honest server. -/
def syncInterrupted (table : HeaderTable P) (chain : List (DirectoryHeader P))
    (anchor : DirectoryAnchor P) (answers : Nat) : HeaderTable P :=
  match table.resumePoint with
  | .error _ => table
  | .ok (next, _) =>
      (table.syncHeaders anchor ((honestReplies chain anchor.lastHeaderHeight
        (anchor.lastHeaderHeight + 1) next).take answers)).1

end HeaderTable

namespace SharedClients

/-- A process which starts over a header table. -/
def fresh (chain : List (DirectoryHeader P)) (headers : HeaderTable P) : SharedClients P :=
  ⟨chain, headers, ∅, ∅, []⟩

/-- `anchor_cache.try_get_with`: an evicted anchor is fetched again. -/
def anchorFor (keys : AnchorKeys P) (state : SharedClients P) (client proofHeight : Nat)
    (evicted : Bool) : Except QueryError (DirectoryAnchor P) :=
  match state.anchorCaches.lookup (client, proofHeight) with
  | none => awaitAnchor keys.anchorPk proofHeight [v1GetAnchor keys state.chain]
  | some anchor =>
      if evicted then awaitAnchor keys.anchorPk proofHeight [v1GetAnchor keys state.chain]
      else .ok anchor

/-- The clients as a machine over the steps of their queries. -/
def machine (keys : AnchorKeys P) : Machine (SharedClients P) (SharedEvent P) where
  step state
    | .commit header =>
        if header.prev = (headerLinking P).tip state.chain then
          some { state with chain := state.chain ++ [header] }
        else none
    | .fetchItem client query =>
        if query ∈ state.queries then none
        else if state.chain = [] then some state
        else
          some { state with
            queries := state.queries.insert query (client, .answered (state.chain.length - 1)) }
    | .fetchAnchor query evicted =>
        match state.queries.lookup query with
        | some (client, .answered proofHeight) =>
            match state.anchorFor keys client proofHeight evicted with
            | .error _ => some { state with queries := state.queries.erase query }
            | .ok anchor =>
                some { state with
                  anchorCaches := state.anchorCaches.insert (client, proofHeight) anchor
                  queries := state.queries.insert query (client, .anchored anchor) }
        | _ => none
    | .sync query =>
        match state.queries.lookup query with
        | some (_, .anchored anchor) =>
            match state.headers.syncHonestly state.chain anchor with
            | (headers, outcome) =>
                some { state with
                  headers := headers
                  queries := state.queries.erase query
                  outcomes := state.outcomes ++ [outcome] }
        | _ => none
    | .drop query answers =>
        match state.queries.lookup query with
        | none => none
        | some (_, .answered _) => some { state with queries := state.queries.erase query }
        | some (_, .anchored anchor) =>
            some { state with
              headers := state.headers.syncInterrupted state.chain anchor answers
              queries := state.queries.erase query }
    | .restart => some { state with anchorCaches := ∅, queries := ∅ }

/-- Every synchronisation so far succeeded. -/
def Synced (state : SharedClients P) : Prop := ∀ outcome ∈ state.outcomes, outcome = .ok ()

/-- A query synchronises only while its anchor is not below the table. -/
def AboveTable (state : SharedClients P) : SharedEvent P → Prop
  | .sync query => ∀ client anchor, state.queries.lookup query = some (client, .anchored anchor) →
      ∀ height, state.headers.maxStoredHeight = some height → height ≤ anchor.lastHeaderHeight
  | _ => True

/-- Everything lies on the chain of the directory. -/
structure OnChain (state : SharedClients P) : Prop where
  linked : (headerLinking P).Linked state.chain
  stored : ∃ stored, stored <+: state.chain ∧ state.headers.Stores stored
  cached : ∀ slot anchor, state.anchorCaches.lookup slot = some anchor →
    HeaderTable.Names state.chain anchor
  waiting : ∀ query client anchor, state.queries.lookup query = some (client, .anchored anchor) →
    HeaderTable.Names state.chain anchor

/-- The anchor of a primary names a header of its chain. -/
theorem names_v1GetAnchor {keys : AnchorKeys P} {chain : List (DirectoryHeader P)}
    {anchor : DirectoryAnchor P} (answered : v1GetAnchor keys chain = some anchor) :
    HeaderTable.Names chain anchor := by
  obtain ⟨header, last, rfl⟩ := Option.map_eq_some_iff.mp answered
  refine ⟨header, ?_, rfl⟩
  rw [← List.getLast?_eq_getElem?]
  exact last

/-- The anchor which a client gets or has cached names a header of the chain. -/
theorem OnChain.names_anchorFor {keys : AnchorKeys P} {state : SharedClients P}
    {client proofHeight : Nat} {evicted : Bool} {anchor : DirectoryAnchor P}
    (onChain : state.OnChain)
    (obtained : state.anchorFor keys client proofHeight evicted = .ok anchor) :
    HeaderTable.Names state.chain anchor := by
  have awaits : awaitAnchor keys.anchorPk proofHeight [v1GetAnchor keys state.chain] = .ok anchor →
      HeaderTable.Names state.chain anchor := by
    intro awaited
    have answered := (awaitAnchor_ok awaited).1
    exact names_v1GetAnchor (List.mem_singleton.mp answered).symm
  rw [anchorFor] at obtained
  split at obtained
  · exact awaits obtained
  · rename_i cachedAnchor found
    split at obtained
    · exact awaits obtained
    · cases obtained
      exact onChain.cached _ _ found

/-- What an interrupted synchronisation leaves is a part of the chain. -/
theorem stores_syncInterrupted {chain stored : List (DirectoryHeader P)} {table : HeaderTable P}
    {anchor : DirectoryAnchor P} (answers : Nat) (within : stored <+: chain)
    (stores : table.Stores stored) :
    ∃ kept, kept <+: chain ∧ (table.syncInterrupted chain anchor answers).Stores kept := by
  have credible : ∀ fuel answers next, HeaderTable.Credible chain anchor.lastHeaderHeight next
      ((HeaderTable.honestReplies chain anchor.lastHeaderHeight fuel next).take answers) := by
    intro fuel
    induction fuel with
    | zero =>
        intro answers next
        rw [HeaderTable.honestReplies, List.take_nil]
        trivial
    | succ fuel ih =>
        intro answers next
        cases answers with
        | zero => trivial
        | succ answers =>
            rw [HeaderTable.honestReplies, List.take_succ_cons]
            intro _ headers answered _ _
            cases answered
            exact ⟨rfl, ih answers _⟩
  rw [HeaderTable.syncInterrupted, stores.resumePoint]
  obtain ⟨kept, held, _, onChain⟩ := stores.syncHeaders_prefix within
    (rfl : table.syncHeaders anchor _ = _)
  exact ⟨kept, onChain.mpr (credible _ answers _), held⟩

/-- A synchronisation succeeds exactly when its anchor is not below the table, and leaves a part
of the chain in any case. -/
theorem syncHonestly_iff (free : P.CollisionFree) {chain stored : List (DirectoryHeader P)}
    {table next : HeaderTable P} {anchor : DirectoryAnchor P} {outcome : Except SyncError Unit}
    (linked : (headerLinking P).Linked chain) (within : stored <+: chain)
    (stores : table.Stores stored) (names : HeaderTable.Names chain anchor)
    (ran : table.syncHonestly chain anchor = (next, outcome)) :
    (∃ kept, kept <+: chain ∧ next.Stores kept) ∧ (outcome = .ok () ↔
      ∀ height, table.maxStoredHeight = some height → height ≤ anchor.lastHeaderHeight) := by
  by_cases short : stored.length ≤ anchor.lastHeaderHeight + 1
  · obtain ⟨done, ranOk, held⟩ := stores.syncHonestly linked within names short
    cases ran.symm.trans ranOk
    refine ⟨⟨_, List.take_prefix _ _, held⟩, iff_of_true rfl ?_⟩
    intro height greatest
    have length := stores.maxStoredHeight.mp greatest
    omega
  · cases ran.symm.trans (stores.syncHonestly_above free linked within names (by omega))
    refine ⟨⟨stored, within, stores⟩, iff_of_false (by simp) ?_⟩
    intro above
    have bound := above (stored.length - 1) (stores.maxStoredHeight.mpr (by omega))
    omega

/-- Every step keeps the clients on the chain. -/
theorem OnChain.step (free : P.CollisionFree) {keys : AnchorKeys P} {state next : SharedClients P}
    {event : SharedEvent P} (onChain : state.OnChain)
    (taken : (machine keys).step state event = some next) : next.OnChain := by
  obtain ⟨stored, within, stores⟩ := onChain.stored
  have erased : ∀ query other client anchor,
      (state.queries.erase query).lookup other = some (client, .anchored anchor) →
        HeaderTable.Names state.chain anchor := fun query other client anchor found =>
    onChain.waiting other client anchor (Table.lookup_of_lookup_erase found)
  cases event with
  | commit header =>
      simp only [machine] at taken
      split at taken
      · rename_i named
        cases taken
        have grown := List.prefix_append state.chain [header]
        exact ⟨Linking.linkedFrom_snoc.mpr ⟨onChain.linked, named⟩,
          ⟨stored, within.trans grown, stores⟩,
          fun slot anchor found => (onChain.cached slot anchor found).grow grown,
          fun query client anchor found => (onChain.waiting query client anchor found).grow grown⟩
      · cases taken
  | fetchItem client query =>
      simp only [machine] at taken
      split at taken
      · cases taken
      · split at taken
        · cases taken
          exact onChain
        · cases taken
          refine ⟨onChain.linked, onChain.stored, onChain.cached, ?_⟩
          intro other otherClient anchor found
          rcases Table.lookup_insert_cases found with ⟨_, same⟩ | found
          · cases same
          · exact onChain.waiting other otherClient anchor found
  | fetchAnchor query evicted =>
      simp only [machine] at taken
      split at taken
      · rename_i client proofHeight asked
        split at taken
        · cases taken
          exact ⟨onChain.linked, onChain.stored, onChain.cached, erased query⟩
        · rename_i anchor obtained
          cases taken
          have names := onChain.names_anchorFor obtained
          refine ⟨onChain.linked, onChain.stored, ?_, ?_⟩
          · intro slot other found
            rcases Table.lookup_insert_cases found with ⟨_, same⟩ | found
            · cases same
              exact names
            · exact onChain.cached slot other found
          · intro other otherClient otherAnchor found
            rcases Table.lookup_insert_cases found with ⟨_, same⟩ | found
            · cases same
              exact names
            · exact onChain.waiting other otherClient otherAnchor found
      · cases taken
  | sync query =>
      simp only [machine] at taken
      split at taken
      · rename_i client anchor asked
        cases taken
        obtain ⟨kept, _⟩ := syncHonestly_iff free onChain.linked within stores
          (onChain.waiting query client anchor asked) rfl
        exact ⟨onChain.linked, kept, onChain.cached, erased query⟩
      · cases taken
  | drop query answers =>
      simp only [machine] at taken
      split at taken
      · cases taken
      · cases taken
        exact ⟨onChain.linked, onChain.stored, onChain.cached, erased query⟩
      · cases taken
        exact ⟨onChain.linked, stores_syncInterrupted answers within stores, onChain.cached,
          erased query⟩
  | restart =>
      cases taken
      exact ⟨onChain.linked, onChain.stored, fun _ _ found => by simp at found,
        fun _ _ _ found => by simp at found⟩

/-- A step adds a failed synchronisation exactly when it is one below the table. -/
theorem OnChain.synced_iff (free : P.CollisionFree) {keys : AnchorKeys P}
    {state next : SharedClients P} {event : SharedEvent P} (onChain : state.OnChain)
    (synced : state.Synced) (taken : (machine keys).step state event = some next) :
    next.Synced ↔ state.AboveTable event := by
  have silent : next.outcomes = state.outcomes → next.Synced := fun same => by
    rw [Synced, same]
    exact synced
  cases event with
  | sync query =>
      obtain ⟨stored, within, stores⟩ := onChain.stored
      simp only [machine] at taken
      split at taken
      · rename_i client anchor asked
        cases taken
        obtain ⟨_, decided⟩ := syncHonestly_iff free onChain.linked within stores
          (onChain.waiting query client anchor asked) rfl
        simp only [Synced, AboveTable, List.forall_mem_append, List.forall_mem_singleton, asked,
          Option.some.injEq, Prod.mk.injEq, QueryStage.anchored.injEq]
        constructor
        · rintro ⟨_, succeeded⟩ _ _ ⟨rfl, rfl⟩
          exact decided.mp succeeded
        · intro above
          exact ⟨synced, decided.mpr (above client anchor ⟨rfl, rfl⟩)⟩
      · cases taken
  | commit header =>
      refine iff_of_true (silent ?_) trivial
      simp only [machine] at taken
      split at taken <;> cases taken
      rfl
  | fetchItem client query =>
      refine iff_of_true (silent ?_) trivial
      simp only [machine] at taken
      split at taken
      · cases taken
      · split at taken <;> cases taken <;> rfl
  | fetchAnchor query evicted =>
      refine iff_of_true (silent ?_) trivial
      simp only [machine] at taken
      split at taken
      · split at taken <;> cases taken <;> rfl
      · cases taken
  | drop query answers =>
      refine iff_of_true (silent ?_) trivial
      simp only [machine] at taken
      split at taken <;> cases taken <;> rfl
  | restart =>
      cases taken
      exact iff_of_true synced trivial

/-- In a run of overlapping queries, from any part of the directory's chain, all synchronisations
succeed exactly when none of them has an anchor below the table. -/
theorem synced_iff_aboveTable (free : P.CollisionFree) (keys : AnchorKeys P)
    {chain stored : List (DirectoryHeader P)} {headers : HeaderTable P}
    (linked : (headerLinking P).Linked chain) (within : stored <+: chain)
    (stores : headers.Stores stored) (events : List (SharedEvent P)) :
    (machine keys).Always Synced (fresh chain headers) events ↔
      (machine keys).Along AboveTable (fresh chain headers) events := by
  have start : (fresh chain headers).OnChain :=
    ⟨linked, ⟨stored, within, stores⟩, fun _ _ found => by simp [fresh] at found,
      fun _ _ _ found => by simp [fresh] at found⟩
  exact Machine.always_iff_along_within OnChain (fun onChain taken => onChain.step free taken)
    (fun onChain synced taken => onChain.synced_iff free synced taken) start
    (fun _ listed => by simp [fresh] at listed)

def symbolicKeys : AnchorKeys symbolic := ⟨"directory", 7, 7⟩

/-- A query has its anchor when the chain grows; another one brings the table up to the new
header first. -/
def overlapRun : List (SharedEvent symbolic) :=
  [.fetchItem 0 0, .fetchAnchor 0 false, .commit DirClient.secondHeader, .fetchItem 0 1,
    .fetchAnchor 1 false, .sync 1, .sync 0]

/-- The fast query succeeds; the slow one ends with a mismatch. -/
theorem outcomes_overlapRun :
    ((machine symbolicKeys).exec (fresh [DirClient.firstHeader] ∅) overlapRun).map outcomes =
      some [.ok (), .error (.anchorMismatch 0)] := by decide +kernel

theorem linked_firstHeader : (headerLinking symbolic).Linked [DirClient.firstHeader] :=
  ⟨rfl, trivial⟩

theorem synced_iff_aboveTable_overlapRun :
    ¬(machine symbolicKeys).Along AboveTable (fresh [DirClient.firstHeader] ∅) overlapRun := by
  rw [← synced_iff_aboveTable symbolic_collisionFree symbolicKeys linked_firstHeader
    List.nil_prefix HeaderTable.stores_empty]
  intro always
  obtain ⟨state, reached, outcomes⟩ := Option.map_eq_some_iff.mp outcomes_overlapRun
  have synced := always.last reached (.error (.anchorMismatch 0)) (by simp [outcomes])
  cases synced

/-- The run with two queries at once leaves one of them without a result. -/
theorem overlapRun_breaks : ¬∀ (keys : AnchorKeys symbolic)
    (chain stored : List (DirectoryHeader symbolic)) (headers : HeaderTable symbolic)
    (events : List (SharedEvent symbolic)), (headerLinking symbolic).Linked chain →
    stored <+: chain → headers.Stores stored →
    (machine keys).Always Synced (fresh chain headers) events := by
  intro property
  obtain ⟨state, reached, outcomes⟩ := Option.map_eq_some_iff.mp outcomes_overlapRun
  have always := property symbolicKeys [DirClient.firstHeader] [] ∅ overlapRun
    linked_firstHeader List.nil_prefix HeaderTable.stores_empty
  have synced := always.last reached (.error (.anchorMismatch 0)) (by simp [outcomes])
  cases synced

end SharedClients
end Nullspace
