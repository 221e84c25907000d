import Nullspace.DirClient.Monotonic
import Nullspace.DirClient.Overlap
import Nullspace.Directory.AppendOnly
import Nullspace.Directory.Atomicity

/-!
# What a primary serves

The database of a primary is a chain as its clients think of one: `DirectoryDb.chain`. Behind
it stands `Primary.Serving`: a tree holds, at the key of a name, the very bytes against which a
client checks the history of the name. It rests on the staging map, which never lists a name
without an update.

`served_verifies` is what a client gets: the answer of a primary to a query verifies with the
anchor of this moment or of any later one, once the headers up to the anchor are there.
-/

namespace Nullspace

open Nullspace.Base

variable {P : Primitives} {S : Smt P}

/-- Every name in the map has an update. -/
def Staging.Filled (staging : Staging P) : Prop :=
  ∀ key list, staging.lookup key = some list → list ≠ []

theorem Staging.filled_empty : (∅ : Staging P).Filled := by
  intro key list found
  simp at found

/-- A pushed update leaves no key without updates. -/
theorem Staging.Filled.push {staging : Staging P} (filled : staging.Filled) (key : String)
    (update : DirectoryUpdate P) : (Staging.push staging key update).Filled := by
  intro other list found
  rcases Table.lookup_insert_cases found with ⟨_, same⟩ | earlier
  · rw [same]
    exact List.append_ne_nil_of_right_ne_nil _ (List.cons_ne_nil _ _)
  · exact filled other list earlier

namespace DirectoryDb

/-- The tree of every header holds the values which clients check. -/
def Spelled (db : DirectoryDb S) : Prop :=
  ∀ height row key, db.headers.lookup height = some row → ∃ history : List (DirectoryUpdate P),
    S.get (S.openTree db.merkle row.header.smtRoot) (keyHash key) = some (historyValue history)

theorem spelled_fresh (store : S.Store) : (fresh (P := P) store).Spelled := by
  intro height row key found
  simp [fresh] at found

/-- A history is loaded from the value which encodes it. -/
theorem loadHistory_of_value {store : S.Store} {root : P.Hash} {key : String}
    {history : List (DirectoryUpdate P)}
    (read : S.get (S.openTree store root) (keyHash key) = some (historyValue history)) :
    loadHistory store root key = .ok history := by
  by_cases empty : history = []
  · subst empty
    simp only [loadHistory, read, historyValue, if_true]
  · rw [historyValue, if_neg empty] at read
    exact loadHistory_of_get read

/-- The value under a history which is read. -/
theorem Spelled.value {db : DirectoryDb S} (spelled : db.Spelled) {height : Nat}
    {row : HeaderRow P} {key : String} {history : List (DirectoryUpdate P)}
    (found : db.headers.lookup height = some row) (read : db.historyAt row key = .ok history) :
    S.get (S.openTree db.merkle row.header.smtRoot) (keyHash key) =
      some (historyValue history) := by
  obtain ⟨other, value⟩ := spelled height row key found
  cases (loadHistory_of_value value).symm.trans read
  exact value

/-- Whether the values are encoded histories depends on the headers and the store only. -/
theorem Spelled.congr {db next : DirectoryDb S} (spelled : db.Spelled)
    (headers : next.headers = db.headers) (merkle : next.merkle = db.merkle) : next.Spelled := by
  intro height row key found
  rw [merkle]
  exact spelled height row key (headers ▸ found)

/-- Writing nodes of the store changes no value under a header. -/
theorem Spelled.nodesOnly (functional : S.Functional []) {db next : DirectoryDb S}
    (spelled : db.Spelled) (nodesOnly : NodesOnly db next) : next.Spelled := by
  rcases nodesOnly with rfl | ⟨tree, merkle, root, stored, rfl⟩
  · exact spelled
  · intro height row key found
    obtain ⟨history, read⟩ := spelled height row key found
    exact ⟨history, functional.get_kept stored read⟩

/-- A commit of updates which name nothing in vain spells out what it writes. -/
theorem Spelled.commitTree (free : P.CollisionFree) (functional : S.Functional [])
    {env : CommitEnv} {updates : Staging P} {db : DirectoryDb S} (spelled : db.Spelled)
    (filled : updates.Filled) {merkle : S.Store} {root : P.Hash}
    (treed : Nullspace.commitTree env updates db = .ok (merkle, root)) (key : String) :
    ∃ history : List (DirectoryUpdate P),
      S.get (S.openTree merkle root) (keyHash key) = some (historyValue history) := by
  obtain ⟨_, _, _, tree, written, stored⟩ := commitTree_ok.mp treed
  obtain ⟨listed, others⟩ :=
    writeBatch_contents free functional (Table.rows_keys_nodup updates) written
  rw [functional.get_committed stored]
  cases present : updates.lookup key with
  | some list =>
      obtain ⟨history, _, read⟩ := listed (key, list) (Table.mem_rows.mpr present)
      refine ⟨history ++ list, read.trans ?_⟩
      rw [historyValue, if_neg]
      exact List.append_ne_nil_of_right_ne_nil _ (filled key list present)
  | none =>
      have apart : ∀ row ∈ updates.rows, keyHash (P := P) row.1 ≠ keyHash key := by
        intro row member same
        have looked : updates.lookup row.1 = some row.2 := Table.mem_rows.mp member
        rw [free.keyHash same, present] at looked
        cases looked
      rw [others _ apart]
      cases last : db.loadLastHeader with
      | none => exact ⟨[], functional.get_empty _ _⟩
      | some found =>
          obtain ⟨height, header⟩ := found
          obtain ⟨row, standing, rfl⟩ := exists_row_of_last last
          exact spelled height row key standing

/-- A successful commit writes encoded histories. -/
theorem Spelled.extended (free : P.CollisionFree) (functional : S.Functional []) {env : CommitEnv}
    {chunk : DirectoryChunk P} {db next : DirectoryDb S} (spelled : db.Spelled)
    (filled : Staging.Filled chunk.updates) (extended : Extended env chunk db next) : next.Spelled := by
  obtain ⟨merkle, treed, inserted⟩ := extended.inserted
  obtain ⟨_, _, rfl⟩ := insertChunk_eq_some.mp inserted
  obtain ⟨_, _, _, _, _, stored⟩ := commitTree_ok.mp treed
  intro height row key found
  rcases Table.lookup_insert_cases found with ⟨_, same⟩ | old
  · rw [same]
    exact spelled.commitTree free functional filled treed key
  · obtain ⟨history, read⟩ := spelled height row key old
    exact ⟨history, functional.get_kept stored read⟩

/-- What stands in one database stands in the other, with the same histories. -/
def Grows (db next : DirectoryDb S) : Prop :=
  ∀ height row, db.headers.lookup height = some row → next.headers.lookup height = some row ∧
    ∀ key, next.historyAt row key = db.historyAt row key

theorem Grows.refl (db : DirectoryDb S) : db.Grows db := fun _ _ found => ⟨found, fun _ => rfl⟩

theorem Grows.trans {first second third : DirectoryDb S} (before : first.Grows second)
    (after : second.Grows third) : first.Grows third := by
  intro height row found
  obtain ⟨later, same⟩ := before height row found
  obtain ⟨latest, again⟩ := after height row later
  exact ⟨latest, fun key => (again key).trans (same key)⟩

/-- A database with the same headers and the same store has not changed for a reader. -/
theorem grows_of_tables {db next : DirectoryDb S} (headers : next.headers = db.headers)
    (merkle : next.merkle = db.merkle) : db.Grows next := by
  intro height row found
  rw [headers]
  refine ⟨found, fun key => ?_⟩
  rw [historyAt, historyAt, merkle]

/-- Writing nodes of the store changes nothing under a header. -/
theorem Ledger.grows_nodesOnly (functional : S.Functional []) {db next : DirectoryDb S}
    (ledger : db.Ledger) (nodesOnly : NodesOnly db next) : db.Grows next := by
  rcases nodesOnly with rfl | ⟨tree, merkle, root, stored, rfl⟩
  · exact Grows.refl _
  · exact fun height row found =>
      ⟨found, fun key => ledger.historyAt_kept functional stored found key⟩

/-- A commit changes nothing under the earlier headers. -/
theorem Ledger.grows_extended (functional : S.Functional []) {env : CommitEnv}
    {chunk : DirectoryChunk P} {db next : DirectoryDb S} (ledger : db.Ledger)
    (extended : Extended env chunk db next) : db.Grows next := by
  obtain ⟨merkle, treed, inserted⟩ := extended.inserted
  obtain ⟨new, _, rfl⟩ := insertChunk_eq_some.mp inserted
  obtain ⟨_, _, _, _, _, stored⟩ := commitTree_ok.mp treed
  intro height row found
  constructor
  · rw [Table.lookup_insert_eq, if_neg, found]
    rintro rfl
    exact new (AList.lookup_isSome.mp (by rw [found]; rfl))
  · exact fun key => loadHistory_kept functional stored (ledger.readable height row found) key

/-- The headers from height 0 up to a height. -/
def headersBelow (db : DirectoryDb S) (height : Nat) : List (DirectoryHeader P) :=
  (List.range height).filterMap fun lower => (db.headers.lookup lower).map HeaderRow.header

def headerChain (db : DirectoryDb S) : List (DirectoryHeader P) :=
  db.headersBelow (nextLink db.loadLastHeader).1

/-- The history of a key in the tree at a height. -/
def historyUnder (db : DirectoryDb S) (height : Nat) (key : String) : List (DirectoryUpdate P) :=
  match db.headers.lookup height with
  | none => []
  | some row => (db.historyAt row key).toOption.getD []

/-- Going one height up adds the header there. -/
theorem headersBelow_succ {db : DirectoryDb S} {height : Nat} {row : HeaderRow P}
    (found : db.headers.lookup height = some row) :
    db.headersBelow (height + 1) = db.headersBelow height ++ [row.header] := by
  rw [headersBelow, headersBelow, List.range_succ, List.filterMap_append]
  simp [found]

/-- There is a row at each height below the next one. -/
theorem Ledger.exists_row {db : DirectoryDb S} (ledger : db.Ledger) {height : Nat}
    (below : height < (nextLink db.loadLastHeader).1) :
    ∃ row, db.headers.lookup height = some row :=
  Option.isSome_iff_exists.mp (AList.lookup_isSome.mpr ((ledger.heights height).mpr below))

/-- Headers are below the next height. -/
theorem Ledger.lt_of_row {db : DirectoryDb S} (ledger : db.Ledger) {height : Nat}
    {row : HeaderRow P} (found : db.headers.lookup height = some row) :
    height < (nextLink db.loadLastHeader).1 :=
  (ledger.heights height).mp (AList.lookup_isSome.mp (by rw [found]; rfl))

/-- In a ledger there is a header at each height. -/
theorem Ledger.length_headersBelow {db : DirectoryDb S} (ledger : db.Ledger) {height : Nat}
    (within : height ≤ (nextLink db.loadLastHeader).1) :
    (db.headersBelow height).length = height := by
  induction height with
  | zero => rfl
  | succ height ih =>
      obtain ⟨row, found⟩ := ledger.exists_row within
      rw [headersBelow_succ found, List.length_append, ih (Nat.le_of_succ_le within)]
      rfl

/-- In a ledger the headers below a height are listed by height. -/
theorem Ledger.getElem?_headersBelow {db : DirectoryDb S} (ledger : db.Ledger) {height lower : Nat}
    (within : height ≤ (nextLink db.loadLastHeader).1) (below : lower < height) :
    (db.headersBelow height)[lower]? = (db.headers.lookup lower).map HeaderRow.header := by
  induction height with
  | zero => omega
  | succ height ih =>
      obtain ⟨row, found⟩ := ledger.exists_row within
      have length := ledger.length_headersBelow (Nat.le_of_succ_le within)
      rw [headersBelow_succ found]
      rcases Nat.lt_succ_iff_lt_or_eq.mp below with under | rfl
      · rw [List.getElem?_append_left (by omega)]
        exact ih (Nat.le_of_succ_le within) under
      · rw [List.getElem?_append_right (by omega), length, Nat.sub_self, found]
        rfl

/-- The headers link up to each height. -/
theorem Ledger.linked_headersBelow {db : DirectoryDb S} (ledger : db.Ledger) {height : Nat}
    (within : height ≤ (nextLink db.loadLastHeader).1) :
    (headerLinking P).Linked (db.headersBelow height) := by
  induction height with
  | zero => trivial
  | succ height ih =>
      obtain ⟨row, found⟩ := ledger.exists_row within
      rw [headersBelow_succ found, Linking.Linked, Linking.linkedFrom_snoc]
      refine ⟨ih (Nat.le_of_succ_le within), ?_⟩
      cases height with
      | zero => exact ledger.appendOnly.genesis row found
      | succ lower =>
          obtain ⟨before, stands⟩ := ledger.exists_row (Nat.lt_of_succ_lt within)
          rw [headersBelow_succ stands, Linking.tipFrom_snoc]
          exact ledger.appendOnly.linked lower before row stands found

/-- The headers of a ledger are linked. -/
theorem Ledger.linked_headerChain {db : DirectoryDb S} (ledger : db.Ledger) :
    (headerLinking P).Linked db.headerChain :=
  ledger.linked_headersBelow (Nat.le_refl _)

/-- There are as many headers as the next height says. -/
theorem Ledger.length_headerChain {db : DirectoryDb S} (ledger : db.Ledger) :
    db.headerChain.length = (nextLink db.loadLastHeader).1 :=
  ledger.length_headersBelow (Nat.le_refl _)

/-- The header at a position of the chain is the one of that height. -/
theorem Ledger.getElem?_headerChain {db : DirectoryDb S} (ledger : db.Ledger) (height : Nat) :
    db.headerChain[height]? = (db.headers.lookup height).map HeaderRow.header := by
  by_cases below : height < (nextLink db.loadLastHeader).1
  · exact ledger.getElem?_headersBelow (Nat.le_refl _) below
  · have absent : db.headers.lookup height = none := by
      rw [AList.lookup_eq_none, ledger.heights]
      exact below
    have length := ledger.length_headerChain
    rw [absent, List.getElem?_eq_none (by omega)]
    rfl

/-- A later database has a longer chain. -/
theorem Grows.headerChain {db next : DirectoryDb S} (grows : db.Grows next) (ledger : db.Ledger)
    (nextLedger : next.Ledger) : db.headerChain <+: next.headerChain := by
  rw [List.prefix_iff_getElem?]
  intro height below
  have here := ledger.getElem?_headerChain height
  rw [List.getElem?_eq_getElem below] at here
  obtain ⟨row, found, same⟩ := Option.map_eq_some_iff.mp here.symm
  rw [nextLedger.getElem?_headerChain, (grows height row found).1, ← same]
  rfl

/-- The history under a height is what its header commits. -/
theorem historyUnder_of_row {db : DirectoryDb S} {height : Nat} {row : HeaderRow P} {key : String}
    {history : List (DirectoryUpdate P)} (found : db.headers.lookup height = some row)
    (read : db.historyAt row key = .ok history) : db.historyUnder height key = history := by
  simp only [historyUnder, found, read]
  rfl

/-- The headers and histories of a database, as clients think of them. -/
def chain (db : DirectoryDb S) (ledger : db.Ledger) (spelled : db.Spelled)
    (complete : S.Complete) : AnchoredChain S where
  headers := db.headerChain
  linked := ledger.linked_headerChain
  committed := db.historyUnder
  proved := by
    intro height header key stands
    rw [ledger.getElem?_headerChain] at stands
    obtain ⟨row, found, rfl⟩ := Option.map_eq_some_iff.mp stands
    obtain ⟨history, read⟩ := spelled height row key found
    rw [historyUnder_of_row found (loadHistory_of_value read)]
    obtain ⟨proof, _, checked⟩ := complete read
    exact ⟨proof, checked⟩

/-- What stands for a name under any header stands in what is committed for it. -/
theorem Ledger.historyUnder_committed {db : DirectoryDb S} (ledger : db.Ledger) (key : String) :
    ∃ history, db.committed key = .ok history ∧
      ∀ height, db.historyUnder height key <+: history := by
  obtain ⟨history, committed⟩ := ledger.sound.decodes key
  refine ⟨history, committed, ?_⟩
  cases last : db.loadLastHeader with
  | none =>
      intro height
      have absent : db.headers.lookup height = none := by
        rw [AList.lookup_eq_none, ledger.heights, last]
        exact Nat.not_lt_zero _
      simp only [historyUnder, absent]
      exact List.nil_prefix
  | some pair =>
      obtain ⟨top, header⟩ := pair
      obtain ⟨topRow, topFound, rfl⟩ := exists_row_of_last last
      have topRead : db.historyAt topRow key = .ok history := by
        rw [DirectoryDb.committed, last] at committed
        exact committed
      -- From a height up to the top, one header at a time.
      have upward : ∀ more height, height + more = top →
          db.historyUnder height key <+: history := by
        intro more
        induction more with
        | zero =>
            intro height reaches
            rw [Nat.add_zero] at reaches
            rw [reaches, historyUnder_of_row topFound topRead]
        | succ more ih =>
            intro height reaches
            have bound : height + 1 < (nextLink db.loadLastHeader).1 := by
              rw [last]
              simp only [nextLink]
              omega
            obtain ⟨lower, lowerFound⟩ := ledger.exists_row (Nat.lt_of_succ_lt bound)
            obtain ⟨upper, upperFound⟩ := ledger.exists_row bound
            obtain ⟨before, lowerRead, _⟩ := ledger.appendOnly.valid height lower key lowerFound
            obtain ⟨after, upperRead, _⟩ := ledger.appendOnly.valid (height + 1) upper key upperFound
            have onward := ih (height + 1) (by omega)
            rw [historyUnder_of_row upperFound upperRead] at onward
            rw [historyUnder_of_row lowerFound lowerRead]
            exact (ledger.appendOnly.grows height lower upper key before after lowerFound upperFound
              lowerRead upperRead).trans onward
      intro height
      cases found : db.headers.lookup height with
      | none =>
          simp only [historyUnder, found]
          exact List.nil_prefix
      | some row =>
          have below := ledger.lt_of_row found
          rw [last] at below
          simp only [nextLink] at below
          exact upward (top - height) height (by omega)

/-- `v1_get_anchor` of a primary. -/
def v1GetAnchor (keys : AnchorKeys P) (db : DirectoryDb S) : Option (DirectoryAnchor P) :=
  db.loadLastHeader.map fun (height, header) =>
    ⟨keys.directoryId, height, header.hash,
      P.sign keys.secretKey (Bcs.toBytes (keys.directoryId, UInt64.ofNat height, header.hash))⟩

/-- It is the anchor of the chain. -/
theorem Ledger.v1GetAnchor_headerChain {db : DirectoryDb S} (ledger : db.Ledger)
    (keys : AnchorKeys P) : Nullspace.v1GetAnchor keys db.headerChain = db.v1GetAnchor keys := by
  rw [Nullspace.v1GetAnchor, v1GetAnchor, List.getLast?_eq_getElem?, ledger.getElem?_headerChain,
    ledger.length_headerChain]
  cases last : db.loadLastHeader with
  | none =>
      have absent : db.headers.lookup 0 = none := by
        rw [AList.lookup_eq_none, ledger.heights, last]
        exact Nat.not_lt_zero _
      simp only [nextLink, absent, Option.map_none]
  | some pair =>
      obtain ⟨height, header⟩ := pair
      obtain ⟨row, found, rfl⟩ := exists_row_of_last last
      have stands : db.headers.lookup (height + 1 - 1) = some row := found
      simp only [nextLink, stands, Option.map_some, Nat.add_sub_cancel]

/-- An anchor is signed by the directory's key. -/
theorem verify_v1GetAnchor (signs : P.SignsCorrectly) {db : DirectoryDb S} {keys : AnchorKeys P}
    (own : keys.anchorPk = P.publicKey keys.secretKey) {anchor : DirectoryAnchor P}
    (anchored : db.v1GetAnchor keys = some anchor) :
    Signable.verify anchor keys.anchorPk = true := by
  obtain ⟨⟨height, header⟩, _, rfl⟩ := Option.map_eq_some_iff.mp anchored
  rw [own]
  exact signs _ _

/-- The anchor of a database names a header of the chain of any later one. -/
theorem Grows.names_anchor {db next : DirectoryDb S} (grows : db.Grows next) (ledger : db.Ledger)
    (nextLedger : next.Ledger) {keys : AnchorKeys P} {anchor : DirectoryAnchor P}
    (anchored : db.v1GetAnchor keys = some anchor) :
    HeaderTable.Names next.headerChain anchor := by
  rw [← ledger.v1GetAnchor_headerChain] at anchored
  exact (SharedClients.names_v1GetAnchor anchored).grow (grows.headerChain ledger nextLedger)

end DirectoryDb

namespace Primary

/-- What every run of a primary keeps of what it serves. -/
structure Serving (state : Primary S) : Prop where
  ledger : state.db.Ledger
  spelled : state.db.Spelled
  staged : Staging.Filled state.staging
  taken : ∀ updates, state.committing = some updates → Staging.Filled updates

theorem serving_fresh (store : S.Store) : (fresh (P := P) store).Serving where
  ledger := DirectoryDb.ledger_fresh store
  spelled := DirectoryDb.spelled_fresh store
  staged := Staging.filled_empty
  taken _ running := by cases running

/-- A step keeps what is served, and the database only grows. -/
theorem Serving.step (free : P.CollisionFree) (functional : S.Functional [])
    {equixVerify : Bytes → Bytes → Bool} {state next : Primary S} {event : PrimaryEvent P}
    (serving : state.Serving) (taken : (machine equixVerify).step state event = some next) :
    next.Serving ∧ state.db.Grows next.db := by
  have ledger := ledger_step free functional serving.ledger taken
  cases event with
  | getPowSeed seed now inserted purged =>
      cases taken
      obtain ⟨headers, _, merkle⟩ := v1GetPowSeed_keeps state.db seed now inserted purged
      exact ⟨⟨ledger, serving.spelled.congr headers merkle, serving.staged, serving.taken⟩,
        DirectoryDb.grows_of_tables headers merkle⟩
  | insertRead call env key update solution =>
      have keeps := insertRead_keeps equixVerify env state.db key solution
      obtain ⟨_, ⟨db, err, read, rfl⟩ | ⟨db, history, read, rfl⟩⟩ := step_insertRead taken
      · rw [read] at keeps
        exact ⟨⟨ledger, serving.spelled.congr keeps.1 keeps.2.2, serving.staged, serving.taken⟩,
          DirectoryDb.grows_of_tables keeps.1 keeps.2.2⟩
      · rw [read] at keeps
        exact ⟨⟨ledger, serving.spelled.congr keeps.1 keeps.2.2, serving.staged, serving.taken⟩,
          DirectoryDb.grows_of_tables keeps.1 keeps.2.2⟩
  | insertPush call =>
      obtain ⟨insert, _, ⟨_, _, _, rfl⟩ | ⟨staging, pushed, _, rfl⟩⟩ := step_insertPush taken
      · exact ⟨⟨ledger, serving.spelled, serving.staged, serving.taken⟩, DirectoryDb.Grows.refl _⟩
      · obtain ⟨_, rfl⟩ := insertPush_eq_ok.mp pushed
        exact ⟨⟨ledger, serving.spelled, serving.staged.push insert.key insert.update,
          serving.taken⟩, DirectoryDb.Grows.refl _⟩
  | commitTake =>
      obtain ⟨_, rfl⟩ := step_commitTake taken
      refine ⟨⟨ledger, serving.spelled, Staging.filled_empty, ?_⟩, DirectoryDb.Grows.refl _⟩
      intro updates running
      cases running
      exact serving.staged
  | commitFinish env =>
      obtain ⟨updates, running, rfl⟩ := step_commitFinish taken
      have filled := serving.taken updates running
      rcases commitChunk_cases env updates state.db with ⟨header, extended⟩ | nodesOnly
      · exact ⟨⟨ledger, serving.spelled.extended free functional filled extended, serving.staged,
          fun _ more => by cases more⟩, serving.ledger.grows_extended functional extended⟩
      · exact ⟨⟨ledger, serving.spelled.nodesOnly functional nodesOnly, serving.staged,
          fun _ more => by cases more⟩, serving.ledger.grows_nodesOnly functional nodesOnly⟩

/-- A run keeps what is served, and what is under the earlier headers. -/
theorem Serving.exec (free : P.CollisionFree) (functional : S.Functional [])
    {equixVerify : Bytes → Bytes → Bool} {state final : Primary S} {events : List (PrimaryEvent P)}
    (serving : state.Serving) (reached : (machine equixVerify).exec state events = some final) :
    final.Serving ∧ state.db.Grows final.db := by
  refine Machine.inv_of_exec (fun later : Primary S => later.Serving ∧ state.db.Grows later.db)
    ?_ ⟨serving, DirectoryDb.Grows.refl _⟩ reached
  rintro later event next rest ⟨held, grown⟩ taken _
  obtain ⟨kept, grows⟩ := held.step free functional taken
  exact ⟨kept, grown.trans grows⟩

/-- The primary answers a query with what it has committed, and with a proof of it. -/
theorem Serving.v1GetItem (complete : S.Complete) (compress : S.Proof → Bytes)
    {state : Primary S} (serving : state.Serving) {height : Nat} {header : DirectoryHeader P}
    (head : state.db.loadLastHeader = some (height, header)) (key : String) :
    ∃ history proof, state.db.committed key = .ok history ∧
      Nullspace.v1GetItem compress false state.db key = .ok ⟨history, height, compress proof⟩ ∧
      S.check proof header.smtRoot (DirectoryDb.keyHash key) (historyValue history) = true := by
  obtain ⟨row, found, rfl⟩ := DirectoryDb.exists_row_of_last head
  obtain ⟨history, read⟩ := serving.spelled height row key found
  have loaded := DirectoryDb.loadHistory_of_value read
  obtain ⟨proof, proved, checked⟩ := complete read
  refine ⟨history, proof, ?_, ?_, checked⟩
  · rw [DirectoryDb.committed, head]
    exact loaded
  · simp only [Nullspace.v1GetItem, head, buildHistoryAndProof, proved, loaded, Bool.false_eq_true,
      if_false]

/-- A primary answers a query at any moment of a run. With the anchor which it gives at this
moment or at any later one, a client whose table holds some part of the chain gets through
every check, and is told what was committed. -/
theorem served_verifies (free : P.CollisionFree) (functional : S.Functional [])
    (complete : S.Complete) (signs : P.SignsCorrectly) (compress : S.Proof → Bytes)
    (decompress : Bytes → Option S.Proof)
    (lossless : ∀ proof, decompress (compress proof) = some proof)
    {equixVerify : Bytes → Bytes → Bool} {store : S.Store} {before after : List (PrimaryEvent P)}
    {served later : Primary S}
    (reached : (machine equixVerify).exec (fresh store) before = some served)
    (onward : (machine equixVerify).exec served after = some later)
    {height : Nat} {header : DirectoryHeader P}
    (head : served.db.loadLastHeader = some (height, header)) {keys : AnchorKeys P}
    (own : keys.anchorPk = P.publicKey keys.secretKey) {anchor : DirectoryAnchor P}
    (anchored : later.db.v1GetAnchor keys = some anchor) {table : HeaderTable P}
    {stored : List (DirectoryHeader P)} (stores : table.Stores stored)
    (within : stored <+: later.db.headerChain) (key : String) :
    ∃ response, Nullspace.v1GetItem compress false served.db key = .ok response ∧
      served.db.committed key = .ok response.history ∧
      awaitAnchor keys.anchorPk response.proofHeight [some anchor] = .ok anchor ∧
      ∃ synced, table.syncHonestly later.db.headerChain anchor = (synced, .ok ()) ∧
        verifyResponse decompress synced key anchor response = .ok () := by
  obtain ⟨serving, _⟩ := (serving_fresh store).exec free functional reached
  obtain ⟨laterServing, grows⟩ := serving.exec free functional onward
  obtain ⟨history, proof, committed, answered, checked⟩ :=
    serving.v1GetItem complete compress head key
  obtain ⟨row, found, rfl⟩ := DirectoryDb.exists_row_of_last head
  have standing := (grows height row found).1
  have names := (DirectoryDb.Grows.refl later.db).names_anchor laterServing.ledger
    laterServing.ledger anchored
  have whole : later.db.headerChain.length = anchor.lastHeaderHeight + 1 := by
    obtain ⟨⟨top, last⟩, there, rfl⟩ := Option.map_eq_some_iff.mp anchored
    rw [laterServing.ledger.length_headerChain, there]
    rfl
  have reaches : height < anchor.lastHeaderHeight + 1 := by
    have onChain := laterServing.ledger.getElem?_headerChain height
    rw [standing] at onChain
    rw [← whole]
    exact (List.getElem?_eq_some_iff.mp onChain).1
  obtain ⟨synced, ran, held⟩ := stores.syncHonestly laterServing.ledger.linked_headerChain within
    names (whole ▸ within.length_le)
  refine ⟨_, answered, committed, ?_, synced, ran, ?_⟩
  · have signed := DirectoryDb.verify_v1GetAnchor signs own anchored
    simp only [awaitAnchor, signed, Bool.not_true, Bool.false_eq_true, if_false]
    rw [if_neg]
    exact Nat.not_lt.mpr (Nat.le_of_lt_succ reaches)
  · refine verifyResponse_ok.mpr ⟨Nat.le_of_lt_succ reaches, row.header, ?_, proof, lossless proof,
      checked⟩
    rw [held.loadHeader, List.getElem?_take_of_lt reaches, laterServing.ledger.getElem?_headerChain,
      standing]
    rfl

/-- In the run in which the update is staged when the query is answered, the answer still verifies
against a later anchor. -/
theorem served_verifies_staged : ∃ served later : Primary symbolicSmt, ∃ anchor response synced,
    symbolicRun acceptedRun = some served ∧
      (machine fun _ _ => true).exec served [.commitTake, .commitFinish quietCommit] = some later ∧
      later.db.v1GetAnchor SharedClients.symbolicKeys = some anchor ∧
      anchor.lastHeaderHeight = 1 ∧
      Nullspace.v1GetItem (fun _ => []) false served.db "@alice" = .ok response ∧
      HeaderTable.syncHonestly ∅ later.db.headerChain anchor = (synced, .ok ()) ∧
      verifyResponse (S := symbolicSmt) (fun _ => some ()) synced "@alice" anchor response =
        .ok () := by
  have heads : (symbolicRun acceptedRun).bind (fun served =>
      ((machine fun _ _ => true).exec served [.commitTake, .commitFinish quietCommit]).map
        fun later => (served.db.loadLastHeader.map Prod.fst,
          (later.db.v1GetAnchor SharedClients.symbolicKeys).map DirectoryAnchor.lastHeaderHeight)) =
      some (some 0, some 1) := by decide +kernel
  obtain ⟨served, reached, onward⟩ := Option.bind_eq_some_iff.mp heads
  obtain ⟨later, went, read⟩ := Option.map_eq_some_iff.mp onward
  obtain ⟨before, after⟩ := Prod.mk.inj read
  obtain ⟨⟨height, header⟩, head, rfl⟩ := Option.map_eq_some_iff.mp before
  obtain ⟨anchor, anchored, high⟩ := Option.map_eq_some_iff.mp after
  obtain ⟨response, answered, _, _, synced, ran, verified⟩ :=
    served_verifies symbolic_collisionFree symbolicSmt_functional symbolicSmt_complete
      symbolic_signsCorrectly (fun _ => []) (fun _ => some ()) (fun _ => rfl) reached went head rfl
      anchored HeaderTable.stores_empty List.nil_prefix "@alice"
  exact ⟨served, later, anchor, response, synced, reached, went, anchored, high, answered, ran,
    verified⟩

end Primary
end Nullspace
