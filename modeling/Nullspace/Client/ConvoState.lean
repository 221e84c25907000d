import Nullspace.Client.Pages

/-!
# The chat view

A `ConvoState` holds the messages of one conversation which have been fetched. A refresh asks
for what is above the newest received message, gets the newest rows of that range, and goes on
above them.
-/

namespace Nullspace

open Nullspace.Base

variable {P : Primitives}

structure ConvoState (P : Primitives) where
  messages : Table Nat (MessageView P)
  oldestId : Option Nat
  latestReceivedId : Option Nat
  initialized : Bool
  noMoreOlder : Bool

/-- `INITIAL_LIMIT`. -/
def initialLimit : UInt16 := 100

/-- `PAGE_LIMIT`. -/
def pageLimit : UInt16 := 10

namespace ConvoState

/-- `ConvoState::default`. -/
def empty : ConvoState P := ⟨∅, none, none, false, false⟩

/-- One turn of the loop of `apply_messages`. -/
def applyMessage (state : ConvoState P) (msg : MessageView P) : ConvoState P :=
  { state with
    latestReceivedId :=
      if msg.receivedAt.isSome then
        some (state.latestReceivedId.elim msg.id fun id => max id msg.id)
      else state.latestReceivedId
    oldestId := some (state.oldestId.elim msg.id fun id => min id msg.id)
    messages := state.messages.insert msg.id msg }

def applyMessages (state : ConvoState P) (messages : List (MessageView P)) : ConvoState P :=
  messages.foldl applyMessage state

/-- Where a refresh begins. -/
def refreshAfter (state : ConvoState P) : Int :=
  match state.latestReceivedId with
  | none => 0
  | some id => if (id : Int) + 1 < 2 ^ 63 then id + 1 else 0

section

variable (json : JsonReader P) (convo : ConvoId P)

/-- `load_initial`. There is no result when the process aborts. -/
def loadInitial (env : ReadEnv P) (state : ConvoState P) (db : ClientDb P) :
    Option (ClientDb P × ConvoState P) :=
  match db.convoHistory json env convo none none initialLimit with
  | (_, .error .aborted) => none
  | (next, .error _) => some (next, state)
  | (next, .ok messages) => some (next, { state.applyMessages messages with initialized := true })

/-- The loop of `refresh_newer`, with what its fetches meet one after the other, and whether
it ends without an error. There is no result when the process aborts or still fetches. -/
def refreshLoop : List (ReadEnv P) → Int → ConvoState P → ClientDb P →
    Option (ClientDb P × ConvoState P × Bool)
  | [], _, _, _ => none
  | env :: later, after, state, db =>
      match db.convoHistory json env convo none (some after) pageLimit with
      | (_, .error .aborted) => none
      | (next, .error _) => some (next, state, false)
      | (next, .ok messages) =>
          match messages.getLast? with
          | none => some (next, state, true)
          | some last =>
              -- The release profile checks for overflows too.
              if (last.id : Int) + 1 < 2 ^ 63 then
                refreshLoop later (last.id + 1) (state.applyMessages messages) next
              else none

/-- `refresh_newer`. -/
def refreshNewer (envs : List (ReadEnv P)) (state : ConvoState P) (db : ClientDb P) :
    Option (ClientDb P × ConvoState P × Bool) :=
  refreshLoop json convo envs state.refreshAfter state db

/-- `load_older`. Identifiers of rows are above the least `i64`. -/
def loadOlder (env : ReadEnv P) (state : ConvoState P) (db : ClientDb P) :
    Option (ClientDb P × ConvoState P) :=
  if state.noMoreOlder then some (db, state)
  else
    match state.oldestId with
    | none => some (db, { state with noMoreOlder := true })
    | some oldestId =>
        match db.convoHistory json env convo (some ((oldestId : Int) - 1)) none pageLimit with
        | (_, .error .aborted) => none
        | (next, .error _) => some (next, state)
        | (next, .ok messages) =>
            some (next,
              if messages.isEmpty then { state with noMoreOlder := true }
              else state.applyMessages messages)

end

/-- At or above `oldest_id`. -/
def covers (state : ConvoState P) (id : Nat) : Bool :=
  state.oldestId.any fun oldestId => decide (oldestId ≤ id)

/-- A displayable message at or above `oldest_id` which is not in the state. -/
def Missing (json : JsonReader P) (convo : ConvoId P) (db : ClientDb P) (state : ConvoState P)
    (id : Nat) : Prop :=
  id ∈ db.displayableIds json convo ∧ state.covers id = true ∧ id ∉ state.messages

/-! ## Applied pages and calls -/

/-- The marks are those of messages in the state. -/
structure Marked (state : ConvoState P) : Prop where
  oldest : ∀ id ∈ state.messages, state.covers id = true
  held : ∀ oldestId, state.oldestId = some oldestId → oldestId ∈ state.messages
  latest : ∀ id, state.latestReceivedId = some id → id ∈ state.messages

theorem marked_empty : (empty : ConvoState P).Marked := by
  constructor
  · intro id listed
    cases listed
  · intro oldestId same
    cases same
  · intro id same
    cases same

/-- An identifier is covered when a message at or below it is there. -/
theorem Marked.covers_iff {state : ConvoState P} (marked : state.Marked) {id : Nat} :
    state.covers id = true ↔ ∃ held ∈ state.messages, held ≤ id := by
  constructor
  · intro covered
    obtain ⟨oldestId, same, below⟩ := (Option.any_eq_true _ _).mp covered
    exact ⟨oldestId, marked.held oldestId same, of_decide_eq_true below⟩
  · rintro ⟨held, listed, below⟩
    obtain ⟨oldestId, same, least⟩ := (Option.any_eq_true _ _).mp (marked.oldest held listed)
    refine (Option.any_eq_true _ _).mpr ⟨oldestId, same, decide_eq_true ?_⟩
    exact (of_decide_eq_true least).trans below

/-- An applied message is the only new one. -/
theorem mem_applyMessage {state : ConvoState P} {msg : MessageView P} {id : Nat} :
    id ∈ (state.applyMessage msg).messages ↔ id = msg.id ∨ id ∈ state.messages :=
  AList.mem_insert _

/-- An applied message is marked. -/
theorem Marked.applyMessage {state : ConvoState P} (marked : state.Marked)
    (msg : MessageView P) : (state.applyMessage msg).Marked := by
  constructor
  · intro id listed
    rw [covers, ConvoState.applyMessage, Option.any_some, decide_eq_true_eq]
    cases oldest : state.oldestId with
    | none =>
        rcases mem_applyMessage.mp listed with rfl | earlier
        · exact le_rfl
        · have covered := marked.oldest id earlier
          rw [covers, oldest] at covered
          cases covered
    | some oldestId =>
        rcases mem_applyMessage.mp listed with rfl | earlier
        · exact min_le_right _ _
        · have covered := marked.oldest id earlier
          rw [covers, oldest, Option.any_some, decide_eq_true_eq] at covered
          exact (min_le_left _ _).trans covered
  · rintro oldestId same
    rw [mem_applyMessage]
    cases oldest : state.oldestId with
    | none =>
        rw [ConvoState.applyMessage, oldest] at same
        cases same
        exact Or.inl rfl
    | some earlier =>
        rw [ConvoState.applyMessage, oldest] at same
        cases same
        rcases min_choice earlier msg.id with least | least
        · rw [Option.elim_some, least]
          exact Or.inr (marked.held earlier oldest)
        · rw [Option.elim_some, least]
          exact Or.inl rfl
  · intro id same
    rw [mem_applyMessage]
    rw [ConvoState.applyMessage] at same
    dsimp only at same
    split at same
    · cases latest : state.latestReceivedId with
      | none =>
          rw [latest] at same
          cases same
          exact Or.inl rfl
      | some earlier =>
          rw [latest] at same
          cases same
          rcases max_choice earlier msg.id with greatest | greatest
          · rw [Option.elim_some, greatest]
            exact Or.inr (marked.latest earlier latest)
          · rw [Option.elim_some, greatest]
            exact Or.inl rfl
    · exact Or.inr (marked.latest id same)

/-- Applied messages are those of before and the new ones. -/
theorem mem_applyMessages {state : ConvoState P} {messages : List (MessageView P)} {id : Nat} :
    id ∈ (state.applyMessages messages).messages ↔
      id ∈ state.messages ∨ id ∈ messages.map MessageView.id := by
  induction messages generalizing state with
  | nil => simp [applyMessages]
  | cons first rest ih =>
      rw [applyMessages, List.foldl_cons, ← applyMessages, ih, mem_applyMessage, List.map_cons,
        List.mem_cons]
      tauto

/-- What is looked up afterwards is from the page or was there, and is not on the page then. -/
theorem of_lookup_applyMessages {state : ConvoState P} {messages : List (MessageView P)} {id : Nat}
    {msg : MessageView P}
    (looked : (state.applyMessages messages).messages.lookup id = some msg) :
    (msg ∈ messages ∧ msg.id = id) ∨
      (id ∉ messages.map MessageView.id ∧ state.messages.lookup id = some msg) := by
  induction messages generalizing state with
  | nil => exact Or.inr ⟨List.not_mem_nil, looked⟩
  | cons first rest ih =>
      rw [applyMessages, List.foldl_cons, ← applyMessages] at looked
      rcases ih looked with ⟨listed, same⟩ | ⟨absent, earlier⟩
      · exact Or.inl ⟨List.mem_cons_of_mem _ listed, same⟩
      · rw [applyMessage] at earlier
        dsimp only at earlier
        by_cases same : id = first.id
        · subst same
          rw [AList.lookup_insert] at earlier
          cases earlier
          exact Or.inl ⟨List.mem_cons_self, rfl⟩
        · rw [AList.lookup_insert_ne same] at earlier
          refine Or.inr ⟨?_, earlier⟩
          rw [List.map_cons, List.mem_cons, not_or]
          exact ⟨same, absent⟩

/-- A message which is not applied again stays as it was. -/
theorem lookup_applyMessages_of_notMem {state : ConvoState P} {messages : List (MessageView P)}
    {id : Nat} (absent : id ∉ messages.map MessageView.id) :
    (state.applyMessages messages).messages.lookup id = state.messages.lookup id := by
  induction messages generalizing state with
  | nil => rfl
  | cons first rest ih =>
      rw [List.map_cons, List.mem_cons, not_or] at absent
      rw [applyMessages, List.foldl_cons, ← applyMessages, ih absent.2, applyMessage]
      exact AList.lookup_insert_ne absent.1

/-- Applied messages are marked. -/
theorem Marked.applyMessages {state : ConvoState P} (marked : state.Marked)
    (messages : List (MessageView P)) : (state.applyMessages messages).Marked := by
  induction messages generalizing state with
  | nil => exact marked
  | cons first rest ih => exact ih (marked.applyMessage first)

section

variable {json : JsonReader P} {convo : ConvoId P} {env : ReadEnv P} {db : ClientDb P}
  {state : ConvoState P}

/-- A page shows each displayable row which is new to the state, unless no older one is shown
then. -/
def Keeps (json : JsonReader P) (env : ReadEnv P) (state : ConvoState P)
    (page : List ConvoMessage) : Prop :=
  ∀ row ∈ page, row.displayable json = true → row.id ∉ state.messages →
    (state.covers row.id = true ∨ ∃ shown ∈ page, shown.shows json env = true ∧
      shown.id < row.id) → row.shows json env = true

/-- The state has displayable messages of the conversation only. -/
structure Holds (json : JsonReader P) (convo : ConvoId P) (db : ClientDb P)
    (state : ConvoState P) : Prop where
  marked : state.Marked
  within : ∀ id ∈ state.messages, id ∈ db.displayableIds json convo

/-- The identifiers of a fetched page are those of its rows which are decoded. -/
theorem fetched_ids {before after : Option Int} {limit : UInt16} {next : ClientDb P}
    {messages : List (MessageView P)}
    (fetched : db.convoHistory json env convo before after limit = (next, .ok messages)) :
    env.queryFails = false ∧ messages.map MessageView.id =
      ((db.historyRows convo before after limit).filter fun row => row.shows json env).map
        ConvoMessage.id := by
  rw [ClientDb.convoHistory] at fetched
  split at fetched
  · cases fetched
  · rename_i calm
    exact ⟨Bool.not_eq_true _ ▸ calm, ClientDb.showRows_ids fetched⟩

/-- A fetched message is a row of its page which is shown. -/
theorem mem_fetched {before after : Option Int} {limit : UInt16} {next : ClientDb P}
    {messages : List (MessageView P)}
    (fetched : db.convoHistory json env convo before after limit = (next, .ok messages)) {id : Nat} :
    id ∈ messages.map MessageView.id ↔
      ∃ row ∈ db.historyRows convo before after limit, row.shows json env = true ∧ row.id = id := by
  rw [(fetched_ids fetched).2]
  simp only [List.mem_map, List.mem_filter, and_assoc]

/-- A page of the conversation brings messages of the conversation only. -/
theorem Holds.applyPage (holds : state.Holds json convo db) (filed : db.Filed)
    (ids : (db.convoMessages.map ConvoMessage.id).Nodup) {before after : Option Int}
    {limit : UInt16} {next : ClientDb P} {messages : List (MessageView P)}
    (fetched : db.convoHistory json env convo before after limit = (next, .ok messages)) :
    (state.applyMessages messages).Holds json convo db := by
  refine ⟨holds.marked.applyMessages messages, ?_⟩
  intro id listed
  rcases mem_applyMessages.mp listed with earlier | new
  · exact holds.within id earlier
  · obtain ⟨row, paged, shown, rfl⟩ := (mem_fetched fetched).mp new
    rw [ConvoMessage.shows, Bool.and_eq_true] at shown
    exact ClientDb.mem_displayableIds.mpr
      ⟨row, ((filed.mem_historyRows ids).mp paged).1, shown.1, rfl⟩

/-- What is missing after a page was missing before it, and is not on the page. -/
theorem Missing.of_applyPage (holds : state.Holds json convo db) (filed : db.Filed)
    (ids : (db.convoMessages.map ConvoMessage.id).Nodup) {before after : Option Int}
    {limit : UInt16} {next : ClientDb P} {messages : List (MessageView P)}
    (fetched : db.convoHistory json env convo before after limit = (next, .ok messages))
    (keeps : Keeps json env state (db.historyRows convo before after limit)) {id : Nat}
    (reach : (id : Int) ≤ before.getD (2 ^ 63 - 1) ∨ state.covers id = true)
    (missing : (state.applyMessages messages).Missing json convo db id) :
    state.Missing json convo db id ∧
      ∀ row ∈ db.historyRows convo before after limit, row.id ≠ id := by
  obtain ⟨shownId, covered, absent⟩ := missing
  obtain ⟨held, listed, below⟩ := (holds.marked.applyMessages messages).covers_iff.mp covered
  rw [mem_applyMessages, not_or] at absent
  rw [mem_applyMessages, mem_fetched fetched] at listed
  obtain ⟨row, joined, decodes, rfl⟩ := ClientDb.mem_displayableIds.mp shownId
  have apart : held ≠ row.id := by
    rintro rfl
    rcases listed with earlier | new
    · exact absent.1 earlier
    · exact absent.2 ((mem_fetched fetched).mpr new)
  have unpaged : row ∉ db.historyRows convo before after limit := by
    intro paged
    refine absent.2 ((mem_fetched fetched).mpr ⟨row, paged, ?_, rfl⟩)
    apply keeps row paged decodes absent.1
    rcases listed with earlier | ⟨other, otherPaged, shown, rfl⟩
    · exact Or.inl (holds.marked.covers_iff.mpr ⟨held, earlier, below⟩)
    · exact Or.inr ⟨other, otherPaged, shown, by omega⟩
  refine ⟨⟨shownId, ?_, absent.1⟩, ?_⟩
  · rcases listed with earlier | ⟨other, otherPaged, shown, rfl⟩
    · exact holds.marked.covers_iff.mpr ⟨held, earlier, below⟩
    · rcases reach with inside | covering
      · exact absurd (filed.historyRows_upward ids otherPaged joined below inside) unpaged
      · exact covering
  · intro other otherPaged same
    have listedOther := (ClientDb.mem_joinedMessages.mp
      ((filed.mem_historyRows ids).mp otherPaged).1).1
    have unique : other = row :=
      List.inj_on_of_nodup_map ids listedOther (ClientDb.mem_joinedMessages.mp joined).1 same
    exact unpaged (unique ▸ otherPaged)

/-- Messages which the state has already change nothing about what is missing. -/
theorem Missing.of_known (holds : state.Holds json convo db) {messages : List (MessageView P)}
    (known : ∀ id ∈ messages.map MessageView.id, id ∈ state.messages) {id : Nat}
    (missing : (state.applyMessages messages).Missing json convo db id) :
    state.Missing json convo db id := by
  obtain ⟨shownId, covered, absent⟩ := missing
  obtain ⟨held, listed, below⟩ := (holds.marked.applyMessages messages).covers_iff.mp covered
  rw [mem_applyMessages, not_or] at absent
  refine ⟨shownId, holds.marked.covers_iff.mpr ⟨held, ?_, below⟩, absent.1⟩
  rcases mem_applyMessages.mp listed with earlier | new
  · exact earlier
  · exact known held new

/-- A state and the database which its messages are from. -/
structure Opened (json : JsonReader P) (convo : ConvoId P) (db : ClientDb P)
    (state : ConvoState P) : Prop where
  filed : db.Filed
  ids : (db.convoMessages.map ConvoMessage.id).Nodup
  bounded : ∀ row ∈ db.convoMessages, row.id < 2 ^ 63
  holds : state.Holds json convo db

/-- Everything which is missing is newer than what is there. -/
def Gapless (json : JsonReader P) (convo : ConvoId P) (db : ClientDb P)
    (state : ConvoState P) : Prop :=
  ∀ id, state.Missing json convo db id → ∀ held ∈ state.messages, held < id

/-- A page of the newest rows has what is missing. -/
structure Fits (json : JsonReader P) (convo : ConvoId P) (env : ReadEnv P) (db : ClientDb P)
    (state : ConvoState P) (after : Option Int) (limit : UInt16) : Prop where
  few : ∀ id, state.Missing json convo db id → db.newerRows convo id < limit.toNat
  keeps : Keeps json env state (db.historyRows convo none after limit)

theorem Opened.of_onlyRoots {next : ClientDb P} (opened : state.Opened json convo db)
    (only : ClientDb.OnlyRoots db next) : state.Opened json convo next := by
  refine ⟨only.filed opened.filed, ?_, ?_, opened.holds.marked, ?_⟩
  · rw [only.messages]
    exact opened.ids
  · rw [only.messages]
    exact opened.bounded
  · rw [only.displayableIds]
    exact opened.holds.within

theorem missing_of_onlyRoots {next : ClientDb P} (only : ClientDb.OnlyRoots db next) {id : Nat} :
    state.Missing json convo next id ↔ state.Missing json convo db id := by
  rw [Missing, only.displayableIds, Missing]

theorem Gapless.of_onlyRoots {next : ClientDb P} (gapless : state.Gapless json convo db)
    (only : ClientDb.OnlyRoots db next) : state.Gapless json convo next :=
  fun id missing => gapless id ((missing_of_onlyRoots only).mp missing)

/-- `initialized` and `no_more_older` play no part. -/
theorem Opened.of_flags (opened : state.Opened json convo db) (initialized noMoreOlder : Bool) :
    ({ state with initialized := initialized, noMoreOlder := noMoreOlder } :
      ConvoState P).Opened json convo db :=
  have marked := opened.holds.marked
  ⟨opened.filed, opened.ids, opened.bounded,
    ⟨⟨marked.oldest, marked.held, marked.latest⟩, opened.holds.within⟩⟩

/-- An applied page goes with the database. -/
theorem Opened.applyPage (opened : state.Opened json convo db) {before after : Option Int}
    {limit : UInt16} {next : ClientDb P} {messages : List (MessageView P)}
    (fetched : db.convoHistory json env convo before after limit = (next, .ok messages)) :
    (state.applyMessages messages).Opened json convo next := by
  have only := ClientDb.onlyRoots_of_fetched fetched
  have applied : (state.applyMessages messages).Opened json convo db :=
    ⟨opened.filed, opened.ids, opened.bounded,
      opened.holds.applyPage opened.filed opened.ids fetched⟩
  exact applied.of_onlyRoots only

/-- A page which fits leaves nothing missing. -/
theorem Opened.fits_complete (opened : state.Opened json convo db) {after : Option Int}
    {limit : UInt16} {next : ClientDb P} {messages : List (MessageView P)}
    (fetched : db.convoHistory json env convo none after limit = (next, .ok messages))
    (fits : state.Fits json convo env db after limit)
    (above : ∀ id, state.Missing json convo db id → after.getD (-2 ^ 63) ≤ (id : Int)) (id : Nat) :
    ¬(state.applyMessages messages).Missing json convo next id := by
  intro later
  have only := ClientDb.onlyRoots_of_fetched fetched
  have missing := (missing_of_onlyRoots only).mp later
  obtain ⟨row, joined, _, rfl⟩ := ClientDb.mem_displayableIds.mp missing.1
  have bounded := opened.bounded row (ClientDb.mem_joinedMessages.mp joined).1
  have inside : (row.id : Int) ≤ (none : Option Int).getD (2 ^ 63 - 1) := by
    rw [Option.getD_none]
    omega
  obtain ⟨earlier, unpaged⟩ := Missing.of_applyPage opened.holds opened.filed opened.ids fetched
    fits.keeps (Or.inl inside) missing
  have paged := opened.filed.mem_newest_page opened.ids joined (by omega) (above row.id earlier)
    (fits.few row.id earlier)
  exact unpaged row paged rfl

/-- A refresh begins at or below what is missing. -/
theorem Gapless.refreshAfter_le (gapless : state.Gapless json convo db)
    (opened : state.Opened json convo db) {id : Nat} (missing : state.Missing json convo db id) :
    state.refreshAfter ≤ (id : Int) := by
  rw [refreshAfter]
  split
  · omega
  · rename_i latest same
    have below := gapless id missing latest (opened.holds.marked.latest latest same)
    split <;> omega

/-- What a turn of the loop of a refresh can do. -/
inductive RefreshTurn (json : JsonReader P) (convo : ConvoId P) (env : ReadEnv P)
    (later : List (ReadEnv P)) (after : Int) (db : ClientDb P) (state : ConvoState P) :
    ClientDb P → ConvoState P → Bool → Prop
  | failed {next : ClientDb P} (only : ClientDb.OnlyRoots db next) :
      RefreshTurn json convo env later after db state next state false
  | ended {next : ClientDb P}
      (fetched : db.convoHistory json env convo none (some after) pageLimit = (next, .ok [])) :
      RefreshTurn json convo env later after db state next state true
  | moved {middle next : ClientDb P} {messages : List (MessageView P)} {last : MessageView P}
      {final : ConvoState P} {ok : Bool}
      (fetched : db.convoHistory json env convo none (some after) pageLimit =
        (middle, .ok messages))
      (listed : last.id ∈ messages.map MessageView.id)
      (rest : refreshLoop json convo later (last.id + 1) (state.applyMessages messages) middle =
        some (next, final, ok)) :
      RefreshTurn json convo env later after db state next final ok

/-- A turn of a refresh ends it or goes on behind its page. -/
theorem refreshTurn_of_refreshLoop {later : List (ReadEnv P)} {after : Int} {next : ClientDb P}
    {final : ConvoState P} {ok : Bool}
    (ends : refreshLoop json convo (env :: later) after state db = some (next, final, ok)) :
    RefreshTurn json convo env later after db state next final ok := by
  rw [refreshLoop] at ends
  split at ends
  · cases ends
  · rename_i failed
    cases ends
    exact .failed (ClientDb.onlyRoots_of_fetched failed)
  · rename_i middle messages fetched
    split at ends
    · rename_i nothing
      cases ends
      rw [List.getLast?_eq_none_iff.mp nothing] at fetched
      exact .ended fetched
    · rename_i last isLast
      split at ends
      · exact .moved fetched (List.mem_map_of_mem (List.mem_of_getLast? isLast)) ends
      · cases ends

/-- What each page and each failed fetch keep, the loop of a refresh keeps. -/
theorem refreshLoop_keeps (kept : ClientDb P → ConvoState P → Prop)
    (page : ∀ {env : ReadEnv P} {after : Option Int} {db next : ClientDb P} {state : ConvoState P}
      {messages : List (MessageView P)}, kept db state →
        db.convoHistory json env convo none after pageLimit = (next, .ok messages) →
          kept next (state.applyMessages messages))
    (roots : ∀ {db next : ClientDb P} {state : ConvoState P}, kept db state →
      ClientDb.OnlyRoots db next → kept next state)
    (holds : kept db state) {envs : List (ReadEnv P)} {after : Int} {next : ClientDb P}
    {final : ConvoState P} {ok : Bool}
    (ends : refreshLoop json convo envs after state db = some (next, final, ok)) :
    kept next final := by
  induction envs generalizing db state after with
  | nil => cases ends
  | cons env later ih =>
      cases refreshTurn_of_refreshLoop ends with
      | failed only => exact roots holds only
      | ended fetched => exact roots holds (ClientDb.onlyRoots_of_fetched fetched)
      | moved fetched _ rest => exact ih (page holds fetched) rest

/-- After a successful refresh there is what its first page brings and later ones keep. -/
theorem refreshLoop_established (kept : ClientDb P → ConvoState P → Prop)
    (page : ∀ {env : ReadEnv P} {after : Option Int} {db next : ClientDb P} {state : ConvoState P}
      {messages : List (MessageView P)}, kept db state →
        db.convoHistory json env convo none after pageLimit = (next, .ok messages) →
          kept next (state.applyMessages messages))
    (roots : ∀ {db next : ClientDb P} {state : ConvoState P}, kept db state →
      ClientDb.OnlyRoots db next → kept next state)
    {envs : List (ReadEnv P)} {after : Int}
    (first : ∀ env ∈ envs.head?, ∀ {middle : ClientDb P} {messages : List (MessageView P)},
      db.convoHistory json env convo none (some after) pageLimit = (middle, .ok messages) →
        kept middle (state.applyMessages messages))
    {next : ClientDb P} {final : ConvoState P}
    (ends : refreshLoop json convo envs after state db = some (next, final, true)) :
    kept next final := by
  cases envs with
  | nil => cases ends
  | cons env later =>
      cases refreshTurn_of_refreshLoop ends with
      | ended fetched => exact first env rfl fetched
      | moved fetched _ rest => exact refreshLoop_keeps kept page roots (first env rfl fetched) rest

/-- A refresh goes with the database. -/
theorem Opened.of_refreshLoop (opened : state.Opened json convo db) {envs : List (ReadEnv P)}
    {after : Int} {next : ClientDb P} {final : ConvoState P} {ok : Bool}
    (ends : refreshLoop json convo envs after state db = some (next, final, ok)) :
    final.Opened json convo next :=
  refreshLoop_keeps (fun db state => state.Opened json convo db)
    (fun opened fetched => opened.applyPage fetched) (fun opened only => opened.of_onlyRoots only)
    opened ends

/-- The initial load goes with the database. -/
theorem Opened.loadInitial (opened : state.Opened json convo db) {next : ClientDb P}
    {final : ConvoState P} (ends : state.loadInitial json convo env db = some (next, final)) :
    final.Opened json convo next := by
  rw [ConvoState.loadInitial] at ends
  split at ends
  · cases ends
  · rename_i failed
    cases ends
    exact opened.of_onlyRoots (ClientDb.onlyRoots_of_fetched failed)
  · rename_i messages fetched
    cases ends
    exact (opened.applyPage fetched).of_flags true _

/-- What a call of `load_older` can do. -/
inductive OlderLoad (json : JsonReader P) (convo : ConvoId P) (env : ReadEnv P) (db : ClientDb P)
    (state : ConvoState P) : ClientDb P → ConvoState P → Prop
  | finished (flagged : state.noMoreOlder = true) : OlderLoad json convo env db state db state
  | nowhere (more : state.noMoreOlder = false) (unset : state.oldestId = none) :
      OlderLoad json convo env db state db { state with noMoreOlder := true }
  | failed (more : state.noMoreOlder = false) (fails : env.queryFails = true) :
      OlderLoad json convo env db state db state
  | ended {oldestId : Nat} {next : ClientDb P} (more : state.noMoreOlder = false)
      (oldest : state.oldestId = some oldestId)
      (fetched : db.convoHistory json env convo (some ((oldestId : Int) - 1)) none pageLimit =
        (next, .ok [])) :
      OlderLoad json convo env db state next { state with noMoreOlder := true }
  | moved {oldestId : Nat} {next : ClientDb P} {first : MessageView P}
      {rest : List (MessageView P)} (more : state.noMoreOlder = false)
      (oldest : state.oldestId = some oldestId)
      (fetched : db.convoHistory json env convo (some ((oldestId : Int) - 1)) none pageLimit =
        (next, .ok (first :: rest))) :
      OlderLoad json convo env db state next (state.applyMessages (first :: rest))

/-- A call of `load_older` does nothing, fails, or applies a page. -/
theorem olderLoad_of_loadOlder {next : ClientDb P} {final : ConvoState P}
    (ends : state.loadOlder json convo env db = some (next, final)) :
    OlderLoad json convo env db state next final := by
  rw [ConvoState.loadOlder] at ends
  split at ends
  · rename_i flagged
    cases ends
    exact .finished flagged
  · rename_i more
    rw [Bool.not_eq_true] at more
    split at ends
    · rename_i unset
      cases ends
      exact .nowhere more unset
    · rename_i oldestId oldest
      split at ends
      · cases ends
      · rename_i other failed
        cases ends
        rw [ClientDb.convoHistory] at failed
        split at failed
        · rename_i fails
          cases failed
          exact .failed more fails
        · exact absurd (ClientDb.showRows_error failed) other
      · rename_i messages fetched
        cases ends
        cases messages with
        | nil => exact .ended more oldest fetched
        | cons first rest => exact .moved more oldest fetched

/-- A call of `load_older` stores roots at most. -/
theorem OlderLoad.onlyRoots {next : ClientDb P} {final : ConvoState P}
    (load : OlderLoad json convo env db state next final) : ClientDb.OnlyRoots db next := by
  cases load with
  | finished | nowhere | failed => exact ClientDb.OnlyRoots.refl db
  | ended _ _ fetched => exact ClientDb.onlyRoots_of_fetched fetched
  | moved _ _ fetched => exact ClientDb.onlyRoots_of_fetched fetched

/-- A load of older messages goes with the database. -/
theorem Opened.loadOlder (opened : state.Opened json convo db) {next : ClientDb P}
    {final : ConvoState P} (ends : state.loadOlder json convo env db = some (next, final)) :
    final.Opened json convo next := by
  have load := olderLoad_of_loadOlder ends
  have only := load.onlyRoots
  cases load with
  | finished => exact opened
  | nowhere => exact opened.of_flags _ true
  | failed => exact opened
  | ended => exact (opened.of_flags _ true).of_onlyRoots only
  | moved _ _ fetched => exact opened.applyPage fetched

/-- A fetch in which nothing is missing leaves nothing missing. -/
theorem Opened.refreshLoop_complete (opened : state.Opened json convo db)
    (complete : ∀ id, ¬state.Missing json convo db id) {after : Int}
    (above : ∃ held ∈ state.messages, (held : Int) < after) {envs : List (ReadEnv P)}
    {next : ClientDb P} {final : ConvoState P} {ok : Bool}
    (ends : refreshLoop json convo envs after state db = some (next, final, ok)) :
    ∀ id, ¬final.Missing json convo next id := by
  induction envs generalizing db state after with
  | nil => cases ends
  | cons env later ih =>
      cases refreshTurn_of_refreshLoop ends with
      | failed only => exact fun id missing => complete id ((missing_of_onlyRoots only).mp missing)
      | ended fetched =>
          have only := ClientDb.onlyRoots_of_fetched fetched
          exact fun id missing => complete id ((missing_of_onlyRoots only).mp missing)
      | @moved _ _ messages last _ _ fetched lastListed rest =>
          have only := ClientDb.onlyRoots_of_fetched fetched
          refine ih (opened.applyPage fetched) ?_ ?_ rest
          · intro id missing
            refine complete id (Missing.of_known opened.holds ?_
              ((missing_of_onlyRoots only).mp missing))
            intro shownId listed
            obtain ⟨row, paged, shown, rfl⟩ := (mem_fetched fetched).mp listed
            obtain ⟨joined, _, low, _⟩ := (opened.filed.mem_historyRows opened.ids).mp paged
            obtain ⟨held, heldListed, below⟩ := above
            rw [Option.getD_some] at low
            rw [ConvoMessage.shows, Bool.and_eq_true] at shown
            by_contra absent
            refine complete row.id ⟨ClientDb.mem_displayableIds.mpr ⟨row, joined, shown.1, rfl⟩,
              opened.holds.marked.covers_iff.mpr ⟨held, heldListed, by omega⟩, absent⟩
          · exact ⟨last.id, mem_applyMessages.mpr (Or.inr lastListed), by omega⟩

/-- A refresh leaves no gap, and nothing missing when it ends well. -/
theorem Gapless.refreshNewer (gapless : state.Gapless json convo db)
    (opened : state.Opened json convo db) {envs : List (ReadEnv P)}
    (fits : ∀ env ∈ envs.head?, env.queryFails = false →
      state.Fits json convo env db (some state.refreshAfter) pageLimit)
    {next : ClientDb P} {final : ConvoState P} {ok : Bool}
    (ends : state.refreshNewer json convo envs db = some (next, final, ok)) :
    final.Gapless json convo next ∧ (ok = true → ∀ id, ¬final.Missing json convo next id) := by
  cases envs with
  | nil => cases ends
  | cons env later =>
      have complete : ∀ {middle : ClientDb P} {messages : List (MessageView P)},
          db.convoHistory json env convo none (some state.refreshAfter) pageLimit =
            (middle, .ok messages) →
          ∀ id, ¬(state.applyMessages messages).Missing json convo middle id :=
        fun fetched => opened.fits_complete fetched (fits env rfl (fetched_ids fetched).1)
          fun id missing => gapless.refreshAfter_le opened missing
      cases refreshTurn_of_refreshLoop ends with
      | failed only => exact ⟨gapless.of_onlyRoots only, fun impossible => by cases impossible⟩
      | ended fetched =>
          exact ⟨fun id missing => absurd missing (complete fetched id), fun _ => complete fetched⟩
      | @moved _ _ messages last _ _ fetched lastListed rest =>
          have finalComplete := (opened.applyPage fetched).refreshLoop_complete (complete fetched)
            ⟨last.id, mem_applyMessages.mpr (Or.inr lastListed), by omega⟩ rest
          exact ⟨fun id missing => absurd missing (finalComplete id), fun _ => finalComplete⟩

/-- A fetch in which nothing fails. -/
structure Calm (env : ReadEnv P) : Prop where
  queries : env.queryFails = false
  stores : ∀ id, env.storeFails id = false

/-- Where nothing fails, every displayable row is shown. -/
theorem Calm.shows (calm : Calm env) (row : ConvoMessage) :
    row.shows json env = row.displayable json := by
  rw [ConvoMessage.shows, calm.stores, Bool.not_false, Bool.or_true, Bool.and_true]

/-- Where nothing fails, a page keeps its rows. -/
theorem Calm.keeps (calm : Calm env) (page : List ConvoMessage) : Keeps json env state page :=
  fun row _ decodes _ _ => (calm.shows row).trans decodes

/-- A page of a short table fits. -/
theorem Calm.fits (calm : Calm env) {after : Option Int} {limit : UInt16}
    (short : db.convoMessages.length < limit.toNat) : state.Fits json convo env db after limit :=
  ⟨fun id _ => lt_of_le_of_lt (db.newerRows_le convo id) short, calm.keeps _⟩

/-- Where nothing fails, a page is fetched. -/
theorem Calm.fetches (calm : Calm env) (summable : db.Summable json) (convo : ConvoId P)
    (before after : Option Int) (limit : UInt16) : ∃ next messages, next.Summable json ∧
      db.convoHistory json env convo before after limit = (next, .ok messages) := by
  have survives := ClientDb.survives_convoHistory env summable convo before after limit
  cases fetched : db.convoHistory json env convo before after limit with
  | mk next result =>
      rw [fetched] at survives
      cases result with
      | ok messages => exact ⟨next, messages, survives.summable, rfl⟩
      | error err =>
          rw [ClientDb.convoHistory, if_neg (by rw [calm.queries]; exact Bool.false_ne_true)]
            at fetched
          exact absurd (congrArg Except.error (ClientDb.showRows_error fetched)) survives.ends

/-- A page above the last message of another page is empty. -/
theorem Opened.nothing_above (opened : state.Opened json convo db) (calm : Calm env)
    {after : Option Int} {next : ClientDb P} {messages : List (MessageView P)}
    (fetched : db.convoHistory json env convo none after pageLimit = (next, .ok messages))
    {last : MessageView P} (isLast : messages.getLast? = some last) {later : ReadEnv P}
    {final : ClientDb P} {others : List (MessageView P)}
    (fetchedLater : next.convoHistory json later convo none (some ((last.id : Int) + 1)) pageLimit =
      (final, .ok others)) : others = [] := by
  have only := ClientDb.onlyRoots_of_fetched fetched
  have openedNext := opened.of_onlyRoots only
  have ascending : (messages.map MessageView.id).Pairwise (· ≤ ·) := by
    rw [(fetched_ids fetched).2]
    exact List.pairwise_map.mpr
      ((ClientDb.historyRows_ascending convo none after pageLimit).filter _)
  obtain ⟨earlier, split⟩ := List.getLast?_eq_some_iff.mp isLast
  rw [← List.map_eq_nil_iff (f := MessageView.id), List.eq_nil_iff_forall_not_mem]
  intro id listed
  obtain ⟨row, paged, shown, rfl⟩ := (mem_fetched fetchedLater).mp listed
  obtain ⟨joined, below, above, _⟩ := (openedNext.filed.mem_historyRows openedNext.ids).mp paged
  rw [only.joined] at joined
  rw [Option.getD_some] at above
  have lastListed : last.id ∈ messages.map MessageView.id :=
    List.mem_map_of_mem (List.mem_of_getLast? isLast)
  obtain ⟨lastRow, lastPaged, _, same⟩ := (mem_fetched fetched).mp lastListed
  have onPage := opened.filed.historyRows_upward opened.ids lastPaged joined (by omega) below
  rw [ConvoMessage.shows, Bool.and_eq_true] at shown
  have shownBefore : row.id ∈ messages.map MessageView.id :=
    (mem_fetched fetched).mpr ⟨row, onPage, (calm.shows row).trans shown.1, rfl⟩
  rw [split, List.map_append, List.map_singleton] at ascending shownBefore
  have greatest := (List.pairwise_append.mp ascending).2.2
  rcases List.mem_append.mp shownBefore with old | new
  · have low := greatest row.id old last.id (List.mem_singleton_self _)
    omega
  · rw [List.mem_singleton] at new
    omega

/-- Two fetches in which nothing fails end a refresh. -/
theorem Opened.refreshNewer_ends (opened : state.Opened json convo db)
    (summable : db.Summable json)
    (bounded : ∀ row ∈ db.convoMessages, row.id + 1 < 2 ^ 63) {first second : ReadEnv P}
    (firstCalm : Calm first) (secondCalm : Calm second) :
    ∃ next final, state.refreshNewer json convo [first, second] db = some (next, final, true) ∧
      next.Summable json := by
  obtain ⟨next, messages, nextSummable, fetched⟩ :=
    firstCalm.fetches summable convo none (some state.refreshAfter) pageLimit
  rw [ConvoState.refreshNewer, refreshLoop, fetched]
  dsimp only
  cases isLast : messages.getLast? with
  | none => exact ⟨next, state, rfl, nextSummable⟩
  | some last =>
      obtain ⟨final, others, finalSummable, fetchedLater⟩ := secondCalm.fetches nextSummable convo
        none (some ((last.id : Int) + 1)) pageLimit
      have lastListed : last.id ∈ messages.map MessageView.id :=
        List.mem_map_of_mem (List.mem_of_getLast? isLast)
      obtain ⟨row, paged, _, same⟩ := (mem_fetched fetched).mp lastListed
      have joined := ((opened.filed.mem_historyRows opened.ids).mp paged).1
      have small := bounded row (ClientDb.mem_joinedMessages.mp joined).1
      have nothing := opened.nothing_above firstCalm fetched isLast fetchedLater
      subst nothing
      dsimp only
      rw [if_pos (by omega), refreshLoop, fetchedLater]
      exact ⟨final, state.applyMessages messages, rfl, finalSummable⟩

/-- A refresh changes no rows. -/
theorem refreshLoop_onlyRoots {envs : List (ReadEnv P)} {after : Int} {next : ClientDb P}
    {final : ConvoState P} {ok : Bool}
    (ends : refreshLoop json convo envs after state db = some (next, final, ok)) :
    ClientDb.OnlyRoots db next := by
  refine refreshLoop_keeps (fun later _ => ClientDb.OnlyRoots db later) ?_ ?_
    (ClientDb.OnlyRoots.refl db) ends
  · intro env after middle later _ messages earlier fetched
    exact earlier.trans (ClientDb.onlyRoots_of_fetched fetched)
  · exact fun earlier only => earlier.trans only

/-- What is below the range or below a whole page of newer rows is not fetched. -/
theorem Opened.not_fetched (opened : state.Opened json convo db) {after : Int}
    {next : ClientDb P} {messages : List (MessageView P)}
    (fetched : db.convoHistory json env convo none (some after) pageLimit = (next, .ok messages))
    {id : Nat} (out : (id : Int) < after ∨ pageLimit.toNat ≤ db.newerRows convo id) :
    id ∉ messages.map MessageView.id := by
  intro listed
  obtain ⟨row, paged, _, rfl⟩ := (mem_fetched fetched).mp listed
  obtain ⟨_, _, above, few⟩ := (opened.filed.mem_historyRows opened.ids).mp paged
  rw [Option.getD_some] at above
  rcases out with below | many
  · omega
  · refine absurd (lt_of_le_of_lt (many.trans ?_) few) (lt_irrefl _)
    apply List.countP_mono_left
    intro entry joined counted
    have small := opened.bounded entry.1 (ClientDb.mem_joinedMessages.mp joined).1
    simp only [Bool.and_eq_true, decide_eq_true_eq, Option.getD_none] at counted ⊢
    exact ⟨counted.1, by omega, counted.2⟩

/-- What is in the range and among its ten newest rows is fetched. -/
theorem Opened.mem_fetched_of_newest (opened : state.Opened json convo db) {after : Int}
    {next : ClientDb P} {messages : List (MessageView P)}
    (fetched : db.convoHistory json env convo none (some after) pageLimit = (next, .ok messages))
    {row : ConvoMessage} (joined : (row, convo) ∈ db.joinedMessages)
    (shown : row.shows json env = true) (above : after ≤ (row.id : Int))
    (few : db.newerRows convo row.id < pageLimit.toNat) : row.id ∈ messages.map MessageView.id := by
  have bounded := opened.bounded row (ClientDb.mem_joinedMessages.mp joined).1
  exact (mem_fetched fetched).mpr
    ⟨row, opened.filed.mem_newest_page opened.ids joined (by omega) above few, shown, rfl⟩

/-- What no fetch reaches stays as it is. -/
theorem Opened.refreshLoop_lookup (opened : state.Opened json convo db) {id : Nat} {after : Int}
    (out : (id : Int) < after ∨ pageLimit.toNat ≤ db.newerRows convo id)
    {envs : List (ReadEnv P)} {next : ClientDb P} {final : ConvoState P} {ok : Bool}
    (ends : refreshLoop json convo envs after state db = some (next, final, ok)) :
    final.messages.lookup id = state.messages.lookup id := by
  induction envs generalizing db state after with
  | nil => cases ends
  | cons env later ih =>
      cases refreshTurn_of_refreshLoop ends with
      | failed => rfl
      | ended => rfl
      | @moved _ _ messages last _ _ fetched lastListed rest =>
          have reached : after ≤ (last.id : Int) := by
            by_contra below
            exact opened.not_fetched fetched (Or.inl (by omega)) lastListed
          refine (ih (opened.applyPage fetched) ?_ rest).trans
            (lookup_applyMessages_of_notMem (opened.not_fetched fetched out))
          rcases out with below | many
          · exact Or.inl (by omega)
          · rw [ClientDb.newerRows, (ClientDb.onlyRoots_of_fetched fetched).joined]
            exact Or.inr many

/-- What is missing below a whole page of newer rows stays missing. -/
theorem Opened.refreshLoop_missing (opened : state.Opened json convo db) {id : Nat}
    (missing : state.Missing json convo db id)
    (many : pageLimit.toNat ≤ db.newerRows convo id) {after : Int} {envs : List (ReadEnv P)}
    {next : ClientDb P} {final : ConvoState P} {ok : Bool}
    (ends : refreshLoop json convo envs after state db = some (next, final, ok)) :
    final.Missing json convo next id := by
  refine (missing_of_onlyRoots (refreshLoop_onlyRoots ends)).mpr ⟨missing.1, ?_, ?_⟩
  · obtain ⟨held, listed, below⟩ := opened.holds.marked.covers_iff.mp missing.2.1
    refine (opened.of_refreshLoop ends).holds.marked.covers_iff.mpr ⟨held, ?_, below⟩
    exact refreshLoop_keeps (fun _ later => held ∈ later.messages)
      (fun earlier _ => mem_applyMessages.mpr (Or.inl earlier)) (fun earlier _ => earlier)
      listed ends
  · have same := opened.refreshLoop_lookup (Or.inr many) ends
    rw [AList.lookup_eq_none.mpr missing.2.2] at same
    exact AList.lookup_eq_none.mp same

/-- The initial load leaves no gap where its page has room for what is missing. -/
theorem Gapless.loadInitial (gapless : state.Gapless json convo db)
    (opened : state.Opened json convo db)
    (fits : env.queryFails = false → state.Fits json convo env db none initialLimit)
    {next : ClientDb P} {final : ConvoState P}
    (ends : state.loadInitial json convo env db = some (next, final)) :
    final.Gapless json convo next := by
  rw [ConvoState.loadInitial] at ends
  split at ends
  · cases ends
  · rename_i failed
    cases ends
    exact gapless.of_onlyRoots (ClientDb.onlyRoots_of_fetched failed)
  · rename_i messages fetched
    have complete := opened.fits_complete fetched (fits (fetched_ids fetched).1) fun id _ => by
      rw [Option.getD_none]
      omega
    cases ends
    exact fun id missing => absurd missing (complete id)

/-- A load of older messages leaves no gap where its page is shown. -/
theorem Gapless.loadOlder (gapless : state.Gapless json convo db)
    (opened : state.Opened json convo db)
    (keeps : state.noMoreOlder = false → env.queryFails = false →
      ∀ oldestId, state.oldestId = some oldestId → Keeps json env state
        (db.historyRows convo (some ((oldestId : Int) - 1)) none pageLimit))
    {next : ClientDb P} {final : ConvoState P}
    (ends : state.loadOlder json convo env db = some (next, final)) :
    final.Gapless json convo next := by
  have load := olderLoad_of_loadOlder ends
  have only := load.onlyRoots
  cases load with
  | finished => exact gapless
  | nowhere => exact gapless
  | failed => exact gapless
  | ended => exact gapless.of_onlyRoots only
  | @moved oldestId _ _ _ more oldest fetched =>
      intro id later held listed
      have missing := (missing_of_onlyRoots only).mp later
      -- What is not above the page is at or above the oldest message of before.
      have reach : (id : Int) ≤ (some ((oldestId : Int) - 1)).getD (2 ^ 63 - 1) ∨
          state.covers id = true := by
        rw [Option.getD_some, covers, oldest, Option.any_some, decide_eq_true_eq]
        omega
      obtain ⟨earlier, _⟩ := Missing.of_applyPage opened.holds opened.filed opened.ids fetched
        (keeps more (fetched_ids fetched).1 oldestId oldest) reach missing
      rcases mem_applyMessages.mp listed with old | new
      · exact gapless id earlier held old
      · obtain ⟨row, paged, _, rfl⟩ := (mem_fetched fetched).mp new
        obtain ⟨_, upper, _⟩ := (opened.filed.mem_historyRows opened.ids).mp paged
        rw [Option.getD_some] at upper
        have low := gapless id earlier oldestId (opened.holds.marked.held oldestId oldest)
        omega

end

end ConvoState

end Nullspace
