import Nullspace.Client.Pager

/-!
# Stale messages

A message which was loaded while it was pending changes its row later on. `upToDate_of_refetched`
says in which runs each refresh fetches such messages again.
-/

namespace Nullspace

open Nullspace.Base

variable {P : Primitives}

namespace ConvoState

section

variable (convo : ConvoId P) (db : ClientDb P)

/-- The message says of its row whether it was received and what kept it from being sent. -/
def Current (id : Nat) (msg : MessageView P) : Prop :=
  ∃ row, (row, convo) ∈ db.joinedMessages ∧ row.id = id ∧
    msg.sendError = row.sendError ∧ msg.receivedAt = row.receivedAt

/-- Every message in the state is current. -/
def UpToDate (state : ConvoState P) : Prop :=
  ∀ id msg, state.messages.lookup id = some msg → Current convo db id msg

/-- The state has a message whose row has changed since. -/
def Stale (state : ConvoState P) (id : Nat) : Prop :=
  ∃ msg, state.messages.lookup id = some msg ∧ ¬Current convo db id msg

end

variable {json : JsonReader P} {convo : ConvoId P} {env : ReadEnv P} {db next : ClientDb P}
  {state final : ConvoState P}

/-- A state is up to date when nothing in it is stale. -/
theorem upToDate_iff : state.UpToDate convo db ↔ ∀ id, ¬state.Stale convo db id := by
  constructor
  · rintro upToDate id ⟨msg, looked, outdated⟩
    exact outdated (upToDate id msg looked)
  · intro fresh id msg looked
    by_contra outdated
    exact fresh id ⟨msg, looked, outdated⟩

theorem current_of_onlyRoots (only : ClientDb.OnlyRoots db next) {id : Nat} {msg : MessageView P} :
    Current convo next id msg ↔ Current convo db id msg := by
  rw [Current, only.joined, Current]

theorem stale_of_onlyRoots (only : ClientDb.OnlyRoots db next) {id : Nat} :
    state.Stale convo next id ↔ state.Stale convo db id := by
  simp only [Stale, current_of_onlyRoots only]

/-- What a page brings is current. -/
theorem Opened.current_of_fetched (opened : state.Opened json convo db) {before after : Option Int}
    {limit : UInt16} {messages : List (MessageView P)}
    (fetched : db.convoHistory json env convo before after limit = (next, .ok messages))
    {msg : MessageView P} (listed : msg ∈ messages) : Current convo db msg.id msg := by
  rw [ClientDb.convoHistory] at fetched
  split at fetched
  · cases fetched
  · obtain ⟨row, paged, body, rfl⟩ := ClientDb.view_of_showRows fetched listed
    exact ⟨row, ((opened.filed.mem_historyRows opened.ids).mp paged).1, rfl, rfl, rfl⟩

/-- What is stale after a page was stale before and is not on the page. -/
theorem Opened.stale_of_page (opened : state.Opened json convo db) {before after : Option Int}
    {limit : UInt16} {messages : List (MessageView P)}
    (fetched : db.convoHistory json env convo before after limit = (next, .ok messages)) {id : Nat}
    (stale : (state.applyMessages messages).Stale convo next id) :
    state.Stale convo db id ∧ id ∉ messages.map MessageView.id := by
  have only := ClientDb.onlyRoots_of_fetched fetched
  obtain ⟨msg, looked, outdated⟩ := (stale_of_onlyRoots only).mp stale
  rcases of_lookup_applyMessages looked with ⟨listed, rfl⟩ | ⟨absent, earlier⟩
  · exact absurd (opened.current_of_fetched fetched listed) outdated
  · exact ⟨⟨msg, earlier, outdated⟩, absent⟩

/-- A page leaves a state which was up to date so. -/
theorem Opened.upToDate_page (opened : state.Opened json convo db)
    (upToDate : state.UpToDate convo db) {before after : Option Int} {limit : UInt16}
    {messages : List (MessageView P)}
    (fetched : db.convoHistory json env convo before after limit = (next, .ok messages)) :
    (state.applyMessages messages).UpToDate convo next :=
  upToDate_iff.mpr fun id stale =>
    upToDate_iff.mp upToDate id (opened.stale_of_page fetched stale).1

/-- The first page of a refresh has what is stale. -/
def Refetches (json : JsonReader P) (convo : ConvoId P) (env : ReadEnv P) (db : ClientDb P)
    (state : ConvoState P) : Prop :=
  ∀ id, state.Stale convo db id → state.refreshAfter ≤ (id : Int) ∧
    db.newerRows convo id < pageLimit.toNat ∧ id ∈ db.shownIds json env convo

/-- A refresh whose first page has what is stale leaves the state up to date. -/
theorem Opened.upToDate_refresh (opened : state.Opened json convo db) {envs : List (ReadEnv P)}
    (refetches : ∀ env ∈ envs.head?, env.queryFails = false →
      state.Refetches json convo env db)
    (ends : state.refreshNewer json convo envs db = some (next, final, true)) :
    final.UpToDate convo next := by
  refine (refreshLoop_established (fun db state => state.Opened json convo db ∧
    state.UpToDate convo db) ?_ ?_ ?_ ends).2
  · rintro env after db next state messages ⟨openedNow, upToDate⟩ fetched
    exact ⟨openedNow.applyPage fetched, openedNow.upToDate_page upToDate fetched⟩
  · rintro db next state ⟨openedNow, upToDate⟩ only
    exact ⟨openedNow.of_onlyRoots only, fun id msg looked =>
      (current_of_onlyRoots only).mpr (upToDate id msg looked)⟩
  · intro env first middle messages fetched
    refine ⟨opened.applyPage fetched, upToDate_iff.mpr fun id stale => ?_⟩
    obtain ⟨earlier, absent⟩ := opened.stale_of_page fetched stale
    obtain ⟨above, few, shown⟩ := refetches env first (fetched_ids fetched).1 id earlier
    obtain ⟨row, joined, shows, rfl⟩ := ClientDb.mem_shownIds.mp shown
    exact absent (opened.mem_fetched_of_newest fetched joined shows above few)

/-- What is below the range or below a whole page of newer rows stays stale. -/
theorem Opened.stale_refresh (opened : state.Opened json convo db) {envs : List (ReadEnv P)}
    {id : Nat} (stale : state.Stale convo db id)
    (out : (id : Int) < state.refreshAfter ∨ pageLimit.toNat ≤ db.newerRows convo id) {ok : Bool}
    (ends : state.refreshNewer json convo envs db = some (next, final, ok)) :
    final.Stale convo next id := by
  obtain ⟨msg, looked, outdated⟩ := (stale_of_onlyRoots (refreshLoop_onlyRoots ends)).mpr stale
  exact ⟨msg, (opened.refreshLoop_lookup out ends).trans looked, outdated⟩

/-- Where nothing fails, the limit and the start of the range alone decide. -/
theorem Opened.upToDate_refresh_iff (opened : state.Opened json convo db) (calm : Calm env)
    {later : List (ReadEnv P)}
    (ends : state.refreshNewer json convo (env :: later) db = some (next, final, true)) :
    final.UpToDate convo next ↔ ∀ id, state.Stale convo db id →
      state.refreshAfter ≤ (id : Int) ∧ db.newerRows convo id < pageLimit.toNat := by
  constructor
  · intro upToDate id stale
    by_contra out
    rw [not_and_or, not_le, not_lt] at out
    exact upToDate_iff.mp upToDate id (opened.stale_refresh stale out ends)
  · intro reached
    refine opened.upToDate_refresh ?_ ends
    rintro first ⟨rfl⟩ _ id stale
    obtain ⟨above, few⟩ := reached id stale
    obtain ⟨msg, looked, _⟩ := stale
    have held : id ∈ state.messages := AList.lookup_isSome.mp (Option.isSome_of_eq_some looked)
    obtain ⟨row, joined, decodes, rfl⟩ :=
      ClientDb.mem_displayableIds.mp (opened.holds.within id held)
    exact ⟨above, few, ClientDb.mem_shownIds.mpr ⟨row, joined, (calm.shows row).trans decodes, rfl⟩⟩

end ConvoState

namespace Pager

section

variable (json : JsonReader P) (convo : ConvoId P)

/-- A refresh fetches first what is stale. -/
def Refetched (pager : Pager P) : PagerStep P → Prop
  | .refreshNewer envs => ∀ env ∈ envs.head?, env.queryFails = false →
      pager.view.Refetches json convo env pager.db
  | _ => True

end

variable {json : JsonReader P} {convo : ConvoId P} {pager next : Pager P}

/-- A refresh ends with current messages only. -/
structure Fresh (json : JsonReader P) (convo : ConvoId P) (pager : Pager P) : Prop where
  opened : pager.view.Opened json convo pager.db
  upToDate : pager.refreshed = true → pager.view.UpToDate convo pager.db

/-- Every step which refetches what is stale leaves refreshes ending up to date. -/
theorem Fresh.step (fresh : pager.Fresh json convo) {event : PagerStep P}
    (refetched : pager.Refetched json convo event)
    (taken : (machine json convo).step pager event = some next) : next.Fresh json convo := by
  refine ⟨opened_step fresh.opened taken, fun refreshed => ?_⟩
  cases event with
  | insert other now event sendError receivedAt =>
      obtain ⟨_, changed, _⟩ := inserted_of_step fresh.opened.filed taken
      rw [changed] at refreshed
      cases refreshed
  | receive id receivedAt sendError =>
      cases taken
      cases refreshed
  | loadInitial env =>
      obtain ⟨⟨db, view⟩, _, rfl⟩ := Option.map_eq_some_iff.mp taken
      cases refreshed
  | refreshNewer envs =>
      obtain ⟨⟨db, view, ok⟩, ends, rfl⟩ := Option.map_eq_some_iff.mp taken
      cases refreshed
      exact fresh.opened.upToDate_refresh refetched ends
  | loadOlder env =>
      obtain ⟨⟨db, view⟩, _, rfl⟩ := Option.map_eq_some_iff.mp taken
      cases refreshed

/-- When the first pages of all refreshes have what is stale, each successful refresh leaves the
view with what is stored. -/
theorem upToDate_of_refetched (json : JsonReader P) (convo : ConvoId P) {db : ClientDb P}
    (filed : db.Filed) (ids : (db.convoMessages.map ConvoMessage.id).Nodup)
    (bounded : ∀ row ∈ db.convoMessages, row.id < 2 ^ 63) {events : List (PagerStep P)}
    (along : (machine json convo).Along (Refetched json convo) (start db) events) :
    (machine json convo).Always
      (fun pager => pager.refreshed = true → pager.view.UpToDate convo pager.db)
      (start db) events := by
  have fresh : (start db).Fresh json convo :=
    ⟨opened_start json convo filed ids bounded, fun impossible => by cases impossible⟩
  have always : (machine json convo).Always (Fresh json convo) (start db) events :=
    Machine.always_of_along (fun fresh refetched taken => fresh.step refetched taken) fresh along
  exact fun before position pager reached => (always before position pager reached).upToDate

/-- A message to Bobby which is queued. -/
def aliceWrites : PagerStep symbolic :=
  .insert (.direct bobby) 1 ⟨alice, "text/plain", utf8 "yo", 1⟩ none none

/-- The database after the pending message and others have been inserted. -/
def pendingDb (later : List (PagerStep symbolic)) : ClientDb symbolic :=
  (((machine symbolicJson (.direct bobby)).exec (start ClientDb.empty)
    (aliceWrites :: later)).getD (start ClientDb.empty)).db

/-- The view of the pending message and of others. -/
def pendingView (others : List (MessageView symbolic)) : ConvoState symbolic :=
  { ConvoState.empty.applyMessages
      (⟨1, .direct bobby, alice, .plainText (utf8 "yo"), none, none⟩ :: others) with
    initialized := true }

/-- The pending message is loaded. -/
theorem step_pending : (machine symbolicJson (.direct bobby)).step
    ⟨pendingDb [], .empty, false⟩ (.loadInitial calmReads) =
      some ⟨pendingDb [], pendingView [], false⟩ :=
  @step_loadInitial (pendingDb []) ⟨1, 1⟩ (by decide +kernel) (by decide +kernel)
    (by decide +kernel) (by decide +kernel) _ rfl

/-- A refresh after the pending message was sent has it on its first page. -/
theorem upToDate_of_refetched_pending :
    (machine symbolicJson (.direct bobby)).Always
      (fun pager => pager.refreshed = true → pager.view.UpToDate (.direct bobby) pager.db)
      (start ClientDb.empty)
      [aliceWrites, .loadInitial calmReads, .receive 1 3 none,
        .refreshNewer [calmReads, calmReads]] := by
  have written : (machine symbolicJson (.direct bobby)).step (start ClientDb.empty) aliceWrites =
      some ⟨pendingDb [], .empty, false⟩ := rfl
  refine upToDate_of_refetched symbolicJson (.direct bobby) ClientDb.filed_empty List.nodup_nil
    (by rintro row ⟨⟩) ?_
  rw [Machine.along_cons_of_step written, Machine.along_cons_of_step step_pending,
    Machine.along_cons]
  refine ⟨trivial, trivial, ?_⟩
  rintro next ⟨⟩
  refine ⟨trivial, Machine.along_cons.mpr fun last _ => ⟨?_, Machine.along_nil _ _⟩⟩
  rintro env ⟨rfl⟩ _ id ⟨msg, looked, _⟩
  have held : id ∈ (pendingView []).messages :=
    AList.lookup_isSome.mp (Option.isSome_of_eq_some looked)
  have only : id = 1 := by
    have keys : (pendingView []).messages.keys = [1] := by decide +kernel
    rwa [AList.mem_keys, keys, List.mem_singleton] at held
  subst only
  exact ⟨by decide +kernel, by decide +kernel, by decide +kernel⟩

/-- The view of the pending message and of a later one, which was received. -/
def overtakenView : ConvoState symbolic :=
  pendingView [⟨2, .direct bobby, bobby, .plainText (utf8 "hi"), none, some 2⟩]

/-- The database after the pending message was sent. -/
def overtakenDb : ClientDb symbolic := (pendingDb [bobbySends 2]).markMessageSent 1 3

/-- The pending message is received behind a later one. -/
theorem exec_overtaken : (machine symbolicJson (.direct bobby)).exec (start ClientDb.empty)
    [aliceWrites, bobbySends 2, .loadInitial calmReads, .receive 1 3 none] =
      some ⟨overtakenDb, overtakenView, false⟩ := by
  have inserted : (machine symbolicJson (.direct bobby)).exec (start ClientDb.empty)
      [aliceWrites, bobbySends 2] = some ⟨pendingDb [bobbySends 2], .empty, false⟩ := rfl
  have loaded : (machine symbolicJson (.direct bobby)).step
      ⟨pendingDb [bobbySends 2], .empty, false⟩ (.loadInitial calmReads) =
        some ⟨pendingDb [bobbySends 2], overtakenView, false⟩ :=
    @step_loadInitial (pendingDb [bobbySends 2]) ⟨1, 1⟩ (by decide +kernel) (by decide +kernel)
      (by decide +kernel) (by decide +kernel) _ rfl
  have both : (machine symbolicJson (.direct bobby)).exec (start ClientDb.empty)
      [aliceWrites, bobbySends 2, .loadInitial calmReads] =
        some ⟨pendingDb [bobbySends 2], overtakenView, false⟩ :=
    Machine.exec_snoc.mpr ⟨_, inserted, loaded⟩
  exact Machine.exec_snoc.mpr ⟨_, both, rfl⟩

/-- The refresh begins above the later message. -/
theorem refresh_overtaken : overtakenView.refreshNewer symbolicJson (.direct bobby) [calmReads]
    overtakenDb = some (overtakenDb, overtakenView, true) := by
  have looked : overtakenDb.convos.lookup (.direct bobby) = some ⟨1, 1⟩ := by decide +kernel
  have range : (overtakenDb.convoMessages.filter fun message =>
      message.convoId = (⟨1, 1⟩ : ConvoRow).id ∧
        (message.id : Int) ≤ (none : Option Int).getD (2 ^ 63 - 1) ∧
          (some (3 : Int)).getD (-2 ^ 63) ≤ (message.id : Int)) = [] := by decide +kernel
  have nothing : overtakenDb.historyRows (.direct bobby) none (some 3) pageLimit = [] := by
    rw [ClientDb.historyRows, looked]
    dsimp only
    rw [range, List.mergeSort_nil, List.take_nil, List.reverse_nil]
  have begins : overtakenView.refreshAfter = 3 := by decide +kernel
  rw [ConvoState.refreshNewer, begins, ConvoState.refreshLoop, ClientDb.convoHistory,
    if_neg (by decide), nothing]
  rfl

/-- The message was loaded while it was pending and shows so after it was sent, since a later
one was received first. -/
theorem overtaken_stays_pending :
    ¬∀ events, (machine symbolicJson (.direct bobby)).Always
      (fun pager => pager.refreshed = true → pager.view.UpToDate (.direct bobby) pager.db)
      (start ClientDb.empty) events := by
  intro always
  have refreshed : (machine symbolicJson (.direct bobby)).step
      ⟨overtakenDb, overtakenView, false⟩ (.refreshNewer [calmReads]) =
        some ⟨overtakenDb, overtakenView, true⟩ := by
    simp only [machine, refresh_overtaken, Option.map_some]
  have upToDate := (always _).last (Machine.exec_snoc.mpr ⟨_, exec_overtaken, refreshed⟩) rfl
  obtain ⟨row, joined, same, _, receivedAt⟩ := upToDate 1
    ⟨1, .direct bobby, alice, .plainText (utf8 "yo"), none, none⟩ rfl
  have sent : ∀ row ∈ overtakenDb.convoMessages, row.id = 1 → row.receivedAt = some 3 := by
    decide +kernel
  rw [sent row (ClientDb.mem_joinedMessages.mp joined).1 same] at receivedAt
  cases receivedAt

end Pager
end Nullspace
