import Nullspace.Base.Machine
import Nullspace.Client.ConvoState

/-!
# Runs of the chat view

Rows are inserted, messages are sent or given up, and the view loads and refreshes in any order.
`complete_of_unskipped` says in which runs nothing is missing after a refresh.
-/

namespace Nullspace

open Nullspace.Base

variable {P : Primitives}

/-- A chat view of one conversation over the client's database. -/
structure Pager (P : Primitives) where
  db : ClientDb P
  view : ConvoState P
  /-- The last step was a successful `refresh_newer`. -/
  refreshed : Bool

inductive PagerStep (P : Primitives) where
  /-- A row is inserted into any conversation. -/
  | insert (convo : ConvoId P) (now : NanoTimestamp) (event : ShownEvent)
      (sendError : Option String) (receivedAt : Option NanoTimestamp)
  /-- A message was sent, or was given up with an error. -/
  | receive (id : Nat) (receivedAt : NanoTimestamp) (sendError : Option String)
  | loadInitial (env : ReadEnv P)
  | refreshNewer (envs : List (ReadEnv P))
  | loadOlder (env : ReadEnv P)

namespace Pager

def start (db : ClientDb P) : Pager P := ⟨db, .empty, false⟩

section

variable (json : JsonReader P) (convo : ConvoId P)

/-- The identifiers of rows are `i64`. -/
def machine : Machine (Pager P) (PagerStep P) where
  step pager
    | .insert other now event sendError receivedAt =>
        if nextRowId (pager.db.convoMessages.map ConvoMessage.id) < 2 ^ 63 then
          some ⟨(pager.db.insertRow other now event sendError receivedAt).1, pager.view, false⟩
        else none
    | .receive id receivedAt sendError =>
        some ⟨match sendError with
          | none => pager.db.markMessageSent id receivedAt
          | some err => pager.db.markMessageFailed id err receivedAt, pager.view, false⟩
    | .loadInitial env =>
        (pager.view.loadInitial json convo env pager.db).map fun (db, view) => ⟨db, view, false⟩
    | .refreshNewer envs =>
        (pager.view.refreshNewer json convo envs pager.db).map fun (db, view, ok) => ⟨db, view, ok⟩
    | .loadOlder env =>
        (pager.view.loadOlder json convo env pager.db).map fun (db, view) => ⟨db, view, false⟩

/-- The state has exactly the displayable messages at or above `oldest_id`. -/
def Complete (pager : Pager P) : Prop :=
  ∀ id, id ∈ pager.view.messages ↔
    id ∈ pager.db.displayableIds json convo ∧ pager.view.covers id = true

/-- The newest rows which a call fetches reach down to what is missing, and no page leaves out
a displayable message between others. -/
def Unskipped (pager : Pager P) : PagerStep P → Prop
  | .loadInitial env => env.queryFails = false →
      pager.view.Fits json convo env pager.db none initialLimit
  | .refreshNewer envs => ∀ env ∈ envs.head?, env.queryFails = false →
      pager.view.Fits json convo env pager.db (some pager.view.refreshAfter) pageLimit
  | .loadOlder env => pager.view.noMoreOlder = false → env.queryFails = false →
      ∀ oldestId, pager.view.oldestId = some oldestId → ConvoState.Keeps json env pager.view
        (pager.db.historyRows convo (some ((oldestId : Int) - 1)) none pageLimit)
  | _ => True

/-- What every step which meets the guard keeps. -/
structure Sound (pager : Pager P) : Prop where
  opened : pager.view.Opened json convo pager.db
  gapless : pager.view.Gapless json convo pager.db
  refreshed : pager.refreshed = true → ∀ id, ¬pager.view.Missing json convo pager.db id

end

variable {json : JsonReader P} {convo : ConvoId P} {pager next : Pager P}

/-- After a refresh which ended well the state is complete. -/
theorem Sound.complete (sound : pager.Sound json convo) (refreshed : pager.refreshed = true) :
    pager.Complete json convo := by
  intro id
  constructor
  · intro listed
    exact ⟨sound.opened.holds.within id listed, sound.opened.holds.marked.oldest id listed⟩
  · rintro ⟨displayable, covered⟩
    by_contra absent
    exact sound.refreshed refreshed id ⟨displayable, covered, absent⟩

/-! ## Steps and runs -/

/-- What an insertion makes of the rows. -/
theorem inserted_of_step (filed : pager.db.Filed) {other : ConvoId P} {now : NanoTimestamp}
    {event : ShownEvent} {sendError : Option String} {receivedAt : Option NanoTimestamp}
    (taken : (machine json convo).step pager (.insert other now event sendError receivedAt) =
      some next) :
    next.view = pager.view ∧ next.refreshed = false ∧
      nextRowId (pager.db.convoMessages.map ConvoMessage.id) < 2 ^ 63 ∧
        ∃ added, pager.db.InsertedRow other (next.db, added) := by
  simp only [machine] at taken
  split at taken
  · rename_i bounded
    have inserted := filed.insertRow other now event sendError receivedAt
    cases taken
    exact ⟨rfl, rfl, bounded, _, inserted⟩
  · cases taken

/-- A new row leaves the view with its database. -/
theorem opened_insert (opened : pager.view.Opened json convo pager.db) {other : ConvoId P}
    {now : NanoTimestamp} {event : ShownEvent} {sendError : Option String}
    {receivedAt : Option NanoTimestamp}
    (taken : (machine json convo).step pager (.insert other now event sendError receivedAt) =
      some next) : next.view.Opened json convo next.db := by
  obtain ⟨sameView, _, bounded, _, inserted⟩ := inserted_of_step opened.filed taken
  rw [sameView]
  cases inserted with
  | ignored filed rows joined =>
      have same : next.db.displayableIds json convo = pager.db.displayableIds json convo := by
        rw [ClientDb.displayableIds, joined, ClientDb.displayableIds]
      exact ⟨filed, rows ▸ opened.ids, rows ▸ opened.bounded, opened.holds.marked,
        same ▸ opened.holds.within⟩
  | @added _ row filed rows fresh joined =>
      refine ⟨filed, ?_, ?_, opened.holds.marked, ?_⟩
      · rw [rows, List.map_append, List.map_singleton, fresh]
        exact nodup_append_nextRowId opened.ids
      · intro found listed
        rw [rows, List.mem_append, List.mem_singleton] at listed
        rcases listed with old | rfl
        · exact opened.bounded found old
        · rwa [fresh]
      · intro id listed
        obtain ⟨found, old, decodes, rfl⟩ :=
          ClientDb.mem_displayableIds.mp (opened.holds.within id listed)
        exact ClientDb.mem_displayableIds.mpr
          ⟨found, joined ▸ List.mem_append_left _ old, decodes, rfl⟩

/-- A new row is newer than what is there. -/
theorem gapless_insert (opened : pager.view.Opened json convo pager.db)
    (gapless : pager.view.Gapless json convo pager.db) {other : ConvoId P} {now : NanoTimestamp}
    {event : ShownEvent} {sendError : Option String} {receivedAt : Option NanoTimestamp}
    (taken : (machine json convo).step pager (.insert other now event sendError receivedAt) =
      some next) : next.view.Gapless json convo next.db := by
  obtain ⟨sameView, _, _, _, inserted⟩ := inserted_of_step opened.filed taken
  rw [sameView]
  rintro id ⟨displayable, lacking⟩ held listed
  obtain ⟨found, joinedNow, decodes, rfl⟩ := ClientDb.mem_displayableIds.mp displayable
  cases inserted with
  | ignored _ _ joined =>
      rw [joined] at joinedNow
      exact gapless found.id
        ⟨ClientDb.mem_displayableIds.mpr ⟨found, joinedNow, decodes, rfl⟩, lacking⟩ held listed
  | @added _ row _ _ fresh joined =>
      rw [joined, List.mem_append, List.mem_singleton] at joinedNow
      rcases joinedNow with old | new
      · exact gapless found.id
          ⟨ClientDb.mem_displayableIds.mpr ⟨found, old, decodes, rfl⟩, lacking⟩ held listed
      · cases new
        obtain ⟨earlier, old, _, rfl⟩ :=
          ClientDb.mem_displayableIds.mp (opened.holds.within held listed)
        rw [fresh]
        exact lt_nextRowId (List.mem_map_of_mem (ClientDb.mem_joinedMessages.mp old).1)

/-- What marks a message as sent or as failed leaves everything else of its row. -/
theorem received_of_step {id : Nat} {receivedAt : NanoTimestamp} {sendError : Option String}
    (taken : (machine json convo).step pager (.receive id receivedAt sendError) = some next) :
    ∃ change : ConvoMessage → ConvoMessage, (∀ row, (change row).convoId = row.convoId) ∧
      (∀ row, (change row).id = row.id) ∧ (∀ row, (change row).shown = row.shown) ∧
        next = ⟨pager.db.updateRow id change, pager.view, false⟩ := by
  cases taken
  cases sendError with
  | none =>
      exact ⟨fun row => { row with receivedAt := some receivedAt }, fun _ => rfl, fun _ => rfl,
        fun _ => rfl, rfl⟩
  | some err =>
      exact ⟨fun row => { row with sendError := some err, receivedAt := some receivedAt },
        fun _ => rfl, fun _ => rfl, fun _ => rfl, rfl⟩

/-- Rows which show the same are displayable alike. -/
theorem displayable_of_shown {first second : ConvoMessage} (same : first.shown = second.shown) :
    first.displayable json = second.displayable json := by
  have mime : first.mime = second.mime := congrArg ShownEvent.mime same
  have body : first.body = second.body := congrArg ShownEvent.body same
  rw [ConvoMessage.displayable, mime, body, ConvoMessage.displayable]

/-- The displayable rows stay the same when a message is sent or given up. -/
theorem displayableIds_received {id : Nat} {receivedAt : NanoTimestamp}
    {sendError : Option String}
    (taken : (machine json convo).step pager (.receive id receivedAt sendError) = some next)
    (other : Nat) :
    other ∈ next.db.displayableIds json convo ↔ other ∈ pager.db.displayableIds json convo := by
  obtain ⟨change, convoId, ids, shown, rfl⟩ := received_of_step taken
  exact ClientDb.mem_displayableIds_updateRow convoId ids fun row =>
    displayable_of_shown (shown row)

/-- A time of receipt leaves the view with its database. -/
theorem opened_receive (opened : pager.view.Opened json convo pager.db) {id : Nat}
    {receivedAt : NanoTimestamp} {sendError : Option String}
    (taken : (machine json convo).step pager (.receive id receivedAt sendError) = some next) :
    next.view.Opened json convo next.db := by
  have same := displayableIds_received taken
  obtain ⟨change, convoId, ids, shown, rfl⟩ := received_of_step taken
  have rowIds : (pager.db.updateRow id change).convoMessages.map ConvoMessage.id =
      pager.db.convoMessages.map ConvoMessage.id := ClientDb.ids_updateRow ids
  refine ⟨ClientDb.filed_updateRow opened.filed convoId shown, ?_, ?_, opened.holds.marked, ?_⟩
  · rw [rowIds]
    exact opened.ids
  · intro row listed
    have listedId := List.mem_map_of_mem (f := ConvoMessage.id) listed
    rw [rowIds] at listedId
    obtain ⟨earlier, old, sameId⟩ := List.mem_map.mp listedId
    rw [← sameId]
    exact opened.bounded earlier old
  · intro other listed
    exact (same other).mpr (opened.holds.within other listed)

/-- Whatever happens, the view has displayable messages of its conversation only. -/
theorem opened_step (opened : pager.view.Opened json convo pager.db) {event : PagerStep P}
    (taken : (machine json convo).step pager event = some next) :
    next.view.Opened json convo next.db := by
  cases event with
  | insert other now event sendError receivedAt => exact opened_insert opened taken
  | receive id receivedAt sendError => exact opened_receive opened taken
  | loadInitial env =>
      obtain ⟨⟨db, view⟩, ends, rfl⟩ := Option.map_eq_some_iff.mp taken
      exact opened.loadInitial ends
  | refreshNewer envs =>
      obtain ⟨⟨db, view, ok⟩, ends, rfl⟩ := Option.map_eq_some_iff.mp taken
      exact opened.of_refreshLoop ends
  | loadOlder env =>
      obtain ⟨⟨db, view⟩, ends, rfl⟩ := Option.map_eq_some_iff.mp taken
      exact opened.loadOlder ends

theorem opened_start (json : JsonReader P) (convo : ConvoId P) {db : ClientDb P}
    (filed : db.Filed) (ids : (db.convoMessages.map ConvoMessage.id).Nodup)
    (bounded : ∀ row ∈ db.convoMessages, row.id < 2 ^ 63) :
    (start db).view.Opened json convo db :=
  ⟨filed, ids, bounded, ConvoState.marked_empty, fun _ listed => by cases listed⟩

/-- In every run the view goes with its database. -/
theorem opened_exec {events : List (PagerStep P)}
    (opened : pager.view.Opened json convo pager.db)
    (reached : (machine json convo).exec pager events = some next) :
    next.view.Opened json convo next.db :=
  have always : (machine json convo).Always (fun pager => pager.view.Opened json convo pager.db)
      pager events := Machine.always_of_step (fun opened taken => opened_step opened taken) events opened
  always.last reached

/-- Every unskipped step keeps the view without gaps. -/
theorem Sound.step (sound : pager.Sound json convo) {event : PagerStep P}
    (unskipped : pager.Unskipped json convo event)
    (taken : (machine json convo).step pager event = some next) : next.Sound json convo := by
  have opened := opened_step sound.opened taken
  cases event with
  | insert other now event sendError receivedAt =>
      obtain ⟨_, changed, _⟩ := inserted_of_step sound.opened.filed taken
      refine ⟨opened, gapless_insert sound.opened sound.gapless taken, ?_⟩
      rw [changed]
      exact fun impossible => by cases impossible
  | receive id receivedAt sendError =>
      have same := displayableIds_received taken
      obtain ⟨change, _, _, _, rfl⟩ := received_of_step taken
      refine ⟨opened, ?_, fun impossible => by cases impossible⟩
      rintro other ⟨displayable, lacking⟩
      exact sound.gapless other ⟨(same other).mp displayable, lacking⟩
  | loadInitial env =>
      obtain ⟨⟨db, view⟩, ends, rfl⟩ := Option.map_eq_some_iff.mp taken
      exact ⟨opened, sound.gapless.loadInitial sound.opened unskipped ends,
        fun impossible => by cases impossible⟩
  | refreshNewer envs =>
      obtain ⟨⟨db, view, ok⟩, ends, rfl⟩ := Option.map_eq_some_iff.mp taken
      obtain ⟨gapless, complete⟩ := sound.gapless.refreshNewer sound.opened unskipped ends
      exact ⟨opened, gapless, complete⟩
  | loadOlder env =>
      obtain ⟨⟨db, view⟩, ends, rfl⟩ := Option.map_eq_some_iff.mp taken
      exact ⟨opened, sound.gapless.loadOlder sound.opened unskipped ends,
        fun impossible => by cases impossible⟩

/-- In every unskipped run the view has no gaps. -/
theorem sound_of_unskipped (json : JsonReader P) (convo : ConvoId P) {db : ClientDb P}
    (filed : db.Filed) (ids : (db.convoMessages.map ConvoMessage.id).Nodup)
    (bounded : ∀ row ∈ db.convoMessages, row.id < 2 ^ 63) {events : List (PagerStep P)}
    (along : (machine json convo).Along (Unskipped json convo) (start db) events) :
    (machine json convo).Always (Sound json convo) (start db) events := by
  have sound : (start db).Sound json convo :=
    ⟨opened_start json convo filed ids bounded, fun _ _ _ listed => (nomatch listed),
      fun impossible => (nomatch impossible)⟩
  exact Machine.always_of_along (fun sound unskipped taken => sound.step unskipped taken) sound along

/-- When the pages of all calls reach down to what is missing, each successful refresh leaves
no holes in the view. -/
theorem complete_of_unskipped (json : JsonReader P) (convo : ConvoId P) {db : ClientDb P}
    (filed : db.Filed) (ids : (db.convoMessages.map ConvoMessage.id).Nodup)
    (bounded : ∀ row ∈ db.convoMessages, row.id < 2 ^ 63) {events : List (PagerStep P)}
    (along : (machine json convo).Along (Unskipped json convo) (start db) events) :
    (machine json convo).Always
      (fun pager => pager.refreshed = true → pager.Complete json convo) (start db) events :=
  fun before position pager reached refreshed =>
    (sound_of_unskipped json convo filed ids bounded along before position pager reached).complete
      refreshed

/-- A message of Bobby. -/
def bobbySends (sentAt : NanoTimestamp) : PagerStep symbolic :=
  .insert (.direct bobby) 1 ⟨bobby, "text/plain", utf8 "hi", sentAt⟩ none (some sentAt)

/-- A chat in which Bobby's first message has been loaded. -/
def openChat : Pager symbolic where
  db := ((ClientDb.empty : ClientDb symbolic).insertRow (.direct bobby) 1
    ⟨bobby, "text/plain", utf8 "hi", 1⟩ none (some 1)).1
  view :=
    { ConvoState.empty.applyMessage
        ⟨1, .direct bobby, bobby, .plainText (utf8 "hi"), none, some 1⟩ with
      initialized := true }
  refreshed := false

theorem calm_calmReads : ConvoState.Calm (calmReads : ReadEnv P) :=
  ⟨rfl, fun _ => rfl⟩

/-- Without stored roots no sum overflows, since no body is an attachment. -/
theorem summable_symbolic {db : ClientDb symbolic}
    (noRoots : db.attachmentRoots.entries.length = 0) : db.Summable symbolicJson := by
  constructor
  · intro row _ _ root read
    cases read
  · intro id root sender looked
    rw [← Option.mem_def, AList.mem_lookup_iff, List.length_eq_zero_iff.mp noRoots] at looked
    cases looked

theorem step_bobbySends : (machine symbolicJson (.direct bobby)).step (start ClientDb.empty)
    (bobbySends 1) = some ⟨openChat.db, .empty, false⟩ := rfl

/-- `load_initial` on a database of one short conversation. -/
theorem step_loadInitial {db : ClientDb symbolic} {found : ConvoRow}
    (looked : db.convos.lookup (.direct bobby) = some found)
    (ascends : db.convoMessages.Pairwise fun first second => first.id < second.id)
    (owned : ∀ row ∈ db.convoMessages, row.convoId = found.id ∧ row.id < 2 ^ 63)
    (few : db.convoMessages.length ≤ initialLimit.toNat) {messages : List (MessageView symbolic)}
    (read : db.showRows symbolicJson calmReads (.direct bobby) db.convoMessages =
      (db, .ok messages)) :
    (machine symbolicJson (.direct bobby)).step ⟨db, .empty, false⟩ (.loadInitial calmReads) =
      some ⟨db, { ConvoState.empty.applyMessages messages with initialized := true }, false⟩ := by
  have loaded : ConvoState.loadInitial symbolicJson (.direct bobby) calmReads .empty db =
      some (db, { ConvoState.empty.applyMessages messages with initialized := true }) := by
    rw [ConvoState.loadInitial, ClientDb.convoHistory, if_neg (by decide),
      ClientDb.historyRows_all looked ascends owned few, read]
  simp only [machine, loaded]
  rfl

theorem step_openChat : (machine symbolicJson (.direct bobby)).step
    ⟨openChat.db, .empty, false⟩ (.loadInitial calmReads) = some openChat :=
  @step_loadInitial openChat.db ⟨1, 1⟩ (by decide +kernel) (by decide +kernel)
    (by decide +kernel) (by decide +kernel) _ rfl

/-- The run after which the chat is open meets the guard. -/
theorem along_openChat {later : List (PagerStep symbolic)}
    (along : (machine symbolicJson (.direct bobby)).Along (Unskipped symbolicJson (.direct bobby))
      openChat later) :
    (machine symbolicJson (.direct bobby)).Along (Unskipped symbolicJson (.direct bobby))
      (start ClientDb.empty) (bobbySends 1 :: .loadInitial calmReads :: later) := by
  rw [Machine.along_cons]
  intro next taken
  cases step_bobbySends.symm.trans taken
  refine ⟨trivial, Machine.along_cons.mpr ?_⟩
  intro next taken
  cases step_openChat.symm.trans taken
  exact ⟨fun _ => calm_calmReads.fits (by decide), along⟩

theorem oneMore_complete :
    (machine symbolicJson (.direct bobby)).Always
      (fun pager => pager.refreshed = true → pager.Complete symbolicJson (.direct bobby))
      (start ClientDb.empty)
      [bobbySends 1, .loadInitial calmReads, bobbySends 2, .refreshNewer [calmReads, calmReads]] := by
  refine complete_of_unskipped symbolicJson (.direct bobby) ClientDb.filed_empty List.nodup_nil
    (by rintro row ⟨⟩) (along_openChat ?_)
  rw [Machine.along_cons]
  rintro next ⟨⟩
  refine ⟨trivial, Machine.along_cons.mpr fun last _ => ⟨?_, Machine.along_nil _ _⟩⟩
  rintro env ⟨rfl⟩ _
  exact calm_calmReads.fits (by decide +kernel)

/-- Bobby's next messages. -/
def burst : List (PagerStep symbolic) :=
  [2, 3, 4, 5, 6, 7, 8, 9, 10, 11, 12].map bobbySends

theorem along_burst : (machine symbolicJson (.direct bobby)).Along
    (Unskipped symbolicJson (.direct bobby)) openChat burst := by
  intro before event position pager next _ _
  have listed : event ∈ burst :=
    position.subset (List.mem_append_right _ (List.mem_singleton_self event))
  obtain ⟨sentAt, _, rfl⟩ := List.mem_map.mp listed
  trivial

/-- Of eleven messages which come at once the oldest one is never fetched. -/
theorem burst_incomplete :
    ¬∀ events, (machine symbolicJson (.direct bobby)).Always
      (fun pager => pager.refreshed = true → pager.Complete symbolicJson (.direct bobby))
      (start ClientDb.empty) events := by
  intro always
  have ends : ((machine symbolicJson (.direct bobby)).exec openChat burst).map (fun pager =>
      (decide (2 ∈ pager.db.displayableIds symbolicJson (.direct bobby)), pager.view.covers 2,
        decide (2 ∈ pager.view.messages), pager.db.newerRows (.direct bobby) 2,
        pager.db.attachmentRoots.entries.length,
        pager.db.convoMessages.all fun row => decide (row.id + 1 < 2 ^ 63))) =
      some (true, true, false, 10, 0, true) := by decide +kernel
  obtain ⟨pager, reached, seen⟩ := Option.map_eq_some_iff.mp ends
  simp only [Prod.mk.injEq, decide_eq_false_iff_not, decide_eq_true_eq, List.all_eq_true] at seen
  obtain ⟨displayable, covered, absent, many, noRoots, small⟩ := seen
  have whole : (machine symbolicJson (.direct bobby)).exec (start ClientDb.empty)
      (bobbySends 1 :: .loadInitial calmReads :: burst) = some pager := by
    rw [Machine.exec_cons, step_bobbySends, Option.bind_some, Machine.exec_cons, step_openChat,
      Option.bind_some, reached]
  have opened := (sound_of_unskipped symbolicJson (.direct bobby) ClientDb.filed_empty
    List.nodup_nil (by rintro row ⟨⟩) (along_openChat along_burst)).last whole |>.opened
  obtain ⟨db, view, refreshes, _⟩ := opened.refreshNewer_ends
    (summable_symbolic noRoots) small calm_calmReads calm_calmReads
  have missing : view.Missing symbolicJson (.direct bobby) db 2 :=
    opened.refreshLoop_missing ⟨displayable, covered, absent⟩ (le_of_eq many.symm) refreshes
  have final : (machine symbolicJson (.direct bobby)).exec (start ClientDb.empty)
      (bobbySends 1 :: .loadInitial calmReads :: burst ++
        [.refreshNewer [calmReads, calmReads]]) = some ⟨db, view, true⟩ := by
    refine Machine.exec_snoc.mpr ⟨pager, whole, ?_⟩
    simp only [machine, refreshes, Option.map_some]
  have complete := (always _).last final rfl
  exact missing.2.2 ((complete 2).mpr ⟨missing.1, missing.2.1⟩)

end Pager
end Nullspace
