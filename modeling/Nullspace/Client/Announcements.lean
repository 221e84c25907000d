import Nullspace.Client.Queue

/-!
# Announcing changed conversations

`message_event_loop` looks for new rows above the highest identifier which it has seen, and
for sent rows above the highest `received_at`. Both marks are global, and the first one moves
before the second query has succeeded. A run interleaves the loop with the writes and keeps,
beside the state, which changes are not announced yet. `announced_of_unmissed` says in which
runs every pass announces what it was woken for.
-/

namespace Nullspace

open Nullspace.Base

variable {P : Primitives}

/-- The events of `message_event_loop`. -/
inductive LoopEvent (P : Primitives) where
  | convoUpdated (convo : ConvoId P)
  | groupUpdated (group : GroupId P)
deriving DecidableEq

namespace ClientDb

/-- `new_message_convos`. -/
def newMessageConvos (db : ClientDb P) (lastSeenId : Int) : Int × List (ConvoId P) :=
  let rows := db.joinedMessages.filter fun entry => lastSeenId < entry.1.id
  (rows.foldl (fun maxId entry => max maxId entry.1.id) lastSeenId, (rows.map Prod.snd).dedup)

/-- `new_received_convos`. -/
def newReceivedConvos (db : ClientDb P) (lastSeenReceivedAt : Int) : Int × List (ConvoId P) :=
  let rows := db.joinedMessages.filterMap fun entry =>
    entry.1.receivedAt.bind fun receivedAt =>
      if lastSeenReceivedAt < asI64 receivedAt then some (asI64 receivedAt, entry.2) else none
  (rows.foldl (fun maxReceivedAt row => max maxReceivedAt row.1) lastSeenReceivedAt,
    (rows.map Prod.snd).dedup)

/-- `load_group_versions`. -/
def loadGroupVersions (db : ClientDb P) : List (GroupId P × Nat) :=
  db.groups.rows.map fun row => (row.1, row.2.roster.version)

/-- `updated_group_versions`. -/
def updatedGroupVersions (db : ClientDb P) (known : List (GroupId P × Nat)) :
    List (GroupId P × Nat) × List (GroupId P) :=
  let current := db.loadGroupVersions
  (current, (current.filter fun entry =>
    match known.lookup entry.1 with
    | some prev => decide (prev < entry.2)
    | none => true).map Prod.fst)

/-- The first query finds the conversations with rows above its mark. -/
theorem mem_newMessageConvos {db : ClientDb P} {lastSeenId : Int} {convo : ConvoId P} :
    convo ∈ (db.newMessageConvos lastSeenId).2 ↔
      ∃ row, (row, convo) ∈ db.joinedMessages ∧ lastSeenId < row.id := by
  simp only [newMessageConvos, List.mem_dedup, List.mem_map, List.mem_filter, decide_eq_true_eq]
  constructor
  · rintro ⟨⟨row, _⟩, ⟨joined, above⟩, rfl⟩
    exact ⟨row, joined, above⟩
  · rintro ⟨row, joined, above⟩
    exact ⟨(row, convo), ⟨joined, above⟩, rfl⟩

/-- The second query finds the conversations with times of receipt above its mark. -/
theorem mem_newReceivedConvos {db : ClientDb P} {lastSeenReceivedAt : Int} {convo : ConvoId P} :
    convo ∈ (db.newReceivedConvos lastSeenReceivedAt).2 ↔
      ∃ row receivedAt, (row, convo) ∈ db.joinedMessages ∧ row.receivedAt = some receivedAt ∧
        lastSeenReceivedAt < asI64 receivedAt := by
  simp only [newReceivedConvos, List.mem_dedup, List.mem_map, List.mem_filterMap,
    Option.bind_eq_some_iff, Option.ite_none_right_eq_some, Option.some.injEq]
  constructor
  · rintro ⟨_, ⟨⟨row, _⟩, joined, receivedAt, received, above, rfl⟩, rfl⟩
    exact ⟨row, receivedAt, joined, received, above⟩
  · rintro ⟨row, receivedAt, joined, received, above⟩
    exact ⟨(asI64 receivedAt, convo), ⟨(row, convo), joined, receivedAt, received, above, rfl⟩, rfl⟩

/-- The mark over identifiers stays below the identifier of the next row. -/
theorem newMessageConvos_lt {db : ClientDb P} {lastSeenId : Int}
    (below : lastSeenId < nextRowId (db.convoMessages.map ConvoMessage.id)) :
    (db.newMessageConvos lastSeenId).1 < nextRowId (db.convoMessages.map ConvoMessage.id) := by
  have bounded : ∀ rows : List (ConvoMessage × ConvoId P), rows ⊆ db.joinedMessages →
      ∀ mark : Int, mark < nextRowId (db.convoMessages.map ConvoMessage.id) →
        rows.foldl (fun maxId entry => max maxId (entry.1.id : Int)) mark <
          nextRowId (db.convoMessages.map ConvoMessage.id) := by
    intro rows
    induction rows with
    | nil => exact fun _ mark low => low
    | cons first rest ih =>
        intro within mark low
        refine ih (fun _ later => within (List.mem_cons_of_mem first later)) _ ?_
        have joined := within List.mem_cons_self
        have listed : first.1.id ∈ db.convoMessages.map ConvoMessage.id :=
          List.mem_map_of_mem (mem_joinedMessages.mp joined).1
        exact max_lt low (Int.ofNat_lt.mpr (lt_nextRowId listed))
  exact bounded _ List.filter_sublist.subset lastSeenId below

end ClientDb

/-- Where the loop is. -/
inductive LoopPhase (P : Primitives) where
  /-- In `wait_for_change`. -/
  | waiting
  | woken
  /-- The first query has found these conversations. -/
  | messagesSeen (convos : List (ConvoId P))
  /-- The conversations are announced. -/
  | announced

def LoopPhase.isWaiting : LoopPhase P → Bool
  | .waiting => true
  | _ => false

/-- What has come after a change: no `touch`, a `touch`, or a pass which a `touch` woke. -/
inductive Notice where
  | made
  | touched
  | claimed
deriving DecidableEq

/-- A change which is not announced yet. The code keeps no such record. -/
structure RowChange (P : Primitives) where
  convo : ConvoId P
  notice : Notice

/-- The change after `DbNotify::touch`. -/
def RowChange.touch (change : RowChange P) : RowChange P :=
  { change with notice := if change.notice = .made then .touched else change.notice }

/-- The change when a pass begins. -/
def RowChange.claim (change : RowChange P) : RowChange P :=
  { change with notice := if change.notice = .touched then .claimed else change.notice }

/-- The change when a pass has failed. -/
def RowChange.reopen (change : RowChange P) : RowChange P :=
  { change with notice := if change.notice = .claimed then .touched else change.notice }

structure MessageLoop (P : Primitives) where
  db : ClientDb P
  /-- `DB_NOTIFY_GEN`. -/
  notifyGen : Nat
  /-- `last_seen` of the loop's `DbNotify`. -/
  lastSeen : Nat
  phase : LoopPhase P
  lastSeenId : Int
  lastSeenReceivedAt : Int
  groupVersions : List (GroupId P × Nat)
  emitted : List (LoopEvent P)
  changes : List (RowChange P)

inductive MessageLoopStep (P : Primitives) where
  /-- A row is inserted, by the receive loops or by the user. -/
  | insert (convo : ConvoId P) (now : NanoTimestamp) (event : ShownEvent)
      (sendError : Option String) (receivedAt : Option NanoTimestamp)
  /-- `received_at` of a row is set, with an error if the message was not sent. -/
  | receive (id : Nat) (receivedAt : NanoTimestamp) (sendError : Option String)
  /-- The groups are written. -/
  | regroup (groups : Table (GroupId P) (GroupRecord P))
  | touch
  | wake
  | queryMessages (fails : Bool)
  | queryReceived (fails : Bool)
  | queryGroups (fails : Bool)

namespace MessageLoop

/-- A loop which has read its marks. What was there before is not for it to announce. -/
def start (db : ClientDb P) (lastSeenId lastSeenReceivedAt : Int)
    (groupVersions : List (GroupId P × Nat)) : MessageLoop P :=
  ⟨db, 0, 0, .waiting, lastSeenId, lastSeenReceivedAt, groupVersions, [], []⟩

/-- A failed pass leaves what it was woken for to the next one. -/
def fail (loop : MessageLoop P) : MessageLoop P :=
  { loop with phase := .waiting, changes := loop.changes.map RowChange.reopen }

/-- The row which an `UPDATE` of `received_at` is for, with its conversation. -/
def unreceived (loop : MessageLoop P) (id : Nat) : Option (ConvoMessage × ConvoId P) :=
  loop.db.joinedMessages.find? fun entry => decide (entry.1.id = id) && entry.1.receivedAt.isNone

def machine : Machine (MessageLoop P) (MessageLoopStep P) where
  step loop
    | .insert convo now event sendError receivedAt =>
        match loop.db.insertRow convo now event sendError receivedAt with
        | (db, false) => some { loop with db := db }
        | (db, true) =>
            some { loop with db := db, changes := loop.changes ++ [⟨convo, .made⟩] }
    | .receive id receivedAt sendError =>
        match loop.unreceived id with
        | none => none
        | some entry =>
            some { loop with
              db :=
                match sendError with
                | none => loop.db.markMessageSent id receivedAt
                | some err => loop.db.markMessageFailed id err receivedAt
              changes := loop.changes ++ [⟨entry.2, .made⟩] }
    | .regroup groups => some { loop with db := { loop.db with groups := groups } }
    | .touch =>
        some { loop with
          notifyGen := loop.notifyGen + 1
          changes := loop.changes.map RowChange.touch }
    | .wake =>
        match loop.phase with
        | .waiting =>
            if loop.notifyGen = loop.lastSeen then none
            else
              some { loop with
                phase := .woken
                lastSeen := loop.notifyGen
                changes := loop.changes.map RowChange.claim }
        | _ => none
    | .queryMessages fails =>
        match loop.phase with
        | .woken =>
            if fails then some loop.fail
            else
              let (newLast, convos) := loop.db.newMessageConvos loop.lastSeenId
              some { loop with phase := .messagesSeen convos, lastSeenId := newLast }
        | _ => none
    | .queryReceived fails =>
        match loop.phase with
        | .messagesSeen convos =>
            if fails then some loop.fail
            else
              let (newReceivedAt, receivedConvos) :=
                loop.db.newReceivedConvos loop.lastSeenReceivedAt
              let updated := convos ++ receivedConvos
              some { loop with
                phase := .announced
                lastSeenReceivedAt := newReceivedAt
                emitted := loop.emitted ++ updated.map .convoUpdated
                changes := loop.changes.filter fun change => decide (change.convo ∉ updated) }
        | _ => none
    | .queryGroups fails =>
        match loop.phase with
        | .announced =>
            if fails then some loop.fail
            else
              let (nextVersions, rosterGroups) := loop.db.updatedGroupVersions loop.groupVersions
              some { loop with
                phase := .waiting
                groupVersions := nextVersions
                emitted := loop.emitted ++ rosterGroups.map .groupUpdated }
        | _ => none

/-- After a successful pass everything which it was woken for has been announced. -/
def Settled (loop : MessageLoop P) : Prop :=
  loop.phase = .waiting → ∀ change ∈ loop.changes, change.notice ≠ .claimed

/-- A query which is still to come finds a row of the conversation. -/
def Visible (loop : MessageLoop P) (convo : ConvoId P) : Prop :=
  ∃ row, (row, convo) ∈ loop.db.joinedMessages ∧
    (loop.lastSeenId < row.id ∨
      ∃ receivedAt, row.receivedAt = some receivedAt ∧ loop.lastSeenReceivedAt < asI64 receivedAt)

/-- The conversations which the first query of the pass has found. -/
def carried (loop : MessageLoop P) : List (ConvoId P) :=
  match loop.phase with
  | .messagesSeen convos => convos
  | _ => []

/-- The conversation is going to be announced if no query fails. -/
def Found (loop : MessageLoop P) (convo : ConvoId P) : Prop :=
  convo ∈ loop.carried ∨ loop.Visible convo

/-- No change has been missed so far. -/
def AllFound (loop : MessageLoop P) : Prop := ∀ change ∈ loop.changes, loop.Found change.convo

/-- A row gets a `received_at` above the mark, unless its conversation is going to be
announced anyway; and the second query of a pass fails only when a later pass finds the
conversations of all changes. -/
def Unmissed (loop : MessageLoop P) : MessageLoopStep P → Prop
  | .receive id receivedAt _ => loop.lastSeenReceivedAt < asI64 receivedAt ∨
      ∀ entry, loop.unreceived id = some entry → loop.Found entry.2
  | .queryReceived true => ∀ change ∈ loop.changes, loop.Visible change.convo
  | _ => True

/-- What every step keeps. -/
structure Sound (loop : MessageLoop P) : Prop where
  filed : loop.db.Filed
  ids : (loop.db.convoMessages.map ConvoMessage.id).Nodup
  /-- The next row is above the mark. -/
  below : loop.lastSeenId < nextRowId (loop.db.convoMessages.map ConvoMessage.id)

/-! ## Steps and runs -/

/-- A change announces itself to the same queries as long as rows and marks stay. -/
theorem Found.of_same {loop next : MessageLoop P} {convo : ConvoId P} (found : loop.Found convo)
    (carried : loop.carried ⊆ next.carried)
    (joined : loop.db.joinedMessages ⊆ next.db.joinedMessages)
    (lastSeenId : next.lastSeenId = loop.lastSeenId)
    (lastSeenReceivedAt : next.lastSeenReceivedAt = loop.lastSeenReceivedAt) :
    next.Found convo := by
  rcases found with listed | ⟨row, listed, visible⟩
  · exact Or.inl (carried listed)
  · exact Or.inr ⟨row, joined listed, by rwa [lastSeenId, lastSeenReceivedAt]⟩

/-- What a step does to the loop. -/
inductive Moved (loop : MessageLoop P) : MessageLoopStep P → MessageLoop P → Prop
  | ignored {convo : ConvoId P} {now : NanoTimestamp} {event : ShownEvent}
      {sendError : Option String} {receivedAt : Option NanoTimestamp} {db : ClientDb P}
      (filed : db.Filed) (rows : db.convoMessages = loop.db.convoMessages)
      (joined : db.joinedMessages = loop.db.joinedMessages) :
      Moved loop (.insert convo now event sendError receivedAt) { loop with db := db }
  | added {convo : ConvoId P} {now : NanoTimestamp} {event : ShownEvent}
      {sendError : Option String} {receivedAt : Option NanoTimestamp} {db : ClientDb P}
      {row : ConvoMessage} (filed : db.Filed)
      (rows : db.convoMessages = loop.db.convoMessages ++ [row])
      (fresh : row.id = nextRowId (loop.db.convoMessages.map ConvoMessage.id))
      (joined : db.joinedMessages = loop.db.joinedMessages ++ [(row, convo)]) :
      Moved loop (.insert convo now event sendError receivedAt)
        { loop with db := db, changes := loop.changes ++ [⟨convo, .made⟩] }
  | received {id : Nat} {receivedAt : NanoTimestamp} {sendError : Option String}
      {entry : ConvoMessage × ConvoId P} {sendErrors : ConvoMessage → Option String}
      (pending : loop.unreceived id = some entry) :
      Moved loop (.receive id receivedAt sendError)
        { loop with
          db := loop.db.updateRow id fun row =>
            { row with sendError := sendErrors row, receivedAt := some receivedAt }
          changes := loop.changes ++ [⟨entry.2, .made⟩] }
  | regrouped {groups : Table (GroupId P) (GroupRecord P)} :
      Moved loop (.regroup groups) { loop with db := { loop.db with groups := groups } }
  | touched :
      Moved loop .touch
        { loop with
          notifyGen := loop.notifyGen + 1
          changes := loop.changes.map RowChange.touch }
  | woke (waiting : loop.phase = .waiting) :
      Moved loop .wake
        { loop with
          phase := .woken
          lastSeen := loop.notifyGen
          changes := loop.changes.map RowChange.claim }
  | messagesFailed (woken : loop.phase = .woken) : Moved loop (.queryMessages true) loop.fail
  | messagesRead (woken : loop.phase = .woken) :
      Moved loop (.queryMessages false)
        { loop with
          phase := .messagesSeen (loop.db.newMessageConvos loop.lastSeenId).2
          lastSeenId := (loop.db.newMessageConvos loop.lastSeenId).1 }
  | receivedFailed {convos : List (ConvoId P)} (seen : loop.phase = .messagesSeen convos) :
      Moved loop (.queryReceived true) loop.fail
  | receivedRead {convos updated : List (ConvoId P)} (seen : loop.phase = .messagesSeen convos)
      (updates : updated = convos ++ (loop.db.newReceivedConvos loop.lastSeenReceivedAt).2) :
      Moved loop (.queryReceived false)
        { loop with
          phase := .announced
          lastSeenReceivedAt := (loop.db.newReceivedConvos loop.lastSeenReceivedAt).1
          emitted := loop.emitted ++ updated.map .convoUpdated
          changes := loop.changes.filter fun change => decide (change.convo ∉ updated) }
  | groupsFailed (announced : loop.phase = .announced) : Moved loop (.queryGroups true) loop.fail
  | groupsRead (announced : loop.phase = .announced) {groupVersions : List (GroupId P × Nat)}
      {emitted : List (LoopEvent P)} :
      Moved loop (.queryGroups false)
        { loop with phase := .waiting, groupVersions := groupVersions, emitted := emitted }

/-- What a step does to a sound loop. -/
theorem Sound.moved {loop next : MessageLoop P} {event : MessageLoopStep P} (sound : loop.Sound)
    (taken : machine.step loop event = some next) : Moved loop event next := by
  cases event with
  | insert convo now event sendError receivedAt =>
      have inserted := sound.filed.insertRow convo now event sendError receivedAt
      simp only [machine] at taken
      generalize loop.db.insertRow convo now event sendError receivedAt = outcome
        at inserted taken
      cases inserted with
      | ignored filed rows joined =>
          cases taken
          exact .ignored filed rows joined
      | added filed rows fresh joined =>
          cases taken
          exact .added filed rows fresh joined
  | receive id receivedAt sendError =>
      simp only [machine] at taken
      split at taken
      · cases taken
      · rename_i entry pending
        cases taken
        cases sendError with
        | none => exact .received pending
        | some err => exact .received pending
  | regroup groups =>
      cases taken
      exact .regrouped
  | touch =>
      cases taken
      exact .touched
  | wake =>
      simp only [machine] at taken
      split at taken
      · rename_i waiting
        split at taken
        · cases taken
        · cases taken
          exact .woke waiting
      · cases taken
  | queryMessages fails =>
      simp only [machine] at taken
      split at taken
      · rename_i woken
        cases fails with
        | true =>
            cases taken
            exact .messagesFailed woken
        | false =>
            cases taken
            exact .messagesRead woken
      · cases taken
  | queryReceived fails =>
      simp only [machine] at taken
      split at taken
      · rename_i convos seen
        cases fails with
        | true =>
            cases taken
            exact .receivedFailed seen
        | false =>
            cases taken
            exact .receivedRead seen rfl
      · cases taken
  | queryGroups fails =>
      simp only [machine] at taken
      split at taken
      · rename_i announced
        cases fails with
        | true =>
            cases taken
            exact .groupsFailed announced
        | false =>
            cases taken
            exact .groupsRead announced
      · cases taken

/-- A row without a time of receipt stands in its conversation. -/
theorem unreceived_eq_some {loop : MessageLoop P} {id : Nat} {entry : ConvoMessage × ConvoId P}
    (pending : loop.unreceived id = some entry) :
    entry ∈ loop.db.joinedMessages ∧ entry.1.id = id ∧ entry.1.receivedAt = none := by
  have holds := List.find?_some pending
  rw [Bool.and_eq_true, decide_eq_true_eq, Option.isNone_iff_eq_none] at holds
  exact ⟨List.mem_of_find?_eq_some pending, holds.1, holds.2⟩

/-- Every other row of the table has another identifier. -/
theorem Sound.row_unique {loop : MessageLoop P} (sound : loop.Sound) {first second : ConvoMessage}
    (firstListed : first ∈ loop.db.convoMessages) (secondListed : second ∈ loop.db.convoMessages)
    (same : first.id = second.id) : first = second :=
  List.inj_on_of_nodup_map sound.ids firstListed secondListed same

/-- A step which leaves the rows and the mark leaves the loop sound. -/
theorem Sound.of_db {loop next : MessageLoop P} (sound : loop.Sound) (db : next.db = loop.db)
    (lastSeenId : next.lastSeenId = loop.lastSeenId) : next.Sound :=
  ⟨db ▸ sound.filed, db ▸ sound.ids, by rw [lastSeenId, db]; exact sound.below⟩

/-- Every step leaves the loop sound. -/
theorem Sound.step {loop next : MessageLoop P} {event : MessageLoopStep P} (sound : loop.Sound)
    (taken : machine.step loop event = some next) : next.Sound := by
  cases sound.moved taken with
  | ignored filed rows joined =>
      exact ⟨filed, by rw [rows]; exact sound.ids, by rw [rows]; exact sound.below⟩
  | @added _ _ _ _ _ db row filed rows fresh joined =>
      refine ⟨filed, ?_, ?_⟩
      · rw [rows, List.map_append, List.map_singleton, fresh]
        exact nodup_append_nextRowId sound.ids
      · rw [rows, List.map_append, List.map_singleton]
        have grown : row.id < nextRowId (loop.db.convoMessages.map ConvoMessage.id ++ [row.id]) :=
          lt_nextRowId (List.mem_append_right _ (List.mem_singleton_self _))
        have below := sound.below
        rw [← fresh] at below
        exact below.trans (Int.ofNat_lt.mpr grown)
  | @received id receivedAt _ _ sendErrors pending =>
      have ids : ((loop.db.updateRow id fun row =>
          { row with sendError := sendErrors row, receivedAt := some receivedAt }).convoMessages.map
            ConvoMessage.id) = loop.db.convoMessages.map ConvoMessage.id :=
        ClientDb.ids_updateRow fun _ => rfl
      refine ⟨ClientDb.filed_updateRow sound.filed (fun _ => rfl) (fun _ => rfl), ?_, ?_⟩
      · rw [ids]
        exact sound.ids
      · rw [ids]
        exact sound.below
  | @regrouped groups =>
      have kept : ClientDb.Filed { loop.db with groups := groups } ∧
          ClientDb.contents { loop.db with groups := groups } = loop.db.contents :=
        sound.filed.of_same rfl rfl
      exact ⟨kept.1, sound.ids, sound.below⟩
  | messagesRead woken =>
      exact ⟨sound.filed, sound.ids, ClientDb.newMessageConvos_lt sound.below⟩
  | touched | woke | messagesFailed | receivedFailed | receivedRead | groupsFailed | groupsRead =>
      exact sound.of_db rfl rfl

/-- A row which gets its `received_at` stays visible, and is visible if that is above the
mark. -/
theorem found_receive {loop : MessageLoop P} (sound : loop.Sound) {id : Nat}
    {receivedAt : NanoTimestamp} {sendErrors : ConvoMessage → Option String}
    {entry : ConvoMessage × ConvoId P} (pending : loop.unreceived id = some entry)
    {changes : List (RowChange P)} (convo : ConvoId P) :
    Found { loop with
      db := loop.db.updateRow id fun row =>
        { row with sendError := sendErrors row, receivedAt := some receivedAt }
      changes := changes } convo ↔
      loop.Found convo ∨ convo = entry.2 ∧ loop.lastSeenReceivedAt < asI64 receivedAt := by
  obtain ⟨entryJoined, entryId, unset⟩ := unreceived_eq_some pending
  have joined {row : ConvoMessage} : (row, convo) ∈ (loop.db.updateRow id fun row =>
      { row with sendError := sendErrors row, receivedAt := some receivedAt }).joinedMessages ↔
        ∃ earlier, (earlier, convo) ∈ loop.db.joinedMessages ∧ row = if earlier.id = id then
          { earlier with sendError := sendErrors earlier, receivedAt := some receivedAt }
          else earlier := by
    apply ClientDb.mem_joined_updateRow
    intro _
    rfl
  have entryListed := (ClientDb.mem_joinedMessages.mp entryJoined).1
  constructor
  · rintro (listed | ⟨row, rowJoined, visible⟩)
    · exact Or.inl (Or.inl listed)
    · obtain ⟨earlier, earlierJoined, rfl⟩ := joined.mp rowJoined
      by_cases same : earlier.id = id
      · rw [if_pos same] at visible
        rcases visible with above | ⟨value, ⟨⟩, above⟩
        · exact Or.inl (Or.inr ⟨earlier, earlierJoined, Or.inl above⟩)
        · have unique : earlier = entry.1 :=
            sound.row_unique (ClientDb.mem_joinedMessages.mp earlierJoined).1 entryListed
              (same.trans entryId.symm)
          have standing := (ClientDb.mem_joinedMessages.mp earlierJoined).2
          have entryStanding := (ClientDb.mem_joinedMessages.mp entryJoined).2
          rw [unique, entryStanding] at standing
          exact Or.inr ⟨(Option.some.inj standing).symm, above⟩
      · rw [if_neg same] at visible
        exact Or.inl (Or.inr ⟨earlier, earlierJoined, visible⟩)
  · rintro ((listed | ⟨row, rowJoined, visible⟩) | ⟨rfl, above⟩)
    · exact Or.inl listed
    · refine Or.inr ⟨_, joined.mpr ⟨row, rowJoined, rfl⟩, ?_⟩
      by_cases same : row.id = id
      · have unique : row = entry.1 :=
          sound.row_unique (ClientDb.mem_joinedMessages.mp rowJoined).1 entryListed
            (same.trans entryId.symm)
        rw [if_pos same]
        rcases visible with high | ⟨value, received, _⟩
        · exact Or.inl high
        · rw [unique, unset] at received
          cases received
      · rw [if_neg same]
        exact visible
    · refine Or.inr ⟨_, joined.mpr ⟨entry.1, entryJoined, rfl⟩, ?_⟩
      rw [if_pos entryId]
      exact Or.inr ⟨receivedAt, rfl, above⟩

/-- A step misses no change exactly when it meets the guard. -/
theorem Sound.allFound_step {loop next : MessageLoop P} {event : MessageLoopStep P}
    (sound : loop.Sound) (found : loop.AllFound) (taken : machine.step loop event = some next) :
    next.AllFound ↔ loop.Unmissed event := by
  have mapped (move : RowChange P → RowChange P) (same : ∀ change, (move change).convo =
      change.convo) {next : MessageLoop P} (changes : next.changes = loop.changes.map move)
      (carried : loop.carried ⊆ next.carried) (db : next.db = loop.db)
      (lastSeenId : next.lastSeenId = loop.lastSeenId)
      (lastSeenReceivedAt : next.lastSeenReceivedAt = loop.lastSeenReceivedAt) :
      next.AllFound := by
    intro change listed
    rw [changes] at listed
    obtain ⟨earlier, old, rfl⟩ := List.mem_map.mp listed
    rw [same]
    exact (found earlier old).of_same carried (by rw [db]; exact List.Subset.refl _) lastSeenId
      lastSeenReceivedAt
  cases sound.moved taken with
  | ignored filed rows joined =>
      refine iff_of_true (fun change listed => ?_) trivial
      exact (found change listed).of_same (List.Subset.refl _)
        (by rw [joined]; exact List.Subset.refl _) rfl rfl
  | @added _ _ _ _ _ db row filed rows fresh joined =>
      refine iff_of_true (fun change listed => ?_) trivial
      rcases List.mem_append.mp listed with old | new
      · exact (found change old).of_same (List.Subset.refl _)
          (by rw [joined]; exact List.subset_append_left _ _) rfl rfl
      · rw [List.mem_singleton] at new
        subst new
        refine Or.inr ⟨row, ?_, Or.inl ?_⟩
        · rw [joined]
          exact List.mem_append_right _ (List.mem_singleton_self _)
        · rw [fresh]
          exact sound.below
  | @received _ _ _ entry _ pending =>
      rw [AllFound]
      simp only [found_receive sound pending, List.mem_append, List.mem_singleton, Unmissed]
      constructor
      · intro all
        rcases all _ (Or.inr rfl) with before | ⟨_, above⟩
        · refine Or.inr fun other same => ?_
          cases pending.symm.trans same
          exact before
        · exact Or.inl above
      · rintro enough change (old | rfl)
        · exact Or.inl (found change old)
        · rcases enough with above | before
          · exact Or.inr ⟨rfl, above⟩
          · exact Or.inl (before entry pending)
  | regrouped =>
      exact iff_of_true (fun change listed => (found change listed).of_same
        (List.Subset.refl _) (List.Subset.refl _) rfl rfl) trivial
  | touched =>
      exact iff_of_true
        (mapped RowChange.touch (fun _ => rfl) rfl (List.Subset.refl _) rfl rfl rfl) trivial
  | woke waiting =>
      refine iff_of_true (mapped RowChange.claim (fun _ => rfl) rfl ?_ rfl rfl rfl) trivial
      rw [carried, waiting]
      exact List.nil_subset _
  | messagesFailed woken =>
      refine iff_of_true (mapped RowChange.reopen (fun _ => rfl) rfl ?_ rfl rfl rfl) trivial
      rw [carried, woken]
      exact List.nil_subset _
  | messagesRead woken =>
      refine iff_of_true (fun change listed => ?_) trivial
      rcases found change listed with carrying | ⟨row, joined, above | received⟩
      · rw [carried, woken] at carrying
        cases carrying
      · exact Or.inl (ClientDb.mem_newMessageConvos.mpr ⟨row, joined, above⟩)
      · exact Or.inr ⟨row, joined, Or.inr received⟩
  | receivedFailed seen =>
      constructor
      · intro all change listed
        have still := all (RowChange.reopen change) (List.mem_map_of_mem listed)
        exact still.resolve_left List.not_mem_nil
      · rintro visible change listed
        obtain ⟨earlier, old, rfl⟩ := List.mem_map.mp listed
        exact Or.inr (visible earlier old)
  | receivedRead seen updates =>
      refine iff_of_true (fun change listed => ?_) trivial
      obtain ⟨old, apart⟩ := List.mem_filter.mp listed
      rw [decide_eq_true_eq, updates, List.mem_append, not_or] at apart
      rcases found change old with carrying | ⟨row, joined, above | received⟩
      · rw [carried, seen] at carrying
        exact absurd carrying apart.1
      · exact Or.inr ⟨row, joined, Or.inl above⟩
      · obtain ⟨receivedAt, same, above⟩ := received
        exact absurd (ClientDb.mem_newReceivedConvos.mpr
          ⟨row, receivedAt, joined, same, above⟩) apart.2
  | groupsFailed announced =>
      refine iff_of_true (mapped RowChange.reopen (fun _ => rfl) rfl ?_ rfl rfl rfl) trivial
      rw [carried, announced]
      exact List.nil_subset _
  | groupsRead announced =>
      refine iff_of_true (fun change listed => ?_) trivial
      refine (found change listed).of_same ?_ (List.Subset.refl _) rfl rfl
      rw [carried, announced]
      exact List.nil_subset _

/-- The second query finds a row of the conversation. -/
def VisibleReceived (loop : MessageLoop P) (convo : ConvoId P) : Prop :=
  ∃ row receivedAt, (row, convo) ∈ loop.db.joinedMessages ∧ row.receivedAt = some receivedAt ∧
    loop.lastSeenReceivedAt < asI64 receivedAt

/-- Where the changes stand which the pass was woken for. -/
def ClaimsHeld (loop : MessageLoop P) : Prop :=
  match loop.phase with
  | .woken => True
  | .messagesSeen convos => ∀ change ∈ loop.changes, change.notice = .claimed →
      change.convo ∈ convos ∨ loop.VisibleReceived change.convo
  | .waiting | .announced => ∀ change ∈ loop.changes, change.notice ≠ .claimed

/-- A pass which ends with its claims held has announced everything. -/
theorem ClaimsHeld.settled {loop : MessageLoop P} (held : loop.ClaimsHeld) : loop.Settled := by
  intro waiting
  rw [ClaimsHeld, waiting] at held
  exact held

/-- Writes leave the claims where they are. -/
theorem ClaimsHeld.of_write {loop next : MessageLoop P} (held : loop.ClaimsHeld)
    (phase : next.phase = loop.phase)
    (changes : ∀ change ∈ next.changes, change.notice = .claimed → change ∈ loop.changes)
    (visible : ∀ convo, loop.VisibleReceived convo → next.VisibleReceived convo) :
    next.ClaimsHeld := by
  rw [ClaimsHeld] at held ⊢
  rw [phase]
  cases current : loop.phase with
  | woken => trivial
  | waiting | announced =>
      simp only [current] at held
      exact fun change listed claimed => held change (changes change listed claimed) claimed
  | messagesSeen convos =>
      simp only [current] at held
      exact fun change listed claimed =>
        (held change (changes change listed claimed) claimed).imp_right (visible _)

/-- A change which is reopened is not claimed. -/
theorem reopen_notice (change : RowChange P) : change.reopen.notice ≠ .claimed := by
  rw [RowChange.reopen]
  dsimp only
  split
  · exact Notice.noConfusion
  · assumption

/-- After a failed pass nothing is claimed. -/
theorem claimsHeld_fail (loop : MessageLoop P) : loop.fail.ClaimsHeld := by
  intro change listed
  obtain ⟨earlier, _, rfl⟩ := List.mem_map.mp listed
  exact reopen_notice earlier

/-- A change which has just been made is not one of the claims. -/
theorem claimed_of_append {changes : List (RowChange P)} {convo : ConvoId P}
    {change : RowChange P} (listed : change ∈ changes ++ [⟨convo, .made⟩])
    (claimed : change.notice = .claimed) : change ∈ changes := by
  rcases List.mem_append.mp listed with old | new
  · exact old
  · rw [List.mem_singleton] at new
    subst new
    cases claimed

/-- Every step from which nothing is missed holds the claims. -/
theorem ClaimsHeld.step {loop next : MessageLoop P} {event : MessageLoopStep P}
    (held : loop.ClaimsHeld) (sound : loop.Sound) (found : loop.AllFound)
    (taken : machine.step loop event = some next) : next.ClaimsHeld := by
  cases sound.moved taken with
  | ignored filed rows joined =>
      refine held.of_write rfl (fun _ listed _ => listed) ?_
      rintro convo ⟨row, receivedAt, listed, visible⟩
      exact ⟨row, receivedAt, joined ▸ listed, visible⟩
  | added filed rows fresh joined =>
      refine held.of_write rfl (fun _ => claimed_of_append) ?_
      rintro convo ⟨row, receivedAt, listed, visible⟩
      exact ⟨row, receivedAt, joined ▸ List.mem_append_left _ listed, visible⟩
  | @received id receivedAt _ entry sendErrors pending =>
      obtain ⟨entryJoined, entryId, unset⟩ := unreceived_eq_some pending
      refine held.of_write rfl (fun _ => claimed_of_append) ?_
      rintro convo ⟨row, value, listed, received, above⟩
      have apart : row.id ≠ id := by
        intro same
        have unique : row = entry.1 :=
          sound.row_unique (ClientDb.mem_joinedMessages.mp listed).1
            (ClientDb.mem_joinedMessages.mp entryJoined).1 (same.trans entryId.symm)
        rw [unique, unset] at received
        cases received
      refine ⟨row, value, ?_, received, above⟩
      dsimp only
      rw [ClientDb.mem_joined_updateRow]
      · exact ⟨row, listed, (if_neg apart).symm⟩
      · intro _
        rfl
  | regrouped => exact held.of_write rfl (fun _ listed _ => listed) fun _ visible => visible
  | touched =>
      refine held.of_write rfl ?_ fun _ visible => visible
      intro change listed claimed
      obtain ⟨earlier, old, rfl⟩ := List.mem_map.mp listed
      by_cases made : earlier.notice = .made
      · simp [RowChange.touch, made] at claimed
      · simpa [RowChange.touch, made] using old
  | woke waiting => trivial
  | messagesFailed | receivedFailed | groupsFailed => exact claimsHeld_fail loop
  | messagesRead woken =>
      intro change listed _
      rcases found change listed with carrying | ⟨row, joined, above | received⟩
      · rw [carried, woken] at carrying
        cases carrying
      · exact Or.inl (ClientDb.mem_newMessageConvos.mpr ⟨row, joined, above⟩)
      · obtain ⟨receivedAt, same, above⟩ := received
        exact Or.inr ⟨row, receivedAt, joined, same, above⟩
  | receivedRead seen updates =>
      rw [ClaimsHeld, seen] at held
      intro change listed claimed
      obtain ⟨old, apart⟩ := List.mem_filter.mp listed
      rw [decide_eq_true_eq, updates, List.mem_append, not_or] at apart
      rcases held change old claimed with carrying | visible
      · exact apart.1 carrying
      · exact apart.2 (ClientDb.mem_newReceivedConvos.mpr visible)
  | groupsRead announced =>
      rw [ClaimsHeld, announced] at held
      exact held

/-- The loop misses no change exactly in the runs in which every `received_at` which is set
is above the mark, unless its conversation is announced anyway, and no pass drops what its
first query has found; and then every successful pass has announced what it was woken for. -/
theorem announced_of_unmissed {db : ClientDb P} (filed : db.Filed)
    (ids : (db.convoMessages.map ConvoMessage.id).Nodup) {lastSeenId : Int}
    (below : lastSeenId < nextRowId (db.convoMessages.map ConvoMessage.id))
    (lastSeenReceivedAt : Int) (groupVersions : List (GroupId P × Nat))
    (events : List (MessageLoopStep P)) :
    (machine.Always AllFound (start db lastSeenId lastSeenReceivedAt groupVersions) events ↔
      machine.Along Unmissed (start db lastSeenId lastSeenReceivedAt groupVersions) events) ∧
    (machine.Along Unmissed (start db lastSeenId lastSeenReceivedAt groupVersions) events →
      machine.Always Settled (start db lastSeenId lastSeenReceivedAt groupVersions) events) := by
  have sound : Sound (start db lastSeenId lastSeenReceivedAt groupVersions) := ⟨filed, ids, below⟩
  have none : ∀ change ∈ (start db lastSeenId lastSeenReceivedAt groupVersions).changes,
      False := fun _ listed => List.not_mem_nil listed
  constructor
  · exact Machine.always_iff_along_within Sound Sound.step Sound.allFound_step sound
      fun change listed => (none change listed).elim
  · intro along before position state reached
    have held : machine.Always
        (fun loop : MessageLoop P => loop.Sound ∧ loop.AllFound ∧ loop.ClaimsHeld)
        (start db lastSeenId lastSeenReceivedAt groupVersions) events :=
      Machine.always_of_along
        (fun ⟨sound, found, held⟩ unmissed taken =>
          ⟨sound.step taken, (sound.allFound_step found taken).mpr unmissed,
            held.step sound found taken⟩)
        ⟨sound, fun change listed => (none change listed).elim,
          fun change listed => (none change listed).elim⟩ along
    exact (held before position state reached).2.2.settled

/-- A notified pass in which no query fails. -/
def calmPass : List (MessageLoopStep symbolic) :=
  [.touch, .wake, .queryMessages false, .queryReceived false, .queryGroups false]

/-- A message from Bobby. -/
def bobbyWrites : MessageLoopStep symbolic :=
  .insert (.direct bobby) 1 ⟨bobby, "text/plain", utf8 "hi", 5⟩ none (some 100)

/-- A message which Alice queues in a group, of a server whose clock is behind. -/
def aliceQueues : MessageLoopStep symbolic :=
  .insert (.group exampleGroup.id) 1 ⟨alice, "text/plain", utf8 "hello", 6⟩ none none

/-- In the run Bobby's message is announced. -/
theorem bobbyWrites_announced :
    machine.Always Settled (start (ClientDb.empty : ClientDb symbolic) 0 0 [])
      (bobbyWrites :: calmPass) := by
  refine (announced_of_unmissed ClientDb.filed_empty List.nodup_nil (by decide) 0 []
    (bobbyWrites :: calmPass)).2 ?_
  intro before event position loop next _ _
  have listed : event ∈ bobbyWrites :: calmPass :=
    position.subset (List.mem_append_right _ (List.mem_singleton_self event))
  simp only [bobbyWrites, calmPass, List.mem_cons, List.not_mem_nil, or_false] at listed
  rcases listed with rfl | rfl | rfl | rfl | rfl | rfl <;> trivial

/-- Nothing tells that the second message of the client has been sent. -/
theorem slowClock_misses :
    ¬∀ events, machine.Always Settled (start (ClientDb.empty : ClientDb symbolic) 0 0 []) events := by
  intro always
  have ends : (machine.exec (start (ClientDb.empty : ClientDb symbolic) 0 0 [])
      (bobbyWrites :: calmPass ++ aliceQueues :: calmPass ++ .receive 2 50 none :: calmPass)).map
        (fun loop =>
          (loop.phase.isWaiting, loop.changes.map RowChange.notice, loop.emitted)) =
      some (true, [.claimed],
        [.convoUpdated (.direct bobby), .convoUpdated (.direct bobby),
          .convoUpdated (.group exampleGroup.id)]) := by decide +kernel
  obtain ⟨loop, reached, seen⟩ := Option.map_eq_some_iff.mp ends
  simp only [Prod.mk.injEq] at seen
  obtain ⟨phase, notices, _⟩ := seen
  have waiting : loop.phase = .waiting := by
    cases current : loop.phase with
    | waiting => rfl
    | _ =>
        rw [current] at phase
        cases phase
  have settled := (always _).last reached waiting
  have claimed : Notice.claimed ∈ loop.changes.map RowChange.notice :=
    notices ▸ List.mem_singleton_self _
  obtain ⟨change, listed, same⟩ := List.mem_map.mp claimed
  exact settled change listed same

end MessageLoop
end Nullspace
