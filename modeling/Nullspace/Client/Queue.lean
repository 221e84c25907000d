import Nullspace.Client.Collisions

/-!
# The user's own messages

A message of the user is a row of its conversation from the moment it is queued, without
`received_at` until the send loop has sent it or has given up on it. The oldest row without
`received_at` and without `send_error` is the next to be sent.
-/

namespace Nullspace

open Nullspace.Base

variable {P : Primitives}

/-- To whom the messages of a conversation are addressed. -/
def ConvoId.recipient : ConvoId P → Recipient P
  | .direct peer => .user peer
  | .group groupId => .group groupId

/-- A row which waits to be sent. -/
def ConvoMessage.isPending (row : ConvoMessage) : Bool :=
  row.receivedAt.isNone && row.sendError.isNone

namespace ClientDb

/-- `queue_message`: a plain `INSERT`, which the unique index can refuse. -/
def queueMessage (json : JsonReader P) (env : ClientEnv P) (convo : ConvoId P)
    (sender : UserName) (mime : String) (body : Bytes) (sentAt : NanoTimestamp)
    (db : ClientDb P) : ClientDb P × Except EntryError Nat :=
  if env.fails .convo then (db, .error .database)
  else
    let (opened, convoId) := db.ensureConvoId convo env.now
    if env.fails .message || opened.hasMessage convoId sentAt then (opened, .error .database)
    else
      let queued := opened.appendRow convoId ⟨sender, mime, body, sentAt⟩ none none
      (if env.fails .attachment then queued
        else queued.storeAttachment json sender ⟨convo.recipient, sentAt, mime, body⟩,
        .ok (nextRowId (opened.convoMessages.map ConvoMessage.id)))

/-- The rows joined with their conversations. -/
def joinedMessages (db : ClientDb P) : List (ConvoMessage × ConvoId P) :=
  db.convoMessages.filterMap fun row => (db.convoOf? row.convoId).map fun convo => (row, convo)

/-- `next_pending_message`: the pending row with the least identifier. -/
def nextPendingMessage (db : ClientDb P) : Option (ConvoMessage × ConvoId P) :=
  (db.joinedMessages.filter fun entry => entry.1.isPending).find? fun entry =>
    (db.joinedMessages.filter fun other => other.1.isPending).all fun other =>
      decide (entry.1.id ≤ other.1.id)

/-- `INSERT OR IGNORE` of any row into a conversation, and whether it was inserted. -/
def insertRow (db : ClientDb P) (convo : ConvoId P) (now : NanoTimestamp) (event : ShownEvent)
    (sendError : Option String) (receivedAt : Option NanoTimestamp) : ClientDb P × Bool :=
  let (opened, convoId) := db.ensureConvoId convo now
  if opened.hasMessage convoId event.sentAt then (opened, false)
  else (opened.appendRow convoId event sendError receivedAt, true)

/-- An `UPDATE` of one row by its identifier. -/
def updateRow (db : ClientDb P) (id : Nat) (change : ConvoMessage → ConvoMessage) : ClientDb P :=
  { db with
    convoMessages := db.convoMessages.map fun row => if row.id = id then change row else row }

/-- `mark_message_sent`. -/
def markMessageSent (db : ClientDb P) (id : Nat) (receivedAt : NanoTimestamp) : ClientDb P :=
  db.updateRow id fun row => { row with receivedAt := some receivedAt }

/-- `mark_message_failed`, with the clock in place of a `received_at`. -/
def markMessageFailed (db : ClientDb P) (id : Nat) (err : String) (now : NanoTimestamp) :
    ClientDb P :=
  db.updateRow id fun row => { row with sendError := some err, receivedAt := some now }

/-! ## What is done to the rows -/

theorem mem_joinedMessages {db : ClientDb P} {row : ConvoMessage} {convo : ConvoId P} :
    (row, convo) ∈ db.joinedMessages ↔
      row ∈ db.convoMessages ∧ db.convoOf? row.convoId = some convo := by
  simp only [joinedMessages, List.mem_filterMap, Option.map_eq_some_iff, Prod.mk.injEq]
  constructor
  · rintro ⟨_, listed, _, standing, rfl, rfl⟩
    exact ⟨listed, standing⟩
  · rintro ⟨listed, standing⟩
    exact ⟨row, listed, convo, standing, rfl, rfl⟩

/-- A new conversation joins no row. -/
theorem Filed.joined_ensureConvoId {db : ClientDb P} (filed : db.Filed) (convo : ConvoId P)
    (now : NanoTimestamp) :
    (db.ensureConvoId convo now).1.joinedMessages = db.joinedMessages := by
  rw [joinedMessages, joinedMessages, ensureConvoId_convoMessages]
  refine List.filterMap_congr ?_
  intro row listed
  rw [filed.convoOf_ensureConvoId convo now listed]

/-- An appended row is joined with its conversation. -/
theorem Filed.joined_appendRow {db : ClientDb P} (filed : db.Filed) {convo : ConvoId P}
    {found : ConvoRow} (looked : db.convos.lookup convo = some found) (event : ShownEvent)
    (sendError : Option String) (receivedAt : Option NanoTimestamp) :
    (db.appendRow found.id event sendError receivedAt).joinedMessages = db.joinedMessages ++
      [(⟨nextRowId (db.convoMessages.map ConvoMessage.id), found.id, event.sender, event.mime,
        event.body, event.sentAt, sendError, receivedAt⟩, convo)] := by
  have standing : db.convoOf? found.id = some convo := convoOf_eq_some filed.keyed looked
  rw [joinedMessages, ClientDb.appendRow, List.filterMap_append]
  refine congrArg (db.joinedMessages ++ ·) (List.filterMap_cons_some ?_)
  exact congrArg (Option.map _) standing

theorem mem_joined_updateRow {db : ClientDb P} {id : Nat} {change : ConvoMessage → ConvoMessage}
    (stays : ∀ row, (change row).convoId = row.convoId) {row : ConvoMessage}
    {convo : ConvoId P} :
    (row, convo) ∈ (db.updateRow id change).joinedMessages ↔
      ∃ earlier, (earlier, convo) ∈ db.joinedMessages ∧
        row = if earlier.id = id then change earlier else earlier := by
  have lookup : (db.updateRow id change).convoOf? = db.convoOf? := rfl
  rw [mem_joinedMessages, lookup, updateRow, List.mem_map]
  constructor
  · rintro ⟨⟨earlier, listed, rfl⟩, standing⟩
    refine ⟨earlier, mem_joinedMessages.mpr ⟨listed, ?_⟩, rfl⟩
    split at standing
    · rw [stays] at standing
      exact standing
    · exact standing
  · rintro ⟨earlier, joined, rfl⟩
    obtain ⟨listed, standing⟩ := mem_joinedMessages.mp joined
    refine ⟨⟨earlier, listed, rfl⟩, ?_⟩
    split
    · rw [stays]
      exact standing
    · exact standing

/-- What an insertion does to the rows. -/
inductive InsertedRow (db : ClientDb P) (convo : ConvoId P) : ClientDb P × Bool → Prop
  | ignored {next : ClientDb P} (filed : next.Filed)
      (rows : next.convoMessages = db.convoMessages)
      (joined : next.joinedMessages = db.joinedMessages) :
      InsertedRow db convo (next, false)
  | added {next : ClientDb P} {row : ConvoMessage} (filed : next.Filed)
      (rows : next.convoMessages = db.convoMessages ++ [row])
      (fresh : row.id = nextRowId (db.convoMessages.map ConvoMessage.id))
      (joined : next.joinedMessages = db.joinedMessages ++ [(row, convo)]) :
      InsertedRow db convo (next, true)

/-- An insertion brings one row, or leaves what is there. -/
theorem Filed.insertRow {db : ClientDb P} (filed : db.Filed) (convo : ConvoId P)
    (now : NanoTimestamp) (event : ShownEvent) (sendError : Option String)
    (receivedAt : Option NanoTimestamp) :
    InsertedRow db convo (db.insertRow convo now event sendError receivedAt) := by
  have rows := ensureConvoId_convoMessages db convo now
  have joined := filed.joined_ensureConvoId convo now
  obtain ⟨openedFiled, _, found, looked, owns⟩ := filed.ensureConvoId convo now
  rw [ClientDb.insertRow]
  dsimp only
  rw [← owns]
  split
  · exact .ignored openedFiled rows joined
  · rename_i unknown
    rw [openedFiled.hasMessage_iff looked event] at unknown
    have appended := openedFiled.joined_appendRow looked event sendError receivedAt
    rw [joined] at appended
    refine .added (openedFiled.appendRow looked unknown sendError receivedAt).1 ?_ ?_ appended
    · rw [ClientDb.appendRow, rows]
    · rw [rows]

theorem contents_updateRow (db : ClientDb P) (id : Nat) {change : ConvoMessage → ConvoMessage}
    (convoId : ∀ row, (change row).convoId = row.convoId)
    (shown : ∀ row, (change row).shown = row.shown) :
    (db.updateRow id change).contents = db.contents := by
  have lookup : (db.updateRow id change).convoOf? = db.convoOf? := rfl
  rw [ClientDb.contents, ClientDb.contents, lookup, ClientDb.updateRow, List.map_map]
  refine List.map_congr_left ?_
  intro row _
  rw [Function.comp_apply]
  split
  · rw [convoId, shown]
  · rfl

theorem ids_updateRow {db : ClientDb P} {id : Nat} {change : ConvoMessage → ConvoMessage}
    (stays : ∀ row, (change row).id = row.id) :
    (db.updateRow id change).convoMessages.map ConvoMessage.id =
      db.convoMessages.map ConvoMessage.id := by
  rw [ClientDb.updateRow, List.map_map]
  refine List.map_congr_left ?_
  intro row _
  rw [Function.comp_apply]
  split
  · exact stays row
  · rfl

theorem filed_updateRow {db : ClientDb P} (filed : db.Filed) {id : Nat}
    {change : ConvoMessage → ConvoMessage} (convoId : ∀ row, (change row).convoId = row.convoId)
    (shown : ∀ row, (change row).shown = row.shown) : (db.updateRow id change).Filed := by
  refine ⟨filed.keyed, ?_, contents_updateRow db id convoId shown ▸ filed.distinct⟩
  intro row listed
  obtain ⟨earlier, old, rfl⟩ := List.mem_map.mp listed
  obtain ⟨convo, found, looked, owns⟩ := filed.owned earlier old
  refine ⟨convo, found, looked, ?_⟩
  split
  · rw [convoId, owns]
  · exact owns

/-- What `queue_message` does to the rows: nothing, or one pending row. -/
inductive QueuedRow (db : ClientDb P) (convo : ConvoId P) (event : ShownEvent) : ClientDb P → Prop
  | refused {next : ClientDb P} (filed : next.Filed) (contents : next.contents = db.contents)
      (rows : next.convoMessages = db.convoMessages) : QueuedRow db convo event next
  | added {next : ClientDb P} {row : ConvoMessage} (filed : next.Filed)
      (contents : next.contents = db.contents ++ [(some convo, event)])
      (rows : next.convoMessages = db.convoMessages ++ [row])
      (fresh : row.id = nextRowId (db.convoMessages.map ConvoMessage.id))
      (shown : row.shown = event) : QueuedRow db convo event next

/-- A queued message is one pending row, or nothing. -/
theorem Filed.queueMessage {db : ClientDb P} (filed : db.Filed) (json : JsonReader P)
    (env : ClientEnv P) (convo : ConvoId P) (sender : UserName) (mime : String) (body : Bytes)
    (sentAt : NanoTimestamp) :
    QueuedRow db convo ⟨sender, mime, body, sentAt⟩
      (db.queueMessage json env convo sender mime body sentAt).1 := by
  have rows := ensureConvoId_convoMessages db convo env.now
  obtain ⟨openedFiled, openedSame, found, looked, owns⟩ := filed.ensureConvoId convo env.now
  rw [ClientDb.queueMessage]
  split
  · exact .refused filed rfl rfl
  · dsimp only
    rw [← owns]
    split
    · exact .refused openedFiled openedSame rows
    · rename_i accepted
      rw [Bool.or_eq_true, not_or] at accepted
      have absent := accepted.2
      rw [openedFiled.hasMessage_iff looked ⟨sender, mime, body, sentAt⟩] at absent
      obtain ⟨queuedFiled, queuedSame⟩ := openedFiled.appendRow looked absent none none
      have queuedRows : ((db.ensureConvoId convo env.now).1.appendRow found.id
          ⟨sender, mime, body, sentAt⟩ none none).convoMessages = db.convoMessages ++
            [⟨nextRowId (db.convoMessages.map ConvoMessage.id), found.id, sender, mime, body, sentAt,
              none, none⟩] := by
        rw [ClientDb.appendRow, rows]
      rw [openedSame] at queuedSame
      dsimp only
      generalize (db.ensureConvoId convo env.now).1.appendRow found.id ⟨sender, mime, body, sentAt⟩
        none none = queued at queuedFiled queuedSame queuedRows
      split
      · exact .added queuedFiled queuedSame queuedRows rfl rfl
      · obtain ⟨roots, rooted⟩ :=
          storeAttachment_eq json sender ⟨convo.recipient, sentAt, mime, body⟩ queued
        rw [rooted]
        have kept : ClientDb.Filed { queued with attachmentRoots := roots } ∧
            ClientDb.contents { queued with attachmentRoots := roots } = queued.contents :=
          queuedFiled.of_same rfl rfl
        exact .added kept.1 (kept.2.trans queuedSame) queuedRows rfl rfl

end ClientDb
end Nullspace
