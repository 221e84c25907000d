import Nullspace.Client.Queue

/-!
# The rows of a device

Besides the send loop a device processes entries and takes messages of its user. Both only
add rows, at most one at a time and under fresh identifiers; the send loop only marks rows. So
a row stands once it is there, and nothing becomes pending below it.
-/

namespace Nullspace

open Nullspace.Base

variable {P : Primitives}

/-- What processing an entry does, and the event which it brings. -/
def EntryEvent.process (json : JsonReader P) (db : ClientDb P) :
    EntryEvent P → ClientDb P × Option (ConvoId P × ShownEvent)
  | .direct env key entry =>
      ((db.processMailboxEntry json env key entry).1, db.directEvent env entry)
  | .group env groupId row entry =>
      ((db.processGroupMessageEntry json env groupId row entry).1,
        ClientDb.groupEvent env groupId row entry)

/-- How a device reads an entry. -/
inductive EntryReading (P : Primitives) where
  | direct (env : ClientEnv P) (key : MailboxKey P)
  | group (env : ClientEnv P) (groupId : GroupId P) (group : GroupRecord P)

def EntryReading.event (entry : MailboxEntry P) : EntryReading P → EntryEvent P
  | .direct env key => .direct env key entry
  | .group env groupId row => .group env groupId row entry

/-- What else a device does to its rows. -/
inductive DeviceStep (P : Primitives) where
  | entry (event : EntryEvent P)
  /-- The user writes a message. -/
  | queue (env : ClientEnv P) (convo : ConvoId P) (mime : String) (body : Bytes)
      (sentAt : NanoTimestamp)

def DeviceStep.run (json : JsonReader P) (username : UserName) (db : ClientDb P) :
    DeviceStep P → ClientDb P
  | .entry event => (event.process json db).1
  | .queue env convo mime body sentAt =>
      (db.queueMessage json env convo username mime body sentAt).1

namespace ClientDb

/-- The rows of before, and one fresh row at most, which is sent or waits for this sender. -/
def AddsRow (username : UserName) (db next : ClientDb P) : Prop :=
  next.convoMessages = db.convoMessages ∨
    ∃ row, next.convoMessages = db.convoMessages ++ [row] ∧
      row.id = nextRowId (db.convoMessages.map ConvoMessage.id) ∧
        (row.isPending = true → row.senderUsername = username)

/-- What a step of a device keeps of its rows. -/
structure Adds (username : UserName) (db next : ClientDb P) : Prop where
  filed : next.Filed
  contents : db.contents <+: next.contents
  rows : AddsRow username db next

/-- A message which is stored adds one row at most. -/
theorem addsRow_withMessage (username : UserName) {db next : ClientDb P} {convo : ConvoId P}
    {now : NanoTimestamp} {sender : UserName} {content : Event P} {receivedAt : NanoTimestamp}
    (rows : next.convoMessages = db.withMessage convo now sender content receivedAt) :
    AddsRow username db next := by
  rw [withMessage_eq] at rows
  split at rows
  · exact Or.inl rows
  · exact Or.inr ⟨_, rows, rfl, fun impossible => by cases impossible⟩

/-- A direct entry adds one row at most. -/
theorem addsRow_processMailboxEntry (json : JsonReader P) (username : UserName)
    (env : ClientEnv P) (key : MailboxKey P) (entry : MailboxEntry P) (db : ClientDb P) :
    AddsRow username db (db.processMailboxEntry json env key entry).1 := by
  rcases InboxRun.processMailboxEntry_cases json env key entry db with
    ⟨_, same⟩ | ⟨identity, _, _, _, same⟩
  · rw [same]
    exact Or.inl rfl
  · rw [same]
    obtain ⟨rows, _⟩ :=
      (db.updateMailboxAfter key entry.receivedAt).receiveDirect_spec json env identity entry
    split at rows
    · exact Or.inl rows
    · split at rows
      · exact Or.inl rows
      · rename_i convo sender content _ _
        have written : (db.updateMailboxAfter key entry.receivedAt).withMessage convo env.now sender
            content entry.receivedAt = db.withMessage convo env.now sender content
              entry.receivedAt := by
          apply withMessage_congr <;> rfl
        exact addsRow_withMessage username (rows.trans written)

/-- A group entry adds one row at most. -/
theorem addsRow_processGroupMessageEntry (json : JsonReader P) (username : UserName)
    (env : ClientEnv P) (groupId : GroupId P) (group : GroupRecord P) (entry : MailboxEntry P)
    (db : ClientDb P) :
    AddsRow username db (db.processGroupMessageEntry json env groupId group entry).1 := by
  by_cases rekey : entry.message.kind = Blob.v1GroupRekey
  · rw [ClientDb.processGroupMessageEntry, if_pos rekey]
    obtain ⟨groups, same⟩ := groupsOnly_rekey env groupId group entry.message db
    rw [same]
    exact Or.inl rfl
  · obtain ⟨rows, _⟩ := db.processGroupMessageEntry_spec json env groupId group rekey
    split at rows
    · exact Or.inl rows
    · split at rows
      · exact Or.inl rows
      · exact addsRow_withMessage username rows

end ClientDb

/-- Processing an entry files its event. -/
theorem EntryEvent.files (json : JsonReader P) {db : ClientDb P} (filed : db.Filed)
    (event : EntryEvent P) :
    ClientDb.Files db (event.process json db).2 (event.process json db).1 := by
  cases event with
  | direct env key entry => exact filed.processMailboxEntry json env key entry
  | group env groupId row entry => exact filed.processGroupMessageEntry json env groupId row entry

/-- Processing an entry keeps the device's rows. -/
theorem EntryEvent.adds (json : JsonReader P) {db : ClientDb P} (filed : db.Filed)
    (username : UserName) (event : EntryEvent P) :
    ClientDb.Adds username db (event.process json db).1 := by
  have files := event.files json filed
  refine ⟨files.filed, ?_, ?_⟩
  · rw [files.contents]
    exact prefix_insertAll
  · cases event with
    | direct env key entry => exact db.addsRow_processMailboxEntry json username env key entry
    | group env groupId row entry =>
        exact db.addsRow_processGroupMessageEntry json username env groupId row entry

/-- Every other step of a device keeps its rows. -/
theorem DeviceStep.adds (json : JsonReader P) {db : ClientDb P} (filed : db.Filed)
    (username : UserName) (step : DeviceStep P) :
    ClientDb.Adds username db (step.run json username db) := by
  cases step with
  | entry event => exact event.adds json filed username
  | queue env convo mime body sentAt =>
      cases filed.queueMessage json env convo username mime body sentAt with
      | refused queuedFiled contents rows =>
          exact ⟨queuedFiled, contents ▸ List.prefix_refl _, Or.inl rows⟩
      | added queuedFiled contents rows fresh shown =>
          exact ⟨queuedFiled, contents ▸ List.prefix_append _ _,
            Or.inr ⟨_, rows, fresh, fun _ => congrArg ShownEvent.sender shown⟩⟩

namespace ClientDb

/-- A row with this identifier shows an event in a conversation. -/
def Stands (db : ClientDb P) (id : Nat) (convo : ConvoId P) (event : ShownEvent) : Prop :=
  ∃ row, (row, convo) ∈ db.joinedMessages ∧ row.id = id ∧ row.shown = event

/-- The identifiers of the rows which wait to be sent. -/
def pendingIds (db : ClientDb P) : List Nat :=
  (db.convoMessages.filter ConvoMessage.isPending).map ConvoMessage.id

variable {db next : ClientDb P}

/-- A row waits to be sent while it is pending. -/
theorem mem_pendingIds {id : Nat} :
    id ∈ db.pendingIds ↔ ∃ row ∈ db.convoMessages, row.isPending = true ∧ row.id = id := by
  simp only [pendingIds, List.mem_map, List.mem_filter, and_assoc]

/-- A row which stands is among the contents. -/
theorem Stands.contents {id : Nat} {convo : ConvoId P} {event : ShownEvent}
    (stands : db.Stands id convo event) : (some convo, event) ∈ db.contents := by
  obtain ⟨row, joined, _, rfl⟩ := stands
  obtain ⟨listed, standing⟩ := mem_joinedMessages.mp joined
  exact List.mem_map.mpr ⟨row, listed, by rw [standing]⟩

/-- A row shows one event in one conversation. -/
theorem Stands.unique (ids : (db.convoMessages.map ConvoMessage.id).Nodup) {id : Nat}
    {convo other : ConvoId P} {event otherEvent : ShownEvent} (first : db.Stands id convo event)
    (second : db.Stands id other otherEvent) : convo = other ∧ event = otherEvent := by
  obtain ⟨row, joined, sameId, rfl⟩ := first
  obtain ⟨otherRow, otherJoined, rfl, rfl⟩ := second
  obtain ⟨listed, standing⟩ := mem_joinedMessages.mp joined
  obtain ⟨otherListed, otherStanding⟩ := mem_joinedMessages.mp otherJoined
  have same : row = otherRow := List.inj_on_of_nodup_map ids listed otherListed sameId
  subst same
  exact ⟨Option.some.inj (standing.symm.trans otherStanding), rfl⟩

/-- An event which a history shows, it shows once. -/
theorem Filed.count_eq_one (filed : db.Filed) {entry : Option (ConvoId P) × ShownEvent}
    (listed : entry ∈ db.contents) : db.contents.count entry = 1 :=
  List.count_eq_one_of_mem (List.Nodup.of_map _ filed.distinct) listed

/-- Rows with a conversation keep it. -/
theorem Adds.joined {username : UserName} (adds : Adds username db next) :
    db.joinedMessages ⊆ next.joinedMessages := by
  have grown : ∃ added, next.convoMessages = db.convoMessages ++ added := by
    rcases adds.rows with same | ⟨row, rows, _⟩
    · exact ⟨[], by rw [same, List.append_nil]⟩
    · exact ⟨[row], rows⟩
  obtain ⟨added, rows⟩ := grown
  have spread : next.contents =
      (db.convoMessages.map fun row => (next.convoOf? row.convoId, row.shown)) ++
        added.map fun row => (next.convoOf? row.convoId, row.shown) := by
    rw [ClientDb.contents, rows, List.map_append]
  have kept : db.contents =
      db.convoMessages.map fun row => (next.convoOf? row.convoId, row.shown) := by
    refine List.IsPrefix.eq_of_length (List.prefix_of_prefix_length_le adds.contents ?_ ?_) ?_
    · exact ⟨_, spread.symm⟩
    · rw [ClientDb.contents, List.length_map, List.length_map]
    · rw [ClientDb.contents, List.length_map, List.length_map]
  rintro ⟨row, convo⟩ joined
  obtain ⟨listed, standing⟩ := mem_joinedMessages.mp joined
  have same := List.map_inj_left.mp kept row listed
  rw [Prod.mk.injEq] at same
  refine mem_joinedMessages.mpr ⟨?_, same.1 ▸ standing⟩
  rw [rows]
  exact List.mem_append_left _ listed

/-- A row keeps showing its event. -/
theorem Adds.stands {username : UserName} (adds : Adds username db next) {id : Nat}
    {convo : ConvoId P} {event : ShownEvent} (stands : db.Stands id convo event) :
    next.Stands id convo event := by
  obtain ⟨row, joined, same⟩ := stands
  exact ⟨row, adds.joined joined, same⟩

/-- Identifiers stay distinct. -/
theorem Adds.ids {username : UserName} (adds : Adds username db next)
    (ids : (db.convoMessages.map ConvoMessage.id).Nodup) :
    (next.convoMessages.map ConvoMessage.id).Nodup := by
  rcases adds.rows with same | ⟨row, rows, fresh, _⟩
  · rwa [same]
  · rw [rows, List.map_append, List.map_singleton, fresh]
    exact nodup_append_nextRowId ids

/-- What waited to be sent still waits. -/
theorem Adds.pendingIds_subset {username : UserName} (adds : Adds username db next) :
    db.pendingIds ⊆ next.pendingIds := by
  intro id listed
  obtain ⟨row, old, pending, same⟩ := mem_pendingIds.mp listed
  refine mem_pendingIds.mpr ⟨row, ?_, pending, same⟩
  rcases adds.rows with unchanged | ⟨added, rows, _⟩
  · rwa [unchanged]
  · rw [rows]
    exact List.mem_append_left _ old

/-- What becomes pending is above all identifiers. -/
theorem Adds.pending_cases {username : UserName} (adds : Adds username db next) {id : Nat}
    (listed : id ∈ next.pendingIds) :
    id ∈ db.pendingIds ∨ ∀ row ∈ db.convoMessages, row.id < id := by
  obtain ⟨row, new, pending, rfl⟩ := mem_pendingIds.mp listed
  rcases adds.rows with unchanged | ⟨added, rows, fresh, _⟩
  · exact Or.inl (mem_pendingIds.mpr ⟨row, unchanged ▸ new, pending, rfl⟩)
  · rw [rows, List.mem_append, List.mem_singleton] at new
    rcases new with old | rfl
    · exact Or.inl (mem_pendingIds.mpr ⟨row, old, pending, rfl⟩)
    · refine Or.inr fun other otherListed => ?_
      rw [fresh]
      exact lt_nextRowId (List.mem_map_of_mem otherListed)

/-- What waits to be sent is the device's own. -/
theorem Adds.owners {username : UserName} (adds : Adds username db next)
    (owners : ∀ row ∈ db.convoMessages, row.isPending = true → row.senderUsername = username) :
    ∀ row ∈ next.convoMessages, row.isPending = true → row.senderUsername = username := by
  intro row listed pending
  rcases adds.rows with unchanged | ⟨added, rows, _, owned⟩
  · exact owners row (unchanged ▸ listed) pending
  · rw [rows, List.mem_append, List.mem_singleton] at listed
    rcases listed with old | rfl
    · exact owners row old pending
    · exact owned pending

section

variable {id : Nat} {change : ConvoMessage → ConvoMessage}

/-- A change of other columns leaves what a row shows. -/
theorem stands_updateRow (convoId : ∀ row, (change row).convoId = row.convoId)
    (ids : ∀ row, (change row).id = row.id) (shown : ∀ row, (change row).shown = row.shown)
    {other : Nat} {convo : ConvoId P} {event : ShownEvent} (stands : db.Stands other convo event) :
    (db.updateRow id change).Stands other convo event := by
  obtain ⟨row, joined, rfl, rfl⟩ := stands
  refine ⟨_, (mem_joined_updateRow convoId).mpr ⟨row, joined, rfl⟩, ?_, ?_⟩
  · split
    · exact ids row
    · rfl
  · split
    · exact shown row
    · rfl

/-- A row which is sent is the only one which stops waiting. -/
theorem mem_pendingIds_updateRow (sent : ∀ row, (change row).isPending = false)
    {other : Nat} : other ∈ (db.updateRow id change).pendingIds ↔ other ∈ db.pendingIds ∧ other ≠ id := by
  rw [mem_pendingIds, mem_pendingIds, updateRow]
  constructor
  · rintro ⟨_, listed, pending, rfl⟩
    obtain ⟨row, old, rfl⟩ := List.mem_map.mp listed
    split at pending
    · rw [sent] at pending
      cases pending
    · rename_i apart
      rw [if_neg apart]
      exact ⟨⟨row, old, pending, rfl⟩, apart⟩
  · rintro ⟨⟨row, old, pending, rfl⟩, apart⟩
    refine ⟨row, List.mem_map.mpr ⟨row, old, if_neg apart⟩, pending, rfl⟩

end

/-- The next message to send is the pending one with the least identifier. -/
theorem nextPendingMessage_eq_some {row : ConvoMessage} {convo : ConvoId P}
    (found : db.nextPendingMessage = some (row, convo)) :
    (row, convo) ∈ db.joinedMessages ∧ row.isPending = true ∧
      ∀ entry ∈ db.joinedMessages, entry.1.isPending = true → row.id ≤ entry.1.id := by
  obtain ⟨joined, pending⟩ := List.mem_filter.mp (List.mem_of_find?_eq_some found)
  have least := List.find?_some found
  rw [List.all_eq_true] at least
  refine ⟨joined, pending, fun entry listed waits => ?_⟩
  exact of_decide_eq_true (least entry (List.mem_filter.mpr ⟨listed, waits⟩))

end ClientDb

end Nullspace
