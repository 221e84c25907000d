import Nullspace.Base.InsertIgnore
import Nullspace.Client.Authenticity
import Nullspace.Client.Inbox
import Nullspace.Client.Readable

/-!
# What the rows of a conversation keep

Copies of an event are dropped by `INSERT OR IGNORE` on the unique index over `(convo_id,
sent_at)`. The index does not look at the sender or at the contents, and `sent_at` is chosen
by the sender. A client receives entries one by one, and `rows_complete_iff` says when its
rows show all that it received.
-/

namespace Nullspace

open Nullspace.Base

variable {P : Primitives}

/-- What a row shows of the event which it was made for. -/
structure ShownEvent where
  sender : UserName
  mime : String
  body : Bytes
  sentAt : NanoTimestamp
deriving DecidableEq

def ConvoMessage.shown (row : ConvoMessage) : ShownEvent :=
  ⟨row.senderUsername, row.mime, row.body, row.sentAt⟩

def Event.shown (content : Event P) (sender : UserName) : ShownEvent :=
  ⟨sender, content.mime, content.body, content.sentAt⟩

/-- What the index tells apart. -/
def shownKey (entry : Option (ConvoId P) × ShownEvent) : Option (ConvoId P) × NanoTimestamp :=
  (entry.1, entry.2.sentAt)

namespace ClientDb

/-- What the rows show, with their conversations. -/
def contents (db : ClientDb P) : List (Option (ConvoId P) × ShownEvent) :=
  db.convoMessages.map fun row => (db.convoOf? row.convoId, row.shown)

/-- The constraints of the schema on conversations and their rows. -/
structure Filed (db : ClientDb P) : Prop where
  keyed : db.Keyed
  owned : ∀ row ∈ db.convoMessages, ∃ convo found, db.convos.lookup convo = some found ∧
    found.id = row.convoId
  distinct : (db.contents.map shownKey).Nodup

/-- A row with the next identifier. -/
def appendRow (db : ClientDb P) (convoId : Nat) (event : ShownEvent) (sendError : Option String)
    (receivedAt : Option NanoTimestamp) : ClientDb P :=
  { db with
    convoMessages := db.convoMessages ++
      [⟨nextRowId (db.convoMessages.map ConvoMessage.id), convoId, event.sender, event.mime,
        event.body, event.sentAt, sendError, receivedAt⟩] }

theorem filed_empty : (ClientDb.empty : ClientDb P).Filed where
  keyed := List.nodup_nil
  owned := by rintro row ⟨⟩
  distinct := List.nodup_nil

/-- Steps which leave the conversations and their rows alone. -/
theorem Filed.of_same {db next : ClientDb P} (filed : db.Filed)
    (convos : next.convos = db.convos) (rows : next.convoMessages = db.convoMessages) :
    next.Filed ∧ next.contents = db.contents := by
  have lookup : next.convoOf? = db.convoOf? := by
    funext id
    rw [convoOf?, convoOf?, convos]
  have same : next.contents = db.contents := by rw [contents, contents, rows, lookup]
  refine ⟨⟨?_, ?_, same ▸ filed.distinct⟩, same⟩
  · rw [Keyed, convos]
    exact filed.keyed
  · rw [convos, rows]
    exact filed.owned

/-- A conversation keeps its row. -/
theorem lookup_ensureConvoId {db : ClientDb P} {other : ConvoId P} {found : ConvoRow}
    (looked : db.convos.lookup other = some found) (convo : ConvoId P) (now : NanoTimestamp) :
    (db.ensureConvoId convo now).1.convos.lookup other = some found := by
  simp only [ClientDb.ensureConvoId]
  split
  · exact looked
  · rename_i absent
    have apart : other ≠ convo := by
      rintro rfl
      rw [absent] at looked
      cases looked
    exact (AList.lookup_insert_ne apart).trans looked

/-- A new conversation is not that of an earlier row. -/
theorem Filed.convoOf_ensureConvoId {db : ClientDb P} (filed : db.Filed) (convo : ConvoId P)
    (now : NanoTimestamp) {row : ConvoMessage} (listed : row ∈ db.convoMessages) :
    (db.ensureConvoId convo now).1.convoOf? row.convoId = db.convoOf? row.convoId := by
  obtain ⟨other, found, looked, owns⟩ := filed.owned row listed
  rw [← owns, convoOf_eq_some filed.keyed looked]
  exact convoOf_eq_some (keyed_ensureConvoId filed.keyed convo now)
    (lookup_ensureConvoId looked convo now)

/-- A new conversation leaves what the rows show. -/
theorem Filed.ensureConvoId {db : ClientDb P} (filed : db.Filed) (convo : ConvoId P)
    (now : NanoTimestamp) :
    (db.ensureConvoId convo now).1.Filed ∧ (db.ensureConvoId convo now).1.contents = db.contents ∧
      ∃ found, (db.ensureConvoId convo now).1.convos.lookup convo = some found ∧
        found.id = (db.ensureConvoId convo now).2 := by
  have rows := ensureConvoId_convoMessages db convo now
  have same : (db.ensureConvoId convo now).1.contents = db.contents := by
    rw [contents, contents, rows]
    refine List.map_congr_left ?_
    intro row listed
    rw [filed.convoOf_ensureConvoId convo now listed]
  refine ⟨⟨keyed_ensureConvoId filed.keyed convo now, ?_, same ▸ filed.distinct⟩, same, ?_⟩
  · intro row listed
    rw [rows] at listed
    obtain ⟨other, found, looked, owns⟩ := filed.owned row listed
    exact ⟨other, found, lookup_ensureConvoId looked convo now, owns⟩
  · simp only [ClientDb.ensureConvoId]
    split
    · rename_i found looked
      exact ⟨found, looked, rfl⟩
    · exact ⟨_, AList.lookup_insert _, rfl⟩

/-- The index finds a row for an event when the contents have its key. -/
theorem Filed.hasMessage_iff {db : ClientDb P} (filed : db.Filed) {convo : ConvoId P}
    {found : ConvoRow} (looked : db.convos.lookup convo = some found) (event : ShownEvent) :
    db.hasMessage found.id event.sentAt = true ↔
      shownKey (some convo, event) ∈ db.contents.map shownKey := by
  rw [hasMessage, List.any_eq_true, contents, List.map_map, List.mem_map]
  refine exists_congr fun row => and_congr_right fun listed => ?_
  obtain ⟨other, otherRow, otherLooked, owns⟩ := filed.owned row listed
  rw [decide_eq_true_eq, Function.comp_apply, shownKey, shownKey, Prod.mk.injEq]
  refine and_congr ?_ Iff.rfl
  dsimp only
  rw [← owns, convoOf_eq_some filed.keyed otherLooked, Option.some.injEq]
  constructor
  · intro sameId
    have first := convoOf_eq_some filed.keyed otherLooked
    rw [sameId, convoOf_eq_some filed.keyed looked] at first
    exact (Option.some.inj first).symm
  · rintro rfl
    rw [otherLooked] at looked
    rw [Option.some.inj looked]

/-- A row with a new key shows its event. -/
theorem Filed.appendRow {db : ClientDb P} (filed : db.Filed) {convo : ConvoId P}
    {found : ConvoRow} (looked : db.convos.lookup convo = some found) {event : ShownEvent}
    (absent : shownKey (some convo, event) ∉ db.contents.map shownKey)
    (sendError : Option String) (receivedAt : Option NanoTimestamp) :
    (db.appendRow found.id event sendError receivedAt).Filed ∧
      (db.appendRow found.id event sendError receivedAt).contents =
        db.contents ++ [(some convo, event)] := by
  have same : (db.appendRow found.id event sendError receivedAt).contents =
      db.contents ++ [(some convo, event)] := by
    rw [ClientDb.appendRow, contents, List.map_append, List.map_singleton]
    exact congrArg (fun here => db.contents ++ [(here, event)])
      (convoOf_eq_some filed.keyed looked)
  refine ⟨⟨filed.keyed, ?_, ?_⟩, same⟩
  · intro row listed
    rcases List.mem_append.mp listed with earlier | new
    · exact filed.owned row earlier
    · rw [List.mem_singleton] at new
      exact ⟨convo, found, looked, new ▸ rfl⟩
  · rw [same, List.map_append, List.map_singleton]
    exact filed.distinct.append (List.nodup_singleton _) (List.disjoint_singleton.mpr absent)

/-- A message is filed unless one of its key is there. -/
theorem Filed.insertMessage {db : ClientDb P} (filed : db.Filed) {convo : ConvoId P}
    {found : ConvoRow} (looked : db.convos.lookup convo = some found) (sender : UserName)
    (content : Event P) (receivedAt : NanoTimestamp) :
    (db.insertMessage found.id sender content receivedAt).Filed ∧
      (db.insertMessage found.id sender content receivedAt).contents =
        insertOrIgnore shownKey db.contents (some convo, content.shown sender) := by
  have known := filed.hasMessage_iff looked (content.shown sender)
  rw [ClientDb.insertMessage, insertOrIgnore]
  by_cases has : db.hasMessage found.id content.sentAt = true
  · rw [if_pos has, if_pos (known.mp has)]
    exact ⟨filed, rfl⟩
  · have absent : shownKey (some convo, content.shown sender) ∉ db.contents.map shownKey :=
      fun listed => has (known.mpr listed)
    rw [if_neg has, if_neg absent]
    exact filed.appendRow looked absent none (some receivedAt)

/-- An event is stored unless its key is there. -/
theorem Filed.storeMessage (json : JsonReader P) (env : ClientEnv P) {db : ClientDb P}
    (filed : db.Filed) (convo : ConvoId P) (sender : UserName) (content : Event P)
    (receivedAt : NanoTimestamp) :
    (db.storeMessage json env convo sender content receivedAt).1.Filed ∧
      (db.storeMessage json env convo sender content receivedAt).1.contents =
        if storeFails env then db.contents
        else insertOrIgnore shownKey db.contents (some convo, content.shown sender) := by
  rw [ClientDb.storeMessage, storeFails]
  by_cases connection : env.fails .connection = true
  · simp only [connection, Bool.true_or, if_true]
    exact ⟨filed, trivial⟩
  have rooted : ∃ roots, (if env.fails .attachment then db
      else db.storeAttachment json sender content) = { db with attachmentRoots := roots } := by
    split
    · exact ⟨db.attachmentRoots, rfl⟩
    · exact storeAttachment_eq json sender content db
  obtain ⟨roots, rooted⟩ := rooted
  have aside : Filed { db with attachmentRoots := roots } ∧
      contents { db with attachmentRoots := roots } = db.contents := filed.of_same rfl rfl
  obtain ⟨rootedFiled, rootedSame⟩ := aside
  by_cases opens : env.fails .convo = true
  · simp only [rooted, connection, opens, Bool.or_true, Bool.true_or, if_true]
    exact ⟨rootedFiled, rootedSame⟩
  obtain ⟨openedFiled, openedSame, found, looked, owns⟩ :=
    rootedFiled.ensureConvoId convo env.now
  by_cases inserts : env.fails .message = true
  · simp only [rooted, connection, opens, inserts, Bool.or_true, if_true]
    exact ⟨openedFiled, openedSame.trans rootedSame⟩
  · have stored := openedFiled.insertMessage looked sender content receivedAt
    rw [owns, openedSame, rootedSame] at stored
    simp only [rooted, connection, opens, inserts, Bool.or_self]
    exact stored

/-- The event which an entry of the user's mailbox brings, unless it is no event or an
operation fails. -/
def directEvent (db : ClientDb P) (env : ClientEnv P) (entry : MailboxEntry P) :
    Option (ConvoId P × ShownEvent) :=
  match env.identity with
  | none => none
  | some identity =>
      if env.fails .identity || env.fails .cursor then none
      else
        match db.directWrite env identity entry with
        | none => none
        | some (convo, sender, content) =>
            if db.lookupFails env sender || storeFails env then none
            else some (convo, content.shown sender)

/-- The event which an entry of a group's message mailbox brings. -/
def groupEvent (env : ClientEnv P) (groupId : GroupId P) (group : GroupRecord P)
    (entry : MailboxEntry P) : Option (ConvoId P × ShownEvent) :=
  if entry.message.kind = Blob.v1GroupRekey then none
  else
    match groupWrite env groupId group entry with
    | none => none
    | some (convo, sender, content) =>
        if env.fails .directory || storeFails env then none
        else some (convo, content.shown sender)

/-- The entry of the contents for a received event. -/
def filing (event : ConvoId P × ShownEvent) : Option (ConvoId P) × ShownEvent :=
  (some event.1, event.2)

/-- The contents are those from before and what was received, by the index. -/
structure Files (db : ClientDb P) (event : Option (ConvoId P × ShownEvent)) (next : ClientDb P) :
    Prop where
  filed : next.Filed
  contents : next.contents = insertAll shownKey db.contents (event.toList.map filing)

/-- Where no row is new, nothing was received. -/
theorem Filed.files_none {db next : ClientDb P} (filed : db.Filed)
    (convos : next.convos = db.convos) (rows : next.convoMessages = db.convoMessages) :
    Files db none next :=
  ⟨(filed.of_same convos rows).1, (filed.of_same convos rows).2⟩

/-- A direct entry files the event which it brings. -/
theorem Filed.receiveDirect (json : JsonReader P) {env : ClientEnv P} {identity : Identity P}
    (found : env.identity = some identity) (entry : MailboxEntry P) {db : ClientDb P}
    (filed : db.Filed) (loads : (env.fails .identity || env.fails .cursor) = false) :
    Files db (db.directEvent env entry) (db.receiveDirect json env identity entry).1 := by
  simp only [directEvent, found, loads, Bool.false_eq_true, if_false]
  simp only [ClientDb.receiveDirect, directWrite]
  cases openDirect identity entry.message with
  | error err => exact filed.files_none rfl rfl
  | ok opened =>
      cases opened with
      | none => exact filed.files_none rfl rfl
      | some signed =>
          rcases getUserDescriptor_cases env signed.sender db with
            ⟨err, looked, failed | unknown⟩ | ⟨descriptor, cache, looked, works, known⟩
          · simp only [looked]
            cases db.descriptorFor env signed.sender with
            | none => exact filed.files_none rfl rfl
            | some descriptor =>
                dsimp only
                cases readDirect identity signed env.clock descriptor.rootCertHash with
                | error err => exact filed.files_none rfl rfl
                | ok read =>
                    cases read with
                    | none => exact filed.files_none rfl rfl
                    | some target =>
                        simp only [failed, Bool.true_or, if_true]
                        exact filed.files_none rfl rfl
          · simp only [looked, unknown]
            exact filed.files_none rfl rfl
          · simp only [looked, known]
            cases readDirect identity signed env.clock descriptor.rootCertHash with
            | error err => exact filed.files_none rfl rfl
            | ok read =>
                cases read with
                | none => exact filed.files_none rfl rfl
                | some target =>
                    have cached : Filed { db with userDescriptorCache := cache } ∧
                        contents { db with userDescriptorCache := cache } = db.contents :=
                      filed.of_same rfl rfl
                    have stored := cached.1.storeMessage json env target.1 signed.sender target.2
                      entry.receivedAt
                    rw [cached.2] at stored
                    refine ⟨stored.1, stored.2.trans ?_⟩
                    simp only [works, Bool.false_or]
                    split <;> rfl

/-- What `process_mailbox_entry` does to the contents. -/
theorem Filed.processMailboxEntry (json : JsonReader P) (env : ClientEnv P) (key : MailboxKey P)
    (entry : MailboxEntry P) {db : ClientDb P} (filed : db.Filed) :
    Files db (db.directEvent env entry) (db.processMailboxEntry json env key entry).1 := by
  rcases InboxRun.processMailboxEntry_cases json env key entry db with
    ⟨broken, same⟩ | ⟨identity, found, loads, stores, same⟩
  · rw [same]
    have nothing : db.directEvent env entry = none := by
      rw [directEvent]
      cases found : env.identity with
      | none => rfl
      | some identity =>
          refine if_pos ?_
          by_contra works
          rw [Bool.or_eq_true, not_or, Bool.not_eq_true, Bool.not_eq_true] at works
          exact broken ⟨identity, found, works⟩
    rw [nothing]
    exact filed.files_none rfl rfl
  · rw [same]
    have cursor : Filed (db.updateMailboxAfter key entry.receivedAt) ∧
        (db.updateMailboxAfter key entry.receivedAt).contents = db.contents :=
      filed.of_same rfl rfl
    have works : (env.fails .identity || env.fails .cursor) = false := by
      rw [loads, stores, Bool.or_self]
    have received := cursor.1.receiveDirect json found entry works
    exact ⟨received.filed, cursor.2 ▸ received.contents⟩

/-- What `process_group_message_entry` does to the contents. -/
theorem Filed.processGroupMessageEntry (json : JsonReader P) (env : ClientEnv P)
    (groupId : GroupId P) (group : GroupRecord P) (entry : MailboxEntry P) {db : ClientDb P}
    (filed : db.Filed) :
    Files db (groupEvent env groupId group entry)
      (db.processGroupMessageEntry json env groupId group entry).1 := by
  rw [ClientDb.processGroupMessageEntry, groupEvent]
  by_cases rekey : entry.message.kind = Blob.v1GroupRekey
  · rw [if_pos rekey, if_pos rekey]
    obtain ⟨groups, same⟩ := groupsOnly_rekey env groupId group entry.message db
    rw [same]
    exact filed.files_none rfl rfl
  · rw [if_neg rekey, if_neg rekey, groupWrite]
    cases openGroupMessage group entry.message with
    | error err => exact filed.files_none rfl rfl
    | ok opened =>
        cases opened with
        | none => exact filed.files_none rfl rfl
        | some signed =>
            rcases senderDescriptor_cases env signed.sender with
              ⟨err, looked, failed | unknown⟩ | ⟨descriptor, looked, works, known⟩
            · simp only [looked]
              cases env.descriptor signed.sender with
              | none => exact filed.files_none rfl rfl
              | some descriptor =>
                  dsimp only
                  cases readGroupEvent groupId signed env.clock descriptor.rootCertHash with
                  | error err => exact filed.files_none rfl rfl
                  | ok read =>
                      cases read with
                      | none => exact filed.files_none rfl rfl
                      | some target =>
                          simp only [failed, Bool.true_or, if_true]
                          exact filed.files_none rfl rfl
            · simp only [looked, unknown]
              exact filed.files_none rfl rfl
            · simp only [looked, known]
              cases readGroupEvent groupId signed env.clock descriptor.rootCertHash with
              | error err => exact filed.files_none rfl rfl
              | ok read =>
                  cases read with
                  | none => exact filed.files_none rfl rfl
                  | some target =>
                      have stored := filed.storeMessage json env target.1 signed.sender target.2
                        entry.receivedAt
                      refine ⟨stored.1, stored.2.trans ?_⟩
                      simp only [works, Bool.false_or]
                      split <;> rfl

end ClientDb

/-- A client and the events which it has received. -/
structure EventRun (P : Primitives) where
  db : ClientDb P
  received : List (ConvoId P × ShownEvent)

/-- An entry to process. -/
inductive EntryEvent (P : Primitives) where
  | direct (env : ClientEnv P) (key : MailboxKey P) (entry : MailboxEntry P)
  /-- With the group's row as its loop has read it. -/
  | group (env : ClientEnv P) (groupId : GroupId P) (group : GroupRecord P)
      (entry : MailboxEntry P)

namespace EventRun

def start (db : ClientDb P) : EventRun P := ⟨db, []⟩

def machine (json : JsonReader P) : Machine (EventRun P) (EntryEvent P) where
  step run
    | .direct env key entry =>
        some ⟨(run.db.processMailboxEntry json env key entry).1,
          run.received ++ (run.db.directEvent env entry).toList⟩
    | .group env groupId group entry =>
        some ⟨(run.db.processGroupMessageEntry json env groupId group entry).1,
          run.received ++ (ClientDb.groupEvent env groupId group entry).toList⟩

/-- The rows show, of each conversation, what they showed before and what was received. -/
def Complete (before : ClientDb P) (run : EventRun P) : Prop :=
  ∀ convo event, (some convo, event) ∈ run.db.contents ↔
    (some convo, event) ∈ before.contents ∨ (convo, event) ∈ run.received

/-- Different events of one conversation have different `sent_at`, those of the rows from
before included. -/
def SentApart (before : ClientDb P) (run : EventRun P) : Prop :=
  KeyTells shownKey (before.contents ++ run.received.map ClientDb.filing)

/-- The contents are what the index has let in. -/
theorem files_run (json : JsonReader P) {db : ClientDb P} (filed : db.Filed)
    {events : List (EntryEvent P)} {run : EventRun P}
    (reached : (machine json).exec (start db) events = some run) :
    run.db.Filed ∧ run.db.contents =
      insertAll shownKey db.contents (run.received.map ClientDb.filing) := by
  have kept : (machine json).Always (fun run : EventRun P => run.db.Filed ∧ run.db.contents =
      insertAll shownKey db.contents (run.received.map ClientDb.filing)) (start db) events := by
    refine Machine.always_of_step ?_ events ⟨filed, rfl⟩
    rintro run event next ⟨filedNow, contents⟩ taken
    have step : ∃ received, ClientDb.Files run.db received next.db ∧
        next.received = run.received ++ received.toList := by
      cases event with
      | direct env key entry =>
          cases taken
          exact ⟨_, filedNow.processMailboxEntry json env key entry, rfl⟩
      | group env groupId group entry =>
          cases taken
          exact ⟨_, filedNow.processGroupMessageEntry json env groupId group entry, rfl⟩
    obtain ⟨received, files, noted⟩ := step
    refine ⟨files.filed, ?_⟩
    rw [files.contents, contents, noted, List.map_append, insertAll_append]
  exact kept.last reached

/-- Every row stands in a conversation. -/
theorem owned_contents {db : ClientDb P} (filed : db.Filed)
    {entry : Option (ConvoId P) × ShownEvent} (listed : entry ∈ db.contents) :
    ∃ convo, entry.1 = some convo := by
  obtain ⟨row, rowListed, rfl⟩ := List.mem_map.mp listed
  obtain ⟨convo, found, looked, owns⟩ := filed.owned row rowListed
  exact ⟨convo, owns ▸ ClientDb.convoOf_eq_some filed.keyed looked⟩

/-- After any entries the rows show everything received exactly when no two different events
of one conversation have the same `sent_at`. -/
theorem rows_complete_iff (json : JsonReader P) {db : ClientDb P} (filed : db.Filed)
    {events : List (EntryEvent P)} {run : EventRun P}
    (reached : (machine json).exec (start db) events = some run) :
    run.Complete db ↔ run.SentApart db := by
  obtain ⟨_, contents⟩ := files_run json filed reached
  rw [SentApart, ← complete_iff filed.distinct, Complete, contents]
  have filings : ∀ convo event, (some convo, event) ∈ run.received.map ClientDb.filing ↔
      (convo, event) ∈ run.received := by
    intro convo event
    rw [List.mem_map]
    constructor
    · rintro ⟨⟨_, _⟩, listed, ⟨⟩⟩
      exact listed
    · intro listed
      exact ⟨_, listed, rfl⟩
  constructor
  · intro complete entry
    refine ⟨mem_of_mem_insertAll, fun listed => ?_⟩
    have owned : ∃ convo, entry.1 = some convo := by
      rcases listed with old | new
      · exact owned_contents filed old
      · obtain ⟨_, _, rfl⟩ := List.mem_map.mp new
        exact ⟨_, rfl⟩
    obtain ⟨convo, standing⟩ := owned
    obtain ⟨_, event⟩ := entry
    cases standing
    exact (complete convo event).mpr (listed.imp_right (filings convo event).mp)
  · intro complete convo event
    rw [complete, filings]

/-- What a member posts to the example group at a time of its choice. -/
def groupPost (sender : UserName) (device : UInt8) (words : String) (sentAt : NanoTimestamp) :
    MailboxEntry symbolic :=
  ⟨⟨Blob.v1GroupMessage, Bcs.toBytes (GroupMessage.encryptMessage zeroNonce
    ⟨.group exampleGroup.id, sentAt, "text/plain", utf8 words⟩ sender (rootChain device 100) device
    joinedGroup.groupKeyCurrent)⟩, 6, none⟩

def readingEnv : ClientEnv symbolic :=
  ⟨some bobbyIdentity, 6, 6, symbolicDirectory, fun _ => false⟩

def postedRun (entries : List (MailboxEntry symbolic)) : List (EntryEvent symbolic) :=
  entries.map fun entry => .group readingEnv exampleGroup.id joinedGroup entry

theorem filed_joinedDb : joinedDb.Filed :=
  ⟨by decide, by rintro row ⟨⟩, by decide⟩

/-- Bobby's words at Alice's `sent_at` are not shown. -/
theorem sameTimeRun_incomplete :
    ∃ run, (machine symbolicJson).exec (start joinedDb)
        (postedRun [groupPost alice 1 "yes" 4, groupPost bobby 2 "no" 4]) = some run ∧
      (ConvoId.group exampleGroup.id, ⟨bobby, "text/plain", utf8 "no", 4⟩) ∈ run.received ∧
      ¬run.Complete joinedDb := by
  have ends : ((machine symbolicJson).exec (start joinedDb)
      (postedRun [groupPost alice 1 "yes" 4, groupPost bobby 2 "no" 4])).map
        (fun run => (run.received, run.db.contents)) =
      some ([(.group exampleGroup.id, ⟨alice, "text/plain", utf8 "yes", 4⟩),
          (.group exampleGroup.id, ⟨bobby, "text/plain", utf8 "no", 4⟩)],
        [(some (.group exampleGroup.id), ⟨alice, "text/plain", utf8 "yes", 4⟩)]) := by
    decide +kernel
  obtain ⟨run, reached, seen⟩ := Option.map_eq_some_iff.mp ends
  simp only [Prod.mk.injEq] at seen
  obtain ⟨received, contents⟩ := seen
  have listed : (ConvoId.group exampleGroup.id, ⟨bobby, "text/plain", utf8 "no", 4⟩) ∈
      run.received := received ▸ List.mem_cons_of_mem _ (List.mem_singleton_self _)
  refine ⟨run, reached, listed, fun complete => ?_⟩
  have shown := (complete _ _).mpr (Or.inr listed)
  rw [contents] at shown
  revert shown
  decide

/-- With times apart all events are shown. -/
theorem laterRun_complete :
    ∃ run, (machine symbolicJson).exec (start joinedDb)
        (postedRun [groupPost alice 1 "yes" 4, groupPost bobby 2 "no" 5,
          groupPost alice 1 "yes" 4]) = some run ∧ run.Complete joinedDb := by
  have ends : ((machine symbolicJson).exec (start joinedDb)
      (postedRun [groupPost alice 1 "yes" 4, groupPost bobby 2 "no" 5,
        groupPost alice 1 "yes" 4])).map EventRun.received =
      some [(.group exampleGroup.id, ⟨alice, "text/plain", utf8 "yes", 4⟩),
          (.group exampleGroup.id, ⟨bobby, "text/plain", utf8 "no", 5⟩),
          (.group exampleGroup.id, ⟨alice, "text/plain", utf8 "yes", 4⟩)] := by
    decide +kernel
  obtain ⟨run, reached, received⟩ := Option.map_eq_some_iff.mp ends
  refine ⟨run, reached, (rows_complete_iff symbolicJson filed_joinedDb reached).mpr ?_⟩
  rw [SentApart, received]
  decide

end EventRun
end Nullspace
