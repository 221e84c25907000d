import Nullspace.Client.Receive

/-!
# What an entry writes, and what can keep it from doing so

For each receive path: the write which the entry calls for, read off the path's own
pure steps; the failures which can come between the cursor and that write; and the
theorem that the path writes exactly this, or, under such a failure, nothing.

`effects` is where the writes of all paths show: the message rows, and a group's keys
and roster.
-/

namespace Nullspace

open Nullspace.Base

variable {P : Primitives}

/-- The roster as every load of it is followed by: with the initial admin. -/
def GroupRecord.loadedRoster (group : GroupRecord P) : GroupRoster :=
  group.roster.ensureInitialized group.descriptor.initAdmin

def GroupRecord.keys (group : GroupRecord P) : AeadKey × AeadKey :=
  (group.groupKeyCurrent, group.groupKeyPrev)

namespace ClientDb

/-- What of a group shows in conversations and to its members. -/
def groupEffects (db : ClientDb P) (groupId : GroupId P) :
    Option ((AeadKey × AeadKey) × GroupRoster) :=
  (db.groups.lookup groupId).map fun group => (group.keys, group.loadedRoster)

def effects (db : ClientDb P) (groupId : GroupId P) :
    List ConvoMessage × Option ((AeadKey × AeadKey) × GroupRoster) :=
  (db.convoMessages, db.groupEffects groupId)

/-- The rows with an event added to a conversation. -/
def withMessage (db : ClientDb P) (convo : ConvoId P) (now : NanoTimestamp) (sender : UserName)
    (content : Event P) (receivedAt : NanoTimestamp) : List ConvoMessage :=
  ((db.ensureConvoId convo now).1.insertMessage (db.ensureConvoId convo now).2 sender content
    receivedAt).convoMessages

/-- The conversation has a row with the event's `sent_at`. -/
def knowsMessage (db : ClientDb P) (convo : ConvoId P) (now : NanoTimestamp)
    (content : Event P) : Bool :=
  db.hasMessage (db.ensureConvoId convo now).2 content.sentAt

/-- An operation of `storeMessage` fails which is not ignored. -/
def storeFails (env : ClientEnv P) : Bool :=
  env.fails .connection || env.fails .convo || env.fails .message

theorem ensureConvoId_convoMessages (db : ClientDb P) (convo : ConvoId P) (now : NanoTimestamp) :
    (db.ensureConvoId convo now).1.convoMessages = db.convoMessages := by
  simp only [ensureConvoId]
  split <;> rfl

/-- A message is appended unless the conversation has one of the same `sent_at`. -/
theorem insertMessage_convoMessages (db : ClientDb P) (convoId : Nat) (sender : UserName)
    (content : Event P) (receivedAt : NanoTimestamp) :
    (db.insertMessage convoId sender content receivedAt).convoMessages =
      if db.hasMessage convoId content.sentAt then db.convoMessages
      else db.convoMessages ++
        [⟨nextRowId (db.convoMessages.map ConvoMessage.id), convoId, sender, content.mime,
          content.body, content.sentAt, none, some receivedAt⟩] := by
  rw [insertMessage]
  split <;> rfl

/-- What `withMessage` adds, over the rows before. -/
theorem withMessage_eq (db : ClientDb P) (convo : ConvoId P) (now : NanoTimestamp)
    (sender : UserName) (content : Event P) (receivedAt : NanoTimestamp) :
    db.withMessage convo now sender content receivedAt =
      if db.knowsMessage convo now content then db.convoMessages
      else db.convoMessages ++
        [⟨nextRowId (db.convoMessages.map ConvoMessage.id), (db.ensureConvoId convo now).2, sender,
          content.mime, content.body, content.sentAt, none, some receivedAt⟩] := by
  have rows := ensureConvoId_convoMessages db convo now
  have known : (db.ensureConvoId convo now).1.hasMessage (db.ensureConvoId convo now).2
      content.sentAt = db.knowsMessage convo now content := by
    simp only [knowsMessage, hasMessage, rows]
  rw [withMessage, insertMessage_convoMessages, known, rows]

/-- No row is added exactly when the conversation knows the message. -/
theorem withMessage_eq_iff (db : ClientDb P) (convo : ConvoId P) (now : NanoTimestamp)
    (sender : UserName) (content : Event P) (receivedAt : NanoTimestamp) :
    db.withMessage convo now sender content receivedAt = db.convoMessages ↔
      db.knowsMessage convo now content = true := by
  rw [withMessage_eq]
  split <;> rename_i known <;> simp [known]

/-- A new row depends on the conversations and the rows alone. -/
theorem withMessage_congr {db other : ClientDb P} (convos : other.convos = db.convos)
    (rows : other.convoMessages = db.convoMessages) (convo : ConvoId P) (now : NanoTimestamp)
    (sender : UserName) (content : Event P) (receivedAt : NanoTimestamp) :
    other.withMessage convo now sender content receivedAt =
      db.withMessage convo now sender content receivedAt := by
  have sameId : (other.ensureConvoId convo now).2 = (db.ensureConvoId convo now).2 := by
    simp only [ensureConvoId, convos]
    split <;> rfl
  have known : other.knowsMessage convo now content = db.knowsMessage convo now content := by
    simp only [knowsMessage, hasMessage, rows, sameId]
  rw [withMessage_eq, withMessage_eq, known, rows, sameId]

/-- The tables which a step leaves alone, besides the message rows. -/
structure Beside (db next : ClientDb P) : Prop where
  groups : next.groups = db.groups
  mailboxState : next.mailboxState = db.mailboxState

theorem Beside.refl (db : ClientDb P) : Beside db db := ⟨rfl, rfl⟩

theorem beside_ensureConvoId (db : ClientDb P) (convo : ConvoId P) (now : NanoTimestamp) :
    Beside db (db.ensureConvoId convo now).1 := by
  simp only [ensureConvoId]
  split <;> exact ⟨rfl, rfl⟩

theorem beside_insertMessage (db : ClientDb P) (convoId : Nat) (sender : UserName)
    (content : Event P) (receivedAt : NanoTimestamp) :
    Beside db (db.insertMessage convoId sender content receivedAt) := by
  simp only [insertMessage]
  split <;> exact ⟨rfl, rfl⟩

/-- Storing an attachment root touches its own table alone. -/
theorem storeAttachment_eq (json : JsonReader P) (sender : UserName) (content : Event P)
    (db : ClientDb P) : ∃ roots, db.storeAttachment json sender content =
      { db with attachmentRoots := roots } := by
  simp only [storeAttachment]
  split
  · split
    · exact ⟨_, rfl⟩
    · exact ⟨db.attachmentRoots, rfl⟩
  · exact ⟨db.attachmentRoots, rfl⟩

/-- `storeMessage` adds the event, or nothing. -/
theorem storeMessage_spec (json : JsonReader P) (env : ClientEnv P) (convo : ConvoId P)
    (sender : UserName) (content : Event P) (receivedAt : NanoTimestamp) (db : ClientDb P) :
    (db.storeMessage json env convo sender content receivedAt).1.convoMessages =
        (if storeFails env then db.convoMessages
        else db.withMessage convo env.now sender content receivedAt) ∧
      Beside db (db.storeMessage json env convo sender content receivedAt).1 := by
  have rooted : ∃ roots, (if env.fails .attachment then db
      else db.storeAttachment json sender content) = { db with attachmentRoots := roots } := by
    split
    · exact ⟨db.attachmentRoots, rfl⟩
    · exact storeAttachment_eq json sender content db
  obtain ⟨roots, rooted⟩ := rooted
  by_cases connection : env.fails .connection = true
  · simp only [storeMessage, storeFails, connection, Bool.true_or, if_true]
    exact ⟨trivial, .refl db⟩
  · have first := beside_ensureConvoId { db with attachmentRoots := roots } convo env.now
    have rows := ensureConvoId_convoMessages { db with attachmentRoots := roots } convo env.now
    have second := beside_insertMessage
      (ensureConvoId { db with attachmentRoots := roots } convo env.now).1
      (ensureConvoId { db with attachmentRoots := roots } convo env.now).2 sender content receivedAt
    have written : withMessage { db with attachmentRoots := roots } convo env.now sender content
        receivedAt = db.withMessage convo env.now sender content receivedAt := by
      apply withMessage_congr <;> rfl
    by_cases opens : env.fails .convo = true
    · simp only [storeMessage, storeFails, rooted, connection, opens, if_true, Bool.or_true,
        Bool.true_or]
      exact ⟨rfl, rfl, rfl⟩
    · by_cases inserts : env.fails .message = true
      · simp only [storeMessage, storeFails, rooted, connection, opens, inserts, if_true,
          Bool.or_true]
        exact ⟨rows, first.groups, first.mailboxState⟩
      · simp only [storeMessage, storeFails, rooted, connection, opens, inserts, Bool.or_self,
          ← written]
        exact ⟨rfl, second.groups.trans first.groups, second.mailboxState.trans first.mailboxState⟩

/-- The descriptor which a lookup yields when nothing fails. -/
def descriptorFor (db : ClientDb P) (env : ClientEnv P) (username : UserName) :
    Option (UserDescriptor P) :=
  match db.freshDescriptor env.clock username with
  | some descriptor => some descriptor
  | none => env.descriptor username

/-- An operation of a lookup fails; a fresh cached descriptor needs no directory. -/
def lookupFails (db : ClientDb P) (env : ClientEnv P) (username : UserName) : Bool :=
  env.fails .cachedDescriptor ||
    ((db.freshDescriptor env.clock username).isNone &&
      (env.fails .directory || env.fails .storeDescriptor))

/-- A lookup yields the known descriptor, and fails when an operation does or nobody knows one. -/
theorem getUserDescriptor_cases (env : ClientEnv P) (username : UserName) (db : ClientDb P) :
    (∃ err, db.getUserDescriptor env username = (db, .error err) ∧
      (db.lookupFails env username = true ∨ db.descriptorFor env username = none)) ∨
    ∃ descriptor cache, db.getUserDescriptor env username =
        ({ db with userDescriptorCache := cache }, .ok descriptor) ∧
      db.lookupFails env username = false ∧ db.descriptorFor env username = some descriptor := by
  simp only [getUserDescriptor, lookupFails, descriptorFor]
  cases env.fails .cachedDescriptor with
  | true => exact Or.inl ⟨_, rfl, Or.inl rfl⟩
  | false =>
      cases db.freshDescriptor env.clock username with
      | some descriptor => exact Or.inr ⟨descriptor, db.userDescriptorCache, rfl, rfl, rfl⟩
      | none =>
          cases env.fails .directory with
          | true => exact Or.inl ⟨_, rfl, Or.inl rfl⟩
          | false =>
              cases env.descriptor username with
              | none => exact Or.inl ⟨_, rfl, Or.inr rfl⟩
              | some descriptor =>
                  cases env.fails .storeDescriptor with
                  | true => exact Or.inl ⟨_, rfl, Or.inl rfl⟩
                  | false => exact Or.inr ⟨descriptor, _, rfl, rfl, rfl⟩

/-- The row which a direct message calls for: its conversation, sender and event. -/
def directWrite (db : ClientDb P) (env : ClientEnv P) (identity : Identity P)
    (entry : MailboxEntry P) : Option (ConvoId P × UserName × Event P) :=
  match openDirect identity entry.message with
  | .ok (some signed) =>
      match db.descriptorFor env signed.sender with
      | none => none
      | some descriptor =>
          match readDirect identity signed env.clock descriptor.rootCertHash with
          | .ok (some (convo, content)) => some (convo, signed.sender, content)
          | _ => none
  | _ => none

/-- A direct message brings the row which it calls for, unless storing it fails. -/
theorem receiveDirect_spec (json : JsonReader P) (env : ClientEnv P) (identity : Identity P)
    (entry : MailboxEntry P) (db : ClientDb P) :
    (db.receiveDirect json env identity entry).1.convoMessages =
        (match db.directWrite env identity entry with
        | none => db.convoMessages
        | some (convo, sender, content) =>
            if db.lookupFails env sender || storeFails env then db.convoMessages
            else db.withMessage convo env.now sender content entry.receivedAt) ∧
      Beside db (db.receiveDirect json env identity entry).1 := by
  simp only [receiveDirect, directWrite]
  cases openDirect identity entry.message with
  | error err => exact ⟨rfl, .refl db⟩
  | ok opened =>
      cases opened with
      | none => exact ⟨rfl, .refl db⟩
      | some signed =>
          rcases getUserDescriptor_cases env signed.sender db with
            ⟨err, looked, failed | unknown⟩ | ⟨descriptor, cache, looked, works, found⟩
          · simp only [looked]
            refine ⟨?_, .refl db⟩
            cases db.descriptorFor env signed.sender with
            | none => rfl
            | some descriptor =>
                dsimp only
                cases readDirect identity signed env.clock descriptor.rootCertHash with
                | error err => rfl
                | ok read => cases read <;> simp [failed]
          · simp only [looked, unknown]
            exact ⟨trivial, .refl db⟩
          · simp only [looked, found]
            cases readDirect identity signed env.clock descriptor.rootCertHash with
            | error err => exact ⟨rfl, rfl, rfl⟩
            | ok read =>
                cases read with
                | none => exact ⟨rfl, rfl, rfl⟩
                | some target =>
                    obtain ⟨rows, beside⟩ := storeMessage_spec json env target.1 signed.sender
                      target.2 entry.receivedAt { db with userDescriptorCache := cache }
                    have written : withMessage { db with userDescriptorCache := cache } target.1
                        env.now signed.sender target.2 entry.receivedAt =
                          db.withMessage target.1 env.now signed.sender target.2
                            entry.receivedAt := by
                      apply withMessage_congr <;> rfl
                    refine ⟨?_, beside.groups, beside.mailboxState⟩
                    simp only [works, Bool.false_or, ← written]
                    exact rows

/-- The row which a group message calls for. -/
def groupWrite (env : ClientEnv P) (groupId : GroupId P) (group : GroupRecord P)
    (entry : MailboxEntry P) : Option (ConvoId P × UserName × Event P) :=
  match openGroupMessage group entry.message with
  | .ok (some signed) =>
      match env.descriptor signed.sender with
      | none => none
      | some descriptor =>
          match readGroupEvent groupId signed env.clock descriptor.rootCertHash with
          | .ok (some (convo, content)) => some (convo, signed.sender, content)
          | _ => none
  | _ => none

/-- The sender's descriptor comes from the directory, if it answers and has one. -/
theorem senderDescriptor_cases (env : ClientEnv P) (sender : UserName) :
    (∃ err, senderDescriptor env sender = .error err ∧
      (env.fails .directory = true ∨ env.descriptor sender = none)) ∨
    ∃ descriptor, senderDescriptor env sender = .ok descriptor ∧
      env.fails .directory = false ∧ env.descriptor sender = some descriptor := by
  rw [senderDescriptor]
  cases env.fails .directory with
  | true => exact Or.inl ⟨_, rfl, Or.inl rfl⟩
  | false =>
      cases env.descriptor sender with
      | none => exact Or.inl ⟨_, rfl, Or.inr rfl⟩
      | some descriptor => exact Or.inr ⟨descriptor, rfl, rfl, rfl⟩

/-- A group message brings the row which it calls for, unless storing it fails. -/
theorem processGroupMessageEntry_spec (json : JsonReader P) (env : ClientEnv P)
    (groupId : GroupId P) (group : GroupRecord P) {entry : MailboxEntry P} (db : ClientDb P)
    (noRekey : entry.message.kind ≠ Blob.v1GroupRekey) :
    (db.processGroupMessageEntry json env groupId group entry).1.convoMessages =
        (match groupWrite env groupId group entry with
        | none => db.convoMessages
        | some (convo, sender, content) =>
            if env.fails .directory || storeFails env then db.convoMessages
            else db.withMessage convo env.now sender content entry.receivedAt) ∧
      Beside db (db.processGroupMessageEntry json env groupId group entry).1 := by
  simp only [processGroupMessageEntry, if_neg noRekey, groupWrite]
  cases openGroupMessage group entry.message with
  | error err => exact ⟨rfl, .refl db⟩
  | ok opened =>
      cases opened with
      | none => exact ⟨rfl, .refl db⟩
      | some signed =>
          rcases senderDescriptor_cases env signed.sender with
            ⟨err, looked, failed | unknown⟩ | ⟨descriptor, looked, works, found⟩
          · simp only [looked]
            refine ⟨?_, .refl db⟩
            cases env.descriptor signed.sender with
            | none => rfl
            | some descriptor =>
                dsimp only
                cases readGroupEvent groupId signed env.clock descriptor.rootCertHash with
                | error err => rfl
                | ok read => cases read <;> simp [failed]
          · simp only [looked, unknown]
            exact ⟨trivial, .refl db⟩
          · simp only [looked, found]
            cases readGroupEvent groupId signed env.clock descriptor.rootCertHash with
            | error err => exact ⟨rfl, .refl db⟩
            | ok read =>
                cases read with
                | none => exact ⟨rfl, .refl db⟩
                | some target =>
                    simp only [works, Bool.false_or]
                    exact storeMessage_spec json env target.1 signed.sender target.2
                      entry.receivedAt db

/-- An operation of `loadRoster` fails; an initialized roster is only looked at. -/
def rosterFails (env : ClientEnv P) (group : GroupRecord P) : Bool :=
  env.fails .rosterVersion ||
    (decide (group.roster.version = 0) && (env.fails .rosterAdmin || env.fails .rosterMark))

/-- The group's row is as before but for its keys and for its roster, of which it is said
what the next load makes of it. -/
structure Regrouped (groupId : GroupId P) (group : GroupRecord P) (keys : AeadKey × AeadKey)
    (loaded : GroupRoster) (db next : ClientDb P) : Prop where
  convoMessages : next.convoMessages = db.convoMessages
  mailboxState : next.mailboxState = db.mailboxState
  listed : ∃ roster : GroupRoster, next.groups.lookup groupId = some { group with
      groupKeyCurrent := keys.1, groupKeyPrev := keys.2, roster := roster } ∧
    roster.ensureInitialized group.descriptor.initAdmin = loaded

theorem Regrouped.refl {groupId : GroupId P} {group : GroupRecord P} {db : ClientDb P}
    (listed : db.groups.lookup groupId = some group) :
    Regrouped groupId group group.keys group.loadedRoster db db :=
  ⟨rfl, rfl, group.roster, listed, rfl⟩

/-- What shows of a regrouped group are its keys and its roster. -/
theorem Regrouped.groupEffects {groupId : GroupId P} {group : GroupRecord P}
    {keys : AeadKey × AeadKey} {loaded : GroupRoster} {db next : ClientDb P}
    (regrouped : Regrouped groupId group keys loaded db next) :
    next.groupEffects groupId = some (keys, loaded) := by
  obtain ⟨roster, listed, same⟩ := regrouped.listed
  simp only [ClientDb.groupEffects, listed, Option.map_some, GroupRecord.keys,
    GroupRecord.loadedRoster, same]

/-- A change of a group's row leaves the messages and the cursors alone. -/
theorem updateGroup_frame (db : ClientDb P) (groupId : GroupId P)
    (change : GroupRecord P → GroupRecord P) :
    (db.updateGroup groupId change).convoMessages = db.convoMessages ∧
      (db.updateGroup groupId change).mailboxState = db.mailboxState := by
  simp only [updateGroup]
  split <;> exact ⟨rfl, rfl⟩

/-- Only the groups differ. -/
def GroupsOnly (db next : ClientDb P) : Prop := ∃ groups, next = { db with groups := groups }

theorem GroupsOnly.refl (db : ClientDb P) : GroupsOnly db db := ⟨db.groups, rfl⟩

theorem GroupsOnly.trans {first second third : ClientDb P} (before : GroupsOnly first second)
    (after : GroupsOnly second third) : GroupsOnly first third := by
  obtain ⟨_, rfl⟩ := before
  obtain ⟨groups, rfl⟩ := after
  exact ⟨groups, rfl⟩

theorem groupsOnly_updateGroup (db : ClientDb P) (groupId : GroupId P)
    (change : GroupRecord P → GroupRecord P) : GroupsOnly db (db.updateGroup groupId change) := by
  simp only [updateGroup]
  split
  · exact .refl db
  · exact ⟨_, rfl⟩

theorem groupsOnly_loadRoster (env : ClientEnv P) (groupId : GroupId P) (initAdmin : UserName)
    (db : ClientDb P) : GroupsOnly db (db.loadRoster env groupId initAdmin).1 := by
  simp only [loadRoster]
  split
  · exact .refl db
  · split
    · exact .refl db
    · split
      · exact .refl db
      · split
        · exact .refl db
        · split
          · exact groupsOnly_updateGroup db groupId _
          · exact (groupsOnly_updateGroup db groupId _).trans (groupsOnly_updateGroup _ groupId _)

/-- A roster is loaded with the initial admin, or a failure leaves what the next load makes of
it. -/
theorem loadRoster_cases (env : ClientEnv P) {groupId : GroupId P} {group : GroupRecord P}
    {db : ClientDb P} (listed : db.groups.lookup groupId = some group) :
    (∃ next err, db.loadRoster env groupId group.descriptor.initAdmin = (next, .error err) ∧
      rosterFails env group = true ∧ Regrouped groupId group group.keys group.loadedRoster db next) ∨
    ∃ next, db.loadRoster env groupId group.descriptor.initAdmin = (next, .ok ()) ∧
      rosterFails env group = false ∧ next.convoMessages = db.convoMessages ∧
      next.mailboxState = db.mailboxState ∧
      next.groups.lookup groupId = some { group with roster := group.loadedRoster } := by
  simp only [loadRoster, listed, rosterFails]
  cases env.fails .rosterVersion with
  | true => exact Or.inl ⟨db, _, rfl, rfl, .refl listed⟩
  | false =>
      by_cases initialized : group.roster.version = 0
      · have unmarked := GroupRoster.ensureInitialized_of_unmarked initialized
          group.descriptor.initAdmin
        simp only [initialized, Bool.false_eq_true, if_false, ne_eq, not_true, decide_true,
          Bool.true_and, Bool.false_or]
        cases env.fails .rosterAdmin with
        | true => exact Or.inl ⟨db, _, rfl, rfl, .refl listed⟩
        | false =>
            -- the admin's row is written first, the mark on the group's row second
            have written := lookup_updateGroup listed fun row => { row with
              roster := (row.roster.upsertMember group.descriptor.initAdmin
                GroupRoster.initialMember).1 }
            have marked := lookup_updateGroup written fun row => { row with
              roster := { row.roster with version := 1 } }
            have firstFrame := updateGroup_frame db groupId fun row => { row with
              roster := (row.roster.upsertMember group.descriptor.initAdmin
                GroupRoster.initialMember).1 }
            cases env.fails .rosterMark with
            | true =>
                exact Or.inl ⟨_, _, rfl, rfl, firstFrame.1, firstFrame.2, _, written, unmarked⟩
            | false =>
                have secondFrame := updateGroup_frame (db.updateGroup groupId fun row => { row with
                  roster := (row.roster.upsertMember group.descriptor.initAdmin
                    GroupRoster.initialMember).1 }) groupId fun row => { row with
                  roster := { row.roster with version := 1 } }
                refine Or.inr ⟨_, rfl, rfl, secondFrame.1.trans firstFrame.1,
                  secondFrame.2.trans firstFrame.2, ?_⟩
                simp only [GroupRecord.loadedRoster, GroupRoster.ensureInitialized, initialized,
                  ne_eq, not_true, if_false]
                exact marked
      · have loaded : group.loadedRoster = group.roster :=
          GroupRoster.ensureInitialized_of_version initialized _
        simp only [initialized, Bool.false_eq_true, if_false, ne_eq, not_false_iff, if_true,
          decide_false, Bool.false_and, Bool.or_self]
        exact Or.inr ⟨db, rfl, trivial, rfl, rfl, by rw [loaded]; exact listed⟩

/-- The signed payload which a rekey carries and the key which it calls for. -/
def rekeyWrite (env : ClientEnv P) (identity : Identity P) (groupId : GroupId P)
    (group : GroupRecord P) (message : Blob) : Option (DeviceSigned P × AeadKey) :=
  match openRekey identity message with
  | .error _ => none
  | .ok signed =>
      if group.loadedRoster.senderAdmin signed.sender then
        match env.descriptor signed.sender with
        | none => none
        | some descriptor =>
            match readRekey groupId signed env.clock descriptor.rootCertHash with
            | .ok (some newKey) => some (signed, newKey)
            | _ => none
      else none

/-- An operation of a rekey fails. -/
def rekeyFails (env : ClientEnv P) (group : GroupRecord P) : Bool :=
  env.fails .identity || env.fails .connection || rosterFails env group || env.fails .member ||
    env.fails .directory || env.fails .groupKey

/-- The keys after a rekey: the new one and the one before, or those before. -/
def rekeyed (env : ClientEnv P) (groupId : GroupId P) (group : GroupRecord P) (message : Blob) :
    AeadKey × AeadKey :=
  match env.identity.bind fun identity => rekeyWrite env identity groupId group message with
  | none => group.keys
  | some (_, newKey) =>
      if rekeyFails env group then group.keys else (newKey, group.groupKeyCurrent)

/-- A rekey in which an operation fails leaves the keys. -/
theorem rekeyed_of_fails {env : ClientEnv P} {group : GroupRecord P}
    (fails : rekeyFails env group = true) (groupId : GroupId P) (message : Blob) :
    rekeyed env groupId group message = group.keys := by
  rw [rekeyed]
  split
  · rfl
  · rw [if_pos fails]

/-- A loaded roster has its initial admin. -/
theorem loadedRoster_initialized (group : GroupRecord P) :
    group.loadedRoster.ensureInitialized group.descriptor.initAdmin = group.loadedRoster :=
  GroupRoster.ensureInitialized_of_version (GroupRoster.ensureInitialized_version _ _) _

/-- A rekey leaves the group with the key which it calls for and the one before. -/
theorem processGroupRekeyEntry_spec (env : ClientEnv P) {groupId : GroupId P}
    {group : GroupRecord P} (message : Blob) {db : ClientDb P}
    (listed : db.groups.lookup groupId = some group) :
    Regrouped groupId group (rekeyed env groupId group message) group.loadedRoster db
      (db.processGroupRekeyEntry env groupId group message).1 := by
  have idle : rekeyFails env group = true → rekeyed env groupId group message = group.keys :=
    fun fails => rekeyed_of_fails fails groupId message
  have unchanged : rekeyed env groupId group message = group.keys →
      Regrouped groupId group (rekeyed env groupId group message) group.loadedRoster db db := by
    intro same
    rw [same]
    exact .refl listed
  by_cases identityFails : env.fails .identity = true
  · simp only [processGroupRekeyEntry, identityFails, if_true]
    exact unchanged (idle (by simp [rekeyFails, identityFails]))
  cases found : env.identity with
  | none =>
      simp only [processGroupRekeyEntry, identityFails, found]
      exact unchanged (by simp [rekeyed, found])
  | some identity =>
      cases opened : openRekey identity message with
      | error err =>
          simp only [processGroupRekeyEntry, identityFails, found, opened]
          exact unchanged (by simp [rekeyed, found, rekeyWrite, opened])
      | ok signed =>
          by_cases connection : env.fails .connection = true
          · simp only [processGroupRekeyEntry, identityFails, found, opened, connection,
              if_true]
            exact unchanged (idle (by simp [rekeyFails, connection]))
          rcases loadRoster_cases env listed with
            ⟨next, err, loaded, fails, regrouped⟩ | ⟨next, loaded, works, rows, cursors, relisted⟩
          · simp only [processGroupRekeyEntry, identityFails, found, opened, connection,
              loaded]
            rw [idle (by simp [rekeyFails, fails])]
            exact regrouped
          -- the roster is loaded: what is left decides about the keys alone
          have reloaded : rekeyed env groupId group message = group.keys →
              Regrouped groupId group (rekeyed env groupId group message) group.loadedRoster db next := by
            intro same
            rw [same]
            exact ⟨rows, cursors, _, relisted, loadedRoster_initialized group⟩
          simp only [processGroupRekeyEntry, identityFails, found, opened, connection,
            loaded, relisted]
          by_cases member : env.fails .member = true
          · rw [if_pos member]
            exact reloaded (idle (by simp [rekeyFails, member]))
          rw [if_neg member]
          cases admin : group.loadedRoster.senderAdmin signed.sender with
          | false => exact reloaded (by simp [rekeyed, found, rekeyWrite, opened, admin])
          | true =>
              simp only [Bool.not_true, Bool.false_eq_true, if_false]
              rcases senderDescriptor_cases env signed.sender with
                ⟨err, looked, failed | unknown⟩ | ⟨descriptor, looked, directory, known⟩
              · simp only [looked]
                exact reloaded (idle (by simp [rekeyFails, failed]))
              · simp only [looked]
                exact reloaded (by simp [rekeyed, found, rekeyWrite, opened, admin, unknown])
              · simp only [looked]
                cases read : readRekey groupId signed env.clock descriptor.rootCertHash with
                | error err =>
                    exact reloaded (by simp [rekeyed, found, rekeyWrite, opened, admin, known, read])
                | ok payload =>
                    cases payload with
                    | none =>
                        exact reloaded
                          (by simp [rekeyed, found, rekeyWrite, opened, admin, known, read])
                    | some newKey =>
                        by_cases groupKey : env.fails .groupKey = true
                        · simp only [groupKey, if_true]
                          exact reloaded (idle (by simp [rekeyFails, groupKey]))
                        have taken : rekeyed env groupId group message =
                            (newKey, group.groupKeyCurrent) := by
                          simp [rekeyed, found, rekeyWrite, opened, admin, known, read, rekeyFails,
                            identityFails, connection, works, member, directory, groupKey]
                        have written := lookup_updateGroup relisted fun row => { row with
                          groupKeyPrev := group.groupKeyCurrent, groupKeyCurrent := newKey }
                        have frame := updateGroup_frame next groupId fun row => { row with
                          groupKeyPrev := group.groupKeyCurrent, groupKeyCurrent := newKey }
                        simp only [groupKey, taken]
                        exact ⟨frame.1.trans rows, frame.2.trans cursors, _, written,
                          loadedRoster_initialized group⟩

/-- The change which a management message calls for, and who asks for it. -/
def manageWrite (json : JsonReader P) (env : ClientEnv P) (groupId : GroupId P)
    (group : GroupRecord P) (entry : MailboxEntry P) : Option (UserName × GroupManageMsg) :=
  match openManagement group.descriptor.managementKey entry.message with
  | .ok (some signed) =>
      match env.descriptor signed.sender with
      | none => none
      | some descriptor =>
          match readManagement json groupId signed env.clock descriptor.rootCertHash with
          | .ok (some manage) => some (signed.sender, manage)
          | _ => none
  | _ => none

/-- An operation of a management message fails. -/
def manageFails (env : ClientEnv P) (group : GroupRecord P) : Bool :=
  env.fails .directory || env.fails .connection || rosterFails env group || env.fails .manage ||
    env.fails .commit

/-- The roster with what a management message calls for. -/
def managed (roster : GroupRoster) : Option (UserName × GroupManageMsg) → GroupRoster
  | none => roster
  | some (sender, manage) => (roster.applyManageMessage sender manage).1

/-- A roster stays initialized when it is managed. -/
theorem managed_version {roster : GroupRoster} (initialized : roster.version ≠ 0)
    (write : Option (UserName × GroupManageMsg)) : (managed roster write).version ≠ 0 := by
  cases write with
  | none => exact initialized
  | some write =>
      have grows := GroupRoster.applyManageMessage_version roster write.1 write.2
      dsimp only [managed]
      omega

/-- A management message makes the change which it calls for, unless an operation fails. -/
theorem processGroupManagementEntry_spec (json : JsonReader P) (env : ClientEnv P)
    {groupId : GroupId P} {group : GroupRecord P} (entry : MailboxEntry P) {db : ClientDb P}
    (listed : db.groups.lookup groupId = some group) :
    Regrouped groupId group group.keys
      (if manageFails env group then group.loadedRoster
      else managed group.loadedRoster (manageWrite json env groupId group entry)) db
      (db.processGroupManagementEntry json env groupId group entry).1 := by
  have unchanged : (manageFails env group = true ∨ manageWrite json env groupId group entry = none) →
      Regrouped groupId group group.keys
        (if manageFails env group then group.loadedRoster
        else managed group.loadedRoster (manageWrite json env groupId group entry)) db db := by
    rintro (fails | idle)
    · rw [if_pos fails]
      exact .refl listed
    · rw [idle, managed, ite_self]
      exact .refl listed
  cases opened : openManagement (P := P) group.descriptor.managementKey entry.message with
  | error err =>
      simp only [processGroupManagementEntry, opened]
      exact unchanged (Or.inr (by simp [manageWrite, opened]))
  | ok payload =>
      cases payload with
      | none =>
          simp only [processGroupManagementEntry, opened]
          exact unchanged (Or.inr (by simp [manageWrite, opened]))
      | some signed =>
          rcases senderDescriptor_cases env signed.sender with
            ⟨err, looked, failed | unknown⟩ | ⟨descriptor, looked, directory, known⟩
          · simp only [processGroupManagementEntry, opened, looked]
            exact unchanged (Or.inl (by simp [manageFails, failed]))
          · simp only [processGroupManagementEntry, opened, looked]
            exact unchanged (Or.inr (by simp [manageWrite, opened, unknown]))
          · simp only [processGroupManagementEntry, opened, looked]
            cases read : readManagement json groupId signed env.clock descriptor.rootCertHash with
            | error err => exact unchanged (Or.inr (by simp [manageWrite, opened, known, read]))
            | ok message =>
                cases message with
                | none => exact unchanged (Or.inr (by simp [manageWrite, opened, known, read]))
                | some manage =>
                    simp only [applyManagement]
                    by_cases connection : env.fails .connection = true
                    · rw [if_pos connection]
                      exact unchanged (Or.inl (by simp [manageFails, connection]))
                    rw [if_neg connection]
                    rcases loadRoster_cases env listed with
                      ⟨next, err, loaded, fails, _⟩ | ⟨next, loaded, works, rows, cursors, relisted⟩
                    · simp only [loaded]
                      exact unchanged (Or.inl (by simp [manageFails, fails]))
                    simp only [loaded]
                    by_cases applies : env.fails .manage = true
                    · rw [if_pos applies]
                      exact unchanged (Or.inl (by simp [manageFails, applies]))
                    rw [if_neg applies]
                    by_cases commits : env.fails .commit = true
                    · rw [if_pos commits]
                      exact unchanged (Or.inl (by simp [manageFails, commits]))
                    have write : manageWrite json env groupId group entry =
                        some (signed.sender, manage) := by simp [manageWrite, opened, known, read]
                    have quiet : manageFails env group = false := by
                      simp [manageFails, directory, connection, works, applies, commits]
                    have written := lookup_updateGroup relisted fun row => { row with
                      roster := (row.roster.applyManageMessage signed.sender manage).1 }
                    have frame := updateGroup_frame next groupId fun row => { row with
                      roster := (row.roster.applyManageMessage signed.sender manage).1 }
                    have marked := managed_version
                      (GroupRoster.ensureInitialized_version group.roster group.descriptor.initAdmin)
                      (some (signed.sender, manage))
                    rw [if_neg commits, write, quiet]
                    exact ⟨frame.1.trans rows, frame.2.trans cursors, _, written,
                      GroupRoster.ensureInitialized_of_version marked _⟩

end ClientDb
end Nullspace
