import Nullspace.Base.Machine
import Nullspace.Client.Rounds

/-!
# Entries, cursors and failures

The receive loops of one client over its mailboxes, with any pattern of failures and
crashes. A crash is a failure at the operation where it happens and a restart behind it;
what the client does besides is an arbitrary change of its tables which leaves the
cursors alone.

An entry is owed from an attempt which did not have the effect it would have had
without failures, until an attempt which did. `lossless_iff` says when a stored cursor
never passes an entry which is owed. A run in which the hash of a group's mailbox is that
of the direct mailbox is left out.
-/

namespace Nullspace

open Nullspace.Base

variable {P : Primitives}

/-- Whose direct messages the client receives, and where. -/
structure Account where
  serverName : ServerName
  username : UserName

def Account.key (account : Account) : MailboxKey P :=
  (account.serverName, .direct account.username)

/-- An entry and the mailbox it is in. -/
abbrev PostedEntry (P : Primitives) := MailboxKey P × MailboxEntry P

structure InboxRun (P : Primitives) where
  db : ClientDb P
  /-- The cursor which the direct message loop keeps in memory while it runs. -/
  after : Option NanoTimestamp
  posted : List (PostedEntry P)
  owed : List (PostedEntry P)

inductive InboxEvent (P : Primitives) where
  | post (key : MailboxKey P) (entry : MailboxEntry P)
  /-- The direct message loop starts and reads its cursor. -/
  | directStart
  | direct (env : ClientEnv P) (entry : MailboxEntry P)
  | group (env : ClientEnv P) (groupId : GroupId P) (kind : GroupMailboxKind)
      (entry : MailboxEntry P)
  | restart
  | other (db : ClientDb P)

/-- The entry which a server hands out behind a cursor: the earliest one there is. -/
def IsNext (posted : List (PostedEntry P)) (key : MailboxKey P) (after : NanoTimestamp)
    (entry : MailboxEntry P) : Prop :=
  (key, entry) ∈ posted ∧ after < entry.receivedAt ∧
    ∀ item ∈ posted, item.1 = key → after < item.2.receivedAt → entry.receivedAt ≤ item.2.receivedAt

instance (posted : List (PostedEntry P)) (key : MailboxKey P) (after : NanoTimestamp)
    (entry : MailboxEntry P) : Decidable (IsNext posted key after entry) :=
  inferInstanceAs (Decidable (_ ∧ _ ∧ _))

/-- What is owed after an attempt. -/
def settle (owed : List (PostedEntry P)) (item : PostedEntry P) (settled : Bool) :
    List (PostedEntry P) :=
  if settled then owed.filter fun other => decide (other ≠ item)
  else item :: owed.filter fun other => decide (other ≠ item)

namespace InboxRun

def start (db : ClientDb P) : InboxRun P := ⟨db, none, [], []⟩

/-- The attempt does to the message rows what it would do without failures. -/
def directSettled (json : JsonReader P) (account : Account) (env : ClientEnv P)
    (entry : MailboxEntry P) (db : ClientDb P) : Bool :=
  decide ((db.processMailboxEntry json env account.key entry).1.convoMessages =
    (db.processMailboxEntry json env.calm account.key entry).1.convoMessages)

/-- The attempt does to the message rows and to the group what it would do without failures. -/
def groupSettled (json : JsonReader P) (env : ClientEnv P) (groupId : GroupId P)
    (group : GroupRecord P) (kind : GroupMailboxKind) (entry : MailboxEntry P)
    (db : ClientDb P) : Bool :=
  decide ((db.groupRecvOnce json env groupId group kind entry).1.effects groupId =
    (db.groupRecvOnce json env.calm groupId group kind entry).1.effects groupId)

/-- The loops as a machine. -/
def machine (json : JsonReader P) (account : Account) :
    Machine (InboxRun P) (InboxEvent P) where
  step state
    | .post key entry =>
        if ∃ item ∈ state.posted, item.1 = key ∧ item.2.receivedAt = entry.receivedAt then none
        else some { state with posted := state.posted ++ [(key, entry)] }
    | .directStart =>
        if state.after.isSome then none
        else
          some { state with
            db := state.db.ensureMailboxState account.key 0
            after := some (state.db.loadMailboxAfter account.key) }
    | .direct env entry =>
        match state.after with
        | none => none
        | some after =>
            if ¬IsNext state.posted account.key after entry then none
            else
              some { state with
                db := (state.db.processMailboxEntry json env account.key entry).1
                after := some entry.receivedAt
                owed := settle state.owed (account.key, entry)
                  (directSettled json account env entry state.db) }
    | .group env groupId kind entry =>
        match state.db.groups.lookup groupId with
        | none => none
        | some group =>
            if group.mailboxKey groupId kind = account.key then none
            else if ¬IsNext state.posted (group.mailboxKey groupId kind)
                (state.db.loadMailboxAfter (group.mailboxKey groupId kind)) entry then none
            else
              some { state with
                db := (state.db.groupRecvOnce json env groupId group kind entry).1
                owed := settle state.owed (group.mailboxKey groupId kind, entry)
                  (groupSettled json env groupId group kind entry state.db) }
    | .restart => some { state with after := none }
    | .other db =>
        if db.mailboxState = state.db.mailboxState then some { state with db := db } else none

/-- No stored cursor has passed an entry which is owed. -/
def Lossless (state : InboxRun P) : Prop :=
  ∀ item ∈ state.owed, state.db.loadMailboxAfter item.1 < item.2.receivedAt

/-- A group entry which is due is processed without a failure behind the cursor. -/
def GroupUndisturbed (json : JsonReader P) (env : ClientEnv P) (groupId : GroupId P)
    (group : GroupRecord P) (entry : MailboxEntry P) (db : ClientDb P) :
    GroupMailboxKind → Prop
  | .messages =>
      if entry.message.kind = Blob.v1GroupRekey then
        ∀ identity signed newKey, env.identity = some identity →
          ClientDb.rekeyWrite env identity groupId group entry.message = some (signed, newKey) →
            (newKey, group.groupKeyCurrent) ≠ group.keys → ClientDb.rekeyFails env group = false
      else
        ∀ convo sender content,
          ClientDb.groupWrite env groupId group entry = some (convo, sender, content) →
            db.knowsMessage convo env.now content = false →
              env.fails .directory = false ∧ ClientDb.storeFails env = false
  | .management =>
      ∀ sender manage, ClientDb.manageWrite json env groupId group entry = some (sender, manage) →
        group.loadedRoster.Alters sender manage → ClientDb.manageFails env group = false

/-- When an attempt stores the cursor: no operation fails between the cursor and a write
which is due, and the direct message loop has not run past an entry which is owed. -/
def Undisturbed (json : JsonReader P) (account : Account) (state : InboxRun P) :
    InboxEvent P → Prop
  | .direct env entry => ∀ identity, env.identity = some identity →
      env.fails .identity = false → env.fails .cursor = false →
        (∀ item ∈ state.owed, item.1 = account.key →
          item.2 = entry ∨ entry.receivedAt < item.2.receivedAt) ∧
        ∀ convo sender content,
          state.db.directWrite env identity entry = some (convo, sender, content) →
            state.db.knowsMessage convo env.now content = false →
              state.db.lookupFails env sender = false ∧ ClientDb.storeFails env = false
  | .group env groupId kind entry => ∀ group, state.db.groups.lookup groupId = some group →
      env.fails .prepare = false → env.fails .cursor = false →
        GroupUndisturbed json env groupId group entry state.db kind
  | _ => True

/-! ## Attempts and runs -/

/-- An attempt settles its own entry, or leaves it owed. -/
theorem mem_settle {owed : List (PostedEntry P)} {item other : PostedEntry P} {settled : Bool} :
    other ∈ settle owed item settled ↔
      other ∈ owed ∧ other ≠ item ∨ settled = false ∧ other = item := by
  rw [settle]
  cases settled with
  | true => simp
  | false =>
      simp only [Bool.false_eq_true, if_false, List.mem_cons, List.mem_filter, decide_eq_true_eq,
        true_and]
      exact Or.comm

/-- An attempt keeps every cursor behind what is owed unless it stores the cursor and
either leaves its own entry owed or passes another one. -/
theorem lossless_settle {owed : List (PostedEntry P)} {load stored : MailboxKey P → NanoTimestamp}
    {key : MailboxKey P} {entry : MailboxEntry P} (settled : Bool) {stores : Prop}
    (lossless : ∀ item ∈ owed, load item.1 < item.2.receivedAt)
    (above : load key < entry.receivedAt)
    (cursor : ∀ other, (stores → stored other = if other = key then entry.receivedAt else load other) ∧
      (¬stores → stored other = load other)) :
    (∀ item ∈ settle owed (key, entry) settled, stored item.1 < item.2.receivedAt) ↔
      (stores → (∀ item ∈ owed, item.1 = key → item.2 = entry ∨
        entry.receivedAt < item.2.receivedAt) ∧ settled = true) := by
  by_cases storing : stores
  · have moved : ∀ other, stored other = if other = key then entry.receivedAt else load other :=
      fun other => (cursor other).1 storing
    simp only [storing, true_implies, mem_settle, moved]
    constructor
    · intro kept
      constructor
      · rintro item listed rfl
        by_cases same : item.2 = entry
        · exact Or.inl same
        · have behind := kept item (Or.inl ⟨listed, fun equal => same (congrArg Prod.snd equal)⟩)
          rw [if_pos rfl] at behind
          exact Or.inr behind
      · cases settled with
        | true => rfl
        | false =>
            have self := kept (key, entry) (Or.inr ⟨rfl, rfl⟩)
            rw [if_pos rfl] at self
            exact absurd self (UInt64.lt_irrefl _)
    · rintro ⟨passed, rfl⟩ item (⟨listed, different⟩ | ⟨impossible, _⟩)
      · split
        · rename_i same
          rcases passed item listed same with equal | later
          · exact absurd (Prod.ext same equal) different
          · exact later
        · exact lossless item listed
      · simp at impossible
  · have kept : ∀ other, stored other = load other := fun other => (cursor other).2 storing
    simp only [storing, false_implies, iff_true, mem_settle, kept]
    rintro item (⟨listed, _⟩ | ⟨_, rfl⟩)
    · exact lossless item listed
    · exact above

/-- An attempt at a direct message, up to its cursor. -/
theorem processMailboxEntry_cases (json : JsonReader P) (env : ClientEnv P) (key : MailboxKey P)
    (entry : MailboxEntry P) (db : ClientDb P) :
    (¬(∃ identity, env.identity = some identity ∧ env.fails .identity = false ∧
        env.fails .cursor = false) ∧
      (db.processMailboxEntry json env key entry).1 = db) ∨
    ∃ identity, env.identity = some identity ∧ env.fails .identity = false ∧
      env.fails .cursor = false ∧
      (db.processMailboxEntry json env key entry).1 =
        ((db.updateMailboxAfter key entry.receivedAt).receiveDirect json env identity entry).1 := by
  simp only [ClientDb.processMailboxEntry]
  cases found : env.identity with
  | none =>
      refine Or.inl ⟨by simp, ?_⟩
      split <;> rfl
  | some identity =>
      by_cases first : env.fails .identity = true
      · exact Or.inl ⟨by simp [first], by rw [if_pos first]⟩
      · rw [Bool.not_eq_true] at first
        by_cases second : env.fails .cursor = true
        · exact Or.inl ⟨by simp [second], by simp [first, second]⟩
        · rw [Bool.not_eq_true] at second
          exact Or.inr ⟨identity, rfl, first, second, by simp [first, second]⟩

/-- A write which failures may keep from happening has happened, or is no change, or none failed. -/
theorem written_iff {α : Type} {before written : α} {idle : Prop} {fails : Bool}
    (same : written = before ↔ idle) :
    (if fails then before else written) = written ↔ (¬idle → fails = false) := by
  cases fails with
  | false => simp
  | true =>
      rw [if_pos rfl, eq_comm, same]
      simp

/-- A direct message which got as far as its cursor is settled unless its row is due and
an operation fails. -/
theorem directSettled_iff (json : JsonReader P) {account : Account} {env : ClientEnv P}
    {entry : MailboxEntry P} {db : ClientDb P} {identity : Identity P}
    (found : env.identity = some identity) (loads : env.fails .identity = false)
    (stores : env.fails .cursor = false) :
    directSettled json account env entry db = true ↔
      ∀ convo sender content, db.directWrite env identity entry = some (convo, sender, content) →
        db.knowsMessage convo env.now content = false →
          db.lookupFails env sender = false ∧ ClientDb.storeFails env = false := by
  have run : (db.processMailboxEntry json env account.key entry).1 =
      ((db.updateMailboxAfter account.key entry.receivedAt).receiveDirect json env identity
        entry).1 := by
    simp [ClientDb.processMailboxEntry, found, loads, stores]
  have calm : (db.processMailboxEntry json env.calm account.key entry).1 =
      ((db.updateMailboxAfter account.key entry.receivedAt).receiveDirect json env.calm identity
        entry).1 := by
    simp [ClientDb.processMailboxEntry, ClientEnv.calm, found]
  have runRows := (ClientDb.receiveDirect_spec json env identity entry
    (db.updateMailboxAfter account.key entry.receivedAt)).1
  have calmRows := (ClientDb.receiveDirect_spec json env.calm identity entry
    (db.updateMailboxAfter account.key entry.receivedAt)).1
  rw [directSettled, decide_eq_true_eq, run, calm, runRows, calmRows]
  have sameWrite : (db.updateMailboxAfter account.key entry.receivedAt).directWrite env.calm
      identity entry = db.directWrite env identity entry := rfl
  have sameRun : (db.updateMailboxAfter account.key entry.receivedAt).directWrite env
      identity entry = db.directWrite env identity entry := rfl
  rw [sameWrite, sameRun]
  cases db.directWrite env identity entry with
  | none => simp
  | some write =>
      obtain ⟨convo, sender, content⟩ := write
      have written : (db.updateMailboxAfter account.key entry.receivedAt).withMessage convo env.now
          sender content entry.receivedAt =
            db.withMessage convo env.now sender content entry.receivedAt := by
        apply ClientDb.withMessage_congr <;> rfl
      have quiet : ((db.updateMailboxAfter account.key entry.receivedAt).lookupFails env.calm sender ||
          ClientDb.storeFails env.calm) = false := by
        simp [ClientDb.lookupFails, ClientDb.storeFails, ClientEnv.calm]
      have sameNow : env.calm.now = env.now := rfl
      have sameRows : (db.updateMailboxAfter account.key entry.receivedAt).convoMessages =
          db.convoMessages := rfl
      have sameLookup : (db.updateMailboxAfter account.key entry.receivedAt).lookupFails env sender =
          db.lookupFails env sender := rfl
      simp only [quiet, sameNow, sameRows, sameLookup, written, Bool.false_eq_true, if_false]
      rw [written_iff (db.withMessage_eq_iff convo env.now sender content entry.receivedAt),
        Bool.not_eq_true, Bool.or_eq_false_iff]
      constructor
      · rintro due _ _ _ ⟨⟩ unknown
        exact due unknown
      · intro due unknown
        exact due convo sender content rfl unknown

/-- Processing a group entry does not touch the cursors. -/
theorem processGroupEntry_mailboxState (json : JsonReader P) (env : ClientEnv P)
    {groupId : GroupId P} {group : GroupRecord P} (kind : GroupMailboxKind)
    (entry : MailboxEntry P) {db : ClientDb P} (listed : db.groups.lookup groupId = some group) :
    (db.processGroupEntry json env groupId group kind entry).1.mailboxState = db.mailboxState := by
  cases kind with
  | messages =>
      by_cases rekey : entry.message.kind = Blob.v1GroupRekey
      · simp only [ClientDb.processGroupEntry, ClientDb.processGroupMessageEntry, if_pos rekey]
        exact (ClientDb.processGroupRekeyEntry_spec env entry.message listed).mailboxState
      · exact (ClientDb.processGroupMessageEntry_spec json env groupId group db rekey).2.mailboxState
  | management =>
      exact (ClientDb.processGroupManagementEntry_spec json env entry listed).mailboxState

/-- The keys are those of a run without failures, unless they are due to change and one occurs. -/
theorem rekeyed_calm_iff (env : ClientEnv P) (groupId : GroupId P) (group : GroupRecord P)
    (message : Blob) :
    ClientDb.rekeyed env groupId group message = ClientDb.rekeyed env.calm groupId group message ↔
      ∀ identity signed newKey, env.identity = some identity →
        ClientDb.rekeyWrite env identity groupId group message = some (signed, newKey) →
          (newKey, group.groupKeyCurrent) ≠ group.keys → ClientDb.rekeyFails env group = false := by
  have quiet : ClientDb.rekeyFails env.calm group = false := by
    simp [ClientDb.rekeyFails, ClientDb.rosterFails, ClientEnv.calm]
  have sameIdentity : env.calm.identity = env.identity := rfl
  have sameWrite : ClientDb.rekeyWrite env.calm = ClientDb.rekeyWrite env := rfl
  simp only [ClientDb.rekeyed, sameIdentity, sameWrite, quiet, Bool.false_eq_true, if_false]
  cases env.identity with
  | none => simp
  | some identity =>
      simp only [Option.bind_some]
      cases write : ClientDb.rekeyWrite env identity groupId group message with
      | none =>
          refine iff_of_true rfl ?_
          rintro _ _ _ ⟨⟩ read
          simp [write] at read
      | some taken =>
          obtain ⟨signed, newKey⟩ := taken
          dsimp only
          rw [written_iff Iff.rfl]
          constructor
          · rintro due _ _ _ ⟨⟩ read changes
            cases write.symm.trans read
            exact due changes
          · intro due changes
            exact due identity signed newKey rfl write changes

/-- The rows are those of a run without failures, unless a row is due and a failure occurs. -/
theorem groupWrite_calm_iff (env : ClientEnv P) (groupId : GroupId P) (group : GroupRecord P)
    (entry : MailboxEntry P) (db stored : ClientDb P) (convos : stored.convos = db.convos)
    (rows : stored.convoMessages = db.convoMessages) :
    (match ClientDb.groupWrite env groupId group entry with
      | none => stored.convoMessages
      | some (convo, sender, content) =>
          if env.fails .directory || ClientDb.storeFails env then stored.convoMessages
          else stored.withMessage convo env.now sender content entry.receivedAt) =
      (match ClientDb.groupWrite env.calm groupId group entry with
      | none => stored.convoMessages
      | some (convo, sender, content) =>
          if env.calm.fails .directory || ClientDb.storeFails env.calm then stored.convoMessages
          else stored.withMessage convo env.calm.now sender content entry.receivedAt) ↔
      ∀ convo sender content,
        ClientDb.groupWrite env groupId group entry = some (convo, sender, content) →
          db.knowsMessage convo env.now content = false →
            env.fails .directory = false ∧ ClientDb.storeFails env = false := by
  have quiet : (env.calm.fails .directory || ClientDb.storeFails env.calm) = false := by
    simp [ClientDb.storeFails, ClientEnv.calm]
  have sameWrite : ClientDb.groupWrite env.calm groupId group entry =
      ClientDb.groupWrite env groupId group entry := rfl
  have sameNow : env.calm.now = env.now := rfl
  rw [sameWrite]
  cases ClientDb.groupWrite env groupId group entry with
  | none => simp
  | some write =>
      obtain ⟨convo, sender, content⟩ := write
      simp only [quiet, sameNow, ClientDb.withMessage_congr convos rows, rows, Bool.false_eq_true,
        if_false]
      rw [written_iff (db.withMessage_eq_iff convo env.now sender content entry.receivedAt),
        Bool.not_eq_true, Bool.or_eq_false_iff]
      constructor
      · rintro due _ _ _ ⟨⟩ unknown
        exact due unknown
      · intro due unknown
        exact due convo sender content rfl unknown

/-- The roster is that of a run without failures, unless it is due to change and one occurs. -/
theorem managed_calm_iff (json : JsonReader P) (env : ClientEnv P) (groupId : GroupId P)
    (group : GroupRecord P) (entry : MailboxEntry P) :
    (if ClientDb.manageFails env group then group.loadedRoster
      else ClientDb.managed group.loadedRoster
        (ClientDb.manageWrite json env groupId group entry)) =
      (if ClientDb.manageFails env.calm group then group.loadedRoster
      else ClientDb.managed group.loadedRoster
        (ClientDb.manageWrite json env.calm groupId group entry)) ↔
      ∀ sender manage, ClientDb.manageWrite json env groupId group entry = some (sender, manage) →
        group.loadedRoster.Alters sender manage → ClientDb.manageFails env group = false := by
  have quiet : ClientDb.manageFails env.calm group = false := by
    simp [ClientDb.manageFails, ClientDb.rosterFails, ClientEnv.calm]
  have sameWrite : ClientDb.manageWrite json env.calm = ClientDb.manageWrite json env := rfl
  simp only [sameWrite, quiet, Bool.false_eq_true, if_false]
  cases write : ClientDb.manageWrite json env groupId group entry with
  | none => simp [ClientDb.managed]
  | some asked =>
      obtain ⟨sender, manage⟩ := asked
      simp only [ClientDb.managed]
      rw [written_iff GroupRoster.applyManageMessage_eq_iff, not_not]
      constructor
      · rintro due _ _ ⟨⟩ alters
        exact due alters
      · intro due alters
        exact due sender manage rfl alters

/-- A group attempt which stores its cursor settles its entry exactly when it is undisturbed. -/
theorem groupSettled_iff (json : JsonReader P) {env : ClientEnv P} {groupId : GroupId P}
    {group : GroupRecord P} (kind : GroupMailboxKind) (entry : MailboxEntry P) {db : ClientDb P}
    (listed : db.groups.lookup groupId = some group)
    (prepares : env.fails .prepare = false) (stores : env.fails .cursor = false) :
    groupSettled json env groupId group kind entry db = true ↔
      GroupUndisturbed json env groupId group entry db kind := by
  have stored : (ClientDb.cursorStored groupId group kind entry.receivedAt db).groups.lookup groupId =
      some group := listed
  rw [groupSettled, decide_eq_true_eq, ClientDb.groupRecvOnce_stored json groupId group kind entry db
    prepares stores, ClientDb.groupRecvOnce_stored json groupId group kind entry db rfl rfl]
  cases kind with
  | messages =>
      by_cases rekey : entry.message.kind = Blob.v1GroupRekey
      · have run := ClientDb.processGroupRekeyEntry_spec env entry.message stored
        have calm := ClientDb.processGroupRekeyEntry_spec env.calm entry.message stored
        simp only [ClientDb.processGroupEntry, ClientDb.processGroupMessageEntry, if_pos rekey,
          GroupUndisturbed, ClientDb.effects, run.convoMessages, calm.convoMessages,
          run.groupEffects, calm.groupEffects, Prod.mk.injEq, true_and, Option.some.injEq, and_true]
        exact rekeyed_calm_iff env groupId group entry.message
      · have run := ClientDb.processGroupMessageEntry_spec json env groupId group
          (ClientDb.cursorStored groupId group .messages entry.receivedAt db) rekey
        have calm := ClientDb.processGroupMessageEntry_spec json env.calm groupId group
          (ClientDb.cursorStored groupId group .messages entry.receivedAt db) rekey
        simp only [ClientDb.processGroupEntry, GroupUndisturbed, if_neg rekey, ClientDb.effects,
          ClientDb.groupEffects, run.1, calm.1, run.2.groups, calm.2.groups, Prod.mk.injEq, and_true]
        exact groupWrite_calm_iff env groupId group entry db
          (ClientDb.cursorStored groupId group .messages entry.receivedAt db) rfl rfl
  | management =>
      have run := ClientDb.processGroupManagementEntry_spec json env entry stored
      have calm := ClientDb.processGroupManagementEntry_spec json env.calm entry stored
      simp only [ClientDb.processGroupEntry, GroupUndisturbed, ClientDb.effects,
        run.convoMessages, calm.convoMessages, run.groupEffects, calm.groupEffects,
        Prod.mk.injEq, true_and, Option.some.injEq]
      exact managed_calm_iff json env groupId group entry

theorem loadMailboxAfter_congr {db other : ClientDb P}
    (same : other.mailboxState = db.mailboxState) (key : MailboxKey P) :
    other.loadMailboxAfter key = db.loadMailboxAfter key := by
  rw [ClientDb.loadMailboxAfter, same, ClientDb.loadMailboxAfter]

/-- The tables of an attempt at a direct message: as they were, or with the cursor at the entry. -/
theorem processMailboxEntry_mailboxState (json : JsonReader P) (env : ClientEnv P)
    (key : MailboxKey P) (entry : MailboxEntry P) (db : ClientDb P) :
    ((∃ identity, env.identity = some identity ∧ env.fails .identity = false ∧
        env.fails .cursor = false) → (db.processMailboxEntry json env key entry).1.mailboxState =
          (db.updateMailboxAfter key entry.receivedAt).mailboxState) ∧
      (¬(∃ identity, env.identity = some identity ∧ env.fails .identity = false ∧
        env.fails .cursor = false) →
          (db.processMailboxEntry json env key entry).1.mailboxState = db.mailboxState) := by
  rcases processMailboxEntry_cases json env key entry db with
    ⟨stopped, kept⟩ | ⟨identity, found, loads, stores, run⟩
  · exact ⟨fun reached => absurd reached stopped, fun _ => by rw [kept]⟩
  · refine ⟨fun _ => ?_, fun stopped => absurd ⟨identity, found, loads, stores⟩ stopped⟩
    rw [run]
    exact (ClientDb.receiveDirect_spec json env identity entry
      (db.updateMailboxAfter key entry.receivedAt)).2.mailboxState

/-- A group has a stored cursor for each of its mailboxes. -/
theorem mem_cursorStored (groupId : GroupId P) (group : GroupRecord P) (kind : GroupMailboxKind)
    (db : ClientDb P) : group.mailboxKey groupId kind ∈
      ((db.ensureMailboxState (group.mailboxKey groupId .messages) 0).ensureMailboxState
        (group.mailboxKey groupId .management) 0).mailboxState := by
  cases kind with
  | messages =>
      exact ClientDb.mem_mailboxState_ensure (ClientDb.mem_ensureMailboxState db _ 0) _ 0
  | management => exact ClientDb.mem_ensureMailboxState _ _ 0

/-- A round of a group's loop moves its own cursor to the entry, or no cursor. -/
theorem groupRecvOnce_cursor (json : JsonReader P) (env : ClientEnv P) {groupId : GroupId P}
    {group : GroupRecord P} (kind : GroupMailboxKind) (entry : MailboxEntry P) {db : ClientDb P}
    (listed : db.groups.lookup groupId = some group) (other : MailboxKey P) :
    (env.fails .prepare = false ∧ env.fails .cursor = false →
      (db.groupRecvOnce json env groupId group kind entry).1.loadMailboxAfter other =
        if other = group.mailboxKey groupId kind then entry.receivedAt
        else db.loadMailboxAfter other) ∧
      (¬(env.fails .prepare = false ∧ env.fails .cursor = false) →
        (db.groupRecvOnce json env groupId group kind entry).1.loadMailboxAfter other =
          db.loadMailboxAfter other) := by
  constructor
  · rintro ⟨prepares, stores⟩
    have stored : (ClientDb.cursorStored groupId group kind entry.receivedAt db).groups.lookup groupId =
        some group := listed
    rw [ClientDb.groupRecvOnce_stored json groupId group kind entry db prepares stores,
      loadMailboxAfter_congr (processGroupEntry_mailboxState json env kind entry stored),
      ClientDb.cursorStored, ClientDb.loadMailboxAfter_update (mem_cursorStored groupId group kind db),
      ClientDb.loadMailboxAfter_ensure, ClientDb.loadMailboxAfter_ensure]
  · intro stopped
    by_cases prepares : env.fails .prepare = true
    · simp only [ClientDb.groupRecvOnce, prepares, if_true]
    · by_cases stores : env.fails .cursor = true
      · simp only [ClientDb.groupRecvOnce, prepares, stores, Bool.false_eq_true, if_false, if_true]
        rw [ClientDb.loadMailboxAfter_ensure, ClientDb.loadMailboxAfter_ensure]
      · simp only [Bool.not_eq_true] at prepares stores
        exact absurd ⟨prepares, stores⟩ stopped

/-- A group attempt loses no cursor. -/
theorem groupRecvOnce_present (json : JsonReader P) (env : ClientEnv P) {groupId : GroupId P}
    {group : GroupRecord P} (kind : GroupMailboxKind) (entry : MailboxEntry P) {db : ClientDb P}
    (listed : db.groups.lookup groupId = some group) {key : MailboxKey P}
    (present : key ∈ db.mailboxState) :
    key ∈ (db.groupRecvOnce json env groupId group kind entry).1.mailboxState := by
  have ready := ClientDb.mem_mailboxState_ensure (ClientDb.mem_mailboxState_ensure present
    (group.mailboxKey groupId .messages) 0) (group.mailboxKey groupId .management) 0
  by_cases prepares : env.fails .prepare = true
  · simpa only [ClientDb.groupRecvOnce, prepares, if_true] using present
  · by_cases stores : env.fails .cursor = true
    · simpa only [ClientDb.groupRecvOnce, prepares, stores, Bool.false_eq_true, if_false,
        if_true] using ready
    · simp only [Bool.not_eq_true] at prepares stores
      have stored : (ClientDb.cursorStored groupId group kind entry.receivedAt db).groups.lookup groupId =
          some group := listed
      rw [ClientDb.groupRecvOnce_stored json groupId group kind entry db prepares stores,
        processGroupEntry_mailboxState json env kind entry stored]
      exact ClientDb.mem_mailboxState_update ready _ _

section Steps

variable {json : JsonReader P} {account : Account} {state next : InboxRun P}

/-- An entry is posted with a time of its own in its mailbox. -/
theorem step_post {key : MailboxKey P} {entry : MailboxEntry P}
    (taken : (machine json account).step state (.post key entry) = some next) :
    (¬∃ item ∈ state.posted, item.1 = key ∧ item.2.receivedAt = entry.receivedAt) ∧
      next = { state with posted := state.posted ++ [(key, entry)] } := by
  simp only [machine] at taken
  split at taken
  · cases taken
  · rename_i fresh
    exact ⟨fresh, (Option.some.inj taken).symm⟩

/-- The direct loop begins with its stored cursor. -/
theorem step_directStart (taken : (machine json account).step state .directStart = some next) :
    next = { state with
      db := state.db.ensureMailboxState account.key 0
      after := some (state.db.loadMailboxAfter account.key) } := by
  simp only [machine] at taken
  split at taken
  · cases taken
  · exact (Option.some.inj taken).symm

/-- A direct attempt takes the next entry behind its cursor. -/
theorem step_direct {env : ClientEnv P} {entry : MailboxEntry P}
    (taken : (machine json account).step state (.direct env entry) = some next) :
    ∃ after, state.after = some after ∧ IsNext state.posted account.key after entry ∧
      next = { state with
        db := (state.db.processMailboxEntry json env account.key entry).1
        after := some entry.receivedAt
        owed := settle state.owed (account.key, entry)
          (directSettled json account env entry state.db) } := by
  simp only [machine] at taken
  split at taken
  · cases taken
  · rename_i after running
    split at taken
    · cases taken
    · rename_i isNext
      exact ⟨after, running, not_not.mp isNext, (Option.some.inj taken).symm⟩

/-- A group attempt takes the next entry behind its stored cursor. -/
theorem step_group {env : ClientEnv P} {groupId : GroupId P} {kind : GroupMailboxKind}
    {entry : MailboxEntry P}
    (taken : (machine json account).step state (.group env groupId kind entry) = some next) :
    ∃ group, state.db.groups.lookup groupId = some group ∧
      group.mailboxKey groupId kind ≠ account.key ∧
      IsNext state.posted (group.mailboxKey groupId kind)
        (state.db.loadMailboxAfter (group.mailboxKey groupId kind)) entry ∧
      next = { state with
        db := (state.db.groupRecvOnce json env groupId group kind entry).1
        owed := settle state.owed (group.mailboxKey groupId kind, entry)
          (groupSettled json env groupId group kind entry state.db) } := by
  simp only [machine] at taken
  split at taken
  · cases taken
  · rename_i group listed
    split at taken
    · cases taken
    · rename_i foreign
      split at taken
      · cases taken
      · rename_i isNext
        exact ⟨group, listed, foreign, not_not.mp isNext, (Option.some.inj taken).symm⟩

/-- Other changes leave the cursors. -/
theorem step_other {db : ClientDb P}
    (taken : (machine json account).step state (.other db) = some next) :
    db.mailboxState = state.db.mailboxState ∧ next = { state with db := db } := by
  simp only [machine] at taken
  split at taken
  · rename_i same
    exact ⟨same, (Option.some.inj taken).symm⟩
  · cases taken

end Steps

/-- What every run keeps: what is owed is in its mailbox, where entries are told apart by
their times, and the direct message loop is not behind its stored cursor. -/
structure Tracked (account : Account) (state : InboxRun P) : Prop where
  unique : ∀ first ∈ state.posted, ∀ second ∈ state.posted, first.1 = second.1 →
    first.2.receivedAt = second.2.receivedAt → first = second
  owed : ∀ item ∈ state.owed, item ∈ state.posted
  present : ∀ after, state.after = some after → account.key ∈ state.db.mailboxState
  caughtUp : ∀ after, state.after = some after →
    state.db.loadMailboxAfter account.key ≤ after

theorem tracked_start (account : Account) (db : ClientDb P) : (start db).Tracked account where
  unique _ listed := by simp [start] at listed
  owed _ listed := by simp [start] at listed
  present _ running := by simp [start] at running
  caughtUp _ running := by simp [start] at running

/-- What is owed was posted. -/
theorem settle_posted {posted owed : List (PostedEntry P)} {item : PostedEntry P} {settled : Bool}
    (listed : item ∈ posted) (before : ∀ other ∈ owed, other ∈ posted) :
    ∀ other ∈ settle owed item settled, other ∈ posted := by
  intro other member
  rcases mem_settle.mp member with ⟨earlier, _⟩ | ⟨_, rfl⟩
  · exact before other earlier
  · exact listed

/-- Every step keeps the record of what is owed. -/
theorem Tracked.step {json : JsonReader P} {account : Account} {state next : InboxRun P}
    {event : InboxEvent P} (tracked : state.Tracked account)
    (taken : (machine json account).step state event = some next) : next.Tracked account := by
  cases event with
  | post key entry =>
      obtain ⟨fresh, rfl⟩ := step_post taken
      refine ⟨?_, ?_, tracked.present, tracked.caughtUp⟩
      · intro first firstListed second secondListed keys times
        rcases List.mem_append.mp firstListed with firstEarlier | firstNew <;>
          rcases List.mem_append.mp secondListed with secondEarlier | secondNew
        · exact tracked.unique first firstEarlier second secondEarlier keys times
        · obtain rfl := List.mem_singleton.mp secondNew
          exact absurd ⟨first, firstEarlier, keys, times⟩ fresh
        · obtain rfl := List.mem_singleton.mp firstNew
          exact absurd ⟨second, secondEarlier, keys.symm, times.symm⟩ fresh
        · rw [List.mem_singleton.mp firstNew, List.mem_singleton.mp secondNew]
      · intro item listed
        exact List.mem_append_left _ (tracked.owed item listed)
  | directStart =>
      obtain rfl := step_directStart taken
      refine ⟨tracked.unique, tracked.owed, fun _ _ => ClientDb.mem_ensureMailboxState _ _ 0, ?_⟩
      rintro after ⟨⟩
      exact UInt64.le_of_eq (ClientDb.loadMailboxAfter_ensure _ _ _)
  | direct env entry =>
      obtain ⟨after, running, isNext, rfl⟩ := step_direct taken
      obtain ⟨stored, stopped⟩ := processMailboxEntry_mailboxState json env account.key entry
        state.db
      have present := tracked.present after running
      refine ⟨tracked.unique, settle_posted isNext.1 tracked.owed, ?_, ?_⟩
      · intro _ _
        by_cases reached : ∃ identity, env.identity = some identity ∧
            env.fails .identity = false ∧ env.fails .cursor = false
        · rw [stored reached]
          exact ClientDb.mem_mailboxState_update present _ _
        · rw [stopped reached]
          exact present
      · rintro _ ⟨⟩
        by_cases reached : ∃ identity, env.identity = some identity ∧
            env.fails .identity = false ∧ env.fails .cursor = false
        · rw [loadMailboxAfter_congr (stored reached),
            ClientDb.loadMailboxAfter_update present, if_pos rfl]
          exact UInt64.le_refl _
        · rw [loadMailboxAfter_congr (stopped reached)]
          exact UInt64.le_of_lt (UInt64.lt_of_le_of_lt (tracked.caughtUp after running)
            isNext.2.1)
  | group env groupId kind entry =>
      obtain ⟨group, listed, foreign, isNext, rfl⟩ := step_group taken
      refine ⟨tracked.unique, settle_posted isNext.1 tracked.owed, ?_, ?_⟩
      · intro after running
        exact groupRecvOnce_present json env kind entry listed (tracked.present after running)
      · intro after running
        obtain ⟨stored, stopped⟩ := groupRecvOnce_cursor json env kind entry listed account.key
        have caughtUp := tracked.caughtUp after running
        by_cases reached : env.fails .prepare = false ∧ env.fails .cursor = false
        · rw [stored reached, if_neg (Ne.symm foreign)]
          exact caughtUp
        · rw [stopped reached]
          exact caughtUp
  | restart =>
      cases taken
      exact ⟨tracked.unique, tracked.owed, by simp, by simp⟩
  | other db =>
      obtain ⟨same, rfl⟩ := step_other taken
      refine ⟨tracked.unique, tracked.owed, ?_, ?_⟩
      · intro after running
        rw [same]
        exact tracked.present after running
      · intro after running
        rw [loadMailboxAfter_congr same]
        exact tracked.caughtUp after running

/-- A step keeps the cursors behind what is owed exactly when it is not disturbed. -/
theorem Tracked.lossless_step {json : JsonReader P} {account : Account} {state next : InboxRun P}
    {event : InboxEvent P} (tracked : state.Tracked account) (lossless : state.Lossless)
    (taken : (machine json account).step state event = some next) :
    next.Lossless ↔ Undisturbed json account state event := by
  cases event with
  | post key entry =>
      obtain ⟨_, rfl⟩ := step_post taken
      exact iff_of_true lossless trivial
  | directStart =>
      obtain rfl := step_directStart taken
      refine iff_of_true (fun item listed => ?_) trivial
      rw [ClientDb.loadMailboxAfter_ensure]
      exact lossless item listed
  | direct env entry =>
      obtain ⟨after, running, isNext, rfl⟩ := step_direct taken
      have present := tracked.present after running
      have above : state.db.loadMailboxAfter account.key < entry.receivedAt :=
        UInt64.lt_of_le_of_lt (tracked.caughtUp after running) isNext.2.1
      obtain ⟨stored, stopped⟩ := processMailboxEntry_mailboxState json env account.key entry
        state.db
      have kept := lossless_settle (directSettled json account env entry state.db)
        lossless above fun other =>
          ⟨fun reached => (loadMailboxAfter_congr (stored reached) other).trans
            (ClientDb.loadMailboxAfter_update present other _),
          fun halted => loadMailboxAfter_congr (stopped halted) other⟩
      refine kept.trans ⟨?_, ?_⟩
      · intro allowed identity found loads stores
        obtain ⟨passed, settled⟩ := allowed ⟨identity, found, loads, stores⟩
        exact ⟨passed, (directSettled_iff json found loads stores).mp settled⟩
      · rintro undisturbed ⟨identity, found, loads, stores⟩
        obtain ⟨passed, due⟩ := undisturbed identity found loads stores
        exact ⟨passed, (directSettled_iff json found loads stores).mpr due⟩
  | group env groupId kind entry =>
      obtain ⟨group, listed, _, isNext, rfl⟩ := step_group taken
      have kept := lossless_settle (groupSettled json env groupId group kind entry state.db)
        lossless isNext.2.1 (groupRecvOnce_cursor json env kind entry listed)
      -- the server hands out the earliest entry, so a stored cursor skips none which is owed
      have passed : ∀ item ∈ state.owed, item.1 = group.mailboxKey groupId kind →
          item.2 = entry ∨ entry.receivedAt < item.2.receivedAt := by
        rintro item owed same
        have posted := tracked.owed item owed
        have waiting := lossless item owed
        rw [same] at waiting
        have notEarlier := isNext.2.2 item posted same waiting
        by_cases times : entry.receivedAt = item.2.receivedAt
        · exact Or.inl (congrArg Prod.snd (tracked.unique item posted _ isNext.1 same times.symm))
        · exact Or.inr (UInt64.lt_of_le_of_ne notEarlier times)
      refine kept.trans ⟨?_, ?_⟩
      · intro allowed found sameGroup prepares stores
        obtain rfl := Option.some.inj (listed.symm.trans sameGroup)
        exact (groupSettled_iff json kind entry listed prepares stores).mp
          (allowed ⟨prepares, stores⟩).2
      · rintro undisturbed ⟨prepares, stores⟩
        exact ⟨passed, (groupSettled_iff json kind entry listed prepares stores).mpr
          (undisturbed group listed prepares stores)⟩
  | restart =>
      cases taken
      exact iff_of_true lossless trivial
  | other db =>
      obtain ⟨same, rfl⟩ := step_other taken
      refine iff_of_true (fun item listed => ?_) trivial
      rw [loadMailboxAfter_congr same]
      exact lossless item listed

/-- No stored cursor ever passes an entry which is owed exactly in the runs whose attempts
are all undisturbed. -/
theorem lossless_iff (json : JsonReader P) (account : Account) (db : ClientDb P)
    (events : List (InboxEvent P)) :
    (machine json account).Always Lossless (start db) events ↔
      (machine json account).Along (Undisturbed json account) (start db) events :=
  Machine.always_iff_along_within (Tracked account) (fun holds taken => holds.step taken)
    (fun tracked lossless taken => tracked.lossless_step lossless taken)
    (tracked_start account db) fun _ listed => by simp [start] at listed

def bobbyAccount : Account := ⟨symbolicServer, bobby⟩

def letter : MailboxEntry symbolic :=
  ⟨sealedFor [bobbyMedium] Blob.v1DirectMessage
    (signedEvent alice (rootChain 1 100) 1 ⟨.user bobby, 4, "text/plain", utf8 "hi"⟩), 5, none⟩

/-- The directory does not answer. -/
def unansweredEnv : ClientEnv symbolic :=
  ⟨some bobbyIdentity, 6, 6, symbolicDirectory, fun point => decide (point = .directory)⟩

/-- Alice writes to Bobby. Bobby's client stores the cursor, and then the directory does not
answer. -/
def lostLetterRun : List (InboxEvent symbolic) :=
  [.post bobbyAccount.key letter, .directStart, .direct unansweredEnv letter]

/-- In the run the letter is lost. -/
theorem lostLetterRun_breaks :
    ¬(machine symbolicJson bobbyAccount).Always Lossless (start .empty) lostLetterRun := by
  intro always
  have ends : ((machine symbolicJson bobbyAccount).exec (start .empty) lostLetterRun).map
      (fun state => (state.owed, state.db.loadMailboxAfter bobbyAccount.key)) =
      some ([(bobbyAccount.key, letter)], 5) := by decide +kernel
  obtain ⟨state, reached, held⟩ := Option.map_eq_some_iff.mp ends
  simp only [Prod.mk.injEq] at held
  obtain ⟨owed, cursor⟩ := held
  have ahead := always.last reached (bobbyAccount.key, letter) (by simp [owed])
  rw [cursor] at ahead
  exact absurd ahead (by decide)

end InboxRun
end Nullspace
