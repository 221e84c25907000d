import Mathlib.Data.List.MinMax
import Nullspace.Client.Roster

/-!
# The client's database

The tables which the receive loops read and write, and what else an entry meets while it
is processed: clock readings, the directory's answers, and a failure at any of the
operations which can fail.
-/

namespace Nullspace

open Nullspace.Base

variable (P : Primitives)

/-- The row of `client_identity`. -/
structure Identity where
  username : UserName
  serverName : Option ServerName
  deviceSecret : P.SigningSecret
  certChain : CertificateChain P
  mediumSkCurrent : P.DhSecret
  mediumSkPrev : P.DhSecret

/-- A conversation, by its type and counterparty. -/
inductive ConvoId where
  | direct (peer : UserName)
  | group (group : GroupId P)
deriving DecidableEq

/-- A row of `convos`, under its type and counterparty. -/
structure ConvoRow where
  id : Nat
  createdAt : NanoTimestamp
deriving DecidableEq

/-- A row of `convo_messages`. -/
structure ConvoMessage where
  id : Nat
  convoId : Nat
  senderUsername : UserName
  mime : String
  body : Bytes
  sentAt : NanoTimestamp
  sendError : Option String
  receivedAt : Option NanoTimestamp
deriving DecidableEq

/-- A row of `groups`, with the rows of `group_members` which refer to it. -/
structure GroupRecord where
  descriptor : GroupDescriptor P
  serverName : ServerName
  token : AuthToken
  groupKeyCurrent : AeadKey
  groupKeyPrev : AeadKey
  roster : GroupRoster
deriving DecidableEq

/-- A mailbox at a server. -/
abbrev MailboxKey := ServerName × MailboxId P

structure ClientDb where
  convos : Table (ConvoId P) ConvoRow
  /-- In the order of insertion. -/
  convoMessages : List ConvoMessage
  groups : Table (GroupId P) (GroupRecord P)
  mailboxState : Table (MailboxKey P) NanoTimestamp
  attachmentRoots : Table P.Hash (Attachment P × UserName)
  userDescriptorCache : Table UserName (UserDescriptor P × Int)

/-- The operations at which processing an entry can fail from outside. -/
inductive FaultPoint where
  | identity
  /-- What a group's loop does before it has an entry. -/
  | prepare
  | cursor
  | cachedDescriptor
  | directory
  | storeDescriptor
  | connection
  | attachment
  | convo
  | message
  | rosterVersion
  | rosterAdmin
  | rosterMark
  | member
  | groupKey
  | manage
  | commit
deriving DecidableEq

/-- What processing one entry meets. `Identity::load` reads a row which the receive loops
do not write, so what it finds is given here too. -/
structure ClientEnv where
  identity : Option (Identity P)
  now : NanoTimestamp
  /-- The clock in seconds. -/
  clock : Timestamp
  /-- The descriptor which the directory has for a username. -/
  descriptor : UserName → Option (UserDescriptor P)
  fails : FaultPoint → Bool

/-- An error which ends the processing of an entry; it is logged and dropped. -/
inductive EntryError where
  | database
  | directory
  | decode
  | said (text : String)
deriving DecidableEq

variable {P}

/-- The same surroundings without failures. -/
def ClientEnv.calm (env : ClientEnv P) : ClientEnv P := { env with fails := fun _ => false }

/-- The identifier which SQLite gives a new row. -/
def nextRowId (ids : List Nat) : Nat := ids.foldr max 0 + 1

/-- The next identifier is above those in use. -/
theorem lt_nextRowId {ids : List Nat} {id : Nat} (listed : id ∈ ids) : id < nextRowId ids :=
  Nat.lt_succ_of_le (List.le_max_of_le' 0 listed (Nat.le_refl id))

/-- The next identifier is not in use. -/
theorem nextRowId_notMem (ids : List Nat) : nextRowId ids ∉ ids :=
  fun listed => Nat.lt_irrefl _ (lt_nextRowId listed)

/-- The next identifier keeps identifiers distinct. -/
theorem nodup_append_nextRowId {ids : List Nat} (distinct : ids.Nodup) :
    (ids ++ [nextRowId ids]).Nodup :=
  distinct.append (List.nodup_singleton _) (List.disjoint_singleton.mpr (nextRowId_notMem ids))

namespace ClientDb

def empty : ClientDb P := ⟨∅, [], ∅, ∅, ∅, ∅⟩

/-- `ensure_mailbox_state`: `INSERT OR IGNORE`. -/
def ensureMailboxState (db : ClientDb P) (key : MailboxKey P) (initialAfter : NanoTimestamp) :
    ClientDb P :=
  { db with
    mailboxState :=
      if key ∈ db.mailboxState then db.mailboxState else db.mailboxState.insert key initialAfter }

/-- `load_mailbox_after`. -/
def loadMailboxAfter (db : ClientDb P) (key : MailboxKey P) : NanoTimestamp :=
  (db.mailboxState.lookup key).getD 0

/-- `update_mailbox_after`: an `UPDATE`, which does nothing without a row. -/
def updateMailboxAfter (db : ClientDb P) (key : MailboxKey P) (after : NanoTimestamp) :
    ClientDb P :=
  { db with
    mailboxState :=
      if key ∈ db.mailboxState then db.mailboxState.insert key after else db.mailboxState }

theorem loadMailboxAfter_ensure (db : ClientDb P) (key other : MailboxKey P) :
    (db.ensureMailboxState key 0).loadMailboxAfter other = db.loadMailboxAfter other := by
  simp only [ensureMailboxState, loadMailboxAfter]
  split
  · rfl
  · rename_i missing
    rw [Table.lookup_insert_eq]
    split
    · rename_i same
      have absent := AList.lookup_eq_none.mpr missing
      rw [same, absent]
      rfl
    · rfl

theorem loadMailboxAfter_update {db : ClientDb P} {key : MailboxKey P}
    (present : key ∈ db.mailboxState) (other : MailboxKey P) (after : NanoTimestamp) :
    (db.updateMailboxAfter key after).loadMailboxAfter other =
      if other = key then after else db.loadMailboxAfter other := by
  simp only [updateMailboxAfter, loadMailboxAfter, if_pos present, Table.lookup_insert_eq]
  split <;> rfl

/-- A cursor which is made is there. -/
theorem mem_ensureMailboxState (db : ClientDb P) (key : MailboxKey P) (initialAfter : NanoTimestamp) :
    key ∈ (db.ensureMailboxState key initialAfter).mailboxState := by
  simp only [ensureMailboxState]
  split
  · assumption
  · exact (AList.mem_insert _).mpr (Or.inl rfl)

/-- A mailbox with a row keeps one. -/
theorem mem_mailboxState_ensure {db : ClientDb P} {key : MailboxKey P}
    (present : key ∈ db.mailboxState) (other : MailboxKey P) (initialAfter : NanoTimestamp) :
    key ∈ (db.ensureMailboxState other initialAfter).mailboxState := by
  simp only [ensureMailboxState]
  split
  · exact present
  · exact (AList.mem_insert _).mpr (Or.inr present)

/-- A cursor which is stored leaves the others. -/
theorem mem_mailboxState_update {db : ClientDb P} {key : MailboxKey P}
    (present : key ∈ db.mailboxState) (other : MailboxKey P) (after : NanoTimestamp) :
    key ∈ (db.updateMailboxAfter other after).mailboxState := by
  simp only [updateMailboxAfter]
  split
  · exact (AList.mem_insert _).mpr (Or.inr present)
  · exact present

/-- `ensure_convo_id`: the identifier of a conversation, which is made when it is new. -/
def ensureConvoId (db : ClientDb P) (convo : ConvoId P) (createdAt : NanoTimestamp) :
    ClientDb P × Nat :=
  match db.convos.lookup convo with
  | some row => (db, row.id)
  | none =>
      let id := nextRowId (db.convos.rows.map fun row => row.2.id)
      ({ db with convos := db.convos.insert convo ⟨id, createdAt⟩ }, id)

/-- A row with the same conversation and `sent_at`, of which the table holds one at most. -/
def hasMessage (db : ClientDb P) (convoId : Nat) (sentAt : NanoTimestamp) : Bool :=
  db.convoMessages.any fun row => decide (row.convoId = convoId ∧ row.sentAt = sentAt)

/-- `INSERT OR IGNORE INTO convo_messages` of a received event. -/
def insertMessage (db : ClientDb P) (convoId : Nat) (sender : UserName) (event : Event P)
    (receivedAt : NanoTimestamp) : ClientDb P :=
  if db.hasMessage convoId event.sentAt then db
  else
    { db with
      convoMessages := db.convoMessages ++
        [⟨nextRowId (db.convoMessages.map ConvoMessage.id), convoId, sender, event.mime,
          event.body, event.sentAt, none, some receivedAt⟩] }

/-- `store_attachment_root`. -/
def storeAttachmentRoot (db : ClientDb P) (sender : UserName) (root : Attachment P) :
    ClientDb P :=
  { db with attachmentRoots := db.attachmentRoots.insert (P.bcsHash root) (root, sender) }

/-- `UPDATE groups … WHERE group_id = ?`. -/
def updateGroup (db : ClientDb P) (groupId : GroupId P)
    (change : GroupRecord P → GroupRecord P) : ClientDb P :=
  match db.groups.lookup groupId with
  | none => db
  | some group => { db with groups := db.groups.insert groupId (change group) }

/-- The row of a group after a change of it. -/
theorem lookup_updateGroup {db : ClientDb P} {groupId : GroupId P} {group : GroupRecord P}
    (listed : db.groups.lookup groupId = some group) (change : GroupRecord P → GroupRecord P) :
    (db.updateGroup groupId change).groups.lookup groupId = some (change group) := by
  simp only [updateGroup, listed]
  exact AList.lookup_insert db.groups

/-- `GroupRoster::load`, which writes the initial admin when the group is new. -/
def loadRoster (env : ClientEnv P) (groupId : GroupId P) (initAdmin : UserName)
    (db : ClientDb P) : ClientDb P × Except EntryError Unit :=
  if env.fails .rosterVersion then (db, .error .database)
  else
    match db.groups.lookup groupId with
    | none => (db, .error (.said "group not found"))
    | some group =>
        if group.roster.version ≠ 0 then (db, .ok ())
        else if env.fails .rosterAdmin then (db, .error .database)
        else
          let listed := db.updateGroup groupId fun group =>
            { group with
              roster := (group.roster.upsertMember initAdmin GroupRoster.initialMember).1 }
          if env.fails .rosterMark then (listed, .error .database)
          else
            (listed.updateGroup groupId fun group =>
              { group with roster := { group.roster with version := 1 } }, .ok ())

/-- `now_seconds`. -/
def nowSeconds (clock : Timestamp) : Int := min (clock.toNat : Int) (2 ^ 63 - 1)

/-- `is_fresh`. -/
def isFresh (clock : Timestamp) (fetchedAt : Int) : Bool := decide (nowSeconds clock - fetchedAt ≤ 60)

/-- The cached descriptor of a user, while it is fresh. -/
def freshDescriptor (db : ClientDb P) (clock : Timestamp) (username : UserName) :
    Option (UserDescriptor P) :=
  match db.userDescriptorCache.lookup username with
  | none => none
  | some (descriptor, fetchedAt) => if isFresh clock fetchedAt then some descriptor else none

/-- `get_user_descriptor`, through the cache. -/
def getUserDescriptor (env : ClientEnv P) (username : UserName) (db : ClientDb P) :
    ClientDb P × Except EntryError (UserDescriptor P) :=
  if env.fails .cachedDescriptor then (db, .error .database)
  else
    match db.freshDescriptor env.clock username with
    | some descriptor => (db, .ok descriptor)
    | none =>
        if env.fails .directory then (db, .error .directory)
        else
          match env.descriptor username with
          | none => (db, .error (.said "username not in directory"))
          | some descriptor =>
              if env.fails .storeDescriptor then (db, .error .database)
              else
                ({ db with
                  userDescriptorCache := db.userDescriptorCache.insert username
                    (descriptor, nowSeconds env.clock) }, .ok descriptor)

/-- The group path asks the directory every time. -/
def senderDescriptor (env : ClientEnv P) (sender : UserName) :
    Except EntryError (UserDescriptor P) :=
  if env.fails .directory then .error .directory
  else
    match env.descriptor sender with
    | none => .error (.said "sender username not in directory")
    | some descriptor => .ok descriptor

end ClientDb
end Nullspace
