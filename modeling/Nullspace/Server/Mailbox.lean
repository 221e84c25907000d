import Mathlib.Data.List.Sort
import Nullspace.Server.Db

/-!
# Mailboxes

A send is a clock reading and then the statements of one transaction, which use the reading
as the entry's `received_at`; the `BEGIN` before it takes no lock. A receive is one
transaction which looks for entries behind the caller's cursor, in the order of
`received_at`, a page at a time.
-/

namespace Nullspace

open Nullspace.Base

variable (P : Primitives)

/-- `CONFIG`, as far as calls depend on it. -/
structure ServerConfig where
  serverName : ServerName
  proxyEnabled : Bool

/-- What one call meets outside the server. -/
structure CallEnv where
  now : NanoTimestamp
  /-- The clock in seconds, which certificates are compared with. -/
  clock : Timestamp
  /-- The directory's answer about a username; `none` is a failed lookup. -/
  descriptor : UserName → Option (Option (UserDescriptor P))
  freshToken : AuthToken
  dbFails : Bool
  /-- The answer to a proxied call. -/
  upstream : Option Bytes
  /-- The argument of `mailbox_multirecv` which gets an answer first, if one does. -/
  served : Option Nat

variable {P}

namespace ServerDb

/-- The transaction of `mailbox_send`, after its clock reading. -/
def mailboxSend (now : NanoTimestamp) (dbFails : Bool) (auth : AuthToken) (mailbox : MailboxId P)
    (message : Blob) (ttl : UInt32) (db : ServerDb P) :
    ServerDb P × Except ServerRpcError NanoTimestamp :=
  if dbFails then (db, .error .retryLater)
  else
    let purged := db.purgeExpiredEntries now
    if !(purged.aclForToken mailbox auth).canSend then (db, .error .accessDenied)
    else
      match purged.insertEntry mailbox now message (P.bcsHash auth) (expiresAtFromTtl now ttl) with
      | none => (db, .error .retryLater)
      | some next => (next, .ok now)

/-- `ORDER BY received_at, entry_id`. -/
def entryLe (first second : EntryRow P) : Prop :=
  asI64 first.receivedAt < asI64 second.receivedAt ∨
    asI64 first.receivedAt = asI64 second.receivedAt ∧ first.entryId ≤ second.entryId

instance (first second : EntryRow P) : Decidable (entryLe first second) :=
  inferInstanceAs (Decidable (_ ∨ _))

/-- Any two entries are in order one way or the other. -/
theorem entryLe_total : Std.Total (entryLe (P := P)) where
  total first second := by
    simp only [entryLe]
    omega

/-- The order of entries is transitive. -/
theorem entryLe_trans : IsTrans (EntryRow P) entryLe where
  trans first second third := by
    simp only [entryLe]
    omega

/-- `LIMIT 100`. -/
def pageLimit : Nat := 100

/-- The entries of a mailbox behind a cursor, in order. -/
def entriesAfter (db : ServerDb P) (now : NanoTimestamp) (mailbox : MailboxId P)
    (after : NanoTimestamp) : List (EntryRow P) :=
  (db.mailboxEntries.filter fun row =>
    decide (row.mailboxId = mailbox ∧ asI64 after < asI64 row.receivedAt) &&
      !expiredAt now row.expiresAt).insertionSort entryLe

/-- What is received lies behind the cursor in its mailbox and has not expired. -/
theorem mem_entriesAfter {db : ServerDb P} {now after : NanoTimestamp} {mailbox : MailboxId P}
    {row : EntryRow P} : row ∈ db.entriesAfter now mailbox after ↔
      row ∈ db.mailboxEntries ∧ row.mailboxId = mailbox ∧
        asI64 after < asI64 row.receivedAt ∧ expiredAt now row.expiresAt = false := by
  simp only [entriesAfter, List.mem_insertionSort, List.mem_filter, Bool.and_eq_true,
    decide_eq_true_eq, Bool.not_eq_true', and_assoc]

/-- One transaction of `mailbox_multirecv` for one argument. -/
def pollMailbox (now : NanoTimestamp) (arg : MailboxRecvArgs P) (db : ServerDb P) :
    ServerDb P × Except ServerRpcError (List (EntryRow P)) :=
  let purged := db.purgeExpiredEntries now
  if !(purged.aclForToken arg.mailbox arg.auth).canRecv then (db, .error .accessDenied)
  else (purged, .ok ((purged.entriesAfter now arg.mailbox arg.after).take pageLimit))

/-- What a receiver is told about an entry. -/
def entryOf (row : EntryRow P) : MailboxEntry P :=
  ⟨row.message, row.receivedAt, some row.senderAuthTokenHash⟩

/-- `mailbox_multirecv`. The arguments race; one whose mailbox has nothing new keeps
waiting, so a call which serves none of them times out with an empty answer. -/
def mailboxMultirecv (env : CallEnv P) (args : List (MailboxRecvArgs P)) (db : ServerDb P) :
    ServerDb P × Except ServerRpcError (List (MailboxId P × List (MailboxEntry P))) :=
  match env.served.bind fun index => args[index]? with
  | none => (db, .ok [])
  | some arg =>
      if env.dbFails then (db, .error .retryLater)
      else
        match db.pollMailbox env.now arg with
        | (next, .error err) => (next, .error err)
        | (next, .ok []) => (next, .ok [])
        | (next, .ok rows) => (next, .ok [(arg.mailbox, rows.map entryOf)])

def aclIsSubset (candidate holder : AclRights) : Bool :=
  (!candidate.canEditAcl || holder.canEditAcl) && (!candidate.canSend || holder.canSend) &&
    (!candidate.canRecv || holder.canRecv)

def aclIsEmpty (candidate : AclRights) : Bool :=
  !candidate.canEditAcl && !candidate.canSend && !candidate.canRecv

/-- `mailbox_acl_edit`. -/
def mailboxAclEdit (env : CallEnv P) (auth : AuthToken) (mailbox : MailboxId P)
    (arg : MailboxAcl P) (db : ServerDb P) : ServerDb P × Except ServerRpcError Unit :=
  if env.dbFails then (db, .error .retryLater)
  else if arg.tokenHash = P.bcsHash auth ∧ aclIsEmpty arg.rights = true then
    (db.deleteAcl mailbox arg.tokenHash, .ok ())
  else
    let existing := db.loadAclHash mailbox arg.tokenHash
    if existing = some arg.rights then (db, .ok ())
    else
      let acl := db.aclForToken mailbox auth
      let canAddSubset := existing.isNone && aclIsSubset arg.rights acl
      if !acl.canEditAcl && !canAddSubset then (db, .error .accessDenied)
      else
        match db.insertAcl mailbox arg with
        | none => (db, .error .retryLater)
        | some next => (next, .ok ())

/-- `update_dm_mailbox`: everyone may send, and a new device token may receive. -/
def updateDmMailbox (db : ServerDb P) (now : NanoTimestamp) (username : UserName)
    (newToken : Option AuthToken) : Option (ServerDb P) :=
  let mailbox := MailboxId.direct username
  match (db.insertMailbox mailbox now).insertAcl mailbox
      ⟨P.bcsHash AuthToken.anonymous, ⟨false, true, false⟩⟩ with
  | none => none
  | some db =>
      match newToken with
      | none => some db
      | some token => db.insertAcl mailbox ⟨P.bcsHash token, ⟨false, true, true⟩⟩

/-- One of the two mailboxes of `register_group`. -/
def registerMailbox (db : ServerDb P) (now : NanoTimestamp) (auth : AuthToken)
    (mailbox : MailboxId P) : Option (ServerDb P) :=
  (db.insertMailbox mailbox now).insertAcl mailbox ⟨P.bcsHash auth, ⟨true, true, true⟩⟩

/-- `register_group`. -/
def registerGroup (env : CallEnv P) (auth : AuthToken) (group : GroupId P) (db : ServerDb P) :
    ServerDb P × Except ServerRpcError Unit :=
  if env.dbFails then (db, .error .retryLater)
  else if !db.authTokenExists auth then (db, .error .accessDenied)
  else
    match db.registerMailbox env.now auth (MailboxId.groupMessages group) with
    | none => (db, .error .retryLater)
    | some next =>
        match next.registerMailbox env.now auth (MailboxId.groupManagement group) with
        | none => (db, .error .retryLater)
        | some next => (next, .ok ())

end ServerDb
end Nullspace
