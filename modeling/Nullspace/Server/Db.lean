import Nullspace.Base.Table
import Nullspace.Structs.Server

/-!
# The server's database

The tables of the server, with their keys and uniqueness constraints, and the fragment
files beside them. Timestamps are the `u64` values which the program binds `as i64`;
where SQL compares them, they are compared as SQLite does, through `asI64`.
-/

namespace Nullspace

open Nullspace.Base

/-- A row of `mailbox_entries`. -/
structure EntryRow (P : Primitives) where
  entryId : Nat
  mailboxId : MailboxId P
  receivedAt : NanoTimestamp
  message : Blob
  senderAuthTokenHash : P.Hash
  expiresAt : Option NanoTimestamp
deriving DecidableEq

/-- A row of `fragments`. -/
structure FragmentRow where
  createdAt : NanoTimestamp
  expiresAt : Option NanoTimestamp
  size : Nat
deriving DecidableEq

/-- A row of `device_certificates`. -/
structure CertificateRow (P : Primitives) where
  username : UserName
  certChain : CertificateChain P
deriving DecidableEq

structure ServerDb (P : Primitives) where
  deviceCertificates : Table P.Hash (CertificateRow P)
  deviceAuthTokens : Table (UserName × P.Hash) AuthToken
  deviceMediumPks : Table P.Hash (SignedMediumPk P)
  mailboxes : Table (MailboxId P) NanoTimestamp
  /-- In the order of insertion. -/
  mailboxEntries : List (EntryRow P)
  /-- `AUTOINCREMENT`: an entry id is never used again. -/
  nextEntryId : Nat
  mailboxAcl : Table (MailboxId P × P.Hash) AclRights
  userProfiles : Table UserName (UserProfile P)
  fragments : Table P.Hash FragmentRow
  fragmentFiles : Table P.Hash (Fragment P)

variable {P : Primitives}

/-- `expires_at IS NOT NULL AND expires_at <= ?`. -/
def expiredAt (now : NanoTimestamp) : Option NanoTimestamp → Bool
  | none => false
  | some expiresAt => decide (asI64 expiresAt ≤ asI64 now)

/-- `expires_at_from_ttl`; no time to live means no expiry. -/
def expiresAtFromTtl (receivedAt : NanoTimestamp) (ttl : UInt32) : Option NanoTimestamp :=
  if ttl = 0 then none
  else
    let ttlNs := min (ttl.toNat * 1000000000) (2 ^ 64 - 1)
    some (UInt64.ofNat (min (receivedAt.toNat + ttlNs) (2 ^ 64 - 1)))

namespace ServerDb

def empty : ServerDb P := ⟨∅, ∅, ∅, ∅, [], 1, ∅, ∅, ∅, ∅⟩

/-- `INSERT OR REPLACE` into `device_auth_tokens`, where tokens are unique too. -/
def insertAuthToken (db : ServerDb P) (username : UserName) (deviceHash : P.Hash)
    (token : AuthToken) : ServerDb P :=
  { db with
    deviceAuthTokens :=
      (db.deviceAuthTokens.keep fun other => decide (other ≠ token)).insert (username, deviceHash)
        token }

/-- The certificate chains of a user. -/
def certificatesOf (db : ServerDb P) (username : UserName) :
    List (P.Hash × CertificateChain P) :=
  db.deviceCertificates.rows.filterMap fun (hash, row) =>
    if row.username = username then some (hash, row.certChain) else none

/-- The device to which a token belongs. -/
def tokenOwner? (db : ServerDb P) (auth : AuthToken) : Option (UserName × P.Hash) :=
  (db.deviceAuthTokens.rows.find? fun (_, token) => decide (token = auth)).map Prod.fst

def authTokenExists (db : ServerDb P) (auth : AuthToken) : Bool := (db.tokenOwner? auth).isSome

/-- `INSERT OR IGNORE INTO mailboxes`. -/
def insertMailbox (db : ServerDb P) (mailbox : MailboxId P) (createdAt : NanoTimestamp) :
    ServerDb P :=
  { db with
    mailboxes :=
      if mailbox ∈ db.mailboxes then db.mailboxes else db.mailboxes.insert mailbox createdAt }

/-- `insert_acl`: fails when there is no such mailbox. -/
def insertAcl (db : ServerDb P) (mailbox : MailboxId P) (acl : MailboxAcl P) :
    Option (ServerDb P) :=
  if mailbox ∈ db.mailboxes then
    some { db with mailboxAcl := db.mailboxAcl.insert (mailbox, acl.tokenHash) acl.rights }
  else none

def deleteAcl (db : ServerDb P) (mailbox : MailboxId P) (tokenHash : P.Hash) : ServerDb P :=
  { db with mailboxAcl := db.mailboxAcl.erase (mailbox, tokenHash) }

def loadAclHash (db : ServerDb P) (mailbox : MailboxId P) (tokenHash : P.Hash) :
    Option AclRights :=
  db.mailboxAcl.lookup (mailbox, tokenHash)

/-- `acl_for_token`: a token without an entry has the rights of the anonymous token. -/
def aclForToken (db : ServerDb P) (mailbox : MailboxId P) (token : AuthToken) : AclRights :=
  match db.loadAclHash mailbox (P.bcsHash token) with
  | some rights => rights
  | none =>
      match db.loadAclHash mailbox (P.bcsHash AuthToken.anonymous) with
      | some rights => rights
      | none => ⟨false, false, false⟩

def purgeExpiredEntries (db : ServerDb P) (now : NanoTimestamp) : ServerDb P :=
  { db with mailboxEntries := db.mailboxEntries.filter fun row => !expiredAt now row.expiresAt }

/-- `INSERT INTO mailbox_entries`: refused for an unknown mailbox, and for a second entry
of one mailbox with the same `received_at`. -/
def insertEntry (db : ServerDb P) (mailbox : MailboxId P) (receivedAt : NanoTimestamp)
    (message : Blob) (senderHash : P.Hash) (expiresAt : Option NanoTimestamp) :
    Option (ServerDb P) :=
  if mailbox ∉ db.mailboxes then none
  else if db.mailboxEntries.any fun row =>
      decide (row.mailboxId = mailbox ∧ row.receivedAt = receivedAt) then none
  else
    some { db with
      mailboxEntries := db.mailboxEntries ++
        [⟨db.nextEntryId, mailbox, receivedAt, message, senderHash, expiresAt⟩]
      nextEntryId := db.nextEntryId + 1 }

end ServerDb
end Nullspace
