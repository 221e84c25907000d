import Nullspace.Server.Rpc

/-!
# What a call leaves alone

Only `device_auth` touches the table of auth tokens, and only `mailbox_send` posts an
entry. `Aside` is what the other calls have in common. `Settled` says the same of the calls
which are not about rights and keys.
-/

namespace Nullspace

open Nullspace.Base

variable {P : Primitives}

namespace ServerDb

/-- No token is issued and no entry is posted; expired entries may go. -/
structure Aside (db next : ServerDb P) : Prop where
  tokens : next.deviceAuthTokens = db.deviceAuthTokens
  entries : next.mailboxEntries.Sublist db.mailboxEntries
  entryId : next.nextEntryId = db.nextEntryId

theorem Aside.refl (db : ServerDb P) : Aside db db := ⟨rfl, .refl _, rfl⟩

theorem Aside.trans {first second third : ServerDb P} (before : Aside first second)
    (after : Aside second third) : Aside first third :=
  ⟨after.tokens.trans before.tokens, after.entries.trans before.entries,
    after.entryId.trans before.entryId⟩

theorem aside_purge (db : ServerDb P) (now : NanoTimestamp) :
    Aside db (db.purgeExpiredEntries now) := ⟨rfl, List.filter_sublist, rfl⟩

theorem aside_insertMailbox (db : ServerDb P) (mailbox : MailboxId P) (now : NanoTimestamp) :
    Aside db (db.insertMailbox mailbox now) := ⟨rfl, .refl _, rfl⟩

theorem aside_insertAcl {db next : ServerDb P} {mailbox : MailboxId P} {acl : MailboxAcl P}
    (inserted : db.insertAcl mailbox acl = some next) : Aside db next := by
  rw [insertAcl] at inserted
  split at inserted
  · cases inserted
    exact ⟨rfl, .refl _, rfl⟩
  · simp at inserted

theorem aside_updateDmMailbox {db next : ServerDb P} {now : NanoTimestamp} {username : UserName}
    {newToken : Option AuthToken} (updated : db.updateDmMailbox now username newToken = some next) :
    Aside db next := by
  simp only [updateDmMailbox] at updated
  split at updated
  · simp at updated
  · rename_i middle inserted
    have first : Aside db middle :=
      (aside_insertMailbox db (MailboxId.direct username) now).trans (aside_insertAcl inserted)
    split at updated
    · cases updated
      exact first
    · exact first.trans (aside_insertAcl updated)

theorem aside_registerMailbox {db next : ServerDb P} {now : NanoTimestamp} {auth : AuthToken}
    {mailbox : MailboxId P} (registered : db.registerMailbox now auth mailbox = some next) :
    Aside db next :=
  (aside_insertMailbox db mailbox now).trans (aside_insertAcl registered)

theorem aside_registerGroup (env : CallEnv P) (auth : AuthToken) (group : GroupId P)
    (db : ServerDb P) : Aside db (db.registerGroup env auth group).1 := by
  rw [registerGroup]
  split
  · exact .refl db
  · split
    · exact .refl db
    · split
      · exact .refl db
      · rename_i middle messages
        split
        · exact .refl db
        · rename_i next management
          exact (aside_registerMailbox messages).trans (aside_registerMailbox management)

theorem aside_mailboxAclEdit (env : CallEnv P) (auth : AuthToken) (mailbox : MailboxId P)
    (arg : MailboxAcl P) (db : ServerDb P) :
    Aside db (db.mailboxAclEdit env auth mailbox arg).1 := by
  simp only [mailboxAclEdit]
  split
  · exact .refl db
  · split
    · exact ⟨rfl, .refl _, rfl⟩
    · split
      · exact .refl db
      · split
        · exact .refl db
        · split
          · exact .refl db
          · rename_i inserted
            exact aside_insertAcl inserted

theorem aside_pollMailbox (now : NanoTimestamp) (arg : MailboxRecvArgs P) (db : ServerDb P) :
    Aside db (db.pollMailbox now arg).1 := by
  simp only [pollMailbox]
  split
  · exact .refl db
  · exact aside_purge db now

theorem aside_mailboxMultirecv (env : CallEnv P) (args : List (MailboxRecvArgs P))
    (db : ServerDb P) : Aside db (db.mailboxMultirecv env args).1 := by
  rw [mailboxMultirecv]
  split
  · exact .refl db
  · rename_i arg served
    split
    · exact .refl db
    · have polled := aside_pollMailbox env.now arg db
      split <;> rename_i outcome <;> rw [outcome] at polled <;> exact polled

theorem aside_deviceAddMediumPk (env : CallEnv P) (auth : AuthToken) (mediumPk : SignedMediumPk P)
    (db : ServerDb P) : Aside db (db.deviceAddMediumPk env auth mediumPk).1 := by
  rw [deviceAddMediumPk]
  repeat' split
  all_goals exact ⟨rfl, .refl _, rfl⟩

theorem aside_profileSet (env : CallEnv P) (username : UserName) (profile : UserProfile P)
    (db : ServerDb P) : Aside db (db.profileSet env username profile).1 := by
  simp only [profileSet]
  repeat' split
  all_goals exact ⟨rfl, .refl _, rfl⟩

theorem aside_uploadFrag (env : CallEnv P) (auth : AuthToken) (frag : Fragment P) (ttl : UInt32)
    (db : ServerDb P) : Aside db (db.uploadFrag env auth frag ttl).1 := by
  simp only [uploadFrag]
  repeat' split
  all_goals exact ⟨rfl, .refl _, rfl⟩

/-- Every call but the two. -/
theorem aside_handle (config : ServerConfig) (env : CallEnv P) (db : ServerDb P)
    {request : ServerRequest P} (noAuth : ∀ username cert, request ≠ .deviceAuth username cert)
    (noSend : ∀ auth mailbox message ttl, request ≠ .mailboxSend auth mailbox message ttl) :
    Aside db (db.handle config env request).1 := by
  cases request with
  | deviceAuth username cert => exact absurd rfl (noAuth username cert)
  | mailboxSend auth mailbox message ttl => exact absurd rfl (noSend auth mailbox message ttl)
  | profileSet username value => exact aside_profileSet env username value db
  | deviceAddMediumPk auth mediumPk => exact aside_deviceAddMediumPk env auth mediumPk db
  | mailboxMultirecv args timeoutMs => exact aside_mailboxMultirecv env args db
  | mailboxAclEdit auth mailbox arg => exact aside_mailboxAclEdit env auth mailbox arg db
  | registerGroup auth group => exact aside_registerGroup env auth group db
  | uploadFrag auth frag ttl => exact aside_uploadFrag env auth frag ttl db
  | deviceCerts => exact .refl db
  | deviceMediumPks => exact .refl db
  | profile => exact .refl db
  | proxyServer => exact .refl db
  | proxyDirectory => exact .refl db
  | downloadFrag => exact .refl db

/-- What a send leaves behind: nothing new, or one entry behind the unexpired ones. -/
theorem mailboxSend_cases (now : NanoTimestamp) (dbFails : Bool) (auth : AuthToken)
    (mailbox : MailboxId P) (message : Blob) (ttl : UInt32) (db : ServerDb P) :
    (∃ err, db.mailboxSend now dbFails auth mailbox message ttl = (db, .error err)) ∨
      ∃ next, db.mailboxSend now dbFails auth mailbox message ttl = (next, .ok now) ∧
        (db.purgeExpiredEntries now).insertEntry mailbox now message (P.bcsHash auth)
          (expiresAtFromTtl now ttl) = some next := by
  simp only [mailboxSend]
  split
  · exact Or.inl ⟨_, rfl⟩
  · split
    · exact Or.inl ⟨_, rfl⟩
    · split
      · exact Or.inl ⟨_, rfl⟩
      · rename_i next inserted
        exact Or.inr ⟨next, rfl, inserted⟩

/-- An entry is inserted into a mailbox which exists and has none of the same time. -/
theorem insertEntry_eq_some {db next : ServerDb P} {mailbox : MailboxId P}
    {receivedAt : NanoTimestamp} {message : Blob} {senderHash : P.Hash}
    {expiresAt : Option NanoTimestamp} :
    db.insertEntry mailbox receivedAt message senderHash expiresAt = some next ↔
      mailbox ∈ db.mailboxes ∧
      (∀ row ∈ db.mailboxEntries, row.mailboxId = mailbox → row.receivedAt ≠ receivedAt) ∧
      next = { db with
        mailboxEntries := db.mailboxEntries ++
          [⟨db.nextEntryId, mailbox, receivedAt, message, senderHash, expiresAt⟩]
        nextEntryId := db.nextEntryId + 1 } := by
  rw [insertEntry]
  by_cases known : mailbox ∈ db.mailboxes
  · by_cases taken : db.mailboxEntries.any fun row =>
        decide (row.mailboxId = mailbox ∧ row.receivedAt = receivedAt)
    · obtain ⟨row, listed, same⟩ := List.any_eq_true.mp taken
      simp only [decide_eq_true_eq] at same
      rw [if_neg (not_not.mpr known), if_pos taken]
      simp only [reduceCtorEq, false_iff, not_and]
      intro _ distinct
      exact absurd same.2 (distinct row listed same.1)
    · rw [if_neg (not_not.mpr known), if_neg taken]
      have distinct : ∀ row ∈ db.mailboxEntries, row.mailboxId = mailbox →
          row.receivedAt ≠ receivedAt := by
        intro row listed mailboxes times
        exact taken (List.any_eq_true.mpr ⟨row, listed, by simp [mailboxes, times]⟩)
      simp only [Option.some.injEq, known, true_and]
      exact ⟨fun same => ⟨distinct, same.symm⟩, fun held => held.2.symm⟩
  · simp [known]

/-- A send issues no token. -/
theorem mailboxSend_tokens (now : NanoTimestamp) (dbFails : Bool) (auth : AuthToken)
    (mailbox : MailboxId P) (message : Blob) (ttl : UInt32) (db : ServerDb P) :
    (db.mailboxSend now dbFails auth mailbox message ttl).1.deviceAuthTokens =
      db.deviceAuthTokens := by
  rcases mailboxSend_cases now dbFails auth mailbox message ttl db with ⟨err, sent⟩ | ⟨next, sent, inserted⟩
  · rw [sent]
  · obtain ⟨_, _, rfl⟩ := insertEntry_eq_some.mp inserted
    rw [sent]
    rfl

/-- Only `device_auth` issues tokens. -/
theorem handle_tokens (config : ServerConfig) (env : CallEnv P) (db : ServerDb P)
    {request : ServerRequest P} (noAuth : ∀ username cert, request ≠ .deviceAuth username cert) :
    (db.handle config env request).1.deviceAuthTokens = db.deviceAuthTokens := by
  by_cases send : ∃ auth mailbox message ttl, request = .mailboxSend auth mailbox message ttl
  · obtain ⟨auth, mailbox, message, ttl, rfl⟩ := send
    exact mailboxSend_tokens env.now env.dbFails auth mailbox message ttl db
  · refine (aside_handle config env db noAuth ?_).tokens
    rintro auth mailbox message ttl rfl
    exact send ⟨auth, mailbox, message, ttl, rfl⟩

/-- No call but a send posts an entry. -/
theorem handle_entries (config : ServerConfig) (env : CallEnv P) (db : ServerDb P)
    {request : ServerRequest P}
    (noSend : ∀ auth mailbox message ttl, request ≠ .mailboxSend auth mailbox message ttl) :
    (db.handle config env request).1.mailboxEntries.Sublist db.mailboxEntries ∧
      (db.handle config env request).1.nextEntryId = db.nextEntryId := by
  by_cases auth : ∃ username cert, request = .deviceAuth username cert
  · obtain ⟨username, cert, rfl⟩ := auth
    simp only [handle, deviceAuth]
    split
    · exact ⟨.refl _, rfl⟩
    · split
      · exact ⟨.refl _, rfl⟩
      · split
        · split
          · exact ⟨.refl _, rfl⟩
          · rename_i updated
            exact ⟨(aside_updateDmMailbox updated).entries, (aside_updateDmMailbox updated).entryId⟩
        · split
          · exact ⟨.refl _, rfl⟩
          · rename_i updated
            exact ⟨(aside_updateDmMailbox updated).entries, (aside_updateDmMailbox updated).entryId⟩
  · have aside := aside_handle config env db
      (fun username cert same => auth ⟨username, cert, same⟩) noSend
    exact ⟨aside.entries, aside.entryId⟩

theorem mailboxEntries_insertAcl {db next : ServerDb P} {mailbox : MailboxId P} {acl : MailboxAcl P}
    (inserted : db.insertAcl mailbox acl = some next) :
    next.mailboxEntries = db.mailboxEntries := by
  rw [insertAcl] at inserted
  split at inserted
  · cases inserted
    rfl
  · simp at inserted

theorem mailboxEntries_updateDmMailbox {db next : ServerDb P} {now : NanoTimestamp}
    {username : UserName} {newToken : Option AuthToken}
    (updated : db.updateDmMailbox now username newToken = some next) :
    next.mailboxEntries = db.mailboxEntries := by
  simp only [updateDmMailbox] at updated
  split at updated
  · simp at updated
  · rename_i middle inserted
    have first := mailboxEntries_insertAcl inserted
    split at updated
    · cases updated
      exact first
    · exact (mailboxEntries_insertAcl updated).trans first

theorem mailboxEntries_deviceAuth (config : ServerConfig) (env : CallEnv P) (username : UserName)
    (cert : CertificateChain P) (db : ServerDb P) :
    (db.deviceAuth config env username cert).1.mailboxEntries = db.mailboxEntries := by
  simp only [deviceAuth]
  repeat' split
  all_goals first
    | rfl
    | (rename_i updated; exact (mailboxEntries_updateDmMailbox updated).trans rfl)

theorem mailboxEntries_registerMailbox {db next : ServerDb P} {now : NanoTimestamp}
    {auth : AuthToken} {mailbox : MailboxId P}
    (registered : db.registerMailbox now auth mailbox = some next) :
    next.mailboxEntries = db.mailboxEntries := by
  rw [registerMailbox] at registered
  exact (mailboxEntries_insertAcl registered).trans rfl

theorem mailboxEntries_registerGroup (env : CallEnv P) (auth : AuthToken) (group : GroupId P)
    (db : ServerDb P) :
    (db.registerGroup env auth group).1.mailboxEntries = db.mailboxEntries := by
  rw [registerGroup]
  split
  · rfl
  · split
    · rfl
    · split
      · rfl
      · rename_i middle messages
        split
        · rfl
        · rename_i next management
          exact (mailboxEntries_registerMailbox management).trans
            (mailboxEntries_registerMailbox messages)

theorem mailboxEntries_mailboxAclEdit (env : CallEnv P) (auth : AuthToken) (mailbox : MailboxId P)
    (arg : MailboxAcl P) (db : ServerDb P) :
    (db.mailboxAclEdit env auth mailbox arg).1.mailboxEntries = db.mailboxEntries := by
  simp only [mailboxAclEdit]
  repeat' split
  all_goals first
    | rfl
    | (rename_i inserted; exact mailboxEntries_insertAcl inserted)

/-- A call which is not a send leaves the entries as they are, or without what has expired. -/
theorem mailboxEntries_handle (config : ServerConfig) (env : CallEnv P) (db : ServerDb P)
    {request : ServerRequest P}
    (noSend : ∀ auth mailbox message ttl, request ≠ .mailboxSend auth mailbox message ttl) :
    (db.handle config env request).1.mailboxEntries = db.mailboxEntries ∨
      (db.handle config env request).1.mailboxEntries =
        (db.purgeExpiredEntries env.now).mailboxEntries := by
  cases request with
  | mailboxSend auth mailbox message ttl => exact absurd rfl (noSend auth mailbox message ttl)
  | deviceAuth username cert => exact Or.inl (mailboxEntries_deviceAuth config env username cert db)
  | registerGroup auth group => exact Or.inl (mailboxEntries_registerGroup env auth group db)
  | mailboxAclEdit auth mailbox arg =>
      exact Or.inl (mailboxEntries_mailboxAclEdit env auth mailbox arg db)
  | mailboxMultirecv args timeoutMs =>
      have polled : ∀ arg, (db.pollMailbox env.now arg).1 = db ∨
          (db.pollMailbox env.now arg).1 = db.purgeExpiredEntries env.now := by
        intro arg
        simp only [pollMailbox]
        split
        · exact Or.inl rfl
        · exact Or.inr rfl
      simp only [handle, mailboxMultirecv]
      split
      · exact Or.inl rfl
      · rename_i arg served
        split
        · exact Or.inl rfl
        · have answered := polled arg
          split <;> rename_i outcome <;> rw [outcome] at answered <;>
            exact answered.imp (congrArg mailboxEntries) (congrArg mailboxEntries)
  | profileSet username value =>
      left
      simp only [handle, profileSet]
      repeat' split
      all_goals rfl
  | deviceAddMediumPk auth mediumPk =>
      left
      simp only [handle, deviceAddMediumPk]
      repeat' split
      all_goals rfl
  | uploadFrag auth frag ttl =>
      left
      simp only [handle, uploadFrag]
      repeat' split
      all_goals rfl
  | _ => exact Or.inl rfl

/-- Who may do what in which mailbox, and the devices' medium-term keys, are as before. -/
structure Settled (db next : ServerDb P) : Prop where
  mailboxes : next.mailboxes = db.mailboxes
  mailboxAcl : next.mailboxAcl = db.mailboxAcl
  deviceMediumPks : next.deviceMediumPks = db.deviceMediumPks

/-- The calls which are about mail, profiles and fragments. -/
def settles : ServerRequest P → Bool
  | .deviceAuth _ _ | .deviceAddMediumPk _ _ | .mailboxAclEdit _ _ _ | .registerGroup _ _ => false
  | _ => true

/-- Calls about mail, profiles and fragments leave rights and keys as they are. -/
theorem settled_handle (config : ServerConfig) (env : CallEnv P) (db : ServerDb P)
    {request : ServerRequest P} (settling : settles request = true) :
    Settled db (db.handle config env request).1 := by
  cases request with
  | deviceAuth | deviceAddMediumPk | mailboxAclEdit | registerGroup => cases settling
  | mailboxSend auth mailbox message ttl =>
      rcases mailboxSend_cases env.now env.dbFails auth mailbox message ttl db with
        ⟨err, sent⟩ | ⟨next, sent, inserted⟩
      · simp only [handle, sent]
        exact ⟨rfl, rfl, rfl⟩
      · obtain ⟨_, _, rfl⟩ := insertEntry_eq_some.mp inserted
        simp only [handle, sent]
        exact ⟨rfl, rfl, rfl⟩
  | mailboxMultirecv args timeoutMs =>
      have polled : ∀ arg, Settled db (db.pollMailbox env.now arg).1 := by
        intro arg
        simp only [pollMailbox]
        split <;> exact ⟨rfl, rfl, rfl⟩
      simp only [handle, mailboxMultirecv]
      split
      · exact ⟨rfl, rfl, rfl⟩
      · rename_i arg served
        split
        · exact ⟨rfl, rfl, rfl⟩
        · have settled := polled arg
          split <;> rename_i outcome <;> rw [outcome] at settled <;> exact settled
  | profileSet username value =>
      simp only [handle, profileSet]
      repeat' split
      all_goals exact ⟨rfl, rfl, rfl⟩
  | uploadFrag auth frag ttl =>
      simp only [handle, uploadFrag]
      repeat' split
      all_goals exact ⟨rfl, rfl, rfl⟩
  | _ => exact ⟨rfl, rfl, rfl⟩

end ServerDb
end Nullspace
