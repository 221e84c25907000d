import Nullspace.Server.AclEdit

/-!
# Who controls a group's mailboxes

A run is any list of calls by any tokens. Beside the database it keeps a record, newest
first, of the ACL rows which calls wrote, each with where it came from: the registration
which created the mailbox, a later registration, or an edit under the row of the token
which made it. `delegated` follows the record back to the first registration.

`keepsControl_iff` says in which runs whoever may edit the ACL of a group's mailbox got there
by such a chain, and a token which merely knows the group gains nothing.
-/

namespace Nullspace

open Nullspace.Base

variable {P : Primitives}

/-- Where an ACL row came from. -/
inductive GrantOrigin (P : Primitives) where
  /-- The registration which created the mailbox. -/
  | founded
  /-- A registration of a mailbox which was there already. -/
  | taken
  /-- An edit by a token which might edit, under the row of this hash. -/
  | edited (source : P.Hash)
  /-- An edit by a token which might not edit. -/
  | shared
deriving DecidableEq

/-- An ACL row which some call wrote. -/
structure Grant (P : Primitives) where
  mailbox : MailboxId P
  tokenHash : P.Hash
  origin : GrantOrigin P
deriving DecidableEq

/-- The row was written by the first registration, or by an edit under such a row. -/
def delegated (mailbox : MailboxId P) : List (Grant P) → P.Hash → Bool
  | [], _ => false
  | grant :: earlier, tokenHash =>
      if grant.mailbox = mailbox ∧ grant.tokenHash = tokenHash then
        match grant.origin with
        | .founded => true
        | .taken => false
        | .edited source => delegated mailbox earlier source
        | .shared => false
      else delegated mailbox earlier tokenHash

/-- The server and the record of its ACL rows. -/
structure ControlledServer (P : Primitives) where
  db : ServerDb P
  granted : List (Grant P)

/-- The two mailboxes of a group. -/
def GroupId.mailboxes (group : GroupId P) : List (MailboxId P) :=
  [MailboxId.groupMessages group, MailboxId.groupManagement group]

/-- The tokens which a request presents. -/
def ServerRequest.tokens : ServerRequest P → List AuthToken
  | .deviceAddMediumPk auth _ => [auth]
  | .mailboxSend auth _ _ _ => [auth]
  | .mailboxMultirecv args _ => args.map MailboxRecvArgs.auth
  | .mailboxAclEdit auth _ _ => [auth]
  | .registerGroup auth _ => [auth]
  | .proxyServer auth _ _ => [auth]
  | .proxyDirectory auth _ => [auth]
  | .uploadFrag auth _ _ => [auth]
  | _ => []

namespace ServerDb

/-- The row from which a token has its rights. -/
def sourceHash (db : ServerDb P) (mailbox : MailboxId P) (token : AuthToken) : P.Hash :=
  if (db.loadAclHash mailbox (P.bcsHash token)).isSome then P.bcsHash token
  else P.bcsHash AuthToken.anonymous

/-- The record of a row, if a call wrote it. -/
def written (before after : ServerDb P) (mailbox : MailboxId P) (tokenHash : P.Hash)
    (origin : GrantOrigin P) : List (Grant P) :=
  if after.loadAclHash mailbox tokenHash = before.loadAclHash mailbox tokenHash then []
  else if (after.loadAclHash mailbox tokenHash).isNone then []
  else [⟨mailbox, tokenHash, origin⟩]

/-- The rows which a request wrote. -/
def grantsOf (before after : ServerDb P) : ServerRequest P → List (Grant P)
  | .mailboxAclEdit auth mailbox arg =>
      written before after mailbox arg.tokenHash
        (if (before.aclForToken mailbox auth).canEditAcl then
          .edited (before.sourceHash mailbox auth) else .shared)
  | .registerGroup auth group =>
      group.mailboxes.flatMap fun mailbox =>
        written before after mailbox (P.bcsHash auth)
          (if mailbox ∈ before.mailboxes then .taken else .founded)
  | _ => []

end ServerDb

namespace ControlledServer

def fresh : ControlledServer P := ⟨.empty, []⟩

/-- The server as a machine over calls and what they meet. -/
def machine (config : ServerConfig) :
    Machine (ControlledServer P) (CallEnv P × ServerRequest P) where
  step state call :=
    let next := (state.db.handle config call.1 call.2).1
    some ⟨next, state.db.grantsOf next call.2 ++ state.granted⟩

/-- Whoever may edit the ACL of a group's mailbox has this from a delegated row. -/
def Controlled (state : ControlledServer P) : Prop :=
  ∀ group : GroupId P, ∀ mailbox ∈ group.mailboxes, mailbox ∈ state.db.mailboxes →
    ∀ token, (state.db.aclForToken mailbox token).canEditAcl = true →
      delegated mailbox state.granted (state.db.sourceHash mailbox token) = true

/-- A token without a row at a group's mailbox, which may not edit either, gains no right
there by a call which presents it. -/
def GainsNothing (config : ServerConfig) (state : ControlledServer P)
    (call : CallEnv P × ServerRequest P) : Prop :=
  ∀ auth ∈ call.2.tokens, ∀ group : GroupId P, ∀ mailbox ∈ group.mailboxes,
    mailbox ∈ state.db.mailboxes → state.db.loadAclHash mailbox (P.bcsHash auth) = none →
      (state.db.aclForToken mailbox auth).canEditAcl = false →
        (state.db.handle config call.1 call.2).1.aclForToken mailbox auth ≤
          state.db.aclForToken mailbox auth

/-- Control of every group's mailboxes stays with the delegates of its first registration. -/
structure KeepsControl (config : ServerConfig) (start : ControlledServer P)
    (calls : List (CallEnv P × ServerRequest P)) : Prop where
  controlled : (machine config).Always Controlled start calls
  gainsNothing : (machine config).Along (GainsNothing config) start calls

/-- All rights on a mailbox. -/
def fullRights : AclRights := ⟨true, true, true⟩

/-- A registration which the server accepts finds each of the group's mailboxes missing,
or with a full row of the caller already. -/
def RegistersAnew (state : ControlledServer P) (call : CallEnv P × ServerRequest P) : Prop :=
  ∀ auth group, call.2 = .registerGroup auth group → call.1.dbFails = false →
    state.db.authTokenExists auth = true → ∀ mailbox ∈ group.mailboxes,
      mailbox ∈ state.db.mailboxes →
        state.db.loadAclHash mailbox (P.bcsHash auth) = some fullRights

end ControlledServer

/-! ## What calls do to the rows -/

/-- Records of other rows do not bear on a delegation. -/
theorem delegated_skip {mailbox : MailboxId P} {tokenHash : P.Hash} {entries earlier : List (Grant P)}
    (apart : ∀ grant ∈ entries, ¬(grant.mailbox = mailbox ∧ grant.tokenHash = tokenHash)) :
    delegated mailbox (entries ++ earlier) tokenHash = delegated mailbox earlier tokenHash := by
  induction entries with
  | nil => rfl
  | cons grant rest ih =>
      rw [List.cons_append, delegated, if_neg (apart grant List.mem_cons_self)]
      exact ih fun other listed => apart other (List.mem_cons_of_mem grant listed)

/-- A row which registrations wrote is delegated when they created the mailbox. -/
theorem delegated_registered {mailbox : MailboxId P} {tokenHash : P.Hash}
    {entries earlier : List (Grant P)} (origin : GrantOrigin P)
    (registration : origin = .founded ∨ origin = .taken)
    (all : ∀ grant ∈ entries, grant.mailbox = mailbox → grant.tokenHash = tokenHash →
      grant.origin = origin)
    (present : ∃ grant ∈ entries, grant.mailbox = mailbox ∧ grant.tokenHash = tokenHash) :
    delegated mailbox (entries ++ earlier) tokenHash = true ↔ origin = .founded := by
  induction entries with
  | nil =>
      obtain ⟨_, listed, _⟩ := present
      exact absurd listed List.not_mem_nil
  | cons grant rest ih =>
      rw [List.cons_append, delegated]
      by_cases named : grant.mailbox = mailbox ∧ grant.tokenHash = tokenHash
      · rw [if_pos named, all grant List.mem_cons_self named.1 named.2]
        rcases registration with rfl | rfl
        · exact iff_of_true rfl rfl
        · exact iff_of_false Bool.false_ne_true (by simp)
      · rw [if_neg named]
        apply ih
        · exact fun other listed => all other (List.mem_cons_of_mem grant listed)
        · obtain ⟨other, listed, same⟩ := present
          rcases List.mem_cons.mp listed with rfl | later
          · exact absurd same named
          · exact ⟨other, later, same⟩

namespace ServerDb

/-- A row is recorded when a call wrote it. -/
theorem mem_written {before after : ServerDb P} {mailbox : MailboxId P} {tokenHash : P.Hash}
    {origin : GrantOrigin P} {grant : Grant P} :
    grant ∈ written before after mailbox tokenHash origin ↔
      after.loadAclHash mailbox tokenHash ≠ before.loadAclHash mailbox tokenHash ∧
        (after.loadAclHash mailbox tokenHash).isSome = true ∧
          grant = ⟨mailbox, tokenHash, origin⟩ := by
  rw [written]
  split
  · rename_i same
    simp [same]
  · rename_i changed
    split
    · rename_i gone
      simp only [Option.isNone_iff_eq_none] at gone
      simp [gone]
    · rename_i present
      simp only [Option.isNone_iff_eq_none, ← ne_eq, ← Option.isSome_iff_ne_none] at present
      simp [changed, present]

/-- A registration records the full rows which it wrote in the group's mailboxes. -/
theorem mem_grantsOf_registerGroup {before after : ServerDb P} {auth : AuthToken}
    {group : GroupId P} {grant : Grant P} :
    grant ∈ before.grantsOf after (.registerGroup auth group) ↔ ∃ mailbox ∈ group.mailboxes,
      after.loadAclHash mailbox (P.bcsHash auth) ≠ before.loadAclHash mailbox (P.bcsHash auth) ∧
        (after.loadAclHash mailbox (P.bcsHash auth)).isSome = true ∧
          grant = ⟨mailbox, P.bcsHash auth,
            if mailbox ∈ before.mailboxes then .taken else .founded⟩ := by
  simp only [grantsOf, List.mem_flatMap, mem_written]

/-- A record without entries for a row which did not change. -/
theorem grantsOf_apart {before after : ServerDb P} {request : ServerRequest P}
    {mailbox : MailboxId P} {tokenHash : P.Hash}
    (same : after.loadAclHash mailbox tokenHash = before.loadAclHash mailbox tokenHash) :
    ∀ grant ∈ before.grantsOf after request,
      ¬(grant.mailbox = mailbox ∧ grant.tokenHash = tokenHash) := by
  rintro grant listed ⟨rfl, rfl⟩
  cases request with
  | mailboxAclEdit auth mailbox arg =>
      obtain ⟨changed, _, rfl⟩ := mem_written.mp listed
      exact changed same
  | registerGroup auth group =>
      obtain ⟨_, _, changed, _, rfl⟩ := mem_grantsOf_registerGroup.mp listed
      exact changed same
  | _ => exact List.not_mem_nil listed

/-- An inserted mailbox is the only new one. -/
theorem mem_insertMailbox {db : ServerDb P} {mailbox other : MailboxId P} {now : NanoTimestamp} :
    other ∈ (db.insertMailbox mailbox now).mailboxes ↔ other = mailbox ∨ other ∈ db.mailboxes := by
  simp only [insertMailbox]
  split
  · rename_i known
    constructor
    · exact Or.inr
    · rintro (rfl | listed)
      · exact known
      · exact listed
  · exact AList.mem_insert _

/-- A registration gives the caller a full row, in a mailbox which exists afterwards. -/
theorem registerMailbox_spec (db : ServerDb P) (now : NanoTimestamp) (auth : AuthToken)
    (mailbox : MailboxId P) :
    ∃ next, db.registerMailbox now auth mailbox = some next ∧
      (∀ other tokenHash, next.loadAclHash other tokenHash =
        if other = mailbox ∧ tokenHash = P.bcsHash auth then some ControlledServer.fullRights
        else db.loadAclHash other tokenHash) ∧
      (∀ other, other ∈ next.mailboxes ↔ other = mailbox ∨ other ∈ db.mailboxes) := by
  have known : mailbox ∈ (db.insertMailbox mailbox now).mailboxes :=
    mem_insertMailbox.mpr (Or.inl rfl)
  refine ⟨_, insertAcl_eq_some.mpr ⟨known, rfl⟩, ?_, ?_⟩
  · intro other tokenHash
    rw [loadAclHash_withAcl]
    rfl
  · intro other
    exact mem_insertMailbox

/-- A registration is refused, or gives its caller full rows in the group's mailboxes. -/
theorem registerGroup_cases (env : CallEnv P) (auth : AuthToken) (group : GroupId P)
    (db : ServerDb P) :
    (¬(env.dbFails = false ∧ db.authTokenExists auth = true) ∧
        (db.registerGroup env auth group).1 = db) ∨
      ((env.dbFails = false ∧ db.authTokenExists auth = true) ∧
        (∀ mailbox tokenHash, (db.registerGroup env auth group).1.loadAclHash mailbox tokenHash =
          if mailbox ∈ group.mailboxes ∧ tokenHash = P.bcsHash auth then
            some ControlledServer.fullRights
          else db.loadAclHash mailbox tokenHash) ∧
        ∀ mailbox, mailbox ∈ (db.registerGroup env auth group).1.mailboxes ↔
          mailbox ∈ group.mailboxes ∨ mailbox ∈ db.mailboxes) := by
  rw [registerGroup]
  by_cases fails : env.dbFails = true
  · simp [fails]
  rw [Bool.not_eq_true] at fails
  by_cases known : db.authTokenExists auth = true
  · obtain ⟨middle, messages, middleRows, middleMailboxes⟩ :=
      registerMailbox_spec db env.now auth (MailboxId.groupMessages group)
    obtain ⟨next, management, rows, mailboxes⟩ :=
      registerMailbox_spec middle env.now auth (MailboxId.groupManagement group)
    refine Or.inr ⟨⟨fails, known⟩, ?_, ?_⟩
    · intro mailbox tokenHash
      simp only [fails, known, messages, management, Bool.not_true, Bool.false_eq_true, if_false]
      rw [rows, middleRows]
      simp only [GroupId.mailboxes, List.mem_cons, List.not_mem_nil, or_false]
      by_cases own : tokenHash = P.bcsHash auth
      · by_cases first : mailbox = MailboxId.groupMessages group <;> simp [own, first]
      · simp [own]
    · intro mailbox
      simp only [fails, known, messages, management, Bool.not_true, Bool.false_eq_true, if_false]
      rw [mailboxes, middleMailboxes]
      simp only [GroupId.mailboxes, List.mem_cons, List.not_mem_nil, or_false]
      rw [← or_assoc, or_comm (a := mailbox = MailboxId.groupManagement group)]
  · simp [fails, known]

/-- The row is as it was, or a new one which does not allow edits. -/
def Harmless (before after : ServerDb P) : Prop :=
  (∀ mailbox tokenHash, after.loadAclHash mailbox tokenHash = before.loadAclHash mailbox tokenHash ∨
    mailbox ∈ after.mailboxes ∧
      ∃ rights, after.loadAclHash mailbox tokenHash = some rights ∧ rights.canEditAcl = false) ∧
  ∀ mailbox ∈ before.mailboxes, mailbox ∈ after.mailboxes

theorem Harmless.refl (db : ServerDb P) : Harmless db db := ⟨fun _ _ => Or.inl rfl, fun _ => id⟩

theorem Harmless.trans {first second third : ServerDb P} (before : Harmless first second)
    (after : Harmless second third) : Harmless first third := by
  refine ⟨?_, fun mailbox listed => after.2 mailbox (before.2 mailbox listed)⟩
  intro mailbox tokenHash
  rcases after.1 mailbox tokenHash with same | new
  · rcases before.1 mailbox tokenHash with earlier | ⟨listed, rights, row, mayNot⟩
    · exact Or.inl (same.trans earlier)
    · exact Or.inr ⟨after.2 mailbox listed, rights, same.trans row, mayNot⟩
  · exact Or.inr new

theorem harmless_of_same {before after : ServerDb P} (rows : after.mailboxAcl = before.mailboxAcl)
    (mailboxes : after.mailboxes = before.mailboxes) : Harmless before after := by
  refine ⟨fun mailbox tokenHash => Or.inl ?_, fun _ listed => mailboxes ▸ listed⟩
  rw [loadAclHash, rows, loadAclHash]

theorem harmless_insertMailbox (db : ServerDb P) (mailbox : MailboxId P) (now : NanoTimestamp) :
    Harmless db (db.insertMailbox mailbox now) :=
  ⟨fun _ _ => Or.inl rfl, fun _ listed => mem_insertMailbox.mpr (Or.inr listed)⟩

theorem harmless_insertAcl {db next : ServerDb P} {mailbox : MailboxId P} {acl : MailboxAcl P}
    (mayNot : acl.rights.canEditAcl = false) (inserted : db.insertAcl mailbox acl = some next) :
    Harmless db next := by
  obtain ⟨known, rfl⟩ := insertAcl_eq_some.mp inserted
  refine ⟨?_, fun _ listed => listed⟩
  intro other tokenHash
  rw [loadAclHash_withAcl]
  split
  · rename_i same
    exact Or.inr ⟨same.1 ▸ known, acl.rights, rfl, mayNot⟩
  · exact Or.inl rfl

theorem harmless_updateDmMailbox {db next : ServerDb P} {now : NanoTimestamp} {username : UserName}
    {newToken : Option AuthToken} (updated : db.updateDmMailbox now username newToken = some next) :
    Harmless db next := by
  simp only [updateDmMailbox] at updated
  split at updated
  · cases updated
  · rename_i middle inserted
    have first : Harmless db middle :=
      (harmless_insertMailbox db (MailboxId.direct username) now).trans
        (harmless_insertAcl rfl inserted)
    split at updated
    · cases updated
      exact first
    · exact first.trans (harmless_insertAcl rfl updated)

/-- A device which authenticates changes nobody's control. -/
theorem harmless_deviceAuth (config : ServerConfig) (env : CallEnv P) (username : UserName)
    (cert : CertificateChain P) (db : ServerDb P) :
    Harmless db (db.deviceAuth config env username cert).1 := by
  simp only [deviceAuth]
  split
  · exact .refl db
  · split
    · exact .refl db
    · split
      · split
        · exact .refl db
        · rename_i updated
          refine Harmless.trans ?_ (harmless_updateDmMailbox updated)
          exact harmless_of_same rfl rfl
      · split
        · exact .refl db
        · rename_i updated
          refine Harmless.trans ?_ (harmless_updateDmMailbox updated)
          exact harmless_of_same rfl rfl

/-- The ACL rows and the mailboxes are the same. -/
def SameAcl (before after : ServerDb P) : Prop :=
  after.mailboxAcl = before.mailboxAcl ∧ after.mailboxes = before.mailboxes

/-- Where rights and keys are settled, the rows are the same. -/
theorem Settled.sameAcl {before after : ServerDb P} (settled : Settled before after) :
    SameAcl before after :=
  ⟨settled.mailboxAcl, settled.mailboxes⟩

/-- Three calls write ACL rows. -/
theorem sameAcl_handle (config : ServerConfig) (env : CallEnv P) (db : ServerDb P)
    {request : ServerRequest P} (noAuth : ∀ username cert, request ≠ .deviceAuth username cert)
    (noEdit : ∀ auth mailbox arg, request ≠ .mailboxAclEdit auth mailbox arg)
    (noRegister : ∀ auth group, request ≠ .registerGroup auth group) :
    SameAcl db (db.handle config env request).1 := by
  cases request with
  | deviceAuth username cert => exact absurd rfl (noAuth username cert)
  | mailboxAclEdit auth mailbox arg => exact absurd rfl (noEdit auth mailbox arg)
  | registerGroup auth group => exact absurd rfl (noRegister auth group)
  | deviceAddMediumPk auth mediumPk =>
      simp only [handle, deviceAddMediumPk]
      repeat' split
      all_goals exact ⟨rfl, rfl⟩
  | _ => exact Settled.sameAcl (settled_handle config env db rfl)

/-- Only edits and registrations write rows which allow edits. -/
theorem harmless_handle (config : ServerConfig) (env : CallEnv P) (db : ServerDb P)
    {request : ServerRequest P} (noEdit : ∀ auth mailbox arg, request ≠ .mailboxAclEdit auth mailbox arg)
    (noRegister : ∀ auth group, request ≠ .registerGroup auth group) :
    Harmless db (db.handle config env request).1 := by
  by_cases auth : ∃ username cert, request = .deviceAuth username cert
  · obtain ⟨username, cert, rfl⟩ := auth
    exact harmless_deviceAuth config env username cert db
  · have same := sameAcl_handle config env db
      (fun username cert equal => auth ⟨username, cert, equal⟩) noEdit noRegister
    exact harmless_of_same same.1 same.2

end ServerDb

namespace ControlledServer

/-- Rows belong to mailboxes which exist. -/
def Rowed (state : ControlledServer P) : Prop :=
  ∀ mailbox tokenHash rights, state.db.loadAclHash mailbox tokenHash = some rights →
    mailbox ∈ state.db.mailboxes

theorem rowed_fresh : (fresh (P := P)).Rowed := by
  intro mailbox tokenHash rights row
  simp [fresh, ServerDb.empty, ServerDb.loadAclHash] at row

/-- A harmless change leaves no row without a mailbox. -/
theorem rowed_of_harmless {before after : ServerDb P} (harmless : before.Harmless after)
    (rowed : ∀ mailbox tokenHash rights, before.loadAclHash mailbox tokenHash = some rights →
      mailbox ∈ before.mailboxes) :
    ∀ mailbox tokenHash rights, after.loadAclHash mailbox tokenHash = some rights →
      mailbox ∈ after.mailboxes := by
  intro mailbox tokenHash rights row
  rcases harmless.1 mailbox tokenHash with same | ⟨known, _⟩
  · exact harmless.2 mailbox (rowed mailbox tokenHash rights (same.symm.trans row))
  · exact known

/-- Every step leaves each row with its mailbox. -/
theorem Rowed.step {config : ServerConfig} {state next : ControlledServer P}
    {call : CallEnv P × ServerRequest P} (rowed : state.Rowed)
    (taken : (machine config).step state call = some next) : next.Rowed := by
  cases taken
  obtain ⟨env, request⟩ := call
  by_cases edit : ∃ auth mailbox arg, request = .mailboxAclEdit auth mailbox arg
  · obtain ⟨auth, mailbox, arg, rfl⟩ := edit
    simp only [Rowed, ServerDb.handle]
    rcases state.db.mailboxAclEdit_cases env auth mailbox arg with
      ⟨_, outcome⟩ | ⟨writes, outcome⟩ | ⟨_, _, outcome⟩
    · rw [outcome]
      intro other tokenHash rights row
      rw [ServerDb.loadAclHash_deleteAcl] at row
      split at row
      · cases row
      · exact rowed other tokenHash rights row
    · rw [outcome]
      intro other tokenHash rights row
      rw [ServerDb.loadAclHash_withAcl] at row
      split at row
      · rename_i same
        exact same.1 ▸ writes.2.1
      · exact rowed other tokenHash rights row
    · rw [outcome]
      exact rowed
  by_cases register : ∃ auth group, request = .registerGroup auth group
  · obtain ⟨auth, group, rfl⟩ := register
    simp only [Rowed, ServerDb.handle]
    rcases state.db.registerGroup_cases env auth group with ⟨_, outcome⟩ | ⟨_, rows, mailboxes⟩
    · rw [outcome]
      exact rowed
    · intro mailbox tokenHash rights row
      rw [rows] at row
      split at row
      · rename_i own
        exact (mailboxes mailbox).mpr (Or.inl own.1)
      · exact (mailboxes mailbox).mpr (Or.inr (rowed mailbox tokenHash rights row))
  · exact rowed_of_harmless (ServerDb.harmless_handle config env state.db
      (fun auth mailbox arg same => edit ⟨auth, mailbox, arg, same⟩)
      (fun auth group same => register ⟨auth, group, same⟩)) rowed

/-- Every token's row which allows edits is delegated. -/
def RowsDelegated (db : ServerDb P) (granted : List (Grant P)) (mailbox : MailboxId P) : Prop :=
  ∀ (token : AuthToken) rights, db.loadAclHash mailbox (P.bcsHash token) = some rights →
    rights.canEditAcl = true → delegated mailbox granted (P.bcsHash token) = true

/-- Whoever may edit has this from a delegated row, when all rows which allow it are. -/
theorem rowsDelegated_iff {db : ServerDb P} {granted : List (Grant P)} {mailbox : MailboxId P} :
    RowsDelegated db granted mailbox ↔ ∀ token, (db.aclForToken mailbox token).canEditAcl = true →
      delegated mailbox granted (db.sourceHash mailbox token) = true := by
  constructor
  · intro rows token editor
    rw [ServerDb.sourceHash]
    cases own : db.loadAclHash mailbox (P.bcsHash token) with
    | some rights =>
        rw [ServerDb.aclForToken_own own] at editor
        exact rows token rights own editor
    | none =>
        rw [ServerDb.aclForToken_anonymous own] at editor
        cases row : db.loadAclHash mailbox (P.bcsHash AuthToken.anonymous) with
        | some rights =>
            rw [ServerDb.aclForToken_own row] at editor
            exact rows .anonymous rights row editor
        | none =>
            rw [ServerDb.aclForToken_eq, row] at editor
            exact absurd editor Bool.false_ne_true
  · intro effective token rights row editor
    have held := effective token
    rw [ServerDb.aclForToken_own row, ServerDb.sourceHash, row] at held
    exact held editor

/-- A group is controlled when the rows of its two mailboxes are delegated. -/
theorem controlled_iff {state : ControlledServer P} :
    state.Controlled ↔ ∀ group : GroupId P, ∀ mailbox ∈ group.mailboxes,
      mailbox ∈ state.db.mailboxes → RowsDelegated state.db state.granted mailbox := by
  simp only [Controlled, rowsDelegated_iff]

/-- What is unchanged stays delegated, whatever the call wrote besides. -/
theorem RowsDelegated.unchanged {before after : ServerDb P} {granted : List (Grant P)}
    {mailbox : MailboxId P} (rows : RowsDelegated before granted mailbox) {token : AuthToken}
    {rights : AclRights} {request : ServerRequest P}
    (same : after.loadAclHash mailbox (P.bcsHash token) =
      before.loadAclHash mailbox (P.bcsHash token))
    (row : after.loadAclHash mailbox (P.bcsHash token) = some rights)
    (editor : rights.canEditAcl = true) :
    delegated mailbox (before.grantsOf after request ++ granted) (P.bcsHash token) = true := by
  rw [delegated_skip (ServerDb.grantsOf_apart same)]
  exact rows token rights (same.symm.trans row) editor

/-- An edit keeps the rows of a mailbox delegated. -/
theorem RowsDelegated.edit {db : ServerDb P} {granted : List (Grant P)} {mailbox : MailboxId P}
    (rows : RowsDelegated db granted mailbox) (env : CallEnv P) (auth : AuthToken)
    (edited : MailboxId P) (arg : MailboxAcl P) :
    RowsDelegated (db.mailboxAclEdit env auth edited arg).1
      (db.grantsOf (db.mailboxAclEdit env auth edited arg).1 (.mailboxAclEdit auth edited arg) ++
        granted) mailbox := by
  intro token rights row editor
  rcases db.mailboxAclEdit_cases env auth edited arg with
    ⟨_, outcome⟩ | ⟨writes, outcome⟩ | ⟨_, _, outcome⟩
  · rw [outcome] at row ⊢
    refine rows.unchanged ?_ row editor
    rw [ServerDb.loadAclHash_deleteAcl] at row ⊢
    split at row
    · cases row
    · rename_i apart
      rw [if_neg apart]
  · rw [outcome] at row ⊢
    have after := db.loadAclHash_withAcl edited mailbox arg (P.bcsHash token)
    by_cases here : mailbox = edited ∧ P.bcsHash token = arg.tokenHash
    · obtain ⟨rfl, named⟩ := here
      rw [if_pos ⟨rfl, named⟩] at after
      obtain rfl := Option.some.inj (row.symm.trans after)
      have new : db.grantsOf (db.withAcl mailbox arg) (.mailboxAclEdit auth mailbox arg) =
          [⟨mailbox, arg.tokenHash, if (db.aclForToken mailbox auth).canEditAcl then
            .edited (db.sourceHash mailbox auth) else .shared⟩] := by
        rw [named] at after
        simp only [ServerDb.grantsOf, ServerDb.written, after, Ne.symm writes.2.2.2.1, if_false,
          Option.isNone_some, Bool.false_eq_true]
      have mayEdit : (db.aclForToken mailbox auth).canEditAcl = true := by
        rcases writes.2.2.2.2 with may | ⟨_, within⟩
        · exact may
        · exact within .editAcl editor
      rw [new, mayEdit, if_pos rfl, named, List.singleton_append, delegated, if_pos ⟨rfl, rfl⟩]
      exact rowsDelegated_iff.mp rows auth mayEdit
    · rw [if_neg here] at after
      exact rows.unchanged after row editor
  · rw [outcome] at row ⊢
    exact rows.unchanged rfl row editor

/-- A registration keeps the rows of a mailbox delegated, unless it takes the mailbox over. -/
theorem RowsDelegated.register {db : ServerDb P} {granted : List (Grant P)} {mailbox : MailboxId P}
    (rows : RowsDelegated db granted mailbox)
    (rowed : ∀ tokenHash rights, db.loadAclHash mailbox tokenHash = some rights →
      mailbox ∈ db.mailboxes)
    (env : CallEnv P) (auth : AuthToken) (group : GroupId P)
    (anew : env.dbFails = false → db.authTokenExists auth = true → mailbox ∈ group.mailboxes →
      mailbox ∈ db.mailboxes → db.loadAclHash mailbox (P.bcsHash auth) = some fullRights) :
    RowsDelegated (db.registerGroup env auth group).1
      (db.grantsOf (db.registerGroup env auth group).1 (.registerGroup auth group) ++ granted)
      mailbox := by
  intro token rights row editor
  rcases db.registerGroup_cases env auth group with ⟨_, outcome⟩ | ⟨accepted, after, _⟩
  · rw [outcome] at row ⊢
    exact rows.unchanged rfl row editor
  · by_cases here : mailbox ∈ group.mailboxes ∧ P.bcsHash token = P.bcsHash auth
    · have full := after mailbox (P.bcsHash token)
      rw [if_pos here] at full
      by_cases known : mailbox ∈ db.mailboxes
      · have already := anew accepted.1 accepted.2 here.1 known
        rw [← here.2] at already
        exact rows.unchanged (full.trans already.symm) row editor
      · have absent : db.loadAclHash mailbox (P.bcsHash token) = none := by
          by_contra present
          obtain ⟨earlier, found⟩ := Option.ne_none_iff_exists'.mp present
          exact known (rowed _ earlier found)
        refine (delegated_registered .founded (Or.inl rfl) ?_ ?_).mpr rfl
        · intro grant listed same _
          obtain ⟨other, _, _, _, rfl⟩ := ServerDb.mem_grantsOf_registerGroup.mp listed
          obtain rfl : other = mailbox := same
          exact if_neg known
        · refine ⟨_, ServerDb.mem_grantsOf_registerGroup.mpr ⟨mailbox, here.1, ?_, ?_, rfl⟩,
            rfl, here.2.symm⟩
          · rw [← here.2, full, absent]
            exact Option.some_ne_none _
          · rw [← here.2, full]
            rfl
    · have same := after mailbox (P.bcsHash token)
      rw [if_neg here] at same
      exact rows.unchanged same row editor

/-- A registration which takes a mailbox over leaves a row which is not delegated. -/
theorem not_delegated_of_taken {db : ServerDb P} {granted : List (Grant P)}
    {mailbox : MailboxId P} {env : CallEnv P} {auth : AuthToken} {group : GroupId P}
    (accepted : env.dbFails = false ∧ db.authTokenExists auth = true)
    (listed : mailbox ∈ group.mailboxes) (known : mailbox ∈ db.mailboxes)
    (lesser : db.loadAclHash mailbox (P.bcsHash auth) ≠ some fullRights) :
    ¬RowsDelegated (db.registerGroup env auth group).1
      (db.grantsOf (db.registerGroup env auth group).1 (.registerGroup auth group) ++ granted)
      mailbox := by
  rcases db.registerGroup_cases env auth group with ⟨refused, _⟩ | ⟨_, after, _⟩
  · exact absurd accepted refused
  · have full := after mailbox (P.bcsHash auth)
    rw [if_pos ⟨listed, rfl⟩] at full
    intro rows
    have held := rows auth fullRights full rfl
    rw [delegated_registered .taken (Or.inr rfl)] at held
    · simp at held
    · intro grant member same _
      obtain ⟨other, _, _, _, rfl⟩ := ServerDb.mem_grantsOf_registerGroup.mp member
      obtain rfl : other = mailbox := same
      exact if_pos known
    · refine ⟨_, ServerDb.mem_grantsOf_registerGroup.mpr ⟨mailbox, listed, ?_, ?_, rfl⟩, rfl, rfl⟩
      · rw [full]
        exact lesser.symm
      · rw [full]
        rfl

/-- A step leaves control with the delegates exactly when it meets the guard. -/
theorem controlled_step {config : ServerConfig} {state next : ControlledServer P}
    {call : CallEnv P × ServerRequest P} (rowed : state.Rowed) (controlled : state.Controlled)
    (taken : (machine config).step state call = some next) :
    next.Controlled ↔ RegistersAnew state call := by
  cases taken
  obtain ⟨env, request⟩ := call
  -- a mailbox which is about to be created has no rows yet
  have before : ∀ group : GroupId P, ∀ mailbox ∈ group.mailboxes,
      RowsDelegated state.db state.granted mailbox := by
    intro group mailbox listed token rights row
    exact controlled_iff.mp controlled group mailbox listed (rowed _ _ _ row) token rights row
  rw [controlled_iff]
  by_cases edit : ∃ auth mailbox arg, request = .mailboxAclEdit auth mailbox arg
  · obtain ⟨auth, edited, arg, rfl⟩ := edit
    refine iff_of_true ?_ ?_
    · intro group mailbox listed _
      exact (before group mailbox listed).edit env auth edited arg
    · rintro _ _ ⟨⟩
  by_cases register : ∃ auth group, request = .registerGroup auth group
  · obtain ⟨auth, registered, rfl⟩ := register
    constructor
    · rintro rows _ _ ⟨⟩ works token mailbox listed known
      by_contra lesser
      have exists' : mailbox ∈ (state.db.registerGroup env auth registered).1.mailboxes := by
        rcases state.db.registerGroup_cases env auth registered with
          ⟨_, outcome⟩ | ⟨_, _, mailboxes⟩
        · rw [outcome]
          exact known
        · exact (mailboxes mailbox).mpr (Or.inr known)
      exact not_delegated_of_taken ⟨works, token⟩ listed known lesser
        (rows registered mailbox listed exists')
    · intro anew group mailbox listed _
      refine (before group mailbox listed).register (fun _ _ row => rowed _ _ _ row) env auth
        registered ?_
      intro works token inGroup known
      exact anew auth registered rfl works token mailbox inGroup known
  · have noEdit : ∀ auth mailbox arg, request ≠ .mailboxAclEdit auth mailbox arg :=
      fun auth mailbox arg same => edit ⟨auth, mailbox, arg, same⟩
    have noRegister : ∀ auth group, request ≠ .registerGroup auth group :=
      fun auth group same => register ⟨auth, group, same⟩
    have harmless := ServerDb.harmless_handle config env state.db noEdit noRegister
    refine iff_of_true ?_ fun auth group same => absurd same (noRegister auth group)
    intro group mailbox listed _ token rights row editor
    rcases harmless.1 mailbox (P.bcsHash token) with same | ⟨_, new, found, mayNot⟩
    · exact (before group mailbox listed).unchanged same row editor
    · cases row.symm.trans found
      rw [mayNot] at editor
      exact absurd editor Bool.false_ne_true

/-- A caller who may not edit and has no row of its own gains nothing by an edit. -/
theorem edit_gainsNothing {db : ServerDb P} {env : CallEnv P} {auth : AuthToken}
    {mailbox edited : MailboxId P} {arg : MailboxAcl P}
    (absent : db.loadAclHash mailbox (P.bcsHash auth) = none)
    (mayNot : (db.aclForToken mailbox auth).canEditAcl = false) :
    (db.mailboxAclEdit env auth edited arg).1.aclForToken mailbox auth ≤
      db.aclForToken mailbox auth := by
  rcases db.mailboxAclEdit_cases env auth edited arg with
    ⟨removes, outcome⟩ | ⟨writes, outcome⟩ | ⟨_, _, outcome⟩
  · rw [outcome, ServerDb.aclForToken_eq, ServerDb.aclForToken_eq, ServerDb.loadAclHash_deleteAcl,
      ServerDb.loadAclHash_deleteAcl, absent, ite_self]
    by_cases shared : mailbox = edited ∧ P.bcsHash AuthToken.anonymous = arg.tokenHash
    · rw [if_pos shared]
      exact AclRights.empty_le _
    · rw [if_neg shared]
  · rw [outcome]
    by_cases here : mailbox = edited
    · subst here
      have within : arg.rights ≤ db.aclForToken mailbox auth := by
        rcases writes.2.2.2.2 with may | ⟨_, within⟩
        · rw [mayNot] at may
          exact absurd may Bool.false_ne_true
        · exact within
      rw [ServerDb.aclForToken_eq (db.withAcl mailbox arg), ServerDb.loadAclHash_withAcl,
        ServerDb.loadAclHash_withAcl, absent]
      by_cases own : P.bcsHash auth = arg.tokenHash
      · rw [if_pos ⟨rfl, own⟩]
        exact within
      · rw [if_neg fun same => own same.2, Option.none_or]
        by_cases shared : P.bcsHash AuthToken.anonymous = arg.tokenHash
        · rw [if_pos ⟨rfl, shared⟩]
          exact within
        · rw [if_neg fun same => shared same.2, ServerDb.aclForToken_eq, absent, Option.none_or]
    · rw [ServerDb.aclForToken_eq, ServerDb.aclForToken_eq, ServerDb.loadAclHash_withAcl,
        ServerDb.loadAclHash_withAcl, if_neg fun same => here same.1, if_neg fun same => here same.1]
  · rw [outcome]

/-- Under the guard, a token without a row gains nothing. -/
theorem gainsNothing_of_anew {config : ServerConfig} {state : ControlledServer P}
    {call : CallEnv P × ServerRequest P} (anew : RegistersAnew state call) :
    GainsNothing config state call := by
  obtain ⟨env, request⟩ := call
  intro auth presented group mailbox listed known absent mayNot
  by_cases edit : ∃ caller edited arg, request = .mailboxAclEdit caller edited arg
  · obtain ⟨caller, edited, arg, rfl⟩ := edit
    obtain rfl := List.mem_singleton.mp presented
    exact edit_gainsNothing absent mayNot
  by_cases register : ∃ caller registered, request = .registerGroup caller registered
  · obtain ⟨caller, registered, rfl⟩ := register
    obtain rfl := List.mem_singleton.mp presented
    simp only [ServerDb.handle]
    rcases state.db.registerGroup_cases env auth registered with
      ⟨_, outcome⟩ | ⟨⟨works, token⟩, rows, _⟩
    · rw [outcome]
    · have outside : mailbox ∉ registered.mailboxes := by
        intro inside
        have full := anew auth registered rfl works token mailbox inside known
        rw [absent] at full
        cases full
      rw [ServerDb.aclForToken_eq, ServerDb.aclForToken_eq, rows, rows,
        if_neg fun same => outside same.1, if_neg fun same => outside same.1]
  · have noAuth : ∀ username cert, request ≠ .deviceAuth username cert := by
      rintro username cert rfl
      exact List.not_mem_nil presented
    have same := ServerDb.sameAcl_handle config env state.db noAuth
      (fun caller edited arg equal => edit ⟨caller, edited, arg, equal⟩)
      (fun caller registered equal => register ⟨caller, registered, equal⟩)
    rw [ServerDb.aclForToken_eq, ServerDb.aclForToken_eq, ServerDb.loadAclHash,
      ServerDb.loadAclHash, same.1]
    rfl

/-- Control of every group's mailboxes stays with the delegates of its first registration,
exactly in the runs in which no accepted registration takes a mailbox over. -/
theorem keepsControl_iff (config : ServerConfig) (calls : List (CallEnv P × ServerRequest P)) :
    KeepsControl config fresh calls ↔ (machine config).Along RegistersAnew fresh calls := by
  have controlled : (machine (P := P) config).Always Controlled fresh calls ↔
      (machine config).Along RegistersAnew fresh calls :=
    Machine.always_iff_along_within Rowed (fun rowed taken => rowed.step taken)
      (fun rowed held taken => controlled_step rowed held taken) rowed_fresh
      fun _ _ _ known => absurd known (AList.notMem_empty _)
  constructor
  · intro keeps
    exact controlled.mp keeps.controlled
  · intro along
    refine ⟨controlled.mpr along, ?_⟩
    intro before call position state next reached taken
    exact gainsNothing_of_anew (along before call position state next reached taken)

/-- A call to which the directory answers. -/
def answeredEnv (freshToken : AuthToken) : CallEnv symbolic :=
  { WatchedServer.envWith freshToken with descriptor := fun name => some (symbolicDirectory name) }

def knownGroup : GroupId symbolic := ⟨[7]⟩

/-- Alice registers a group. Bobby, who has a token and knows the group's id, registers it again. -/
def takenRun : List (CallEnv symbolic × ServerRequest symbolic) :=
  [(answeredEnv (WatchedServer.tokenOf 1), .deviceAuth alice (rootChain 1 100)),
    (answeredEnv (WatchedServer.tokenOf 2), .deviceAuth bobby (rootChain 2 100)),
    (answeredEnv (WatchedServer.tokenOf 3), .registerGroup (WatchedServer.tokenOf 1) knownGroup),
    (answeredEnv (WatchedServer.tokenOf 3), .registerGroup (WatchedServer.tokenOf 2) knownGroup)]

/-- In the run Bobby gets control of Alice's group. -/
theorem takenRun_breaks : ¬KeepsControl WatchedServer.exampleServer fresh takenRun := by
  intro keeps
  have ends : ((machine WatchedServer.exampleServer).exec fresh takenRun).map (fun state =>
      (decide (MailboxId.groupMessages knownGroup ∈ state.db.mailboxes),
        (state.db.aclForToken (MailboxId.groupMessages knownGroup)
          (WatchedServer.tokenOf 2)).canEditAcl,
        delegated (MailboxId.groupMessages knownGroup) state.granted
          (state.db.sourceHash (MailboxId.groupMessages knownGroup) (WatchedServer.tokenOf 2)))) =
      some (true, true, false) := by decide +kernel
  obtain ⟨state, reached, held⟩ := Option.map_eq_some_iff.mp ends
  simp only [Prod.mk.injEq, decide_eq_true_eq] at held
  obtain ⟨known, editor, foreign⟩ := held
  have control := keeps.controlled.last reached knownGroup (MailboxId.groupMessages knownGroup)
    List.mem_cons_self known (WatchedServer.tokenOf 2) editor
  rw [foreign] at control
  exact Bool.false_ne_true control

end ControlledServer
end Nullspace
