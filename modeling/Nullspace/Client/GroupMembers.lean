import Nullspace.Client.GroupRows
import Nullspace.Server.Control
import Nullspace.Server.DeviceTokens

/-!
# The members of a group

A member is whoever has a token with a row of its own in both mailboxes of the group. Nobody
keeps a list of them: a token may be handed on by each member to anybody, and only the ACL at
the server says which tokens there are. `admitted_of_considerate` says in which runs everybody
who has a group or an invite to it is a member.
-/

namespace Nullspace

open Nullspace.Base

variable {P : Primitives}

/-- The rights which an invite brings. -/
def AclRights.member : AclRights := ⟨false, true, true⟩

/-- Rights are a member's when they allow sending and receiving. -/
theorem AclRights.member_le {rights : AclRights} :
    member ≤ rights ↔ rights.canSend = true ∧ rights.canRecv = true := by
  rw [le_iff]
  constructor
  · intro within
    exact ⟨within .send rfl, within .recv rfl⟩
  · rintro ⟨sends, receives⟩ right held
    cases right with
    | editAcl => cases held
    | send => exact sends
    | recv => exact receives

namespace ServerDb

/-- The token may post to the mailbox and read it, by a row of its own. -/
structure Opens (db : ServerDb P) (mailbox : MailboxId P) (token : AuthToken) : Prop where
  known : mailbox ∈ db.mailboxes
  row : ∃ rights, db.loadAclHash mailbox (P.bcsHash token) = some rights ∧
    AclRights.member ≤ rights

/-- A token which opens a mailbox has a member's rights there. -/
theorem Opens.rights {db : ServerDb P} {mailbox : MailboxId P} {token : AuthToken}
    (opens : db.Opens mailbox token) : AclRights.member ≤ db.aclForToken mailbox token := by
  obtain ⟨rights, own, within⟩ := opens.row
  rw [aclForToken_own own]
  exact within

/-- The call leaves the token a member's rights, if it is an edit of its row which the server
would take: one with the token itself, or one by whoever may edit. -/
def LeavesRow (db : ServerDb P) (request : ServerRequest P) (mailbox : MailboxId P)
    (token : AuthToken) : Prop :=
  ∀ auth arg, request = .mailboxAclEdit auth mailbox arg → arg.tokenHash = P.bcsHash token →
    (auth = token ∨ (db.aclForToken mailbox auth).canEditAcl = true) →
      AclRights.member ≤ arg.rights

instance (db : ServerDb P) (request : ServerRequest P) (mailbox : MailboxId P)
    (token : AuthToken) : Decidable (db.LeavesRow request mailbox token) :=
  match request with
  | .mailboxAclEdit auth other arg =>
      decidable_of_iff
        (other = mailbox → arg.tokenHash = P.bcsHash token →
          (auth = token ∨ (db.aclForToken mailbox auth).canEditAcl = true) →
            arg.rights.canSend = true ∧ arg.rights.canRecv = true) <| by
        constructor
        · rintro leaves _ _ ⟨⟩ named whose
          exact AclRights.member_le.mpr (leaves rfl named whose)
        · rintro leaves rfl named whose
          exact AclRights.member_le.mp (leaves auth arg rfl named whose)
  | .deviceAuth .. | .deviceCerts .. | .deviceMediumPks .. | .profile .. | .profileSet ..
  | .deviceAddMediumPk .. | .mailboxSend .. | .mailboxMultirecv .. | .registerGroup ..
  | .proxyServer .. | .proxyDirectory .. | .uploadFrag .. | .downloadFrag .. => isTrue nofun

/-- An edit which leaves the row leaves it open. -/
theorem Opens.edit (free : P.CollisionFree) {db : ServerDb P} {mailbox : MailboxId P}
    {token : AuthToken} (opens : db.Opens mailbox token) (env : CallEnv P) {auth : AuthToken}
    {other : MailboxId P} {arg : MailboxAcl P}
    (leaves : db.LeavesRow (.mailboxAclEdit auth other arg) mailbox token) :
    (db.mailboxAclEdit env auth other arg).1.Opens mailbox token := by
  obtain ⟨rights, own, within⟩ := opens.row
  rcases mailboxAclEdit_cases db env auth other arg with
    ⟨removes, outcome⟩ | ⟨writes, outcome⟩ | ⟨_, _, outcome⟩
  · rw [outcome]
    refine ⟨opens.known, rights, ?_, within⟩
    rw [loadAclHash_deleteAcl, if_neg, own]
    rintro ⟨rfl, named⟩
    have same : auth = token := free.bcsHash_inj.mp (removes.2.1.symm.trans named.symm)
    have kept := leaves auth arg rfl named.symm (Or.inl same)
    rw [removes.2.2] at kept
    exact absurd (kept .send rfl) Bool.false_ne_true
  · rw [outcome]
    refine ⟨opens.known, ?_⟩
    rw [loadAclHash_withAcl]
    by_cases named : mailbox = other ∧ P.bcsHash token = arg.tokenHash
    · rw [if_pos named]
      obtain ⟨rfl, hash⟩ := named
      refine ⟨arg.rights, rfl, ?_⟩
      rcases writes.2.2.2.2 with editor | ⟨absent, _⟩
      · exact leaves auth arg rfl hash.symm (Or.inr editor)
      · rw [← hash, own] at absent
        cases absent
    · rw [if_neg named]
      exact ⟨rights, own, within⟩
  · rw [outcome]
    exact opens

/-- A registration leaves every row as open as it was. -/
theorem Opens.register {db : ServerDb P} {mailbox : MailboxId P} {token : AuthToken}
    (opens : db.Opens mailbox token) (env : CallEnv P) (auth : AuthToken) (group : GroupId P) :
    (db.registerGroup env auth group).1.Opens mailbox token := by
  obtain ⟨rights, own, within⟩ := opens.row
  rcases registerGroup_cases env auth group db with ⟨_, same⟩ | ⟨_, rows, mailboxes⟩
  · rw [same]
    exact opens
  · refine ⟨(mailboxes mailbox).mpr (Or.inr opens.known), ?_⟩
    rw [rows]
    split
    · exact ⟨ControlledServer.fullRights, rfl, AclRights.member_le.mpr ⟨rfl, rfl⟩⟩
    · exact ⟨rights, own, within⟩

/-- A device which authenticates leaves every row as open as it was. -/
theorem Opens.deviceAuth (free : P.CollisionFree) {db : ServerDb P} {mailbox : MailboxId P}
    {token : AuthToken} (opens : db.Opens mailbox token) (named : token ≠ .anonymous)
    (config : ServerConfig) (env : CallEnv P) (username : UserName) (cert : CertificateChain P) :
    (db.deviceAuth config env username cert).1.Opens mailbox token := by
  obtain ⟨rights, own, within⟩ := opens.row
  have known := (harmless_deviceAuth config env username cert db).2 mailbox opens.known
  have apart : P.bcsHash token ≠ P.bcsHash AuthToken.anonymous :=
    fun same => named (free.bcsHash_inj.mp same)
  have after : ∀ newToken, ∃ rights, db.rowAfter username newToken mailbox (P.bcsHash token) =
      some rights ∧ AclRights.member ≤ rights := by
    intro newToken
    rw [rowAfter]
    split
    · exact ⟨_, rfl, AclRights.member_le.mpr ⟨rfl, rfl⟩⟩
    · rw [if_neg fun both => apart both.2]
      exact ⟨rights, own, within⟩
  rcases deviceAuth_cases config env username cert db with
    ⟨err, refused, _⟩ | ⟨next, issued, outcome, _⟩
  · rw [refused]
    exact opens
  · rw [outcome] at known ⊢
    refine ⟨known, ?_⟩
    rcases deviceAuth_accepted outcome with ⟨_, _, rows⟩ | ⟨_, _, _, rows⟩
    · rw [rows]
      exact after none
    · rw [rows]
      exact after (some issued)

/-- A call keeps what a token may do, unless it is an edit which takes it away. -/
theorem Opens.handle (free : P.CollisionFree) {db : ServerDb P} {mailbox : MailboxId P}
    {token : AuthToken} (opens : db.Opens mailbox token) (named : token ≠ .anonymous)
    (config : ServerConfig) (env : CallEnv P) {request : ServerRequest P}
    (leaves : db.LeavesRow request mailbox token) :
    (db.handle config env request).1.Opens mailbox token := by
  by_cases quiet : (∀ username cert, request ≠ .deviceAuth username cert) ∧
      (∀ auth other arg, request ≠ .mailboxAclEdit auth other arg) ∧
      ∀ auth group, request ≠ .registerGroup auth group
  · obtain ⟨rows, mailboxes⟩ := sameAcl_handle config env db quiet.1 quiet.2.1 quiet.2.2
    refine ⟨mailboxes ▸ opens.known, ?_⟩
    rw [loadAclHash, rows]
    exact opens.row
  · cases request with
    | deviceAuth username cert => exact opens.deviceAuth free named config env username cert
    | mailboxAclEdit auth other arg => exact opens.edit free env leaves
    | registerGroup auth group => exact opens.register env auth group
    | _ => exact absurd ⟨by simp, by simp, by simp⟩ quiet

/-- An edit which the server takes leaves the row which it asks for. -/
theorem row_of_edited {db : ServerDb P} {env : CallEnv P} {auth : AuthToken}
    {mailbox : MailboxId P} {arg : MailboxAcl P} (grants : arg.rights ≠ .empty)
    (taken : (db.mailboxAclEdit env auth mailbox arg).2 = .ok ()) :
    (db.mailboxAclEdit env auth mailbox arg).1.loadAclHash mailbox arg.tokenHash =
      some arg.rights := by
  have keeps : ¬(arg.tokenHash = P.bcsHash auth ∧ aclIsEmpty arg.rights = true) :=
    fun gives => grants (aclIsEmpty_iff.mp gives.2)
  revert taken
  simp only [mailboxAclEdit, if_neg keeps]
  split
  · intro taken
    cases taken
  · split
    · rename_i row
      exact fun _ => row
    · split
      · intro taken
        cases taken
      · split
        · intro taken
          cases taken
        · rename_i next inserted
          intro _
          obtain ⟨_, rfl⟩ := insertAcl_eq_some.mp inserted
          rw [loadAclHash_withAcl, if_pos ⟨rfl, rfl⟩]

/-- A row needs its mailbox, whatever is called. -/
theorem rowed_handle (config : ServerConfig) (env : CallEnv P) (request : ServerRequest P)
    {db : ServerDb P} (rowed : ∀ mailbox tokenHash rights,
      db.loadAclHash mailbox tokenHash = some rights → mailbox ∈ db.mailboxes) :
    ∀ mailbox tokenHash rights,
      (db.handle config env request).1.loadAclHash mailbox tokenHash = some rights →
        mailbox ∈ (db.handle config env request).1.mailboxes :=
  @ControlledServer.Rowed.step P config ⟨db, []⟩ _ (env, request) rowed rfl

end ServerDb

/-- A request which takes no member's rights away, whoever makes it. -/
def ServerRequest.Admits (request : ServerRequest P) : Prop :=
  ∀ auth mailbox arg, request = .mailboxAclEdit auth mailbox arg → AclRights.member ≤ arg.rights

/-- The edit which admits a member takes no rights away. -/
theorem admits_memberAcl (auth : AuthToken) (mailbox : MailboxId P) (canEditAcl : Bool)
    (token : AuthToken) :
    (ServerRequest.mailboxAclEdit auth mailbox (memberAcl canEditAcl token)).Admits := by
  intro _ _ _ same
  cases same
  exact AclRights.member_le.mpr ⟨rfl, rfl⟩

namespace GroupWorld

/-- The token opens one of the group's mailboxes. -/
def Opened (world : GroupWorld P) (membership : Membership P) (kind : GroupMailboxKind) : Prop :=
  (world.servers membership.server).Opens (kind.mailbox membership.group) membership.token

/-- A drawn token which opens both mailboxes. -/
structure Admits (world : GroupWorld P) (membership : Membership P) : Prop where
  drawn : membership ∈ world.drawn
  opened : ∀ kind, world.Opened membership kind

/-- An invitation by a member, with a token which was drawn for it. -/
structure Hosted (world : GroupWorld P) (invitation : Invitation P) : Prop where
  proper : invitation.group.Proper invitation.groupId
  host : world.Admits (invitation.group.membership invitation.groupId)
  drawn : invitation.membership ∈ world.drawn

/-- How far a call has got with its token. -/
def Kept (world : GroupWorld P) : GroupStage P → Prop
  | .register draft | .ownMessages draft => draft.membership ∈ world.drawn
  | .ownManagement draft =>
      draft.membership ∈ world.drawn ∧ world.Opened draft.membership .messages
  | .store draft => world.Admits draft.membership
  | .admitMessages invitation => world.Hosted invitation
  | .admitManagement invitation =>
      world.Hosted invitation ∧ world.Opened invitation.membership .messages
  | .announce invitation | .queue invitation =>
      world.Hosted invitation ∧ world.Admits invitation.membership
  | .join _ invite => world.Admits invite.membership
  | .report _ _ => True

/-- Everybody who has a group, or is invited to it, has a token which opens its mailboxes. -/
structure Admitted (world : GroupWorld P) : Prop where
  members : ∀ client groupId group, (world.clients client).groups.lookup groupId = some group →
    world.Admits (group.membership groupId)
  invited : ∀ invite ∈ world.issued, world.Admits invite.membership

/-- The invariant: besides, each call under way has got with its token as far as it says. -/
structure Sound (world : GroupWorld P) : Prop extends Admitted world where
  rowed : ∀ server mailbox tokenHash rights,
    (world.servers server).loadAclHash mailbox tokenHash = some rights →
      mailbox ∈ (world.servers server).mailboxes
  named : ∀ membership ∈ world.drawn, membership.token ≠ .anonymous
  proper : world.RowsProper
  kept : ∀ call ∈ world.calls, world.Kept call.2

/-- The request takes no drawn token's rights away. -/
def LeavesMembers (world : GroupWorld P) (server : ServerName) (request : ServerRequest P) :
    Prop :=
  ∀ membership ∈ world.drawn, membership.server = server → ∀ kind : GroupMailboxKind,
    (world.servers server).LeavesRow request (kind.mailbox membership.group) membership.token

/-- Whoever calls a server takes no drawn token's rights away, and whoever accepts an invite
accepts one which a client has sent. -/
def Considerate (json : GroupJson P) (world : GroupWorld P) : GroupEvent P → Prop
  | .serve server _ request => world.LeavesMembers server request
  | .begin client call env => ∀ identity invite,
      (world.clients client).beginCall json env call = .ok (.join identity invite) →
        invite ∈ world.issued
  | _ => True

instance (world : GroupWorld P) (server : ServerName) (request : ServerRequest P) :
    Decidable (world.LeavesMembers server request) :=
  decidable_of_iff
    (∀ membership ∈ world.drawn, membership.server = server →
      (world.servers server).LeavesRow request (.groupMessages membership.group)
        membership.token ∧
      (world.servers server).LeavesRow request (.groupManagement membership.group)
        membership.token) <| by
    constructor
    · intro leaves membership listed here kind
      cases kind with
      | messages => exact (leaves membership listed here).1
      | management => exact (leaves membership listed here).2
    · exact fun leaves membership listed here =>
        ⟨leaves membership listed here .messages, leaves membership listed here .management⟩

instance (json : GroupJson P) (world : GroupWorld P) (event : GroupEvent P) :
    Decidable (world.Considerate json event) :=
  match event with
  | .serve server _ request => inferInstanceAs (Decidable (world.LeavesMembers server request))
  | .begin client call env =>
      match begun : (world.clients client).beginCall json env call with
      | .ok (.join _ invite) =>
          decidable_of_iff (invite ∈ world.issued)
            ⟨fun listed _ _ same => by cases begun.symm.trans same; exact listed,
              fun genuine => genuine _ invite begun⟩
      | .ok (.register _) | .ok (.ownMessages _) | .ok (.ownManagement _) | .ok (.store _)
      | .ok (.admitMessages _) | .ok (.admitManagement _) | .ok (.announce _) | .ok (.queue _)
      | .ok (.report ..) | .error _ => isTrue fun _ _ same => by cases begun.symm.trans same
  | .advance .. | .stop _ | .receive .. | .direct .. | .load .. | .other .. => isTrue trivial

/-- Every drawn token is still there and opens what it opened. -/
structure Grows (world next : GroupWorld P) : Prop where
  drawn : ∀ membership ∈ world.drawn, membership ∈ next.drawn
  opened : ∀ membership ∈ world.drawn, ∀ kind, world.Opened membership kind →
    next.Opened membership kind

theorem Grows.admits {world next : GroupWorld P} (grows : Grows world next)
    {membership : Membership P} (admits : world.Admits membership) : next.Admits membership :=
  ⟨grows.drawn membership admits.drawn,
    fun kind => grows.opened membership admits.drawn kind (admits.opened kind)⟩

theorem Grows.hosted {world next : GroupWorld P} (grows : Grows world next)
    {invitation : Invitation P} (hosted : world.Hosted invitation) : next.Hosted invitation :=
  ⟨hosted.proper, grows.admits hosted.host, grows.drawn _ hosted.drawn⟩

theorem Grows.kept {world next : GroupWorld P} (grows : Grows world next) {stage : GroupStage P}
    (kept : world.Kept stage) : next.Kept stage := by
  cases stage with
  | register draft | ownMessages draft => exact grows.drawn _ kept
  | ownManagement draft => exact ⟨grows.drawn _ kept.1, grows.opened _ kept.1 _ kept.2⟩
  | store draft => exact grows.admits kept
  | admitMessages invitation => exact grows.hosted kept
  | admitManagement invitation =>
      exact ⟨grows.hosted kept.1, grows.opened _ kept.1.drawn _ kept.2⟩
  | announce invitation | queue invitation => exact ⟨grows.hosted kept.1, grows.admits kept.2⟩
  | join identity invite => exact grows.admits kept
  | report identity groupId => trivial

theorem grows_of_eq {world next : GroupWorld P} (servers : next.servers = world.servers)
    (drawn : next.drawn = world.drawn) : Grows world next where
  drawn membership listed := drawn ▸ listed
  opened membership _ kind opened := by
    rw [Opened, servers]
    exact opened

/-- A call which takes nothing away keeps everybody's token. -/
theorem Sound.grows_serve (free : P.CollisionFree) {world : GroupWorld P} (sound : world.Sound)
    (config : ServerConfig) (env : CallEnv P) {server : ServerName} {request : ServerRequest P}
    (leaves : world.LeavesMembers server request) :
    Grows world
      (world.setServer server ((world.servers server).handle config env request).1) where
  drawn membership listed := listed
  opened membership listed kind opened := by
    rw [Opened] at opened ⊢
    by_cases here : membership.server = server
    · rw [here] at opened ⊢
      rw [setServer_same]
      exact opened.handle free (sound.named membership listed) config env
        (leaves membership listed here kind)
    · rw [setServer_of_ne here]
      exact opened

/-- A request which leaves the members keeps everybody admitted. -/
theorem Sound.serve (free : P.CollisionFree) {world : GroupWorld P} (sound : world.Sound)
    (config : ServerConfig) (env : CallEnv P) {server : ServerName} {request : ServerRequest P}
    (leaves : world.LeavesMembers server request) :
    (world.setServer server ((world.servers server).handle config env request).1).Sound := by
  have grows := sound.grows_serve free config env leaves
  refine ⟨⟨?_, ?_⟩, ?_, sound.named, sound.proper, ?_⟩
  · exact fun client groupId group found => grows.admits (sound.members client groupId group found)
  · exact fun invite listed => grows.admits (sound.invited invite listed)
  · intro other
    by_cases here : other = server
    · subst here
      rw [setServer_same]
      exact ServerDb.rowed_handle config env request (sound.rowed other)
    · rw [setServer_of_ne here]
      exact sound.rowed other
  · exact fun call listed => grows.kept (sound.kept call listed)

/-- What a step of a call leaves. -/
structure Progress (outcome : GroupWorld P × Except GroupError (Option (GroupStage P))) :
    Prop where
  sound : outcome.1.Sound
  kept : ∀ stage, outcome.2 = .ok (some stage) → outcome.1.Kept stage

/-- A step at a server: what it needs is that the next stage holds when the server takes the
request. -/
theorem Sound.called (free : P.CollisionFree) {world : GroupWorld P} (sound : world.Sound)
    {Answer : Type} {server : ServerName}
    {run : ServerDb P → ServerDb P × Except ServerRpcError Answer} (config : ServerConfig)
    (env : CallEnv P) (request : ServerRequest P) (fate : Fate)
    (runs : (run (world.servers server)).1 = ((world.servers server).handle config env request).1)
    (admits : request.Admits) {after : Option (GroupStage P)}
    (holds : ∀ stage, after = some stage → ∀ next : GroupWorld P, Grows world next →
      next.servers server = (run (world.servers server)).1 →
        (∃ answer, (run (world.servers server)).2 = .ok answer) → next.Kept stage) :
    Progress (next after (world.callServer fate server run)) := by
  have leaves : world.LeavesMembers server request :=
    fun _ _ _ _ auth arg same _ _ => admits auth _ arg same
  have served := sound.serve free config env leaves
  have grows := sound.grows_serve free config env leaves
  rw [← runs] at served grows
  rcases callServer_cases world fate server run with
    ⟨err, outcome, same | same⟩ | ⟨answer, answered, outcome⟩
  · refine ⟨by rw [next_fst, same]; exact sound, fun stage goes => ?_⟩
    obtain ⟨_, answer, answered⟩ := next_ok goes
    rw [outcome] at answered
    cases answered
  · refine ⟨by rw [next_fst, same]; exact served, fun stage goes => ?_⟩
    obtain ⟨_, answer, answered⟩ := next_ok goes
    rw [outcome] at answered
    cases answered
  · rw [outcome]
    refine ⟨served, fun stage goes => ?_⟩
    obtain ⟨same, _⟩ := next_ok goes
    exact holds stage same.symm _ grows (setServer_same world server _) ⟨answer, answered⟩

/-- A token which a server has admitted opens the mailbox. -/
theorem Sound.opened_of_admitted {world next : GroupWorld P} (sound : world.Sound)
    {env : CallEnv P} {auth : AuthToken} {membership : Membership P} {kind : GroupMailboxKind}
    {canEditAcl : Bool} (now : next.servers membership.server =
      ((world.servers membership.server).mailboxAclEdit env auth (kind.mailbox membership.group)
        (memberAcl canEditAcl membership.token)).1)
    (taken : ∃ answer, ((world.servers membership.server).mailboxAclEdit env auth
      (kind.mailbox membership.group) (memberAcl canEditAcl membership.token)).2 = .ok answer) :
    next.Opened membership kind := by
  obtain ⟨_, taken⟩ := taken
  have grants : (memberAcl (P := P) canEditAcl membership.token).rights ≠ .empty := by
    intro same
    cases same
  have row := ServerDb.row_of_edited grants taken
  have rowed := ServerDb.rowed_handle ⟨membership.server, false⟩ env
    (.mailboxAclEdit auth (kind.mailbox membership.group)
      (memberAcl canEditAcl membership.token)) (sound.rowed membership.server)
  rw [Opened, now]
  exact ⟨rowed _ _ _ row, _, row, AclRights.member_le.mpr ⟨rfl, rfl⟩⟩

/-- A client whose groups stay keeps what is known of them. -/
theorem Sound.of_sameGroups {world : GroupWorld P} (sound : world.Sound) {client : Nat}
    {db : ClientDb P} (same : (world.clients client).SameGroups db) :
    (world.setClient client db).Sound := by
  have grows : Grows world (world.setClient client db) := grows_of_eq rfl rfl
  have steady := steady_setClient world same.steady
  refine ⟨⟨?_, ?_⟩, sound.rowed, sound.named, ?_, ?_⟩
  · intro other groupId group found
    by_cases here : other = client
    · subst here
      rw [setClient_same] at found
      obtain ⟨earlier, listed, columns⟩ := same.lookup found
      have admits := grows.admits (sound.members other groupId earlier listed)
      obtain ⟨_, rest⟩ := Prod.mk.inj columns
      obtain ⟨server, token⟩ := Prod.mk.inj rest
      rw [GroupRecord.membership, server, token] at admits
      exact admits
    · rw [setClient_of_ne here] at found
      exact grows.admits (sound.members other groupId group found)
  · exact fun invite listed => grows.admits (sound.invited invite listed)
  · intro other groupId group found
    rcases (steady other).fresh groupId group found with ⟨earlier, listed, columns⟩ | proper
    · exact (sound.proper other groupId earlier listed).of_fixed columns
    · exact proper
  · exact fun call listed => grows.kept (sound.kept call listed)

/-- A client gets a new group with a token which opens its mailboxes. -/
theorem Sound.insert {world : GroupWorld P} (sound : world.Sound) {client : Nat}
    {db : ClientDb P} {groupId : GroupId P} (group : GroupRecord P) (proper : group.Proper groupId)
    (admits : world.Admits (group.membership groupId))
    (inserted : db.groups = (world.clients client).groups.insert groupId group) :
    (world.setClient client db).Sound := by
  have grows : Grows world (world.setClient client db) := grows_of_eq rfl rfl
  have rows : ∀ other id row, ((world.setClient client db).clients other).groups.lookup id =
      some row → (id = groupId ∧ row = group) ∨
        (world.clients other).groups.lookup id = some row := by
    intro other id row found
    by_cases here : other = client
    · subst here
      rw [setClient_same, inserted] at found
      exact Table.lookup_insert_cases found
    · rw [setClient_of_ne here] at found
      exact .inr found
  refine ⟨⟨?_, ?_⟩, sound.rowed, sound.named, ?_, ?_⟩
  · intro other id row found
    rcases rows other id row found with ⟨rfl, rfl⟩ | earlier
    · exact grows.admits admits
    · exact grows.admits (sound.members other id row earlier)
  · exact fun invite listed => grows.admits (sound.invited invite listed)
  · intro other id row found
    rcases rows other id row found with ⟨rfl, rfl⟩ | earlier
    · exact proper
    · exact sound.proper other id row earlier
  · exact fun call listed => grows.kept (sound.kept call listed)

/-- The creator stores a group to which it is admitted. -/
theorem Sound.storeCreated {world : GroupWorld P} (sound : world.Sound) (env : GroupEnv P)
    (client : Nat) {draft : GroupDraft P} (admits : world.Admits draft.membership) :
    (world.transact client fun db => db.storeCreated env draft).1.Sound := by
  rw [transact]
  rcases (world.clients client).storeCreated_cases env draft with
    ⟨err, outcome⟩ | ⟨_, next, outcome, groups⟩
  · rw [outcome]
    exact sound.of_sameGroups (.refl _)
  · rw [outcome]
    exact sound.insert (ClientDb.createdRow draft) ⟨rfl, rfl⟩ admits groups

/-- Somebody who was invited stores a group to which the invite admits. -/
theorem Sound.storeJoined {world : GroupWorld P} (sound : world.Sound) (env : ClientEnv P)
    (client : Nat) {invite : GroupInviteMsg P} (admits : world.Admits invite.membership) :
    (world.transact client fun db => db.storeJoined env invite).1.Sound := by
  rw [transact]
  rcases (world.clients client).storeJoined_cases env invite with
    ⟨err, outcome⟩ | ⟨next, outcome, groups⟩
  · rw [outcome]
    exact sound.of_sameGroups (.refl _)
  · rw [outcome]
    split at groups
    · exact sound.of_sameGroups (ClientDb.sameGroups_of_eq groups)
    · exact sound.insert (ClientDb.joinedRow invite) ⟨rfl, rfl⟩ admits groups

/-- Other calls under way. -/
theorem Sound.recalled {world : GroupWorld P} (sound : world.Sound)
    {calls : List (Nat × GroupStage P)} (kept : ∀ call ∈ calls, world.Kept call.2) :
    Sound { world with calls := calls } := by
  have grows : Grows world { world with calls := calls } := grows_of_eq rfl rfl
  refine ⟨⟨?_, ?_⟩, sound.rowed, sound.named, sound.proper, ?_⟩
  · exact fun client groupId group found => grows.admits (sound.members client groupId group found)
  · exact fun invite listed => grows.admits (sound.invited invite listed)
  · exact fun call listed => grows.kept (kept call listed)

/-- An invite which admits may be sent. -/
theorem Sound.issue {world : GroupWorld P} (sound : world.Sound) {invite : GroupInviteMsg P}
    (admits : world.Admits invite.membership) :
    Sound { world with issued := world.issued ++ [invite] } := by
  have grows : Grows world { world with issued := world.issued ++ [invite] } := grows_of_eq rfl rfl
  refine ⟨⟨?_, ?_⟩, sound.rowed, sound.named, sound.proper, ?_⟩
  · exact fun client groupId group found => grows.admits (sound.members client groupId group found)
  · intro other listed
    rcases List.mem_append.mp listed with earlier | new
    · exact grows.admits (sound.invited other earlier)
    · rw [List.mem_singleton.mp new]
      exact grows.admits admits
  · exact fun call listed => grows.kept (sound.kept call listed)

/-- An invite is queued once its token opens both mailboxes. -/
theorem Sound.queueInvite {world : GroupWorld P} (sound : world.Sound) (json : GroupJson P)
    (env : GroupEnv P) (client : Nat) {invitation : Invitation P}
    (proper : invitation.group.Proper invitation.groupId)
    (admits : world.Admits invitation.membership) :
    (world.queueInvite json env client invitation).1.Sound := by
  have groups := ClientDb.groups_queueMessage json.reader env.client
    (.direct invitation.username) invitation.identity.username GroupInviteMsg.mimeType
    (json.writeInvite (invitation.message env.earlier)) env.client.now (world.clients client)
  have queued := sound.of_sameGroups (ClientDb.sameGroups_of_eq groups)
  have names : (invitation.message env.earlier).membership = invitation.membership := by
    rw [GroupInviteMsg.membership, Invitation.message, Invitation.membership, proper.hashed,
      proper.server]
  rw [GroupWorld.queueInvite]
  split
  rename_i db outcome written
  rw [written] at queued
  split
  · exact queued
  · exact queued.issue (names ▸ ⟨admits.drawn, admits.opened⟩)

/-- Every step of a call keeps the invariant and gets to its next stage. -/
theorem Sound.perform (free : P.CollisionFree) {world : GroupWorld P} (sound : world.Sound)
    (json : GroupJson P) (env : GroupEnv P) (client : Nat) {stage : GroupStage P}
    (kept : world.Kept stage) : Progress (world.perform json env client stage) := by
  have ends : ∀ {Answer : Type} {outcome : GroupWorld P × Except GroupError Answer},
      outcome.1.Sound → Progress (next none outcome) := by
    intro Answer outcome stays
    refine ⟨by rw [next_fst]; exact stays, fun stage goes => ?_⟩
    obtain ⟨same, _⟩ := next_ok goes
    cases same
  cases stage with
  | register draft =>
      refine sound.called free ⟨draft.descriptor.server, false⟩ env.call
        (.registerGroup draft.auth draft.descriptor.id) env.fate rfl
        (by simp [ServerRequest.Admits]) ?_
      rintro _ ⟨⟩ next grows _ _
      exact grows.drawn _ kept
  | ownMessages draft =>
      refine sound.called free ⟨draft.descriptor.server, false⟩ env.call _ env.fate rfl
        (admits_memberAcl draft.auth _ true draft.token) ?_
      rintro _ ⟨⟩ next grows now taken
      exact ⟨grows.drawn _ kept, sound.opened_of_admitted now taken⟩
  | ownManagement draft =>
      refine sound.called free ⟨draft.descriptor.server, false⟩ env.call _ env.fate rfl
        (admits_memberAcl draft.auth _ true draft.token) ?_
      rintro _ ⟨⟩ next grows now taken
      refine ⟨grows.drawn _ kept.1, fun kind => ?_⟩
      cases kind with
      | messages => exact grows.opened _ kept.1 _ kept.2
      | management => exact sound.opened_of_admitted now taken
  | store draft => exact ends (sound.storeCreated env client kept)
  | admitMessages invitation =>
      refine sound.called free ⟨invitation.group.serverName, false⟩ env.call _ env.fate rfl
        (admits_memberAcl invitation.group.token _ false invitation.token) ?_
      rintro _ ⟨⟩ next grows now taken
      exact ⟨grows.hosted kept, sound.opened_of_admitted now taken⟩
  | admitManagement invitation =>
      refine sound.called free ⟨invitation.group.serverName, false⟩ env.call _ env.fate rfl
        (admits_memberAcl invitation.group.token _ false invitation.token) ?_
      rintro _ ⟨⟩ next grows now taken
      refine ⟨grows.hosted kept.1, grows.drawn _ kept.1.drawn, fun kind => ?_⟩
      cases kind with
      | messages => exact grows.opened _ kept.1.drawn _ kept.2
      | management => exact sound.opened_of_admitted now taken
  | announce invitation =>
      refine sound.called free ⟨invitation.group.serverName, false⟩ env.call
        (.mailboxSend invitation.group.token (.groupManagement invitation.groupId)
          (managementBlob json env invitation.identity invitation.groupId invitation.group
            (.inviteSent invitation.username)) 0) env.fate rfl
        (by simp [ServerRequest.Admits]) ?_
      rintro _ ⟨⟩ next grows _ _
      exact ⟨grows.hosted kept.1, grows.admits kept.2⟩
  | queue invitation => exact ends (sound.queueInvite json env client kept.1.proper kept.2)
  | join identity invite =>
      have joined := sound.storeJoined env.client client kept
      refine ⟨by rw [GroupWorld.perform, next_fst]; exact joined, fun stage goes => ?_⟩
      obtain ⟨same, _⟩ := next_ok goes
      cases same
      trivial
  | report identity groupId =>
      rw [GroupWorld.perform]
      split
      · refine ⟨sound, fun stage goes => ?_⟩
        cases goes
      · rename_i group _
        refine sound.called free ⟨group.serverName, false⟩ env.call
          (.mailboxSend group.token (.groupManagement groupId)
            (managementBlob json env identity groupId group .inviteAccepted) 0) env.fate rfl
          (by simp [ServerRequest.Admits]) ?_
        rintro _ ⟨⟩

/-- A call which ends or goes on leaves everybody admitted. -/
theorem Progress.settle {outcome : GroupWorld P × Except GroupError (Option (GroupStage P))}
    (progress : Progress outcome) (position client : Nat) :
    (settle position client outcome).Sound := by
  have erased : Sound { outcome.1 with calls := outcome.1.calls.eraseIdx position } :=
    progress.sound.recalled fun call listed =>
      progress.sound.kept call (List.mem_of_mem_eraseIdx listed)
  obtain ⟨world, result⟩ := outcome
  cases result with
  | error err => exact erased
  | ok after =>
      cases after with
      | none => exact erased
      | some stage =>
          refine progress.sound.recalled ?_
          intro call listed
          rcases List.mem_or_eq_of_mem_set listed with earlier | rfl
          · exact progress.sound.kept call earlier
          · exact progress.kept stage rfl

/-- What a call has when it gets to its first step. -/
inductive Begun (json : GroupJson P) (env : GroupEnv P) (db : ClientDb P) : GroupStage P → Prop
  | register {draft : GroupDraft P} (token : draft.token = env.draw.token) :
      Begun json env db (.register draft)
  | admitMessages {invitation : Invitation P} (token : invitation.token = env.draw.token)
      (listed : db.groups.lookup invitation.groupId = some invitation.group) :
      Begun json env db (.admitMessages invitation)
  | join (identity : Identity P) (invite : GroupInviteMsg P) :
      Begun json env db (.join identity invite)

/-- A call begins with what its first step needs. -/
theorem begun_of_ok {json : GroupJson P} {env : GroupEnv P} {db : ClientDb P} {call : GroupCall P}
    {stage : GroupStage P} (begins : db.beginCall json env call = .ok stage) :
    Begun json env db stage := by
  cases call with
  | create serverName =>
      simp only [ClientDb.beginCall, ClientDb.beginCreate, bind, Except.bind] at begins
      repeat' split at begins
      all_goals cases begins
      exact .register rfl
  | invite groupId username =>
      simp only [ClientDb.beginCall, ClientDb.beginInvite, bind, Except.bind] at begins
      split at begins
      · cases begins
      · split at begins
        · cases begins
        · split at begins
          · cases begins
          · split at begins
            · cases begins
            · rename_i group loaded
              cases begins
              refine .admitMessages rfl ?_
              rw [ClientDb.loadGroup] at loaded
              split at loaded
              · cases loaded
              · split at loaded
                · cases loaded
                · rename_i found
                  cases loaded
                  exact found
  | accept inviteId =>
      simp only [ClientDb.beginCall, ClientDb.beginAccept, bind, Except.bind] at begins
      repeat' split at begins
      all_goals cases begins
      exact .join _ _

/-- A call may begin with a token of its own. -/
theorem Sound.begin {world : GroupWorld P} (sound : world.Sound) {json : GroupJson P}
    {env : GroupEnv P} (named : env.draw.token ≠ .anonymous) {client : Nat} {stage : GroupStage P}
    (begun : Begun json env (world.clients client) stage)
    (genuine : ∀ identity invite, stage = .join identity invite → invite ∈ world.issued) :
    Sound { world with
      calls := world.calls ++ [(client, stage)]
      drawn := world.drawn ++ stage.drawn } := by
  have grows : Grows world { world with
      calls := world.calls ++ [(client, stage)]
      drawn := world.drawn ++ stage.drawn } :=
    ⟨fun membership listed => List.mem_append_left _ listed, fun _ _ _ opened => opened⟩
  refine ⟨⟨?_, ?_⟩, sound.rowed, ?_, sound.proper, ?_⟩
  · exact fun other groupId group found => grows.admits (sound.members other groupId group found)
  · exact fun invite listed => grows.admits (sound.invited invite listed)
  · intro membership listed
    rcases List.mem_append.mp listed with earlier | new
    · exact sound.named membership earlier
    · cases begun with
      | register token =>
          rw [List.mem_singleton.mp new]
          exact fun same => named (token.symm.trans same)
      | admitMessages token _ =>
          rw [List.mem_singleton.mp new]
          exact fun same => named (token.symm.trans same)
      | join identity invite => cases new
  · intro call listed
    rcases List.mem_append.mp listed with earlier | new
    · exact grows.kept (sound.kept call earlier)
    · rw [List.mem_singleton.mp new]
      cases begun with
      | register token => exact List.mem_append_right _ (List.mem_singleton_self _)
      | admitMessages _ found =>
          exact ⟨sound.proper client _ _ found, grows.admits (sound.members client _ _ found),
            List.mem_append_right _ (List.mem_singleton_self _)⟩
      | join identity invite =>
          exact grows.admits (sound.invited invite (genuine identity invite rfl))

/-- Every considerate step leaves everybody admitted. -/
theorem Sound.step (free : P.CollisionFree) {config : ServerName → ServerConfig}
    {json : GroupJson P} {world next : GroupWorld P} {event : GroupEvent P} (sound : world.Sound)
    (considerate : world.Considerate json event)
    (taken : (machine config json).step world event = some next) : next.Sound := by
  cases event with
  | begin client call env =>
      simp only [machine] at taken
      split at taken
      · cases taken
      · rename_i named
        split at taken
        · cases taken
          exact sound
        · rename_i stage begins
          cases taken
          refine sound.begin named (begun_of_ok begins) ?_
          rintro identity invite rfl
          exact considerate identity invite begins
  | advance position env =>
      simp only [machine] at taken
      split at taken
      · cases taken
      · rename_i client stage found
        cases taken
        have kept := sound.kept _ (List.mem_of_getElem? found)
        exact (sound.perform free json env client kept).settle position client
  | stop position =>
      cases taken
      exact sound.recalled fun call listed => sound.kept call (List.mem_of_mem_eraseIdx listed)
  | serve server env request =>
      cases taken
      exact sound.serve free (config server) env considerate
  | receive client env groupId kind entry =>
      simp only [machine] at taken
      split at taken
      · cases taken
      · cases taken
        exact sound.of_sameGroups (ClientDb.sameGroups_recvOnce _ _ _ _ _ _ _)
  | direct client env key entry =>
      cases taken
      exact sound.of_sameGroups (ClientDb.sameGroups_direct _ _ _ _ _)
  | load client env groupId =>
      simp only [machine] at taken
      split at taken
      · cases taken
      · cases taken
        exact sound.of_sameGroups (ClientDb.sameGroups_loadRoster _ _ _ _)
  | other client db =>
      cases taken
      exact sound.of_sameGroups (ClientDb.sameGroups_of_eq rfl)

theorem sound_start : (start (P := P) fun _ => .empty).Sound := by
  refine ⟨⟨?_, ?_⟩, ?_, ?_, rowsProper_start _, ?_⟩
  · intro client groupId group found
    simp [start, ClientDb.empty] at found
  · exact fun invite listed => absurd listed List.not_mem_nil
  · intro server mailbox tokenHash rights row
    simp [start, ServerDb.empty, ServerDb.loadAclHash] at row
  · exact fun membership listed => absurd listed List.not_mem_nil
  · exact fun call listed => absurd listed List.not_mem_nil

/-- In every considerate run everybody who has a group is admitted to it. -/
theorem sound_of_considerate (free : P.CollisionFree) (config : ServerName → ServerConfig)
    (json : GroupJson P) {events : List (GroupEvent P)}
    (considerate : (machine config json).Along (Considerate json) (start fun _ => .empty) events) :
    (machine config json).Always Sound (start fun _ => .empty) events := by
  refine Machine.always_of_along ?_ sound_start considerate
  exact fun holds allowed taken => Sound.step free holds allowed taken

/-- In a considerate run, with calls lost and processes stopped anywhere, everybody who has a
group, or is invited to it, may post to both of its mailboxes and read them. -/
theorem admitted_of_considerate (free : P.CollisionFree) (config : ServerName → ServerConfig)
    (json : GroupJson P) {events : List (GroupEvent P)}
    (considerate : (machine config json).Along (Considerate json) (start fun _ => .empty) events) :
    (machine config json).Always Admitted (start fun _ => .empty) events := by
  have always := sound_of_considerate free config json considerate
  exact fun before position world reached => (always before position world reached).toAdmitted

/-- The run in which Alice creates her group and Bobby accepts her invite. -/
theorem admitted_of_considerate_joined :
    (machine (fun _ => WatchedServer.exampleServer) exampleJson).Always Admitted
      (start fun _ => .empty) joinedRun :=
  admitted_of_considerate symbolic_collisionFree _ exampleJson (by decide +kernel)

end GroupWorld
end Nullspace
