import Nullspace.Client.Queue
import Nullspace.Client.Readable
import Nullspace.Client.Registration
import Nullspace.Client.Rounds

/-!
# Creating groups and inviting to them

A group begins at the server of its creator. `create_group` registers its two mailboxes and
gives a token of its own the rights on them; `invite` does the same for the token which it
puts into the invite, and `accept_invite` stores what the invite says. Each is a row of steps
at a server and in a database, between which anything can happen. A call may be lost on its
way to the server or back, and the process may stop between any two steps.
-/

namespace Nullspace

open Nullspace.Base

variable {P : Primitives}

/-- A group invite, sent in messages in JSON format. -/
structure GroupInviteMsg (P : Primitives) where
  descriptor : GroupDescriptor P
  groupKey : AeadKey
  token : AuthToken
  createdAt : NanoTimestamp
deriving DecidableEq

/-- What the clients read and write with `serde_json` around groups. -/
structure GroupJson (P : Primitives) where
  reader : JsonReader P
  writeManage : GroupManageMsg → Bytes
  writeInvite : GroupInviteMsg P → Bytes
  readInvite : Bytes → Option (GroupInviteMsg P)

/-- A token of a group's mailboxes, at the group's server. -/
structure Membership (P : Primitives) where
  server : ServerName
  group : GroupId P
  token : AuthToken
deriving DecidableEq

def GroupInviteMsg.membership (invite : GroupInviteMsg P) : Membership P :=
  ⟨invite.descriptor.server, invite.descriptor.id, invite.token⟩

def GroupRecord.membership (group : GroupRecord P) (groupId : GroupId P) : Membership P :=
  ⟨group.serverName, groupId, group.token⟩

/-- What the user asks for. -/
inductive GroupCall (P : Primitives) where
  | create (serverName : ServerName)
  | invite (groupId : GroupId P) (username : UserName)
  | accept (inviteId : Nat)

/-- A group which is being created. -/
structure GroupDraft (P : Primitives) where
  descriptor : GroupDescriptor P
  groupKey : AeadKey
  token : AuthToken
  /-- The device's token at the server. -/
  auth : AuthToken

def GroupDraft.membership (draft : GroupDraft P) : Membership P :=
  ⟨draft.descriptor.server, draft.descriptor.id, draft.token⟩

/-- A user who is being invited, with the group's row as the inviter found it. -/
structure Invitation (P : Primitives) where
  identity : Identity P
  groupId : GroupId P
  group : GroupRecord P
  username : UserName
  token : AuthToken

def Invitation.membership (invitation : Invitation P) : Membership P :=
  ⟨invitation.group.serverName, invitation.groupId, invitation.token⟩

/-- Where a call is. -/
inductive GroupStage (P : Primitives) where
  /-- `create_group` before `v1_register_group`. -/
  | register (draft : GroupDraft P)
  | ownMessages (draft : GroupDraft P)
  | ownManagement (draft : GroupDraft P)
  /-- Before the transaction of `create_group`. -/
  | store (draft : GroupDraft P)
  /-- `invite` before the first edit of an ACL. -/
  | admitMessages (invitation : Invitation P)
  | admitManagement (invitation : Invitation P)
  /-- Before the members are told. -/
  | announce (invitation : Invitation P)
  /-- Before the invite is queued. -/
  | queue (invitation : Invitation P)
  /-- Before the transaction of `accept_invite`. -/
  | join (identity : Identity P) (invite : GroupInviteMsg P)
  /-- Before the members are told of the new one. -/
  | report (identity : Identity P) (groupId : GroupId P)

/-- Why a call ends early. -/
inductive GroupError where
  | network
  | entry (err : EntryError)
deriving DecidableEq

/-- What a call draws. -/
structure GroupDraw (P : Primitives) where
  descriptorNonce : P.Hash
  managementKey : AeadKey
  groupKey : AeadKey
  token : AuthToken
  nonce : FixedBytes 24

/-- What one step meets and draws. -/
structure GroupEnv (P : Primitives) where
  client : ClientEnv P
  call : CallEnv P
  fate : Fate
  /-- The answer of `get_auth_token`, once the server is found. -/
  auth : Option AuthToken
  /-- A clock reading from before `client.now`. -/
  earlier : NanoTimestamp
  draw : GroupDraw P

/-- Clients, the servers of their groups, and the calls which are under way. -/
structure GroupWorld (P : Primitives) where
  servers : ServerName → ServerDb P
  clients : Nat → ClientDb P
  calls : List (Nat × GroupStage P)
  /-- The tokens which were drawn for groups. The code keeps no such record. -/
  drawn : List (Membership P)
  /-- The invites which were queued. The code keeps no such record. -/
  issued : List (GroupInviteMsg P)

/-- The token which a call has drawn when it gets to its first step. -/
def GroupStage.drawn : GroupStage P → List (Membership P)
  | .register draft => [draft.membership]
  | .admitMessages invitation => [invitation.membership]
  | _ => []

def loadIdentity (env : ClientEnv P) : Except GroupError (Identity P) :=
  if env.fails .identity then .error (.entry .database)
  else
    match env.identity with
    | none => .error (.entry (.said "client identity not initialized"))
    | some identity => .ok identity

/-- `get_user_descriptor` of the directory client, with what is said when there is none. -/
def findDescriptor (env : ClientEnv P) (username : UserName) (missing : String) :
    Except GroupError (UserDescriptor P) :=
  if env.fails .directory then .error (.entry .directory)
  else
    match env.descriptor username with
    | none => .error (.entry (.said missing))
    | some descriptor => .ok descriptor

namespace ClientDb

/-- `load_group`. -/
def loadGroup (env : ClientEnv P) (groupId : GroupId P) (missing : String) (db : ClientDb P) :
    Except GroupError (GroupRecord P) :=
  if env.fails .prepare then .error (.entry .database)
  else
    match db.groups.lookup groupId with
    | none => .error (.entry (.said missing))
    | some group => .ok group

/-- The row of a direct conversation with this identifier. -/
def directRow? (db : ClientDb P) (id : Nat) : Option ConvoMessage :=
  (db.joinedMessages.find? fun (row, convo) =>
    decide (row.id = id) && (match convo with | .direct _ => true | .group _ => false)).map Prod.fst

/-- `create_group` up to the registration. -/
def beginCreate (env : GroupEnv P) (serverName : ServerName) : Except GroupError (GroupStage P) := do
  let identity ← loadIdentity env.client
  let user ← findDescriptor env.client identity.username "identity username not in directory"
  if user.serverName ≠ serverName then
    .error (.entry (.said "group server must match username server"))
  else
    match env.auth with
    | none => .error .network
    | some auth =>
        .ok (.register ⟨⟨env.draw.descriptorNonce, identity.username, env.client.clock, serverName,
          env.draw.managementKey⟩, env.draw.groupKey, env.draw.token, auth⟩)

/-- `invite` up to the first edit of an ACL. -/
def beginInvite (env : GroupEnv P) (groupId : GroupId P) (username : UserName) (db : ClientDb P) :
    Except GroupError (GroupStage P) := do
  let identity ← loadIdentity env.client
  if username = identity.username then .error (.entry (.said "cannot invite self"))
  else
    let _ ← findDescriptor env.client username "username not in directory"
    let group ← db.loadGroup env.client groupId "group not found"
    .ok (.admitMessages ⟨identity, groupId, group, username, env.draw.token⟩)

/-- `accept_invite` up to its transaction. -/
def beginAccept (json : GroupJson P) (env : GroupEnv P) (inviteId : Nat) (db : ClientDb P) :
    Except GroupError (GroupStage P) := do
  let identity ← loadIdentity env.client
  if env.client.fails .message then .error (.entry .database)
  else
    match db.directRow? inviteId with
    | none => .error (.entry (.said "invite not found"))
    | some row =>
        if row.mime ≠ GroupInviteMsg.mimeType then
          .error (.entry (.said "message is not a group invite"))
        else
          match json.readInvite row.body with
          | none => .error (.entry .decode)
          | some invite => .ok (.join identity invite)

/-- A call up to its first step. -/
def beginCall (json : GroupJson P) (env : GroupEnv P) (db : ClientDb P) :
    GroupCall P → Except GroupError (GroupStage P)
  | .create serverName => beginCreate env serverName
  | .invite groupId username => db.beginInvite env groupId username
  | .accept inviteId => db.beginAccept json env inviteId

/-- The transaction of `create_group`. -/
def storeCreated (env : GroupEnv P) (draft : GroupDraft P) (db : ClientDb P) :
    ClientDb P × Except GroupError Unit :=
  let groupId := draft.descriptor.id
  if env.client.fails .commit then (db, .error (.entry .database))
  else if groupId ∈ db.groups then (db, .error (.entry .database))
  else
    let roster := GroupRoster.empty.ensureInitialized draft.descriptor.initAdmin
    let inserted : ClientDb P := { db with
      groups := db.groups.insert groupId ⟨draft.descriptor, draft.descriptor.server, draft.token,
        draft.groupKey, draft.groupKey, roster⟩ }
    let ready := (inserted.ensureMailboxState
        (draft.descriptor.server, .groupManagement groupId) 0).ensureMailboxState
      (draft.descriptor.server, .groupMessages groupId) env.earlier
    ((ready.ensureConvoId (.group groupId) env.client.now).1, .ok ())

/-- The transaction of `accept_invite`: a group which is there already keeps its row. -/
def storeJoined (env : ClientEnv P) (invite : GroupInviteMsg P) (db : ClientDb P) :
    ClientDb P × Except GroupError Unit :=
  let groupId := invite.descriptor.id
  if env.fails .commit then (db, .error (.entry .database))
  else
    let listed : ClientDb P :=
      if groupId ∈ db.groups then db
      else
        { db with
          groups := db.groups.insert groupId ⟨invite.descriptor, invite.descriptor.server,
            invite.token, invite.groupKey, invite.groupKey, .empty⟩ }
    let ready := (listed.ensureMailboxState
        (invite.descriptor.server, .groupManagement groupId) 0).ensureMailboxState
      (invite.descriptor.server, .groupMessages groupId) invite.createdAt
    ((ready.ensureConvoId (.group groupId) env.now).1, .ok ())

end ClientDb

/-- What the members read of a change. -/
def managementBlob (json : GroupJson P) (env : GroupEnv P) (identity : Identity P)
    (groupId : GroupId P) (group : GroupRecord P) (manage : GroupManageMsg) : Blob :=
  let content : Event P :=
    ⟨.group groupId, env.client.now, GroupManageMsg.mimeType, json.writeManage manage⟩
  ⟨Blob.v1GroupMessage, Bcs.toBytes (GroupMessage.encryptMessage env.draw.nonce content
    identity.username identity.certChain identity.deviceSecret group.descriptor.managementKey)⟩

/-- The ACL entry which a member's token gets. -/
def memberAcl (canEditAcl : Bool) (token : AuthToken) : MailboxAcl P :=
  ⟨P.bcsHash token, ⟨canEditAcl, true, true⟩⟩

/-- The invite which goes to the user. -/
def Invitation.message (invitation : Invitation P) (createdAt : NanoTimestamp) :
    GroupInviteMsg P :=
  ⟨invitation.group.descriptor, invitation.group.groupKeyCurrent, invitation.token, createdAt⟩

namespace GroupWorld

def setServer (world : GroupWorld P) (server : ServerName) (db : ServerDb P) : GroupWorld P :=
  { world with servers := Function.update world.servers server db }

def setClient (world : GroupWorld P) (client : Nat) (db : ClientDb P) : GroupWorld P :=
  { world with clients := Function.update world.clients client db }

@[simp] theorem setServer_same (world : GroupWorld P) (server : ServerName) (db : ServerDb P) :
    (world.setServer server db).servers server = db := by
  simp [setServer]

theorem setServer_of_ne {server other : ServerName} (apart : other ≠ server)
    (world : GroupWorld P) (db : ServerDb P) :
    (world.setServer server db).servers other = world.servers other := by
  simp [setServer, apart]

@[simp] theorem setClient_same (world : GroupWorld P) (client : Nat) (db : ClientDb P) :
    (world.setClient client db).clients client = db := by
  simp [setClient]

theorem setClient_of_ne {client other : Nat} (apart : other ≠ client) (world : GroupWorld P)
    (db : ClientDb P) : (world.setClient client db).clients other = world.clients other := by
  simp [setClient, apart]

/-- A call of a server, whose request or answer may be lost. -/
def callServer {Answer : Type} (world : GroupWorld P) (fate : Fate) (server : ServerName)
    (run : ServerDb P → ServerDb P × Except ServerRpcError Answer) :
    GroupWorld P × Except GroupError Answer :=
  match fate with
  | .failsBefore => (world, .error .network)
  | .failsAfter => (world.setServer server (run (world.servers server)).1, .error .network)
  | .works =>
      (world.setServer server (run (world.servers server)).1,
        match (run (world.servers server)).2 with
        | .error err => .error (.entry (.said err.message))
        | .ok answer => .ok answer)

/-- An edit which gives a token the rights of a member. -/
def editAcl (world : GroupWorld P) (env : GroupEnv P) (membership : Membership P)
    (kind : GroupMailboxKind) (auth : AuthToken) (canEditAcl : Bool) :
    GroupWorld P × Except GroupError Unit :=
  world.callServer env.fate membership.server fun db =>
    db.mailboxAclEdit env.call auth (kind.mailbox membership.group)
      (memberAcl canEditAcl membership.token)

/-- `send_management_message`. -/
def sendManagement (json : GroupJson P) (world : GroupWorld P) (env : GroupEnv P)
    (identity : Identity P) (groupId : GroupId P) (group : GroupRecord P)
    (manage : GroupManageMsg) : GroupWorld P × Except GroupError NanoTimestamp :=
  world.callServer env.fate group.serverName fun db =>
    db.mailboxSend env.call.now env.call.dbFails group.token (.groupManagement groupId)
      (managementBlob json env identity groupId group manage) 0

/-- What comes after a step. -/
def next {Answer : Type} (stage : Option (GroupStage P)) :
    GroupWorld P × Except GroupError Answer →
      GroupWorld P × Except GroupError (Option (GroupStage P))
  | (world, .error err) => (world, .error err)
  | (world, .ok _) => (world, .ok stage)

/-- A transaction of a client. -/
def transact (world : GroupWorld P) (client : Nat)
    (run : ClientDb P → ClientDb P × Except GroupError Unit) :
    GroupWorld P × Except GroupError Unit :=
  (world.setClient client (run (world.clients client)).1, (run (world.clients client)).2)

/-- The end of `invite`: the invite becomes a message of the user. -/
def queueInvite (json : GroupJson P) (env : GroupEnv P) (client : Nat)
    (invitation : Invitation P) (world : GroupWorld P) : GroupWorld P × Except GroupError Unit :=
  let invite := invitation.message env.earlier
  let (db, queued) := (world.clients client).queueMessage json.reader env.client
    (.direct invitation.username) invitation.identity.username GroupInviteMsg.mimeType
    (json.writeInvite invite) env.client.now
  match queued with
  | .error err => (world.setClient client db, .error (.entry err))
  | .ok _ => ({ world.setClient client db with issued := world.issued ++ [invite] }, .ok ())

/-- One step of a call, and where it goes on, if it does. -/
def perform (json : GroupJson P) (env : GroupEnv P) (client : Nat) (world : GroupWorld P) :
    GroupStage P → GroupWorld P × Except GroupError (Option (GroupStage P))
  | .register draft =>
      next (some (.ownMessages draft))
        (world.callServer env.fate draft.descriptor.server fun db =>
          db.registerGroup env.call draft.auth draft.descriptor.id)
  | .ownMessages draft =>
      next (some (.ownManagement draft))
        (world.editAcl env draft.membership .messages draft.auth true)
  | .ownManagement draft =>
      next (some (.store draft))
        (world.editAcl env draft.membership .management draft.auth true)
  | .store draft => next none (world.transact client fun db => db.storeCreated env draft)
  | .admitMessages invitation =>
      next (some (.admitManagement invitation))
        (world.editAcl env invitation.membership .messages invitation.group.token false)
  | .admitManagement invitation =>
      next (some (.announce invitation))
        (world.editAcl env invitation.membership .management invitation.group.token false)
  | .announce invitation =>
      next (some (.queue invitation))
        (world.sendManagement json env invitation.identity invitation.groupId invitation.group
          (.inviteSent invitation.username))
  | .queue invitation => next none (world.queueInvite json env client invitation)
  | .join identity invite =>
      next (some (.report identity invite.descriptor.id))
        (world.transact client fun db => db.storeJoined env.client invite)
  | .report identity groupId =>
      match (world.clients client).loadGroup env.client groupId
          "group not found after invite accept" with
      | .error err => (world, .error err)
      | .ok group =>
          next none (world.sendManagement json env identity groupId group .inviteAccepted)

/-- The calls after a step: an error ends its call, and the user gets the error. -/
def settle (position client : Nat) :
    GroupWorld P × Except GroupError (Option (GroupStage P)) → GroupWorld P
  | (world, .ok (some stage)) => { world with calls := world.calls.set position (client, stage) }
  | (world, _) => { world with calls := world.calls.eraseIdx position }

end GroupWorld

inductive GroupEvent (P : Primitives) where
  | begin (client : Nat) (call : GroupCall P) (env : GroupEnv P)
  | advance (position : Nat) (env : GroupEnv P)
  /-- The process of a call stops. -/
  | stop (position : Nat)
  /-- Anybody calls a server. -/
  | serve (server : ServerName) (env : CallEnv P) (request : ServerRequest P)
  /-- A client processes an entry of one of its groups. -/
  | receive (client : Nat) (env : ClientEnv P) (groupId : GroupId P) (kind : GroupMailboxKind)
      (entry : MailboxEntry P)
  /-- A client processes an entry of another mailbox. -/
  | direct (client : Nat) (env : ClientEnv P) (key : MailboxKey P) (entry : MailboxEntry P)
  /-- A client loads a roster, which may initialize it. -/
  | load (client : Nat) (env : ClientEnv P) (groupId : GroupId P)
  /-- What else a client does leaves its groups and cursors alone. -/
  | other (client : Nat) (db : ClientDb P)

namespace GroupWorld

/-- Calls, servers and receive loops side by side. A drawn token is not the anonymous one. -/
def machine (config : ServerName → ServerConfig) (json : GroupJson P) :
    Machine (GroupWorld P) (GroupEvent P) where
  step world
    | .begin client call env =>
        if env.draw.token = .anonymous then none
        else
          match (world.clients client).beginCall json env call with
          | .error _ => some world
          | .ok stage =>
              some { world with
                calls := world.calls ++ [(client, stage)]
                drawn := world.drawn ++ stage.drawn }
    | .advance position env =>
        match world.calls[position]? with
        | none => none
        | some (client, stage) =>
            some (settle position client (world.perform json env client stage))
    | .stop position => some { world with calls := world.calls.eraseIdx position }
    | .serve server env request =>
        some (world.setServer server ((world.servers server).handle (config server) env request).1)
    | .receive client env groupId kind entry =>
        match (world.clients client).groups.lookup groupId with
        | none => none
        | some group =>
            some (world.setClient client
              ((world.clients client).groupRecvOnce json.reader env groupId group kind entry).1)
    | .direct client env key entry =>
        some (world.setClient client
          ((world.clients client).processMailboxEntry json.reader env key entry).1)
    | .load client env groupId =>
        match (world.clients client).groups.lookup groupId with
        | none => none
        | some group =>
            some (world.setClient client
              ((world.clients client).loadRoster env groupId group.descriptor.initAdmin).1)
    | .other client db =>
        some (world.setClient client
          { db with
            groups := (world.clients client).groups
            mailboxState := (world.clients client).mailboxState })

/-- Nobody has a group yet. -/
def start (servers : ServerName → ServerDb P) : GroupWorld P :=
  ⟨servers, fun _ => .empty, [], [], []⟩

open WatchedServer (exampleServer envWith tokenOf aliceChain)

def exampleInvite : GroupInviteMsg symbolic := ⟨exampleGroup, symbolicKey 1, tokenOf 4, 10⟩

/-- A format in which one invite can be read. -/
def exampleJson : GroupJson symbolic where
  reader := symbolicJson
  writeManage manage := utf8 manage.compactJson
  writeInvite invite :=
    Bcs.toBytes ((invite.descriptor, invite.groupKey.bytes), (invite.token, invite.createdAt))
  readInvite body :=
    if body = Bcs.toBytes ((exampleGroup, (symbolicKey 1).bytes), (tokenOf 4, (10 : NanoTimestamp)))
    then some exampleInvite else none

/-- Nothing fails. -/
def calmEnv (identity : Identity symbolic) (now : NanoTimestamp) (token : AuthToken) :
    GroupEnv symbolic where
  client := ⟨some identity, now, 0, symbolicDirectory, fun _ => false⟩
  call := { envWith token with now := now }
  fate := .works
  auth := some (tokenOf 1)
  earlier := now
  draw := ⟨[], symbolicKey 9, symbolicKey 1, token, zeroNonce⟩

/-- Steps of the first call one after the other, with a clock which goes on. -/
def advances (identity : Identity symbolic) (now : NanoTimestamp) : Nat → List (GroupEvent symbolic)
  | 0 => []
  | count + 1 =>
      .advance 0 (calmEnv identity now (tokenOf 9)) :: advances identity (now + 1) count

/-- Alice creates a group at her server. -/
def createdRun : List (GroupEvent symbolic) :=
  .serve symbolicServer (envWith (tokenOf 1)) (.deviceAuth alice aliceChain) ::
    .begin 0 (.create symbolicServer) (calmEnv aliceIdentity 1 (tokenOf 3)) ::
    advances aliceIdentity 2 4

/-- Alice invites Bobby. -/
def invitedRun : List (GroupEvent symbolic) :=
  createdRun ++ .begin 0 (.invite exampleGroup.id bobby) (calmEnv aliceIdentity 6 (tokenOf 4)) ::
    advances aliceIdentity 7 4

/-- What Bobby's client has of the invite. -/
def invitedDb : ClientDb symbolic :=
  (ClientDb.empty.insertRow (.direct alice) 11
    ⟨alice, GroupInviteMsg.mimeType, exampleJson.writeInvite exampleInvite, 10⟩ none (some 11)).1

/-- Bobby accepts. -/
def joinedRun : List (GroupEvent symbolic) :=
  invitedRun ++ .other 1 invitedDb ::
    .begin 1 (.accept 1) (calmEnv bobbyIdentity 12 (tokenOf 9)) :: advances bobbyIdentity 13 2

end GroupWorld
end Nullspace
