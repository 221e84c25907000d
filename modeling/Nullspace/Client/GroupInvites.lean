import Nullspace.Client.GroupMembers

/-!
# Invites which go through

A member's token may not edit the ACL, and yet it can let others in: a server lets whoever has
rights add a new row with no more than these. `goes_on_of_smooth` says that in a considerate run
no step of `invite` or of `accept_invite` is turned down, whatever has happened since the step
before it.
-/

namespace Nullspace

open Nullspace.Base

variable {P : Primitives}

namespace ServerDb

/-- Nothing which is still kept has come in at this reading of the clock. -/
def Unposted (db : ServerDb P) (mailbox : MailboxId P) (now : NanoTimestamp) : Prop :=
  ∀ row ∈ (db.purgeExpiredEntries now).mailboxEntries, row.mailboxId = mailbox →
    row.receivedAt ≠ now

/-- Whoever may post and read gives a new token the same. -/
theorem Opens.admits {db : ServerDb P} {mailbox : MailboxId P} {auth : AuthToken}
    (opens : db.Opens mailbox auth) {env : CallEnv P} (served : env.dbFails = false)
    {token : AuthToken} (fresh : db.loadAclHash mailbox (P.bcsHash token) = none) :
    (db.mailboxAclEdit env auth mailbox (memberAcl false token)).2 = .ok () := by
  have within : aclIsSubset ⟨false, true, true⟩ (db.aclForToken mailbox auth) = true :=
    aclIsSubset_iff.mpr opens.rights
  have inserted : db.insertAcl mailbox ⟨P.bcsHash token, ⟨false, true, true⟩⟩ =
      some (db.withAcl mailbox ⟨P.bcsHash token, ⟨false, true, true⟩⟩) :=
    insertAcl_eq_some.mpr ⟨opens.known, rfl⟩
  simp [mailboxAclEdit, memberAcl, served, fresh, within, inserted, aclIsEmpty]

/-- A token which opens a mailbox may post to it. -/
theorem Opens.posts {db : ServerDb P} {mailbox : MailboxId P} {auth : AuthToken}
    (opens : db.Opens mailbox auth) {now : NanoTimestamp} (unposted : db.Unposted mailbox now)
    (message : Blob) (ttl : UInt32) :
    (db.mailboxSend now false auth mailbox message ttl).2 = .ok now := by
  have sends : ((db.purgeExpiredEntries now).aclForToken mailbox auth).canSend = true :=
    opens.rights .send rfl
  have known : mailbox ∈ (db.purgeExpiredEntries now).mailboxes := opens.known
  simp only [mailboxSend, Bool.false_eq_true, if_false, sends, Bool.not_true]
  rw [insertEntry_eq_some.mpr ⟨known, unposted, rfl⟩]

end ServerDb

namespace GroupWorld

@[simp] theorem calls_callServer {Answer : Type} (world : GroupWorld P) (fate : Fate)
    (server : ServerName) (run : ServerDb P → ServerDb P × Except ServerRpcError Answer) :
    (world.callServer fate server run).1.calls = world.calls := by
  cases fate <;> rfl

theorem calls_perform (json : GroupJson P) (env : GroupEnv P) (client : Nat)
    (world : GroupWorld P) (stage : GroupStage P) :
    (world.perform json env client stage).1.calls = world.calls := by
  cases stage with
  | store draft | join identity invite =>
      rw [perform, next_fst]
      rfl
  | queue invitation =>
      rw [perform, next_fst, queueInvite]
      split
      split <;> rfl
  | report identity groupId =>
      rw [perform]
      split
      · rfl
      · rw [next_fst]
        exact calls_callServer _ _ _ _
  | _ =>
      rw [perform, next_fst]
      exact calls_callServer _ _ _ _

/-- A client which is about to tell the members has the group. -/
def Reported (world : GroupWorld P) (call : Nat × GroupStage P) : Prop :=
  ∀ identity groupId, call.2 = .report identity groupId →
    groupId ∈ (world.clients call.1).groups

/-- A client which had the group still has it. -/
theorem Steady.reported {world next : GroupWorld P} (steady : Steady world next)
    {call : Nat × GroupStage P} (reported : world.Reported call) : next.Reported call := by
  intro identity groupId same
  obtain ⟨group, found⟩ := Option.isSome_iff_exists.mp
    (AList.lookup_isSome.mpr (reported identity groupId same))
  obtain ⟨later, listed, _⟩ := (steady call.1).kept groupId group found
  exact AList.lookup_isSome.mp (Option.isSome_iff_exists.mpr ⟨later, listed⟩)

/-- Only `accept_invite` gets to the report, from its transaction. -/
theorem reported_perform (json : GroupJson P) (env : GroupEnv P) (client : Nat)
    (world : GroupWorld P) {stage after : GroupStage P}
    (goes : (world.perform json env client stage).2 = .ok (some after)) :
    (world.perform json env client stage).1.Reported (client, after) := by
  rintro identity groupId rfl
  cases stage with
  | join joiner invite =>
      obtain ⟨same, _, stored⟩ := next_ok goes
      cases same
      rw [perform, next_fst, transact, setClient_same]
      rcases (world.clients client).storeJoined_cases env.client invite with
        ⟨err, outcome⟩ | ⟨next, outcome, groups⟩
      · rw [transact, outcome] at stored
        cases stored
      · rw [outcome, groups]
        split
        · assumption
        · exact (AList.mem_insert _).mpr (.inl rfl)
  | report joiner group =>
      rw [perform] at goes
      split at goes
      · cases goes
      · cases (next_ok goes).1
  | _ => cases (next_ok goes).1

def AllReported (world : GroupWorld P) : Prop :=
  ∀ call ∈ world.calls, world.Reported call

/-- A call which ends or goes on leaves every report right. -/
theorem AllReported.settle {world : GroupWorld P} (all : world.AllReported)
    {outcome : GroupWorld P × Except GroupError (Option (GroupStage P))}
    (steady : Steady world outcome.1) (calls : outcome.1.calls = world.calls) {client : Nat}
    (goes : ∀ after, outcome.2 = .ok (some after) → outcome.1.Reported (client, after))
    (position : Nat) : (settle position client outcome).AllReported := by
  have earlier : ∀ call ∈ outcome.1.calls, outcome.1.Reported call :=
    fun call listed => steady.reported (all call (calls ▸ listed))
  have erased : AllReported { outcome.1 with calls := outcome.1.calls.eraseIdx position } :=
    fun call listed => earlier call (List.mem_of_mem_eraseIdx listed)
  obtain ⟨next, result⟩ := outcome
  cases result with
  | error err => exact erased
  | ok stage =>
      cases stage with
      | none => exact erased
      | some after =>
          intro call listed
          rcases List.mem_or_eq_of_mem_set listed with before | rfl
          · exact earlier call before
          · exact goes after rfl

/-- Every step leaves every report right. -/
theorem AllReported.step {config : ServerName → ServerConfig} {json : GroupJson P}
    {world next : GroupWorld P} {event : GroupEvent P} (all : world.AllReported)
    (taken : (machine config json).step world event = some next) : next.AllReported := by
  have steady := steady_step taken
  cases event with
  | begin client call env =>
      simp only [machine] at taken
      split at taken
      · cases taken
      · split at taken
        · cases taken
          exact all
        · rename_i stage begins
          cases taken
          intro listed member
          rcases List.mem_append.mp member with earlier | new
          · exact all listed earlier
          · rw [List.mem_singleton.mp new]
            rintro identity groupId rfl
            cases begun_of_ok begins
  | advance position env =>
      simp only [machine] at taken
      split at taken
      · cases taken
      · rename_i client stage _
        cases taken
        exact all.settle (steady_perform json env client world stage)
          (calls_perform json env client world stage)
          (fun after => reported_perform json env client world) position
  | stop position =>
      cases taken
      exact fun call listed => all call (List.mem_of_mem_eraseIdx listed)
  | receive client env groupId kind entry =>
      simp only [machine] at taken
      split at taken
      · cases taken
      · cases taken
        exact fun call listed => steady.reported (all call listed)
  | load client env groupId =>
      simp only [machine] at taken
      split at taken
      · cases taken
      · cases taken
        exact fun call listed => steady.reported (all call listed)
  | _ =>
      cases taken
      exact fun call listed => steady.reported (all call listed)

/-- No unique index and no earlier row is in the way of a step of `invite` or of
`accept_invite`. -/
def Unhindered (world : GroupWorld P) (env : GroupEnv P) (client : Nat) : GroupStage P → Prop
  | .admitMessages invitation =>
      (world.servers invitation.group.serverName).loadAclHash
        (.groupMessages invitation.groupId) (P.bcsHash invitation.token) = none
  | .admitManagement invitation =>
      (world.servers invitation.group.serverName).loadAclHash
        (.groupManagement invitation.groupId) (P.bcsHash invitation.token) = none
  | .announce invitation =>
      (world.servers invitation.group.serverName).Unposted
        (.groupManagement invitation.groupId) env.call.now
  | .queue invitation =>
      ((world.clients client).ensureConvoId (.direct invitation.username) env.client.now).1.hasMessage
        ((world.clients client).ensureConvoId (.direct invitation.username) env.client.now).2
        env.client.now = false
  | .join _ _ => True
  | .report _ groupId => ∀ group, (world.clients client).groups.lookup groupId = some group →
      (world.servers group.serverName).Unposted (.groupManagement groupId) env.call.now
  | .register _ | .ownMessages _ | .ownManagement _ | .store _ => False

/-- Nothing fails in a step of `invite` or of `accept_invite`. -/
structure Smooth (world : GroupWorld P) (env : GroupEnv P) (client : Nat)
    (stage : GroupStage P) : Prop where
  works : env.fate = .works
  served : env.call.dbFails = false
  calm : ∀ point, env.client.fails point = false
  unhindered : world.Unhindered env client stage

theorem next_of_ok {Answer : Type} {stage : Option (GroupStage P)}
    {outcome : GroupWorld P × Except GroupError Answer} {answer : Answer}
    (answered : outcome.2 = .ok answer) : (next stage outcome).2 = .ok stage := by
  obtain ⟨world, result⟩ := outcome
  cases answered
  rfl

/-- A call which works is answered. -/
theorem callServer_ok {Answer : Type} {world : GroupWorld P} {server : ServerName}
    {run : ServerDb P → ServerDb P × Except ServerRpcError Answer} {answer : Answer}
    (answered : (run (world.servers server)).2 = .ok answer) :
    (world.callServer .works server run).2 = .ok answer := by
  simp only [callServer, answered]

/-- A member who meets no failure posts a management message. -/
theorem sendManagement_ok (json : GroupJson P) {world : GroupWorld P} {env : GroupEnv P}
    (works : env.fate = .works) (served : env.call.dbFails = false) (identity : Identity P)
    {groupId : GroupId P} {group : GroupRecord P} (manage : GroupManageMsg)
    (admits : world.Admits (group.membership groupId))
    (unposted : (world.servers group.serverName).Unposted (.groupManagement groupId)
      env.call.now) :
    (world.sendManagement json env identity groupId group manage).2 = .ok env.call.now := by
  have posts := (admits.opened .management).posts unposted
    (managementBlob json env identity groupId group manage) 0
  rw [sendManagement, works, served]
  exact callServer_ok posts

/-- A member who meets no failure gives a new token its row. -/
theorem editAcl_ok {world : GroupWorld P} {env : GroupEnv P} (works : env.fate = .works)
    (served : env.call.dbFails = false) {invitation : Invitation P} (kind : GroupMailboxKind)
    (host : world.Admits (invitation.group.membership invitation.groupId))
    (fresh : (world.servers invitation.group.serverName).loadAclHash
      (kind.mailbox invitation.groupId) (P.bcsHash invitation.token) = none) :
    (world.editAcl env invitation.membership kind invitation.group.token false).2 = .ok () := by
  have taken := (host.opened kind).admits served fresh
  rw [editAcl, works]
  exact callServer_ok taken

/-- An invite is queued where nothing is in its way. -/
theorem queueInvite_ok (json : GroupJson P) {world : GroupWorld P} {env : GroupEnv P}
    (calm : ∀ point, env.client.fails point = false) {client : Nat} {invitation : Invitation P}
    (unsent : ((world.clients client).ensureConvoId (.direct invitation.username)
        env.client.now).1.hasMessage
      ((world.clients client).ensureConvoId (.direct invitation.username) env.client.now).2
      env.client.now = false) :
    (world.queueInvite json env client invitation).2 = .ok () := by
  simp only [queueInvite, ClientDb.queueMessage, calm, unsent, Bool.or_self, Bool.false_eq_true,
    if_false]

/-- A smooth step of a call goes on. -/
theorem Sound.goes_on {world : GroupWorld P} (sound : world.Sound) (json : GroupJson P)
    {env : GroupEnv P} {client : Nat} {stage : GroupStage P} (kept : world.Kept stage)
    (reported : world.Reported (client, stage)) (smooth : world.Smooth env client stage) :
    ∃ after, (world.perform json env client stage).2 = .ok after := by
  have unhindered := smooth.unhindered
  cases stage with
  | admitMessages invitation =>
      exact ⟨_, next_of_ok (editAcl_ok smooth.works smooth.served .messages kept.host unhindered)⟩
  | admitManagement invitation =>
      exact ⟨_, next_of_ok (editAcl_ok smooth.works smooth.served .management kept.1.host
        unhindered)⟩
  | announce invitation =>
      exact ⟨_, next_of_ok (sendManagement_ok json smooth.works smooth.served _ _ kept.1.host
        unhindered)⟩
  | queue invitation => exact ⟨_, next_of_ok (queueInvite_ok json smooth.calm unhindered)⟩
  | join identity invite =>
      have stored : (world.transact client fun db => db.storeJoined env.client invite).2 =
          .ok () := by
        simp only [transact, ClientDb.storeJoined, smooth.calm, Bool.false_eq_true, if_false]
      exact ⟨_, next_of_ok stored⟩
  | report identity groupId =>
      obtain ⟨group, found⟩ := Option.isSome_iff_exists.mp
        (AList.lookup_isSome.mpr (reported identity groupId rfl))
      have loaded : (world.clients client).loadGroup env.client groupId
          "group not found after invite accept" = .ok group := by
        simp only [ClientDb.loadGroup, smooth.calm, Bool.false_eq_true, if_false, found]
      refine ⟨none, ?_⟩
      simp only [GroupWorld.perform, loaded]
      exact next_of_ok (sendManagement_ok json smooth.works smooth.served _ _
        (sound.members client groupId group found) (unhindered group found))
  | register draft | ownMessages draft | ownManagement draft | store draft =>
      exact absurd unhindered id

/-- In a considerate run, a step of an invite or of an acceptance in which nothing fails goes
through, whatever has happened since the call began. -/
theorem goes_on_of_smooth (free : P.CollisionFree) (config : ServerName → ServerConfig)
    (json : GroupJson P) {events : List (GroupEvent P)}
    (considerate : (machine config json).Along (Considerate json) (start fun _ => .empty) events)
    {world : GroupWorld P}
    (reached : (machine config json).exec (start fun _ => .empty) events = some world)
    {client : Nat} {stage : GroupStage P} (listed : (client, stage) ∈ world.calls)
    {env : GroupEnv P} (smooth : world.Smooth env client stage) :
    ∃ after, (world.perform json env client stage).2 = .ok after := by
  have sound := (sound_of_considerate free config json considerate).last reached
  have none_yet : (start (P := P) fun _ => .empty).AllReported :=
    fun call listed => absurd listed List.not_mem_nil
  have reported := (Machine.always_of_step AllReported.step events none_yet).last reached
  exact sound.goes_on json (sound.kept _ listed) (reported _ listed) smooth

/-- The run in which Alice begins to invite Bobby. -/
def invitingRun : List (GroupEvent symbolic) :=
  createdRun ++ [.begin 0 (.invite exampleGroup.id bobby)
    (calmEnv aliceIdentity 6 (WatchedServer.tokenOf 4))]

/-- The one call asks for the invited's first right, which nobody has yet. -/
def awaitsRight (world : GroupWorld symbolic) : Bool :=
  match world.calls with
  | [(0, .admitMessages invitation)] =>
      decide ((world.servers invitation.group.serverName).loadAclHash
        (.groupMessages invitation.groupId) (symbolic.bcsHash invitation.token) = none)
  | _ => false

/-- Alice's call goes on. -/
theorem goes_on_of_smooth_inviting : ∃ (world : GroupWorld symbolic) (stage : GroupStage symbolic),
    (machine (fun _ => WatchedServer.exampleServer) exampleJson).exec (start fun _ => .empty)
      invitingRun = some world ∧
    (0, stage) ∈ world.calls ∧
    ∃ after, (world.perform exampleJson (calmEnv aliceIdentity 7 (WatchedServer.tokenOf 9)) 0
      stage).2 = .ok after := by
  have ends : ((machine (fun _ => WatchedServer.exampleServer) exampleJson).exec
      (start fun _ => .empty) invitingRun).map awaitsRight = some true := by decide +kernel
  obtain ⟨world, reached, held⟩ := Option.map_eq_some_iff.mp ends
  unfold awaitsRight at held
  split at held
  · rename_i invitation calls
    have listed : (0, GroupStage.admitMessages invitation) ∈ world.calls :=
      calls ▸ List.mem_singleton_self _
    have fresh := of_decide_eq_true held
    refine ⟨world, .admitMessages invitation, reached, listed, ?_⟩
    exact goes_on_of_smooth symbolic_collisionFree _ exampleJson (by decide +kernel) reached listed
      ⟨rfl, rfl, fun _ => rfl, fresh⟩
  · cases held

end GroupWorld
end Nullspace
