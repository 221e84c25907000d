import Nullspace.Client.Groups
import Nullspace.Client.Rounds

/-!
# What stays in a group's row

Receiving an entry changes a group's keys and its roster, and the calls of the user insert
rows; the descriptor, the server and the token of a group are never written again.
-/

namespace Nullspace

open Nullspace.Base

variable {P : Primitives}

/-- The columns of a group's row which are written once. -/
def GroupRecord.fixed (group : GroupRecord P) : GroupDescriptor P × ServerName × AuthToken :=
  (group.descriptor, group.serverName, group.token)

namespace ClientDb

/-- The groups are the same, each with its descriptor, server and token. -/
def SameGroups (db next : ClientDb P) : Prop :=
  ∀ groupId, (next.groups.lookup groupId).map GroupRecord.fixed =
    (db.groups.lookup groupId).map GroupRecord.fixed

theorem SameGroups.refl (db : ClientDb P) : SameGroups db db := fun _ => rfl

theorem SameGroups.trans {first second third : ClientDb P} (before : SameGroups first second)
    (after : SameGroups second third) : SameGroups first third :=
  fun groupId => (after groupId).trans (before groupId)

theorem sameGroups_of_eq {db next : ClientDb P} (same : next.groups = db.groups) :
    SameGroups db next := by
  intro groupId
  rw [same]

/-- A row is found after a step exactly when one with the same fixed columns was there. -/
theorem SameGroups.lookup {db next : ClientDb P} (same : SameGroups db next)
    {groupId : GroupId P} {group : GroupRecord P} (found : next.groups.lookup groupId = some group) :
    ∃ earlier, db.groups.lookup groupId = some earlier ∧ earlier.fixed = group.fixed := by
  have columns := same groupId
  rw [found] at columns
  exact Option.map_eq_some_iff.mp columns.symm

theorem sameGroups_updateGroup (db : ClientDb P) (groupId : GroupId P)
    {change : GroupRecord P → GroupRecord P} (keeps : ∀ group, (change group).fixed = group.fixed) :
    SameGroups db (db.updateGroup groupId change) := by
  intro other
  rw [updateGroup]
  cases listed : db.groups.lookup groupId with
  | none => rfl
  | some group =>
      dsimp only
      rw [Table.lookup_insert_eq]
      split
      · rename_i same
        rw [same, listed, Option.map_some, Option.map_some, keeps]
      · rfl

theorem sameGroups_loadRoster (env : ClientEnv P) (groupId : GroupId P) (initAdmin : UserName)
    (db : ClientDb P) : SameGroups db (db.loadRoster env groupId initAdmin).1 := by
  have roster : ∀ (db : ClientDb P) (change : GroupRecord P → GroupRoster),
      SameGroups db (db.updateGroup groupId fun group => { group with roster := change group }) :=
    fun db change => sameGroups_updateGroup db groupId fun _ => rfl
  simp only [loadRoster]
  split
  · exact .refl db
  · split
    · exact .refl db
    · split
      · exact .refl db
      · split
        · exact .refl db
        · split
          · exact roster db _
          · exact (roster db _).trans (roster _ _)

theorem sameGroups_rekey (env : ClientEnv P) (groupId : GroupId P) (group : GroupRecord P)
    (message : Blob) (db : ClientDb P) :
    SameGroups db (db.processGroupRekeyEntry env groupId group message).1 := by
  have loads := sameGroups_loadRoster env groupId group.descriptor.initAdmin db
  simp only [processGroupRekeyEntry]
  split
  · exact .refl db
  · split
    · exact .refl db
    · split
      · exact .refl db
      · split
        · exact .refl db
        · generalize db.loadRoster env groupId group.descriptor.initAdmin = loaded at loads
          obtain ⟨next, outcome⟩ := loaded
          cases outcome with
          | error err => exact loads
          | ok _ =>
              dsimp only at loads ⊢
              repeat' split
              all_goals first
                | exact loads
                | exact loads.trans (sameGroups_updateGroup next groupId fun _ => rfl)

theorem sameGroups_management (env : ClientEnv P) (groupId : GroupId P) (initAdmin sender : UserName)
    (manage : GroupManageMsg) (db : ClientDb P) :
    SameGroups db (db.applyManagement env groupId initAdmin sender manage).1 := by
  have loads := sameGroups_loadRoster env groupId initAdmin db
  simp only [applyManagement]
  split
  · exact .refl db
  · generalize db.loadRoster env groupId initAdmin = loaded at loads
    obtain ⟨next, outcome⟩ := loaded
    cases outcome with
    | error err => exact .refl db
    | ok _ =>
        dsimp only at loads ⊢
        split
        · exact .refl db
        · split
          · exact .refl db
          · exact loads.trans (sameGroups_updateGroup next groupId fun _ => rfl)

theorem sameGroups_entry (json : JsonReader P) (env : ClientEnv P) (groupId : GroupId P)
    (group : GroupRecord P) (kind : GroupMailboxKind) (entry : MailboxEntry P) (db : ClientDb P) :
    SameGroups db (db.processGroupEntry json env groupId group kind entry).1 := by
  cases kind with
  | messages =>
      by_cases rekey : entry.message.kind = Blob.v1GroupRekey
      · simp only [processGroupEntry, processGroupMessageEntry, if_pos rekey]
        exact sameGroups_rekey env groupId group entry.message db
      · exact sameGroups_of_eq (db.processGroupMessageEntry_spec json env groupId group rekey).2.groups
  | management =>
      simp only [processGroupEntry, processGroupManagementEntry]
      repeat' split
      all_goals first
        | exact .refl db
        | exact sameGroups_management env groupId _ _ _ db

theorem sameGroups_recvOnce (json : JsonReader P) (env : ClientEnv P) (groupId : GroupId P)
    (group : GroupRecord P) (kind : GroupMailboxKind) (entry : MailboxEntry P) (db : ClientDb P) :
    SameGroups db (db.groupRecvOnce json env groupId group kind entry).1 := by
  by_cases prepares : env.fails .prepare = true
  · simp only [groupRecvOnce, prepares, if_true]
    exact .refl db
  by_cases stores : env.fails .cursor = true
  · simp only [groupRecvOnce, prepares, stores, if_true]
    exact sameGroups_of_eq rfl
  · rw [Bool.not_eq_true] at prepares stores
    rw [groupRecvOnce_stored json groupId group kind entry db prepares stores]
    exact (sameGroups_of_eq rfl).trans (sameGroups_entry json env groupId group kind entry _)

/-- An entry of the direct mailbox leaves the groups the same. -/
theorem sameGroups_direct (json : JsonReader P) (env : ClientEnv P) (key : MailboxKey P)
    (entry : MailboxEntry P) (db : ClientDb P) :
    SameGroups db (db.processMailboxEntry json env key entry).1 := by
  simp only [processMailboxEntry]
  split
  · exact .refl db
  · split
    · exact .refl db
    · split
      · exact .refl db
      · rename_i identity _ _
        refine sameGroups_of_eq ?_
        exact (receiveDirect_spec json env identity entry _).2.groups

theorem groups_queueMessage (json : JsonReader P) (env : ClientEnv P) (convo : ConvoId P)
    (sender : UserName) (mime : String) (body : Bytes) (sentAt : NanoTimestamp)
    (db : ClientDb P) :
    (db.queueMessage json env convo sender mime body sentAt).1.groups = db.groups := by
  have opened := (beside_ensureConvoId db convo env.now).groups
  simp only [queueMessage]
  split
  · rfl
  · split
    · exact opened
    · split
      · exact opened
      · rename_i attachment
        obtain ⟨roots, rooted⟩ := storeAttachment_eq json sender ⟨convo.recipient, sentAt, mime, body⟩
          ((db.ensureConvoId convo env.now).1.appendRow (db.ensureConvoId convo env.now).2
            ⟨sender, mime, body, sentAt⟩ none none)
        rw [rooted]
        exact opened

/-- The row of a group which its creator has. -/
def createdRow (draft : GroupDraft P) : GroupRecord P :=
  ⟨draft.descriptor, draft.descriptor.server, draft.token, draft.groupKey, draft.groupKey,
    GroupRoster.empty.ensureInitialized draft.descriptor.initAdmin⟩

/-- The row of a group which somebody has who was invited. -/
def joinedRow (invite : GroupInviteMsg P) : GroupRecord P :=
  ⟨invite.descriptor, invite.descriptor.server, invite.token, invite.groupKey, invite.groupKey,
    .empty⟩

/-- A group is stored once by its creator, or not at all. -/
theorem storeCreated_cases (env : GroupEnv P) (draft : GroupDraft P) (db : ClientDb P) :
    (∃ err, db.storeCreated env draft = (db, .error err)) ∨
      draft.descriptor.id ∉ db.groups ∧ ∃ next, db.storeCreated env draft = (next, .ok ()) ∧
        next.groups = db.groups.insert draft.descriptor.id (createdRow draft) := by
  simp only [storeCreated]
  split
  · exact .inl ⟨_, rfl⟩
  · split
    · exact .inl ⟨_, rfl⟩
    · rename_i absent
      refine .inr ⟨absent, _, rfl, ?_⟩
      rw [(beside_ensureConvoId _ _ _).groups]
      rfl

/-- A joined group is stored where it is new. -/
theorem storeJoined_cases (env : ClientEnv P) (invite : GroupInviteMsg P) (db : ClientDb P) :
    (∃ err, db.storeJoined env invite = (db, .error err)) ∨
      ∃ next, db.storeJoined env invite = (next, .ok ()) ∧
        next.groups = if invite.descriptor.id ∈ db.groups then db.groups
          else db.groups.insert invite.descriptor.id (joinedRow invite) := by
  simp only [storeJoined]
  split
  · exact .inl ⟨_, rfl⟩
  · refine .inr ⟨_, rfl, ?_⟩
    rw [(beside_ensureConvoId _ _ _).groups]
    split <;> rfl

end ClientDb

namespace GroupWorld

/-- A call fails with or without its effect, or is answered. -/
theorem callServer_cases {Answer : Type} (world : GroupWorld P) (fate : Fate) (server : ServerName)
    (run : ServerDb P → ServerDb P × Except ServerRpcError Answer) :
    (∃ err, (world.callServer fate server run).2 = .error err ∧
        ((world.callServer fate server run).1 = world ∨
          (world.callServer fate server run).1 =
            world.setServer server (run (world.servers server)).1)) ∨
      ∃ answer, (run (world.servers server)).2 = .ok answer ∧
        world.callServer fate server run =
          (world.setServer server (run (world.servers server)).1, .ok answer) := by
  cases fate with
  | failsBefore => exact .inl ⟨_, rfl, .inl rfl⟩
  | failsAfter => exact .inl ⟨_, rfl, .inr rfl⟩
  | works =>
      cases answered : (run (world.servers server)).2 with
      | error err =>
          refine .inl ⟨.entry (.said err.message), ?_, .inr rfl⟩
          simp only [callServer, answered]
      | ok answer =>
          refine .inr ⟨answer, rfl, ?_⟩
          simp only [callServer, answered]

theorem clients_callServer {Answer : Type} (world : GroupWorld P) (fate : Fate)
    (server : ServerName) (run : ServerDb P → ServerDb P × Except ServerRpcError Answer) :
    (world.callServer fate server run).1.clients = world.clients := by
  cases fate <;> rfl

@[simp] theorem next_fst {Answer : Type} (stage : Option (GroupStage P))
    (outcome : GroupWorld P × Except GroupError Answer) : (next stage outcome).1 = outcome.1 := by
  obtain ⟨world, result⟩ := outcome
  cases result <;> rfl

theorem next_ok {Answer : Type} {stage : Option (GroupStage P)} {after : Option (GroupStage P)}
    {outcome : GroupWorld P × Except GroupError Answer}
    (goes : (next stage outcome).2 = .ok after) :
    after = stage ∧ ∃ answer, outcome.2 = .ok answer := by
  obtain ⟨world, result⟩ := outcome
  cases result with
  | error err => cases goes
  | ok answer =>
      cases goes
      exact ⟨rfl, answer, rfl⟩

end GroupWorld

/-- The row is under the hash of its descriptor, and names the descriptor's server. -/
structure GroupRecord.Proper (group : GroupRecord P) (groupId : GroupId P) : Prop where
  hashed : group.descriptor.id = groupId
  server : group.serverName = group.descriptor.server

/-- A row is proper by its fixed columns. -/
theorem GroupRecord.Proper.of_fixed {group other : GroupRecord P} {groupId : GroupId P}
    (proper : group.Proper groupId) (same : group.fixed = other.fixed) : other.Proper groupId := by
  obtain ⟨descriptor, rest⟩ := Prod.mk.inj same
  obtain ⟨server, _⟩ := Prod.mk.inj rest
  exact ⟨descriptor ▸ proper.hashed, server ▸ descriptor ▸ proper.server⟩

namespace ClientDb

/-- No group's fixed columns change, and each new row is proper. -/
structure Steady (db next : ClientDb P) : Prop where
  kept : ∀ groupId group, db.groups.lookup groupId = some group →
    ∃ later, next.groups.lookup groupId = some later ∧ later.fixed = group.fixed
  fresh : ∀ groupId group, next.groups.lookup groupId = some group →
    (∃ earlier, db.groups.lookup groupId = some earlier ∧ earlier.fixed = group.fixed) ∨
      group.Proper groupId

/-- Where the groups are the same no row is new. -/
theorem SameGroups.steady {db next : ClientDb P} (same : SameGroups db next) : Steady db next where
  kept groupId group found := by
    have columns := same groupId
    rw [found] at columns
    exact Option.map_eq_some_iff.mp columns
  fresh groupId group found := .inl (same.lookup found)

theorem steady_insert {db next : ClientDb P} {groupId : GroupId P} {group : GroupRecord P}
    (absent : groupId ∉ db.groups) (proper : group.Proper groupId)
    (inserted : next.groups = db.groups.insert groupId group) : Steady db next where
  kept other row found := by
    have apart : other ≠ groupId := by
      rintro rfl
      exact absent (AList.lookup_isSome.mp (by rw [found]; rfl))
    refine ⟨row, ?_, rfl⟩
    rw [inserted, AList.lookup_insert_ne apart, found]
  fresh other row found := by
    rw [inserted] at found
    rcases Table.lookup_insert_cases found with ⟨rfl, rfl⟩ | earlier
    · exact .inr proper
    · exact .inl ⟨row, earlier, rfl⟩

theorem steady_storeCreated (env : GroupEnv P) (draft : GroupDraft P) (db : ClientDb P) :
    Steady db (db.storeCreated env draft).1 := by
  rcases storeCreated_cases env draft db with ⟨err, outcome⟩ | ⟨absent, next, outcome, groups⟩
  · rw [outcome]
    exact (SameGroups.refl db).steady
  · rw [outcome]
    exact steady_insert absent ⟨rfl, rfl⟩ groups

theorem steady_storeJoined (env : ClientEnv P) (invite : GroupInviteMsg P) (db : ClientDb P) :
    Steady db (db.storeJoined env invite).1 := by
  rcases storeJoined_cases env invite db with ⟨err, outcome⟩ | ⟨next, outcome, groups⟩
  · rw [outcome]
    exact (SameGroups.refl db).steady
  · rw [outcome]
    by_cases present : invite.descriptor.id ∈ db.groups
    · rw [if_pos present] at groups
      exact (sameGroups_of_eq groups).steady
    · rw [if_neg present] at groups
      exact steady_insert present ⟨rfl, rfl⟩ groups

end ClientDb

namespace GroupWorld

/-- The groups of all clients. -/
def Steady (world next : GroupWorld P) : Prop :=
  ∀ client, (world.clients client).Steady (next.clients client)

theorem steady_of_eq {world next : GroupWorld P} (same : next.clients = world.clients) :
    Steady world next := by
  intro client
  rw [same]
  exact (ClientDb.SameGroups.refl _).steady

theorem steady_setClient (world : GroupWorld P) {client : Nat} {db : ClientDb P}
    (steady : (world.clients client).Steady db) : Steady world (world.setClient client db) := by
  intro other
  by_cases same : other = client
  · subst same
    rw [setClient_same]
    exact steady
  · rw [setClient_of_ne same]
    exact (ClientDb.SameGroups.refl _).steady

theorem steady_queueInvite (json : GroupJson P) (env : GroupEnv P) (client : Nat)
    (invitation : Invitation P) (world : GroupWorld P) :
    Steady world (world.queueInvite json env client invitation).1 := by
  have groups := ClientDb.groups_queueMessage json.reader env.client
    (.direct invitation.username) invitation.identity.username GroupInviteMsg.mimeType
    (json.writeInvite (invitation.message env.earlier)) env.client.now (world.clients client)
  have steady := steady_setClient world (ClientDb.sameGroups_of_eq groups).steady
  rw [queueInvite]
  split
  rename_i queued outcome
  rw [outcome] at steady
  split <;> exact steady

/-- Every step of a group operation is steady. -/
theorem steady_perform (json : GroupJson P) (env : GroupEnv P) (client : Nat)
    (world : GroupWorld P) (stage : GroupStage P) :
    Steady world (world.perform json env client stage).1 := by
  cases stage with
  | store draft =>
      rw [perform, next_fst]
      exact steady_setClient world (ClientDb.steady_storeCreated env draft _)
  | join identity invite =>
      rw [perform, next_fst]
      exact steady_setClient world (ClientDb.steady_storeJoined env.client invite _)
  | queue invitation =>
      rw [perform, next_fst]
      exact steady_queueInvite json env client invitation world
  | report identity groupId =>
      rw [perform]
      split
      · exact steady_of_eq rfl
      · rw [next_fst]
        exact steady_of_eq (clients_callServer _ _ _ _)
  | _ =>
      rw [perform, next_fst]
      exact steady_of_eq (clients_callServer _ _ _ _)

theorem settle_clients (position client : Nat)
    (outcome : GroupWorld P × Except GroupError (Option (GroupStage P))) :
    (settle position client outcome).clients = outcome.1.clients := by
  obtain ⟨world, result⟩ := outcome
  cases result with
  | error err => rfl
  | ok stage => cases stage <;> rfl

/-- Every step is steady. -/
theorem steady_step {config : ServerName → ServerConfig} {json : GroupJson P}
    {world next : GroupWorld P} {event : GroupEvent P}
    (taken : (machine config json).step world event = some next) : Steady world next := by
  cases event with
  | begin client call env =>
      simp only [machine] at taken
      split at taken
      · cases taken
      · split at taken <;> cases taken <;> exact steady_of_eq rfl
  | advance position env =>
      simp only [machine] at taken
      split at taken
      · cases taken
      · rename_i client stage _
        cases taken
        have performed := steady_perform json env client world stage
        intro other
        rw [settle_clients]
        exact performed other
  | stop position =>
      cases taken
      exact steady_of_eq rfl
  | serve server env request =>
      cases taken
      exact steady_of_eq rfl
  | receive client env groupId kind entry =>
      simp only [machine] at taken
      split at taken
      · cases taken
      · cases taken
        exact steady_setClient world (ClientDb.sameGroups_recvOnce _ _ _ _ _ _ _).steady
  | direct client env key entry =>
      cases taken
      exact steady_setClient world (ClientDb.sameGroups_direct _ _ _ _ _).steady
  | load client env groupId =>
      simp only [machine] at taken
      split at taken
      · cases taken
      · cases taken
        exact steady_setClient world (ClientDb.sameGroups_loadRoster _ _ _ _).steady
  | other client db =>
      cases taken
      refine steady_setClient world (ClientDb.SameGroups.steady ?_)
      exact ClientDb.sameGroups_of_eq rfl

/-- Every group's row is under the hash of its descriptor. -/
def RowsProper (world : GroupWorld P) : Prop :=
  ∀ client groupId group, (world.clients client).groups.lookup groupId = some group →
    group.Proper groupId

theorem rowsProper_start (servers : ServerName → ServerDb P) : (start servers).RowsProper := by
  intro client groupId group found
  simp [start, ClientDb.empty] at found

/-- Every step leaves the rows under the hashes of their descriptors. -/
theorem RowsProper.step {config : ServerName → ServerConfig} {json : GroupJson P}
    {world next : GroupWorld P} {event : GroupEvent P} (proper : world.RowsProper)
    (taken : (machine config json).step world event = some next) : next.RowsProper := by
  intro client groupId group found
  rcases (steady_step taken client).fresh groupId group found with ⟨earlier, listed, same⟩ | new
  · exact (proper client groupId earlier listed).of_fixed same
  · exact new

/-- A group which a client has stays, with its descriptor, its server and its token. -/
theorem group_stays {config : ServerName → ServerConfig} {json : GroupJson P}
    {world later : GroupWorld P} {events : List (GroupEvent P)}
    (reached : (machine config json).exec world events = some later) {client : Nat}
    {groupId : GroupId P} {group : GroupRecord P}
    (found : (world.clients client).groups.lookup groupId = some group) :
    ∃ row, (later.clients client).groups.lookup groupId = some row ∧ row.fixed = group.fixed := by
  induction events generalizing world group with
  | nil =>
      cases reached
      exact ⟨group, found, rfl⟩
  | cons event events ih =>
      rw [Machine.exec_cons] at reached
      obtain ⟨middle, taken, rest⟩ := Option.bind_eq_some_iff.mp reached
      obtain ⟨row, listed, same⟩ := (steady_step taken client).kept groupId group found
      obtain ⟨final, kept, columns⟩ := ih rest listed
      exact ⟨final, kept, columns.trans same⟩

/-- Whatever invites are made up and accepted: all who have a group under one identifier have
one descriptor and one server for it, and whoever has a group keeps these and its token. -/
theorem groups_fixed (free : P.CollisionFree) (config : ServerName → ServerConfig)
    (json : GroupJson P) (servers : ServerName → ServerDb P) {events : List (GroupEvent P)}
    {world : GroupWorld P} (reached : (machine config json).exec (start servers) events = some world)
    {client : Nat} {groupId : GroupId P} {group : GroupRecord P}
    (found : (world.clients client).groups.lookup groupId = some group) :
    (∀ other row, (world.clients other).groups.lookup groupId = some row →
      row.descriptor = group.descriptor ∧ row.serverName = group.serverName) ∧
    ∀ more later, (machine config json).exec world more = some later →
      ∃ row, (later.clients client).groups.lookup groupId = some row ∧ row.fixed = group.fixed := by
  have proper : world.RowsProper :=
    (Machine.always_of_step RowsProper.step events (rowsProper_start servers)).last reached
  refine ⟨?_, fun more later continues => group_stays continues found⟩
  intro other row listed
  have own := proper client groupId group found
  have theirs := proper other groupId row listed
  have hashes : P.bcsHash row.descriptor = P.bcsHash group.descriptor :=
    congrArg GroupId.hash (theirs.hashed.trans own.hashed.symm)
  have same : row.descriptor = group.descriptor := free.bcsHash_inj.mp hashes
  exact ⟨same, by rw [theirs.server, own.server, same]⟩

/-- Bobby has the group which Alice has made, and keeps it. -/
theorem groups_fixed_joined : ∃ (world : GroupWorld symbolic) (group : GroupRecord symbolic),
    (machine (fun _ => WatchedServer.exampleServer) exampleJson).exec (start fun _ => .empty)
      joinedRun = some world ∧
    ((∀ other row, (world.clients other).groups.lookup exampleGroup.id = some row →
      row.descriptor = group.descriptor ∧ row.serverName = group.serverName) ∧
    ∀ more later,
      (machine (fun _ => WatchedServer.exampleServer) exampleJson).exec world more = some later →
        ∃ row, (later.clients 1).groups.lookup exampleGroup.id = some row ∧
          row.fixed = group.fixed) := by
  have ends : ((machine (fun _ => WatchedServer.exampleServer) exampleJson).exec
      (start fun _ => .empty) joinedRun).map
        (fun world => ((world.clients 1).groups.lookup exampleGroup.id).isSome) = some true := by
    decide +kernel
  obtain ⟨world, reached, held⟩ := Option.map_eq_some_iff.mp ends
  obtain ⟨group, found⟩ := Option.isSome_iff_exists.mp held
  exact ⟨world, group, reached,
    groups_fixed symbolic_collisionFree _ exampleJson (fun _ => .empty) reached found⟩

end GroupWorld
end Nullspace
