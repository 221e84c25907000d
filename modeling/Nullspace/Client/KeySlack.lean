import Nullspace.Client.Replay
import Nullspace.Client.SendLoop

/-!
# One rekey of slack

A member of a group keeps two keys, and each rekey which is accepted moves them on by one. The
task of a group loads the row, waits for an entry, and writes the keys from the row which it
has loaded; what else the member does in the meantime leaves the keys alone.

`one_rekey_slack` says which keys these are, and that a message can be opened when its sender
has missed no more than the last rekey before it.
-/

namespace Nullspace

open Nullspace.Base

variable {P : Primitives}

/-- The task of a group, and the keys which it has accepted. The code keeps no such record. -/
structure GroupTask (P : Primitives) where
  db : ClientDb P
  /-- The row which `group_recv_task` has loaded for this turn. -/
  loaded : Option (GroupRecord P)
  /-- The keys of the rekeys which were accepted, in their order. -/
  keys : List AeadKey

inductive GroupTaskEvent (P : Primitives) where
  | load
  | messages (env : ClientEnv P) (entry : MailboxEntry P)
  | management (env : ClientEnv P) (entry : MailboxEntry P)
  /-- What the member does besides. -/
  | other (db : ClientDb P)

/-- The columns of a group's row which only a rekey changes. -/
def GroupRecord.settled (group : GroupRecord P) :
    GroupDescriptor P × ServerName × AeadKey × AeadKey :=
  (group.descriptor, group.serverName, group.keys)

namespace GroupTask

def start (db : ClientDb P) : GroupTask P := ⟨db, none, []⟩

/-- The key of the rekey which a round of the messages mailbox accepts. -/
def acceptedKey (env : ClientEnv P) (groupId : GroupId P) (db : ClientDb P)
    (entry : MailboxEntry P) : Option AeadKey :=
  (db.groups.lookup groupId).bind fun row => (row.accepts env groupId entry).map Prod.snd

/-- `group_recv_task`, and what happens beside it. -/
def machine (json : JsonReader P) (groupId : GroupId P) :
    Machine (GroupTask P) (GroupTaskEvent P) where
  step state
    | .load =>
        (state.db.groups.lookup groupId).map fun group => { state with loaded := some group }
    | .messages env entry =>
        state.loaded.map fun group =>
          { db := (state.db.groupRecvOnce json env groupId group .messages entry).1
            loaded := none
            keys := state.keys ++ (acceptedKey env groupId state.db entry).toList }
    | .management env entry =>
        state.loaded.map fun group =>
          { state with
            db := (state.db.groupRecvOnce json env groupId group .management entry).1
            loaded := none }
    | .other db =>
        if (db.groups.lookup groupId).map GroupRecord.settled =
            (state.db.groups.lookup groupId).map GroupRecord.settled then
          some { state with db := db }
        else none

end GroupTask

/-- A round reads no more of the row which was loaded. -/
theorem groupRecvOnce_congr (json : JsonReader P) (env : ClientEnv P) (groupId : GroupId P)
    {group row : GroupRecord P} (same : group.settled = row.settled) (kind : GroupMailboxKind)
    (entry : MailboxEntry P) (db : ClientDb P) :
    db.groupRecvOnce json env groupId group kind entry =
      db.groupRecvOnce json env groupId row kind entry := by
  obtain ⟨descriptor, serverName, token, current, prev, roster⟩ := group
  obtain ⟨descriptor', serverName', token', current', prev', roster'⟩ := row
  simp only [GroupRecord.settled, GroupRecord.keys, Prod.mk.injEq] at same
  obtain ⟨rfl, rfl, rfl, rfl⟩ := same
  cases kind <;> rfl

/-- The key after some of the rekeys, the initial one before all of them. -/
def keyAt (initial : AeadKey) (keys : List AeadKey) (accepted : Nat) : AeadKey :=
  (initial :: keys).getD accepted initial

/-- Later rekeys leave the earlier keys. -/
theorem keyAt_append {initial : AeadKey} {keys : List AeadKey} {accepted : Nat}
    (within : accepted ≤ keys.length) (later : List AeadKey) :
    keyAt initial (keys ++ later) accepted = keyAt initial keys accepted := by
  have inside : accepted < (initial :: keys).length := Nat.lt_succ_of_le within
  rw [keyAt, keyAt, ← List.cons_append, List.getD_append _ _ _ _ inside]

theorem keyAt_snoc (initial newKey : AeadKey) (keys : List AeadKey) :
    keyAt initial (keys ++ [newKey]) (keys.length + 1) = newKey := by
  rw [keyAt, List.getD_cons_succ, List.getD_append_right _ _ _ _ le_rfl, Nat.sub_self]
  rfl

namespace GroupTask

/-- The stored keys are the last one and the one before, and the row which is loaded has the
columns of the stored one. -/
structure Holds (groupId : GroupId P) (initial : AeadKey) (state : GroupTask P) : Prop where
  keys : state.db.groupKeys groupId = some (keyAt initial state.keys state.keys.length,
    keyAt initial state.keys (state.keys.length - 1))
  loaded : ∀ group, state.loaded = some group →
    ∃ row, state.db.groups.lookup groupId = some row ∧ group.settled = row.settled

variable {json : JsonReader P} {groupId : GroupId P} {initial : AeadKey}

theorem holds_start {db : ClientDb P} (keys : db.groupKeys groupId = some (initial, initial)) :
    (start db).Holds groupId initial where
  keys := keys
  loaded group found := by cases found

/-- The settled columns have the keys. -/
theorem keys_of_settled {group row : GroupRecord P} (same : group.settled = row.settled) :
    group.keys = row.keys := (Prod.mk.inj (Prod.mk.inj same).2).2

/-- A step which leaves the settled columns leaves the keys. -/
theorem groupKeys_of_settled {db next : ClientDb P}
    (same : (next.groups.lookup groupId).map GroupRecord.settled =
      (db.groups.lookup groupId).map GroupRecord.settled) :
    next.groupKeys groupId = db.groupKeys groupId := by
  have keys : ∀ db : ClientDb P, db.groupKeys groupId =
      ((db.groups.lookup groupId).map GroupRecord.settled).map fun columns => columns.2.2 := by
    intro db
    rw [ClientDb.groupKeys, ClientDb.loadedGroup, Option.map_map, Option.map_map]
    rfl
  rw [keys, keys, same]

/-- A rekey which is accepted moves both keys on by one. -/
theorem Holds.messages {state : GroupTask P} (holds : state.Holds groupId initial)
    {group : GroupRecord P} (loaded : state.loaded = some group) (env : ClientEnv P)
    (entry : MailboxEntry P) :
    (state.db.groupRecvOnce json env groupId group .messages entry).1.groupKeys groupId =
      some (keyAt initial (state.keys ++ (acceptedKey env groupId state.db entry).toList)
          (state.keys ++ (acceptedKey env groupId state.db entry).toList).length,
        keyAt initial (state.keys ++ (acceptedKey env groupId state.db entry).toList)
          ((state.keys ++ (acceptedKey env groupId state.db entry).toList).length - 1)) := by
  obtain ⟨row, listed, same⟩ := holds.loaded group loaded
  have stored := holds.keys
  rw [KeyRun.groupKeys_of_lookup listed] at stored
  rw [groupRecvOnce_congr json env groupId same, KeyRun.groupKeys_round json env _ entry listed,
    GroupRecord.received_messages_keys, acceptedKey, listed, Option.bind_some]
  cases row.accepts env groupId entry with
  | none => simpa using stored
  | some rekey =>
      obtain ⟨signed, newKey⟩ := rekey
      have current : row.groupKeyCurrent = keyAt initial state.keys state.keys.length :=
        (Prod.mk.inj (Option.some.inj stored)).1
      simp only [Option.map_some, Option.toList_some, List.length_append, List.length_singleton,
        Nat.add_sub_cancel]
      rw [keyAt_snoc, keyAt_append le_rfl, current]

/-- Every step leaves the last key and the one before. -/
theorem holds_step {state next : GroupTask P} {event : GroupTaskEvent P}
    (holds : state.Holds groupId initial)
    (taken : (machine json groupId).step state event = some next) :
    next.Holds groupId initial := by
  cases event with
  | load =>
      obtain ⟨row, listed, rfl⟩ := Option.map_eq_some_iff.mp taken
      exact ⟨holds.keys, fun group found => ⟨row, listed, by cases found; rfl⟩⟩
  | messages env entry =>
      obtain ⟨group, loaded, rfl⟩ := Option.map_eq_some_iff.mp taken
      exact ⟨holds.messages loaded env entry, fun _ found => by cases found⟩
  | management env entry =>
      obtain ⟨group, loaded, rfl⟩ := Option.map_eq_some_iff.mp taken
      obtain ⟨row, listed, same⟩ := holds.loaded group loaded
      refine ⟨?_, fun _ found => by cases found⟩
      have stored := holds.keys
      rw [KeyRun.groupKeys_of_lookup listed] at stored
      rw [groupRecvOnce_congr json env groupId same, KeyRun.groupKeys_round json env _ entry listed,
        GroupRecord.received_management_keys, stored]
  | other db =>
      simp only [machine] at taken
      split at taken
      · rename_i same
        cases taken
        refine ⟨(groupKeys_of_settled same).trans holds.keys, fun group found => ?_⟩
        obtain ⟨row, listed, settled⟩ := holds.loaded group found
        rw [listed, Option.map_some] at same
        obtain ⟨stored, now, columns⟩ := Option.map_eq_some_iff.mp same
        exact ⟨stored, now, settled.trans columns.symm⟩
      · cases taken

/-- A member who joined with some key, at some point of its run. -/
def Reached (json : JsonReader P) (groupId : GroupId P) (initial : AeadKey)
    (state : GroupTask P) : Prop :=
  ∃ db events, db.groupKeys groupId = some (initial, initial) ∧
    (machine json groupId).exec (start db) events = some state

/-- At every point of a member's run the stored keys are the last one and the one before. -/
theorem Reached.holds {state : GroupTask P} (reached : Reached json groupId initial state) :
    state.Holds groupId initial := by
  obtain ⟨db, events, keys, ends⟩ := reached
  exact (Machine.always_of_step holds_step events (holds_start keys)).last ends

end GroupTask

/-- Who has accepted more rekeys knows the keys of who has accepted less. -/
theorem keyAt_prefix {initial initial' : AeadKey} {fewer more : List AeadKey}
    (same : fewer <+: more) (start : fewer = [] → initial = initial') :
    keyAt initial' more fewer.length = keyAt initial fewer fewer.length := by
  obtain ⟨later, rfl⟩ := same
  rw [keyAt_append le_rfl]
  cases fewer with
  | nil => exact (start rfl).symm
  | cons first rest =>
      have inside : rest.length < (first :: rest).length := Nat.lt_succ_self _
      rw [keyAt, keyAt, List.length_cons, List.getD_cons_succ, List.getD_cons_succ,
        List.getD_eq_getElem _ _ inside, List.getD_eq_getElem _ _ inside]

/-- A message opens with either of the keys. -/
theorem openGroupMessage_sealGroup (sealing : P.Sealing) (identity : Identity P)
    (input : SealInput P) (content : Event P) {group row : GroupRecord P}
    (known : group.groupKeyCurrent = row.groupKeyCurrent ∨
      group.groupKeyCurrent = row.groupKeyPrev) :
    openGroupMessage row (identity.sealGroup input group content) =
      .ok (some (identity.signContent content)) := by
  simp only [openGroupMessage, Identity.sealGroup, ne_eq, not_true_eq_false, if_false,
    Bcs.fromBytes_toBytes, GroupMessage.decryptMessage, GroupMessage.encryptMessage]
  by_cases current : row.groupKeyCurrent = group.groupKeyCurrent
  · rw [current, sealing.opens]
    simp only [Bcs.fromBytes_toBytes]
    rfl
  · have prev : row.groupKeyPrev = group.groupKeyCurrent :=
      (known.resolve_left (Ne.symm current)).symm
    rw [sealing.rejects current, prev, sealing.opens]
    simp only [Bcs.fromBytes_toBytes]
    rfl

open GroupTask in
/-- After each prefix of its log a member has the key of the last rekey which it has accepted
and the key before. Whoever comes to a message opens it, if its sender had accepted the same
rekeys but for the last one at most. -/
theorem one_rekey_slack (sealing : P.Sealing) (json : JsonReader P) (groupId : GroupId P) :
    (∀ initial db events, db.groupKeys groupId = some (initial, initial) →
      (machine json groupId).Always (fun state => state.db.groupKeys groupId =
        some (keyAt initial state.keys state.keys.length,
          keyAt initial state.keys (state.keys.length - 1))) (start db) events) ∧
    ∀ senderInitial receiverInitial sender receiver, Reached json groupId senderInitial sender →
      Reached json groupId receiverInitial receiver → sender.keys <+: receiver.keys →
      (sender.keys = [] → senderInitial = receiverInitial) →
      receiver.keys.length ≤ sender.keys.length + 1 →
      ∀ (identity : Identity P) (input : SealInput P) (content : Event P) (group : GroupRecord P),
        sender.db.groups.lookup groupId = some group → ∀ row, receiver.loaded = some row →
          openGroupMessage row (identity.sealGroup input group content) =
            .ok (some (identity.signContent content)) := by
  constructor
  · intro initial db events keys before within state reached
    exact (Machine.always_of_step holds_step events (holds_start keys) before within state
      reached).keys
  · intro senderInitial receiverInitial sender receiver sends receives same start slack identity
      input content group listed row loaded
    apply openGroupMessage_sealGroup sealing
    have sent := sends.holds.keys
    rw [KeyRun.groupKeys_of_lookup listed] at sent
    have key : group.groupKeyCurrent = keyAt senderInitial sender.keys sender.keys.length :=
      (Prod.mk.inj (Option.some.inj sent)).1
    obtain ⟨stored, found, settled⟩ := receives.holds.loaded row loaded
    have kept := receives.holds.keys
    rw [KeyRun.groupKeys_of_lookup found, ← keys_of_settled settled] at kept
    obtain ⟨current, prev⟩ := Prod.mk.inj (Option.some.inj kept)
    rw [← keyAt_prefix same start] at key
    rcases Nat.eq_or_lt_of_le same.length_le with level | behind
    · left
      rw [key, level]
      exact current.symm
    · right
      rw [key, show sender.keys.length = receiver.keys.length - 1 by omega]
      exact prev.symm

/-- Bobby has loaded the row after Alice's first rekey. -/
def rekeyedRun : List (GroupTaskEvent symbolic) :=
  [.load, .messages KeyRun.quietEnv (rekeyEntry alice 1 (symbolicKey 3) 5), .load]

/-- A message of a member who has not seen the rekey yet. -/
def slackInput : SealInput symbolic := ⟨[], 0, symbolicKey 0, zeroNonce, none⟩

def slackContent : Event symbolic :=
  ⟨.group exampleGroup.id, 7, "text/plain", utf8 "hello"⟩

theorem one_rekey_slack_symbolic :
    ∃ row : GroupRecord symbolic, row.keys = (symbolicKey 3, symbolicKey 1) ∧
      openGroupMessage row (aliceIdentity.sealGroup slackInput joinedGroup slackContent) =
        .ok (some (aliceIdentity.signContent slackContent)) := by
  have ends : ((GroupTask.machine symbolicJson exampleGroup.id).exec (GroupTask.start joinedDb)
      rekeyedRun).map (fun state => (state.loaded.map GroupRecord.keys, state.keys)) =
        some (some (symbolicKey 3, symbolicKey 1), [symbolicKey 3]) := by decide +kernel
  obtain ⟨receiver, reached, held⟩ := Option.map_eq_some_iff.mp ends
  obtain ⟨loadedKeys, keys⟩ := Prod.mk.inj held
  obtain ⟨row, loaded, rowKeys⟩ := Option.map_eq_some_iff.mp loadedKeys
  have joined : joinedDb.groupKeys exampleGroup.id = some (symbolicKey 1, symbolicKey 1) :=
    KeyRun.groupKeys_of_lookup joinedDb_lookup
  refine ⟨row, rowKeys, (one_rekey_slack symbolic_sealing symbolicJson exampleGroup.id).2 _ _
    (GroupTask.start joinedDb) receiver ⟨joinedDb, [], joined, rfl⟩
    ⟨joinedDb, rekeyedRun, joined, reached⟩ List.nil_prefix (fun _ => rfl) ?_ aliceIdentity
    slackInput slackContent joinedGroup joinedDb_lookup row loaded⟩
  rw [keys]
  exact le_rfl

end Nullspace
