import Nullspace.Base.Machine
import Nullspace.Client.Rounds

/-!
# Where a received row comes from

The mailbox is the attacker's: any bytes, in any order, under any keys he knows. A row which
the receive loops insert nevertheless carries an event which a device of its sender signed,
for the very conversation it stands in. `received_backed` follows the two receive paths
through a run, and `Backed.unique` keeps one signed event out of a second conversation.
-/

namespace Nullspace

open Nullspace.Base

variable {P : Primitives}

/-- The event which a signed payload carries. -/
def DeviceSigned.event? (signed : DeviceSigned P) : Option (Event P) :=
  match Bcs.fromBytes (α := Blob) signed.body with
  | none => none
  | some message =>
      if message.kind = Blob.v1MessageContent then Bcs.fromBytes message.inner else none

/-- An event which is read was signed by the sender's device. -/
theorem readContent_eq_ok {signed : DeviceSigned P} {clock : Timestamp} {rootHash : P.Hash}
    {refusal : String} {content : Event P}
    (read : readContent signed clock rootHash refusal = .ok (some content)) :
    signed.authentic clock rootHash = true ∧ signed.event? = some content := by
  simp only [readContent, DeviceSigned.verifyBlob, DeviceSigned.verifyBytes] at read
  cases authentic : signed.authentic clock rootHash with
  | false => simp [authentic] at read
  | true =>
      simp only [authentic, if_true] at read
      refine ⟨rfl, ?_⟩
      rw [DeviceSigned.event?]
      cases decoded : Bcs.fromBytes (α := Blob) signed.body with
      | none => simp [decoded] at read
      | some message =>
          simp only [decoded] at read
          split at read
          · cases read
          · rename_i kind
            dsimp only
            rw [if_pos (not_not.mp kind)]
            split at read
            · cases read
            · rename_i event readEvent
              cases read
              exact readEvent

/-- The conversation of an event, for a user: the group it names, or the other party of the
user's. -/
def Addressed (localUser sender : UserName) (recipient : Recipient P) : ConvoId P → Prop
  | .group group => recipient = .group group
  | .direct peer =>
      (recipient = .user localUser ∧ sender = peer) ∨ (recipient = .user peer ∧ sender = localUser)

/-- An event is addressed to one conversation. -/
theorem Addressed.unique {localUser sender : UserName} {recipient : Recipient P}
    {first second : ConvoId P} (one : Addressed localUser sender recipient first)
    (other : Addressed localUser sender recipient second) : first = second := by
  cases first with
  | group group =>
      cases one
      cases second with
      | group otherGroup =>
          cases other
          rfl
      | direct peer => simp [Addressed] at other
  | direct peer =>
      cases second with
      | group group =>
          cases other
          simp [Addressed] at one
      | direct otherPeer =>
          simp only [Addressed] at one other
          congr 1
          rcases one with ⟨rfl, rfl⟩ | ⟨rfl, rfl⟩
          · rcases other with ⟨_, same⟩ | ⟨sent, received⟩
            · exact same
            · cases sent
              exact received
          · rcases other with ⟨sent, same⟩ | ⟨sent, _⟩
            · cases sent
              exact same
            · cases sent
              rfl

/-- A direct event is read for the conversation to which it is addressed. -/
theorem readDirect_addressed {identity : Identity P} {signed : DeviceSigned P} {clock : Timestamp}
    {rootHash : P.Hash} {convo : ConvoId P} {content : Event P}
    (read : readDirect identity signed clock rootHash = .ok (some (convo, content))) :
    signed.authentic clock rootHash = true ∧ signed.event? = some content ∧
      Addressed identity.username signed.sender content.recipient convo := by
  simp only [readDirect] at read
  split at read
  · cases read
  · cases read
  · rename_i event readEvent
    obtain ⟨authentic, event⟩ := readContent_eq_ok readEvent
    simp only [Except.ok.injEq, Option.map_eq_some_iff, Prod.mk.injEq] at read
    obtain ⟨_, peer, rfl, rfl⟩ := read
    refine ⟨authentic, event, ?_⟩
    rw [directPeer] at peer
    split at peer
    · cases peer
    · rename_i recipient toUser
      split at peer
      · cases peer
      · rename_i parties
        cases peer
        rw [not_and_or, not_not, not_not] at parties
        rw [toUser]
        by_cases own : signed.sender = identity.username
        · rw [if_pos own]
          exact Or.inr ⟨rfl, own⟩
        · rw [if_neg own]
          exact Or.inl ⟨congrArg _ (parties.resolve_right own), rfl⟩

/-- A group event is read for the group to which it is addressed. -/
theorem readGroupEvent_addressed {groupId : GroupId P} {signed : DeviceSigned P}
    {clock : Timestamp} {rootHash : P.Hash} {convo : ConvoId P} {content : Event P}
    (localUser : UserName)
    (read : readGroupEvent groupId signed clock rootHash = .ok (some (convo, content))) :
    signed.authentic clock rootHash = true ∧ signed.event? = some content ∧
      Addressed localUser signed.sender content.recipient convo := by
  simp only [readGroupEvent] at read
  split at read
  · cases read
  · cases read
  · rename_i event readEvent
    obtain ⟨authentic, event⟩ := readContent_eq_ok readEvent
    split at read
    · cases read
    · rename_i toGroup
      cases read
      exact ⟨authentic, event, not_not.mp toGroup⟩

namespace ClientDb

/-- The primary key of `convos`: no two rows have one identifier. -/
def Keyed (db : ClientDb P) : Prop := (db.convos.rows.map fun row => row.2.id).Nodup

instance (db : ClientDb P) : Decidable db.Keyed :=
  inferInstanceAs (Decidable (List.Nodup _))

/-- The conversation which an identifier stands for. -/
def convoOf? (db : ClientDb P) (id : Nat) : Option (ConvoId P) :=
  (db.convos.rows.find? fun row => decide (row.2.id = id)).map Prod.fst

/-- A conversation is found by its identifier. -/
theorem convoOf_eq_some {db : ClientDb P} (keyed : db.Keyed) {convo : ConvoId P} {row : ConvoRow}
    (listed : db.convos.lookup convo = some row) : db.convoOf? row.id = some convo := by
  have here : (convo, row) ∈ db.convos.rows := Table.mem_rows.mpr listed
  rw [convoOf?, Option.map_eq_some_iff]
  cases found : db.convos.rows.find? fun other => decide (other.2.id = row.id) with
  | none =>
      have apart := List.find?_eq_none.mp found (convo, row) here
      simp at apart
  | some other =>
      have same : other.2.id = row.id := by simpa using List.find?_some found
      have equal : other = (convo, row) :=
        List.inj_on_of_nodup_map keyed (List.mem_of_find?_eq_some found) here same
      exact ⟨other, rfl, congrArg Prod.fst equal⟩

/-- A new conversation gets an identifier of its own. -/
theorem keyed_ensureConvoId {db : ClientDb P} (keyed : db.Keyed) (convo : ConvoId P)
    (now : NanoTimestamp) : (db.ensureConvoId convo now).1.Keyed := by
  simp only [ensureConvoId]
  split
  · exact keyed
  · rename_i absent
    rw [Keyed, Table.rows_insert (AList.lookup_eq_none.mp absent), List.map_cons,
      List.nodup_cons]
    exact ⟨nextRowId_notMem _, keyed⟩

/-- The identifier which an event is stored under stands for its conversation. -/
theorem convoOf_ensureConvoId {db : ClientDb P} (keyed : db.Keyed) (convo : ConvoId P)
    (now : NanoTimestamp) :
    (db.ensureConvoId convo now).1.convoOf? (db.ensureConvoId convo now).2 = some convo := by
  have after := keyed_ensureConvoId keyed convo now
  simp only [ensureConvoId] at after ⊢
  split
  · rename_i row listed
    exact convoOf_eq_some keyed listed
  · rename_i absent
    simp only [absent] at after
    exact convoOf_eq_some after (AList.lookup_insert db.convos)

/-- A descriptor which a lookup may yield: a cached one, or the directory's. -/
def MayYield (db : ClientDb P) (env : ClientEnv P) (username : UserName)
    (descriptor : UserDescriptor P) : Prop :=
  (∃ fetchedAt, db.userDescriptorCache.lookup username = some (descriptor, fetchedAt)) ∨
    env.descriptor username = some descriptor

/-- The row is that of the payload's event, in the conversation of it, and the payload is
what a device of its sender signed, if one trusts signatures and these descriptors. -/
structure Verified (localUser : UserName) (trusted : UserName → UserDescriptor P → Prop)
    (clock : Timestamp) (convo : ConvoId P) (row : ConvoMessage) (signed : DeviceSigned P) :
    Prop where
  sender : row.senderUsername = signed.sender
  authentic : ∃ descriptor, trusted signed.sender descriptor ∧
    signed.authentic clock descriptor.rootCertHash = true
  event : ∃ content, signed.event? = some content ∧ row.mime = content.mime ∧
    row.body = content.body ∧ row.sentAt = content.sentAt ∧
    Addressed localUser signed.sender content.recipient convo

/-- What processing an entry does to the rows: one row of its payload at most. -/
structure Receives (localUser : UserName) (env : ClientEnv P) (payload : Option (DeviceSigned P))
    (db next : ClientDb P) : Prop where
  keyed : next.Keyed
  cached : ∀ username descriptor fetchedAt,
    next.userDescriptorCache.lookup username = some (descriptor, fetchedAt) →
      (∃ earlier, db.userDescriptorCache.lookup username = some (descriptor, earlier)) ∨
        ∃ signed, payload = some signed ∧ username = signed.sender ∧
          env.descriptor username = some descriptor
  rows : next.convoMessages = db.convoMessages ∨
    ∃ signed convo row, payload = some signed ∧
      next.convoMessages = db.convoMessages ++ [row] ∧ next.convoOf? row.convoId = some convo ∧
      Verified localUser (db.MayYield env) env.clock convo row signed

theorem Receives.of_same {localUser : UserName} {env : ClientEnv P}
    {payload : Option (DeviceSigned P)} {db next : ClientDb P} (keyed : db.Keyed)
    (convos : next.convos = db.convos) (rows : next.convoMessages = db.convoMessages)
    (cache : next.userDescriptorCache = db.userDescriptorCache) :
    Receives localUser env payload db next where
  keyed := by
    rw [Keyed, convos]
    exact keyed
  cached username descriptor fetchedAt found := Or.inl ⟨fetchedAt, cache ▸ found⟩
  rows := Or.inl rows

theorem ensureConvoId_cache (db : ClientDb P) (convo : ConvoId P) (now : NanoTimestamp) :
    (db.ensureConvoId convo now).1.userDescriptorCache = db.userDescriptorCache := by
  simp only [ensureConvoId]
  split <;> rfl

/-- Storing the event of an authentic payload in its conversation. -/
theorem storeMessage_receives (json : JsonReader P) {env : ClientEnv P} {localUser : UserName}
    {signed : DeviceSigned P} {descriptor : UserDescriptor P} {convo : ConvoId P}
    {content : Event P} (receivedAt : NanoTimestamp) {db : ClientDb P} (keyed : db.Keyed)
    (yielded : db.MayYield env signed.sender descriptor)
    (authentic : signed.authentic env.clock descriptor.rootCertHash = true)
    (event : signed.event? = some content)
    (addressed : Addressed localUser signed.sender content.recipient convo) :
    Receives localUser env (some signed) db
      (db.storeMessage json env convo signed.sender content receivedAt).1 := by
  have rooted : ∃ roots, (if env.fails .attachment then db
      else db.storeAttachment json signed.sender content) = { db with attachmentRoots := roots } := by
    split
    · exact ⟨db.attachmentRoots, rfl⟩
    · exact storeAttachment_eq json signed.sender content db
  obtain ⟨roots, rooted⟩ := rooted
  generalize same : { db with attachmentRoots := roots } = ready
  have readyKeyed : ready.Keyed := same ▸ keyed
  have readyRows : ready.convoMessages = db.convoMessages := same ▸ rfl
  have readyCache : ready.userDescriptorCache = db.userDescriptorCache := same ▸ rfl
  have readyConvos : ready.convos = db.convos := same ▸ rfl
  have cache := (ensureConvoId_cache ready convo env.now).trans readyCache
  have rows := (ensureConvoId_convoMessages ready convo env.now).trans readyRows
  have named := convoOf_ensureConvoId readyKeyed convo env.now
  have idle : Receives localUser env (some signed) db (ready.ensureConvoId convo env.now).1 :=
    ⟨keyed_ensureConvoId readyKeyed convo env.now,
      fun username found fetchedAt listed => Or.inl ⟨fetchedAt, cache ▸ listed⟩, Or.inl rows⟩
  simp only [storeMessage, rooted, same]
  split
  · exact .of_same keyed rfl rfl rfl
  · split
    · exact .of_same keyed readyConvos readyRows readyCache
    · split
      · exact idle
      · dsimp only
        rw [insertMessage]
        split
        · exact idle
        · refine ⟨idle.keyed, idle.cached, Or.inr ⟨signed, convo, ?row, rfl, ?rows, ?named, ?verified⟩⟩
          case rows => exact congrArg (· ++ [_]) rows
          case named => exact named
          case verified =>
            exact ⟨rfl, ⟨descriptor, yielded, authentic⟩, content, event, rfl, rfl, rfl,
                addressed⟩

/-- The cached descriptors are those of before, and what the directory has for the sender. -/
def CachedFrom (env : ClientEnv P) (sender : UserName) (db next : ClientDb P) : Prop :=
  ∀ username descriptor fetchedAt,
    next.userDescriptorCache.lookup username = some (descriptor, fetchedAt) →
      (∃ earlier, db.userDescriptorCache.lookup username = some (descriptor, earlier)) ∨
        username = sender ∧ env.descriptor username = some descriptor

/-- A descriptor which a later lookup may yield was cached or is the directory's. -/
theorem CachedFrom.mayYield {env : ClientEnv P} {sender username : UserName} {db next : ClientDb P}
    (cached : CachedFrom env sender db next) {descriptor : UserDescriptor P}
    (yielded : next.MayYield env username descriptor) : db.MayYield env username descriptor := by
  rcases yielded with ⟨fetchedAt, listed⟩ | known
  · rcases cached username descriptor fetchedAt listed with earlier | ⟨_, known⟩
    · exact Or.inl earlier
    · exact Or.inr known
  · exact Or.inr known

/-- A lookup changes the cache alone. -/
theorem getUserDescriptor_cached (env : ClientEnv P) (username : UserName) (db : ClientDb P) :
    ∃ cache, (db.getUserDescriptor env username).1 = { db with userDescriptorCache := cache } ∧
      CachedFrom env username db { db with userDescriptorCache := cache } ∧
      ∀ descriptor, (db.getUserDescriptor env username).2 = .ok descriptor →
        MayYield { db with userDescriptorCache := cache } env username descriptor := by
  have unchanged : CachedFrom env username db db :=
    fun _ _ fetchedAt listed => Or.inl ⟨fetchedAt, listed⟩
  simp only [getUserDescriptor]
  split
  · exact ⟨db.userDescriptorCache, rfl, unchanged, fun _ failed => by cases failed⟩
  · split
    · rename_i descriptor fresh
      refine ⟨db.userDescriptorCache, rfl, unchanged, ?_⟩
      rintro _ ⟨⟩
      rw [freshDescriptor] at fresh
      split at fresh
      · cases fresh
      · rename_i fetchedAt listed
        split at fresh
        · cases fresh
          exact Or.inl ⟨_, listed⟩
        · cases fresh
    · split
      · exact ⟨db.userDescriptorCache, rfl, unchanged, fun _ failed => by cases failed⟩
      · split
        · exact ⟨db.userDescriptorCache, rfl, unchanged, fun _ failed => by cases failed⟩
        · rename_i descriptor known
          split
          · exact ⟨db.userDescriptorCache, rfl, unchanged, fun _ failed => by cases failed⟩
          · refine ⟨_, rfl, ?_, ?_⟩
            · intro other found fetchedAt listed
              rcases Table.lookup_insert_cases listed with ⟨same, given⟩ | listed
              · cases given
                exact Or.inr ⟨same, same ▸ known⟩
              · exact Or.inl ⟨fetchedAt, listed⟩
            · rintro _ ⟨⟩
              exact Or.inr known

/-- What is received after a lookup is received with it. -/
theorem Receives.after_lookup {localUser : UserName} {env : ClientEnv P} {signed : DeviceSigned P}
    {db next : ClientDb P} {cache : Table UserName (UserDescriptor P × Int)}
    (cached : CachedFrom env signed.sender db { db with userDescriptorCache := cache })
    (receives : Receives localUser env (some signed) { db with userDescriptorCache := cache } next) :
    Receives localUser env (some signed) db next where
  keyed := receives.keyed
  cached username descriptor fetchedAt listed := by
    rcases receives.cached username descriptor fetchedAt listed with ⟨earlier, listed⟩ | asked
    · rcases cached username descriptor earlier listed with known | ⟨rfl, known⟩
      · exact Or.inl known
      · exact Or.inr ⟨signed, rfl, rfl, known⟩
    · exact Or.inr asked
  rows := by
    rcases receives.rows with same | ⟨payload, convo, row, opened, added, named, verified⟩
    · exact Or.inl same
    · obtain ⟨descriptor, yielded, authentic⟩ := verified.authentic
      exact Or.inr ⟨payload, convo, row, opened, added, named, verified.sender,
        ⟨descriptor, cached.mayYield yielded, authentic⟩, verified.event⟩

/-- A direct entry brings one row of its payload at most. -/
theorem receiveDirect_receives (json : JsonReader P) (env : ClientEnv P) (identity : Identity P)
    (entry : MailboxEntry P) {db : ClientDb P} (keyed : db.Keyed) :
    Receives identity.username env (openDirect identity entry.message).toOption.join db
      (db.receiveDirect json env identity entry).1 := by
  simp only [receiveDirect]
  cases openDirect identity entry.message with
  | error err => exact .of_same keyed rfl rfl rfl
  | ok opened =>
      cases opened with
      | none => exact .of_same keyed rfl rfl rfl
      | some signed =>
          obtain ⟨cache, looked, cached, yields⟩ := getUserDescriptor_cached env signed.sender db
          refine Receives.after_lookup cached ?_
          dsimp only
          split
          · rename_i outcome
            rw [outcome] at looked
            cases looked
            exact .of_same keyed rfl rfl rfl
          · rename_i descriptor outcome
            rw [outcome] at looked yields
            cases looked
            have yielded := yields descriptor rfl
            split
            · exact .of_same keyed rfl rfl rfl
            · exact .of_same keyed rfl rfl rfl
            · rename_i convo content read
              obtain ⟨authentic, event, addressed⟩ := readDirect_addressed read
              exact storeMessage_receives json entry.receivedAt keyed yielded authentic event
                addressed

/-- `process_mailbox_entry` of a client whose user is `localUser`. -/
theorem processMailboxEntry_receives (json : JsonReader P) {env : ClientEnv P}
    {localUser : UserName} (own : ∀ identity ∈ env.identity, identity.username = localUser)
    (key : MailboxKey P) (entry : MailboxEntry P) {db : ClientDb P} (keyed : db.Keyed) :
    Receives localUser env
      (env.identity.bind fun identity => (openDirect identity entry.message).toOption.join) db
      (db.processMailboxEntry json env key entry).1 := by
  simp only [processMailboxEntry]
  split
  · exact .of_same keyed rfl rfl rfl
  · cases found : env.identity with
    | none => exact .of_same keyed rfl rfl rfl
    | some identity =>
        cases own identity found
        dsimp only
        split
        · exact .of_same keyed rfl rfl rfl
        · have ready : (db.updateMailboxAfter key entry.receivedAt).Keyed := keyed
          have received := receiveDirect_receives json env identity entry ready
          exact ⟨received.keyed, received.cached, received.rows⟩

/-- The group path looks the sender up past the cache. -/
theorem processGroupMessage_receives (json : JsonReader P) (env : ClientEnv P)
    (localUser : UserName) (groupId : GroupId P) (group : GroupRecord P)
    {entry : MailboxEntry P} (noRekey : entry.message.kind ≠ Blob.v1GroupRekey) {db : ClientDb P}
    (keyed : db.Keyed) :
    Receives localUser env (openGroupMessage group entry.message).toOption.join db
      (db.processGroupMessageEntry json env groupId group entry).1 := by
  simp only [processGroupMessageEntry, if_neg noRekey]
  cases openGroupMessage group entry.message with
  | error err => exact .of_same keyed rfl rfl rfl
  | ok opened =>
      cases opened with
      | none => exact .of_same keyed rfl rfl rfl
      | some signed =>
          rcases senderDescriptor_cases env signed.sender with
            ⟨err, looked, _⟩ | ⟨descriptor, looked, _, known⟩
          · simp only [looked]
            exact .of_same keyed rfl rfl rfl
          · simp only [looked]
            split
            · exact .of_same keyed rfl rfl rfl
            · exact .of_same keyed rfl rfl rfl
            · rename_i convo content read
              obtain ⟨authentic, event, addressed⟩ := readGroupEvent_addressed localUser read
              exact storeMessage_receives json entry.receivedAt keyed (Or.inr known) authentic
                event addressed

theorem groupsOnly_rekey (env : ClientEnv P) (groupId : GroupId P) (group : GroupRecord P)
    (message : Blob) (db : ClientDb P) :
    GroupsOnly db (db.processGroupRekeyEntry env groupId group message).1 := by
  have loaded := groupsOnly_loadRoster env groupId group.descriptor.initAdmin db
  simp only [processGroupRekeyEntry]
  split
  · exact .refl db
  · split
    · exact .refl db
    · split
      · exact .refl db
      · split
        · exact .refl db
        · split <;> rename_i outcome <;> rw [outcome] at loaded
          · exact loaded
          · repeat' split
            all_goals first
              | exact loaded
              | exact loaded.trans (groupsOnly_updateGroup _ groupId _)

theorem groupsOnly_management (json : JsonReader P) (env : ClientEnv P) (groupId : GroupId P)
    (group : GroupRecord P) (entry : MailboxEntry P) (db : ClientDb P) :
    GroupsOnly db (db.processGroupManagementEntry json env groupId group entry).1 := by
  have loaded := groupsOnly_loadRoster env groupId group.descriptor.initAdmin db
  simp only [processGroupManagementEntry]
  repeat' split
  all_goals first
    | exact .refl db
    | skip
  simp only [applyManagement]
  split
  · exact .refl db
  · split <;> rename_i outcome <;> rw [outcome] at loaded
    · exact .refl db
    · repeat' split
      all_goals first
        | exact .refl db
        | exact loaded.trans (groupsOnly_updateGroup _ groupId _)

end ClientDb

/-- What a round of a group's loop opens an entry to. -/
def openedBy (group : GroupRecord P) (kind : GroupMailboxKind) (entry : MailboxEntry P) :
    Option (DeviceSigned P) :=
  match kind with
  | .messages => (openGroupMessage group entry.message).toOption.join
  | .management => none

namespace ClientDb

/-- One round of a group's loop, whatever row it has read. -/
theorem groupRecvOnce_receives (json : JsonReader P) (env : ClientEnv P) (localUser : UserName)
    (groupId : GroupId P) (group : GroupRecord P) (kind : GroupMailboxKind)
    (entry : MailboxEntry P) {db : ClientDb P} (keyed : db.Keyed) :
    Receives localUser env (openedBy group kind entry) db
      (db.groupRecvOnce json env groupId group kind entry).1 := by
  have ofGroups : ∀ {next : ClientDb P} {payload : Option (DeviceSigned P)},
      GroupsOnly (cursorStored groupId group kind entry.receivedAt db) next →
        Receives localUser env payload db next := by
    rintro _ payload ⟨groups, rfl⟩
    exact .of_same keyed rfl rfl rfl
  simp only [groupRecvOnce]
  split
  · exact .of_same keyed rfl rfl rfl
  · split
    · exact .of_same keyed rfl rfl rfl
    · cases kind with
      | management => exact ofGroups (groupsOnly_management json env groupId group entry _)
      | messages =>
          by_cases rekey : entry.message.kind = Blob.v1GroupRekey
          · simp only [processGroupEntry, processGroupMessageEntry, if_pos rekey]
            exact ofGroups (groupsOnly_rekey env groupId group entry.message _)
          · have ready : (cursorStored groupId group .messages entry.receivedAt db).Keyed := keyed
            have received := processGroupMessage_receives json env localUser groupId group rekey
              ready
            exact ⟨received.keyed, received.cached, received.rows⟩

end ClientDb

/-- A row which an entry brought: the conversation it stands in, when it was read, and what
the entry was opened to. -/
structure Received (P : Primitives) where
  convo : Option (ConvoId P)
  row : ConvoMessage
  clock : Timestamp
  payload : Option (DeviceSigned P)

/-- A client, what the directory has had for the senders so far, and what was received. -/
structure ReceivingClient (P : Primitives) where
  db : ClientDb P
  known : List (UserName × UserDescriptor P)
  received : List (Received P)

inductive ReceiveEvent (P : Primitives) where
  /-- An entry of the user's own mailbox. -/
  | direct (env : ClientEnv P) (key : MailboxKey P) (entry : MailboxEntry P)
  /-- An entry of a group's mailbox, with the group's row as its loop has read it. -/
  | group (env : ClientEnv P) (groupId : GroupId P) (group : GroupRecord P)
      (kind : GroupMailboxKind) (entry : MailboxEntry P)
  /-- What the client does besides, and what the directory tells it meanwhile. -/
  | aside (known : List (UserName × UserDescriptor P)) (db : ClientDb P)

/-- What the entry is opened to. -/
def ReceiveEvent.payload : ReceiveEvent P → Option (DeviceSigned P)
  | .direct env _ entry =>
      env.identity.bind fun identity => (openDirect identity entry.message).toOption.join
  | .group _ _ record kind entry => openedBy record kind entry
  | .aside _ _ => none

/-- Nobody has forged the signature of the payload: it verifies only if the key's owner has
signed these bytes. -/
def ReceiveEvent.Unforged (signedBy : P.SigningPublic → Bytes → Prop) (event : ReceiveEvent P) :
    Prop :=
  ∀ signed, event.payload = some signed →
    Signable.verify signed signed.certChain.lastDevice.pk = true →
      signedBy signed.certChain.lastDevice.pk (Signable.signedValue signed)

namespace ReceivingClient

/-- What the directory has for the sender of a payload. -/
def had (env : ClientEnv P) : Option (DeviceSigned P) → List (UserName × UserDescriptor P)
  | none => []
  | some signed => (env.descriptor signed.sender).toList.map fun found => (signed.sender, found)

/-- The client after an entry; the rows behind those of before are new. -/
def receive (state : ReceivingClient P) (env : ClientEnv P) (payload : Option (DeviceSigned P))
    (next : ClientDb P) : ReceivingClient P where
  db := next
  known := state.known ++ had env payload
  received := state.received ++
    (next.convoMessages.drop state.db.convoMessages.length).map fun row =>
      ⟨next.convoOf? row.convoId, row, env.clock, payload⟩

def machine (json : JsonReader P) (localUser : UserName) :
    Machine (ReceivingClient P) (ReceiveEvent P) where
  step state
    | .direct env key entry =>
        if ∀ identity ∈ env.identity, identity.username = localUser then
          some (state.receive env (ReceiveEvent.payload (.direct env key entry))
            (state.db.processMailboxEntry json env key entry).1)
        else none
    | .group env groupId group kind entry =>
        some (state.receive env (ReceiveEvent.payload (.group env groupId group kind entry))
          (state.db.groupRecvOnce json env groupId group kind entry).1)
    | .aside known db =>
        if db.Keyed ∧ ∀ row ∈ db.userDescriptorCache.rows,
            (row.1, row.2.1) ∈ state.known ++ known then
          some { state with db := db, known := state.known ++ known }
        else none

/-- A client which knows the descriptors in its cache. -/
def start (db : ClientDb P) : ReceivingClient P :=
  ⟨db, db.userDescriptorCache.rows.map fun row => (row.1, row.2.1), []⟩

/-- The row carries an event of the conversation which a device of the sender signed. -/
structure Backed (localUser : UserName) (signedBy : P.SigningPublic → Bytes → Prop)
    (known : List (UserName × UserDescriptor P)) (clock : Timestamp) (convo : ConvoId P)
    (row : ConvoMessage) (payload : DeviceSigned P) : Prop where
  sender : row.senderUsername = payload.sender
  chain : ∃ descriptor, (payload.sender, descriptor) ∈ known ∧
    payload.certChain.verifies clock descriptor.rootCertHash = true
  signed : signedBy payload.certChain.lastDevice.pk (Signable.signedValue payload)
  event : ∃ content, payload.event? = some content ∧ row.mime = content.mime ∧
    row.body = content.body ∧ row.sentAt = content.sentAt ∧
    Addressed localUser payload.sender content.recipient convo

/-- Every row received was signed for its conversation. -/
def Authentic (localUser : UserName) (signedBy : P.SigningPublic → Bytes → Prop)
    (state : ReceivingClient P) : Prop :=
  ∀ item ∈ state.received, ∃ convo payload, item.convo = some convo ∧
    item.payload = some payload ∧
      Backed localUser signedBy state.known item.clock convo item.row payload

/-- What was signed once stands in one conversation. -/
def Bound (state : ReceivingClient P) : Prop :=
  ∀ first ∈ state.received, ∀ second ∈ state.received, ∀ one other,
    first.payload = some one → second.payload = some other →
      Signable.signedValue one = Signable.signedValue other →
        first.convo = second.convo

/-- What every step keeps. -/
structure Sound (localUser : UserName) (signedBy : P.SigningPublic → Bytes → Prop)
    (state : ReceivingClient P) : Prop where
  keyed : state.db.Keyed
  cached : ∀ username descriptor fetchedAt,
    state.db.userDescriptorCache.lookup username = some (descriptor, fetchedAt) →
      (username, descriptor) ∈ state.known
  authentic : state.Authentic localUser signedBy

/-- The signed bytes tell the sender and the event. -/
theorem event_of_signedValue {one other : DeviceSigned P}
    (same : Signable.signedValue one = Signable.signedValue other) :
    one.sender = other.sender ∧ one.event? = other.event? := by
  have words := Bcs.toBytes_inj.mp same
  simp only [Prod.mk.injEq] at words
  refine ⟨words.1, ?_⟩
  rw [DeviceSigned.event?, DeviceSigned.event?, words.2.2]

/-- An event which was signed once stands in one conversation. -/
theorem Authentic.bound {localUser : UserName} {signedBy : P.SigningPublic → Bytes → Prop}
    {state : ReceivingClient P} (authentic : state.Authentic localUser signedBy) : state.Bound := by
  intro first firstListed second secondListed one other opened otherOpened same
  obtain ⟨convo, payload, named, read, backed⟩ := authentic first firstListed
  obtain ⟨otherConvo, otherPayload, otherNamed, otherRead, otherBacked⟩ :=
    authentic second secondListed
  cases read.symm.trans opened
  cases otherRead.symm.trans otherOpened
  obtain ⟨sender, event⟩ := event_of_signedValue same
  obtain ⟨content, readEvent, _, _, _, addressed⟩ := backed.event
  obtain ⟨otherContent, otherEvent, _, _, _, otherAddressed⟩ := otherBacked.event
  rw [event] at readEvent
  cases readEvent.symm.trans otherEvent
  rw [← sender] at otherAddressed
  rw [named, otherNamed, addressed.unique otherAddressed]

theorem Backed.mono {localUser : UserName} {signedBy : P.SigningPublic → Bytes → Prop}
    {known : List (UserName × UserDescriptor P)} {clock : Timestamp} {convo : ConvoId P}
    {row : ConvoMessage} {payload : DeviceSigned P}
    (backed : Backed localUser signedBy known clock convo row payload)
    (later : List (UserName × UserDescriptor P)) :
    Backed localUser signedBy (known ++ later) clock convo row payload := by
  obtain ⟨descriptor, listed, verifies⟩ := backed.chain
  exact { backed with chain := ⟨descriptor, List.mem_append_left later listed, verifies⟩ }

/-- Signatures which verify are taken for the signer's. -/
theorem backed_of_verified {localUser : UserName} {signedBy : P.SigningPublic → Bytes → Prop}
    {trusted : UserName → UserDescriptor P → Prop} {known : List (UserName × UserDescriptor P)}
    {clock : Timestamp} {convo : ConvoId P} {row : ConvoMessage} {payload : DeviceSigned P}
    (unforged : Signable.verify payload payload.certChain.lastDevice.pk = true →
      signedBy payload.certChain.lastDevice.pk (Signable.signedValue payload))
    (listed : ∀ descriptor, trusted payload.sender descriptor →
      (payload.sender, descriptor) ∈ known)
    (verified : ClientDb.Verified localUser trusted clock convo row payload) :
    Backed localUser signedBy known clock convo row payload := by
  obtain ⟨descriptor, trust, authentic⟩ := verified.authentic
  rw [DeviceSigned.authentic, Bool.and_eq_true] at authentic
  exact ⟨verified.sender, ⟨descriptor, listed descriptor trust, authentic.1⟩,
    unforged authentic.2, verified.event⟩

theorem mem_had {env : ClientEnv P} {payload : DeviceSigned P} {descriptor : UserDescriptor P}
    (found : env.descriptor payload.sender = some descriptor) :
    (payload.sender, descriptor) ∈ had env (some payload) := by
  simp [had, found]

/-- An entry keeps the client sound. -/
theorem Sound.receive {localUser : UserName} {signedBy : P.SigningPublic → Bytes → Prop}
    {state : ReceivingClient P} (sound : state.Sound localUser signedBy) {env : ClientEnv P}
    {event : ReceiveEvent P} (unforged : event.Unforged signedBy) {next : ClientDb P}
    (receives : state.db.Receives localUser env event.payload next) :
    (state.receive env event.payload next).Sound localUser signedBy where
  keyed := receives.keyed
  cached username descriptor fetchedAt listed := by
    rcases receives.cached username descriptor fetchedAt listed with
      ⟨earlier, listed⟩ | ⟨signed, opened, rfl, found⟩
    · exact List.mem_append_left _ (sound.cached username descriptor earlier listed)
    · rw [opened]
      exact List.mem_append_right _ (mem_had found)
  authentic := by
    intro item listed
    rcases List.mem_append.mp listed with earlier | new
    · obtain ⟨convo, payload, named, opened, backed⟩ := sound.authentic item earlier
      exact ⟨convo, payload, named, opened, backed.mono _⟩
    · obtain ⟨row, added, rfl⟩ := List.mem_map.mp new
      rcases receives.rows with same | ⟨signed, convo, only, opened, rows, named, verified⟩
      · rw [same, List.drop_length] at added
        cases added
      · rw [rows, List.drop_left, List.mem_singleton] at added
        subst added
        refine ⟨convo, signed, named, opened,
          backed_of_verified (unforged signed opened) ?_ verified⟩
        rintro descriptor (⟨fetchedAt, cached⟩ | found)
        · exact List.mem_append_left _ (sound.cached _ descriptor fetchedAt cached)
        · rw [opened]
          exact List.mem_append_right _ (mem_had found)

/-- Every unforged entry leaves each row backed by a signature. -/
theorem Sound.step {json : JsonReader P} {localUser : UserName}
    {signedBy : P.SigningPublic → Bytes → Prop} {state next : ReceivingClient P}
    {event : ReceiveEvent P} (sound : state.Sound localUser signedBy)
    (unforged : event.Unforged signedBy)
    (taken : (machine json localUser).step state event = some next) :
    next.Sound localUser signedBy := by
  cases event with
  | direct env key entry =>
      simp only [machine] at taken
      split at taken
      · rename_i own
        cases taken
        exact sound.receive unforged
          (state.db.processMailboxEntry_receives json own key entry sound.keyed)
      · cases taken
  | group env groupId group kind entry =>
      cases taken
      exact sound.receive unforged
        (state.db.groupRecvOnce_receives json env localUser groupId group kind entry sound.keyed)
  | aside known db =>
      simp only [machine] at taken
      split at taken
      · rename_i allowed
        cases taken
        refine ⟨allowed.1, ?_, ?_⟩
        · intro username descriptor fetchedAt listed
          exact allowed.2 (username, descriptor, fetchedAt) (Table.mem_rows.mpr listed)
        · intro item listed
          obtain ⟨convo, payload, named, opened, backed⟩ := sound.authentic item listed
          exact ⟨convo, payload, named, opened, backed.mono known⟩
      · cases taken

theorem sound_start (localUser : UserName) (signedBy : P.SigningPublic → Bytes → Prop)
    {db : ClientDb P} (keyed : db.Keyed) : (start db).Sound localUser signedBy where
  keyed := keyed
  cached username descriptor fetchedAt listed :=
    List.mem_map.mpr ⟨(username, descriptor, fetchedAt), Table.mem_rows.mpr listed, rfl⟩
  authentic := by
    intro item listed
    cases listed

/-- If no signature in them is forged, every row which the receive loops insert, in any run
and from any entries, carries an event which a device of its sender signed for the
conversation the row stands in; and nothing signed stands in two conversations. -/
theorem received_backed (json : JsonReader P) (localUser : UserName)
    (signedBy : P.SigningPublic → Bytes → Prop) {db : ClientDb P} (keyed : db.Keyed)
    (events : List (ReceiveEvent P)) (unforged : ∀ event ∈ events, event.Unforged signedBy) :
    (machine json localUser).Always
      (fun state => state.Authentic localUser signedBy ∧ state.Bound) (start db) events := by
  have along : (machine json localUser).Along (fun _ event => event.Unforged signedBy)
      (start db) events := by
    intro before event position _ _ _ _
    exact unforged event (position.subset (List.mem_append_right before (List.mem_singleton_self _)))
  intro before position state reached
  have sound := Machine.always_of_along Sound.step (sound_start localUser signedBy keyed) along
    before position state reached
  exact ⟨sound.authentic, sound.authentic.bound⟩

def greeting : Event symbolic := ⟨.user bobby, 4, "text/plain", utf8 "hi"⟩

/-- What Alice's device signs. -/
def aliceGreeting : DeviceSigned symbolic := signedEvent alice (rootChain 1 100) 1 greeting

def passedOnEnv : ClientEnv symbolic := ⟨some bobbyIdentity, 6, 6, symbolicDirectory, fun _ => false⟩

/-- Alice writes to Bobby. Somebody puts the same signed event into the mailbox of a group. -/
def passedOnRun : List (ReceiveEvent symbolic) :=
  [.direct passedOnEnv (symbolicServer, .direct bobby)
      ⟨sealedFor [bobbyMedium] Blob.v1DirectMessage aliceGreeting, 5, none⟩,
    .group passedOnEnv exampleGroup.id joinedGroup .messages
      ⟨⟨Blob.v1GroupMessage, Bcs.toBytes (GroupMessage.encryptMessage zeroNonce greeting alice
        (rootChain 1 100) 1 joinedGroup.groupKeyCurrent)⟩, 6, none⟩]

/-- Alice's letter is all that anybody has signed. -/
def letterSigned (signer : UInt8) (words : Bytes) : Prop :=
  signer = 1 ∧ words = Signable.signedValue aliceGreeting

theorem unforged_passedOn : ∀ event ∈ passedOnRun, event.Unforged letterSigned := by
  have letters : passedOnRun.map ReceiveEvent.payload =
      [some aliceGreeting, some aliceGreeting] := by decide +kernel
  intro event listed signed opened _
  have read : event.payload ∈ passedOnRun.map ReceiveEvent.payload :=
    List.mem_map.mpr ⟨event, listed, rfl⟩
  rw [letters, opened] at read
  obtain rfl : signed = aliceGreeting := by simpa using read
  exact ⟨rfl, rfl⟩

/-- In the run of the letter which is passed on, every row was signed for its conversation. -/
theorem received_backed_passedOn :
    (machine symbolicJson bobby).Always
      (fun state => state.Authentic bobby letterSigned ∧ state.Bound) (start .empty)
      passedOnRun :=
  received_backed symbolicJson bobby letterSigned (by decide) passedOnRun unforged_passedOn

example : ((machine symbolicJson bobby).exec (start .empty) passedOnRun).map
    (fun state => state.received.map fun item => (item.convo, item.row.body)) =
      some [(some (.direct alice), utf8 "hi")] := by decide +kernel

end ReceivingClient
end Nullspace
