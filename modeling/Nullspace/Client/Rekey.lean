import Mathlib.Data.List.Sort
import Nullspace.Client.UserInfo
import Nullspace.Structs.Sealing

/-!
# Sending a rekey

`send_group_rekey` collects the medium-term keys of a group's active members and seals a new
group key towards them. A device without a usable key is passed over. A member who cannot be
looked up is not, and neither is a key which makes no shared secret: either ends the rekey.
-/

namespace Nullspace

open Nullspace.Base

variable {P : Primitives}

/-- The active members, in the order of `list`. -/
def GroupRoster.activeMembers (roster : GroupRoster) : List UserName :=
  ((roster.members.rows.filter fun row => row.2.isActive).map Prod.fst).insertionSort
    fun first second => first.str ≤ second.str

/-- The random choices of a rekey. -/
structure RekeyDraw (P : Primitives) where
  newKey : AeadKey
  senderEsk : P.DhSecret
  messageKey : AeadKey

/-- What a rekey says, signed by the sender's device. -/
def signedRekey (identity : Identity P) (groupId : GroupId P) (newKey : AeadKey) :
    DeviceSigned P :=
  .signBytes (Bcs.toBytes (groupId, newKey.bytes)) identity.username identity.certChain
    identity.deviceSecret

/-- `collect_recipients`: devices without a key, or with one they did not sign, are passed
over. -/
def collectRecipients (chains : ChainMap P) (mediumPks : MediumPkMap P) : List P.DhPublic :=
  chains.rows.filterMap fun (deviceHash, chain) =>
    let cert := chain.lastDevice
    if P.bcsHash cert.pk ≠ deviceHash then none
    else
      match mediumPks.lookup deviceHash with
      | none => none
      | some mediumPk => if Signable.verify mediumPk cert.pk then some mediumPk.mediumPk else none

namespace PeerDb

/-- The loop of `collect_group_recipients`. -/
def collectFrom (env : PeerEnv P) :
    List UserName → PeerDb P → PeerDb P × Except EntryError (List P.DhPublic)
  | [], db => (db, .ok [])
  | username :: rest, db =>
      match getUserInfo env username db with
      | (db, .error err) => (db, .error err)
      | (db, .ok peer) =>
          match collectFrom env rest db with
          | (db, .error err) => (db, .error err)
          | (db, .ok recipients) =>
              (db, .ok (collectRecipients peer.deviceChains peer.mediumPks ++ recipients))

/-- `collect_group_recipients`. -/
def collectGroupRecipients (env : PeerEnv P) (groupId : GroupId P) (group : GroupRecord P)
    (db : PeerDb P) : PeerDb P × Except EntryError (List P.DhPublic) :=
  if env.client.fails .connection then (db, .error .database)
  else
    match db.client.loadRoster env.client groupId group.descriptor.initAdmin with
    | (client, .error err) => ({ db with client := client }, .error err)
    | (client, .ok ()) =>
        if env.client.fails .member then ({ db with client := client }, .error .database)
        else
          let members :=
            match client.groups.lookup groupId with
            | some row => row.roster.activeMembers
            | none => []
          match collectFrom env members { db with client := client } with
          | (db, .error err) => (db, .error err)
          | (db, .ok recipients) =>
              if recipients.isEmpty then
                (db, .error (.said "no recipients available for group"))
              else (db, .ok recipients)

/-- `send_group_rekey`, which yields the entry that the group's server took. -/
def sendGroupRekey (env : PeerEnv P) (draw : RekeyDraw P) (identity : Identity P)
    (groupId : GroupId P) (group : GroupRecord P) (db : PeerDb P) :
    PeerDb P × Except EntryError Blob :=
  match db.collectGroupRecipients env groupId group with
  | (db, .error err) => (db, .error err)
  | (db, .ok recipients) =>
      match HeaderEncrypted.encryptBytes draw.senderEsk draw.messageKey
        (Bcs.toBytes (signedRekey identity groupId draw.newKey)) recipients with
      | .error _ => (db, .error (.said "failed to encrypt group rekey"))
      | .ok encrypted =>
          if !env.reaches group.serverName then (db, .error .directory)
          else
            match env.post with
            | .error err => (db, .error err)
            | .ok _ => (db, .ok ⟨Blob.v1GroupRekey, Bcs.toBytes encrypted⟩)

end PeerDb

/-- The active members are those with an accepted row. -/
theorem GroupRoster.mem_activeMembers {roster : GroupRoster} {username : UserName} :
    username ∈ roster.activeMembers ↔ roster.senderActive username = true := by
  rw [activeMembers, List.mem_insertionSort, List.mem_map, senderActive, get]
  constructor
  · rintro ⟨⟨_, member⟩, kept, rfl⟩
    obtain ⟨listed, active⟩ := List.mem_filter.mp kept
    rw [Table.mem_rows.mp listed]
    exact active
  · intro active
    cases found : roster.members.lookup username with
    | none => simp [found] at active
    | some member =>
        rw [found] at active
        exact ⟨(username, member), List.mem_filter.mpr ⟨Table.mem_rows.mpr found, active⟩, rfl⟩

/-- No member is active twice. -/
theorem GroupRoster.nodup_activeMembers (roster : GroupRoster) : roster.activeMembers.Nodup := by
  rw [activeMembers, (List.perm_insertionSort _ _).nodup_iff]
  exact roster.members.rows_keys_nodup.sublist (List.filter_sublist.map Prod.fst)

/-- A recipient is a verified device's own signed key. -/
theorem mem_collectRecipients {chains : ChainMap P} {mediumPks : MediumPkMap P}
    {key : P.DhPublic} :
    key ∈ collectRecipients chains mediumPks ↔
      ∃ deviceHash chain mediumPk, chains.lookup deviceHash = some chain ∧
        P.bcsHash chain.lastDevice.pk = deviceHash ∧ mediumPks.lookup deviceHash = some mediumPk ∧
        Signable.verify mediumPk chain.lastDevice.pk = true ∧ mediumPk.mediumPk = key := by
  rw [collectRecipients, List.mem_filterMap]
  constructor
  · rintro ⟨⟨deviceHash, chain⟩, listed, read⟩
    dsimp only at read
    split at read
    · cases read
    · rename_i matching
      split at read
      · cases read
      · rename_i mediumPk found
        split at read
        · rename_i verified
          exact ⟨deviceHash, chain, mediumPk, Table.mem_rows.mp listed, not_not.mp matching, found,
            verified, Option.some.inj read⟩
        · cases read
  · rintro ⟨deviceHash, chain, mediumPk, listed, matching, found, verified, rfl⟩
    refine ⟨(deviceHash, chain), Table.mem_rows.mpr listed, ?_⟩
    simp only [matching, found, verified, ne_eq, not_true, if_false, if_true]

namespace PeerDb

/-- The user's server has the key, signed by a device of the user with a chain which
verifies. -/
def OffersKey (env : PeerEnv P) (db : PeerDb P) (username : UserName) (key : P.DhPublic) : Prop :=
  ∃ descriptor chains mediumPks, db.Listed env username descriptor chains mediumPks ∧
    ∃ deviceHash chain mediumPk, chains.lookup deviceHash = some chain ∧
      chain.verifies env.client.clock descriptor.rootCertHash = true ∧
      P.bcsHash chain.lastDevice.pk = deviceHash ∧ mediumPks.lookup deviceHash = some mediumPk ∧
      Signable.verify mediumPk chain.lastDevice.pk = true ∧ mediumPk.mediumPk = key

/-- A lookup succeeds exactly when the user is available. -/
theorem available_iff {env : PeerEnv P} {db : PeerDb P} {username : UserName} :
    db.Available env username ↔ ∃ peer, (getUserInfo env username db).2 = .ok peer := by
  simp only [getUserInfo_ok, Table.isEmpty_entries, lookup_validChains]
  constructor
  · rintro ⟨descriptor, chains, mediumPks, listed, valid⟩
    exact ⟨_, descriptor, chains, mediumPks, listed, valid, rfl⟩
  · rintro ⟨_, descriptor, chains, mediumPks, listed, valid, _⟩
    exact ⟨descriptor, chains, mediumPks, listed, valid⟩

/-- The keys which are collected from a user are the offered ones. -/
theorem mem_collectRecipients_getUserInfo {env : PeerEnv P} {db : PeerDb P} {username : UserName}
    {peer : UserInfo P} (found : (getUserInfo env username db).2 = .ok peer) {key : P.DhPublic} :
    key ∈ collectRecipients peer.deviceChains peer.mediumPks ↔ db.OffersKey env username key := by
  obtain ⟨descriptor, chains, mediumPks, listed, -, rfl⟩ := (getUserInfo_ok _ _ _ _).mp found
  simp only [mem_collectRecipients, lookup_validChains]
  constructor
  · rintro ⟨deviceHash, chain, mediumPk, ⟨stands, verifies, _⟩, rest⟩
    exact ⟨descriptor, chains, mediumPks, listed, deviceHash, chain, mediumPk, stands, verifies,
      rest⟩
  · rintro ⟨_, _, _, again, deviceHash, chain, mediumPk, stands, verifies, matching, rest⟩
    obtain ⟨rfl, rfl, rfl⟩ := listed.unique again
    exact ⟨deviceHash, chain, mediumPk, ⟨stands, verifies, matching⟩, matching, rest⟩

theorem SameCached.available {env : PeerEnv P} {username : UserName} {db next : PeerDb P}
    (same : SameCached env.client.clock username db next) :
    next.Available env username ↔ db.Available env username := by
  simp only [Available, same.listed]

theorem SameCached.offersKey {env : PeerEnv P} {username : UserName} {db next : PeerDb P}
    (same : SameCached env.client.clock username db next) {key : P.DhPublic} :
    next.OffersKey env username key ↔ db.OffersKey env username key := by
  simp only [OffersKey, same.listed]

/-- The loop ends at the first user who is not available; else it has the keys of all. -/
theorem collectFrom_spec (env : PeerEnv P) (start : PeerDb P) {names : List UserName}
    (nodup : names.Nodup) {db : PeerDb P}
    (same : ∀ username ∈ names, SameCached env.client.clock username start db) :
    (∃ next err, collectFrom env names db = (next, .error err) ∧
        ∃ username ∈ names, ¬start.Available env username) ∨
      ∃ next recipients, collectFrom env names db = (next, .ok recipients) ∧
        (∀ username ∈ names, start.Available env username) ∧
        ∀ key, key ∈ recipients ↔ ∃ username ∈ names, start.OffersKey env username key := by
  induction names generalizing db with
  | nil => exact .inr ⟨db, [], rfl, by simp, by simp⟩
  | cons username rest ih =>
      obtain ⟨fresh, nodup⟩ := List.nodup_cons.mp nodup
      obtain ⟨own, others⟩ := List.forall_mem_cons.mp same
      have available := own.available.symm.trans available_iff
      rw [collectFrom]
      cases looked : getUserInfo env username db with
      | mk next outcome =>
          cases outcome with
          | error err =>
              left
              refine ⟨next, err, rfl, username, List.mem_cons_self, ?_⟩
              rw [available, looked]
              simp
          | ok peer =>
              have found : (getUserInfo env username db).2 = .ok peer := by rw [looked]
              have kept : ∀ other ∈ rest, SameCached env.client.clock other start next := by
                intro other listed
                have apart : other ≠ username := by
                  rintro rfl
                  exact fresh listed
                have left := sameCached_getUserInfo env apart db
                rw [looked] at left
                exact (others other listed).trans left
              rcases ih nodup kept with
                ⟨final, err, collected, other, listed, missing⟩ |
                  ⟨final, recipients, collected, present, members⟩
              · left
                refine ⟨final, err, ?_, other, List.mem_cons_of_mem _ listed, missing⟩
                simp only [collected]
              · right
                refine ⟨final, collectRecipients peer.deviceChains peer.mediumPks ++ recipients,
                  ?_, ?_, ?_⟩
                · simp only [collected]
                · exact List.forall_mem_cons.mpr ⟨available.mpr ⟨peer, found⟩, present⟩
                · intro key
                  rw [List.mem_append, members, mem_collectRecipients_getUserInfo found,
                    own.offersKey]
                  simp only [List.mem_cons, exists_eq_or_imp]

/-- A member of the group who is active offers the key. -/
def Offered (env : PeerEnv P) (group : GroupRecord P) (db : PeerDb P) (key : P.DhPublic) : Prop :=
  ∃ username, group.loadedRoster.senderActive username = true ∧ db.OffersKey env username key

/-- Every active member can be looked up, and one of them at least offers a key. -/
structure Gathers (env : PeerEnv P) (group : GroupRecord P) (db : PeerDb P) : Prop where
  connects : env.client.fails .connection = false
  loads : ClientDb.rosterFails env.client group = false
  lists : env.client.fails .member = false
  available : ∀ username, group.loadedRoster.senderActive username = true →
    db.Available env username
  offered : ∃ key, db.Offered env group key

/-- The rekey can be gathered and sent, and no offered key is of low order. -/
structure Supplied (env : PeerEnv P) (draw : RekeyDraw P) (group : GroupRecord P)
    (db : PeerDb P) : Prop extends Gathers env group db where
  contributes : ∀ key, Offered env group db key → P.Contributes draw.senderEsk key
  reaches : env.reaches group.serverName = true
  accepts : ∃ sentAt, env.post = .ok sentAt

/-- Whatever the servers have for the member, the rekey goes through, and every other active
member who offers an ordinary key can open it. -/
def Outlasts (env : PeerEnv P) (draw : RekeyDraw P) (identity : Identity P) (groupId : GroupId P)
    (group : GroupRecord P) (db : PeerDb P) (member : UserName) : Prop :=
  ∃ blob, (db.sendGroupRekey env draw identity groupId group).2 = .ok blob ∧
    ∀ other, other ≠ member → group.loadedRoster.senderActive other = true →
      ∀ receiver : Identity P,
        (∃ secret, (secret = receiver.mediumSkCurrent ∨ secret = receiver.mediumSkPrev) ∧
          db.OffersKey env other (P.dhPublicKey secret) ∧
          P.Contributes draw.senderEsk (P.dhPublicKey secret)) →
        openRekey receiver blob = .ok (signedRekey identity groupId draw.newKey)

/-- Recipients are gathered from all active members, or not at all. -/
theorem collectGroupRecipients_spec (env : PeerEnv P) {groupId : GroupId P}
    {group : GroupRecord P} {db : PeerDb P}
    (listed : db.client.groups.lookup groupId = some group) :
    (∃ next err, db.collectGroupRecipients env groupId group = (next, .error err) ∧
        ¬db.Gathers env group) ∨
      ∃ next recipients, db.collectGroupRecipients env groupId group = (next, .ok recipients) ∧
        db.Gathers env group ∧ recipients ≠ [] ∧
        ∀ key, key ∈ recipients ↔ db.Offered env group key := by
  rw [collectGroupRecipients]
  cases connects : env.client.fails .connection with
  | true => exact .inl ⟨db, _, rfl, fun gathers => by simp [gathers.connects] at connects⟩
  | false =>
      have caches := ClientDb.groupsOnly_loadRoster env.client groupId group.descriptor.initAdmin
        db.client
      rcases ClientDb.loadRoster_cases env.client listed with
        ⟨client, err, loaded, fails, _⟩ | ⟨client, loaded, loads, _, _, relisted⟩
      · simp only [loaded, Bool.false_eq_true, if_false]
        exact .inl ⟨_, err, rfl, fun gathers => by simp [gathers.loads] at fails⟩
      · rw [loaded] at caches
        obtain ⟨groups, rfl⟩ := caches
        simp only [loaded, Bool.false_eq_true, if_false]
        cases lists : env.client.fails .member with
        | true => exact .inl ⟨_, _, rfl, fun gathers => by simp [gathers.lists] at lists⟩
        | false =>
            simp only [relisted, Bool.false_eq_true, if_false]
            have same : ∀ username ∈ group.loadedRoster.activeMembers, SameCached env.client.clock
                username db { db with client := { db.client with groups := groups } } :=
              fun _ _ => ⟨rfl, rfl, rfl, rfl⟩
            rcases collectFrom_spec env db group.loadedRoster.nodup_activeMembers same with
              ⟨next, err, collected, username, active, missing⟩ |
                ⟨next, recipients, collected, present, members⟩
            · simp only [collected]
              refine .inl ⟨next, err, rfl, ?_⟩
              intro gathers
              exact missing (gathers.available username (GroupRoster.mem_activeMembers.mp active))
            · simp only [GroupRoster.mem_activeMembers] at present members
              simp only [collected]
              cases recipients with
              | nil =>
                  refine .inl ⟨next, _, rfl, ?_⟩
                  intro gathers
                  obtain ⟨key, offered⟩ := gathers.offered
                  exact List.not_mem_nil ((members key).mpr offered)
              | cons key rest =>
                  exact .inr ⟨next, key :: rest, rfl,
                    ⟨connects, loads, lists, present, key, (members key).mp List.mem_cons_self⟩,
                    List.cons_ne_nil key rest, members⟩

/-- The rekey is sent exactly when everything it needs is there. -/
theorem sendGroupRekey_spec (env : PeerEnv P) (draw : RekeyDraw P) (identity : Identity P)
    {groupId : GroupId P} {group : GroupRecord P} {db : PeerDb P}
    (listed : db.client.groups.lookup groupId = some group) :
    (∃ next err, db.sendGroupRekey env draw identity groupId group = (next, .error err) ∧
        ¬db.Supplied env draw group) ∨
      ∃ next recipients, db.sendGroupRekey env draw identity groupId group =
          (next, .ok ⟨Blob.v1GroupRekey, Bcs.toBytes (HeaderEncrypted.sealed draw.senderEsk
            draw.messageKey (Bcs.toBytes (signedRekey identity groupId draw.newKey))
            recipients)⟩) ∧
        db.Supplied env draw group ∧ ∀ key, key ∈ recipients ↔ db.Offered env group key := by
  rw [sendGroupRekey]
  rcases collectGroupRecipients_spec env listed with
    ⟨next, err, collected, missing⟩ | ⟨next, recipients, collected, gathers, nonempty, members⟩
  · simp only [collected]
    exact .inl ⟨next, err, rfl, fun supplied => missing supplied.toGathers⟩
  · simp only [collected]
    cases encrypted : HeaderEncrypted.encryptBytes draw.senderEsk draw.messageKey
        (Bcs.toBytes (signedRekey identity groupId draw.newKey)) recipients with
    | error err =>
        refine .inl ⟨next, _, rfl, ?_⟩
        intro supplied
        have contribute : ∀ key ∈ recipients, P.Contributes draw.senderEsk key :=
          fun key member => supplied.contributes key ((members key).mp member)
        rw [HeaderEncrypted.encryptBytes_eq_ok.mpr ⟨nonempty, contribute, rfl⟩] at encrypted
        cases encrypted
    | ok encrypted =>
        obtain ⟨-, contributes, rfl⟩ := HeaderEncrypted.encryptBytes_eq_ok.mp encrypted
        cases reaches : env.reaches group.serverName with
        | false =>
            exact .inl ⟨next, _, rfl, fun supplied => by simp [supplied.reaches] at reaches⟩
        | true =>
            cases posted : env.post with
            | error err =>
                refine .inl ⟨next, err, rfl, ?_⟩
                intro supplied
                obtain ⟨sentAt, accepted⟩ := supplied.accepts
                rw [posted] at accepted
                cases accepted
            | ok sentAt =>
                exact .inr ⟨next, recipients, rfl,
                  ⟨gathers, fun key offered => contributes key ((members key).mpr offered), reaches,
                    sentAt, posted⟩, members⟩

end PeerDb

/-- A device opens what was sealed for either of its medium-term keys. -/
theorem Identity.openHeader_sealed (sealing : P.Sealing) {senderEsk secret : P.DhSecret}
    {key : AeadKey} {plaintext : Bytes} {recipients : List P.DhPublic} {receiver : Identity P}
    (own : secret = receiver.mediumSkCurrent ∨ secret = receiver.mediumSkPrev)
    (listed : P.dhPublicKey secret ∈ recipients)
    (contributes : P.Contributes senderEsk (P.dhPublicKey secret)) :
    receiver.openHeader (HeaderEncrypted.sealed senderEsk key plaintext recipients) =
      .ok plaintext := by
  have opened : (HeaderEncrypted.sealed senderEsk key plaintext recipients).decryptBytes secret =
      .ok plaintext :=
    HeaderEncrypted.decryptBytes_sealed sealing listed contributes
  rw [Identity.openHeader]
  -- The current key may open nothing, but then the previous one does.
  rcases HeaderEncrypted.decryptBytes_sealed_cases sealing senderEsk key plaintext recipients
    receiver.mediumSkCurrent with ⟨err, refused⟩ | current
  · rw [refused]
    rcases own with rfl | rfl
    · rw [opened] at refused
      cases refused
    · exact opened
  · rw [current]

/-- A receiver opens a rekey with either of its medium-term keys. -/
theorem openRekey_sealed (sealing : P.Sealing) {senderEsk secret : P.DhSecret} {key : AeadKey}
    {signed : DeviceSigned P} {recipients : List P.DhPublic} {receiver : Identity P}
    (own : secret = receiver.mediumSkCurrent ∨ secret = receiver.mediumSkPrev)
    (listed : P.dhPublicKey secret ∈ recipients)
    (contributes : P.Contributes senderEsk (P.dhPublicKey secret)) :
    openRekey receiver ⟨Blob.v1GroupRekey, Bcs.toBytes
      (HeaderEncrypted.sealed senderEsk key (Bcs.toBytes signed) recipients)⟩ = .ok signed := by
  have header : receiver.openHeader
      (HeaderEncrypted.sealed senderEsk key (Bcs.toBytes signed) recipients) =
        .ok (Bcs.toBytes signed) :=
    Identity.openHeader_sealed sealing own listed contributes
  simp only [openRekey, Bcs.fromBytes_toBytes, header]

namespace PeerDb

/-- A member cannot keep a rekey from the others exactly when everyone can be looked up and
no one offers a key of low order. -/
theorem outlasts_iff_supplied (sealing : P.Sealing) (env : PeerEnv P) (draw : RekeyDraw P)
    (identity : Identity P) {groupId : GroupId P} {group : GroupRecord P} {db : PeerDb P}
    (listed : db.client.groups.lookup groupId = some group) (member : UserName) :
    db.Outlasts env draw identity groupId group member ↔ db.Supplied env draw group := by
  rcases sendGroupRekey_spec env draw identity listed with
    ⟨next, err, sent, missing⟩ | ⟨next, recipients, sent, supplied, members⟩
  · refine iff_of_false ?_ missing
    rintro ⟨blob, delivered, _⟩
    rw [sent] at delivered
    cases delivered
  · refine iff_of_true ⟨_, congrArg Prod.snd sent, ?_⟩ supplied
    rintro other - active receiver ⟨secret, own, offers, contributes⟩
    have recipient : P.dhPublicKey secret ∈ recipients := (members _).mpr ⟨other, active, offers⟩
    exact openRekey_sealed sealing own recipient contributes

/-- Alice runs a group in which Bobby is a member. -/
def sharedGroup : GroupRecord symbolic :=
  { joinedGroup with
    roster := ⟨1, ((∅ : Table UserName RosterMember).insert bobby ⟨false, .accepted⟩).insert alice
      GroupRoster.initialMember⟩ }

def sharedDb : PeerDb symbolic :=
  ⟨{ ClientDb.empty with
    groups := (∅ : Table (GroupId symbolic) (GroupRecord symbolic)).insert exampleGroup.id
      sharedGroup }, ∅, ∅, ∅⟩

theorem sharedDb_lookup : sharedDb.client.groups.lookup exampleGroup.id = some sharedGroup :=
  AList.lookup_insert _

/-- What the server has of a user with one device. -/
def deviceChain (device : UInt8) : ChainMap symbolic :=
  (∅ : ChainMap symbolic).insert (symbolic.bcsHash device) (rootChain device 100)

def deviceMediumPk (device medium : UInt8) : MediumPkMap symbolic :=
  (∅ : MediumPkMap symbolic).insert (symbolic.bcsHash device)
    ⟨medium, 3, device :: Bcs.toBytes (medium, (3 : Timestamp))⟩

/-- Alice's view, with what the server answers for Bobby's chains. -/
def sharedEnv (bobbyCerts : Except EntryError (Option (ChainMap symbolic))) : PeerEnv symbolic where
  client := ⟨some aliceIdentity, 6, 6, symbolicDirectory, fun _ => false⟩
  reaches _ := true
  deviceCerts username := if username = alice then .ok (some (deviceChain 1)) else bobbyCerts
  mediumPks username :=
    .ok (if username = alice then deviceMediumPk 1 aliceMedium else deviceMediumPk 2 bobbyMedium)
  loadFails := false
  storeFails := false
  post := .ok 7

def sharedDraw : RekeyDraw symbolic := ⟨symbolicKey 4, (9 : UInt8), symbolicKey 5⟩

theorem sharedGroup_active {username : UserName}
    (active : sharedGroup.loadedRoster.senderActive username = true) :
    username = alice ∨ username = bobby := by
  have listed := GroupRoster.mem_activeMembers.mpr active
  have members : sharedGroup.loadedRoster.activeMembers = [alice, bobby] := by decide
  rw [members] at listed
  simpa using listed

theorem sharedDb_alice (bobbyCerts : Except EntryError (Option (ChainMap symbolic))) :
    sharedDb.Listed (sharedEnv bobbyCerts) alice ⟨symbolicServer, symbolic.bcsHash (1 : UInt8)⟩
      (deviceChain 1) (deviceMediumPk 1 aliceMedium) :=
  ⟨rfl, rfl, rfl⟩

theorem sharedDb_bobby :
    sharedDb.Listed (sharedEnv (.ok (some (deviceChain 2)))) bobby
      ⟨symbolicServer, symbolic.bcsHash (2 : UInt8)⟩ (deviceChain 2)
      (deviceMediumPk 2 bobbyMedium) :=
  ⟨rfl, rfl, rfl⟩

/-- Alice offers her key whatever Bobby's server answers. -/
theorem sharedDb_offers (bobbyCerts : Except EntryError (Option (ChainMap symbolic))) :
    sharedDb.OffersKey (sharedEnv bobbyCerts) alice aliceMedium := by
  have verifies : (rootChain 1 100).verifies 6 (symbolic.bcsHash (1 : UInt8)) = true := by decide
  exact ⟨_, _, _, sharedDb_alice bobbyCerts, symbolic.bcsHash (1 : UInt8), rootChain 1 100,
    ⟨aliceMedium, 3, 1 :: Bcs.toBytes (aliceMedium, (3 : Timestamp))⟩, by decide, verifies,
    by decide, by decide, by decide, by decide⟩

theorem outlasts_iff_supplied_shared : sharedDb.Outlasts (sharedEnv (.ok (some (deviceChain 2))))
    sharedDraw aliceIdentity exampleGroup.id sharedGroup bobby :=
  (outlasts_iff_supplied symbolic_sealing (sharedEnv (.ok (some (deviceChain 2)))) sharedDraw
    aliceIdentity sharedDb_lookup bobby).mpr
    { connects := rfl
      loads := by decide
      lists := rfl
      available := by
        intro username active
        rcases sharedGroup_active active with rfl | rfl
        · exact ⟨_, _, _, sharedDb_alice _, symbolic.bcsHash (1 : UInt8), rootChain 1 100,
            by decide, by decide, by decide⟩
        · exact ⟨_, _, _, sharedDb_bobby, symbolic.bcsHash (2 : UInt8), rootChain 2 100,
            by decide, by decide, by decide⟩
      offered := ⟨aliceMedium, alice, by decide, sharedDb_offers _⟩
      contributes := fun _ _ => symbolic_contributes _ _
      reaches := rfl
      accepts := ⟨7, rfl⟩ }

/-- Bobby's server has no chains for Bobby, and Alice's rekey stops. -/
theorem noChains_breaks :
    sharedGroup.loadedRoster.senderAdmin alice = true ∧
      sharedGroup.loadedRoster.senderActive bobby = true ∧
      sharedDb.OffersKey (sharedEnv (.ok none)) alice aliceMedium ∧
      symbolic.Contributes sharedDraw.senderEsk aliceMedium ∧
      ¬sharedDb.Outlasts (sharedEnv (.ok none)) sharedDraw aliceIdentity exampleGroup.id sharedGroup
        bobby := by
  refine ⟨by decide, by decide, sharedDb_offers _, symbolic_contributes _ _, ?_⟩
  rintro ⟨blob, sent, _⟩
  have stopped : (sharedDb.sendGroupRekey (sharedEnv (.ok none)) sharedDraw aliceIdentity
      exampleGroup.id sharedGroup).2 = .error (.said "username has no certificate chains") := by
    decide
  rw [stopped] at sent
  cases sent

end PeerDb
end Nullspace
