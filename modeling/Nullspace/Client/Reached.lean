import Nullspace.Client.Installations
import Nullspace.Client.MediumKeys
import Nullspace.Client.Recipients
import Nullspace.Client.SendLoop

/-!
# From a registration to a direct message

A sender looks a user up in the directory, asks the user's server for chains and medium-term
keys, leaves out what does not verify, and seals a message for the keys which are left.
`reached_always` follows two devices from their registrations to there, and further to the
receiver's rows: it files what the sender seals for its user, also while a rotation of its
medium-term key is under way.
-/

namespace Nullspace

open Nullspace.Base

variable {P : Primitives}

/-- A table decoded from the rows of an answer. -/
def DecodesTo {Row : Type} (rows : List (P.Hash × Row)) (table : Table P.Hash Row) : Prop :=
  ∀ hash row, table.lookup hash = some row ↔ (hash, row) ∈ rows

/-- The user's server as it is now answers a lookup of the user. -/
structure PeerEnv.Asks (env : PeerEnv P) (server : ServerDb P) (username : UserName) : Prop where
  chains : ∃ call rows table, server.deviceList call username = .ok (some rows) ∧
    env.deviceCerts username = .ok (some table) ∧ DecodesTo rows table
  mediumPks : ∃ call rows table, server.deviceMediumPksOf call username = .ok rows ∧
    env.mediumPks username = .ok table ∧ DecodesTo rows table

/-- A sender whose cache of the user is old or empty is led to the server by the directory. -/
structure PeerDb.Led (db : PeerDb P) (env : PeerEnv P) (username : UserName)
    (serverName : ServerName) (descriptor : UserDescriptor P) : Prop where
  works : db.client.lookupFails env.client username = false
  known : db.client.descriptorFor env.client username = some descriptor
  home : descriptor.serverName = serverName
  reaches : env.reaches serverName = true
  loads : env.loadFails = false
  stores : env.storeFails = false
  refreshes : db.shouldRefresh env.client.clock username = true

/-- A sender finds the server of a device, the chain which the server lists for it verifies,
and the sender has cached no newer key of it. -/
structure PeerDb.Finds (db : PeerDb P) (env : PeerEnv P) (server : ServerDb P)
    (serverName : ServerName) (descriptor : UserDescriptor P) (identity : Identity P) : Prop
    extends db.Led env identity.username serverName descriptor,
      env.Asks server identity.username where
  verifies : ∀ hash chain, (hash, chain) ∈ server.certificatesOf identity.username →
    chain.lastDevice.pk = P.publicKey identity.deviceSecret →
      chain.verifies env.client.clock descriptor.rootCertHash = true
  newest : ∀ old mediumPk,
    (db.cachedMediumPks identity.username).lookup (ServerDb.deviceHash identity.certChain) =
      some old →
    server.deviceMediumPks.lookup (ServerDb.deviceHash identity.certChain) = some mediumPk →
      old.stamp ≤ mediumPk.stamp

/-- The reader's device works, and verifies the sender's chain under the root which it knows. -/
structure ClientDb.Receptive (db : ClientDb P) (env : ClientEnv P) (reader sender : Identity P) :
    Prop where
  filed : db.Filed
  reads : env.identity = some reader
  calm : env.Calm
  verifies : ∃ descriptor, db.descriptorFor env sender.username = some descriptor ∧
    sender.certChain.verifies env.clock descriptor.rootCertHash = true

/-- The event has its conversation's time for itself. -/
def ClientDb.LeavesSlot (db : ClientDb P) (convo : ConvoId P) (event : ShownEvent) : Prop :=
  ∀ other ∈ db.contents, shownKey other = shownKey (some convo, event) →
    other = (some convo, event)

/-- The sender finds recipients, and what it seals for them as a message to the reader's user
the reader's device files in the conversation with the sender. -/
def PeerDb.Reaches (db : PeerDb P) (env : PeerEnv P) (sender reader : Identity P) : Prop :=
  ∃ peer recipients, (getUserInfo env reader.username db).2 = .ok peer ∧
    recipientsFromPeer peer = .ok recipients ∧
    ∀ (input : SealInput P) (row : ConvoMessage) message, input.recipients = recipients →
      sender.sealDirect input (row.content (.direct reader.username)) = some message →
      ∀ json receiving key receivedAt hash (inbox : ClientDb P),
        inbox.Receptive receiving reader sender →
        let event := (row.content (P := P) (.direct reader.username)).shown sender.username
        inbox.LeavesSlot (.direct sender.username) event →
          (some (.direct sender.username), event) ∈
            (inbox.processMailboxEntry json receiving key ⟨message, receivedAt, hash⟩).1.contents

/-- The server has accepted the device's key for its own user only, and the medium-term key
which it serves for the device is one of the two in the device's row. -/
structure ServedRun.Undisturbed (config : ServerConfig) (run : ServedRun P)
    (identity : Identity P) : Prop where
  claims : ∀ other cert, CallHistory.Authenticated config run.history other cert →
    cert.lastDevice.pk = P.publicKey identity.deviceSecret → other = identity.username
  decryptable : RotatingDevice.Decryptable ⟨identity, none, [], run.db⟩

namespace PeerDb

/-- The maps of a lookup which asks the server. -/
theorem Led.maps {db : PeerDb P} {env : PeerEnv P} {username : UserName}
    {serverName : ServerName} {descriptor : UserDescriptor P}
    (led : db.Led env username serverName descriptor) {chains : ChainMap P}
    {fetched : MediumPkMap P} (certs : env.deviceCerts username = .ok (some chains))
    (mediumPks : env.mediumPks username = .ok fetched) :
    ∃ merged, db.mapsFor env username descriptor = some (chains, merged) ∧
      ∀ hash mediumPk, fetched.lookup hash = some mediumPk →
        (∀ old, (db.cachedMediumPks username).lookup hash = some old →
          old.stamp ≤ mediumPk.stamp) → merged.lookup hash = some mediumPk := by
  refine ⟨mergeMonotonicMediumPks (db.cachedMediumPks username) fetched, ?_, ?_⟩
  · rw [mapsFor, led.home, led.reaches, led.loads, led.refreshes, certs, mediumPks, led.stores]
    rfl
  · intro hash mediumPk served newest
    rw [lookup_mergeMonotonicMediumPks, served]
    exact register_of_newest newest

/-- A device which the server lists and has a key of is among the recipients. -/
theorem Led.offersKey {db : PeerDb P} {env : PeerEnv P} {username : UserName}
    {serverName : ServerName} {descriptor : UserDescriptor P} {server : ServerDb P}
    (led : db.Led env username serverName descriptor) (asks : env.Asks server username)
    {chain : CertificateChain P} {mediumPk : SignedMediumPk P}
    (listed : (ServerDb.deviceHash chain, chain) ∈ server.certificatesOf username)
    (verifies : chain.verifies env.client.clock descriptor.rootCertHash = true)
    (token : (username, ServerDb.deviceHash chain) ∈ server.deviceAuthTokens)
    (stored : server.deviceMediumPks.lookup (ServerDb.deviceHash chain) = some mediumPk)
    (signed : Signable.verify mediumPk chain.lastDevice.pk = true)
    (newest : ∀ old, (db.cachedMediumPks username).lookup (ServerDb.deviceHash chain) = some old →
      old.stamp ≤ mediumPk.stamp) :
    db.OffersKey env username mediumPk.mediumPk := by
  obtain ⟨call, rows, chains, answered, certs, decodes⟩ := asks.chains
  obtain ⟨again, keys, fetched, keysAnswered, mediumPks, keysDecode⟩ := asks.mediumPks
  obtain ⟨merged, maps, served⟩ := led.maps certs mediumPks
  have row : rows = server.certificatesOf username := by
    rw [ServerDb.deviceList] at answered
    split at answered
    · cases answered
    · split at answered
      · cases answered
      · cases answered
        rfl
  have key : (ServerDb.deviceHash chain, mediumPk) ∈ keys :=
    (ServerDb.mem_deviceMediumPksOf keysAnswered _ _).mpr ⟨stored, token⟩
  refine ⟨descriptor, chains, merged, ⟨led.works, led.known, maps⟩, ServerDb.deviceHash chain,
    chain, mediumPk, (decodes _ _).mpr (row ▸ listed), verifies, rfl, ?_, signed, rfl⟩
  exact served _ _ ((keysDecode _ _).mpr key) newest

/-- A lookup of a user who offers a key gives recipients, and the key is among them. -/
theorem OffersKey.recipients {db : PeerDb P} {env : PeerEnv P} {username : UserName}
    {key : P.DhPublic} (offers : db.OffersKey env username key) :
    ∃ peer recipients, (getUserInfo env username db).2 = .ok peer ∧
      recipientsFromPeer peer = .ok recipients ∧ key ∈ recipients := by
  have available : db.Available env username := by
    obtain ⟨descriptor, chains, mediumPks, listed, hash, chain, _, stands, verifies, filed, _⟩ :=
      offers
    exact ⟨descriptor, chains, mediumPks, listed, hash, chain, stands, verifies, filed⟩
  obtain ⟨peer, found⟩ := available_iff.mp available
  have member := (mem_collectRecipients_getUserInfo found).mpr offers
  refine ⟨peer, collectRecipients peer.deviceChains peer.mediumPks, found, ?_, member⟩
  have present : (collectRecipients peer.deviceChains peer.mediumPks).isEmpty = false := by
    rw [List.isEmpty_eq_false_iff]
    exact List.ne_nil_of_mem member
  rw [recipientsFromPeer, Send.collectRecipients]
  simp only [present, Bool.false_eq_true, if_false]

end PeerDb

namespace ServedRun

/-- The server has a key of an undisturbed device, and the device still has its secret. -/
theorem Enlisted.key {config : ServerConfig} {run : ServedRun P} {identity : Identity P}
    (free : P.CollisionFree) (sourced : run.Sourced config)
    (enlisted : run.Enlisted config identity.username identity.certChain identity.deviceSecret)
    (undisturbed : run.Undisturbed config identity) :
    ∃ mediumPk secret, run.db.deviceMediumPks.lookup (ServerDb.deviceHash identity.certChain) =
        some mediumPk ∧
      Signable.verify mediumPk (P.publicKey identity.deviceSecret) = true ∧
      (secret = identity.mediumSkCurrent ∨ secret = identity.mediumSkPrev) ∧
      mediumPk.mediumPk = P.dhPublicKey secret := by
  obtain ⟨mediumPk, stored⟩ :=
    Option.isSome_iff_exists.mp (AList.lookup_isSome.mpr enlisted.keyed)
  obtain ⟨chain, same, _, signed⟩ := sourced.mediumPks _ _ stored
  have device : chain.lastDevice.pk = P.publicKey identity.deviceSecret :=
    (free.bcsHash_inj.mp same.symm).trans enlisted.holder
  rw [device] at signed
  have serves : RotatingDevice.served ⟨identity, none, [], run.db⟩ = some mediumPk.mediumPk := by
    rw [RotatingDevice.served, RotatingDevice.device, stored, Option.map_some]
  rcases undisturbed.decryptable _ serves with current | previous
  · exact ⟨mediumPk, _, stored, signed, .inl rfl, current⟩
  · exact ⟨mediumPk, _, stored, signed, .inr rfl, previous⟩

/-- Who finds the server is offered a key whose secret an undisturbed device has. -/
theorem Enlisted.offered {config : ServerConfig} {run : ServedRun P} {identity : Identity P}
    (free : P.CollisionFree) (sourced : run.Sourced config)
    (enlisted : run.Enlisted config identity.username identity.certChain identity.deviceSecret)
    (undisturbed : run.Undisturbed config identity) {db : PeerDb P} {env : PeerEnv P}
    {serverName : ServerName} {descriptor : UserDescriptor P}
    (finds : db.Finds env run.db serverName descriptor identity) :
    ∃ secret, (secret = identity.mediumSkCurrent ∨ secret = identity.mediumSkPrev) ∧
      db.OffersKey env identity.username (P.dhPublicKey secret) := by
  obtain ⟨chain, listed, device⟩ := enlisted.listed sourced undisturbed.claims free
  obtain ⟨mediumPk, secret, stored, signed, own, key⟩ := enlisted.key free sourced undisturbed
  have same : ServerDb.deviceHash identity.certChain = ServerDb.deviceHash chain := by
    rw [ServerDb.deviceHash, ServerDb.deviceHash, enlisted.holder, device]
  have token := enlisted.token
  have newest := fun old cached => finds.newest old mediumPk cached stored
  rw [same] at listed stored token newest
  refine ⟨secret, own, ?_⟩
  rw [← key]
  exact finds.offersKey finds.toAsks listed (finds.verifies _ chain listed device) token stored
    (device ▸ signed) newest

end ServedRun

/-- A direct message which is sealed for a key of the reader's device is filed there. -/
theorem ClientDb.Receptive.files {inbox : ClientDb P} {receiving : ClientEnv P}
    {reader sender : Identity P} (receptive : inbox.Receptive receiving reader sender)
    (sealing : P.Sealing) (signs : P.SignsCorrectly)
    (holder : sender.certChain.lastDevice.pk = P.publicKey sender.deviceSecret)
    {input : SealInput P} {row : ConvoMessage} {message : Blob} {secret : P.DhSecret}
    (made : sender.sealDirect input (row.content (.direct reader.username)) = some message)
    (own : secret = reader.mediumSkCurrent ∨ secret = reader.mediumSkPrev)
    (listed : P.dhPublicKey secret ∈ input.recipients)
    (slot : inbox.LeavesSlot (.direct sender.username)
      ((row.content (P := P) (.direct reader.username)).shown sender.username))
    (json : JsonReader P) (key : MailboxKey P) (receivedAt : NanoTimestamp)
    (hash : Option P.Hash) :
    (some (.direct sender.username),
        (row.content (P := P) (.direct reader.username)).shown sender.username) ∈
      (inbox.processMailboxEntry json receiving key ⟨message, receivedAt, hash⟩).1.contents := by
  obtain ⟨descriptor, known, chain⟩ := receptive.verifies
  have received := directEvent_sealed sealing signs made own listed receptive.reads receptive.calm
    known chain holder receivedAt hash
  rw [directPeer_content, Option.map_some] at received
  have files := receptive.filed.processMailboxEntry json receiving key ⟨message, receivedAt, hash⟩
  rw [files.contents, received]
  exact mem_insertOrIgnore_self slot

namespace InstallWorld

/-- In every run, for any two installations with identities: as long as the server of the one
has accepted its device's key for no other user and serves a medium-term key whose secret the
device still has, the other one, when it finds this server, reaches the device with its direct
messages to the user. -/
theorem reached_always (free : P.CollisionFree) (exclusive : P.SignsExclusively)
    (sealing : P.Sealing) (signs : P.SignsCorrectly) (config : ServerName → ServerConfig)
    (events : List (InstallEvent P)) :
    (machine config).Always (fun world => ∀ first second sender reader,
      world.identities first = some sender → world.identities second = some reader →
        ∃ serverName, world.homes second = some serverName ∧
          ((world.served serverName).Undisturbed (config serverName) reader →
            ∀ env db descriptor,
              PeerDb.Finds db env (world.served serverName).db serverName descriptor reader →
                db.Reaches env sender reader)) start events := by
  intro before position world reached first second sender reader sends reads
  have sound : world.Sound config :=
    Machine.always_of_step (fun sound taken => sound.step free exclusive taken) events
      (sound_start config) before position world reached
  obtain ⟨serverName, home, enlisted⟩ := sound.identities second reader reads
  obtain ⟨_, _, vouched⟩ := sound.identities first sender sends
  refine ⟨serverName, home, ?_⟩
  intro undisturbed env db descriptor finds
  obtain ⟨secret, own, offers⟩ :=
    enlisted.offered free (sound.sourced serverName) undisturbed finds
  obtain ⟨peer, recipients, found, collected, member⟩ := offers.recipients
  refine ⟨peer, recipients, found, collected, ?_⟩
  rintro input row message rfl made json receiving key receivedAt hash inbox receptive event slot
  exact receptive.files sealing signs vouched.holder made own member slot json key receivedAt hash

open WatchedServer (tokenOf)

/-- The row of Alice's first installation in a rotation which has not published the new key. -/
def aliceRotating : Identity symbolic :=
  { Identity.persisted (P := symbolic) alice symbolicServer 1 (bootstrapChain 1) aliceMedium with
    mediumSkCurrent := 9 }

/-- The row of Bobby's installation. -/
def bobbyInstalled : Identity symbolic :=
  .persisted bobby symbolicServer 2 (bootstrapChain 2) bobbyMedium

/-- Alice's first installation registers and stores a new medium-term key; Bobby registers. -/
def bobbyInstalls : List (InstallEvent symbolic) :=
  aliceInstalls.take 8 ++ .maintain 0 (some symbolicServer) 9 aliceMedium ::
    .register 1 1 (.bootstrapNewUser bobby symbolicServer) ::
      installSteps 1 none 2 bobbyMedium [8, 9, 10, 11, 12, 13, 14]

/-- A table with the row of Alice's first device. -/
def aliceRow {Row : Type} (row : Row) : Table symbolic.Hash Row :=
  (∅ : Table symbolic.Hash Row).insert (symbolic.bcsHash (1 : UInt8)) row

/-- What a sender meets once Alice has registered. -/
def aliceAnswers : PeerEnv symbolic where
  client := ⟨none, 6, 6, symbolicDirectory, fun _ => false⟩
  reaches _ := true
  deviceCerts _ := .ok (some (aliceRow (bootstrapChain 1)))
  mediumPks _ := .ok (aliceRow (signedMediumPk (P := symbolic) (1 : UInt8) aliceMedium 5))
  loadFails := false
  storeFails := false
  post := .ok 7

/-- A sender who knows nobody yet. -/
def newSender : PeerDb symbolic := ⟨ClientDb.empty, ∅, ∅, ∅⟩

theorem decodesTo_aliceRow {Row : Type} (row : Row) :
    DecodesTo (P := symbolic) [(symbolic.bcsHash (1 : UInt8), row)] (aliceRow row) := by
  intro hash other
  rw [aliceRow, Table.lookup_insert_eq, List.mem_singleton, Prod.mk.injEq]
  split
  · rename_i same
    simp [same, eq_comm]
  · rename_i apart
    simp [apart]

theorem reached_always_bobby : ∃ world,
    (machine namedServer).exec start bobbyInstalls = some world ∧
      world.identities 1 = some bobbyInstalled ∧ world.identities 0 = some aliceRotating ∧
      newSender.Reaches aliceAnswers bobbyInstalled aliceRotating := by
  have ends : ((machine namedServer).exec start bobbyInstalls).map (fun world =>
      (world.identities 1, world.identities 0, world.homes 0,
        (world.served symbolicServer).history,
        (world.served symbolicServer).db.certificatesOf alice,
        (world.served symbolicServer).db.deviceMediumPks.lookup (symbolic.bcsHash (1 : UInt8)),
        (world.served symbolicServer).db.deviceMediumPksOf (callEnv 0) alice)) =
      some (some bobbyInstalled, some aliceRotating, some symbolicServer,
        [(callEnv 5, .deviceAuth alice (bootstrapChain 1)),
          (callEnv 6, .deviceAddMediumPk (tokenOf 5)
            (signedMediumPk (P := symbolic) 1 aliceMedium 5)),
          (callEnv 12, .deviceAuth bobby (bootstrapChain 2)),
          (callEnv 13, .deviceAddMediumPk (tokenOf 12)
            (signedMediumPk (P := symbolic) 2 bobbyMedium 5))],
        [(symbolic.bcsHash (1 : UInt8), bootstrapChain (P := symbolic) 1)],
        some (signedMediumPk (P := symbolic) 1 aliceMedium 5),
        .ok [(symbolic.bcsHash (1 : UInt8), signedMediumPk (P := symbolic) 1 aliceMedium 5)]) := by
    rfl
  obtain ⟨world, reached, facts⟩ := Option.map_eq_some_iff.mp ends
  simp only [Prod.mk.injEq] at facts
  obtain ⟨sends, reads, home, history, listed, stored, keys⟩ := facts
  obtain ⟨serverName, registered, reaches⟩ :=
    (reached_always symbolic_collisionFree symbolic_signsExclusively symbolic_sealing
      symbolic_signsCorrectly namedServer bobbyInstalls).last reached 1 0 bobbyInstalled
      aliceRotating sends reads
  obtain rfl : symbolicServer = serverName := Option.some.inj (home.symm.trans registered)
  refine ⟨world, reached, sends, reads, reaches ⟨?_, ?_⟩ aliceAnswers newSender
    ⟨symbolicServer, symbolic.bcsHash (1 : UInt8)⟩ ⟨⟨rfl, rfl, rfl, rfl, rfl, rfl, rfl⟩,
      ⟨⟨callEnv 0, _, _, ?_, rfl, decodesTo_aliceRow _⟩,
        ⟨callEnv 0, _, _, keys, rfl, decodesTo_aliceRow _⟩⟩, ?_, ?_⟩⟩
  · rintro other cert ⟨env, made, _⟩ device
    rw [history] at made
    simp only [List.mem_cons, Prod.mk.injEq, ServerRequest.deviceAuth.injEq, reduceCtorEq,
      and_false, List.not_mem_nil, or_false, false_or] at made
    rcases made with ⟨_, rfl, rfl⟩ | ⟨_, rfl, rfl⟩
    · rfl
    · revert device
      decide
  · intro key serves
    rw [RotatingDevice.served] at serves
    have same := serves.symm.trans (congrArg (Option.map SignedMediumPk.mediumPk) stored)
    exact .inr (Option.some.inj same)
  · rw [ServerDb.deviceList, aliceRotating, Identity.persisted, listed]
    rfl
  · intro hash chain found _
    rw [aliceRotating, Identity.persisted, listed, List.mem_singleton, Prod.mk.injEq] at found
    rw [found.2]
    decide +kernel
  · intro old mediumPk cached
    cases cached

end InstallWorld
end Nullspace
