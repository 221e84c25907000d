import Nullspace.Client.Rounds

/-!
# User information

`get_user_info` finds a user's server through the directory, and at this server the
certificate chains and the medium-term keys of the user's devices. The answers are cached.
Chains which do not verify are left out; the keys stay as the server has them, and are
verified by whoever uses them.
-/

namespace Nullspace

open Nullspace.Base

variable (P : Primitives)

/-- Chains by device. -/
abbrev ChainMap := Table P.Hash (CertificateChain P)

/-- Medium-term keys by device. -/
abbrev MediumPkMap := Table P.Hash (SignedMediumPk P)

/-- What senders know of a user. -/
structure UserInfo where
  username : UserName
  serverName : ServerName
  deviceChains : ChainMap P
  mediumPks : MediumPkMap P

/-- The client's database with the caches of `user_info.rs`. -/
structure PeerDb where
  client : ClientDb P
  deviceCertsCache : Table UserName (ChainMap P)
  mediumPksCache : Table UserName (MediumPkMap P)
  userInfoCache : Table UserName Int

/-- What the lookups of users meet. -/
structure PeerEnv where
  client : ClientEnv P
  /-- `get_server_client` has a client for the server. -/
  reaches : ServerName → Bool
  /-- What a user's server answers to `v1_device_certs` and to `v1_device_medium_pks`. -/
  deviceCerts : UserName → Except EntryError (Option (ChainMap P))
  mediumPks : UserName → Except EntryError (MediumPkMap P)
  loadFails : Bool
  storeFails : Bool
  /-- What a group's server answers to the entry which is sent to it. -/
  post : Except EntryError NanoTimestamp

variable {P}

/-- One turn of the loop of `merge_monotonic_medium_pks`. -/
def mergeMediumPk (out : MediumPkMap P) (fetched : P.Hash × SignedMediumPk P) : MediumPkMap P :=
  match out.lookup fetched.1 with
  | some existing =>
      if fetched.2.created < existing.created then out else out.insert fetched.1 fetched.2
  | none => out.insert fetched.1 fetched.2

/-- `merge_monotonic_medium_pks`: a fetched key replaces a cached one unless it is older. -/
def mergeMonotonicMediumPks (cached fetched : MediumPkMap P) : MediumPkMap P :=
  fetched.rows.foldl mergeMediumPk cached

/-- The chains which `get_user_info` leaves in. -/
def validChains (now : Timestamp) (rootHash : P.Hash) (chains : ChainMap P) : ChainMap P :=
  chains.keepRows fun deviceHash chain =>
    chain.verifies now rootHash && decide (P.bcsHash chain.lastDevice.pk = deviceHash)

namespace PeerDb

def cachedDeviceChains (db : PeerDb P) (username : UserName) : ChainMap P :=
  (db.deviceCertsCache.lookup username).getD ∅

def cachedMediumPks (db : PeerDb P) (username : UserName) : MediumPkMap P :=
  (db.mediumPksCache.lookup username).getD ∅

/-- `should_refresh`. -/
def shouldRefresh (db : PeerDb P) (clock : Timestamp) (username : UserName) : Bool :=
  !(match db.userInfoCache.lookup username with
    | none => false
    | some fetchedAt => ClientDb.isFresh clock fetchedAt) ||
    (db.cachedDeviceChains username).entries.isEmpty

/-- `store_cached_user_info`. -/
def storeCachedUserInfo (db : PeerDb P) (clock : Timestamp) (username : UserName)
    (chains : ChainMap P) (mediumPks : MediumPkMap P) : PeerDb P :=
  { db with
    deviceCertsCache := db.deviceCertsCache.insert username chains
    mediumPksCache := db.mediumPksCache.insert username mediumPks
    userInfoCache := db.userInfoCache.insert username (ClientDb.nowSeconds clock) }

/-- The chains and the keys of a user, fetched when the cache is old or empty. Of two failed
calls the first one to fail is reported, here the chains. -/
def refresh (env : PeerEnv P) (username : UserName) (db : PeerDb P) :
    PeerDb P × Except EntryError (ChainMap P × MediumPkMap P) :=
  if db.shouldRefresh env.client.clock username then
    match env.deviceCerts username, env.mediumPks username with
    | .error err, _ => (db, .error err)
    | .ok none, _ => (db, .error (.said "username has no certificate chains"))
    | .ok (some _), .error err => (db, .error err)
    | .ok (some chains), .ok fetched =>
        let merged := mergeMonotonicMediumPks (db.cachedMediumPks username) fetched
        if env.storeFails then (db, .error .database)
        else
          (db.storeCachedUserInfo env.client.clock username chains merged, .ok (chains, merged))
  else (db, .ok (db.cachedDeviceChains username, db.cachedMediumPks username))

/-- `get_user_info` behind its lookup of the descriptor. -/
def peerInfo (env : PeerEnv P) (username : UserName) (descriptor : UserDescriptor P)
    (db : PeerDb P) : PeerDb P × Except EntryError (UserInfo P) :=
  if !env.reaches descriptor.serverName then (db, .error .directory)
  else if env.loadFails then (db, .error .database)
  else
    match db.refresh env username with
    | (db, .error err) => (db, .error err)
    | (db, .ok (chains, mediumPks)) =>
        let valid := validChains env.client.clock descriptor.rootCertHash chains
        if valid.entries.isEmpty then
          (db, .error (.said ("no valid device certificate chains for " ++ username.str)))
        else (db, .ok ⟨username, descriptor.serverName, valid, mediumPks⟩)

/-- `get_user_info`. -/
def getUserInfo (env : PeerEnv P) (username : UserName) (db : PeerDb P) :
    PeerDb P × Except EntryError (UserInfo P) :=
  match db.client.getUserDescriptor env.client username with
  | (client, .error err) => ({ db with client := client }, .error err)
  | (client, .ok descriptor) => { db with client := client }.peerInfo env username descriptor

/-! ## What a lookup finds and leaves -/

/-- The chains and the keys which a lookup works with. -/
def mapsFor (env : PeerEnv P) (db : PeerDb P) (username : UserName)
    (descriptor : UserDescriptor P) : Option (ChainMap P × MediumPkMap P) :=
  if !env.reaches descriptor.serverName then none
  else if env.loadFails then none
  else if db.shouldRefresh env.client.clock username then
    match env.deviceCerts username, env.mediumPks username with
    | .ok (some chains), .ok fetched =>
        if env.storeFails then none
        else some (chains, mergeMonotonicMediumPks (db.cachedMediumPks username) fetched)
    | _, _ => none
  else some (db.cachedDeviceChains username, db.cachedMediumPks username)

/-- What the directory and the user's server have for a user, as far as a lookup gets it. -/
structure Listed (env : PeerEnv P) (db : PeerDb P) (username : UserName)
    (descriptor : UserDescriptor P) (chains : ChainMap P) (mediumPks : MediumPkMap P) : Prop where
  works : db.client.lookupFails env.client username = false
  known : db.client.descriptorFor env.client username = some descriptor
  maps : db.mapsFor env username descriptor = some (chains, mediumPks)

/-- There is one answer to what is listed of a user. -/
theorem Listed.unique {env : PeerEnv P} {db : PeerDb P} {username : UserName}
    {first second : UserDescriptor P} {chains others : ChainMap P}
    {mediumPks otherPks : MediumPkMap P} (listed : db.Listed env username first chains mediumPks)
    (again : db.Listed env username second others otherPks) :
    first = second ∧ chains = others ∧ mediumPks = otherPks := by
  have descriptors := listed.known.symm.trans again.known
  cases descriptors
  have maps := listed.maps.symm.trans again.maps
  cases maps
  exact ⟨rfl, rfl, rfl⟩

/-- The user's server can be asked, and it has a chain of the user which verifies. -/
def Available (env : PeerEnv P) (db : PeerDb P) (username : UserName) : Prop :=
  ∃ descriptor chains mediumPks, db.Listed env username descriptor chains mediumPks ∧
    ∃ deviceHash chain, chains.lookup deviceHash = some chain ∧
      chain.verifies env.client.clock descriptor.rootCertHash = true ∧
      P.bcsHash chain.lastDevice.pk = deviceHash

/-- A chain is left in when it verifies and is filed under its own device. -/
theorem lookup_validChains {now : Timestamp} {rootHash deviceHash : P.Hash} {chains : ChainMap P}
    {chain : CertificateChain P} :
    (validChains now rootHash chains).lookup deviceHash = some chain ↔
      chains.lookup deviceHash = some chain ∧ chain.verifies now rootHash = true ∧
        P.bcsHash chain.lastDevice.pk = deviceHash := by
  rw [validChains, Table.lookup_keepRows, Bool.and_eq_true, decide_eq_true_eq]

/-- A refresh gives what a lookup works with, or fails. -/
theorem refresh_cases (env : PeerEnv P) (username : UserName) {descriptor : UserDescriptor P}
    (db : PeerDb P) (reaches : env.reaches descriptor.serverName = true)
    (loads : env.loadFails = false) :
    (∃ err, db.refresh env username = (db, .error err) ∧
        db.mapsFor env username descriptor = none) ∨
      ∃ next maps, db.refresh env username = (next, .ok maps) ∧
        db.mapsFor env username descriptor = some maps := by
  simp only [refresh, mapsFor, reaches, loads]
  cases db.shouldRefresh env.client.clock username with
  | false => exact .inr ⟨db, _, rfl, rfl⟩
  | true =>
      cases env.deviceCerts username with
      | error err => exact .inl ⟨err, rfl, rfl⟩
      | ok answer =>
          cases answer with
          | none => exact .inl ⟨_, rfl, rfl⟩
          | some chains =>
              cases env.mediumPks username with
              | error err => exact .inl ⟨err, rfl, rfl⟩
              | ok fetched =>
                  cases env.storeFails with
                  | true => exact .inl ⟨_, rfl, rfl⟩
                  | false => exact .inr ⟨_, _, rfl, rfl⟩

/-- What `get_user_info` returns once it has the descriptor. -/
theorem peerInfo_ok (env : PeerEnv P) (username : UserName) (descriptor : UserDescriptor P)
    (db : PeerDb P) (info : UserInfo P) :
    (db.peerInfo env username descriptor).2 = .ok info ↔
      ∃ chains mediumPks, db.mapsFor env username descriptor = some (chains, mediumPks) ∧
        (validChains env.client.clock descriptor.rootCertHash chains).entries.isEmpty = false ∧
        info = ⟨username, descriptor.serverName,
          validChains env.client.clock descriptor.rootCertHash chains, mediumPks⟩ := by
  cases reaches : env.reaches descriptor.serverName with
  | false => simp [peerInfo, mapsFor, reaches]
  | true =>
      cases loads : env.loadFails with
      | true => simp [peerInfo, mapsFor, reaches, loads]
      | false =>
          rw [peerInfo, reaches, loads]
          rcases refresh_cases env username db reaches loads with
            ⟨err, refreshed, maps⟩ | ⟨next, ⟨chains, mediumPks⟩, refreshed, maps⟩
          · simp [refreshed, maps]
          · simp only [refreshed, maps, Bool.not_true, Bool.false_eq_true, if_false]
            constructor
            · intro made
              split at made <;> rename_i valid
              · cases made
              · cases made
                exact ⟨chains, mediumPks, rfl, Bool.not_eq_true _ ▸ valid, rfl⟩
            · rintro ⟨_, _, same, valid, rfl⟩
              cases same
              rw [valid]
              rfl

/-- A lookup succeeds when the user is listed with a chain which verifies. -/
theorem getUserInfo_ok (env : PeerEnv P) (username : UserName) (db : PeerDb P)
    (info : UserInfo P) :
    (getUserInfo env username db).2 = .ok info ↔
      ∃ descriptor chains mediumPks, db.Listed env username descriptor chains mediumPks ∧
        (validChains env.client.clock descriptor.rootCertHash chains).entries.isEmpty = false ∧
        info = ⟨username, descriptor.serverName,
          validChains env.client.clock descriptor.rootCertHash chains, mediumPks⟩ := by
  rw [getUserInfo]
  rcases ClientDb.getUserDescriptor_cases env.client username db.client with
    ⟨err, looked, failed⟩ | ⟨descriptor, cache, looked, works, known⟩
  · simp only [looked, reduceCtorEq, false_iff]
    rintro ⟨descriptor, _, _, listed, _⟩
    rcases failed with fails | unknown
    · rw [listed.works] at fails
      cases fails
    · rw [listed.known] at unknown
      cases unknown
  · rw [looked]
    refine (peerInfo_ok env username descriptor _ info).trans ?_
    constructor
    · rintro ⟨chains, mediumPks, maps, valid⟩
      exact ⟨descriptor, chains, mediumPks, ⟨works, known, maps⟩, valid⟩
    · rintro ⟨other, chains, mediumPks, listed, valid⟩
      have same := listed.known.symm.trans known
      cases same
      exact ⟨chains, mediumPks, listed.maps, valid⟩

/-- The same is cached of a user. -/
structure SameCached (clock : Timestamp) (username : UserName) (db next : PeerDb P) : Prop where
  descriptor : next.client.freshDescriptor clock username =
    db.client.freshDescriptor clock username
  chains : next.deviceCertsCache.lookup username = db.deviceCertsCache.lookup username
  mediumPks : next.mediumPksCache.lookup username = db.mediumPksCache.lookup username
  fetchedAt : next.userInfoCache.lookup username = db.userInfoCache.lookup username

theorem SameCached.refl (clock : Timestamp) (username : UserName) (db : PeerDb P) :
    SameCached clock username db db := ⟨rfl, rfl, rfl, rfl⟩

theorem SameCached.trans {clock : Timestamp} {username : UserName} {first second third : PeerDb P}
    (before : SameCached clock username first second)
    (after : SameCached clock username second third) : SameCached clock username first third where
  descriptor := after.descriptor.trans before.descriptor
  chains := after.chains.trans before.chains
  mediumPks := after.mediumPks.trans before.mediumPks
  fetchedAt := after.fetchedAt.trans before.fetchedAt

theorem SameCached.listed {env : PeerEnv P} {username : UserName} {db next : PeerDb P}
    (same : SameCached env.client.clock username db next) {descriptor : UserDescriptor P}
    {chains : ChainMap P} {mediumPks : MediumPkMap P} :
    next.Listed env username descriptor chains mediumPks ↔
      db.Listed env username descriptor chains mediumPks := by
  have works : next.client.lookupFails env.client username =
      db.client.lookupFails env.client username := by
    rw [ClientDb.lookupFails, ClientDb.lookupFails, same.descriptor]
  have known : next.client.descriptorFor env.client username =
      db.client.descriptorFor env.client username := by
    rw [ClientDb.descriptorFor, ClientDb.descriptorFor, same.descriptor]
  have maps : next.mapsFor env username descriptor = db.mapsFor env username descriptor := by
    simp only [mapsFor, shouldRefresh, cachedDeviceChains, cachedMediumPks, same.chains,
      same.mediumPks, same.fetchedAt]
    rfl
  constructor
  · rintro ⟨first, second, third⟩
    exact ⟨works ▸ first, known ▸ second, maps ▸ third⟩
  · rintro ⟨first, second, third⟩
    exact ⟨works.symm ▸ first, known.symm ▸ second, maps.symm ▸ third⟩

/-- A lookup leaves the descriptors of other users in the cache. -/
theorem freshDescriptor_getUserDescriptor (env : ClientEnv P) {username other : UserName}
    (apart : other ≠ username) (db : ClientDb P) :
    (db.getUserDescriptor env username).1.freshDescriptor env.clock other =
      db.freshDescriptor env.clock other := by
  rw [ClientDb.getUserDescriptor]
  split
  · rfl
  · split
    · rfl
    · split
      · rfl
      · split
        · rfl
        · split
          · rfl
          · simp only [ClientDb.freshDescriptor, Table.lookup_insert_eq, if_neg apart]

/-- A lookup leaves what is cached of other users. -/
theorem sameCached_peerInfo (env : PeerEnv P) {username other : UserName}
    (apart : other ≠ username) (descriptor : UserDescriptor P) (db : PeerDb P) :
    SameCached env.client.clock other db (db.peerInfo env username descriptor).1 := by
  have refreshed : SameCached env.client.clock other db (db.refresh env username).1 := by
    rw [refresh]
    split
    · split
      · exact .refl _ _ _
      · exact .refl _ _ _
      · exact .refl _ _ _
      · dsimp only
        split
        · exact .refl _ _ _
        · constructor <;>
            simp only [storeCachedUserInfo, Table.lookup_insert_eq, if_neg apart]
    · exact .refl _ _ _
  rw [peerInfo]
  split
  · exact .refl _ _ _
  · split
    · exact .refl _ _ _
    · split <;> rename_i outcome
      · rwa [outcome] at refreshed
      · rw [outcome] at refreshed
        dsimp only
        split <;> exact refreshed

/-- A lookup of a user leaves what is cached of the others. -/
theorem sameCached_getUserInfo (env : PeerEnv P) {username other : UserName}
    (apart : other ≠ username) (db : PeerDb P) :
    SameCached env.client.clock other db (getUserInfo env username db).1 := by
  have descriptors := freshDescriptor_getUserDescriptor env.client apart db.client
  rw [getUserInfo]
  split <;> rename_i looked
  · rw [looked] at descriptors
    exact ⟨descriptors, rfl, rfl, rfl⟩
  · rw [looked] at descriptors
    have first : SameCached env.client.clock other db { db with client := _ } :=
      ⟨descriptors, rfl, rfl, rfl⟩
    exact first.trans (sameCached_peerInfo env apart _ _)

end PeerDb
end Nullspace
