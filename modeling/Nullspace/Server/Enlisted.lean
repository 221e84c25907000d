import Nullspace.Server.DeviceTokens
import Nullspace.Server.Provenance

/-!
# Devices which a server vouches for

A server lists a device once it has accepted the device's chain for a user, and serves a
medium-term key of it once it got one with the device's signature. Whoever calls the server
later, the device keeps its token and goes on having a row in both tables; only that the row of
its chain becomes another user's when the device's key is accepted for that user.
-/

namespace Nullspace

open Nullspace.Base

variable {P : Primitives}

namespace ServerDb

variable {config : ServerConfig} {env : CallEnv P} {db : ServerDb P}

/-- A stored token exists. -/
theorem authTokenExists_of_lookup {owner : UserName × P.Hash} {token : AuthToken}
    (stored : db.deviceAuthTokens.lookup owner = some token) : db.authTokenExists token = true := by
  rw [authTokenExists, tokenOwner?, Option.isSome_map, List.find?_isSome]
  exact ⟨_, Table.mem_rows.mpr stored, decide_eq_true rfl⟩

/-- No two devices share a token. -/
def OwnTokens (db : ServerDb P) : Prop :=
  ∀ owner other token, db.deviceAuthTokens.lookup owner = some token →
    db.deviceAuthTokens.lookup other = some token → owner = other

/-- With a token to each device, the owner of a token is found. -/
theorem OwnTokens.tokenOwner (own : db.OwnTokens) {owner : UserName × P.Hash} {token : AuthToken}
    (stored : db.deviceAuthTokens.lookup owner = some token) :
    db.tokenOwner? token = some owner := by
  obtain ⟨found, owned⟩ := Option.isSome_iff_exists.mp (authTokenExists_of_lookup stored)
  rw [owned, own found owner token (lookup_of_tokenOwner owned) stored]

/-- The tokens after an accepted `device_auth` which drew an unused one. -/
theorem lookup_deviceAuth {username : UserName} {cert : CertificateChain P} {next : ServerDb P}
    {token : AuthToken} (unused : db.authTokenExists env.freshToken = false)
    (accepted : db.deviceAuth config env username cert = (next, .ok token))
    (owner : UserName × P.Hash) :
    next.deviceAuthTokens.lookup owner =
      if owner = (username, deviceHash cert) then some token
      else db.deviceAuthTokens.lookup owner := by
  rcases deviceAuth_accepted accepted with ⟨known, tokens, _⟩ | ⟨_, rfl, tokens, _⟩
  · rw [tokens]
    split
    · rename_i same
      rw [same, known]
    · rfl
  · have kept : ∀ row, db.deviceAuthTokens.lookup owner = some row →
        decide (row ≠ env.freshToken) = true := by
      intro row found
      refine decide_eq_true ?_
      rintro rfl
      rw [authTokenExists_of_lookup found] at unused
      cases unused
    rw [tokens, insertAuthToken, Table.lookup_insert_eq, Table.lookup_keep kept]

/-- No call gives a token of one device to another. -/
theorem ownTokens_handle (unused : db.authTokenExists env.freshToken = false)
    (request : ServerRequest P) (own : db.OwnTokens) :
    (db.handle config env request).1.OwnTokens := by
  by_cases authenticates : ∃ username cert, request = .deviceAuth username cert
  · obtain ⟨username, cert, rfl⟩ := authenticates
    rcases deviceAuth_cases config env username cert db with
      ⟨err, refused, _⟩ | ⟨next, token, accepted, _, handed⟩
    · simp only [handle, refused]
      exact own
    · simp only [handle, accepted]
      have others : ∀ owner, db.deviceAuthTokens.lookup owner = some token →
          owner = (username, deviceHash cert) := by
        intro owner found
        rcases handed with ⟨known, _⟩ | ⟨rfl, _⟩
        · exact own owner _ token found known
        · rw [authTokenExists_of_lookup found] at unused
          cases unused
      intro first second shared
      rw [lookup_deviceAuth unused accepted, lookup_deviceAuth unused accepted]
      split <;> split <;> rename_i firstOwner secondOwner
      · exact fun _ _ => firstOwner.trans secondOwner.symm
      · rintro ⟨⟩ found
        exact absurd (others second found) secondOwner
      · rintro found ⟨⟩
        exact absurd (others first found) firstOwner
      · exact own first second shared
  · have tokens := handle_tokens config env db fun username cert same =>
      authenticates ⟨username, cert, same⟩
    rw [OwnTokens, tokens]
    exact own

/-- What the server has of a device, it keeps. -/
structure KeepsDevices (db next : ServerDb P) : Prop where
  tokens : ∀ owner token, db.deviceAuthTokens.lookup owner = some token →
    next.deviceAuthTokens.lookup owner = some token
  certificates : ∀ hash, hash ∈ db.deviceCertificates → hash ∈ next.deviceCertificates
  mediumPks : ∀ hash, hash ∈ db.deviceMediumPks → hash ∈ next.deviceMediumPks

theorem KeepsDevices.of_same {next : ServerDb P}
    (tokens : next.deviceAuthTokens = db.deviceAuthTokens)
    (certificates : next.deviceCertificates = db.deviceCertificates)
    (mediumPks : next.deviceMediumPks = db.deviceMediumPks) : db.KeepsDevices next where
  tokens _ _ found := tokens ▸ found
  certificates _ listed := certificates ▸ listed
  mediumPks _ listed := mediumPks ▸ listed

/-- A device which authenticates changes nothing about the others. -/
theorem keepsDevices_deviceAuth (unused : db.authTokenExists env.freshToken = false)
    (username : UserName) (cert : CertificateChain P) :
    db.KeepsDevices (db.deviceAuth config env username cert).1 := by
  rcases deviceAuth_cases config env username cert db with
    ⟨err, refused, _⟩ | ⟨next, token, accepted, _, handed⟩
  · rw [refused]
    exact .of_same rfl rfl rfl
  · obtain ⟨certificates, mediumPks, _⟩ := deviceAuth_tables (congrArg Prod.snd accepted)
    rw [accepted] at certificates mediumPks ⊢
    refine ⟨?_, ?_, fun hash listed => mediumPks ▸ listed⟩
    · intro owner stored found
      rw [lookup_deviceAuth unused accepted]
      split
      · rename_i same
        rw [same] at found
        rcases handed with ⟨known, _⟩ | ⟨rfl, inserted⟩
        · exact known.symm.trans found
        · rcases deviceAuth_accepted accepted with ⟨known, _⟩ | ⟨absent, _⟩
          · exact known.symm.trans found
          · rw [absent] at found
            cases found
      · exact found
    · intro hash listed
      rw [certificates]
      exact (AList.mem_insert _).mpr (.inr listed)

/-- No call removes what the server has of a device. -/
theorem keepsDevices_handle (unused : db.authTokenExists env.freshToken = false)
    (request : ServerRequest P) : db.KeepsDevices (db.handle config env request).1 := by
  cases request with
  | deviceAuth username cert => exact keepsDevices_deviceAuth unused username cert
  | deviceAddMediumPk auth mediumPk =>
      rcases deviceAddMediumPk_signed env auth mediumPk db with same | ⟨chain, _, stored⟩
      · simp only [handle, same]
        exact .of_same rfl rfl rfl
      · simp only [handle, stored]
        exact ⟨fun _ _ => id, fun _ => id,
          fun hash listed => (AList.mem_insert _).mpr (.inr listed)⟩
  | profileSet username profile =>
      rcases profileSet_cases env username profile db with same | ⟨_, _, _, stored⟩
      · simp only [handle, same]
        exact .of_same rfl rfl rfl
      · simp only [handle, stored]
        exact .of_same rfl rfl rfl
  | mailboxSend auth mailbox message ttl =>
      rcases mailboxSend_cases env.now env.dbFails auth mailbox message ttl db with
        ⟨err, refused⟩ | ⟨next, sent, inserted⟩
      · simp only [handle, refused]
        exact .of_same rfl rfl rfl
      · obtain ⟨_, _, rfl⟩ := insertEntry_eq_some.mp inserted
        simp only [handle, sent]
        exact .of_same rfl rfl rfl
  | uploadFrag auth frag ttl =>
      rcases uploadFrag_cases env auth frag ttl db with same | ⟨_, stored⟩
      · simp only [handle, same]
        exact .of_same rfl rfl rfl
      · simp only [handle, stored]
        exact .of_same rfl rfl rfl
  | mailboxMultirecv args timeoutMs =>
      have calm := calm_mailboxMultirecv env args db
      exact .of_same calm.tokens calm.certificates calm.mediumPks
  | mailboxAclEdit auth mailbox arg =>
      have calm := calm_mailboxAclEdit env auth mailbox arg db
      exact .of_same calm.tokens calm.certificates calm.mediumPks
  | registerGroup auth group =>
      have calm := calm_registerGroup env auth group db
      exact .of_same calm.tokens calm.certificates calm.mediumPks
  | _ => exact .of_same rfl rfl rfl

/-- A medium-term key is accepted from the token's device, which is listed for the token's user
and has signed the key. -/
theorem deviceAddMediumPk_accepted {auth : AuthToken} {mediumPk : SignedMediumPk P}
    (accepted : (db.deviceAddMediumPk env auth mediumPk).2 = .ok ()) :
    ∃ username row, db.tokenOwner? auth = some (username, deviceHash row.certChain) ∧
      db.deviceCertificates.lookup (deviceHash row.certChain) = some row ∧
      row.username = username ∧ Signable.verify mediumPk row.certChain.lastDevice.pk = true ∧
      (db.deviceAddMediumPk env auth mediumPk).1.deviceMediumPks =
        db.deviceMediumPks.insert (deviceHash row.certChain) mediumPk := by
  rw [deviceAddMediumPk] at accepted ⊢
  split at accepted
  · cases accepted
  · rename_i works
    rw [if_neg works]
    split at accepted
    · cases accepted
    · rename_i username hash owned
      split at accepted
      · cases accepted
      · rename_i row found
        split at accepted
        · cases accepted
        · rename_i own
          split at accepted
          · cases accepted
          · rename_i filed
            split at accepted
            · cases accepted
            · rename_i signed
              split at accepted
              · cases accepted
              · rename_i fits
                rw [not_not] at own filed
                subst filed
                refine ⟨username, row, owned, found, own, by simpa using signed, ?_⟩
                simp only [if_neg (not_not_intro own), if_neg signed, if_neg fits, ne_eq,
                  not_true_eq_false, if_false]

end ServerDb

namespace ServedRun

/-- The server after one call more. -/
def take (config : ServerConfig) (run : ServedRun P) (env : CallEnv P)
    (request : ServerRequest P) : ServedRun P :=
  ⟨(run.db.handle config env request).1, run.history ++ [(env, request)]⟩

/-- One call more leaves each row with its source. -/
theorem Sourced.take {config : ServerConfig} {run : ServedRun P} (sourced : run.Sourced config)
    (env : CallEnv P) (request : ServerRequest P) :
    (run.take config env request).Sourced config :=
  sourced.step (show (machine config).step run (env, request) = some _ from rfl)

/-- The server has accepted the chain for the user and given the device the token. -/
structure Admitted (config : ServerConfig) (run : ServedRun P) (username : UserName)
    (chain : CertificateChain P) (auth : AuthToken) : Prop where
  authenticated : CallHistory.Authenticated config run.history username chain
  token : run.db.deviceAuthTokens.lookup (username, ServerDb.deviceHash chain) = some auth
  certified : ServerDb.deviceHash chain ∈ run.db.deviceCertificates

/-- The chain is that of the device with the secret, and the server has a chain and a
medium-term key of this device. -/
structure Enlisted (config : ServerConfig) (run : ServedRun P) (username : UserName)
    (chain : CertificateChain P) (secret : P.SigningSecret) : Prop where
  holder : chain.lastDevice.pk = P.publicKey secret
  authenticated : CallHistory.Authenticated config run.history username chain
  token : (username, ServerDb.deviceHash chain) ∈ run.db.deviceAuthTokens
  certified : ServerDb.deviceHash chain ∈ run.db.deviceCertificates
  keyed : ServerDb.deviceHash chain ∈ run.db.deviceMediumPks

variable {config : ServerConfig} {run : ServedRun P} {username : UserName}
  {chain : CertificateChain P} {auth : AuthToken} {secret : P.SigningSecret} {env : CallEnv P}

/-- An admitted device stays admitted. -/
theorem Admitted.take (admitted : run.Admitted config username chain auth)
    (unused : run.db.authTokenExists env.freshToken = false) (request : ServerRequest P) :
    (run.take config env request).Admitted config username chain auth :=
  have keeps : run.db.KeepsDevices (run.db.handle config env request).1 :=
    ServerDb.keepsDevices_handle unused request
  ⟨authenticated_append (env, request) admitted.authenticated,
    keeps.tokens _ _ admitted.token, keeps.certificates _ admitted.certified⟩

/-- An enlisted device stays enlisted. -/
theorem Enlisted.take (enlisted : run.Enlisted config username chain secret)
    (unused : run.db.authTokenExists env.freshToken = false) (request : ServerRequest P) :
    (run.take config env request).Enlisted config username chain secret := by
  have keeps : run.db.KeepsDevices (run.db.handle config env request).1 :=
    ServerDb.keepsDevices_handle unused request
  obtain ⟨token, stored⟩ := Option.isSome_iff_exists.mp (AList.lookup_isSome.mpr enlisted.token)
  exact ⟨enlisted.holder, authenticated_append (env, request) enlisted.authenticated,
    AList.lookup_isSome.mp (by rw [ServedRun.take, keeps.tokens _ _ stored]; rfl),
    keeps.certificates _ enlisted.certified, keeps.mediumPks _ enlisted.keyed⟩

/-- An accepted `device_auth` admits the device. -/
theorem admitted_deviceAuth (unused : run.db.authTokenExists env.freshToken = false)
    (accepted : (run.db.deviceAuth config env username chain).2 = .ok auth) :
    (run.take config env (.deviceAuth username chain)).Admitted config username chain auth := by
  rcases ServerDb.deviceAuth_cases config env username chain run.db with
    ⟨err, refused, _⟩ | ⟨next, token, outcome, accepts, _⟩
  · rw [refused] at accepted
    cases accepted
  · rw [outcome] at accepted
    cases accepted
    have certificates := (ServerDb.deviceAuth_tables (congrArg Prod.snd outcome)).1
    rw [outcome] at certificates
    simp only [ServedRun.take, ServerDb.handle, outcome]
    refine ⟨⟨env, List.mem_append_right _ (List.mem_singleton_self _), accepts⟩, ?_, ?_⟩
    · rw [ServerDb.lookup_deviceAuth unused outcome, if_pos rfl]
    · rw [certificates]
      exact (AList.mem_insert _).mpr (.inl rfl)

/-- When a medium-term key is accepted with the token of a device, the secret which has signed
the key is that of the device's chain. -/
theorem Admitted.enlisted (free : P.CollisionFree)
    (admitted : run.Admitted config username chain auth) (own : run.db.OwnTokens)
    (unused : run.db.authTokenExists env.freshToken = false) {mediumPk : SignedMediumPk P}
    (made : ∀ key, Signable.verify mediumPk key = true → key = P.publicKey secret)
    (accepted : (run.db.deviceAddMediumPk env auth mediumPk).2 = .ok ()) :
    (run.take config env (.deviceAddMediumPk auth mediumPk)).Enlisted config username chain
      secret := by
  have after : (run.take config env (.deviceAddMediumPk auth mediumPk)).Admitted config username
      chain auth := admitted.take unused _
  obtain ⟨other, row, owned, _, _, signed, stored⟩ :=
    ServerDb.deviceAddMediumPk_accepted accepted
  have device := owned.symm.trans (own.tokenOwner admitted.token)
  obtain ⟨rfl, same⟩ := Prod.mk.inj (Option.some.inj device)
  have key : row.certChain.lastDevice.pk = chain.lastDevice.pk := free.bcsHash_inj.mp same
  have holder : row.certChain.lastDevice.pk = P.publicKey secret := made _ signed
  refine ⟨key.symm.trans holder, after.authenticated,
    AList.lookup_isSome.mp (Option.isSome_iff_exists.mpr ⟨_, after.token⟩), after.certified, ?_⟩
  simp only [ServedRun.take, ServerDb.handle, stored, same]
  exact (AList.mem_insert _).mpr (.inl rfl)

/-- Unless the device's key was accepted for another user, the device is in the list. -/
theorem Enlisted.listed (sourced : run.Sourced config)
    (enlisted : run.Enlisted config username chain secret)
    (unclaimed : ∀ other cert, CallHistory.Authenticated config run.history other cert →
      cert.lastDevice.pk = P.publicKey secret → other = username)
    (free : P.CollisionFree) :
    ∃ cert, (ServerDb.deviceHash chain, cert) ∈ run.db.certificatesOf username ∧
      cert.lastDevice.pk = P.publicKey secret := by
  obtain ⟨row, found⟩ := Option.isSome_iff_exists.mp (AList.lookup_isSome.mpr enlisted.certified)
  obtain ⟨same, authenticated⟩ := sourced.certificates _ row found
  have key : row.certChain.lastDevice.pk = P.publicKey secret :=
    (free.bcsHash_inj.mp same.symm).trans enlisted.holder
  obtain rfl := unclaimed row.username row.certChain authenticated key
  exact ⟨row.certChain, ServerDb.mem_certificatesOf.mpr found, key⟩

end ServedRun
end Nullspace
