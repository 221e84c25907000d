import Nullspace.Server.AclEdit

/-!
# What a user's authentication does to the other users

A device's certificate chain is stored under the hash of its key alone, its token and its
user beside it. Nothing keeps a user from naming another user's device key as its root key
in the directory, and chains are public. `leavesOthers_iff` says when an accepted
`device_auth` leaves all other users as they were.
-/

namespace Nullspace

open Nullspace.Base

variable {P : Primitives}

namespace ServerDb

/-- What the server says about a user, and to the user's devices, is the same. -/
structure SameFor (other : UserName) (before after : ServerDb P) : Prop where
  devices : ∀ env, after.deviceList env other = before.deviceList env other
  mediumPks : ∀ env, after.deviceMediumPksOf env other = before.deviceMediumPksOf env other
  profile : ∀ env, after.profileGet env other = before.profileGet env other
  tokens : ∀ device, after.deviceAuthTokens.lookup (other, device) =
    before.deviceAuthTokens.lookup (other, device)
  accepts : ∀ env auth device mediumPk, before.tokenOwner? auth = some (other, device) →
    (after.deviceAddMediumPk env auth mediumPk).2 = (before.deviceAddMediumPk env auth mediumPk).2

/-- The call leaves every user but its own as it was. -/
def LeavesOthers (config : ServerConfig) (env : CallEnv P) (username : UserName)
    (cert : CertificateChain P) (db : ServerDb P) : Prop :=
  ∀ other, other ≠ username → SameFor other db (db.deviceAuth config env username cert).1

/-- The access rows of a direct mailbox leave the other tables as they are. -/
theorem updateDmMailbox_frame {db next : ServerDb P} {now : NanoTimestamp} {username : UserName}
    {newToken : Option AuthToken} (updated : db.updateDmMailbox now username newToken = some next) :
    next = { db with mailboxes := next.mailboxes, mailboxAcl := next.mailboxAcl } := by
  simp only [updateDmMailbox] at updated
  split at updated
  · cases updated
  · rename_i middle inserted
    obtain ⟨_, rfl⟩ := insertAcl_eq_some.mp inserted
    split at updated
    · cases updated
      rfl
    · obtain ⟨_, rfl⟩ := insertAcl_eq_some.mp updated
      rfl

/-- What an accepted `device_auth` writes to the tables about devices. -/
theorem deviceAuth_tables {config : ServerConfig} {env : CallEnv P} {username : UserName}
    {cert : CertificateChain P} {db : ServerDb P} {token : AuthToken}
    (accepted : (db.deviceAuth config env username cert).2 = .ok token) :
    (db.deviceAuth config env username cert).1.deviceCertificates =
        db.deviceCertificates.insert (deviceHash cert) ⟨username, cert⟩ ∧
      (db.deviceAuth config env username cert).1.deviceMediumPks = db.deviceMediumPks ∧
      (db.deviceAuth config env username cert).1.userProfiles = db.userProfiles ∧
      ((db.deviceAuth config env username cert).1.deviceAuthTokens = db.deviceAuthTokens ∧
          db.deviceAuthTokens.lookup (username, deviceHash cert) ≠ none ∨
        db.deviceAuthTokens.lookup (username, deviceHash cert) = none ∧
        (db.deviceAuth config env username cert).1.deviceAuthTokens =
          (db.insertAuthToken username (deviceHash cert) env.freshToken).deviceAuthTokens) := by
  simp only [deviceAuth] at accepted ⊢
  split at accepted
  · cases accepted
  · split at accepted
    · cases accepted
    · rename_i works
      rw [if_neg works]
      split at accepted
      · rename_i known
        split at accepted
        · cases accepted
        · rename_i updated
          rw [updateDmMailbox_frame updated]
          exact ⟨rfl, rfl, rfl, Or.inl ⟨rfl, by simp [known]⟩⟩
      · rename_i absent
        split at accepted
        · cases accepted
        · rename_i updated
          rw [updateDmMailbox_frame updated]
          exact ⟨rfl, rfl, rfl, Or.inr ⟨absent, rfl⟩⟩

/-- A refused `device_auth` writes nothing. -/
theorem deviceAuth_refused {config : ServerConfig} {env : CallEnv P} {username : UserName}
    {cert : CertificateChain P} {db : ServerDb P} {err : ServerRpcError}
    (refused : (db.deviceAuth config env username cert).2 = .error err) :
    (db.deviceAuth config env username cert).1 = db := by
  simp only [deviceAuth] at refused ⊢
  split at refused
  · rfl
  · split at refused
    · rename_i fails
      rw [if_pos fails]
    · rename_i works
      rw [if_neg works]
      split at refused
      · split at refused
        · rfl
        · cases refused
      · split at refused
        · rfl
        · cases refused

/-- The chains of a user, when a row of another user takes the place of another's. -/
theorem certificatesOf_insert {db next : ServerDb P} {hash : P.Hash} {row : CertificateRow P}
    {other : UserName} (inserted : next.deviceCertificates = db.deviceCertificates.insert hash row)
    (foreign : row.username ≠ other)
    (apart : ∀ earlier, db.deviceCertificates.lookup hash = some earlier → earlier.username ≠ other) :
    next.certificatesOf other = db.certificatesOf other := by
  rw [certificatesOf, certificatesOf, inserted]
  apply Table.filterMap_rows_insert
  · exact if_neg foreign
  · intro earlier found
    exact if_neg (apart earlier found)

/-- The token is in use by another user's device. -/
def TakenToken (db : ServerDb P) (username : UserName) (token : AuthToken) : Prop :=
  ∃ other device, other ≠ username ∧ db.deviceAuthTokens.lookup (other, device) = some token

/-- A new token takes the place of its like, wherever that was. -/
theorem lookup_insertAuthToken (db : ServerDb P) {username other : UserName}
    (apart : other ≠ username) (device hash : P.Hash) (token : AuthToken) :
    (db.insertAuthToken username device token).deviceAuthTokens.lookup (other, hash) =
        db.deviceAuthTokens.lookup (other, hash) ↔
      db.deviceAuthTokens.lookup (other, hash) ≠ some token := by
  have different : (other, hash) ≠ (username, device) := fun same => apart (Prod.mk.inj same).1
  rw [insertAuthToken, AList.lookup_insert_ne different]
  constructor
  · intro same taken
    rw [taken, ← Table.mem_rows, Table.rows_keep, List.mem_filter] at same
    simp at same
  · intro free
    refine Table.lookup_keep ?_
    intro found listed
    refine decide_eq_true ?_
    rintro rfl
    exact free listed

/-- The owner of a token has it in the table. -/
theorem lookup_of_tokenOwner {db : ServerDb P} {auth : AuthToken} {owner : UserName × P.Hash}
    (owned : db.tokenOwner? auth = some owner) : db.deviceAuthTokens.lookup owner = some auth := by
  obtain ⟨row, found, rfl⟩ := Option.map_eq_some_iff.mp owned
  have token : row.2 = auth := by simpa using List.find?_some found
  exact Table.mem_rows.mp (token ▸ List.mem_of_find?_eq_some found)

/-- Other tokens keep their owners when a token is issued. -/
theorem tokenOwner_insertAuthToken {db : ServerDb P} {username : UserName} {device : P.Hash}
    {token auth : AuthToken} (absent : db.deviceAuthTokens.lookup (username, device) = none)
    (apart : auth ≠ token) :
    (db.insertAuthToken username device token).tokenOwner? auth = db.tokenOwner? auth := by
  have missing : (username, device) ∉ db.deviceAuthTokens.keep fun other => decide (other ≠ token) := by
    rw [← AList.lookup_eq_none, Table.lookup_keep]
    · exact absent
    · intro row found
      rw [absent] at found
      cases found
  rw [tokenOwner?, insertAuthToken, Table.rows_insert missing,
    List.find?_cons_of_neg (by simpa using apart.symm), Table.rows_keep, List.find?_filter,
    tokenOwner?]
  congr 2
  funext row
  by_cases same : row.2 = auth
  · simp [same, apart]
  · simp [same]

/-- Equal device lists are lists of equal chains. -/
theorem certificatesOf_of_deviceList {before after : ServerDb P} {env : CallEnv P}
    {username : UserName} (works : env.dbFails = false)
    (same : after.deviceList env username = before.deviceList env username) :
    after.certificatesOf username = before.certificatesOf username := by
  simp only [deviceList, works, Bool.false_eq_true, if_false] at same
  split at same <;> split at same <;> simp_all

/-- A user's chains are those stored for the user. -/
theorem mem_certificatesOf {db : ServerDb P} {username : UserName} {hash : P.Hash}
    {chain : CertificateChain P} :
    (hash, chain) ∈ db.certificatesOf username ↔
      db.deviceCertificates.lookup hash = some ⟨username, chain⟩ := by
  rw [certificatesOf, List.mem_filterMap]
  constructor
  · rintro ⟨⟨key, row⟩, listed, read⟩
    simp only [Option.ite_none_right_eq_some, Option.some.injEq, Prod.mk.injEq] at read
    obtain ⟨rfl, rfl, rfl⟩ := read
    exact Table.mem_rows.mp listed
  · intro found
    exact ⟨_, Table.mem_rows.mpr found, if_pos rfl⟩

/-- The keys of a user are those of the devices for which it has tokens. -/
theorem deviceMediumPksOf_congr {before after : ServerDb P} {other : UserName}
    (keys : after.deviceMediumPks = before.deviceMediumPks)
    (tokens : ∀ device, after.deviceAuthTokens.lookup (other, device) =
      before.deviceAuthTokens.lookup (other, device)) (env : CallEnv P) :
    after.deviceMediumPksOf env other = before.deviceMediumPksOf env other := by
  have listed : ∀ device, decide ((other, device) ∈ after.deviceAuthTokens) =
      decide ((other, device) ∈ before.deviceAuthTokens) := by
    intro device
    rw [decide_eq_decide, ← AList.lookup_isSome, ← AList.lookup_isSome, tokens]
  simp only [deviceMediumPksOf, keys, listed]

/-- A call for a device whose row stays, or stays another user's, has the same answer. -/
theorem deviceAddMediumPk_congr {before after : ServerDb P} {auth : AuthToken} {other : UserName}
    {device : P.Hash} (ownedBefore : before.tokenOwner? auth = some (other, device))
    (ownedAfter : after.tokenOwner? auth = some (other, device))
    (row : after.deviceCertificates.lookup device = before.deviceCertificates.lookup device ∨
      (∀ earlier, before.deviceCertificates.lookup device = some earlier →
        earlier.username ≠ other) ∧
      ∀ later, after.deviceCertificates.lookup device = some later → later.username ≠ other)
    (env : CallEnv P) (mediumPk : SignedMediumPk P) :
    (after.deviceAddMediumPk env auth mediumPk).2 =
      (before.deviceAddMediumPk env auth mediumPk).2 := by
  have denied : ∀ {db : ServerDb P}, db.tokenOwner? auth = some (other, device) →
      (∀ found, db.deviceCertificates.lookup device = some found → found.username ≠ other) →
        (db.deviceAddMediumPk env auth mediumPk).2 =
          if env.dbFails then .error .retryLater else .error .accessDenied := by
    intro db owned foreign
    rw [deviceAddMediumPk, owned]
    split
    · rfl
    · dsimp only
      cases found : db.deviceCertificates.lookup device with
      | none => rfl
      | some certificate =>
          dsimp only
          rw [if_pos (foreign certificate found)]
  rcases row with same | ⟨foreignBefore, foreignAfter⟩
  · simp only [deviceAddMediumPk, ownedBefore, ownedAfter, same]
    repeat' split
    all_goals rfl
  · rw [denied ownedAfter foreignAfter, denied ownedBefore foreignBefore]

/-- What an accepted `device_auth` finds when it leaves the others alone: the device's row,
if there is one, is of the same user, and no other user has the token which it draws, if it
draws one. -/
def Unshared (env : CallEnv P) (username : UserName) (cert : CertificateChain P)
    (db : ServerDb P) : Prop :=
  (∀ row, db.deviceCertificates.lookup (deviceHash cert) = some row → row.username = username) ∧
    (db.deviceAuthTokens.lookup (username, deviceHash cert) = none →
      ¬db.TakenToken username env.freshToken)

/-- The tokens of the other users stay. -/
theorem Unshared.tokens {config : ServerConfig} {env : CallEnv P} {username other : UserName}
    {cert : CertificateChain P} {db : ServerDb P} {token : AuthToken}
    (unshared : Unshared env username cert db) (apart : other ≠ username)
    (accepted : (db.deviceAuth config env username cert).2 = .ok token) (device : P.Hash) :
    (db.deviceAuth config env username cert).1.deviceAuthTokens.lookup (other, device) =
      db.deviceAuthTokens.lookup (other, device) := by
  rcases (deviceAuth_tables accepted).2.2.2 with ⟨same, _⟩ | ⟨absent, issued⟩
  · rw [same]
  · rw [issued, lookup_insertAuthToken db apart]
    exact fun taken => unshared.2 absent ⟨other, device, apart, taken⟩

/-- And still stand for them. -/
theorem Unshared.tokenOwner {config : ServerConfig} {env : CallEnv P} {username other : UserName}
    {cert : CertificateChain P} {db : ServerDb P} {token : AuthToken}
    (unshared : Unshared env username cert db) (apart : other ≠ username)
    (accepted : (db.deviceAuth config env username cert).2 = .ok token) {auth : AuthToken}
    {device : P.Hash} (owned : db.tokenOwner? auth = some (other, device)) :
    (db.deviceAuth config env username cert).1.tokenOwner? auth = some (other, device) := by
  rcases (deviceAuth_tables accepted).2.2.2 with ⟨same, _⟩ | ⟨absent, issued⟩
  · rw [tokenOwner?, same]
    exact owned
  · rw [tokenOwner?, issued]
    refine (tokenOwner_insertAuthToken absent ?_).trans owned
    rintro rfl
    exact unshared.2 absent ⟨other, device, apart, lookup_of_tokenOwner owned⟩

/-- An accepted `device_auth` leaves every other user as it was exactly when the device is
nobody else's. -/
theorem leavesOthers_iff {config : ServerConfig} {env : CallEnv P} {username : UserName}
    {cert : CertificateChain P} {db : ServerDb P} {token : AuthToken}
    (accepted : (db.deviceAuth config env username cert).2 = .ok token) :
    LeavesOthers config env username cert db ↔ Unshared env username cert db := by
  obtain ⟨certificates, mediumPks, profiles, tokens⟩ := deviceAuth_tables accepted
  constructor
  · intro leaves
    constructor
    · intro row found
      by_contra foreign
      have same := certificatesOf_of_deviceList rfl
        ((leaves row.username foreign).devices { env with dbFails := false })
      have lost : (deviceHash cert, row.certChain) ∈ db.certificatesOf row.username :=
        mem_certificatesOf.mpr found
      rw [← same, mem_certificatesOf, certificates, AList.lookup_insert] at lost
      exact foreign (congrArg CertificateRow.username (Option.some.inj lost)).symm
    · rintro absent ⟨other, hash, apart, taken⟩
      rcases tokens with ⟨_, known⟩ | ⟨_, issued⟩
      · exact known absent
      · have kept := (leaves other apart).tokens hash
        rw [issued, lookup_insertAuthToken db apart] at kept
        exact kept taken
  · intro unshared other apart
    have foreign : ∀ earlier, db.deviceCertificates.lookup (deviceHash cert) = some earlier →
        earlier.username ≠ other :=
      fun earlier found => (unshared.1 earlier found).trans_ne apart.symm
    have sameTokens := unshared.tokens apart accepted
    refine ⟨?_, deviceMediumPksOf_congr mediumPks sameTokens, ?_, sameTokens, ?_⟩
    · intro query
      rw [deviceList, deviceList, certificatesOf_insert certificates apart.symm foreign]
    · intro query
      rw [profileGet, profileGet, profiles]
    · intro query auth device mediumPk owned
      have stillOwned := unshared.tokenOwner apart accepted owned
      refine deviceAddMediumPk_congr owned stillOwned ?_ query mediumPk
      rw [certificates]
      by_cases same : device = deviceHash cert
      · subst same
        right
        refine ⟨foreign, ?_⟩
        intro later found
        rw [AList.lookup_insert] at found
        cases found
        exact apart.symm
      · left
        exact AList.lookup_insert_ne same

/-- Alice's device has authenticated. Bobby names its key as his root key in the directory and
authenticates with the chain which the server serves to everyone. -/
def borrowedEnv : CallEnv symbolic := WatchedServer.envWith (WatchedServer.tokenOf 2)

theorem leavesOthers_iff_bobby :
    LeavesOthers WatchedServer.exampleServer borrowedEnv bobby WatchedServer.aliceChain aliceDb ↔
      Unshared borrowedEnv bobby WatchedServer.aliceChain aliceDb := by
  have accepted : (aliceDb.deviceAuth WatchedServer.exampleServer borrowedEnv bobby
      WatchedServer.aliceChain).2 = .ok (WatchedServer.tokenOf 2) := by decide +kernel
  exact leavesOthers_iff accepted

/-- Bobby gets the token of Alice's device. -/
theorem borrowedDevice_breaks :
    (aliceDb.deviceAuth WatchedServer.exampleServer borrowedEnv bobby WatchedServer.aliceChain).2 =
        .ok (WatchedServer.tokenOf 2) ∧
      ¬LeavesOthers WatchedServer.exampleServer borrowedEnv bobby WatchedServer.aliceChain
        aliceDb := by
  refine ⟨by decide +kernel, ?_⟩
  intro leaves
  have same := (leaves alice (by decide)).devices borrowedEnv
  have lost : (aliceDb.deviceAuth WatchedServer.exampleServer borrowedEnv bobby
      WatchedServer.aliceChain).1.deviceList borrowedEnv alice = .ok none := by decide +kernel
  have listed : aliceDb.deviceList borrowedEnv alice =
      .ok (some [(deviceHash WatchedServer.aliceChain, WatchedServer.aliceChain)]) := by
    decide +kernel
  rw [lost, listed] at same
  cases same

end ServerDb
end Nullspace
