import Nullspace.Base.Register
import Nullspace.Client.Rekey

/-!
# The cached medium-term keys of a user

Each refresh merges the server's answer into the cache by the stamps of the keys, and
nobody has looked at a signature yet. For one device the cache is a register of the keys
which have been seen for it.

`unpoisoned_iff_outbid` says when the register holds a key which its device signed, after
answers of any kind and an honest one.
-/

namespace Nullspace

open Nullspace.Base

variable {P : Primitives}

/-- `collect_recipients` of the sending side: a user without recipients is an error. -/
def Send.collectRecipients (username : UserName) (chains : ChainMap P)
    (mediumPks : MediumPkMap P) : Except EntryError (List P.DhPublic) :=
  let recipients := Nullspace.collectRecipients chains mediumPks
  if recipients.isEmpty then
    .error (.said ("no medium-term keys available for " ++ username.str))
  else .ok recipients

/-- When a key was made, as a number. -/
def SignedMediumPk.stamp (key : SignedMediumPk P) : Nat := key.created.toNat

/-- A fetched key is merged with the cached one of its device. -/
theorem lookup_mergeMediumPk (out : MediumPkMap P) (fetched : P.Hash × SignedMediumPk P)
    (hash : P.Hash) : (mergeMediumPk out fetched).lookup hash =
      if hash = fetched.1 then newer SignedMediumPk.stamp (out.lookup hash) fetched.2
      else out.lookup hash := by
  rw [mergeMediumPk]
  by_cases same : hash = fetched.1
  · subst same
    rw [if_pos rfl]
    cases held : out.lookup fetched.1 with
    | none => exact AList.lookup_insert out
    | some existing =>
        by_cases older : fetched.2.created < existing.created
        · have before : fetched.2.stamp < existing.stamp := UInt64.lt_iff_toNat_lt.mp older
          simp only [newer, if_pos older, if_pos before, held]
        · have after : ¬fetched.2.stamp < existing.stamp := mt UInt64.lt_iff_toNat_lt.mpr older
          simp only [newer, if_neg older, if_neg after]
          exact AList.lookup_insert out
  · rw [if_neg same]
    split
    · split
      · rfl
      · exact AList.lookup_insert_ne same
    · exact AList.lookup_insert_ne same

/-- A device without a fetched key keeps its cached one. -/
theorem lookup_foldl_mergeMediumPk_of_notMem {rows : List (P.Hash × SignedMediumPk P)}
    {hash : P.Hash} (absent : hash ∉ rows.map Prod.fst) (out : MediumPkMap P) :
    (rows.foldl mergeMediumPk out).lookup hash = out.lookup hash := by
  induction rows generalizing out with
  | nil => rfl
  | cons row rows ih =>
      rw [List.map_cons, List.mem_cons, not_or] at absent
      rw [List.foldl_cons, ih absent.2, lookup_mergeMediumPk, if_neg absent.1]

/-- Each device has the newer of its two keys. -/
theorem lookup_foldl_mergeMediumPk {rows : List (P.Hash × SignedMediumPk P)}
    (nodup : (rows.map Prod.fst).Nodup) {hash : P.Hash} {key : SignedMediumPk P}
    (listed : (hash, key) ∈ rows) (out : MediumPkMap P) :
    (rows.foldl mergeMediumPk out).lookup hash =
      newer SignedMediumPk.stamp (out.lookup hash) key := by
  induction rows generalizing out with
  | nil => contradiction
  | cons row rows ih =>
      rw [List.map_cons, List.nodup_cons] at nodup
      rw [List.foldl_cons]
      rcases List.mem_cons.mp listed with rfl | later
      · rw [lookup_foldl_mergeMediumPk_of_notMem nodup.1, lookup_mergeMediumPk, if_pos rfl]
      · have differs : hash ≠ row.1 := by
          intro same
          exact nodup.1 (same ▸ List.mem_map_of_mem later)
        rw [ih nodup.2 later, lookup_mergeMediumPk, if_neg differs]

/-- For one device, merging is one more item in its register. -/
theorem lookup_mergeMonotonicMediumPks (cached fetched : MediumPkMap P) (hash : P.Hash) :
    (mergeMonotonicMediumPks cached fetched).lookup hash =
      register SignedMediumPk.stamp (cached.lookup hash) (fetched.lookup hash).toList := by
  rw [mergeMonotonicMediumPks]
  cases found : fetched.lookup hash with
  | none =>
      refine lookup_foldl_mergeMediumPk_of_notMem ?_ cached
      intro listed
      obtain ⟨⟨_, key⟩, held, rfl⟩ := List.mem_map.mp listed
      have looked := Table.mem_rows.mp held
      rw [found] at looked
      contradiction
  | some key =>
      exact lookup_foldl_mergeMediumPk fetched.rows_keys_nodup (Table.mem_rows.mpr found) cached

namespace PeerDb

/-- The answer which a lookup of the user merges into the cache. -/
def merges (env : PeerEnv P) (username : UserName) (db : PeerDb P) : Option (MediumPkMap P) :=
  match (db.client.getUserDescriptor env.client username).2 with
  | .error _ => none
  | .ok descriptor =>
      if !env.reaches descriptor.serverName then none
      else if env.loadFails then none
      else if db.shouldRefresh env.client.clock username then
        match env.deviceCerts username, env.mediumPks username with
        | .ok (some _), .ok fetched => if env.storeFails then none else some fetched
        | _, _ => none
      else none

/-- The cache after a lookup. -/
def cachedAfter (env : PeerEnv P) (username : UserName) (db : PeerDb P) : MediumPkMap P :=
  match db.merges env username with
  | some fetched => mergeMonotonicMediumPks (db.cachedMediumPks username) fetched
  | none => db.cachedMediumPks username

/-- A lookup leaves `cachedAfter`. -/
theorem cachedMediumPks_getUserInfo (env : PeerEnv P) (username : UserName) (db : PeerDb P) :
    (getUserInfo env username db).1.cachedMediumPks username = db.cachedAfter env username := by
  rw [getUserInfo, cachedAfter, merges]
  cases looked : db.client.getUserDescriptor env.client username with
  | mk client outcome =>
      cases outcome with
      | error err => rfl
      | ok descriptor =>
          have due : ({ db with client := client } : PeerDb P).shouldRefresh env.client.clock
              username = db.shouldRefresh env.client.clock username := rfl
          simp only [peerInfo, refresh, due]
          cases env.reaches descriptor.serverName with
          | false => rfl
          | true =>
              cases env.loadFails with
              | true => rfl
              | false =>
                  cases db.shouldRefresh env.client.clock username with
                  | false =>
                      simp only [Bool.not_true, Bool.false_eq_true, if_false]
                      split <;> rfl
                  | true =>
                      cases env.deviceCerts username with
                      | error err => rfl
                      | ok answer =>
                          cases answer with
                          | none => rfl
                          | some chains =>
                              cases env.mediumPks username with
                              | error err => rfl
                              | ok fetched =>
                                  cases env.storeFails with
                                  | true => rfl
                                  | false =>
                                      simp only [Bool.not_true, Bool.false_eq_true, if_false,
                                        if_true]
                                      split <;>
                                        simp [cachedMediumPks, storeCachedUserInfo]

/-- The database after some lookups. -/
def lookups (calls : List (PeerEnv P × UserName)) (db : PeerDb P) : PeerDb P :=
  calls.foldl (fun db call => (getUserInfo call.1 call.2 db).1) db

/-- The answers about the user's keys which some lookups merge. -/
def answers (username : UserName) : List (PeerEnv P × UserName) → PeerDb P → List (MediumPkMap P)
  | [], _ => []
  | (env, other) :: calls, db =>
      (if other = username then (db.merges env username).toList else []) ++
        answers username calls (getUserInfo env other db).1

/-- The keys which have been seen for a device: the cached one, and the answered ones. -/
def seen (username : UserName) (hash : P.Hash) (calls : List (PeerEnv P × UserName))
    (db : PeerDb P) : List (SignedMediumPk P) :=
  (db.cachedMediumPks username :: answers username calls db).filterMap fun keys => keys.lookup hash

/-- The answers of lookups in two parts. -/
theorem answers_append (username : UserName) (first second : List (PeerEnv P × UserName))
    (db : PeerDb P) : answers username (first ++ second) db =
      answers username first db ++ answers username second (lookups first db) := by
  induction first generalizing db with
  | nil => rfl
  | cons call calls ih =>
      rw [List.cons_append, answers, ih, answers, List.append_assoc]
      rfl

/-- What a lookup of somebody leaves cached for the device. -/
theorem lookup_cachedMediumPks_getUserInfo (env : PeerEnv P) (username other : UserName)
    (hash : P.Hash) (db : PeerDb P) :
    ((getUserInfo env other db).1.cachedMediumPks username).lookup hash =
      register SignedMediumPk.stamp ((db.cachedMediumPks username).lookup hash)
        ((if other = username then (db.merges env username).toList else []).filterMap
          fun keys => keys.lookup hash) := by
  by_cases same : other = username
  · subst same
    rw [if_pos rfl, cachedMediumPks_getUserInfo, cachedAfter]
    cases db.merges env other with
    | none => rfl
    | some fetched =>
        dsimp only
        rw [lookup_mergeMonotonicMediumPks]
        cases found : fetched.lookup hash <;> simp [found]
  · have kept := sameCached_getUserInfo env (Ne.symm same) db
    rw [if_neg same, cachedMediumPks, kept.mediumPks]
    rfl

/-- The cache is a register of the keys which were answered. -/
theorem lookup_cachedMediumPks_lookups (username : UserName) (hash : P.Hash)
    (calls : List (PeerEnv P × UserName)) (db : PeerDb P) :
    ((lookups calls db).cachedMediumPks username).lookup hash =
      register SignedMediumPk.stamp ((db.cachedMediumPks username).lookup hash)
        ((answers username calls db).filterMap fun keys => keys.lookup hash) := by
  induction calls generalizing db with
  | nil => rfl
  | cons call calls ih =>
      have step : lookups (call :: calls) db = lookups calls (getUserInfo call.1 call.2 db).1 := rfl
      rw [step, ih, lookup_cachedMediumPks_getUserInfo, answers, List.filterMap_append,
        register_append]

/-- For a device, the cache is the register of the keys which have been seen. -/
theorem lookup_cached_eq_register (username : UserName) (hash : P.Hash)
    (calls : List (PeerEnv P × UserName)) (db : PeerDb P) :
    ((lookups calls db).cachedMediumPks username).lookup hash =
      register SignedMediumPk.stamp none (seen username hash calls db) := by
  rw [lookup_cachedMediumPks_lookups, seen, ← register_toList]
  cases held : (db.cachedMediumPks username).lookup hash <;> simp [held]

/-- The descriptor of a listed user is looked up. -/
theorem Listed.looked {env : PeerEnv P} {db : PeerDb P} {username : UserName}
    {descriptor : UserDescriptor P} {chains : ChainMap P} {mediumPks : MediumPkMap P}
    (listed : db.Listed env username descriptor chains mediumPks) :
    (db.client.getUserDescriptor env.client username).2 = .ok descriptor := by
  have known := listed.known
  rcases ClientDb.getUserDescriptor_cases env.client username db.client with
    ⟨err, looked, failed⟩ | ⟨other, cache, looked, works, same⟩
  · rcases failed with fails | unknown
    · rw [listed.works] at fails
      contradiction
    · rw [known] at unknown
      contradiction
  · rw [known] at same
    cases same
    rw [looked]

/-- The keys which are listed of a user are those which the lookup leaves in the cache. -/
theorem Listed.cachedAfter {env : PeerEnv P} {db : PeerDb P} {username : UserName}
    {descriptor : UserDescriptor P} {chains : ChainMap P} {mediumPks : MediumPkMap P}
    (listed : db.Listed env username descriptor chains mediumPks) :
    mediumPks = db.cachedAfter env username := by
  have maps := listed.maps
  rw [PeerDb.cachedAfter, merges, listed.looked]
  simp only [mapsFor] at maps ⊢
  split at maps
  · contradiction
  · rename_i reached
    rw [if_neg reached]
    split at maps
    · contradiction
    · rename_i loaded
      rw [if_neg loaded]
      split at maps
      · rename_i due
        rw [if_pos due]
        cases certs : env.deviceCerts username with
        | error err =>
          simp only [certs] at maps
          contradiction
        | ok answered =>
          cases answered with
          | none =>
            simp only [certs] at maps
            contradiction
          | some certified =>
            cases pks : env.mediumPks username with
            | error err =>
              simp only [certs, pks] at maps
              contradiction
            | ok fetched =>
              simp only [certs, pks] at maps ⊢
              split at maps
              · contradiction
              · rename_i stored
                cases maps
                simp only [if_neg stored]
      · rename_i fresh
        rw [if_neg fresh]
        cases maps
        rfl

/-- The keys of a lookup are the cached ones. -/
theorem getUserInfo_mediumPks {env : PeerEnv P} {username : UserName} {db : PeerDb P}
    {info : UserInfo P} (found : (getUserInfo env username db).2 = .ok info) :
    info.mediumPks = (getUserInfo env username db).1.cachedMediumPks username := by
  obtain ⟨descriptor, chains, mediumPks, listed, _, rfl⟩ := (getUserInfo_ok _ _ _ _).mp found
  rw [cachedMediumPks_getUserInfo]
  exact listed.cachedAfter

/-- The lookup refreshes, and the answer has a key for every device with a verified chain,
signed by the device. -/
structure HonestRefresh (env : PeerEnv P) (username : UserName) (db : PeerDb P)
    (fetched : MediumPkMap P) : Prop where
  merges : db.merges env username = some fetched
  signed : ∀ info, (getUserInfo env username db).2 = .ok info → ∀ hash chain,
    info.deviceChains.lookup hash = some chain → ∃ key ∈ fetched.lookup hash,
      Signable.verify key chain.lastDevice.pk = true

/-- After the lookup the cache has for every device with a verified chain the newest key
among those seen which the device signed, and the device is among the recipients. -/
def Unpoisoned (env : PeerEnv P) (username : UserName) (calls : List (PeerEnv P × UserName))
    (start : PeerDb P) : Prop :=
  ∀ info, (getUserInfo env username (lookups calls start)).2 = .ok info → ∀ hash chain,
    info.deviceChains.lookup hash = some chain → ∃ key,
      ((lookups (calls ++ [(env, username)]) start).cachedMediumPks username).lookup hash = some key ∧
      Signable.verify key chain.lastDevice.pk = true ∧
      key ∈ seen username hash (calls ++ [(env, username)]) start ∧
      (∀ other ∈ seen username hash (calls ++ [(env, username)]) start,
        Signable.verify other chain.lastDevice.pk = true → other.created ≤ key.created) ∧
      ∃ recipients, Send.collectRecipients username info.deviceChains info.mediumPks =
        .ok recipients ∧ key.mediumPk ∈ recipients

/-- Every key which was seen for a device with a verified chain and which the device did not
sign is outbid by one which it signed: newer, or as new and seen later. -/
def BadOutbid (env : PeerEnv P) (username : UserName) (calls : List (PeerEnv P × UserName))
    (start : PeerDb P) : Prop :=
  ∀ info, (getUserInfo env username (lookups calls start)).2 = .ok info → ∀ hash chain,
    info.deviceChains.lookup hash = some chain → ∀ before bad after,
      seen username hash (calls ++ [(env, username)]) start = before ++ bad :: after →
        ¬Signable.verify bad chain.lastDevice.pk = true →
          Outbid SignedMediumPk.stamp
            (fun key => Signable.verify key chain.lastDevice.pk = true) before bad after

/-- A key of an honest answer was seen. -/
theorem mem_seen_of_honest {env : PeerEnv P} {username : UserName}
    {calls : List (PeerEnv P × UserName)} {start : PeerDb P} {fetched : MediumPkMap P}
    (merges : (lookups calls start).merges env username = some fetched) {hash : P.Hash}
    {key : SignedMediumPk P} (found : fetched.lookup hash = some key) :
    key ∈ seen username hash (calls ++ [(env, username)]) start := by
  refine List.mem_filterMap.mpr ⟨fetched, List.mem_cons_of_mem _ ?_, found⟩
  rw [answers_append, answers, if_pos rfl, merges]
  exact List.mem_append_right _ List.mem_cons_self

/-- A device whose cached key verifies is among the recipients. -/
theorem mem_send_collectRecipients {username : UserName} {chains : ChainMap P}
    {mediumPks : MediumPkMap P} {hash : P.Hash} {chain : CertificateChain P}
    {key : SignedMediumPk P} (listed : chains.lookup hash = some chain)
    (matching : P.bcsHash chain.lastDevice.pk = hash) (found : mediumPks.lookup hash = some key)
    (verified : Signable.verify key chain.lastDevice.pk = true) :
    ∃ recipients, Send.collectRecipients username chains mediumPks = .ok recipients ∧
      key.mediumPk ∈ recipients := by
  have member : key.mediumPk ∈ collectRecipients chains mediumPks :=
    mem_collectRecipients.mpr ⟨hash, chain, key, listed, matching, found, verified, rfl⟩
  refine ⟨_, ?_, member⟩
  rw [Send.collectRecipients, if_neg]
  simpa using List.ne_nil_of_mem member

/-- After answers of any kind and an honest one, the cache of a user's keys is as it should
be exactly when every badly signed key has been outbid. -/
theorem unpoisoned_iff_outbid {env : PeerEnv P} {username : UserName}
    {calls : List (PeerEnv P × UserName)} {start : PeerDb P} {fetched : MediumPkMap P}
    (honest : HonestRefresh env username (lookups calls start) fetched) :
    Unpoisoned env username calls start ↔ BadOutbid env username calls start := by
  refine forall_congr' fun info => forall_congr' fun found => forall_congr' fun hash =>
    forall_congr' fun chain => forall_congr' fun listed => ?_
  obtain ⟨key, answered, signed⟩ := honest.signed info found hash chain listed
  refine Iff.trans ?_ (register_good_iff ⟨key, mem_seen_of_honest honest.merges answered, signed⟩)
  rw [lookup_cached_eq_register]
  constructor
  · rintro ⟨winner, held, verified, _⟩
    exact ⟨winner, held, verified⟩
  · rintro ⟨winner, held, verified⟩
    obtain ⟨member, newest⟩ := register_mem held
    refine ⟨winner, held, verified, member, ?_, ?_⟩
    · intro other inside _
      exact UInt64.le_iff_toNat_le.mpr (newest other inside)
    · have matching : P.bcsHash chain.lastDevice.pk = hash := by
        obtain ⟨_, _, _, _, _, rfl⟩ := (getUserInfo_ok _ _ _ _).mp found
        exact (lookup_validChains.mp listed).2.2
      refine mem_send_collectRecipients listed matching ?_ verified
      rw [getUserInfo_mediumPks found]
      have last : lookups (calls ++ [(env, username)]) start =
          (getUserInfo env username (lookups calls start)).1 := List.foldl_append
      rw [← last, lookup_cached_eq_register]
      exact held

/-- Alice looks Bobby up, with what the server answers about his keys. -/
def bobbyEnv (clock : Timestamp) (mediumPks : MediumPkMap symbolic) : PeerEnv symbolic :=
  { sharedEnv (.ok (some (deviceChain 2))) with
    client := ⟨some aliceIdentity, 6, clock, symbolicDirectory, fun _ => false⟩
    mediumPks := fun _ => .ok mediumPks }

/-- A key for Bobby's device which nobody signed, from the end of time. -/
def forgedMediumPk : MediumPkMap symbolic :=
  (∅ : MediumPkMap symbolic).insert (symbolic.bcsHash (2 : UInt8)) ⟨(9 : UInt8), 0xFFFFFFFFFFFFFFFF, []⟩

/-- Bobby has one device. -/
theorem bobbyEnv_device {clock : Timestamp} {mediumPks others : MediumPkMap symbolic}
    {db : PeerDb symbolic}
    (listed : db.Listed (bobbyEnv clock mediumPks) bobby
      ⟨symbolicServer, symbolic.bcsHash (2 : UInt8)⟩ (deviceChain 2) others)
    {info : UserInfo symbolic} (found : (getUserInfo (bobbyEnv clock mediumPks) bobby db).2 = .ok info)
    {hash : symbolic.Hash} {chain : CertificateChain symbolic}
    (present : info.deviceChains.lookup hash = some chain) :
    hash = symbolic.bcsHash (2 : UInt8) ∧ chain = rootChain 2 100 := by
  obtain ⟨_, _, _, again, _, rfl⟩ := (getUserInfo_ok _ _ _ _).mp found
  obtain ⟨_, rfl, _⟩ := again.unique listed
  exact (Table.lookup_insert_cases (lookup_validChains.mp present).1).resolve_right
    fun absent => by contradiction

/-- Bobby's own answer is honest, whatever came before. -/
theorem bobbyEnv_honest {clock : Timestamp} {others : MediumPkMap symbolic} {db : PeerDb symbolic}
    (merges : db.merges (bobbyEnv clock (deviceMediumPk 2 bobbyMedium)) bobby =
      some (deviceMediumPk 2 bobbyMedium))
    (listed : db.Listed (bobbyEnv clock (deviceMediumPk 2 bobbyMedium)) bobby
      ⟨symbolicServer, symbolic.bcsHash (2 : UInt8)⟩ (deviceChain 2) others) :
    HonestRefresh (bobbyEnv clock (deviceMediumPk 2 bobbyMedium)) bobby db
      (deviceMediumPk 2 bobbyMedium) where
  merges := merges
  signed info found hash chain present := by
    obtain ⟨rfl, rfl⟩ := bobbyEnv_device listed found present
    exact ⟨_, AList.lookup_insert _, by decide⟩

theorem unpoisoned_iff_outbid_bobby :
    Unpoisoned (bobbyEnv 6 (deviceMediumPk 2 bobbyMedium)) bobby [] sharedDb ↔
      BadOutbid (bobbyEnv 6 (deviceMediumPk 2 bobbyMedium)) bobby [] sharedDb :=
  unpoisoned_iff_outbid (bobbyEnv_honest rfl ⟨rfl, rfl, rfl⟩)

/-- The forged key is merged first, and stays. -/
theorem forgedKey_breaks :
    HonestRefresh (bobbyEnv 90 (deviceMediumPk 2 bobbyMedium)) bobby
        (lookups [(bobbyEnv 6 forgedMediumPk, bobby)] sharedDb) (deviceMediumPk 2 bobbyMedium) ∧
      ¬Unpoisoned (bobbyEnv 90 (deviceMediumPk 2 bobbyMedium)) bobby
        [(bobbyEnv 6 forgedMediumPk, bobby)] sharedDb := by
  refine ⟨bobbyEnv_honest rfl ⟨rfl, rfl, rfl⟩, fun unpoisoned => ?_⟩
  obtain ⟨key, cached, verified, _⟩ := unpoisoned _ rfl (symbolic.bcsHash (2 : UInt8))
    (rootChain 2 100) (by decide)
  have held : ((lookups [(bobbyEnv 6 forgedMediumPk, bobby),
      (bobbyEnv 90 (deviceMediumPk 2 bobbyMedium), bobby)] sharedDb).cachedMediumPks bobby).lookup
        (symbolic.bcsHash (2 : UInt8)) = some ⟨(9 : UInt8), 0xFFFFFFFFFFFFFFFF, []⟩ := by decide
  cases held.symm.trans cached
  revert verified
  decide

end PeerDb
end Nullspace
