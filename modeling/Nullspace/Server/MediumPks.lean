import Nullspace.Base.Register
import Nullspace.Server.TokenSecrecy

/-!
# The medium-term key which the server has for a device

`device_medium_pks` gives every signed key to everyone, and `device_add_medium_pk` stores
whatever its device has signed at any time: unlike `profile_set` and the caches of the senders
it does not look at `created`.

`servesNewest_iff_notOlder` says in which sequences of submissions the newest key is served
all along.
-/

namespace Nullspace

open Nullspace.Base

variable {P : Primitives}

/-- A call of `device_add_medium_pk`. -/
structure MediumPkCall (P : Primitives) where
  env : CallEnv P
  auth : AuthToken
  mediumPk : SignedMediumPk P

/-- The call meets no failure, and the second at which the key was made fits into a column. -/
def MediumPkCall.storable (call : MediumPkCall P) : Bool :=
  !call.env.dbFails && ServerDb.fitsI64 call.mediumPk.created

namespace ServerDb

/-- The user's device has a token and a certificate chain. -/
structure Registered (db : ServerDb P) (username : UserName) (chain : CertificateChain P) :
    Prop where
  token : (username, deviceHash chain) ∈ db.deviceAuthTokens
  certified : db.deviceCertificates.lookup (deviceHash chain) = some ⟨username, chain⟩

/-- The call comes with the device's token, and the device signed the key. -/
def signedFor (db : ServerDb P) (username : UserName) (chain : CertificateChain P)
    (call : MediumPkCall P) : Bool :=
  decide (db.tokenOwner? call.auth = some (username, deviceHash chain)) &&
    Signable.verify call.mediumPk chain.lastDevice.pk

/-- A submission touches no table but that of the keys. -/
theorem deviceAddMediumPk_frame (env : CallEnv P) (auth : AuthToken)
    (mediumPk : SignedMediumPk P) (db : ServerDb P) :
    ∃ mediumPks, (db.deviceAddMediumPk env auth mediumPk).1 =
      { db with deviceMediumPks := mediumPks } := by
  rw [deviceAddMediumPk]
  split
  · exact ⟨_, rfl⟩
  · split
    · exact ⟨_, rfl⟩
    · split
      · exact ⟨_, rfl⟩
      · split
        · exact ⟨_, rfl⟩
        · split
          · exact ⟨_, rfl⟩
          · split
            · exact ⟨_, rfl⟩
            · split <;> exact ⟨_, rfl⟩

/-- A key which the device signed replaces the stored one. -/
theorem lookup_deviceAddMediumPk {db : ServerDb P} {username : UserName}
    {chain : CertificateChain P} (registered : db.Registered username chain)
    (call : MediumPkCall P) :
    (db.deviceAddMediumPk call.env call.auth call.mediumPk).1.deviceMediumPks.lookup
        (deviceHash chain) =
      if db.signedFor username chain call && call.storable then some call.mediumPk
      else db.deviceMediumPks.lookup (deviceHash chain) := by
  rw [deviceAddMediumPk, signedFor, MediumPkCall.storable]
  cases call.env.dbFails with
  | true => simp
  | false =>
      cases owned : db.tokenOwner? call.auth with
      | none => simp
      | some owner =>
          obtain ⟨user, hash⟩ := owner
          by_cases own : hash = deviceHash chain
          · subst own
            by_cases same : username = user
            · subst same
              cases verified : Signable.verify call.mediumPk chain.lastDevice.pk with
              | false => simp [registered.certified, verified]
              | true =>
                  cases fits : fitsI64 call.mediumPk.created with
                  | false => simp [registered.certified, verified]
                  | true => simp [registered.certified, verified, AList.lookup_insert]
            · simp [registered.certified, same, Ne.symm same]
          · have apart : deviceHash chain ≠ hash := Ne.symm own
            simp only [Bool.false_eq_true, if_false, Option.some.injEq, Prod.mk.injEq, own,
              and_false, decide_false, Bool.false_and]
            split
            · rfl
            · split
              · rfl
              · split
                · rfl
                · split
                  · rfl
                  · split
                    · rfl
                    · exact AList.lookup_insert_ne apart

/-- Who may be served a key of the device, and which one. -/
theorem mem_deviceMediumPksOf {env : CallEnv P} {username : UserName} {db : ServerDb P}
    {rows : List (P.Hash × SignedMediumPk P)}
    (served : db.deviceMediumPksOf env username = .ok rows) (hash : P.Hash)
    (key : SignedMediumPk P) :
    (hash, key) ∈ rows ↔
      db.deviceMediumPks.lookup hash = some key ∧ (username, hash) ∈ db.deviceAuthTokens := by
  rw [deviceMediumPksOf] at served
  split at served
  · cases served
  · cases served
    simp only [List.mem_filter, Table.mem_rows, decide_eq_true_eq]

end ServerDb

/-- The server, and the keys which were submitted for a device under its signature. -/
structure SubmittedPks (P : Primitives) where
  db : ServerDb P
  submitted : List (SignedMediumPk P)

namespace SubmittedPks

open ServerDb

/-- The key which was stored last counts as submitted. -/
def start (chain : CertificateChain P) (db : ServerDb P) : SubmittedPks P :=
  ⟨db, (db.deviceMediumPks.lookup (deviceHash chain)).toList⟩

def machine (username : UserName) (chain : CertificateChain P) :
    Machine (SubmittedPks P) (MediumPkCall P) where
  step state call :=
    some ⟨(state.db.deviceAddMediumPk call.env call.auth call.mediumPk).1,
      if state.db.signedFor username chain call then state.submitted ++ [call.mediumPk]
      else state.submitted⟩

/-- `device_medium_pks` gives the newest of the submitted keys. -/
def ServesNewest (username : UserName) (chain : CertificateChain P) (state : SubmittedPks P) :
    Prop :=
  ∀ env rows, state.db.deviceMediumPksOf env username = .ok rows → state.submitted ≠ [] →
    ∃ served ∈ state.submitted, (deviceHash chain, served) ∈ rows ∧
      ∀ key ∈ state.submitted, key.created ≤ served.created

/-- A key which the device signed is not older than the stored one if it is going to be
stored, and not newer if it is not. -/
def NotOlder (username : UserName) (chain : CertificateChain P) (state : SubmittedPks P)
    (call : MediumPkCall P) : Prop :=
  state.db.signedFor username chain call = true →
    if call.storable then
      ∀ stored ∈ state.db.deviceMediumPks.lookup (deviceHash chain),
        stored.created ≤ call.mediumPk.created
    else
      ∃ stored ∈ state.db.deviceMediumPks.lookup (deviceHash chain),
        call.mediumPk.created ≤ stored.created

instance (username : UserName) (chain : CertificateChain P) (state : SubmittedPks P)
    (call : MediumPkCall P) : Decidable (NotOlder username chain state call) :=
  inferInstanceAs (Decidable (_ → _))

/-- When a key was made, as a number. -/
def stamp (key : SignedMediumPk P) : Nat := key.created.toNat

/-- Keys are ordered by the second at which they were made. -/
theorem created_le_iff {first second : SignedMediumPk P} :
    first.created ≤ second.created ↔ stamp first ≤ stamp second :=
  UInt64.le_iff_toNat_le

section

variable {username : UserName} {chain : CertificateChain P} {state next : SubmittedPks P}
  {call : MediumPkCall P}

/-- What every sequence of submissions keeps. -/
structure Tracked (username : UserName) (chain : CertificateChain P) (state : SubmittedPks P) :
    Prop where
  registered : state.db.Registered username chain
  listed : ∀ key ∈ state.db.deviceMediumPks.lookup (deviceHash chain), key ∈ state.submitted

theorem tracked_start {db : ServerDb P} (registered : db.Registered username chain) :
    Tracked username chain (start chain db) :=
  ⟨registered, fun _ stored => Option.mem_toList.mpr stored⟩

/-- Every submission is kept track of. -/
theorem tracked_step (tracked : Tracked username chain state)
    (taken : (machine username chain).step state call = some next) :
    Tracked username chain next := by
  cases taken
  constructor
  · obtain ⟨mediumPks, same⟩ := deviceAddMediumPk_frame call.env call.auth call.mediumPk state.db
    dsimp only
    rw [same]
    exact ⟨tracked.registered.token, tracked.registered.certified⟩
  · intro key stored
    dsimp only at stored ⊢
    rw [lookup_deviceAddMediumPk tracked.registered] at stored
    cases signed : state.db.signedFor username chain call with
    | false =>
        rw [signed] at stored
        exact tracked.listed key stored
    | true =>
        rw [if_pos rfl, List.mem_append]
        split at stored
        · cases stored
          exact .inr (List.mem_singleton_self _)
        · exact .inl (tracked.listed key stored)

/-- The newest key is served exactly when the newest key is stored. -/
theorem servesNewest_iff (tracked : Tracked username chain state) :
    ServesNewest username chain state ↔
      HoldsNewest stamp (state.db.deviceMediumPks.lookup (deviceHash chain)) state.submitted := by
  constructor
  · intro serves
    refine ⟨tracked.listed, ?_⟩
    intro key member
    have answer : state.db.deviceMediumPksOf ⟨0, 0, fun _ => none, .anonymous, false, none, none⟩
        username = .ok _ := rfl
    obtain ⟨served, -, row, newest⟩ := serves _ _ answer (List.ne_nil_of_mem member)
    exact ⟨served, ((mem_deviceMediumPksOf answer _ _).mp row).1,
      created_le_iff.mp (newest key member)⟩
  · intro holds env rows answer submitted
    obtain ⟨key, member⟩ := List.exists_mem_of_ne_nil _ submitted
    obtain ⟨stored, found, -⟩ := holds.newest key member
    refine ⟨stored, holds.listed stored found,
      (mem_deviceMediumPksOf answer _ _).mpr ⟨found, tracked.registered.token⟩, ?_⟩
    intro other listed
    obtain ⟨kept, again, reaches⟩ := holds.newest other listed
    cases Option.mem_unique found again
    exact created_le_iff.mpr reaches

/-- A submission keeps the newest key stored exactly when it is not older than the stored key,
or is refused and not newer. -/
theorem holdsNewest_step (registered : state.db.Registered username chain)
    (before : HoldsNewest stamp (state.db.deviceMediumPks.lookup (deviceHash chain))
      state.submitted)
    (taken : (machine username chain).step state call = some next) :
    HoldsNewest stamp (next.db.deviceMediumPks.lookup (deviceHash chain)) next.submitted ↔
      NotOlder username chain state call := by
  cases taken
  rw [lookup_deviceAddMediumPk registered]
  cases signed : state.db.signedFor username chain call with
  | false => simpa [NotOlder, signed] using before
  | true =>
      cases storable : call.storable with
      | true =>
          simp only [NotOlder, signed, storable, Bool.and_self, if_true, true_implies,
            created_le_iff]
          exact holdsNewest_write_iff before
      | false =>
          simp only [NotOlder, signed, storable, Bool.and_false, Bool.false_eq_true, if_false,
            if_true, true_implies, created_le_iff]
          exact holdsNewest_refuse_iff before

end

/-- The newest key is served all along exactly when no older one ever replaces it and no newer
one is passed over. -/
theorem servesNewest_iff_notOlder {username : UserName} {chain : CertificateChain P}
    {db : ServerDb P} (registered : db.Registered username chain) (calls : List (MediumPkCall P)) :
    (machine username chain).Always (ServesNewest username chain) (start chain db) calls ↔
      (machine username chain).Along (NotOlder username chain) (start chain db) calls := by
  refine Machine.always_iff_along_within (Tracked username chain) tracked_step ?_
    (tracked_start registered)
    ((servesNewest_iff (tracked_start registered)).mpr (holdsNewest_toList _))
  intro state call next tracked serves taken
  rw [servesNewest_iff (tracked_step tracked taken)]
  exact holdsNewest_step tracked.registered ((servesNewest_iff tracked).mp serves) taken

open WatchedServer (aliceChain envWith registeredDb tokenOf)

theorem registeredDb_registered : registeredDb.Registered alice aliceChain where
  token := by decide +kernel
  certified := by decide +kernel

/-- Alice's device submits a key which it signed at a certain second. -/
def aliceCall (medium : UInt8) (created : Timestamp) : MediumPkCall symbolic :=
  ⟨envWith (tokenOf 2), tokenOf 1, ⟨medium, created, 1 :: Bcs.toBytes (medium, created)⟩⟩

theorem servesNewest_iff_notOlder_rotation :
    (machine alice aliceChain).Always (ServesNewest alice aliceChain)
      (start aliceChain registeredDb) [aliceCall 5 5, aliceCall 6 10] :=
  (servesNewest_iff_notOlder registeredDb_registered _).mpr (by decide +kernel)

/-- The device's first key is served again once it is submitted again. -/
theorem servesNewest_replayed :
    registeredDb.Registered alice aliceChain ∧
      ¬(machine alice aliceChain).Always (ServesNewest alice aliceChain)
        (start aliceChain registeredDb) [aliceCall 5 5, aliceCall 6 10, aliceCall 5 5] := by
  refine ⟨registeredDb_registered, fun always => ?_⟩
  have ends : ((machine alice aliceChain).exec (start aliceChain registeredDb)
      [aliceCall 5 5, aliceCall 6 10, aliceCall 5 5]).map (fun state =>
        (state.submitted, state.db.deviceMediumPks.lookup (deviceHash aliceChain))) =
      some ([(aliceCall 5 5).mediumPk, (aliceCall 6 10).mediumPk, (aliceCall 5 5).mediumPk],
        some (aliceCall 5 5).mediumPk) := by decide +kernel
  obtain ⟨state, reached, held⟩ := Option.map_eq_some_iff.mp ends
  simp only [Prod.mk.injEq] at held
  obtain ⟨submitted, stored⟩ := held
  have answer : state.db.deviceMediumPksOf (envWith (tokenOf 2)) alice = .ok _ := rfl
  obtain ⟨served, -, row, newest⟩ :=
    always.last reached _ _ answer (by rw [submitted]; exact List.cons_ne_nil _ _)
  have found := ((mem_deviceMediumPksOf answer _ _).mp row).1
  rw [stored] at found
  cases found
  have later : (aliceCall 6 10).mediumPk ∈ state.submitted := by
    rw [submitted]
    exact List.mem_cons_of_mem _ List.mem_cons_self
  have reaches := newest _ later
  revert reaches
  decide

end SubmittedPks
end Nullspace
