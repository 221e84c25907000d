import Nullspace.Client.Rounds
import Nullspace.Server.Separation

/-!
# Rotation of the medium-term key

A rotation makes a new secret, writes it to the database and publishes its key, in this
order, and may fail or stop before each step; its call may also reach the server after the
device has given up on it. Only two secrets are kept. A run interleaves rotations with
whatever else the server does. `decryptable_iff` says in which runs the key which the server
serves for the device always belongs to one of the two.
-/

namespace Nullspace

open Nullspace.Base

variable {P : Primitives}

/-- A rotation which has loaded the identity and signed a new key. -/
structure Rotation (P : Primitives) where
  auth : AuthToken
  /-- `medium_sk_current`, as loaded. -/
  loaded : P.DhSecret
  newSk : P.DhSecret
  signed : SignedMediumPk P
  /-- The new secret is in the database. -/
  stored : Bool

/-- `rotate_once` up to its `UPDATE`. -/
def Rotation.begin (identity : Identity P) (auth : AuthToken) (newSk : P.DhSecret)
    (created : Timestamp) : Rotation P where
  auth := auth
  loaded := identity.mediumSkCurrent
  newSk := newSk
  signed := ⟨P.dhPublicKey newSk, created,
    P.sign identity.deviceSecret (Bcs.toBytes (P.dhPublicKey newSk, created))⟩
  stored := false

/-- The `UPDATE` of `rotate_once`. -/
def Rotation.store (rotation : Rotation P) (identity : Identity P) : Identity P :=
  { identity with mediumSkPrev := rotation.loaded, mediumSkCurrent := rotation.newSk }

/-- A device's identity in its database, its running rotation, the calls which it has given
up on and which are still on their way, and the server. -/
structure RotatingDevice (P : Primitives) where
  identity : Identity P
  rotation : Option (Rotation P)
  delayed : List (AuthToken × SignedMediumPk P)
  server : ServerDb P

inductive RotationEvent (P : Primitives) where
  /-- A rotation gets as far as its `UPDATE`. -/
  | begin (auth : AuthToken) (newSk : P.DhSecret) (created : Timestamp)
  /-- The `UPDATE` works. -/
  | store
  /-- The call of `v1_device_add_medium_pk` reaches the server. -/
  | publish (env : CallEnv P)
  /-- The rotation fails, or the process stops, where it stands. -/
  | stop
  /-- The device gives up on the call after it has left. -/
  | giveUp
  /-- A call which the device has given up on reaches the server. -/
  | arrive (env : CallEnv P) (position : Nat)
  /-- Any call to the server which is not a publication of the device. -/
  | other (config : ServerConfig) (env : CallEnv P) (request : ServerRequest P)

/-- The request publishes a medium-term key with a token of the device. -/
def ServerDb.publishesFor (db : ServerDb P) (device : P.Hash) : ServerRequest P → Bool
  | .deviceAddMediumPk auth _ =>
      match db.tokenOwner? auth with
      | some (_, owner) => decide (owner = device)
      | none => false
  | _ => false

/-- The checks of `device_add_medium_pk`. -/
def ServerDb.acceptsMediumPk (env : CallEnv P) (auth : AuthToken) (mediumPk : SignedMediumPk P)
    (db : ServerDb P) : Prop :=
  env.dbFails = false ∧ ∃ username hash row, db.tokenOwner? auth = some (username, hash) ∧
    db.deviceCertificates.lookup hash = some row ∧ row.username = username ∧
    deviceHash row.certChain = hash ∧ Signable.verify mediumPk row.certChain.lastDevice.pk = true ∧
    fitsI64 mediumPk.created = true

namespace RotatingDevice

/-- The hash which names the device on the server. -/
def device (state : RotatingDevice P) : P.Hash := ServerDb.deviceHash state.identity.certChain

/-- The medium-term key which the server has for the device. -/
def served (state : RotatingDevice P) : Option P.DhPublic :=
  (state.server.deviceMediumPks.lookup state.device).map SignedMediumPk.mediumPk

/-- The device and the server as a machine. -/
def machine : Machine (RotatingDevice P) (RotationEvent P) where
  step state
    | .begin auth newSk created =>
        match state.rotation with
        | some _ => none
        | none => some { state with rotation := some (.begin state.identity auth newSk created) }
    | .store =>
        match state.rotation with
        | none => none
        | some rotation =>
            if rotation.stored then none
            else
              some { state with
                identity := rotation.store state.identity
                rotation := some { rotation with stored := true } }
    | .publish env =>
        match state.rotation with
        | none => none
        | some rotation =>
            if !rotation.stored then none
            else
              some { state with
                rotation := none
                server := (state.server.deviceAddMediumPk env rotation.auth rotation.signed).1 }
    | .stop => some { state with rotation := none }
    | .giveUp =>
        match state.rotation with
        | none => none
        | some rotation =>
            if !rotation.stored then none
            else
              some { state with
                rotation := none
                delayed := state.delayed ++ [(rotation.auth, rotation.signed)] }
    | .arrive env position =>
        match state.delayed[position]? with
        | none => none
        | some (auth, signed) =>
            some { state with
              delayed := state.delayed.eraseIdx position
              server := (state.server.deviceAddMediumPk env auth signed).1 }
    | .other config env request =>
        if state.server.publishesFor state.device request then none
        else some { state with server := (state.server.handle config env request).1 }

/-! ## Steps and runs -/

section Steps

variable {state next : RotatingDevice P}

/-- A rotation begins with the identity which is stored. -/
theorem step_begin {auth : AuthToken} {newSk : P.DhSecret} {created : Timestamp}
    (taken : machine.step state (.begin auth newSk created) = some next) :
    next = { state with rotation := some (.begin state.identity auth newSk created) } := by
  simp only [machine] at taken
  split at taken
  · cases taken
  · exact (Option.some.inj taken).symm

/-- The new secret is stored once. -/
theorem step_store (taken : machine.step state .store = some next) :
    ∃ rotation, state.rotation = some rotation ∧ rotation.stored = false ∧
      next = { state with
        identity := rotation.store state.identity
        rotation := some { rotation with stored := true } } := by
  simp only [machine] at taken
  split at taken
  · cases taken
  · rename_i rotation running
    split at taken
    · cases taken
    · rename_i unstored
      exact ⟨rotation, running, Bool.eq_false_iff.mpr unstored, (Option.some.inj taken).symm⟩

/-- A stored rotation is published, or fails on its way. -/
theorem step_publish {env : CallEnv P} (taken : machine.step state (.publish env) = some next) :
    ∃ rotation, state.rotation = some rotation ∧ rotation.stored = true ∧
      next = { state with
        rotation := none
        server := (state.server.deviceAddMediumPk env rotation.auth rotation.signed).1 } := by
  simp only [machine] at taken
  split at taken
  · cases taken
  · rename_i rotation running
    split at taken
    · cases taken
    · rename_i stored
      exact ⟨rotation, running, by simpa using stored, (Option.some.inj taken).symm⟩

/-- A call which is given up may still arrive. -/
theorem step_giveUp (taken : machine.step state .giveUp = some next) :
    ∃ rotation : Rotation P, next = { state with
      rotation := none
      delayed := state.delayed ++ [(rotation.auth, rotation.signed)] } := by
  simp only [machine] at taken
  split at taken
  · cases taken
  · rename_i rotation running
    split at taken
    · cases taken
    · exact ⟨rotation, (Option.some.inj taken).symm⟩

/-- A call which arrives late is served. -/
theorem step_arrive {env : CallEnv P} {position : Nat}
    (taken : machine.step state (.arrive env position) = some next) :
    ∃ auth signed, state.delayed[position]? = some (auth, signed) ∧
      next = { state with
        delayed := state.delayed.eraseIdx position
        server := (state.server.deviceAddMediumPk env auth signed).1 } := by
  simp only [machine] at taken
  split at taken
  · cases taken
  · rename_i auth signed onItsWay
    exact ⟨auth, signed, onItsWay, (Option.some.inj taken).symm⟩

/-- Other calls publish nothing for the device. -/
theorem step_other {config : ServerConfig} {env : CallEnv P} {request : ServerRequest P}
    (taken : machine.step state (.other config env request) = some next) :
    state.server.publishesFor state.device request = false ∧
      next = { state with server := (state.server.handle config env request).1 } := by
  simp only [machine] at taken
  split at taken
  · cases taken
  · rename_i other
    exact ⟨Bool.eq_false_iff.mpr other, (Option.some.inj taken).symm⟩

end Steps

/-- The served key belongs to one of the two secrets. -/
def Decryptable (state : RotatingDevice P) : Prop :=
  ∀ key, state.served = some key →
    key = P.dhPublicKey state.identity.mediumSkCurrent ∨
      key = P.dhPublicKey state.identity.mediumSkPrev

/-- When a new secret is stored, the served key is that of the current one, or the new key;
and a call which arrives late and is accepted brings the key of one of the two secrets. -/
def Published (state : RotatingDevice P) : RotationEvent P → Prop
  | .store => ∀ rotation, state.rotation = some rotation → ∀ key, state.served = some key →
      key = P.dhPublicKey state.identity.mediumSkCurrent ∨ key = P.dhPublicKey rotation.newSk
  | .arrive env position => ∀ auth signed, state.delayed[position]? = some (auth, signed) →
      state.server.publishesFor state.device (.deviceAddMediumPk auth signed) = true →
        state.server.acceptsMediumPk env auth signed →
          signed.mediumPk = P.dhPublicKey state.identity.mediumSkCurrent ∨
            signed.mediumPk = P.dhPublicKey state.identity.mediumSkPrev
  | _ => True

/-- What every step keeps: a rotation has signed the key of its new secret, and knows the
current secret until it replaces it. -/
def Coherent (state : RotatingDevice P) : Prop :=
  ∀ rotation, state.rotation = some rotation →
    rotation.signed.mediumPk = P.dhPublicKey rotation.newSk ∧
      if rotation.stored then state.identity.mediumSkCurrent = rotation.newSk
      else state.identity.mediumSkCurrent = rotation.loaded

/-- Every step keeps rotations coherent. -/
theorem Coherent.step {state next : RotatingDevice P} {event : RotationEvent P}
    (coherent : state.Coherent) (taken : machine.step state event = some next) :
    next.Coherent := by
  cases event with
  | begin auth newSk created =>
      obtain rfl := step_begin taken
      rintro _ ⟨⟩
      exact ⟨rfl, rfl⟩
  | store =>
      obtain ⟨rotation, running, _, rfl⟩ := step_store taken
      rintro _ ⟨⟩
      exact ⟨(coherent rotation running).1, rfl⟩
  | publish env =>
      obtain ⟨rotation, _, _, rfl⟩ := step_publish taken
      rintro _ ⟨⟩
  | stop =>
      cases taken
      rintro _ ⟨⟩
  | giveUp =>
      obtain ⟨rotation, rfl⟩ := step_giveUp taken
      rintro _ ⟨⟩
  | arrive env position =>
      obtain ⟨auth, signed, _, rfl⟩ := step_arrive taken
      exact coherent
  | other config env request =>
      obtain ⟨_, rfl⟩ := step_other taken
      exact coherent

end RotatingDevice

namespace ServerDb

/-- What is refused changes nothing, and what is accepted stands under the token's device. -/
theorem deviceAddMediumPk_cases (env : CallEnv P) (auth : AuthToken) (mediumPk : SignedMediumPk P)
    (db : ServerDb P) :
    (¬db.acceptsMediumPk env auth mediumPk ∧ (db.deviceAddMediumPk env auth mediumPk).1 = db) ∨
      (db.acceptsMediumPk env auth mediumPk ∧ ∃ username hash,
        db.tokenOwner? auth = some (username, hash) ∧
          (db.deviceAddMediumPk env auth mediumPk).1 =
            { db with deviceMediumPks := db.deviceMediumPks.insert hash mediumPk }) := by
  rw [deviceAddMediumPk]
  split
  · rename_i fails
    exact Or.inl ⟨fun accepts => by simp [accepts.1] at fails, rfl⟩
  · rename_i works
    split
    · rename_i unknown
      refine Or.inl ⟨?_, rfl⟩
      rintro ⟨_, _, _, _, owned, _⟩
      cases unknown.symm.trans owned
    · rename_i username hash owned
      split
      · rename_i unlisted
        refine Or.inl ⟨?_, rfl⟩
        rintro ⟨_, _, _, row, owner, listed, _⟩
        cases owned.symm.trans owner
        cases unlisted.symm.trans listed
      · rename_i row listed
        have only : db.acceptsMediumPk env auth mediumPk →
            row.username = username ∧ deviceHash row.certChain = hash ∧
              Signable.verify mediumPk row.certChain.lastDevice.pk = true ∧
              fitsI64 mediumPk.created = true := by
          rintro ⟨_, _, _, _, owner, found, checks⟩
          cases owned.symm.trans owner
          cases listed.symm.trans found
          exact checks
        split
        · rename_i foreign
          exact Or.inl ⟨fun accepts => foreign (only accepts).1, rfl⟩
        · rename_i sameUser
          split
          · rename_i foreign
            exact Or.inl ⟨fun accepts => foreign (only accepts).2.1, rfl⟩
          · rename_i sameDevice
            split
            · rename_i unsigned
              exact Or.inl ⟨fun accepts => by simp [(only accepts).2.2.1] at unsigned, rfl⟩
            · rename_i signed
              split
              · rename_i large
                exact Or.inl ⟨fun accepts => by simp [(only accepts).2.2.2] at large, rfl⟩
              · rename_i fits
                refine Or.inr ⟨⟨by simpa using works, username, hash, row, owned, listed,
                  not_not.mp sameUser, not_not.mp sameDevice, ?_, ?_⟩, username, hash, owned, rfl⟩
                · simpa using signed
                · simpa using fits

/-- Publishing a key puts it under one device, if the server accepts it. -/
theorem deviceAddMediumPk_lookup (env : CallEnv P) (auth : AuthToken) (mediumPk : SignedMediumPk P)
    (db : ServerDb P) (device : P.Hash) :
    (db.publishesFor device (.deviceAddMediumPk auth mediumPk) = true ∧
      db.acceptsMediumPk env auth mediumPk ∧
      (db.deviceAddMediumPk env auth mediumPk).1.deviceMediumPks.lookup device = some mediumPk) ∨
      (¬(db.publishesFor device (.deviceAddMediumPk auth mediumPk) = true ∧
        db.acceptsMediumPk env auth mediumPk) ∧
      (db.deviceAddMediumPk env auth mediumPk).1.deviceMediumPks.lookup device =
        db.deviceMediumPks.lookup device) := by
  rcases db.deviceAddMediumPk_cases env auth mediumPk with
    ⟨refused, same⟩ | ⟨accepts, username, hash, owned, next⟩
  · exact Or.inr ⟨fun both => refused both.2, by rw [same]⟩
  · rw [next, Table.lookup_insert_eq]
    split
    · rename_i same
      refine Or.inl ⟨?_, accepts, rfl⟩
      simp only [publishesFor, owned, same, decide_true]
    · rename_i other
      refine Or.inr ⟨?_, rfl⟩
      rintro ⟨own, _⟩
      simp only [publishesFor, owned, decide_eq_true_eq] at own
      exact other own.symm

/-- A device which authenticates leaves the medium-term keys. -/
theorem deviceAuth_mediumPks (config : ServerConfig) (env : CallEnv P) (username : UserName)
    (cert : CertificateChain P) (db : ServerDb P) :
    (db.deviceAuth config env username cert).1.deviceMediumPks = db.deviceMediumPks := by
  cases outcome : (db.deviceAuth config env username cert).2 with
  | ok token => exact (deviceAuth_tables outcome).2.1
  | error err => rw [deviceAuth_refused outcome]

/-- No call but a publication touches the medium-term keys. -/
theorem handle_mediumPks (config : ServerConfig) (env : CallEnv P) (db : ServerDb P)
    {request : ServerRequest P}
    (noPublication : ∀ auth mediumPk, request ≠ .deviceAddMediumPk auth mediumPk) :
    (db.handle config env request).1.deviceMediumPks = db.deviceMediumPks := by
  cases request with
  | deviceAddMediumPk auth mediumPk => exact absurd rfl (noPublication auth mediumPk)
  | deviceAuth username cert => exact deviceAuth_mediumPks config env username cert db
  | mailboxAclEdit auth mailbox arg =>
      simp only [handle]
      rcases db.mailboxAclEdit_cases env auth mailbox arg with
        ⟨_, outcome⟩ | ⟨_, outcome⟩ | ⟨_, _, outcome⟩ <;> rw [outcome] <;> rfl
  | registerGroup auth group =>
      simp only [handle, registerGroup]
      split
      · rfl
      · split
        · rfl
        · split
          · rfl
          · rename_i middle messages
            obtain ⟨_, rfl⟩ := insertAcl_eq_some.mp messages
            split
            · rfl
            · rename_i next management
              obtain ⟨_, rfl⟩ := insertAcl_eq_some.mp management
              rfl
  | _ => exact Settled.deviceMediumPks (settled_handle config env db rfl)

end ServerDb

namespace RotatingDevice

/-- Other calls leave the served key alone. -/
theorem served_other (state : RotatingDevice P) (config : ServerConfig) (env : CallEnv P)
    {request : ServerRequest P}
    (other : state.server.publishesFor state.device request = false) :
    (served { state with server := (state.server.handle config env request).1 }) =
      state.served := by
  have same : (state.server.handle config env request).1.deviceMediumPks.lookup state.device =
      state.server.deviceMediumPks.lookup state.device := by
    by_cases publication : ∃ auth mediumPk, request = .deviceAddMediumPk auth mediumPk
    · obtain ⟨auth, mediumPk, rfl⟩ := publication
      rcases state.server.deviceAddMediumPk_lookup env auth mediumPk state.device with
        ⟨own, _⟩ | ⟨_, same⟩
      · rw [other] at own
        cases own
      · exact same
    · rw [ServerDb.handle_mediumPks]
      rintro auth mediumPk rfl
      exact publication ⟨auth, mediumPk, rfl⟩
  rw [served, served]
  exact congrArg (Option.map SignedMediumPk.mediumPk) same

/-- Which steps leave the served key with one of the two secrets. -/
theorem decryptable_step {state next : RotatingDevice P} {event : RotationEvent P}
    (coherent : state.Coherent) (decryptable : state.Decryptable)
    (taken : machine.step state event = some next) :
    next.Decryptable ↔ state.Published event := by
  cases event with
  | begin auth newSk created =>
      obtain rfl := step_begin taken
      exact iff_of_true decryptable trivial
  | store =>
      obtain ⟨rotation, running, unstored, rfl⟩ := step_store taken
      have current := (coherent rotation running).2
      rw [unstored, if_neg Bool.false_ne_true] at current
      -- Before: current and previous. After: the new secret and the loaded one.
      constructor
      · intro after other running' key serves
        cases running.symm.trans running'
        rw [current]
        exact (after key serves).symm
      · intro published key serves
        have known := published rotation running key serves
        rw [current] at known
        exact known.symm
  | publish env =>
      obtain ⟨rotation, running, stored, rfl⟩ := step_publish taken
      refine iff_of_true ?_ trivial
      intro key serves
      obtain ⟨signed, current⟩ := coherent rotation running
      rw [if_pos stored] at current
      have lookedUp := state.server.deviceAddMediumPk_lookup env rotation.auth rotation.signed
        state.device
      rcases lookedUp with ⟨_, _, own⟩ | ⟨_, same⟩
      · have new : key = rotation.signed.mediumPk := by
          have read : (some rotation.signed).map SignedMediumPk.mediumPk = some key :=
            own ▸ serves
          exact (Option.some.inj read).symm
        exact Or.inl (by rw [new, signed, current])
      · refine decryptable key ?_
        rw [served, ← same]
        exact serves
  | stop =>
      cases taken
      exact iff_of_true decryptable trivial
  | giveUp =>
      obtain ⟨rotation, rfl⟩ := step_giveUp taken
      exact iff_of_true decryptable trivial
  | arrive env position =>
      obtain ⟨auth, signed, onItsWay, rfl⟩ := step_arrive taken
      have lookedUp := state.server.deviceAddMediumPk_lookup env auth signed state.device
      rcases lookedUp with ⟨own, accepts, stands⟩ | ⟨refused, same⟩
      · have now : served { state with
            delayed := state.delayed.eraseIdx position
            server := (state.server.deviceAddMediumPk env auth signed).1 } =
            some signed.mediumPk := congrArg (Option.map SignedMediumPk.mediumPk) stands
        constructor
        · rintro after otherAuth other found _ _
          cases onItsWay.symm.trans found
          exact after signed.mediumPk now
        · intro published key serves
          cases now.symm.trans serves
          exact published auth signed onItsWay own accepts
      · refine iff_of_true ?_ ?_
        · intro key serves
          refine decryptable key ?_
          rw [served, ← same]
          exact serves
        · intro otherAuth other found own accepts
          cases onItsWay.symm.trans found
          exact absurd ⟨own, accepts⟩ refused
  | other config env request =>
      obtain ⟨other, rfl⟩ := step_other taken
      refine iff_of_true ?_ trivial
      intro key serves
      rw [state.served_other config env other] at serves
      exact decryptable key serves

/-- The served key belongs to one of the two secrets throughout exactly the runs in which
every stored secret finds the current one's key, or its own, on the server, and no late call
brings an older key. -/
theorem decryptable_iff (identity : Identity P) (delayed : List (AuthToken × SignedMediumPk P))
    (server : ServerDb P) (decryptable : Decryptable ⟨identity, none, delayed, server⟩)
    (events : List (RotationEvent P)) :
    machine.Always Decryptable ⟨identity, none, delayed, server⟩ events ↔
      machine.Along Published ⟨identity, none, delayed, server⟩ events :=
  Machine.always_iff_along_within Coherent (fun coherent taken => coherent.step taken)
    (fun coherent decryptable taken => decryptable_step coherent decryptable taken)
    (fun _ running => by cases running) decryptable

/-- Alice's device, whose key is on the server. -/
def aliceDevice : RotatingDevice symbolic :=
  ⟨aliceIdentity, none, [], (ServerDb.aliceDb.deviceAddMediumPk (WatchedServer.envWith
    (WatchedServer.tokenOf 2)) (WatchedServer.tokenOf 1)
    (Rotation.begin aliceIdentity (WatchedServer.tokenOf 1) aliceMedium 1).signed).1⟩

theorem aliceDevice_served : aliceDevice.served = some aliceMedium := by decide +kernel

/-- A rotation whose publication does not get through. -/
def unpublished (newSk : UInt8) : List (RotationEvent symbolic) :=
  [.begin (WatchedServer.tokenOf 1) newSk 2, .store, .stop]

theorem decryptable_iff_aliceDevice :
    machine.Always Decryptable aliceDevice (unpublished 20 ++ unpublished 21) ↔
      machine.Along Published aliceDevice (unpublished 20 ++ unpublished 21) := by
  refine decryptable_iff _ _ _ ?_ _
  intro key serves
  exact Or.inl (Option.some.inj (serves.symm.trans aliceDevice_served))

/-- After two unpublished rotations the served key cannot be used. -/
theorem unpublished_breaks :
    ¬machine.Always Decryptable aliceDevice (unpublished 20 ++ unpublished 21) := by
  intro always
  have ends : (machine.exec aliceDevice (unpublished 20 ++ unpublished 21)).map (fun state =>
      (state.served, state.identity.mediumSkCurrent, state.identity.mediumSkPrev)) =
      some (some aliceMedium, 21, 20) := by decide +kernel
  obtain ⟨state, reached, read⟩ := Option.map_eq_some_iff.mp ends
  obtain ⟨serves, current, previous⟩ := by simpa only [Prod.mk.injEq] using read
  rcases always.last reached aliceMedium serves with same | same
  · rw [current] at same
    exact absurd same (by decide)
  · rw [previous] at same
    exact absurd same (by decide)

end RotatingDevice
end Nullspace
