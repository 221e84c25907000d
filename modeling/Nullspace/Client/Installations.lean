import Nullspace.Client.Registration
import Nullspace.Server.Enlisted

/-!
# Installations

An installation of the client has no identity until `register_finish` gives it one: that of a
new username, or the one in a bundle which another device is said to have made. Nobody looks
whether the secret of a bundle is that of its chain's device. Any number of calls may be under
way, also at one installation; each goes one step at a time, and a step may fail before or
after its effect. Meanwhile anybody calls any server, and the directory may say anything.

`enlisted_always` says what the servers vouch for when an installation has an identity.
-/

namespace Nullspace

open Nullspace.Base

variable {P : Primitives}

/-- `RegisterFinish`. A bundle comes in its encoding; `none` is one which cannot be decoded. -/
inductive RegisterFinish (P : Primitives) where
  | bootstrapNewUser (username : UserName) (serverName : ServerName)
  | addDevice (bundle : Option (BundleInner P))

/-- Where a call of `register_finish` is. What `register_bootstrap` has made is a bundle too. -/
inductive FinishStage (P : Primitives) where
  | checkName (username : UserName) (serverName : ServerName)
  | findServer (username : UserName) (serverName : ServerName)
  | addOwner (bundle : BundleInner P) (serverName : ServerName)
  | insertDescriptor (bundle : BundleInner P) (serverName : ServerName)
  | findUser (bundle : BundleInner P)
  | findHome (bundle : BundleInner P) (serverName : ServerName)
  | deviceAuth (bundle : BundleInner P) (serverName : ServerName)
  | mediumKey (bundle : BundleInner P) (serverName : ServerName) (auth : AuthToken)
  | persist (bundle : BundleInner P) (serverName : ServerName) (mediumSk : P.DhSecret)

/-- The first stage, if the request can be read. -/
def RegisterFinish.stage : RegisterFinish P → Option (FinishStage P)
  | .bootstrapNewUser username serverName => some (.checkName username serverName)
  | .addDevice bundle => bundle.map .findUser

/-- What one step of a call meets and draws. -/
structure FinishEnv (P : Primitives) where
  fate : Fate
  /-- `get_user_descriptor`. -/
  descriptor : Except String (Option (UserDescriptor P))
  /-- `server_from_name`. -/
  server : Except InternalRpcError Unit
  /-- What an operation on the directory ends with. -/
  published : Except String Unit
  clock : Timestamp
  secret : P.SigningSecret
  mediumSk : P.DhSecret
  created : Timestamp
  call : CallEnv P

/-- The servers, and for each installation the row of `client_identity`. -/
structure InstallWorld (P : Primitives) where
  served : ServerName → ServedRun P
  identities : Nat → Option (Identity P)
  /-- The server with which the row was written. The code keeps no such record. -/
  homes : Nat → Option ServerName
  /-- The calls of `register_finish` under way, each with its installation. -/
  calls : Nat → Option (Nat × FinishStage P)

inductive InstallEvent (P : Primitives) where
  /-- An installation is asked to register. -/
  | register (call installation : Nat) (request : RegisterFinish P)
  | advance (call : Nat) (env : FinishEnv P)
  /-- The process of an installation stops. -/
  | stop (installation : Nat)
  /-- What the other tasks write to the row: the server's name and the medium-term keys. -/
  | maintain (installation : Nat) (serverName : Option ServerName) (current prev : P.DhSecret)
  /-- Anybody calls a server. -/
  | call (serverName : ServerName) (env : CallEnv P) (request : ServerRequest P)

namespace InstallWorld

/-- A call of a server. -/
def callServer (config : ServerName → ServerConfig) (world : InstallWorld P)
    (serverName : ServerName) (env : CallEnv P) (request : ServerRequest P) : InstallWorld P :=
  { world with
    served := Function.update world.served serverName
      ((world.served serverName).take (config serverName) env request) }

/-- One step of `register_finish`, and where it goes on, if it does. -/
def perform (config : ServerName → ServerConfig) (env : FinishEnv P) (installation : Nat)
    (world : InstallWorld P) :
    FinishStage P → InstallWorld P × Except InternalRpcError (Option (FinishStage P))
  | .checkName username serverName =>
      match env.descriptor with
      | .error text => (world, .error (.other text))
      | .ok (some _) => (world, .error (.other "username already exists"))
      | .ok none => (world, .ok (some (.findServer username serverName)))
  | .findServer username serverName =>
      match env.server with
      | .error err => (world, .error err)
      | .ok () =>
          (world, .ok (some (.addOwner ⟨username, env.secret, bootstrapChain env.secret⟩
            serverName)))
  | .addOwner bundle serverName =>
      match env.published with
      | .error text => (world, .error (.other text))
      | .ok () => (world, .ok (some (.insertDescriptor bundle serverName)))
  | .insertDescriptor bundle serverName =>
      match env.published with
      | .error text => (world, .error (.other text))
      | .ok () => (world, .ok (some (.deviceAuth bundle serverName)))
  | .findUser bundle =>
      match env.descriptor with
      | .error text => (world, .error (.other text))
      | .ok none => (world, .error (.other "username not found"))
      | .ok (some descriptor) =>
          match bundle.certChain.verify env.clock descriptor.rootCertHash with
          | .error err => (world, .error (.other err.message))
          | .ok () => (world, .ok (some (.findHome bundle descriptor.serverName)))
  | .findHome bundle serverName =>
      match env.server with
      | .error err => (world, .error err)
      | .ok () => (world, .ok (some (.deviceAuth bundle serverName)))
  | .deviceAuth bundle serverName =>
      let called := world.callServer config serverName env.call
        (.deviceAuth bundle.username bundle.certChain)
      match ((world.served serverName).db.deviceAuth (config serverName) env.call bundle.username
          bundle.certChain).2 with
      | .error err => (called, .error (.other err.message))
      | .ok auth => (called, .ok (some (.mediumKey bundle serverName auth)))
  | .mediumKey bundle serverName auth =>
      let signed := signedMediumPk bundle.deviceSecret env.mediumSk env.created
      let called := world.callServer config serverName env.call (.deviceAddMediumPk auth signed)
      match ((world.served serverName).db.deviceAddMediumPk env.call auth signed).2 with
      | .error err => (called, .error (.other err.message))
      | .ok () => (called, .ok (some (.persist bundle serverName env.mediumSk)))
  | .persist bundle serverName mediumSk =>
      match world.identities installation with
      | some _ => (world, .error (.other "UNIQUE constraint failed: client_identity.id"))
      | none =>
          ({ world with
              identities := Function.update world.identities installation
                (some (.persisted bundle.username serverName bundle.deviceSecret bundle.certChain
                  mediumSk))
              homes := Function.update world.homes installation (some serverName) }, .ok none)

/-- A server draws no token again which it has handed out. -/
def redraws (world : InstallWorld P) (env : CallEnv P) : FinishStage P → Bool
  | .deviceAuth _ serverName | .mediumKey _ serverName _ =>
      (world.served serverName).db.authTokenExists env.freshToken
  | _ => false

/-- Where a call goes on: nowhere after an error, and nowhere once the row is written. -/
def onward : Except InternalRpcError (Option (FinishStage P)) → Option (FinishStage P)
  | .error _ => none
  | .ok stage => stage

/-- One step of a call, which works or fails. -/
def advance (config : ServerName → ServerConfig) (call : Nat) (env : FinishEnv P)
    (installation : Nat) (stage : FinishStage P) (world : InstallWorld P) : InstallWorld P :=
  match env.fate with
  | .works =>
      let (next, outcome) := world.perform config env installation stage
      { next with
        calls := Function.update next.calls call
          ((onward outcome).map fun stage => (installation, stage)) }
  | .failsBefore => { world with calls := Function.update world.calls call none }
  | .failsAfter =>
      let (next, _) := world.perform config env installation stage
      { next with calls := Function.update next.calls call none }

def machine (config : ServerName → ServerConfig) : Machine (InstallWorld P) (InstallEvent P) where
  step world
    | .register call installation request =>
        match world.calls call, world.identities installation, request.stage with
        | some _, _, _ => none
        | none, some _, _ => some world
        | none, none, none => some world
        | none, none, some stage =>
            some { world with
              calls := Function.update world.calls call (some (installation, stage)) }
    | .advance call env =>
        match world.calls call with
        | none => none
        | some (installation, stage) =>
            if world.redraws env.call stage then none
            else some (world.advance config call env installation stage)
    | .stop installation =>
        some { world with
          calls := fun call => (world.calls call).filter fun under => under.1 ≠ installation }
    | .maintain installation serverName current prev =>
        some { world with
          identities := Function.update world.identities installation
            ((world.identities installation).map fun identity =>
              { identity with
                serverName := serverName
                mediumSkCurrent := current
                mediumSkPrev := prev }) }
    | .call serverName env request =>
        if (world.served serverName).db.authTokenExists env.freshToken then none
        else some (world.callServer config serverName env request)

/-- Before anybody has registered. -/
def start : InstallWorld P := ⟨fun _ => .fresh, fun _ => none, fun _ => none, fun _ => none⟩

section

variable {config : ServerName → ServerConfig} {world : InstallWorld P}

/-- The server with which the installation was registered vouches for the holder of the
secret. -/
def VouchedFor (config : ServerName → ServerConfig) (world : InstallWorld P) (installation : Nat)
    (identity : Identity P) : Prop :=
  ∃ serverName, world.homes installation = some serverName ∧
    (world.served serverName).Enlisted (config serverName) identity.username identity.certChain
      identity.deviceSecret

/-- What the server of a call has accepted at a stage. -/
def Backed (config : ServerName → ServerConfig) (world : InstallWorld P) : FinishStage P → Prop
  | .mediumKey bundle serverName auth =>
      (world.served serverName).Admitted (config serverName) bundle.username bundle.certChain auth
  | .persist bundle serverName _ =>
      (world.served serverName).Enlisted (config serverName) bundle.username bundle.certChain
        bundle.deviceSecret
  | _ => True

structure Sound (config : ServerName → ServerConfig) (world : InstallWorld P) : Prop where
  sourced : ∀ serverName, (world.served serverName).Sourced (config serverName)
  tokens : ∀ serverName, (world.served serverName).db.OwnTokens
  calls : ∀ call installation stage, world.calls call = some (installation, stage) →
    world.Backed config stage
  identities : ∀ installation identity, world.identities installation = some identity →
    world.VouchedFor config installation identity

/-- Before anybody has registered nothing is to be vouched for. -/
theorem sound_start (config : ServerName → ServerConfig) : (start (P := P)).Sound config where
  sourced serverName := ServedRun.sourced_fresh _
  tokens serverName owner other token found := by
    simp [start, ServedRun.fresh, ServerDb.empty] at found
  calls call installation stage under := by cases under
  identities installation identity row := by cases row

/-- What a call of a server keeps of it, it keeps of all servers. -/
theorem served_callServer (kept : ServerName → ServedRun P → Prop) {serverName : ServerName}
    {env : CallEnv P} {request : ServerRequest P}
    (taken : kept serverName (world.served serverName) →
      kept serverName ((world.served serverName).take (config serverName) env request))
    {other : ServerName} (before : kept other (world.served other)) :
    kept other ((world.callServer config serverName env request).served other) := by
  simp only [callServer, Function.update_apply]
  split
  · rename_i same
    subst same
    exact taken before
  · exact before

/-- An installation stays vouched for when a server is called, if no token is drawn again. -/
theorem VouchedFor.callServer {installation : Nat} {identity : Identity P}
    (vouched : world.VouchedFor config installation identity) {serverName : ServerName}
    {env : CallEnv P}
    (unused : (world.served serverName).db.authTokenExists env.freshToken = false)
    (request : ServerRequest P) :
    (world.callServer config serverName env request).VouchedFor config installation identity := by
  obtain ⟨home, registered, enlisted⟩ := vouched
  exact ⟨home, registered, served_callServer
    (fun name run => run.Enlisted (config name) identity.username identity.certChain
      identity.deviceSecret) (fun before => before.take unused request) enlisted⟩

/-- What a server has accepted of a call it keeps when it is called. -/
theorem Backed.callServer {stage : FinishStage P} (backed : world.Backed config stage)
    {serverName : ServerName} {env : CallEnv P}
    (unused : (world.served serverName).db.authTokenExists env.freshToken = false)
    (request : ServerRequest P) :
    (world.callServer config serverName env request).Backed config stage := by
  cases stage with
  | mediumKey bundle home auth =>
      exact served_callServer
        (fun name run => run.Admitted (config name) bundle.username bundle.certChain auth)
        (fun before => before.take unused request) backed
  | persist bundle home mediumSk =>
      exact served_callServer
        (fun name run => run.Enlisted (config name) bundle.username bundle.certChain
          bundle.deviceSecret) (fun before => before.take unused request) backed
  | _ => trivial

/-- The invariant holds after a call of a server, if no token is drawn again. -/
theorem Sound.callServer (sound : world.Sound config) {serverName : ServerName} {env : CallEnv P}
    (unused : (world.served serverName).db.authTokenExists env.freshToken = false)
    (request : ServerRequest P) :
    (world.callServer config serverName env request).Sound config where
  sourced other := served_callServer (fun name run => run.Sourced (config name))
    (fun before => before.take env request) (sound.sourced other)
  tokens other := served_callServer (fun _ run => run.db.OwnTokens)
    (ServerDb.ownTokens_handle unused request) (sound.tokens other)
  calls call installation stage under :=
    (sound.calls call installation stage under).callServer unused request
  identities installation identity row :=
    (sound.identities installation identity row).callServer unused request

/-- A call which goes on or ends. -/
theorem Sound.proceed (sound : world.Sound config) (call installation : Nat)
    (stage : Option (FinishStage P)) (backed : ∀ next, stage = some next →
      world.Backed config next) :
    Sound config { world with
      calls := Function.update world.calls call
        (stage.map fun next => (installation, next)) } where
  sourced := sound.sourced
  tokens := sound.tokens
  calls other home next under := by
    simp only [Function.update_apply] at under
    split at under
    · obtain ⟨found, rfl, same⟩ := Option.map_eq_some_iff.mp under
      cases same
      exact backed next rfl
    · exact sound.calls other home next under
  identities := sound.identities

/-- A row which is written. -/
theorem Sound.write (sound : world.Sound config) (installation : Nat) {serverName : ServerName}
    {identity : Identity P}
    (enlisted : (world.served serverName).Enlisted (config serverName) identity.username
      identity.certChain identity.deviceSecret) :
    Sound config { world with
      identities := Function.update world.identities installation (some identity)
      homes := Function.update world.homes installation (some serverName) } where
  sourced := sound.sourced
  tokens := sound.tokens
  calls := sound.calls
  identities other row found := by
    simp only [Function.update_apply] at found
    simp only [VouchedFor, Function.update_apply]
    split at found
    · rename_i same
      cases found
      exact ⟨serverName, if_pos same, enlisted⟩
    · rename_i apart
      rw [if_neg apart]
      exact sound.identities other row found

/-- A medium-term key verifies under the key of the secret which has signed it. -/
theorem verify_signedMediumPk (exclusive : P.SignsExclusively) {secret : P.SigningSecret}
    {mediumSk : P.DhSecret} {created : Timestamp} {key : P.SigningPublic}
    (verified : Signable.verify (signedMediumPk secret mediumSk created) key = true) :
    key = P.publicKey secret := exclusive secret _ key verified

/-- The outcome of a step is sound, and so is the stage where the call goes on. -/
def SoundOutcome (config : ServerName → ServerConfig)
    (outcome : InstallWorld P × Except InternalRpcError (Option (FinishStage P))) : Prop :=
  outcome.1.Sound config ∧
    ∀ stage, outcome.2 = .ok (some stage) → outcome.1.Backed config stage

/-- The invariant holds after a step which fails and leaves the world. -/
theorem Sound.fails (sound : world.Sound config) (err : InternalRpcError) :
    SoundOutcome config (world, .error err) :=
  ⟨sound, fun stage goes => by cases goes⟩

/-- The invariant holds where a call ends. -/
theorem Sound.ends (sound : world.Sound config) : SoundOutcome config (world, .ok none) :=
  ⟨sound, fun stage goes => by cases goes⟩

/-- The invariant holds where a call goes on and its server has accepted as much. -/
theorem Sound.goesOn (sound : world.Sound config) {stage : FinishStage P}
    (backed : world.Backed config stage) : SoundOutcome config (world, .ok (some stage)) := by
  refine ⟨sound, ?_⟩
  rintro next ⟨⟩
  exact backed

/-- The call of the token: the server admits the device, or refuses. -/
theorem Sound.authenticate (sound : world.Sound config) (env : FinishEnv P) (installation : Nat)
    (bundle : BundleInner P) (serverName : ServerName)
    (unused : (world.served serverName).db.authTokenExists env.call.freshToken = false) :
    SoundOutcome config
      (world.perform config env installation (.deviceAuth bundle serverName)) := by
  have called := sound.callServer unused (.deviceAuth bundle.username bundle.certChain)
  simp only [perform]
  split
  · exact called.fails _
  · rename_i auth accepted
    refine called.goesOn ?_
    simp only [Backed, InstallWorld.callServer, Function.update_self]
    exact ServedRun.admitted_deviceAuth unused accepted

/-- The call with the medium-term key: the server takes it from the device's holder only. -/
theorem Sound.sendKey (free : P.CollisionFree) (exclusive : P.SignsExclusively)
    (sound : world.Sound config) (env : FinishEnv P) (installation : Nat)
    {bundle : BundleInner P} {serverName : ServerName} {auth : AuthToken}
    (backed : world.Backed config (.mediumKey bundle serverName auth))
    (unused : (world.served serverName).db.authTokenExists env.call.freshToken = false) :
    SoundOutcome config
      (world.perform config env installation (.mediumKey bundle serverName auth)) := by
  have called := sound.callServer unused
    (.deviceAddMediumPk auth (signedMediumPk bundle.deviceSecret env.mediumSk env.created))
  simp only [perform]
  split
  · exact called.fails _
  · rename_i accepted
    refine called.goesOn ?_
    simp only [Backed, InstallWorld.callServer, Function.update_self]
    exact ServedRun.Admitted.enlisted free backed (sound.tokens serverName) unused
      (fun _ => verify_signedMediumPk exclusive) accepted

/-- The invariant holds after one step of `register_finish`. -/
theorem Sound.perform (free : P.CollisionFree) (exclusive : P.SignsExclusively)
    (sound : world.Sound config) (env : FinishEnv P) (installation : Nat) {stage : FinishStage P}
    (backed : world.Backed config stage) (unused : world.redraws env.call stage = false) :
    SoundOutcome config (world.perform config env installation stage) := by
  cases stage with
  | deviceAuth bundle serverName =>
      exact sound.authenticate env installation bundle serverName unused
  | mediumKey bundle serverName auth =>
      exact sound.sendKey free exclusive env installation backed unused
  | persist bundle serverName mediumSk =>
      simp only [InstallWorld.perform]
      split
      · exact sound.fails _
      · refine Sound.ends ?_
        exact sound.write installation backed
  | checkName username serverName =>
      simp only [InstallWorld.perform]
      split
      · exact sound.fails _
      · exact sound.fails _
      · exact sound.goesOn trivial
  | findUser bundle =>
      simp only [InstallWorld.perform]
      split
      · exact sound.fails _
      · exact sound.fails _
      · split
        · exact sound.fails _
        · exact sound.goesOn trivial
  | findServer | addOwner | insertDescriptor | findHome =>
      simp only [InstallWorld.perform]
      split
      · exact sound.fails _
      · exact sound.goesOn trivial

/-- A call goes on from an outcome which names its next stage. -/
theorem onward_eq_some {outcome : Except InternalRpcError (Option (FinishStage P))}
    {stage : FinishStage P} : onward outcome = some stage ↔ outcome = .ok (some stage) := by
  cases outcome with
  | error err => simp [onward]
  | ok next => rw [onward, Except.ok.injEq]

/-- The invariant holds after a call has made its step. -/
theorem Sound.advance (free : P.CollisionFree) (exclusive : P.SignsExclusively)
    (sound : world.Sound config) {call installation : Nat} {stage : FinishStage P}
    (env : FinishEnv P) (backed : world.Backed config stage)
    (unused : world.redraws env.call stage = false) :
    (world.advance config call env installation stage).Sound config := by
  obtain ⟨after, onwards⟩ := sound.perform free exclusive env installation backed unused
  rw [InstallWorld.advance]
  split
  · exact after.proceed call installation _ fun next goes => onwards next (onward_eq_some.mp goes)
  · exact sound.proceed call installation none (fun next goes => by cases goes)
  · exact after.proceed call installation none (fun next goes => by cases goes)

/-- Every step in which no token is drawn again keeps the invariant. -/
theorem Sound.step (free : P.CollisionFree) (exclusive : P.SignsExclusively)
    (sound : world.Sound config) {next : InstallWorld P} {event : InstallEvent P}
    (taken : (machine config).step world event = some next) : next.Sound config := by
  cases event with
  | register call installation request =>
      simp only [machine] at taken
      split at taken
      · cases taken
      · cases taken
        exact sound
      · cases taken
        exact sound
      · rename_i stage _ _ begins
        cases taken
        refine sound.proceed call installation (some stage) ?_
        rintro first ⟨⟩
        cases request with
        | bootstrapNewUser username serverName =>
            cases begins
            trivial
        | addDevice bundle =>
            obtain ⟨_, _, rfl⟩ := Option.map_eq_some_iff.mp begins
            trivial
  | advance call env =>
      simp only [machine] at taken
      split at taken
      · cases taken
      · rename_i installation stage under
        split at taken
        · cases taken
        · rename_i unused
          cases taken
          exact sound.advance free exclusive env (sound.calls call installation stage under)
            (Bool.not_eq_true _ ▸ unused)
  | stop installation =>
      cases taken
      refine ⟨sound.sourced, sound.tokens, ?_, sound.identities⟩
      intro call other stage under
      obtain ⟨before, _⟩ := Option.filter_eq_some_iff.mp under
      exact sound.calls call other stage before
  | maintain installation serverName current prev =>
      cases taken
      refine ⟨sound.sourced, sound.tokens, sound.calls, ?_⟩
      intro other identity found
      simp only [Function.update_apply] at found
      split at found
      · rename_i same
        subst same
        obtain ⟨before, row, rfl⟩ := Option.map_eq_some_iff.mp found
        exact sound.identities other before row
      · exact sound.identities other identity found
  | call serverName env request =>
      simp only [machine] at taken
      split at taken
      · cases taken
      · rename_i unused
        cases taken
        exact sound.callServer (Bool.not_eq_true _ ▸ unused) request

end

/-- The certificate of the device itself allows it to issue: then it makes bundles, and else
it does not. -/
theorem newDeviceBundle_iff {identity : Identity P}
    (holder : identity.certChain.lastDevice.pk = P.publicKey identity.deviceSecret)
    (newSecret : P.SigningSecret) (canIssue : Bool) (expiry : Timestamp) :
    (∃ bundle, newDeviceBundle (some identity) newSecret canIssue expiry = .ok bundle) ↔
      identity.certChain.lastDevice.canIssue = true := by
  simp only [newDeviceBundle, holder, true_and]
  split <;> simp_all

/-- In every run, whatever bundles are passed around and whatever the directory says, an
installation has an identity only as the holder of the secret of its own chain, and the server
with which it was registered has accepted this chain for its user and has a chain and a
medium-term key of the device. So the check whether a device's certificate is its own never
keeps it from issuing. -/
theorem enlisted_always (free : P.CollisionFree) (exclusive : P.SignsExclusively)
    (config : ServerName → ServerConfig) (events : List (InstallEvent P)) :
    (machine config).Always (fun world => ∀ installation identity,
      world.identities installation = some identity →
        world.VouchedFor config installation identity ∧
          ∀ newSecret canIssue expiry,
            (∃ bundle, newDeviceBundle (some identity) newSecret canIssue expiry = .ok bundle) ↔
              identity.certChain.lastDevice.canIssue = true) start events := by
  intro before position world reached installation identity row
  have sound : world.Sound config :=
    Machine.always_of_step (fun sound taken => sound.step free exclusive taken) events
      (sound_start config) before position world reached
  have vouched := sound.identities installation identity row
  refine ⟨vouched, ?_⟩
  obtain ⟨_, _, enlisted⟩ := vouched
  exact newDeviceBundle_iff enlisted.holder

open WatchedServer (envWith tokenOf)

/-- Every server goes by its name. -/
def namedServer (serverName : ServerName) : ServerConfig := ⟨serverName, true⟩

/-- A server draws the token, and the directory names the root devices. -/
def callEnv (token : UInt8) : CallEnv symbolic :=
  { envWith (tokenOf token) with descriptor := fun username => some (symbolicDirectory username) }

/-- Steps of a call which meet no failure; at each of them a server would draw a new token. -/
def installSteps (call : Nat) (descriptor : Option (UserDescriptor symbolic))
    (secret mediumSk : UInt8) (tokens : List UInt8) : List (InstallEvent symbolic) :=
  tokens.map fun token =>
    .advance call
      ⟨.works, .ok descriptor, .ok (), .ok (), 0, secret, mediumSk, 5, callEnv token⟩

/-- What Alice's first device makes for her second one. -/
def aliceBundle : BundleInner symbolic :=
  ⟨alice, 3, ⟨[(bootstrapChain (P := symbolic) 1).this],
    issueCertificate (P := symbolic) 1 3 maxTimestamp false⟩⟩

/-- Alice registers, and then her second device with its bundle. A bundle with another secret
gets as far as a token. -/
def aliceInstalls : List (InstallEvent symbolic) :=
  .register 0 0 (.bootstrapNewUser alice symbolicServer) ::
    installSteps 0 none 1 aliceMedium [1, 2, 3, 4, 5, 6, 7] ++
  .register 1 1 (.addDevice (some aliceBundle)) ::
    installSteps 1 (symbolicDirectory alice) 0 8 [8, 9, 10, 11, 12] ++
  .register 2 2 (.addDevice (some { aliceBundle with deviceSecret := 4 })) ::
    installSteps 2 (symbolicDirectory alice) 0 9 [13, 14, 15, 16]

/-- Alice's two devices are enlisted, and the bundle with another secret is not. -/
theorem enlisted_always_alice :
    ((machine namedServer).exec start aliceInstalls).map (fun world =>
        ([0, 1, 2].map fun installation => (world.identities installation).isSome)) =
      some [true, true, false] ∧
    (machine namedServer).Always (fun world => ∀ installation identity,
      world.identities installation = some identity →
        world.VouchedFor namedServer installation identity ∧
          ∀ newSecret canIssue expiry,
            (∃ bundle, newDeviceBundle (some identity) newSecret canIssue expiry = .ok bundle) ↔
              identity.certChain.lastDevice.canIssue = true) start aliceInstalls :=
  ⟨by decide +kernel,
    enlisted_always symbolic_collisionFree symbolic_signsExclusively namedServer aliceInstalls⟩

end InstallWorld
end Nullspace
