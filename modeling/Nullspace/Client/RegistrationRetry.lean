import Nullspace.Client.Registration

/-!
# Retrying a registration

`OnTrack` says what the directory and the server have of an attempt at each of its steps.
The attempt can be given up and made again until the directory has its key; from there to
the row in the local database it is `exposed`. `retriable_iff_spared` says that in a run a
registration can be retried throughout exactly when no exposed attempt ends early, and
that a username which one abandons is lost.
-/

namespace Nullspace

open Nullspace.Base

variable {P : Primitives}

namespace RegisterWorld

/-- The directory has these updates of the username, and the server knows no device of it. -/
structure Stands (request : RegisterRequest) (updates : List (DirectoryUpdate P))
    (world : RegisterWorld P) : Prop where
  accepted : world.accepted = updates
  unknown : ∀ device, world.server.deviceAuthTokens.lookup (request.username, device) = none

/-- What the directory and the server have of an attempt by the time it is there. -/
def Reached (request : RegisterRequest) (world : RegisterWorld P) : RegisterAttempt P → Prop
  | .checkName | .findServer | .fetch .owner _ => Stands request [] world
  | .insert .owner secret signed => Stands request [] world ∧ signed = ownerUpdate secret
  | .await .owner secret signed =>
      Stands request [ownerUpdate secret] world ∧ signed = ownerUpdate secret
  | .fetch .descriptor secret =>
      Stands request [ownerUpdate secret] world ∧ world.shown.history = [ownerUpdate secret]
  | .insert .descriptor secret signed =>
      Stands request [ownerUpdate secret] world ∧ signed = descriptorUpdate request secret
  | .await .descriptor secret signed =>
      Stands request [ownerUpdate secret, descriptorUpdate request secret] world ∧
        signed = descriptorUpdate request secret
  | .deviceAuth secret =>
      Stands request [ownerUpdate secret, descriptorUpdate request secret] world ∧
        world.shown.history = [ownerUpdate secret, descriptorUpdate request secret]
  | .mediumKey secret auth =>
      world.accepted = [ownerUpdate secret, descriptorUpdate request secret] ∧
        Enrolled request secret auth world.server
  | .persist secret _ =>
      world.accepted = [ownerUpdate secret, descriptorUpdate request secret]

/-- The username belongs to this device. -/
structure Registered (request : RegisterRequest) (world : RegisterWorld P)
    (identity : Identity P) : Prop where
  username : identity.username = request.username
  owners : ownersFrom [] world.accepted = [P.publicKey identity.deviceSecret]

/-- The username is free, or an attempt is under way for it, or the device which owns it has
its secret on disk. -/
def OnTrack (request : RegisterRequest) (world : RegisterWorld P) : Prop :=
  match world.attempt, world.identity with
  | none, none => Stands request [] world
  | none, some identity => Registered request world identity
  | some phase, none => Reached request world phase
  | some _, some _ => False

/-- The username has an owner, and nobody has its secret. -/
structure Abandoned (world : RegisterWorld P) : Prop where
  attempt : world.attempt = none
  identity : world.identity = none
  owners : ownersFrom [] world.accepted ≠ []

section Steps

variable {request : RegisterRequest} {env : RegisterEnv P} {world : RegisterWorld P}
  {secret : P.SigningSecret}

theorem perform_checkName (stands : Stands request [] world) :
    perform request env world .checkName = (world, .ok (some .findServer)) := by
  have empty : world.shown = ⟨[], 0, []⟩ := by rw [shown, stands.accepted, List.take_nil]
  simp only [perform, empty]
  rfl

theorem perform_fetch_owner (stands : Stands request [] world) :
    perform request env world (.fetch .owner secret) =
      (world, .ok (some (.insert .owner secret (ownerUpdate secret)))) := by
  have empty : world.shown = ⟨[], 0, []⟩ := by rw [shown, stands.accepted, List.take_nil]
  simp only [perform, empty]
  rfl

/-- The first update is accepted for a free username. -/
theorem perform_insert_owner (signs : P.SignsCorrectly) (stands : Stands request [] world) :
    perform request env world (.insert .owner secret (ownerUpdate secret)) =
      ({ world with accepted := [ownerUpdate secret] },
        .ok (some (.await .owner secret (ownerUpdate secret)))) := by
  have valid : verifyHistory [ownerUpdate secret] = .ok () :=
    validHistory_ownerUpdate secret signs
  simp only [perform, insertUpdate, stands.accepted, List.nil_append, valid]

theorem perform_fetch_descriptor (signs : P.SignsCorrectly)
    (listed : world.shown.history = [ownerUpdate secret]) :
    perform request env world (.fetch .descriptor secret) =
      (world, .ok (some (.insert .descriptor secret (descriptorUpdate request secret)))) := by
  have valid : verifyHistory [ownerUpdate secret] = .ok () :=
    validHistory_ownerUpdate secret signs
  simp only [perform, NameUpdate.sign, insertUserDescriptor, operationUpdate, listed, valid]
  rfl

/-- The second update is accepted behind the first one. -/
theorem perform_insert_descriptor (signs : P.SignsCorrectly)
    (stands : Stands request [ownerUpdate secret] world) :
    perform request env world (.insert .descriptor secret (descriptorUpdate request secret)) =
      ({ world with accepted := [ownerUpdate secret, descriptorUpdate request secret] },
        .ok (some (.await .descriptor secret (descriptorUpdate request secret)))) := by
  have valid : verifyHistory [ownerUpdate secret, descriptorUpdate request secret] = .ok () :=
    validHistory_descriptorUpdate request secret signs
  simp only [perform, insertUpdate, stands.accepted, List.singleton_append, valid]

/-- The server takes the device once the directory has its descriptor. -/
theorem perform_deviceAuth (signs : P.SignsCorrectly)
    (stands : Stands request [ownerUpdate secret, descriptorUpdate request secret] world)
    (listed : world.shown.history = [ownerUpdate secret, descriptorUpdate request secret])
    (answers : (env.call.descriptor request.username).isSome) (works : env.call.dbFails = false)
    (early : env.call.clock < maxTimestamp) :
    ∃ server auth, perform request env world (.deviceAuth secret) =
      ({ world with server := server }, .ok (some (.mediumKey secret auth))) ∧
        Enrolled request secret auth server := by
  have read : getUserDescriptor world.shown = .ok (some (request.descriptor secret)) := by
    have whole : world.shown =
        ⟨[ownerUpdate secret, descriptorUpdate request secret], 0, []⟩ := by
      rw [← listed]
      rfl
    rw [whole, getUserDescriptor_descriptorUpdate request secret signs]
  obtain ⟨answer, answered⟩ := Option.isSome_iff_exists.mp answers
  have published : (world.serverCall request env.call).descriptor request.username =
      some (some (request.descriptor secret)) := by
    simp only [serverCall, if_true, answered, read]
  obtain ⟨server, auth, accepted, enrolled⟩ := deviceAuth_enrols signs request published
    works early (stands.unknown _)
  refine ⟨server, auth, ?_, enrolled⟩
  simp only [perform, accepted]

theorem perform_mediumKey (env : RegisterEnv P) (signs : P.SignsCorrectly) {auth : AuthToken}
    (enrolled : Enrolled request secret auth world.server) (works : env.call.dbFails = false)
    (fits : ServerDb.fitsI64 env.created = true) :
    ∃ server, perform request env world (.mediumKey secret auth) =
      ({ world with server := server }, .ok (some (.persist secret env.mediumSk))) := by
  obtain ⟨server, accepted⟩ :=
    deviceAddMediumPk_enrolled signs enrolled works env.mediumSk fits
  refine ⟨server, ?_⟩
  simp only [perform, accepted]

theorem perform_persist (vacant : world.identity = none) (mediumSk : P.DhSecret) :
    perform request env world (.persist secret mediumSk) =
      ({ world with identity := some (.persisted request.username request.server.serverName
          secret (bootstrapChain secret) mediumSk) }, .ok none) := by
  simp only [perform, persistIdentity, vacant]

end Steps

/-- An update which is shown before the one behind it is all that is shown. -/
theorem shown_ownerUpdate {world : RegisterWorld P} {secret : P.SigningSecret}
    (accepted : world.accepted = [ownerUpdate secret])
    (seen : (ownerUpdate secret).hash ∈ world.shown.history.map DirectoryUpdate.hash) :
    world.shown.history = [ownerUpdate secret] := by
  rw [shown, accepted] at seen ⊢
  cases count : world.committed with
  | zero => simp [count] at seen
  | succ more => exact List.take_of_length_le (by simp)

/-- Once the descriptor is shown, so is the whole history. -/
theorem shown_descriptorUpdate (free : P.CollisionFree) {request : RegisterRequest}
    {world : RegisterWorld P} {secret : P.SigningSecret}
    (accepted : world.accepted = [ownerUpdate secret, descriptorUpdate request secret])
    (seen : (descriptorUpdate request secret).hash ∈
      world.shown.history.map DirectoryUpdate.hash) :
    world.shown.history = [ownerUpdate secret, descriptorUpdate request secret] := by
  rw [shown, accepted] at seen ⊢
  match count : world.committed with
  | 0 => simp [count] at seen
  | 1 =>
      simp only [count, List.take_succ_cons, List.take_zero, List.map_cons, List.map_nil,
        List.mem_singleton] at seen
      have same : descriptorUpdate request secret = ownerUpdate secret :=
        free.bcsHash_inj.mp seen
      have linked : (ownerUpdate secret).hash = P.zeroHash :=
        congrArg DirectoryUpdate.prevUpdateHash same
      exact absurd linked (free.bcsHash_ne_zero _)
  | _ + 2 => exact List.take_of_length_le (by simp)

end RegisterWorld

namespace RegisterAttempt

/-- Only this process holds the secret of the username's owner. -/
def exposed : RegisterAttempt P → Bool
  | .checkName | .findServer | .fetch .owner _ | .insert .owner .. => false
  | _ => true

/-- What a step needs in order not to abandon the username. -/
def Needs (request : RegisterRequest) (env : RegisterEnv P) : RegisterAttempt P → Prop
  | .checkName | .findServer | .fetch .owner _ => True
  | .insert .owner .. => env.fate ≠ .failsAfter
  | .fetch .descriptor _ | .insert .descriptor .. | .await .. => env.fate = .works
  | .deviceAuth _ => env.fate = .works ∧ (env.call.descriptor request.username).isSome ∧
      env.call.dbFails = false ∧ env.call.clock < maxTimestamp
  | .mediumKey .. => env.fate = .works ∧ env.call.dbFails = false ∧
      ServerDb.fitsI64 env.created = true
  | .persist .. => env.fate ≠ .failsBefore

/-- How many steps an attempt still has to take, at the least. -/
def remaining : Option (RegisterAttempt P) → Nat
  | none => 0
  | some (.persist ..) => 1
  | some (.mediumKey ..) => 2
  | some (.deviceAuth _) => 3
  | some (.await .descriptor ..) => 4
  | some (.insert .descriptor ..) => 5
  | some (.fetch .descriptor _) => 6
  | some (.await .owner ..) => 7
  | some (.insert .owner ..) => 8
  | some (.fetch .owner _) => 9
  | some .findServer => 10
  | some .checkName => 11

end RegisterAttempt

/-- Nothing fails. -/
structure RegisterEnv.Calm (request : RegisterRequest) (env : RegisterEnv P) : Prop where
  works : env.fate = .works
  serverKnown : env.serverKnown = true
  answers : (env.call.descriptor request.username).isSome
  dbWorks : env.call.dbFails = false
  early : env.call.clock < maxTimestamp
  fits : ServerDb.fitsI64 env.created = true

/-- Where nothing fails, every step has what it needs. -/
theorem RegisterEnv.Calm.needs {request : RegisterRequest} {env : RegisterEnv P}
    (calm : env.Calm request) (phase : RegisterAttempt P) : phase.Needs request env := by
  have works := calm.works
  cases phase with
  | fetch update => cases update <;> simp [RegisterAttempt.Needs, works]
  | insert update => cases update <;> simp [RegisterAttempt.Needs, works]
  | deviceAuth => exact ⟨works, calm.answers, calm.dbWorks, calm.early⟩
  | mediumKey => exact ⟨works, calm.dbWorks, calm.fits⟩
  | _ => simp [RegisterAttempt.Needs, works]

namespace RegisterWorld

/-- From the acceptance of the owner's key until the identity is on disk, nothing fails and
the process does not stop. -/
def Spared (request : RegisterRequest) (world : RegisterWorld P) : RegisterEvent P → Prop
  | .begin | .commit => True
  | .stop => ∀ phase, world.attempt = some phase → phase.exposed = false
  | .advance env => ∀ phase, world.attempt = some phase → phase.Needs request env

/-- One more attempt, with the directory committing before each step. -/
def retry (env : RegisterEnv P) : List (RegisterEvent P) :=
  .begin :: (List.replicate 11 [.commit, .advance env]).flatten

/-- After an attempt whoever owns the username has his secret on disk, and as long as nobody
is registered, another attempt registers the username. -/
structure Retriable (request : RegisterRequest) (world : RegisterWorld P) : Prop where
  held : world.attempt = none → ∀ owner ∈ ownersFrom [] world.accepted,
    ∃ identity, world.identity = some identity ∧ owner = P.publicKey identity.deviceSecret
  retry : world.attempt = none → world.identity = none → ∀ env : RegisterEnv P,
    env.Calm request → P.publicKey env.secret ∉ world.drawn →
      ∃ next identity, (machine request).exec world (retry env) = some next ∧
        next.identity = some identity ∧ Registered request next identity

/-- Where a step leads which meets no failure. -/
inductive Advanced (request : RegisterRequest) (world : RegisterWorld P)
    (phase : RegisterAttempt P) : RegisterWorld P → Prop
  | on {next : RegisterWorld P} {later : RegisterAttempt P} (attempt : next.attempt = some later)
      (identity : next.identity = none) (reached : Reached request next later)
      (drawn : phase ≠ .findServer → next.drawn = world.drawn)
      (fewer : RegisterAttempt.remaining (some later) + 1 =
        RegisterAttempt.remaining (some phase)) :
      Advanced request world phase next
  | waits {next : RegisterWorld P} (attempt : next.attempt = some phase)
      (identity : next.identity = none) (reached : Reached request next phase)
      (behind : world.shown.history ≠ world.accepted) :
      Advanced request world phase next
  | registered {next : RegisterWorld P} {identity : Identity P} (attempt : next.attempt = none)
      (stored : next.identity = some identity) (registered : Registered request next identity)
      (last : RegisterAttempt.remaining (some phase) = 1) :
      Advanced request world phase next

/-- A step with what it needs leads on. -/
theorem settle_advanced (signs : P.SignsCorrectly) (free : P.CollisionFree)
    {request : RegisterRequest} {env : RegisterEnv P} {world : RegisterWorld P}
    {phase : RegisterAttempt P} (reached : Reached request world phase)
    (vacant : world.identity = none) (needs : phase.Needs request env)
    (known : phase = .findServer → env.serverKnown = true) :
    Advanced request world phase (settle (perform request env world phase)) := by
  cases phase with
  | checkName =>
      rw [perform_checkName reached]
      exact .on rfl vacant ⟨reached.accepted, reached.unknown⟩ (fun _ => rfl) rfl
  | findServer =>
      rw [perform, if_pos (known rfl)]
      exact .on rfl vacant ⟨reached.accepted, reached.unknown⟩ (fun other => absurd rfl other) rfl
  | fetch update secret =>
      cases update with
      | owner =>
          rw [perform_fetch_owner reached]
          exact .on rfl vacant ⟨⟨reached.accepted, reached.unknown⟩, rfl⟩ (fun _ => rfl) rfl
      | descriptor =>
          obtain ⟨stands, listed⟩ := reached
          rw [perform_fetch_descriptor signs listed]
          exact .on rfl vacant ⟨⟨stands.accepted, stands.unknown⟩, rfl⟩ (fun _ => rfl) rfl
  | insert update secret signed =>
      cases update with
      | owner =>
          obtain ⟨stands, rfl⟩ := reached
          rw [perform_insert_owner signs stands]
          exact .on rfl vacant ⟨⟨rfl, stands.unknown⟩, rfl⟩ (fun _ => rfl) rfl
      | descriptor =>
          obtain ⟨stands, rfl⟩ := reached
          rw [perform_insert_descriptor signs stands]
          exact .on rfl vacant ⟨⟨rfl, stands.unknown⟩, rfl⟩ (fun _ => rfl) rfl
  | await update secret signed =>
      by_cases seen : signed.hash ∈ world.shown.history.map DirectoryUpdate.hash
      · rw [perform, if_pos seen]
        cases update with
        | owner =>
            obtain ⟨stands, rfl⟩ := reached
            have listed := shown_ownerUpdate stands.accepted seen
            exact .on rfl vacant ⟨⟨stands.accepted, stands.unknown⟩, listed⟩ (fun _ => rfl) rfl
        | descriptor =>
            obtain ⟨stands, rfl⟩ := reached
            have listed := shown_descriptorUpdate free stands.accepted seen
            exact .on rfl vacant ⟨⟨stands.accepted, stands.unknown⟩, listed⟩ (fun _ => rfl) rfl
      · rw [perform, if_neg seen]
        cases update with
        | owner =>
            obtain ⟨stands, rfl⟩ := reached
            refine .waits rfl vacant ⟨⟨stands.accepted, stands.unknown⟩, rfl⟩ ?_
            rintro whole
            rw [whole, stands.accepted] at seen
            exact seen (List.mem_singleton_self _)
        | descriptor =>
            obtain ⟨stands, rfl⟩ := reached
            refine .waits rfl vacant ⟨⟨stands.accepted, stands.unknown⟩, rfl⟩ ?_
            rintro whole
            rw [whole, stands.accepted] at seen
            exact seen (List.mem_cons_of_mem _ (List.mem_singleton_self _))
  | deviceAuth secret =>
      obtain ⟨stands, listed⟩ := reached
      obtain ⟨_, answers, dbWorks, early⟩ := needs
      obtain ⟨server, auth, performed, enrolled⟩ :=
        perform_deviceAuth signs stands listed answers dbWorks early
      rw [performed]
      exact .on rfl vacant ⟨stands.accepted, enrolled⟩ (fun _ => rfl) rfl
  | mediumKey secret auth =>
      obtain ⟨accepted, enrolled⟩ := reached
      obtain ⟨_, dbWorks, fits⟩ := needs
      obtain ⟨server, performed⟩ := perform_mediumKey env signs enrolled dbWorks fits
      rw [performed]
      exact .on rfl vacant accepted (fun _ => rfl) rfl
  | persist secret mediumSk =>
      rw [perform_persist vacant]
      have owners : ownersFrom [] world.accepted = [P.publicKey secret] := by
        rw [show world.accepted = _ from reached]
        exact owners_descriptorUpdate request secret
      exact .registered rfl rfl ⟨rfl, owners⟩ rfl

/-- What an attempt has reached stays when the directory commits. -/
theorem Reached.commit {request : RegisterRequest} {world : RegisterWorld P}
    {phase : RegisterAttempt P} (reached : Reached request world phase) :
    Reached request world.commit phase := by
  have whole : world.commit.shown.history = world.accepted := List.take_length
  cases phase with
  | fetch update =>
      cases update with
      | owner => exact ⟨reached.accepted, reached.unknown⟩
      | descriptor =>
          obtain ⟨stands, _⟩ := reached
          exact ⟨⟨stands.accepted, stands.unknown⟩, whole.trans stands.accepted⟩
  | insert update | await update =>
      cases update <;> exact ⟨⟨reached.1.accepted, reached.1.unknown⟩, reached.2⟩
  | deviceAuth =>
      obtain ⟨stands, _⟩ := reached
      exact ⟨⟨stands.accepted, stands.unknown⟩, whole.trans stands.accepted⟩
  | mediumKey => exact ⟨reached.1, reached.2⟩
  | persist => exact reached
  | _ => exact ⟨reached.accepted, reached.unknown⟩

section Track

variable {request : RegisterRequest} {world : RegisterWorld P}

/-- An attempt under way has what it should have reached. -/
theorem OnTrack.reached (onTrack : OnTrack request world) {phase : RegisterAttempt P}
    (attempt : world.attempt = some phase) :
    world.identity = none ∧ Reached request world phase := by
  rw [OnTrack, attempt] at onTrack
  cases identity : world.identity with
  | none => exact ⟨rfl, by simpa only [identity] using onTrack⟩
  | some identity => simp only [identity] at onTrack

/-- Before an attempt the username is free. -/
theorem OnTrack.stands (onTrack : OnTrack request world) (attempt : world.attempt = none)
    (identity : world.identity = none) : Stands request [] world := by
  rw [OnTrack, attempt, identity] at onTrack
  exact onTrack

/-- The stored identity owns the username. -/
theorem OnTrack.registered (onTrack : OnTrack request world) (attempt : world.attempt = none)
    {identity : Identity P} (stored : world.identity = some identity) :
    Registered request world identity := by
  rw [OnTrack, attempt, stored] at onTrack
  exact onTrack

theorem Stands.onTrack (stands : Stands request [] world) (attempt : world.attempt = none)
    (identity : world.identity = none) : OnTrack request world := by
  rw [OnTrack, attempt, identity]
  exact stands

theorem Registered.onTrack {identity : Identity P} (registered : Registered request world identity)
    (attempt : world.attempt = none) (stored : world.identity = some identity) :
    OnTrack request world := by
  rw [OnTrack, attempt, stored]
  exact registered

theorem Reached.onTrack {phase : RegisterAttempt P} (reached : Reached request world phase)
    (attempt : world.attempt = some phase) (identity : world.identity = none) :
    OnTrack request world := by
  rw [OnTrack, attempt, identity]
  exact reached

theorem Advanced.onTrack {phase : RegisterAttempt P} {next : RegisterWorld P}
    (advanced : Advanced request world phase next) : OnTrack request next := by
  cases advanced with
  | on attempt identity reached => exact reached.onTrack attempt identity
  | waits attempt identity reached => exact reached.onTrack attempt identity
  | registered attempt stored registered => exact registered.onTrack attempt stored

/-- As long as nothing is exposed, the directory has no update and the server no token. -/
theorem Reached.stands {phase : RegisterAttempt P} (reached : Reached request world phase)
    (hidden : phase.exposed = false) : Stands request [] world := by
  cases phase with
  | checkName | findServer => exact reached
  | fetch update =>
      cases update with
      | owner => exact reached
      | descriptor => cases hidden
  | insert update =>
      cases update with
      | owner => exact reached.1
      | descriptor => cases hidden
  | _ => cases hidden

/-- What is exposed has an owner in the directory. -/
theorem Reached.owners {phase : RegisterAttempt P} (reached : Reached request world phase)
    (exposed : phase.exposed = true) : ownersFrom [] world.accepted ≠ [] := by
  have owned : ∃ secret, world.accepted = [ownerUpdate secret] ∨
      world.accepted = [ownerUpdate secret, descriptorUpdate request secret] := by
    cases phase with
    | checkName | findServer => cases exposed
    | fetch update secret =>
        cases update with
        | owner => cases exposed
        | descriptor => exact ⟨secret, Or.inl reached.1.accepted⟩
    | insert update secret =>
        cases update with
        | owner => cases exposed
        | descriptor => exact ⟨secret, Or.inl reached.1.accepted⟩
    | await update secret =>
        cases update with
        | owner => exact ⟨secret, Or.inl reached.1.accepted⟩
        | descriptor => exact ⟨secret, Or.inr reached.1.accepted⟩
    | deviceAuth secret => exact ⟨secret, Or.inr reached.1.accepted⟩
    | mediumKey secret => exact ⟨secret, Or.inr reached.1⟩
    | persist secret => exact ⟨secret, Or.inr reached⟩
  obtain ⟨secret, accepted | accepted⟩ := owned
  · rw [accepted, owners_ownerUpdate]
    exact List.cons_ne_nil _ _
  · rw [accepted, owners_descriptorUpdate]
    exact List.cons_ne_nil _ _

/-- What a step keeps which neither inserts an update nor talks to the server. -/
theorem Stands.perform (stands : Stands request [] world) (vacant : world.identity = none)
    (env : RegisterEnv P) {phase : RegisterAttempt P}
    (early : phase = .checkName ∨ phase = .findServer ∨ ∃ secret, phase = .fetch .owner secret) :
    Stands request [] (RegisterWorld.perform request env world phase).1 ∧
      (RegisterWorld.perform request env world phase).1.identity = none := by
  obtain rfl | rfl | ⟨secret, rfl⟩ := early
  · rw [perform_checkName stands]
    exact ⟨stands, vacant⟩
  · rw [RegisterWorld.perform]
    split
    · exact ⟨⟨stands.accepted, stands.unknown⟩, vacant⟩
    · exact ⟨stands, vacant⟩
  · rw [perform_fetch_owner stands]
    exact ⟨stands, vacant⟩

/-- A spared step which fails before its effect leaves the username free. -/
theorem Reached.failsBefore {env : RegisterEnv P} {phase : RegisterAttempt P}
    (reached : Reached request world phase) (vacant : world.identity = none)
    (needs : phase.Needs request env) (fate : env.fate = .failsBefore) :
    OnTrack request { world with attempt := none } := by
  have hidden : phase.exposed = false := by
    cases phase with
    | fetch update | insert update =>
        cases update <;> simp_all [RegisterAttempt.Needs, RegisterAttempt.exposed]
    | _ => simp_all [RegisterAttempt.Needs, RegisterAttempt.exposed]
  have stands := reached.stands hidden
  exact Stands.onTrack ⟨stands.accepted, stands.unknown⟩ rfl vacant

/-- A spared step which fails after its effect leaves the username free, unless the effect
was the last one. -/
theorem Reached.failsAfter {env : RegisterEnv P} {phase : RegisterAttempt P}
    (reached : Reached request world phase) (vacant : world.identity = none)
    (needs : phase.Needs request env) (fate : env.fate = .failsAfter) :
    OnTrack request { (perform request env world phase).1 with attempt := none } := by
  have early (stands : Stands request [] world)
      (first : phase = .checkName ∨ phase = .findServer ∨
        ∃ secret, phase = .fetch .owner secret) :
      OnTrack request { (perform request env world phase).1 with attempt := none } := by
    have kept := stands.perform vacant env first
    exact Stands.onTrack ⟨kept.1.accepted, kept.1.unknown⟩ rfl kept.2
  have stopped : env.fate ≠ .works := by
    rw [fate]
    exact Fate.noConfusion
  cases phase with
  | checkName => exact early reached (Or.inl rfl)
  | findServer => exact early reached (Or.inr (Or.inl rfl))
  | fetch update secret =>
      cases update with
      | owner => exact early reached (Or.inr (Or.inr ⟨secret, rfl⟩))
      | descriptor => exact absurd needs stopped
  | insert update =>
      cases update with
      | owner => exact absurd fate needs
      | descriptor => exact absurd needs stopped
  | await => exact absurd needs stopped
  | deviceAuth | mediumKey => exact absurd needs.1 stopped
  | persist secret mediumSk =>
      rw [perform_persist vacant]
      have owners : ownersFrom [] world.accepted = [P.publicKey secret] := by
        rw [show world.accepted = _ from reached]
        exact owners_descriptorUpdate request secret
      exact Registered.onTrack ⟨rfl, owners⟩ rfl rfl

/-- Between two attempts the track looks at the directory, the server and the identity. -/
theorem OnTrack.idle (onTrack : OnTrack request world) (attempt : world.attempt = none)
    {next : RegisterWorld P} (stays : next.attempt = none)
    (accepted : next.accepted = world.accepted) (server : next.server = world.server)
    (identity : next.identity = world.identity) : OnTrack request next := by
  rw [OnTrack, attempt] at onTrack
  rw [OnTrack, stays, identity]
  cases stored : world.identity with
  | none =>
      simp only [stored] at onTrack ⊢
      exact ⟨accepted.trans onTrack.accepted, fun device => server ▸ onTrack.unknown device⟩
  | some identity =>
      simp only [stored] at onTrack ⊢
      exact ⟨onTrack.username, accepted ▸ onTrack.owners⟩

/-- A spared step of an attempt. -/
theorem Reached.advance (signs : P.SignsCorrectly) (free : P.CollisionFree)
    {env : RegisterEnv P} {phase : RegisterAttempt P} {next : RegisterWorld P}
    (reached : Reached request world phase) (attempt : world.attempt = some phase)
    (vacant : world.identity = none) (needs : phase.Needs request env)
    (taken : (machine request).step world (.advance env) = some next) : OnTrack request next := by
  simp only [machine, attempt] at taken
  split at taken
  · cases taken
  · cases fate : env.fate with
    | works =>
        simp only [fate, Option.some.injEq] at taken
        subst taken
        by_cases known : phase = .findServer → env.serverKnown = true
        · exact (settle_advanced signs free reached vacant needs known).onTrack
        · rw [Classical.not_imp] at known
          obtain ⟨rfl, unknown⟩ := known
          rw [perform, if_neg unknown]
          have stands : Stands request [] world := reached
          exact Stands.onTrack ⟨stands.accepted, stands.unknown⟩ rfl vacant
    | failsBefore =>
        simp only [fate, Option.some.injEq] at taken
        exact taken ▸ reached.failsBefore vacant needs fate
    | failsAfter =>
        simp only [fate, Option.some.injEq] at taken
        exact taken ▸ reached.failsAfter vacant needs fate

/-- A spared step keeps the registration on its track. -/
theorem OnTrack.step (signs : P.SignsCorrectly) (free : P.CollisionFree)
    {event : RegisterEvent P} {next : RegisterWorld P} (onTrack : OnTrack request world)
    (spared : Spared request world event)
    (taken : (machine request).step world event = some next) : OnTrack request next := by
  by_cases attempt : world.attempt = none
  · cases event with
    | begin =>
        by_cases identity : world.identity = none
        · simp only [machine, attempt, identity, Option.some.injEq] at taken
          have stands := onTrack.stands attempt identity
          have reached : Reached request next .checkName := by
            rw [← taken]
            exact ⟨stands.accepted, stands.unknown⟩
          exact reached.onTrack (by rw [← taken]) (by rw [← taken])
        · obtain ⟨stored, same⟩ := Option.ne_none_iff_exists'.mp identity
          simp only [machine, attempt, same, Option.some.injEq] at taken
          exact taken ▸ onTrack
    | stop | commit =>
        cases taken
        exact onTrack.idle attempt (by first | rfl | exact attempt) rfl rfl rfl
    | advance env => simp [machine, attempt] at taken
  · obtain ⟨phase, running⟩ := Option.ne_none_iff_exists'.mp attempt
    obtain ⟨vacant, reached⟩ := onTrack.reached running
    cases event with
    | begin => simp [machine, running] at taken
    | stop =>
        cases taken
        have stands := reached.stands (spared phase running)
        exact Stands.onTrack ⟨stands.accepted, stands.unknown⟩ rfl vacant
    | commit =>
        cases taken
        exact reached.commit.onTrack running vacant
    | advance env => exact reached.advance signs free running vacant (spared phase running) taken

/-- An attempt with `steps` to go, whose device is drawn by `env` if it is not drawn yet. -/
def Attempting (request : RegisterRequest) (env : RegisterEnv P) (steps : Nat)
    (world : RegisterWorld P) : Prop :=
  ∃ phase, world.attempt = some phase ∧ world.identity = none ∧ Reached request world phase ∧
    RegisterAttempt.remaining (some phase) = steps ∧
    (10 ≤ steps → P.publicKey env.secret ∉ world.drawn)

variable {env : RegisterEnv P}

/-- Once the directory has committed, a calm step takes an attempt on. -/
theorem Attempting.step (signs : P.SignsCorrectly) (free : P.CollisionFree)
    (calm : env.Calm request) {steps : Nat} (attempting : Attempting request env steps world) :
    ∃ next, (machine request).exec world [.commit, .advance env] = some next ∧
      (steps = 1 ∧ (∃ identity, next.identity = some identity ∧
          Registered request next identity) ∨
        1 < steps ∧ Attempting request env (steps - 1) next) := by
  obtain ⟨phase, attempt, vacant, reached, rfl, undrawn⟩ := attempting
  have distinct : phase.redraws world.drawn env.secret = false := by
    cases phase with
    | findServer =>
        exact Bool.eq_false_iff.mpr fun drawn =>
          undrawn (Nat.le_refl 10) (List.contains_iff_mem.mp drawn)
    | _ => rfl
  refine ⟨settle (perform request env world.commit phase), ?_, ?_⟩
  · have moved : (machine request).step world.commit (.advance env) =
        some (settle (perform request env world.commit phase)) := by
      simp only [machine, commit, attempt, distinct, Bool.false_eq_true, if_false, calm.works]
    have commits : (machine request).step world .commit = some world.commit := rfl
    rw [Machine.exec_cons, commits, Option.bind_some, Machine.exec_cons, moved]
    rfl
  · have advanced : Advanced request world.commit phase
        (settle (perform request env world.commit phase)) :=
      settle_advanced signs free reached.commit vacant (calm.needs phase)
        fun _ => calm.serverKnown
    cases advanced with
    | @on later attempt identity reached drawn fewer =>
        have more : RegisterAttempt.remaining (some later) ≠ 0 := by
          cases later with
          | fetch update | insert update | await update => cases update <;> exact Nat.succ_ne_zero _
          | _ => exact Nat.succ_ne_zero _
        refine Or.inr ⟨by omega, later, attempt, identity, reached, by omega, ?_⟩
        intro early
        have apart : phase ≠ .findServer := by
          rintro rfl
          simp only [RegisterAttempt.remaining] at early
          omega
        rw [drawn apart]
        exact undrawn (by omega)
    | waits attempt identity reached behind => exact absurd List.take_length behind
    | @registered identity attempt stored registered last =>
        exact Or.inl ⟨last, identity, stored, registered⟩

/-- An attempt which meets no failure registers the username. -/
theorem Attempting.registers (signs : P.SignsCorrectly) (free : P.CollisionFree)
    (calm : env.Calm request) {steps : Nat}
    (attempting : Attempting request env (steps + 1) world) :
    ∃ next identity, (machine request).exec world
        (List.replicate (steps + 1) [.commit, .advance env]).flatten = some next ∧
      next.identity = some identity ∧ Registered request next identity := by
  induction steps generalizing world with
  | zero =>
      obtain ⟨next, ran, ⟨_, identity, stored, registered⟩ | ⟨more, _⟩⟩ :=
        attempting.step signs free calm
      · exact ⟨next, identity, ran, stored, registered⟩
      · omega
  | succ steps ih =>
      obtain ⟨middle, ran, ⟨last, _⟩ | ⟨_, later⟩⟩ := attempting.step signs free calm
      · omega
      · obtain ⟨next, identity, rest, stored, registered⟩ := ih later
        refine ⟨next, identity, ?_, stored, registered⟩
        rw [List.replicate_succ, List.flatten_cons, Machine.exec_append, ran, Option.bind_some]
        exact rest

/-- On its track a registration can be retried. -/
theorem OnTrack.retriable (signs : P.SignsCorrectly) (free : P.CollisionFree)
    (onTrack : OnTrack request world) : Retriable request world where
  held attempt owner owns := by
    by_cases identity : world.identity = none
    · rw [(onTrack.stands attempt identity).accepted] at owns
      cases owns
    · obtain ⟨device, stored⟩ := Option.ne_none_iff_exists'.mp identity
      refine ⟨device, stored, ?_⟩
      rw [(onTrack.registered attempt stored).owners] at owns
      exact List.mem_singleton.mp owns
  retry attempt identity env calm undrawn := by
    have begins : (machine request).step world .begin =
        some { world with attempt := some .checkName } := by
      simp only [machine, attempt, identity]
    have stands := onTrack.stands attempt identity
    have attempting : Attempting request env 11 { world with attempt := some .checkName } :=
      ⟨.checkName, rfl, identity, ⟨stands.accepted, stands.unknown⟩, rfl, fun _ => undrawn⟩
    obtain ⟨next, device, ran, stored, registered⟩ := attempting.registers signs free calm
    refine ⟨next, device, ?_, stored, registered⟩
    rw [retry, Machine.exec_cons, begins, Option.bind_some]
    exact ran

/-- What a step leaves alone unless it is the last. -/
theorem perform_identity {phase : RegisterAttempt P}
    (later : ∀ secret mediumSk, phase ≠ .persist secret mediumSk) :
    (perform request env world phase).1.identity = world.identity := by
  cases phase with
  | persist secret mediumSk => exact absurd rfl (later secret mediumSk)
  | insert update secret signed =>
      simp only [perform, insertUpdate]
      cases verifyHistory (world.accepted ++ [signed]) <;> rfl
  | _ =>
      simp only [perform]
      split <;> rfl

/-- Only the insertions change what the directory has. -/
theorem perform_accepted {phase : RegisterAttempt P}
    (other : ∀ update secret signed, phase ≠ .insert update secret signed) :
    (perform request env world phase).1.accepted = world.accepted := by
  cases phase with
  | insert update secret signed => exact absurd rfl (other update secret signed)
  | persist =>
      simp only [perform, persistIdentity]
      cases world.identity <;> rfl
  | _ =>
      simp only [perform]
      split <;> rfl

/-- A server which cannot look the username up, or fails, or finds the chain expired, does
not take the device. -/
theorem perform_deviceAuth_fails {secret : P.SigningSecret}
    (lacks : ¬((env.call.descriptor request.username).isSome ∧ env.call.dbFails = false ∧
      env.call.clock < maxTimestamp)) :
    ∃ server err, perform request env world (.deviceAuth secret) =
      ({ world with server := server }, .error err) := by
  rcases ServerDb.deviceAuth_cases request.server (world.serverCall request env.call)
    request.username (bootstrapChain secret) world.server with
    ⟨err, answered, _⟩ | ⟨_, _, _, ⟨⟨descriptor, published, _, verified⟩, works⟩, _⟩
  · refine ⟨world.server, .other err.message, ?_⟩
    simp only [perform, answered]
  · refine absurd ⟨?_, works, ?_⟩ lacks
    · simp only [serverCall, if_true] at published
      cases answer : env.call.descriptor request.username with
      | none => simp [answer] at published
      | some _ => rfl
    · have trusted : (bootstrapChain secret).verify env.call.clock descriptor.rootCertHash =
          .ok () := by
        rw [CertificateChain.verifies] at verified
        cases verdict : (bootstrapChain secret).verify env.call.clock descriptor.rootCertHash with
        | ok => rfl
        | error err => simp [serverCall, verdict] at verified
      exact (CertificateChain.verify_eq_ok.mp trusted).thisUnexpired

/-- A server which fails does not take the medium-term key. -/
theorem perform_mediumKey_fails {secret : P.SigningSecret} {auth : AuthToken}
    (lacks : ¬(env.call.dbFails = false ∧ ServerDb.fitsI64 env.created = true)) :
    ∃ server err, perform request env world (.mediumKey secret auth) =
      ({ world with server := server }, .error err) := by
  simp only [perform]
  split
  · exact ⟨_, _, rfl⟩
  · rename_i answered
    refine absurd ?_ lacks
    rw [ServerDb.deviceAddMediumPk] at answered
    split at answered
    · cases answered
    rename_i works
    refine ⟨Bool.eq_false_of_not_eq_true works, ?_⟩
    split at answered
    · cases answered
    split at answered
    · cases answered
    split at answered
    · cases answered
    split at answered
    · cases answered
    split at answered
    · cases answered
    split at answered
    · cases answered
    rename_i fits
    simpa [signedMediumPk] using fits

/-- A step which lacks what it needs abandons the username. -/
theorem Reached.abandons (signs : P.SignsCorrectly) {phase : RegisterAttempt P}
    {next : RegisterWorld P} (reached : Reached request world phase)
    (attempt : world.attempt = some phase) (vacant : world.identity = none)
    (lacks : ¬phase.Needs request env)
    (taken : (machine request).step world (.advance env) = some next) : Abandoned next := by
  simp only [machine, attempt] at taken
  split at taken
  · cases taken
  · cases fate : env.fate with
    | works =>
        simp only [fate, Option.some.injEq] at taken
        cases phase with
        | fetch update | insert update =>
            cases update <;> simp [RegisterAttempt.Needs, fate] at lacks
        | deviceAuth secret =>
            simp only [RegisterAttempt.Needs, fate, true_and] at lacks
            have failing : ∃ server err, perform request env world (.deviceAuth secret) =
                ({ world with server := server }, .error err) := perform_deviceAuth_fails lacks
            obtain ⟨server, err, failed⟩ := failing
            rw [failed] at taken
            subst taken
            exact ⟨rfl, vacant, reached.owners rfl⟩
        | mediumKey secret auth =>
            simp only [RegisterAttempt.Needs, fate, true_and] at lacks
            obtain ⟨server, err, failed⟩ := perform_mediumKey_fails lacks
            rw [failed] at taken
            subst taken
            exact ⟨rfl, vacant, reached.owners rfl⟩
        | _ => simp [RegisterAttempt.Needs, fate] at lacks
    | failsBefore =>
        simp only [fate, Option.some.injEq] at taken
        subst taken
        have exposed : phase.exposed = true := by
          cases phase with
          | fetch update | insert update =>
              cases update <;> simp_all [RegisterAttempt.Needs, RegisterAttempt.exposed]
          | _ => simp_all [RegisterAttempt.Needs, RegisterAttempt.exposed]
        exact ⟨rfl, vacant, reached.owners exposed⟩
    | failsAfter =>
        simp only [fate, Option.some.injEq] at taken
        subst taken
        have later : ∀ secret mediumSk, phase ≠ .persist secret mediumSk := by
          rintro secret mediumSk rfl
          simp [RegisterAttempt.Needs, fate] at lacks
        refine ⟨rfl, (perform_identity later).trans vacant, ?_⟩
        cases phase with
        | insert update secret =>
            cases update with
            | owner =>
                obtain ⟨stands, rfl⟩ := reached
                rw [perform_insert_owner signs stands]
                exact List.cons_ne_nil _ _
            | descriptor =>
                obtain ⟨stands, rfl⟩ := reached
                rw [perform_insert_descriptor signs stands]
                exact List.cons_ne_nil _ _
        | checkName | findServer => simp [RegisterAttempt.Needs] at lacks
        | fetch update =>
            rw [perform_accepted (by simp)]
            cases update with
            | owner => simp [RegisterAttempt.Needs] at lacks
            | descriptor => exact reached.owners rfl
        | persist secret mediumSk => exact absurd rfl (later secret mediumSk)
        | _ =>
            rw [perform_accepted (by simp)]
            exact reached.owners rfl

/-- An abandoned username has an owner whose secret is on no disk. -/
theorem Abandoned.not_retriable (abandoned : Abandoned world) : ¬Retriable request world := by
  intro retriable
  obtain ⟨owner, owns⟩ := List.exists_mem_of_ne_nil _ abandoned.owners
  obtain ⟨identity, stored, _⟩ := retriable.held abandoned.attempt owner owns
  rw [abandoned.identity] at stored
  cases stored

/-- A step which keeps the registration retriable was spared. -/
theorem OnTrack.spared (signs : P.SignsCorrectly) {event : RegisterEvent P}
    {next : RegisterWorld P} (onTrack : OnTrack request world)
    (taken : (machine request).step world event = some next)
    (retriable : Retriable request next) : Spared request world event := by
  cases event with
  | begin | commit => trivial
  | stop =>
      intro phase attempt
      obtain ⟨vacant, reached⟩ := onTrack.reached attempt
      cases taken
      by_contra exposed
      have abandoned : Abandoned { world with attempt := none } :=
        ⟨rfl, vacant, reached.owners (Bool.eq_true_of_not_eq_false exposed)⟩
      exact abandoned.not_retriable retriable
  | advance env =>
      intro phase attempt
      obtain ⟨vacant, reached⟩ := onTrack.reached attempt
      by_contra lacks
      exact (reached.abandons signs attempt vacant lacks taken).not_retriable retriable

end Track

end RegisterWorld
end Nullspace
