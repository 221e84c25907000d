import Nullspace.Client.RegistrationRetry

/-!
# The end of an abandoned username

When an attempt ends early while only its process holds the key of the username's owner,
the username is lost: every later attempt draws another key, and the directory takes
updates of that name from its owners only. `retriable_iff_spared` puts both halves together.
-/

namespace Nullspace

open Nullspace.Base

variable {P : Primitives}

namespace RegisterWorld

/-- An attempt adds no other owner than the key which it drew. -/
def Draws (drawn : List P.SigningPublic) : RegisterAttempt P → Prop
  | .checkName | .findServer => True
  | .fetch _ secret | .await _ secret _ | .deviceAuth secret | .mediumKey secret _
  | .persist secret _ => P.publicKey secret ∈ drawn
  | .insert _ secret signed => P.publicKey secret ∈ drawn ∧
      (∀ owner, signed.updateType = .addOwner owner → owner = P.publicKey secret) ∧
      signed.signature = P.sign secret (Signable.signedValue signed)

/-- The directory's history is valid, and its owners were drawn. -/
structure Recorded (world : RegisterWorld P) : Prop where
  valid : ValidHistory world.accepted
  owners : ownersFrom [] world.accepted ⊆ world.drawn
  attempt : ∀ phase, world.attempt = some phase → Draws world.drawn phase

section Abandonment

variable {request : RegisterRequest} {world next : RegisterWorld P}

/-- Without an attempt the record depends on what was accepted and drawn. -/
theorem Recorded.idle (recorded : Recorded world) (attempt : next.attempt = none)
    (accepted : next.accepted = world.accepted) (drawn : next.drawn = world.drawn) :
    Recorded next where
  valid := accepted ▸ recorded.valid
  owners := accepted ▸ drawn ▸ recorded.owners
  attempt phase running := by
    rw [attempt] at running
    cases running

/-- An update which is signed with a drawn key adds no other owner. -/
theorem draws_sign {update : NameUpdate} {response : DirectoryResponse P}
    {secret : P.SigningSecret} {signed : DirectoryUpdate P} {drawn : List P.SigningPublic}
    (own : P.publicKey secret ∈ drawn)
    (made : update.sign request response secret = .ok signed) :
    Draws drawn (.insert update secret signed) := by
  cases update with
  | owner =>
      simp only [NameUpdate.sign, addOwner, operationUpdate] at made
      split at made
      · cases made
      · cases made
        exact ⟨own, fun owner adds => (DirectoryUpdateInner.addOwner.inj adds).symm, rfl⟩
  | descriptor =>
      simp only [NameUpdate.sign, insertUserDescriptor, operationUpdate] at made
      split at made
      · cases made
      · cases made
        exact ⟨own, (by rintro owner ⟨⟩), rfl⟩

/-- An accepted insertion of a drawn key. -/
theorem Recorded.insert {update : NameUpdate} {secret : P.SigningSecret}
    {signed : DirectoryUpdate P} (recorded : Recorded world)
    (draws : Draws world.drawn (.insert update secret signed))
    (inserted : world.insertUpdate signed = .ok next) :
    ValidHistory next.accepted ∧ ownersFrom [] next.accepted ⊆ next.drawn ∧
      next.drawn = world.drawn := by
  rw [insertUpdate] at inserted
  split at inserted
  · cases inserted
  · rename_i valid
    cases inserted
    refine ⟨valid, ?_, rfl⟩
    dsimp only
    rw [ownersFrom, List.foldl_append]
    change nextOwners (ownersFrom [] world.accepted) signed.updateType ⊆ world.drawn
    cases kind : signed.updateType with
    | addOwner owner =>
        rw [nextOwners, draws.2.1 owner kind]
        split
        · exact recorded.owners
        · exact List.append_subset.mpr
            ⟨recorded.owners, List.cons_subset.mpr ⟨draws.1, List.nil_subset _⟩⟩
    | delOwner owner => exact fun _ listed => recorded.owners (List.mem_of_mem_filter listed)
    | update blob => exact recorded.owners

/-- Every step of an attempt keeps the record, whether it goes on or not. -/
theorem Recorded.perform (request : RegisterRequest) (env : RegisterEnv P)
    {phase : RegisterAttempt P} (recorded : Recorded world) (draws : Draws world.drawn phase) :
    Recorded { (perform request env world phase).1 with attempt := none } ∧
      ∀ later, (perform request env world phase).2 = .ok (some later) →
        Draws (perform request env world phase).1.drawn later := by
  have same : Recorded { world with attempt := none } := recorded.idle rfl rfl rfl
  cases phase with
  | checkName =>
      simp only [RegisterWorld.perform]
      split
      · exact ⟨same, by simp⟩
      · exact ⟨same, by simp⟩
      · exact ⟨same, by rintro later ⟨⟩; trivial⟩
  | findServer =>
      simp only [RegisterWorld.perform]
      split
      · refine ⟨⟨recorded.valid, ?_, by simp⟩, ?_⟩
        · exact fun owner listed => List.mem_append_left _ (recorded.owners listed)
        · rintro later ⟨⟩
          exact List.mem_append_right _ (List.mem_singleton_self _)
      · exact ⟨same, by simp⟩
  | fetch update secret =>
      simp only [RegisterWorld.perform]
      split
      · exact ⟨same, by simp⟩
      · rename_i signed made
        refine ⟨same, ?_⟩
        rintro later ⟨⟩
        exact draws_sign draws made
  | insert update secret signed =>
      simp only [RegisterWorld.perform]
      split
      · exact ⟨same, by simp⟩
      · rename_i next inserted
        obtain ⟨valid, owners, drawn⟩ := recorded.insert draws inserted
        refine ⟨⟨valid, owners, by simp⟩, ?_⟩
        rintro later ⟨⟩
        exact drawn ▸ draws.1
  | await update secret signed =>
      simp only [RegisterWorld.perform]
      split
      · refine ⟨same, ?_⟩
        rintro later ⟨⟩
        cases update <;> exact draws
      · refine ⟨same, ?_⟩
        rintro later ⟨⟩
        exact draws
  | deviceAuth secret =>
      simp only [RegisterWorld.perform]
      split
      · exact ⟨⟨recorded.valid, recorded.owners, by simp⟩, by simp⟩
      · refine ⟨⟨recorded.valid, recorded.owners, by simp⟩, ?_⟩
        rintro later ⟨⟩
        exact draws
  | mediumKey secret auth =>
      simp only [RegisterWorld.perform]
      split
      · exact ⟨⟨recorded.valid, recorded.owners, by simp⟩, by simp⟩
      · refine ⟨⟨recorded.valid, recorded.owners, by simp⟩, ?_⟩
        rintro later ⟨⟩
        exact draws
  | persist secret mediumSk =>
      simp only [RegisterWorld.perform, persistIdentity]
      split
      · exact ⟨same, by simp⟩
      · rename_i stored
        split at stored
        · cases stored
        · cases stored
          exact ⟨⟨recorded.valid, recorded.owners, by simp⟩, by simp⟩

/-- A step of an attempt with a drawn key keeps the record. -/
theorem Recorded.settle {env : RegisterEnv P} {phase : RegisterAttempt P}
    (recorded : Recorded world) (draws : Draws world.drawn phase) :
    Recorded (settle (RegisterWorld.perform request env world phase)) := by
  obtain ⟨kept, later⟩ := recorded.perform request env draws
  cases outcome : RegisterWorld.perform request env world phase with
  | mk after result =>
      rw [outcome] at kept later
      cases result with
      | error err => exact kept
      | ok attempt =>
          refine ⟨kept.valid, kept.owners, ?_⟩
          rintro phase ⟨⟩
          exact later phase rfl

/-- Every step keeps the record. -/
theorem Recorded.step {event : RegisterEvent P} (recorded : Recorded world)
    (taken : (machine request).step world event = some next) : Recorded next := by
  cases event with
  | begin =>
      simp only [machine] at taken
      split at taken
      · cases taken
      · cases taken
        exact recorded
      · cases taken
        refine ⟨recorded.valid, recorded.owners, ?_⟩
        rintro phase ⟨⟩
        trivial
  | stop =>
      cases taken
      exact recorded.idle rfl rfl rfl
  | commit =>
      cases taken
      exact ⟨recorded.valid, recorded.owners, recorded.attempt⟩
  | advance env =>
      simp only [machine] at taken
      split at taken
      · cases taken
      · rename_i phase attempt
        have draws := recorded.attempt phase attempt
        split at taken
        · cases taken
        · split at taken
          · cases taken
            exact recorded.settle draws
          · cases taken
            exact recorded.idle rfl rfl rfl
          · cases taken
            exact (recorded.perform request env draws).1

/-- The attempt is not for a key which owns the username. -/
def Foreign (owners : List P.SigningPublic) : RegisterAttempt P → Prop
  | .checkName | .findServer => True
  | .fetch .owner secret | .insert .owner secret _ => P.publicKey secret ∉ owners
  | _ => False

/-- The username has an owner, and whoever tries to register it has another key. -/
structure Lost (world : RegisterWorld P) : Prop where
  recorded : Recorded world
  identity : world.identity = none
  owners : ownersFrom [] world.accepted ≠ []
  attempt : ∀ phase, world.attempt = some phase → Foreign (ownersFrom [] world.accepted) phase

/-- An abandoned username is lost. -/
theorem Abandoned.lost (abandoned : Abandoned world) (recorded : Recorded world) : Lost world where
  recorded := recorded
  identity := abandoned.identity
  owners := abandoned.owners
  attempt phase running := by
    rw [abandoned.attempt] at running
    cases running

/-- A first update under a foreign key does not extend the history. -/
theorem Lost.rejects (exclusive : P.SignsExclusively) (lost : Lost world)
    {secret : P.SigningSecret} {signed : DirectoryUpdate P}
    (attempt : world.attempt = some (.insert .owner secret signed)) :
    ∃ err, world.insertUpdate signed = .error err := by
  rw [insertUpdate]
  cases verdict : verifyHistory (world.accepted ++ [signed]) with
  | error err => exact ⟨_, rfl⟩
  | ok =>
      have foreign : P.publicKey secret ∉ ownersFrom [] world.accepted := lost.attempt _ attempt
      rcases (validHistory_snoc.mp verdict).2.2 with ⟨_, owner, owns, verified⟩ | ⟨empty, _⟩
      · have draws := lost.recorded.attempt _ attempt
        rw [Signable.verify, show Signable.signature signed = _ from draws.2.2] at verified
        rw [exclusive secret _ owner verified] at owns
        exact absurd owns foreign
      · exact absurd empty lost.owners

/-- A step for a lost username ends the attempt or goes on with a foreign key. -/
theorem Lost.perform (request : RegisterRequest) (env : RegisterEnv P)
    (exclusive : P.SignsExclusively) {phase : RegisterAttempt P} (lost : Lost world)
    (attempt : world.attempt = some phase)
    (undrawn : phase.redraws world.drawn env.secret = false) :
    (RegisterWorld.perform request env world phase).1.accepted = world.accepted ∧
      (RegisterWorld.perform request env world phase).1.identity = none ∧
      ∀ later, (RegisterWorld.perform request env world phase).2 = .ok later →
        ∀ phase, later = some phase → Foreign (ownersFrom [] world.accepted) phase := by
  have foreign := lost.attempt phase attempt
  cases phase with
  | checkName =>
      simp only [RegisterWorld.perform]
      split
      · exact ⟨rfl, lost.identity, by simp⟩
      · exact ⟨rfl, lost.identity, by simp⟩
      · refine ⟨rfl, lost.identity, ?_⟩
        rintro later ⟨⟩ phase ⟨⟩
        trivial
  | findServer =>
      have fresh : P.publicKey env.secret ∉ world.drawn := fun drawn =>
        Bool.eq_false_iff.mp undrawn (List.contains_iff_mem.mpr drawn)
      simp only [RegisterWorld.perform]
      split
      · refine ⟨rfl, lost.identity, ?_⟩
        rintro later ⟨⟩ phase ⟨⟩
        exact fun owns => fresh (lost.recorded.owners owns)
      · exact ⟨rfl, lost.identity, by simp⟩
  | fetch update secret =>
      cases update with
      | descriptor => cases foreign
      | owner =>
          simp only [RegisterWorld.perform]
          split
          · exact ⟨rfl, lost.identity, by simp⟩
          · refine ⟨rfl, lost.identity, ?_⟩
            rintro later ⟨⟩ phase ⟨⟩
            exact foreign
  | insert update secret signed =>
      cases update with
      | descriptor => cases foreign
      | owner =>
          obtain ⟨err, rejected⟩ := lost.rejects exclusive attempt
          simp only [RegisterWorld.perform, rejected]
          exact ⟨trivial, lost.identity, by simp⟩
  | _ => cases foreign

/-- No step registers a lost username. -/
theorem Lost.step (exclusive : P.SignsExclusively) {event : RegisterEvent P} (lost : Lost world)
    (taken : (machine request).step world event = some next) : Lost next := by
  have recorded := lost.recorded.step taken
  cases event with
  | begin =>
      rw [machine] at taken
      dsimp only at taken
      split at taken
      · cases taken
      · cases taken
        exact lost
      · cases taken
        refine ⟨recorded, lost.identity, lost.owners, ?_⟩
        rintro phase ⟨⟩
        trivial
  | stop =>
      cases taken
      exact ⟨recorded, lost.identity, lost.owners, by simp⟩
  | commit =>
      cases taken
      exact ⟨recorded, lost.identity, lost.owners, lost.attempt⟩
  | advance env =>
      simp only [machine] at taken
      split at taken
      · cases taken
      · rename_i phase attempt
        split at taken
        · cases taken
        · rename_i undrawn
          obtain ⟨accepted, identity, later⟩ := lost.perform request env exclusive
            attempt (Bool.eq_false_of_not_eq_true undrawn)
          split at taken
          · cases outcome : RegisterWorld.perform request env world phase with
            | mk after result =>
                rw [outcome] at taken accepted identity later
                cases result with
                | error err =>
                    cases taken
                    exact ⟨recorded, identity, accepted.symm ▸ lost.owners, by simp [settle]⟩
                | ok more =>
                    cases taken
                    exact ⟨recorded, identity, accepted.symm ▸ lost.owners,
                      accepted.symm ▸ later more rfl⟩
          · cases taken
            exact ⟨recorded, lost.identity, lost.owners, by simp⟩
          · cases taken
            exact ⟨recorded, identity, accepted.symm ▸ lost.owners, by simp⟩

end Abandonment

section Runs

variable (request : RegisterRequest) (server : ServerDb P)

theorem onTrack_start
    (unknown : ∀ device, server.deviceAuthTokens.lookup (request.username, device) = none) :
    OnTrack request (start server) :=
  Stands.onTrack ⟨rfl, unknown⟩ rfl rfl

theorem recorded_start : Recorded (start server) where
  valid := validHistory_nil
  owners := List.nil_subset _
  attempt phase running := by cases running

/-- Nobody ever registers a username again which was abandoned. -/
theorem Abandoned.forever (exclusive : P.SignsExclusively) {events more : List (RegisterEvent P)}
    {world next : RegisterWorld P} (abandoned : Abandoned world)
    (reached : (machine request).exec (start server) events = some world)
    (later : (machine request).exec world more = some next) : next.identity = none := by
  have recorded : Recorded world :=
    (Machine.always_of_step (fun kept taken => Recorded.step kept taken) events
      (recorded_start server)).last reached
  have lost : Lost next :=
    (Machine.always_of_step (fun kept taken => Lost.step exclusive kept taken) more
      (abandoned.lost recorded)).last later
  exact lost.identity

/-- Along a run whose attempts are spared, a registration stays on its track. -/
theorem along_onTrack (signs : P.SignsCorrectly) (free : P.CollisionFree)
    (unknown : ∀ device, server.deviceAuthTokens.lookup (request.username, device) = none)
    {events : List (RegisterEvent P)}
    (along : (machine request).Along (Spared request) (start server) events) :
    (machine request).Always (OnTrack request) (start server) events :=
  Machine.always_of_along (fun onTrack spared taken => onTrack.step signs free spared taken)
    (onTrack_start request server unknown) along

/-- A registration can be retried throughout a run exactly when every attempt, once the
directory may have its key, is spared until its identity is on disk; what is abandoned
before stays so in every continuation. -/
theorem retriable_iff_spared (signs : P.SignsCorrectly) (exclusive : P.SignsExclusively)
    (free : P.CollisionFree)
    (unknown : ∀ device, server.deviceAuthTokens.lookup (request.username, device) = none)
    (events : List (RegisterEvent P)) :
    ((machine request).Always (Retriable request) (start server) events ↔
      (machine request).Along (Spared request) (start server) events) ∧
    ∀ world, (machine request).exec (start server) events = some world → Abandoned world →
      ∀ more next, (machine request).exec world more = some next → next.identity = none := by
  refine ⟨⟨?_, ?_⟩, ?_⟩
  · refine Machine.along_of_property
      (fun events => (machine request).Always (Retriable request) (start server) events) ?_ ?_
    · intro events shorter always within before position
      exact always before (position.trans within)
    · intro before event state next always along reached taken
      have onTrack : OnTrack request state :=
        (along_onTrack request server signs free unknown along).last reached
      exact onTrack.spared signs taken (always.last (Machine.exec_snoc.mpr ⟨state, reached, taken⟩))
  · intro along before position state reached
    have onTrack : OnTrack request state :=
      along_onTrack request server signs free unknown along before position state reached
    exact onTrack.retriable signs free
  · intro world reached abandoned more next later
    exact abandoned.forever request server exclusive reached later

end Runs

def aliceRequest : RegisterRequest := ⟨alice, ⟨symbolicServer, false⟩⟩

def aliceEnv : RegisterEnv symbolic :=
  ⟨.works, true, 7, aliceMedium, 10,
    ⟨10, 10, fun _ => some none, ⟨⟨List.replicate 20 3, by decide⟩⟩, false, none, none⟩⟩

theorem aliceEnv_calm : aliceEnv.Calm aliceRequest := by
  constructor <;> decide

/-- An attempt without any failure. -/
theorem aliceRegisters_retriable :
    (machine aliceRequest).Always (Retriable aliceRequest) (start .empty) (retry aliceEnv) := by
  refine (retriable_iff_spared aliceRequest .empty symbolic_signsCorrectly
    symbolic_signsExclusively symbolic_collisionFree (fun _ => AList.lookup_empty _) _).1.mpr ?_
  intro before event position world next _ _
  have listed : event ∈ retry aliceEnv :=
    position.subset (List.mem_append_right _ (List.mem_singleton_self event))
  cases event with
  | begin | commit => trivial
  | stop => simp [retry] at listed
  | advance env =>
      have same : env = aliceEnv := by simpa [retry] using listed
      exact same ▸ fun phase _ => aliceEnv_calm.needs phase

/-- The process stops when the directory has taken the key of the new device. -/
def stoppedRun : List (RegisterEvent symbolic) :=
  [.begin, .advance aliceEnv, .advance aliceEnv, .advance aliceEnv, .advance aliceEnv, .stop]

/-- In the run the username is lost. -/
theorem stoppedRun_abandons :
    ¬∀ events, (machine aliceRequest).Always (Retriable aliceRequest)
      (start (ServerDb.empty : ServerDb symbolic)) events := by
  intro always
  have ends : ((machine aliceRequest).exec (start .empty) stoppedRun).map (fun world =>
      (world.attempt.isNone, world.identity.isNone, ownersFrom [] world.accepted)) =
        some (true, true, [7]) := by decide +kernel
  obtain ⟨world, reached, seen⟩ := Option.map_eq_some_iff.mp ends
  simp only [Prod.mk.injEq, Option.isNone_iff_eq_none] at seen
  obtain ⟨attempt, identity, owners⟩ := seen
  have abandoned : Abandoned world := ⟨attempt, identity, owners ▸ List.cons_ne_nil _ _⟩
  exact abandoned.not_retriable ((always stoppedRun).last reached)

end RegisterWorld
end Nullspace
