import Nullspace.DirClient.Tasks

/-!
# The name of a server

A server which starts looks its name up in the directory. Under a name without a descriptor it
makes its key an owner and inserts its own descriptor; under any other it goes on only if the
descriptor is its own. The run of `DirClient/Publishing` gets servers which do this, at any
moments and as often as they like.
-/

namespace Nullspace

open Nullspace.Base

variable {P : Primitives} {S : Smt P}

/-- Why there is no answer to the query for a descriptor. -/
inductive DescriptorError where
  | history (err : DirectoryHistoryError)
  | kind (kind : String)
  | decode
deriving DecidableEq

/-- `get_server_descriptor`, from the verified response for the name. -/
def getServerDescriptor (response : DirectoryResponse P) :
    Except DescriptorError (Option (ServerDescriptor P)) :=
  match buildListing response with
  | .error err => .error (.history err)
  | .ok listing =>
      match listing.latest with
      | none => .ok none
      | some latest =>
          if latest.kind ≠ Blob.v1ServerDescriptor then .error (.kind latest.kind)
          else
            match Bcs.fromBytes latest.inner with
            | none => .error .decode
            | some descriptor => .ok (some descriptor)

/-- What an operation signs is what it is about. -/
theorem operationUpdate_type {response : DirectoryResponse P}
    {updateType : DirectoryUpdateInner P} {signer : P.SigningSecret} {update : DirectoryUpdate P}
    (signed : operationUpdate response updateType signer = .ok update) :
    update.updateType = updateType := by
  rw [operationUpdate] at signed
  split at signed
  · cases signed
  · cases signed
    rfl

/-- What `init_name` reads of the configuration, and the process's directory client. -/
structure NameConfig (P : Primitives) where
  client : Nat
  serverName : ServerName
  publicUrls : List String
  signingSk : P.SigningSecret

namespace NameConfig

def serverPk (config : NameConfig P) : P.SigningPublic := P.publicKey config.signingSk

def descriptor (config : NameConfig P) : ServerDescriptor P :=
  ⟨config.publicUrls, config.serverPk⟩

/-- The first operation of a registration. -/
def claim (config : NameConfig P) : OwnerOperation P :=
  .addServerOwner config.serverName config.serverPk

/-- The second operation of a registration. -/
def publish (config : NameConfig P) : OwnerOperation P :=
  .insertServerDescriptor config.serverName config.descriptor

end NameConfig

/-- Where `init_name` is, with the task of the directory client which it waits for. -/
inductive InitStage where
  | asking (task : Nat)
  /-- The name has no descriptor. -/
  | unclaimed
  | claiming (task : Nat)
  | claimed
  | publishing (task : Nat)
  /-- `Ok`, after the two operations. -/
  | registered
  /-- `Ok`, since the descriptor is the server's own. -/
  | validated
  | failed
deriving DecidableEq

/-- The first operation has returned. -/
def InitStage.hasClaimed : InitStage → Bool
  | claimed | publishing _ | registered => true
  | _ => false

/-- What the answer to the first query leads to. -/
def InitStage.answer (config : NameConfig P) (response : DirectoryResponse P) : InitStage :=
  match getServerDescriptor response with
  | .error _ => failed
  | .ok none => unclaimed
  | .ok (some existing) => if existing = config.descriptor then validated else failed

/-- How `init_name` goes on when the directory clients make a step: its task may be over, with
a result or an error. -/
def InitStage.goOn (config : NameConfig P) (before after : PublishWorld S) : InitStage → InitStage
  | asking task =>
      if task ∈ after.tasks then asking task
      else
        match (before.clients config.client).answered (after.clients config.client) with
        | none => failed
        | some response => answer config response
  | claiming task =>
      if task ∈ after.tasks then claiming task
      else if before.returned.length < after.returned.length then claimed
      else failed
  | publishing task =>
      if task ∈ after.tasks then publishing task
      else if before.returned.length < after.returned.length then registered
      else failed
  | stage => stage

/-- Directory clients with the primary, and servers which start. -/
structure NamingWorld (S : Smt P) where
  net : PublishWorld S
  servers : Nat → Option (NameConfig P × InitStage)

inductive NamingEvent (P : Primitives) where
  | net (event : PublishEvent P)
  /-- A server starts, and queries its name. -/
  | start (server task : Nat) (config : NameConfig P)
  /-- A server goes on with its next operation. -/
  | operate (server task : Nat)

namespace NamingWorld

def fresh (store : S.Store) : NamingWorld S := ⟨.fresh store, fun _ => none⟩

/-- The directory clients make a step, and the servers go on. -/
def move (world : NamingWorld S) (net : PublishWorld S) : NamingWorld S :=
  ⟨net, fun server => (world.servers server).map fun row => (row.1, row.2.goOn row.1 world.net net)⟩

/-- A server is at a stage. -/
def setStage (world : NamingWorld S) (server : Nat) (config : NameConfig P) (stage : InitStage) :
    NamingWorld S :=
  { world with servers := Function.update world.servers server (some (config, stage)) }

def machine (decompress : Bytes → Option S.Proof) (keys : AnchorKeys P)
    (equixVerify : Bytes → Bytes → Bool) : Machine (NamingWorld S) (NamingEvent P) where
  step world
    | .net event =>
        ((PublishWorld.machine decompress keys equixVerify).step world.net event).map world.move
    | .start server task config =>
        if (world.servers server).isSome then none
        else
          ((PublishWorld.machine decompress keys equixVerify).step world.net
            (.query task config.client config.serverName.str)).map fun net =>
              (world.move net).setStage server config (.asking task)
    | .operate server task =>
        match world.servers server with
        | some (config, .unclaimed) =>
            ((PublishWorld.machine decompress keys equixVerify).step world.net
              (.operate task config.client config.claim config.signingSk)).map fun net =>
                (world.move net).setStage server config (.claiming task)
        | some (config, .claimed) =>
            ((PublishWorld.machine decompress keys equixVerify).step world.net
              (.operate task config.client config.publish config.signingSk)).map fun net =>
                (world.move net).setStage server config (.publishing task)
        | _ => none

end NamingWorld

/-- An owner signed an update which lets another key in, or takes a key out. -/
def HandedOver (history : List (DirectoryUpdate P)) : Prop :=
  ∃ line update owner, line ++ [update] <+: history ∧ owner ∈ ownersFrom [] line ∧
    Signable.verify update owner = true ∧ ((∃ other ≠ owner, update.updateType = .addOwner other) ∨
      ∃ other, update.updateType = .delOwner other)

/-- A name which was handed over stays so. -/
theorem HandedOver.of_prefix {shorter history : List (DirectoryUpdate P)}
    (handed : HandedOver shorter) (within : shorter <+: history) : HandedOver history := by
  obtain ⟨line, update, owner, part, rest⟩ := handed
  exact ⟨line, update, owner, part.trans within, rest⟩

theorem ownersFrom_snoc (history : List (DirectoryUpdate P)) (update : DirectoryUpdate P) :
    ownersFrom [] (history ++ [update]) = nextOwners (ownersFrom [] history) update.updateType := by
  rw [ownersFrom, List.foldl_append]
  rfl

/-- A name which no owner hands over has one owner from the first update on. -/
theorem sole_of_valid {history : List (DirectoryUpdate P)} (valid : ValidHistory history)
    (keeps : ¬HandedOver history) : history = [] ∨ ∃ owner, ownersFrom [] history = [owner] ∧
      ∀ update ∈ history, ∀ other, update.updateType = .addOwner other → other = owner := by
  induction history using List.reverseRecOn with
  | nil => exact .inl rfl
  | append_singleton history update ih =>
      obtain ⟨before, _, may⟩ := validHistory_snoc.mp valid
      have kept : ¬HandedOver history := fun handed =>
        keeps (handed.of_prefix (List.prefix_append history [update]))
      rcases ih before kept with rfl | ⟨owner, sole, adds⟩
      · rcases may with ⟨owned, _⟩ | ⟨_, owner, added, _⟩
        · exact absurd rfl owned
        · refine .inr ⟨owner, ?_, fun other listed key names => ?_⟩
          · rw [ownersFrom_snoc, added]
            rfl
          · rw [List.mem_singleton.mp listed, added] at names
            cases names
            rfl
      · rcases may with ⟨_, signer, listed, signed⟩ | ⟨empty, _⟩
        · rw [sole, List.mem_singleton] at listed
          subst listed
          have hands := fun change =>
            keeps ⟨history, update, signer, List.prefix_refl _, sole ▸ List.mem_singleton_self _,
              signed, change⟩
          refine .inr ⟨signer, ?_, fun other listed key names => ?_⟩
          · rw [ownersFrom_snoc, sole]
            cases change : update.updateType with
            | addOwner other =>
                have same : other = signer := by
                  by_contra apart
                  exact hands (.inl ⟨other, apart, change⟩)
                rw [same, nextOwners, if_pos (List.mem_singleton_self _)]
            | delOwner other => exact absurd (.inr ⟨other, change⟩) hands
            | update blob => rfl
          · rcases List.mem_append.mp listed with earlier | new
            · exact adds other earlier key names
            · rw [List.mem_singleton.mp new] at names
              by_contra apart
              exact hands (.inl ⟨key, apart, names⟩)
        · rw [sole] at empty
          cases empty

/-- Two keys are owners of a name one after the other only if an owner hands it over. -/
theorem handedOver_of_two {history : List (DirectoryUpdate P)} (valid : ValidHistory history)
    {first second : DirectoryUpdate P} (firstListed : first ∈ history)
    (secondListed : second ∈ history) {one other : P.SigningPublic}
    (firstAdds : first.updateType = .addOwner one) (secondAdds : second.updateType = .addOwner other)
    (apart : one ≠ other) : HandedOver history := by
  by_contra keeps
  rcases sole_of_valid valid keeps with rfl | ⟨owner, _, adds⟩
  · cases firstListed
  · exact apart ((adds first firstListed one firstAdds).trans
      (adds second secondListed other secondAdds).symm)

/-- The descriptor of a history is what the last insertion has put there. -/
theorem getServerDescriptor_inserted {history : List (DirectoryUpdate P)}
    {update : DirectoryUpdate P} {descriptor : ServerDescriptor P}
    (valid : ValidHistory (history ++ [update]))
    (inserts : update.updateType = .update ⟨Blob.v1ServerDescriptor, Bcs.toBytes descriptor⟩)
    {response : DirectoryResponse P} (same : response.history = history ++ [update]) :
    getServerDescriptor response = .ok (some descriptor) := by
  have verified : verifyHistory (history ++ [update]) = .ok () := valid
  have latest : ((history ++ [update]).foldl DirectoryListing.apply ⟨none, []⟩).latest =
      some ⟨Blob.v1ServerDescriptor, Bcs.toBytes descriptor⟩ := by
    rw [List.foldl_append, List.foldl_cons, List.foldl_nil, DirectoryListing.apply, inserts]
  simp only [getServerDescriptor, buildListing, same, verified, latest, ne_eq, not_true_eq_false,
    if_false, Bcs.fromBytes_toBytes]

namespace NameConfig

variable {config : NameConfig P}

/-- The publication is what the server signs in an operation. -/
def Signs (config : NameConfig P) (operation : OwnerOperation P) (publication : Publication P) :
    Prop :=
  publication.key = operation.key ∧ ∃ response : DirectoryResponse P,
    response.history = publication.history ∧
      operation.sign response config.signingSk = .ok publication.update

/-- The task performs an operation of the server. -/
def Performs (config : NameConfig P) (operation : OwnerOperation P) : TaskStage P → Prop
  | .querying _ => False
  | .reading other signer => other = operation ∧ signer = config.signingSk
  | .inserting publication => config.Signs operation publication
  | .waiting publication => config.Signs operation publication

/-- An operation of the server returned `Ok`. -/
def Returned (config : NameConfig P) (operation : OwnerOperation P) (net : PublishWorld S) : Prop :=
  ∃ publication ∈ net.returned, config.Signs operation publication

/-- A verified answer had the server's descriptor. -/
def Validated (config : NameConfig P) (net : PublishWorld S) : Prop :=
  ∃ client response, (config.serverName.str, response) ∈ (net.clients client).accepted ∧
    getServerDescriptor response = .ok (some config.descriptor)

/-- A task goes on with its operation. -/
theorem Performs.follows {operation : OwnerOperation P} {stage later : TaskStage P}
    (performs : config.Performs operation stage) (follows : stage.Follows later) :
    config.Performs operation later := by
  cases follows with
  | same => exact performs
  | signed signs =>
      obtain ⟨rfl, rfl⟩ := performs
      exact ⟨rfl, _, rfl, signs⟩
  | accepted publication => exact performs

/-- The claim of a server adds its key to its own name. -/
theorem Signs.claim {publication : Publication P} (signs : config.Signs config.claim publication) :
    publication.key = config.serverName.str ∧
      publication.update.updateType = .addOwner config.serverPk := by
  obtain ⟨key, response, _, signed⟩ := signs
  exact ⟨key, operationUpdate_type signed⟩

/-- The second operation publishes the server's descriptor under its own name. -/
theorem Signs.publish {publication : Publication P}
    (signs : config.Signs config.publish publication) :
    publication.key = config.serverName.str ∧ publication.update.updateType =
      .update ⟨Blob.v1ServerDescriptor, Bcs.toBytes config.descriptor⟩ := by
  obtain ⟨key, response, _, signed⟩ := signs
  exact ⟨key, operationUpdate_type signed⟩

theorem Returned.mono {operation : OwnerOperation P} {net next : PublishWorld S}
    (returned : config.Returned operation net) (grows : net.returned ⊆ next.returned) :
    config.Returned operation next := by
  obtain ⟨publication, listed, signs⟩ := returned
  exact ⟨publication, grows listed, signs⟩

/-- What holds when `init_name` is at a stage. -/
def Reaches (config : NameConfig P) (net : PublishWorld S) : InitStage → Prop
  | .asking task =>
      net.tasks.lookup task = some (config.client, .querying config.serverName.str)
  | .unclaimed => True
  | .claiming task => ∃ stage, net.tasks.lookup task = some (config.client, stage) ∧
      config.Performs config.claim stage
  | .claimed => config.Returned config.claim net
  | .publishing task => config.Returned config.claim net ∧
      ∃ stage, net.tasks.lookup task = some (config.client, stage) ∧
        config.Performs config.publish stage
  | .registered => config.Returned config.claim net ∧ config.Returned config.publish net
  | .validated => config.Validated net
  | .failed => True

/-- Behind the first operation the claim has returned. -/
theorem Reaches.claimed {net : PublishWorld S} {stage : InitStage}
    (reaches : config.Reaches net stage) (has : stage.hasClaimed = true) :
    config.Returned config.claim net := by
  cases stage with
  | claimed => exact reaches
  | publishing task => exact reaches.1
  | registered => exact reaches.1
  | asking task | unclaimed | claiming task | validated | failed => cases has

section Steps

variable {decompress : Bytes → Option S.Proof} {keys : AnchorKeys P}
  {equixVerify : Bytes → Bytes → Bool} {net next : PublishWorld S} {event : PublishEvent P}

/-- A task which performs an operation goes on with it, or is over; if something returned, that
is what the operation signed. -/
theorem performs_step (tracked : net.Tracked)
    (taken : (PublishWorld.machine decompress keys equixVerify).step net event = some next)
    {task : Nat} {stage : TaskStage P} {operation : OwnerOperation P}
    (found : net.tasks.lookup task = some (config.client, stage))
    (performs : config.Performs operation stage) :
    (task ∈ next.tasks ∧ ∃ later, next.tasks.lookup task = some (config.client, later) ∧
      config.Performs operation later) ∨
    (task ∉ next.tasks ∧ (net.returned.length < next.returned.length →
      config.Returned operation next)) := by
  cases PublishWorld.step_task tracked found taken with
  | @goesOn later found follows =>
      refine .inl ⟨AList.lookup_isSome.mp ?_, later, found, performs.follows follows⟩
      rw [found]
      rfl
  | ends gone _ returns =>
      refine .inr ⟨gone, fun more => ?_⟩
      rcases returns with same | ⟨publication, rfl, returned⟩
      · rw [same] at more
        exact absurd more (Nat.lt_irrefl _)
      · refine ⟨publication, ?_, performs⟩
        rw [returned]
        exact List.mem_append_right _ (List.mem_singleton_self _)

/-- A server goes on as the results of its operations say. -/
theorem Reaches.goOn (tracked : net.Tracked)
    (taken : (PublishWorld.machine decompress keys equixVerify).step net event = some next)
    {stage : InitStage} (reaches : config.Reaches net stage) :
    config.Reaches next (stage.goOn config net next) := by
  obtain ⟨accepted, returned⟩ := PublishWorld.step_grows taken
  cases stage with
  | asking task =>
      rw [InitStage.goOn]
      cases PublishWorld.step_task tracked reaches taken with
      | @goesOn later found follows =>
          have present : task ∈ next.tasks := AList.lookup_isSome.mp (by rw [found]; rfl)
          rw [if_pos present]
          cases follows
          exact found
      | ends gone answers _ =>
          rw [if_neg gone]
          cases answered : (net.clients config.client).answered (next.clients config.client) with
          | none => trivial
          | some response =>
              obtain ⟨key, named, inside⟩ := answers response answered
              cases named
              simp only [InitStage.answer]
              split
              · trivial
              · trivial
              · rename_i existing verified
                split_ifs with same
                · exact ⟨config.client, response, inside, same ▸ verified⟩
                · trivial
  | unclaimed => trivial
  | claiming task =>
      obtain ⟨kept, found, performs⟩ := reaches
      rw [InitStage.goOn]
      rcases performs_step tracked taken found performs with ⟨present, later⟩ | ⟨gone, returns⟩
      · rw [if_pos present]
        exact later
      · rw [if_neg gone]
        split_ifs with more
        · exact returns more
        · trivial
  | claimed => exact Returned.mono reaches returned
  | publishing task =>
      obtain ⟨claimed, kept, found, performs⟩ := reaches
      rw [InitStage.goOn]
      rcases performs_step tracked taken found performs with ⟨present, later⟩ | ⟨gone, returns⟩
      · rw [if_pos present]
        exact ⟨claimed.mono returned, later⟩
      · rw [if_neg gone]
        split_ifs with more
        · exact ⟨claimed.mono returned, returns more⟩
        · trivial
  | registered => exact ⟨reaches.1.mono returned, reaches.2.mono returned⟩
  | validated =>
      obtain ⟨client, response, inside, verified⟩ := reaches
      exact ⟨client, response, accepted client inside, verified⟩
  | failed => trivial

end Steps
end NameConfig

namespace NamingWorld

/-- What every run keeps: each server is where its results say. -/
structure Sound (world : NamingWorld S) : Prop where
  tracked : world.net.Tracked
  reaches : ∀ server config stage, world.servers server = some (config, stage) →
    config.Reaches world.net stage

theorem sound_fresh (store : S.Store) : (fresh store).Sound where
  tracked := PublishWorld.tracked_fresh store
  reaches _ _ _ absent := by cases absent

section Steps

variable {decompress : Bytes → Option S.Proof} {keys : AnchorKeys P}
  {equixVerify : Bytes → Bytes → Bool} {world next : NamingWorld S}

/-- A step of the directory clients keeps every server where its results say. -/
theorem Sound.move (sound : world.Sound) {event : PublishEvent P} {net : PublishWorld S}
    (taken : (PublishWorld.machine decompress keys equixVerify).step world.net event = some net) :
    (world.move net).Sound where
  tracked := sound.tracked.step taken
  reaches server config stage found := by
    obtain ⟨⟨_, earlier⟩, listed, same⟩ := Option.map_eq_some_iff.mp found
    cases same
    exact (sound.reaches server _ earlier listed).goOn sound.tracked taken

/-- A server which reaches a stage keeps the state sound. -/
theorem Sound.setStage (sound : world.Sound) {server : Nat} {config : NameConfig P}
    {stage : InitStage} (reaches : config.Reaches world.net stage) :
    (world.setStage server config stage).Sound where
  tracked := sound.tracked
  reaches other otherConfig later found := by
    simp only [NamingWorld.setStage, Function.update_apply] at found
    split at found
    · cases found
      exact reaches
    · exact sound.reaches other otherConfig later found

/-- Every step keeps the state sound. -/
theorem Sound.step (sound : world.Sound) {event : NamingEvent P}
    (taken : (machine decompress keys equixVerify).step world event = some next) : next.Sound := by
  have queried : ∀ {task client key} {net : PublishWorld S},
      (PublishWorld.machine decompress keys equixVerify).step world.net (.query task client key) =
        some net → net.tasks.lookup task = some (client, .querying key) := by
    intro task client key net moved
    simp only [PublishWorld.machine] at moved
    split_ifs at moved
    cases moved
    exact AList.lookup_insert _
  have operates : ∀ {task client operation signer} {net : PublishWorld S},
      (PublishWorld.machine decompress keys equixVerify).step world.net
        (.operate task client operation signer) = some net →
          net.tasks.lookup task = some (client, .reading operation signer) := by
    intro task client operation signer net moved
    simp only [PublishWorld.machine] at moved
    split_ifs at moved
    cases moved
    exact AList.lookup_insert _
  cases event with
  | net event =>
      obtain ⟨net, moved, rfl⟩ := Option.map_eq_some_iff.mp taken
      exact sound.move moved
  | start server task config =>
      simp only [machine] at taken
      split_ifs at taken
      obtain ⟨net, moved, rfl⟩ := Option.map_eq_some_iff.mp taken
      exact (sound.move moved).setStage (queried moved)
  | operate server task =>
      simp only [machine] at taken
      split at taken
      · obtain ⟨net, moved, rfl⟩ := Option.map_eq_some_iff.mp taken
        exact (sound.move moved).setStage ⟨_, operates moved, rfl, rfl⟩
      · rename_i config found
        obtain ⟨net, moved, rfl⟩ := Option.map_eq_some_iff.mp taken
        have claimed : config.Returned config.claim world.net := sound.reaches server _ _ found
        exact (sound.move moved).setStage
          ⟨claimed.mono (PublishWorld.step_grows moved).2, _, operates moved, rfl, rfl⟩
      · cases taken

/-- A run of the servers is one of the directory clients. -/
theorem net_exec {store : S.Store} {events : List (NamingEvent P)}
    (reached : (machine decompress keys equixVerify).exec (fresh store) events = some world) :
    world.Sound ∧ ∃ moves,
      (PublishWorld.machine decompress keys equixVerify).exec (.fresh store) moves =
        some world.net := by
  refine Machine.inv_of_exec (fun state : NamingWorld S => state.Sound ∧ ∃ moves,
    (PublishWorld.machine decompress keys equixVerify).exec (.fresh store) moves = some state.net)
    ?_ ⟨sound_fresh store, [], rfl⟩ reached
  rintro state event later rest ⟨sound, moves, ran⟩ taken _
  refine ⟨sound.step taken, ?_⟩
  have onward : ∀ {move : PublishEvent P} {net : PublishWorld S},
      (PublishWorld.machine decompress keys equixVerify).step state.net move = some net →
        (PublishWorld.machine decompress keys equixVerify).exec (.fresh store) (moves ++ [move]) =
          some net :=
    fun moved => Machine.exec_snoc.mpr ⟨state.net, ran, moved⟩
  cases event with
  | net event =>
      obtain ⟨net, moved, rfl⟩ := Option.map_eq_some_iff.mp taken
      exact ⟨_, onward moved⟩
  | start server task config =>
      simp only [machine] at taken
      split_ifs at taken
      obtain ⟨net, moved, rfl⟩ := Option.map_eq_some_iff.mp taken
      exact ⟨_, onward moved⟩
  | operate server task =>
      simp only [machine] at taken
      split at taken
      · obtain ⟨net, moved, rfl⟩ := Option.map_eq_some_iff.mp taken
        exact ⟨_, onward moved⟩
      · obtain ⟨net, moved, rfl⟩ := Option.map_eq_some_iff.mp taken
        exact ⟨_, onward moved⟩
      · cases taken

end Steps

/-- What the clients know of a name is in its committed history. -/
theorem committed_exec (free : P.CollisionFree) (functional : S.Functional [])
    (binding : S.Binding) (complete : S.Complete) {decompress : Bytes → Option S.Proof}
    {keys : AnchorKeys P} {equixVerify : Bytes → Bytes → Bool} {world : NamingWorld S}
    {store : S.Store} {events : List (NamingEvent P)}
    (reached : (machine decompress keys equixVerify).exec (fresh store) events = some world)
    (key : String) : ∃ history, world.net.primary.db.committed key = .ok history ∧
      ValidHistory history ∧
        (∀ client response, (key, response) ∈ (world.net.clients client).accepted →
          response.history <+: history) ∧
        ∀ publication ∈ world.net.returned, publication.key = key →
          publication.line <+: history := by
  obtain ⟨_, moves, ran⟩ := net_exec reached
  obtain ⟨history, committed, _, lines⟩ :=
    PublishWorld.returned_committed free functional binding complete ran key
  obtain ⟨other, same, answers⟩ :=
    PublishWorld.accepted_committed free functional binding complete ran key
  cases committed.symm.trans same
  obtain ⟨anchored, _⟩ :=
    PublishWorld.anchored_exec free functional (PublishWorld.anchored_fresh store) ran
  exact ⟨history, committed, anchored.serving.ledger.valid_committed committed, answers, lines⟩

/-! ## The main results -/

/-- The server's descriptor was the one of its name, in a history from which the committed one
goes on. -/
def Held (world : NamingWorld S) (config : NameConfig P) : Prop :=
  ∃ history, world.net.primary.db.committed config.serverName.str = .ok history ∧
    ∃ response : DirectoryResponse P, response.history <+: history ∧
      getServerDescriptor response = .ok (some config.descriptor)

/-- In every run, at every moment after `init_name` returned `Ok`, the server's name has held
the server's descriptor. -/
theorem held_always (free : P.CollisionFree) (functional : S.Functional [])
    (binding : S.Binding) (complete : S.Complete) (decompress : Bytes → Option S.Proof)
    (keys : AnchorKeys P) (equixVerify : Bytes → Bytes → Bool) (store : S.Store)
    (events : List (NamingEvent P)) :
    (machine decompress keys equixVerify).Always (fun world => ∀ server config stage,
      world.servers server = some (config, stage) → stage = .registered ∨ stage = .validated →
        world.Held config) (fresh store) events := by
  rintro before _ world reached server config stage found (rfl | rfl)
  · obtain ⟨_, publication, listed, signs⟩ := (net_exec reached).1.reaches server config _ found
    obtain ⟨history, committed, valid, _, lines⟩ :=
      committed_exec free functional binding complete reached config.serverName.str
    obtain ⟨name, inserts⟩ := signs.publish
    have within := lines publication listed name
    refine ⟨history, committed, ⟨publication.line, 0, []⟩, within, ?_⟩
    obtain ⟨later, whole⟩ := within
    exact getServerDescriptor_inserted (whole ▸ valid).of_append inserts rfl
  · obtain ⟨client, response, accepted, verified⟩ :=
      (net_exec reached).1.reaches server config _ found
    obtain ⟨history, committed, _, answers, _⟩ :=
      committed_exec free functional binding complete reached config.serverName.str
    exact ⟨history, committed, response, answers client response accepted, verified⟩

/-- In every run, if two servers with different keys have each made their key an owner of one
name, then an owner of the name has signed an update which lets another key in or takes a key
out. -/
theorem handedOver_always (free : P.CollisionFree) (functional : S.Functional [])
    (binding : S.Binding) (complete : S.Complete) (decompress : Bytes → Option S.Proof)
    (keys : AnchorKeys P) (equixVerify : Bytes → Bytes → Bool) (store : S.Store)
    (events : List (NamingEvent P)) :
    (machine decompress keys equixVerify).Always (fun world =>
      ∀ first one firstStage second other secondStage,
        world.servers first = some (one, firstStage) → firstStage.hasClaimed = true →
          world.servers second = some (other, secondStage) → secondStage.hasClaimed = true →
            one.serverName = other.serverName → one.serverPk ≠ other.serverPk →
              ∃ history, world.net.primary.db.committed one.serverName.str = .ok history ∧
                HandedOver history) (fresh store) events := by
  intro before _ world reached first one firstStage second other secondStage firstFound
    firstClaimed secondFound secondClaimed name apart
  have sound := (net_exec reached).1
  obtain ⟨publication, listed, signs⟩ :=
    (sound.reaches first one firstStage firstFound).claimed firstClaimed
  obtain ⟨rival, rivalListed, rivalSigns⟩ :=
    (sound.reaches second other secondStage secondFound).claimed secondClaimed
  obtain ⟨history, committed, valid, _, lines⟩ :=
    committed_exec free functional binding complete reached one.serverName.str
  obtain ⟨key, adds⟩ := signs.claim
  obtain ⟨rivalKey, rivalAdds⟩ := rivalSigns.claim
  have inside : ∀ {made : Publication P}, made.line <+: history → made.update ∈ history :=
    fun within => within.subset (List.mem_append_right _ (List.mem_singleton_self _))
  exact ⟨history, committed, handedOver_of_two valid (inside (lines publication listed key))
    (inside (lines rival rivalListed (rivalKey.trans (congrArg ServerName.str name.symm)))) adds
      rivalAdds apart⟩

/-- What the tree holds of the name after some of its updates. -/
def nameContents (updates : List (DirectoryUpdate symbolic)) : Nat → List (Bytes × Bytes)
  | 0 => []
  | count + 1 => (DirectoryDb.keyHash (P := symbolic) symbolicServer.str,
      Bcs.toBytes (updates.take (count + 1))) :: nameContents updates count

def nameHeader (updates : List (DirectoryUpdate symbolic)) : Nat → DirectoryHeader symbolic
  | 0 => ⟨[], Bcs.toBytes (nameContents updates 0), 0⟩
  | count + 1 =>
      ⟨(nameHeader updates count).hash, Bcs.toBytes (nameContents updates (count + 1)), 30⟩

/-- A task gets an answer after some updates, and the headers which its client lacks. -/
def nameAnswered (updates : List (DirectoryUpdate symbolic)) (task known count : Nat) :
    List (NamingEvent symbolic) :=
  let headers := (List.range (count + 1)).map (nameHeader updates)
  [.net (.fetch task (some ⟨updates.take count, count, []⟩) false
      [v1GetAnchor SharedClients.symbolicKeys headers]),
    .net (.sync task [some (headers.drop known)]), .net (.verify task false)]

/-- The next update reaches the primary, which commits it. -/
def nameCommitted (updates : List (DirectoryUpdate symbolic)) (task count : Nat) :
    List (NamingEvent symbolic) :=
  (updates[count]?.toList.map fun update => .net (.directory
      (.insertRead task Primary.quietInsert symbolicServer.str update Primary.zeroSolution))) ++
    [.net (.directory (.insertPush task)), .net (.inserted task true),
      .net (.directory .commitTake), .net (.directory (.commitFinish PublishWorld.laterCommit)),
      .net .issue]

def symbolicConfig (key : UInt8) : NameConfig symbolic := ⟨key.toNat, symbolicServer, [], key⟩

/-- A server makes its key the first owner of the name. -/
def claimedRun (updates : List (DirectoryUpdate symbolic)) : List (NamingEvent symbolic) :=
  [.net (.directory (.getPowSeed [9] 0 true true)), .net (.directory .commitTake),
      .net (.directory (.commitFinish Primary.quietCommit)), .net .issue,
      .start 0 0 (symbolicConfig 1)] ++
    nameAnswered updates 0 0 0 ++ [.operate 0 1] ++ nameAnswered updates 1 1 0 ++
    nameCommitted updates 1 0 ++ nameAnswered updates 1 1 1

def registeringUpdates : List (DirectoryUpdate symbolic) :=
  [firstUpdate 1, signedUpdate (firstUpdate 1).hash
    (.update ⟨Blob.v1ServerDescriptor, Bcs.toBytes (symbolicConfig 1).descriptor⟩) (1 : UInt8)]

/-- A server registers. -/
def registeredRun : List (NamingEvent symbolic) :=
  claimedRun registeringUpdates ++ [.operate 0 2] ++ nameAnswered registeringUpdates 2 2 1 ++
    nameCommitted registeringUpdates 2 1 ++ nameAnswered registeringUpdates 2 2 2

def handingUpdate : DirectoryUpdate symbolic :=
  signedUpdate (firstUpdate 1).hash (.addOwner (2 : UInt8)) (1 : UInt8)

def handingUpdates : List (DirectoryUpdate symbolic) :=
  [firstUpdate 1, handingUpdate,
    signedUpdate handingUpdate.hash (.addOwner (2 : UInt8)) (2 : UInt8)]

/-- Another server's key gets into the name of a server which has not inserted its descriptor yet,
and the other server makes its key an owner too. -/
def handedRun : List (NamingEvent symbolic) :=
  claimedRun handingUpdates ++ [.start 1 2 (symbolicConfig 2)] ++ nameAnswered handingUpdates 2 0 1 ++
    [.net (.operate 3 1 (.addServerOwner symbolicServer (2 : UInt8)) (1 : UInt8))] ++
    nameAnswered handingUpdates 3 2 1 ++ nameCommitted handingUpdates 3 1 ++
    nameAnswered handingUpdates 3 2 2 ++ [.operate 1 4] ++ nameAnswered handingUpdates 4 2 2 ++
    nameCommitted handingUpdates 4 2 ++ nameAnswered handingUpdates 4 3 3

def symbolicRun (events : List (NamingEvent symbolic)) : Option (NamingWorld symbolicSmt) :=
  (machine (fun _ => some ()) SharedClients.symbolicKeys fun _ _ => true).exec (fresh ()) events

/-- The name, the key and the stage of a server. -/
def shown (world : NamingWorld symbolicSmt) (server : Nat) :
    Option (ServerName × UInt8 × InitStage) :=
  (world.servers server).map fun row => (row.1.serverName, row.1.serverPk, row.2)

/-- A server which is shown has the shown name, key and stage. -/
theorem servers_of_shown {world : NamingWorld symbolicSmt} {server : Nat} {name : ServerName}
    {serverPk : UInt8} {stage : InitStage}
    (same : world.shown server = some (name, serverPk, stage)) :
    ∃ config, world.servers server = some (config, stage) ∧ config.serverName = name ∧
      config.serverPk = serverPk := by
  obtain ⟨⟨config, _⟩, found, same⟩ := Option.map_eq_some_iff.mp same
  simp only [Prod.mk.injEq] at same
  obtain ⟨name, serverPk, rfl⟩ := same
  exact ⟨config, found, name, serverPk⟩

/-- In the run of one registration the server holds its name. -/
theorem held_always_registered : ∃ world : NamingWorld symbolicSmt,
    symbolicRun registeredRun = some world ∧ ∃ config,
      world.servers 0 = some (config, .registered) ∧ world.Held config := by
  have ends : (symbolicRun registeredRun).map (fun world => world.shown 0) =
      some (some (symbolicServer, 1, .registered)) := by
    decide +kernel
  obtain ⟨world, reached, stage⟩ := Option.map_eq_some_iff.mp ends
  obtain ⟨config, found, _⟩ := servers_of_shown stage
  have always := held_always symbolic_collisionFree symbolicSmt_functional symbolicSmt_binding
    symbolicSmt_complete (fun _ => some ()) SharedClients.symbolicKeys (fun _ _ => true) ()
    registeredRun
  exact ⟨world, reached, config, found,
    always.last reached 0 config .registered found (.inl rfl)⟩

/-- In the run with another server's key the name was handed over. -/
theorem handedOver_always_claimed : ∃ world : NamingWorld symbolicSmt,
    symbolicRun handedRun = some world ∧ ∃ history,
      world.net.primary.db.committed symbolicServer.str = .ok history ∧ HandedOver history := by
  have ends : (symbolicRun handedRun).map (fun world => (world.shown 0, world.shown 1)) =
      some (some (symbolicServer, 1, .claimed), some (symbolicServer, 2, .claimed)) := by
    decide +kernel
  obtain ⟨world, reached, stages⟩ := Option.map_eq_some_iff.mp ends
  obtain ⟨first, second⟩ := Prod.mk.inj stages
  obtain ⟨one, oneFound, oneName, onePk⟩ := servers_of_shown first
  obtain ⟨other, otherFound, otherName, otherPk⟩ := servers_of_shown second
  have apart : one.serverPk ≠ other.serverPk := by
    rw [onePk, otherPk]
    decide
  have always := handedOver_always symbolic_collisionFree symbolicSmt_functional
    symbolicSmt_binding symbolicSmt_complete (fun _ => some ()) SharedClients.symbolicKeys
    (fun _ _ => true) () handedRun
  have handed := always.last reached 0 one .claimed 1 other .claimed oneFound rfl otherFound rfl
    (oneName.trans otherName.symm) apart
  rw [oneName] at handed
  exact ⟨world, reached, handed⟩

end NamingWorld
end Nullspace
