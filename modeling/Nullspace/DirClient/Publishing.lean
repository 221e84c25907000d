import Mathlib.Data.List.ReduceOption
import Nullspace.DirClient.Binding
import Nullspace.DirClient.Served

/-!
# Operations of owners, from end to end

An operation reads the history of its name, signs an update over it, submits the update, and
polls the directory until the update is in a verified history. A run interleaves any number of
such tasks, of any number of clients, with the primary. What the clients are answered is
anybody's choice, and so is what reaches the primary; only the anchors which verify are the
primary's own.
-/

namespace Nullspace

open Nullspace.Base

variable {P : Primitives} {S : Smt P}

/-- The history with the update behind it. -/
def Publication.line (publication : Publication P) : List (DirectoryUpdate P) :=
  publication.history ++ [publication.update]

/-- The update names the history over which it was signed, which is valid. -/
structure Publication.Linked (publication : Publication P) : Prop where
  valid : ValidHistory publication.history
  prev : publication.update.prevUpdateHash = prevUpdateHash publication.history

/-- What a task of a client is doing. -/
inductive TaskStage (P : Primitives) where
  /-- It queries a name for its caller. -/
  | querying (key : String)
  /-- An operation reads the history of its name. -/
  | reading (operation : OwnerOperation P) (signer : P.SigningSecret)
  /-- `insert_raw`, before it has an answer. -/
  | inserting (publication : Publication P)
  /-- `wait_for_update`. -/
  | waiting (publication : Publication P)

namespace TaskStage

/-- The name which a task at this stage fetches. -/
def key? : TaskStage P → Option String
  | querying key => some key
  | reading operation _ => some operation.key
  | inserting _ => none
  | waiting publication => some publication.key

def publication? : TaskStage P → Option (Publication P)
  | querying _ => none
  | reading _ _ => none
  | inserting publication => some publication
  | waiting publication => some publication

end TaskStage

/-- A primary, and clients with their tasks. A query of a task has the task's number. -/
structure PublishWorld (S : Smt P) where
  primary : Primary S
  /-- The anchors which the primary has signed. -/
  issued : List (DirectoryAnchor P)
  clients : Nat → DirClient P
  /-- Each task with its client. -/
  tasks : Table Nat (Nat × TaskStage P)
  /-- The operations which returned `Ok`. The code keeps no record. -/
  returned : List (Publication P)

inductive PublishEvent (P : Primitives) where
  | directory (event : PrimaryEvent P)
  /-- The primary answers `v1_get_anchor`. -/
  | issue
  | query (task client : Nat) (key : String)
  | operate (task client : Nat) (operation : OwnerOperation P) (signer : P.SigningSecret)
  | fetch (task : Nat) (response : Option (DirectoryResponse P)) (evicted : Bool)
      (anchors : List (Option (DirectoryAnchor P)))
  | sync (task : Nat) (replies : List (Option (List (DirectoryHeader P))))
  /-- The response is verified, after the timeout or before it. -/
  | verify (task : Nat) (late : Bool)
  /-- The seed, the solution and the insertion are answered. -/
  | inserted (task : Nat) (accepted : Bool)
  /-- The caller drops the task. -/
  | drop (task : Nat)
  /-- The process of a client starts again over the same database. -/
  | restart (client : Nat)

/-- The response which a step of a client has accepted. -/
def DirClient.answered (client next : DirClient P) : Option (DirectoryResponse P) :=
  next.accepted[client.accepted.length]?.map Prod.snd

/-- A query is dropped. -/
def DirClient.drop (client : DirClient P) (query : Nat) : DirClient P :=
  { client with queries := client.queries.erase query }

namespace PublishWorld

def fresh (store : S.Store) : PublishWorld S := ⟨.fresh store, [], fun _ => .fresh, ∅, []⟩

/-- The offered anchors which verify are the primary's. -/
def Genuine (anchorPk : P.SigningPublic) (world : PublishWorld S)
    (anchors : List (Option (DirectoryAnchor P))) : Prop :=
  ∀ anchor ∈ anchors.reduceOption, Signable.verify anchor anchorPk = true → anchor ∈ world.issued

instance (anchorPk : P.SigningPublic) (world : PublishWorld S)
    (anchors : List (Option (DirectoryAnchor P))) : Decidable (world.Genuine anchorPk anchors) :=
  inferInstanceAs (Decidable (∀ _ ∈ _, _))

def setClient (world : PublishWorld S) (client : Nat) (next : DirClient P) : PublishWorld S :=
  { world with clients := Function.update world.clients client next }

@[simp] theorem setClient_own (world : PublishWorld S) (client : Nat) (next : DirClient P) :
    (world.setClient client next).clients client = next := Function.update_self _ _ _

/-- The task returns, or is gone. -/
def finish (world : PublishWorld S) (task : Nat) : PublishWorld S :=
  { world with tasks := world.tasks.erase task }

def setStage (world : PublishWorld S) (task client : Nat) (stage : TaskStage P) :
    PublishWorld S :=
  { world with tasks := world.tasks.insert task (client, stage) }

/-- A step of `fetch_verified_response`: with an error in it, the task returns the error. -/
def advance (world : PublishWorld S) (task client : Nat) (next : DirClient P) : PublishWorld S :=
  if task ∈ next.queries then world.setClient client next
  else (world.setClient client next).finish task

/-- A task goes on with a verified response. -/
def resume (world : PublishWorld S) (task client : Nat) (response : DirectoryResponse P)
    (late : Bool) : TaskStage P → PublishWorld S
  | .querying _ => world.finish task
  | .reading operation signer =>
      match operation.sign response signer with
      | .error _ => world.finish task
      | .ok update =>
          world.setStage task client (.inserting ⟨operation.key, response.history, update⟩)
  | .inserting _ => world
  | .waiting publication =>
      if response.history.any fun update => decide (update.hash = publication.update.hash) then
        { world.finish task with returned := world.returned ++ [publication] }
      else if late then world.finish task
      else world

/-- The primary and the tasks, one step of one of them at a time. -/
def machine (decompress : Bytes → Option S.Proof) (keys : AnchorKeys P)
    (equixVerify : Bytes → Bytes → Bool) : Machine (PublishWorld S) (PublishEvent P) where
  step world
    | .directory event =>
        ((Primary.machine equixVerify).step world.primary event).map fun primary =>
          { world with primary := primary }
    | .issue =>
        some { world with issued := world.issued ++ (world.primary.db.v1GetAnchor keys).toList }
    | .query task client key =>
        if task ∈ world.tasks then none else some (world.setStage task client (.querying key))
    | .operate task client operation signer =>
        if task ∈ world.tasks then none
        else some (world.setStage task client (.reading operation signer))
    | .fetch task response evicted anchors =>
        match world.tasks.lookup task with
        | none => none
        | some (client, stage) =>
            match stage.key? with
            | none => none
            | some key =>
                if world.Genuine keys.anchorPk anchors then
                  ((DirClient.machine decompress keys.anchorPk).step (world.clients client)
                    (.fetch task key response evicted anchors)).map (world.advance task client)
                else none
    | .sync task replies =>
        match world.tasks.lookup task with
        | none => none
        | some (client, _) =>
            ((DirClient.machine decompress keys.anchorPk).step (world.clients client)
              (.sync task replies)).map (world.advance task client)
    | .verify task late =>
        match world.tasks.lookup task with
        | none => none
        | some (client, stage) =>
            match (DirClient.machine decompress keys.anchorPk).step (world.clients client)
                (.verify task) with
            | none => none
            | some next =>
                match (world.clients client).answered next with
                | none => some ((world.setClient client next).finish task)
                | some response =>
                    some ((world.setClient client next).resume task client response late stage)
    | .inserted task accepted =>
        match world.tasks.lookup task with
        | some (client, .inserting publication) =>
            if accepted then some (world.setStage task client (.waiting publication))
            else some (world.finish task)
        | _ => none
    | .drop task =>
        match world.tasks.lookup task with
        | none => none
        | some (client, _) =>
            some ((world.setClient client ((world.clients client).drop task)).finish task)
    | .restart client =>
        ((DirClient.machine decompress keys.anchorPk).step (world.clients client) .restart).map
          fun next =>
            { world.setClient client next with
              tasks := world.tasks.keep fun row => decide (row.1 ≠ client) }

end PublishWorld
end Nullspace
