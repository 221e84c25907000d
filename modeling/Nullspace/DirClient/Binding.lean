import Nullspace.DirClient.Listing
import Nullspace.Directory.Staging

/-!
# What ties an update to its name

The signature of an update covers the hash of the update before it and what the update
does, and no name. A run interleaves the primary with the operations of one owner, whose
key signs nothing else; anybody may insert anything, but an update under the owner's key
only if the owner signed its words. `bound_iff` says in which runs every update under the
key is accepted only where the owner meant it.
-/

namespace Nullspace

open Nullspace.Base

variable {P : Primitives} {S : Smt P}

/-- An operation of `DirClient` on a name. -/
inductive OwnerOperation (P : Primitives) where
  | insertUserDescriptor (username : UserName) (descriptor : UserDescriptor P)
  | insertServerDescriptor (serverName : ServerName) (descriptor : ServerDescriptor P)
  | addOwner (username : UserName) (owner : P.SigningPublic)
  | addServerOwner (serverName : ServerName) (owner : P.SigningPublic)
  | delOwner (username : UserName) (owner : P.SigningPublic)
  | delServerOwner (serverName : ServerName) (owner : P.SigningPublic)

namespace OwnerOperation

/-- The key of the directory which the operation is on. -/
def key : OwnerOperation P → String
  | insertUserDescriptor username _ => username.str
  | insertServerDescriptor serverName _ => serverName.str
  | addOwner username _ => username.str
  | addServerOwner serverName _ => serverName.str
  | delOwner username _ => username.str
  | delServerOwner serverName _ => serverName.str

/-- The update which the operation signs. -/
def sign (response : DirectoryResponse P) (signer : P.SigningSecret) :
    OwnerOperation P → Except DirectoryHistoryError (DirectoryUpdate P)
  | insertUserDescriptor _ descriptor => Nullspace.insertUserDescriptor response descriptor signer
  | insertServerDescriptor _ descriptor =>
      Nullspace.insertServerDescriptor response descriptor signer
  | addOwner _ owner => Nullspace.addOwner response owner signer
  | addServerOwner _ owner => Nullspace.addServerOwner response owner signer
  | delOwner _ owner => Nullspace.delOwner response owner signer
  | delServerOwner _ owner => Nullspace.delServerOwner response owner signer

/-- What an operation signs links to the history it was shown, which is valid. -/
theorem sign_spec {operation : OwnerOperation P} {response : DirectoryResponse P}
    {signer : P.SigningSecret} {update : DirectoryUpdate P}
    (signed : operation.sign response signer = .ok update) :
    ValidHistory response.history ∧ update.prevUpdateHash = prevUpdateHash response.history := by
  have spec : ∀ updateType, operationUpdate response updateType signer = .ok update →
      ValidHistory response.history ∧ update.prevUpdateHash = prevUpdateHash response.history := by
    intro updateType operated
    rw [operationUpdate] at operated
    split at operated
    · cases operated
    · rename_i valid
      cases operated
      exact ⟨valid, rfl⟩
  cases operation <;> exact spec _ signed

end OwnerOperation

/-- What the owner signed, in an operation on a key over a history. -/
structure Publication (P : Primitives) where
  key : String
  history : List (DirectoryUpdate P)
  update : DirectoryUpdate P
deriving DecidableEq

/-- The two updates have the same words: what a signature covers. -/
def DirectoryUpdate.SameWords (first second : DirectoryUpdate P) : Prop :=
  Signable.signedValue first = Signable.signedValue second

instance (first second : DirectoryUpdate P) : Decidable (first.SameWords second) :=
  inferInstanceAs (Decidable (Signable.signedValue first = Signable.signedValue second))

/-- Updates with the same signed words follow the same update. -/
theorem DirectoryUpdate.SameWords.prev {first second : DirectoryUpdate P}
    (same : first.SameWords second) : first.prevUpdateHash = second.prevUpdateHash :=
  (Prod.mk.inj (Bcs.toBytes_injective same)).1

/-- A primary, and what the owner of a key has signed. -/
structure OwnerRun (S : Smt P) where
  primary : Primary S
  published : List (Publication P)

inductive OwnerEvent (P : Primitives) where
  | operate (operation : OwnerOperation P) (response : DirectoryResponse P)
  | directory (event : PrimaryEvent P)

namespace OwnerRun

/-- The owner signed the words of the update. -/
def Signed (state : OwnerRun S) (update : DirectoryUpdate P) : Prop :=
  ∃ publication ∈ state.published, publication.update.SameWords update

instance (state : OwnerRun S) (update : DirectoryUpdate P) : Decidable (state.Signed update) :=
  inferInstanceAs (Decidable (∃ publication ∈ state.published, publication.update.SameWords update))

/-- The owner signed the words of the update in an operation on the key. -/
def SignedFor (state : OwnerRun S) (key : String) (update : DirectoryUpdate P) : Prop :=
  ∃ publication ∈ state.published, publication.key = key ∧ publication.update.SameWords update

/-- The update is under the owner's key. -/
def Under (signer : P.SigningSecret) (update : DirectoryUpdate P) : Prop :=
  Signable.verify update (P.publicKey signer) = true

instance (signer : P.SigningSecret) (update : DirectoryUpdate P) : Decidable (Under signer update) :=
  inferInstanceAs (Decidable (Signable.verify update (P.publicKey signer) = true))

/-- The event inserts an update under the owner's key which the owner never signed. -/
def forges (signer : P.SigningSecret) (state : OwnerRun S) : PrimaryEvent P → Bool
  | .insertRead _ _ _ update _ => decide (Under signer update ∧ ¬state.Signed update)
  | _ => false

/-- The primary and one owner as a machine. Nobody forges the owner's signature. -/
def machine (equixVerify : Bytes → Bytes → Bool) (signer : P.SigningSecret) :
    Machine (OwnerRun S) (OwnerEvent P) where
  step state
    | .operate operation response =>
        match operation.sign response signer with
        | .error _ => some state
        | .ok update =>
            some { state with
              published := state.published ++ [⟨operation.key, response.history, update⟩] }
    | .directory event =>
        if state.forges signer event then none
        else
          ((Primary.machine equixVerify).step state.primary event).map fun primary =>
            { state with primary := primary }

/-- Every accepted update under the owner's key was signed for the key it is accepted at. -/
def Bound (signer : P.SigningSecret) (state : OwnerRun S) : Prop :=
  ∀ key, ∀ update ∈ state.primary.accepted key, Under signer update → state.SignedFor key update

/-- An update which the owner signed for other keys only is not pushed where the key's line
is the very history it was signed over, and the owners of that history accept it. -/
def Apart (signer : P.SigningSecret) (state : OwnerRun S) : OwnerEvent P → Prop
  | .directory (.insertPush call) => ∀ insert, state.primary.reading.lookup call = some insert →
      Under signer insert.update → ¬state.SignedFor insert.key insert.update →
        ∀ publication ∈ state.published, publication.update.SameWords insert.update →
          publication.history = insert.history ++ state.primary.staged insert.key →
            ¬MaySign (ownersFrom [] publication.history) insert.update
  | _ => True

/-- What every run keeps: what was signed links to a valid history, and a waiting update
under the owner's key was signed. -/
structure Unforged (signer : P.SigningSecret) (state : OwnerRun S) : Prop where
  valid : ∀ publication ∈ state.published, ValidHistory publication.history
  links : ∀ publication ∈ state.published,
    publication.update.prevUpdateHash = prevUpdateHash publication.history
  waiting : ∀ call insert, state.primary.reading.lookup call = some insert →
    Under signer insert.update → state.Signed insert.update

/-- A primary over an empty database, before any operation of the owner. -/
def fresh (store : S.Store) : OwnerRun S := ⟨.fresh store, []⟩

theorem unforged_fresh (signer : P.SigningSecret) (store : S.Store) :
    (fresh store).Unforged signer where
  valid _ listed := absurd listed List.not_mem_nil
  links _ listed := absurd listed List.not_mem_nil
  waiting call insert found := by simp [fresh, Primary.fresh] at found

/-! ## Steps and runs -/

/-- A waiting insert waited before, or it has just read. -/
theorem waiting_step {equixVerify : Bytes → Bytes → Bool} {state next : Primary S}
    {event : PrimaryEvent P} (taken : (Primary.machine equixVerify).step state event = some next)
    {call : Nat} {insert : InsertCall P} (waiting : next.reading.lookup call = some insert) :
    state.reading.lookup call = some insert ∨
      ∃ env solution, event = .insertRead call env insert.key insert.update solution := by
  cases event with
  | insertRead other env key update solution =>
      obtain ⟨_, ⟨_, _, _, rfl⟩ | ⟨_, _, _, rfl⟩⟩ := Primary.step_insertRead taken
      · exact Or.inl waiting
      · rcases Table.lookup_insert_cases waiting with ⟨same, given⟩ | waiting
        · cases given
          exact Or.inr ⟨env, solution, same ▸ rfl⟩
        · exact Or.inl waiting
  | insertPush other =>
      obtain ⟨_, _, ⟨_, _, _, rfl⟩ | ⟨_, _, _, rfl⟩⟩ := Primary.step_insertPush taken
      · exact Or.inl (Table.lookup_of_lookup_erase waiting)
      · exact Or.inl (Table.lookup_of_lookup_erase waiting)
  | getPowSeed =>
      cases taken
      exact Or.inl waiting
  | commitTake =>
      obtain ⟨_, rfl⟩ := Primary.step_commitTake taken
      exact Or.inl waiting
  | commitFinish =>
      obtain ⟨_, _, rfl⟩ := Primary.step_commitFinish taken
      exact Or.inl waiting

/-- Only a push accepts an update. -/
theorem accepted_step {equixVerify : Bytes → Bytes → Bool} {state next : Primary S}
    {event : PrimaryEvent P} (noPush : ∀ call, event ≠ .insertPush call)
    (taken : (Primary.machine equixVerify).step state event = some next) :
    next.accepted = state.accepted := by
  cases event with
  | insertPush call => exact absurd rfl (noPush call)
  | insertRead call env key update solution =>
      obtain ⟨_, ⟨_, _, _, rfl⟩ | ⟨_, _, _, rfl⟩⟩ := Primary.step_insertRead taken
      · rfl
      · rfl
  | getPowSeed =>
      cases taken
      rfl
  | commitTake =>
      obtain ⟨_, rfl⟩ := Primary.step_commitTake taken
      rfl
  | commitFinish =>
      obtain ⟨_, _, rfl⟩ := Primary.step_commitFinish taken
      rfl

/-- A push accepts its update exactly when it extends the line which the insert sees. -/
theorem push_cases {equixVerify : Bytes → Bytes → Bool} {state next : Primary S} {call : Nat}
    (taken : (Primary.machine equixVerify).step state (.insertPush call) = some next) :
    ∃ insert, state.reading.lookup call = some insert ∧
      ((¬ValidHistory (insert.history ++ state.staged insert.key ++ [insert.update]) ∧
          next.accepted = state.accepted) ∨
        (ValidHistory (insert.history ++ state.staged insert.key ++ [insert.update]) ∧
          next.accepted = Function.update state.accepted insert.key
            (state.accepted insert.key ++ [insert.update]))) := by
  obtain ⟨insert, waiting, ⟨_, _, invalid, rfl⟩ | ⟨_, _, valid, rfl⟩⟩ :=
    Primary.step_insertPush taken
  · exact ⟨insert, waiting, Or.inl ⟨invalid, rfl⟩⟩
  · exact ⟨insert, waiting, Or.inr ⟨valid, rfl⟩⟩

/-- Nobody else can make the owner's signatures. -/
theorem Unforged.step {equixVerify : Bytes → Bytes → Bool} {signer : P.SigningSecret}
    {state next : OwnerRun S} {event : OwnerEvent P} (unforged : state.Unforged signer)
    (taken : (machine equixVerify signer).step state event = some next) :
    next.Unforged signer := by
  cases event with
  | operate operation response =>
      simp only [machine] at taken
      split at taken
      · cases taken
        exact unforged
      · rename_i update signed
        cases taken
        obtain ⟨valid, links⟩ := OwnerOperation.sign_spec signed
        refine ⟨?_, ?_, ?_⟩
        · intro publication listed
          rcases List.mem_append.mp listed with earlier | new
          · exact unforged.valid publication earlier
          · rw [List.mem_singleton.mp new]
            exact valid
        · intro publication listed
          rcases List.mem_append.mp listed with earlier | new
          · exact unforged.links publication earlier
          · rw [List.mem_singleton.mp new]
            exact links
        · intro call insert waiting under
          obtain ⟨publication, listed, same⟩ := unforged.waiting call insert waiting under
          exact ⟨publication, List.mem_append_left _ listed, same⟩
  | directory event =>
      simp only [machine] at taken
      split at taken
      · cases taken
      · rename_i genuine
        obtain ⟨primary, moved, rfl⟩ := Option.map_eq_some_iff.mp taken
        refine ⟨unforged.valid, unforged.links, ?_⟩
        intro call insert waiting under
        rcases waiting_step moved waiting with before | ⟨env, solution, rfl⟩
        · exact unforged.waiting call insert before under
        · by_contra unsigned
          exact genuine (decide_eq_true ⟨under, unsigned⟩)

/-- The line which accepts words that the owner signed is the history they were signed over. -/
theorem Unforged.line_eq (free : P.CollisionFree) {signer : P.SigningSecret} {state : OwnerRun S}
    (unforged : state.Unforged signer) {publication : Publication P}
    (listed : publication ∈ state.published) {line : List (DirectoryUpdate P)}
    {update : DirectoryUpdate P} (same : publication.update.SameWords update)
    (accepts : ValidHistory (line ++ [update])) : publication.history = line := by
  obtain ⟨valid, links, _⟩ := validHistory_snoc.mp accepts
  have hashes : prevUpdateHash publication.history = prevUpdateHash line := by
    rw [← unforged.links publication listed, same.prev, links]
  rw [prevUpdateHash_eq_tip, prevUpdateHash_eq_tip] at hashes
  exact (unforged.valid publication listed).linked.eq_of_tip free.updates valid.linked hashes

/-- What was signed for a name stays signed for it. -/
theorem SignedFor.later {state next : OwnerRun S} {key : String} {update : DirectoryUpdate P}
    (signed : state.SignedFor key update)
    (kept : ∀ publication ∈ state.published, publication ∈ next.published) :
    next.SignedFor key update := by
  obtain ⟨publication, listed, meant, same⟩ := signed
  exact ⟨publication, kept publication listed, meant, same⟩

/-- A push of an update which was signed for other keys only is accepted exactly when the
key's line is the history over which it was signed, and its owners accept it. -/
theorem Unforged.accepts_iff (free : P.CollisionFree) {signer : P.SigningSecret}
    {state : OwnerRun S} {call : Nat} {insert : InsertCall P} (unforged : state.Unforged signer)
    (waiting : state.primary.reading.lookup call = some insert)
    (under : Under signer insert.update) :
    ValidHistory (insert.history ++ state.primary.staged insert.key ++ [insert.update]) ↔
      ∃ publication ∈ state.published, publication.update.SameWords insert.update ∧
        publication.history = insert.history ++ state.primary.staged insert.key ∧
          MaySign (ownersFrom [] publication.history) insert.update := by
  constructor
  · intro accepts
    obtain ⟨publication, listed, same⟩ := unforged.waiting call insert waiting under
    have line := unforged.line_eq free listed same accepts
    exact ⟨publication, listed, same, line, line ▸ (validHistory_snoc.mp accepts).2.2⟩
  · rintro ⟨publication, listed, same, line, may⟩
    rw [← line, validHistory_snoc]
    refine ⟨unforged.valid publication listed, ?_, may⟩
    rw [← same.prev, unforged.links publication listed]

/-- A step keeps the updates bound to their names exactly when it meets the guard. -/
theorem bound_step (free : P.CollisionFree) {equixVerify : Bytes → Bytes → Bool}
    {signer : P.SigningSecret} {state next : OwnerRun S} {event : OwnerEvent P}
    (unforged : state.Unforged signer) (bound : state.Bound signer)
    (taken : (machine equixVerify signer).step state event = some next) :
    next.Bound signer ↔ Apart signer state event := by
  cases event with
  | operate operation response =>
      refine iff_of_true ?_ trivial
      simp only [machine] at taken
      split at taken
      · cases taken
        exact bound
      · cases taken
        intro key update accepted under
        exact (bound key update accepted under).later fun _ => List.mem_append_left _
  | directory event =>
      simp only [machine] at taken
      split at taken
      · cases taken
      · obtain ⟨primary, moved, rfl⟩ := Option.map_eq_some_iff.mp taken
        by_cases push : ∃ call, event = .insertPush call
        · obtain ⟨call, rfl⟩ := push
          obtain ⟨insert, waiting, outcome⟩ := push_cases moved
          constructor
          · intro nextBound found foundWaiting under foreign publication listed same line may
            cases waiting.symm.trans foundWaiting
            have accepts := (unforged.accepts_iff free waiting under).mpr
              ⟨publication, listed, same, line, may⟩
            rcases outcome with ⟨refused, _⟩ | ⟨_, accepted⟩
            · exact refused accepts
            · refine foreign (nextBound insert.key insert.update ?_ under)
              simp [accepted]
          · intro apart key update member under
            rcases outcome with ⟨_, kept⟩ | ⟨accepts, accepted⟩
            · rw [kept] at member
              exact bound key update member under
            · by_cases pushed : update ∈ state.primary.accepted key
              · exact bound key update pushed under
              · have new : key = insert.key ∧ update = insert.update := by
                  dsimp only at member
                  rw [accepted, Function.update_apply] at member
                  split at member
                  · rename_i same
                    subst same
                    exact ⟨rfl, by simpa [pushed] using member⟩
                  · exact absurd member pushed
                obtain ⟨rfl, rfl⟩ := new
                by_contra foreign
                obtain ⟨publication, listed, same, line, may⟩ :=
                  (unforged.accepts_iff free waiting under).mp accepts
                exact apart insert waiting under foreign publication listed same line may
        · have noPush : ∀ call, event ≠ .insertPush call := fun call same => push ⟨call, same⟩
          have guard : Apart signer state (.directory event) := by
            cases event with
            | insertPush call => exact absurd rfl (noPush call)
            | _ => trivial
          refine iff_of_true ?_ guard
          intro key update accepted under
          rw [show primary.accepted = _ from accepted_step noPush moved] at accepted
          exact bound key update accepted under

/-- Every update under the owner's key is accepted only where the owner meant it, exactly
in the runs in which no update is pushed at another key whose line is the history that the
update was signed over. -/
theorem bound_iff (free : P.CollisionFree) (equixVerify : Bytes → Bytes → Bool)
    (signer : P.SigningSecret) (store : S.Store) (events : List (OwnerEvent P)) :
    (machine equixVerify signer).Always (Bound signer) (fresh store) events ↔
      (machine equixVerify signer).Along (Apart signer) (fresh store) events :=
  Machine.always_iff_along_within (Unforged signer) (fun unforged taken => unforged.step taken)
    (fun unforged bound taken => bound_step free unforged bound taken)
    (unforged_fresh signer store) fun _ _ accepted => absurd accepted List.not_mem_nil

def aliceSecret : symbolic.SigningSecret := (1 : UInt8)

/-- The owner claims "@alice". Somebody takes the update and claims "@bobby" with it. -/
def foreignRun : List (OwnerEvent symbolic) :=
  [.directory (.getPowSeed [9] 0 true true), .directory .commitTake,
    .directory (.commitFinish Primary.quietCommit),
    .operate (.addOwner alice 1) ⟨[], 0, []⟩,
    .directory (.insertRead 0 Primary.quietInsert alice.str (firstUpdate 1) Primary.zeroSolution),
    .directory (.insertPush 0),
    .directory (.insertRead 1 Primary.quietInsert bobby.str (firstUpdate 1) Primary.zeroSolution),
    .directory (.insertPush 1)]

theorem bound_iff_foreignRun :
    (machine (fun _ _ => true) aliceSecret).Always (Bound aliceSecret)
        (fresh (S := symbolicSmt) ()) foreignRun ↔
      (machine (fun _ _ => true) aliceSecret).Along (Apart aliceSecret)
        (fresh (S := symbolicSmt) ()) foreignRun :=
  bound_iff symbolic_collisionFree _ _ _ _

/-- The run in which the update is sent under another name breaks the binding. -/
theorem foreignRun_breaks :
    ¬(machine (fun _ _ => true) aliceSecret).Always (Bound aliceSecret)
      (fresh (S := symbolicSmt) ()) foreignRun := by
  intro always
  have ends : ((machine (fun _ _ => true) aliceSecret).exec (fresh (S := symbolicSmt) ())
      foreignRun).map (fun state => (state.primary.accepted bobby.str, state.published)) =
      some ([firstUpdate 1], [⟨alice.str, [], firstUpdate 1⟩]) := by decide +kernel
  obtain ⟨state, reached, held⟩ := Option.map_eq_some_iff.mp ends
  simp only [Prod.mk.injEq] at held
  obtain ⟨accepted, published⟩ := held
  have under : Under aliceSecret (firstUpdate 1) := by decide +kernel
  obtain ⟨publication, listed, meant, _⟩ :=
    always.last reached bobby.str (firstUpdate 1) (by simp [accepted]) under
  rw [published, List.mem_singleton] at listed
  rw [listed] at meant
  exact absurd meant (by decide)

end OwnerRun
end Nullspace
