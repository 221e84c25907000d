import Nullspace.Base.HashChain
import Nullspace.Base.Table
import Nullspace.Structs.Basic

/-!
# Directory entries and histories

A key of the directory holds a history: updates linked by hash, each signed by an owner
of the moment. `verifyHistory` is the check which the primary, its mirrors and the
clients share.
-/

namespace Nullspace

open Nullspace.Base

variable (P : Primitives)

inductive DirectoryUpdateInner where
  | addOwner (owner : P.SigningPublic)
  | delOwner (owner : P.SigningPublic)
  | update (blob : Blob)
deriving DecidableEq

structure DirectoryUpdate where
  prevUpdateHash : P.Hash
  updateType : DirectoryUpdateInner P
  signature : P.Signature
deriving DecidableEq

/-- The header of a directory snapshot. -/
structure DirectoryHeader where
  prev : P.Hash
  smtRoot : P.Hash
  timeUnix : UInt64
deriving DecidableEq

/-- A header with the updates it commits, by key. -/
structure DirectoryChunk where
  header : DirectoryHeader P
  updates : Table String (List (DirectoryUpdate P))

/-- The signed statement of which header is the last one. -/
structure DirectoryAnchor where
  directoryId : String
  lastHeaderHeight : Nat
  lastHeaderHash : P.Hash
  signature : P.Signature
deriving DecidableEq

/-- An answer to a query: a history, and a proof of it under the header at a height. -/
structure DirectoryResponse where
  history : List (DirectoryUpdate P)
  proofHeight : Nat
  proofMerkleBranch : Bytes
deriving DecidableEq

/-- A proof of work for a seed. -/
structure PowSolution where
  seed : P.Hash
  nonce : UInt64
  solution : Bytes
deriving DecidableEq

variable {P}

inductive DirectoryErr where
  | retryLater
  | updateRejected (reason : String)
deriving DecidableEq

def DirectoryErr.message : DirectoryErr → String
  | .retryLater => "retry later"
  | .updateRejected reason => "update rejected (reason: " ++ reason ++ ")"

inductive DirectoryHistoryError where
  | noOwners
  | invalidSignature
  | invalidPrevHash
deriving DecidableEq

def DirectoryHistoryError.message : DirectoryHistoryError → String
  | .noOwners => "no owners available to verify update"
  | .invalidSignature => "invalid update signature"
  | .invalidPrevHash => "update hash does not link to previous update"

/-- The variants are numbered in the order of their declaration. -/
instance : Bcs (DirectoryUpdateInner P) where
  put
    | .addOwner owner => 0 :: Bcs.put owner
    | .delOwner owner => 1 :: Bcs.put owner
    | .update blob => 2 :: Bcs.put blob
  get
    | 0 :: rest => (Bcs.get rest).map fun (owner, rest) => (.addOwner owner, rest)
    | 1 :: rest => (Bcs.get rest).map fun (owner, rest) => (.delOwner owner, rest)
    | 2 :: rest => (Bcs.get rest).map fun (blob, rest) => (.update blob, rest)
    | _ => none
  get_put value rest := by cases value <;> simp [Bcs.get_put]

instance : Bcs (DirectoryUpdate P) :=
  Bcs.iso (fun (prev, type, signature) => DirectoryUpdate.mk prev type signature)
    (fun update => (update.prevUpdateHash, update.updateType, update.signature)) fun _ => rfl

instance : Bcs (DirectoryHeader P) :=
  Bcs.iso (fun (prev, root, time) => DirectoryHeader.mk prev root time)
    (fun header => (header.prev, header.smtRoot, header.timeUnix)) fun _ => rfl

instance : Signable P (DirectoryUpdate P) where
  signedValue update := Bcs.toBytes (update.prevUpdateHash, update.updateType)
  signature update := update.signature

instance : Signable P (DirectoryAnchor P) where
  signedValue anchor :=
    Bcs.toBytes (anchor.directoryId, UInt64.ofNat anchor.lastHeaderHeight, anchor.lastHeaderHash)
  signature anchor := anchor.signature

/-- `DirectoryUpdate::hash`. -/
def DirectoryUpdate.hash (update : DirectoryUpdate P) : P.Hash := P.bcsHash update

/-- `Hash::digest` of an encoded header. -/
def DirectoryHeader.hash (header : DirectoryHeader P) : P.Hash := P.bcsHash header

/-- Updates of one history, linked by `prev_update_hash`. -/
def updateLinking (P : Primitives) : Linking (DirectoryUpdate P) P.Hash where
  prev := DirectoryUpdate.prevUpdateHash
  hash := DirectoryUpdate.hash
  genesis := P.zeroHash

/-- Headers of the directory, linked by `prev`. -/
def headerLinking (P : Primitives) : Linking (DirectoryHeader P) P.Hash where
  prev := DirectoryHeader.prev
  hash := DirectoryHeader.hash
  genesis := P.zeroHash

/-- Without collisions an update is told by its hash. -/
theorem Primitives.CollisionFree.updates (free : P.CollisionFree) :
    (updateLinking P).CollisionFree where
  injective _ _ same := free.bcsHash_inj.mp same
  neverGenesis update := free.bcsHash_ne_zero update

/-- Without collisions a header is told by its hash. -/
theorem Primitives.CollisionFree.headers (free : P.CollisionFree) :
    (headerLinking P).CollisionFree where
  injective _ _ same := free.bcsHash_inj.mp same
  neverGenesis header := free.bcsHash_ne_zero header

/-- The owners after an update, from the owners before it. -/
def nextOwners (owners : List P.SigningPublic) : DirectoryUpdateInner P → List P.SigningPublic
  | .addOwner owner => if owner ∈ owners then owners else owners ++ [owner]
  | .delOwner owner => owners.filter fun existing => decide (existing ≠ owner)
  | .update _ => owners

/-- Whether an update is signed as the owners of the moment require, and whether there is
any key it could have been verified with. -/
def signatureVerdict (owners : List P.SigningPublic) (update : DirectoryUpdate P) : Bool × Bool :=
  if owners.isEmpty then
    match update.updateType with
    | .addOwner owner => (Signable.verify update owner, true)
    | _ => (false, false)
  else (owners.any fun owner => Signable.verify update owner, true)

/-- The loop of `verify_history`, from the owners and the hash reached so far. -/
def verifyHistoryFrom (owners : List P.SigningPublic) (prevHash : Option P.Hash) :
    List (DirectoryUpdate P) → Except DirectoryHistoryError Unit
  | [] => .ok ()
  | update :: rest =>
      if update.prevUpdateHash ≠ prevHash.getD P.zeroHash then .error .invalidPrevHash
      else
        match signatureVerdict owners update with
        | (false, true) => .error .invalidSignature
        | (false, false) => .error .noOwners
        | (true, _) =>
            verifyHistoryFrom (nextOwners owners update.updateType) (some update.hash) rest

/-- `verify_history`. -/
def verifyHistory (history : List (DirectoryUpdate P)) : Except DirectoryHistoryError Unit :=
  verifyHistoryFrom [] none history

/-- The history passes `verify_history`. -/
def ValidHistory (history : List (DirectoryUpdate P)) : Prop := verifyHistory history = .ok ()

instance (history : List (DirectoryUpdate P)) : Decidable (ValidHistory history) :=
  inferInstanceAs (Decidable (verifyHistory history = .ok ()))

/-- The owners after a history. -/
def ownersFrom (owners : List P.SigningPublic) (history : List (DirectoryUpdate P)) :
    List P.SigningPublic :=
  history.foldl (fun owners update => nextOwners owners update.updateType) owners

/-- The hash of the last update, once there is one. -/
def lastHashFrom (prevHash : Option P.Hash) (history : List (DirectoryUpdate P)) : Option P.Hash :=
  history.foldl (fun _ update => some update.hash) prevHash

/-- A history verifies when its first update is linked and signed and the rest verifies under the
owners which that leaves. -/
theorem verifyHistoryFrom_cons {owners : List P.SigningPublic} {prevHash : Option P.Hash}
    {update : DirectoryUpdate P} {rest : List (DirectoryUpdate P)} :
    verifyHistoryFrom owners prevHash (update :: rest) = .ok () ↔
      update.prevUpdateHash = prevHash.getD P.zeroHash ∧
        (signatureVerdict owners update).1 = true ∧
          verifyHistoryFrom (nextOwners owners update.updateType) (some update.hash) rest =
            .ok () := by
  rw [verifyHistoryFrom]
  by_cases linked : update.prevUpdateHash = prevHash.getD P.zeroHash
  · rcases verdict : signatureVerdict owners update with ⟨valid, canVerify⟩
    cases valid <;> cases canVerify <;> simp [linked]
  · simp [linked]

/-- A history in two parts verifies when the second part does under what the first one leaves. -/
theorem verifyHistoryFrom_append {owners : List P.SigningPublic} {prevHash : Option P.Hash}
    {first second : List (DirectoryUpdate P)} :
    verifyHistoryFrom owners prevHash (first ++ second) = .ok () ↔
      verifyHistoryFrom owners prevHash first = .ok () ∧
        verifyHistoryFrom (ownersFrom owners first) (lastHashFrom prevHash first) second =
          .ok () := by
  induction first generalizing owners prevHash with
  | nil => simp [verifyHistoryFrom, ownersFrom, lastHashFrom]
  | cons update rest ih =>
      rw [List.cons_append, verifyHistoryFrom_cons, verifyHistoryFrom_cons, ih]
      simp [ownersFrom, lastHashFrom, and_assoc]

/-- Every prefix of a valid history is valid. -/
theorem ValidHistory.of_append {first second : List (DirectoryUpdate P)}
    (valid : ValidHistory (first ++ second)) : ValidHistory first :=
  (verifyHistoryFrom_append.mp valid).1

theorem validHistory_nil : ValidHistory ([] : List (DirectoryUpdate P)) := rfl

/-- The updates of a verified history are linked by their hashes. -/
theorem linkedFrom_of_verifyHistoryFrom {owners : List P.SigningPublic} {prevHash : Option P.Hash}
    {history : List (DirectoryUpdate P)}
    (verified : verifyHistoryFrom owners prevHash history = .ok ()) :
    (updateLinking P).LinkedFrom (prevHash.getD P.zeroHash) history := by
  induction history generalizing owners prevHash with
  | nil => trivial
  | cons update rest ih =>
      obtain ⟨named, _, tail⟩ := verifyHistoryFrom_cons.mp verified
      exact ⟨named, ih tail⟩

/-- A valid history is a hash chain. -/
theorem ValidHistory.linked {history : List (DirectoryUpdate P)} (valid : ValidHistory history) :
    (updateLinking P).Linked history :=
  linkedFrom_of_verifyHistoryFrom valid

end Nullspace
