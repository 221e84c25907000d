import Nullspace.Structs.Directory

/-!
# Listings, and what owners sign

`buildListing` is what a query hands to its caller: the last content of a name and its
owners, folded over the history on their own. `validHistory_snoc_iff` says that these
owners are the keys which decide about the next update. The operations of the client
sign an update which links to the history that they were shown.
-/

namespace Nullspace

open Nullspace.Base

variable (P : Primitives)

/-- What the history of a key says about it. -/
structure DirectoryListing where
  latest : Option Blob
  owners : List P.SigningPublic
deriving DecidableEq

/-- The addresses and the key of a server. An address is written as its text. -/
structure ServerDescriptor where
  publicUrls : List String
  serverPk : P.SigningPublic
deriving DecidableEq

variable {P}

instance : Bcs (ServerDescriptor P) :=
  Bcs.iso (fun (publicUrls, serverPk) => ServerDescriptor.mk publicUrls serverPk)
    (fun descriptor => (descriptor.publicUrls, descriptor.serverPk)) fun _ => rfl

/-- One update in the loop of `build_listing`. -/
def DirectoryListing.apply (listing : DirectoryListing P) (update : DirectoryUpdate P) :
    DirectoryListing P :=
  match update.updateType with
  | .addOwner owner =>
      if listing.owners.contains owner then listing
      else { listing with owners := listing.owners ++ [owner] }
  | .delOwner owner =>
      { listing with owners := listing.owners.filter fun existing => decide (existing ≠ owner) }
  | .update message => { listing with latest := some message }

/-- `build_listing`. -/
def buildListing (response : DirectoryResponse P) :
    Except DirectoryHistoryError (DirectoryListing P) :=
  match verifyHistory response.history with
  | .error err => .error err
  | .ok () => .ok (response.history.foldl DirectoryListing.apply ⟨none, []⟩)

/-- `prev_update_hash`. -/
def prevUpdateHash (history : List (DirectoryUpdate P)) : P.Hash :=
  match history.getLast? with
  | some update => update.hash
  | none => P.zeroHash

/-- `signed_update`. -/
def signedUpdate (prevUpdateHash : P.Hash) (updateType : DirectoryUpdateInner P)
    (signer : P.SigningSecret) : DirectoryUpdate P :=
  ⟨prevUpdateHash, updateType, P.sign signer (Bcs.toBytes (prevUpdateHash, updateType))⟩

/-- The update which an operation signs over the verified response for its name. -/
def operationUpdate (response : DirectoryResponse P) (updateType : DirectoryUpdateInner P)
    (signer : P.SigningSecret) : Except DirectoryHistoryError (DirectoryUpdate P) :=
  match verifyHistory response.history with
  | .error err => .error err
  | .ok () => .ok (signedUpdate (prevUpdateHash response.history) updateType signer)

def insertUserDescriptor (response : DirectoryResponse P) (descriptor : UserDescriptor P)
    (signer : P.SigningSecret) : Except DirectoryHistoryError (DirectoryUpdate P) :=
  operationUpdate response (.update ⟨Blob.v1UserDescriptor, Bcs.toBytes descriptor⟩) signer

def insertServerDescriptor (response : DirectoryResponse P) (descriptor : ServerDescriptor P)
    (signer : P.SigningSecret) : Except DirectoryHistoryError (DirectoryUpdate P) :=
  operationUpdate response (.update ⟨Blob.v1ServerDescriptor, Bcs.toBytes descriptor⟩) signer

def addOwner (response : DirectoryResponse P) (owner : P.SigningPublic)
    (signer : P.SigningSecret) : Except DirectoryHistoryError (DirectoryUpdate P) :=
  operationUpdate response (.addOwner owner) signer

def addServerOwner (response : DirectoryResponse P) (owner : P.SigningPublic)
    (signer : P.SigningSecret) : Except DirectoryHistoryError (DirectoryUpdate P) :=
  operationUpdate response (.addOwner owner) signer

def delOwner (response : DirectoryResponse P) (owner : P.SigningPublic)
    (signer : P.SigningSecret) : Except DirectoryHistoryError (DirectoryUpdate P) :=
  operationUpdate response (.delOwner owner) signer

def delServerOwner (response : DirectoryResponse P) (owner : P.SigningPublic)
    (signer : P.SigningSecret) : Except DirectoryHistoryError (DirectoryUpdate P) :=
  operationUpdate response (.delOwner owner) signer

/-! ## The owners of a listing -/

/-- The update is signed as the owners require: by one of them, or, when there is none, by
the key which it adds. -/
def MaySign (owners : List P.SigningPublic) (update : DirectoryUpdate P) : Prop :=
  (owners ≠ [] ∧ ∃ owner ∈ owners, Signable.verify update owner = true) ∨
    (owners = [] ∧ ∃ owner, update.updateType = .addOwner owner ∧
      Signable.verify update owner = true)

/-- The verdict on a signature asks who may sign. -/
theorem signatureVerdict_iff {owners : List P.SigningPublic} {update : DirectoryUpdate P} :
    (signatureVerdict owners update).1 = true ↔ MaySign owners update := by
  rw [signatureVerdict, MaySign]
  cases owners with
  | nil =>
      simp only [List.isEmpty_nil, if_true, ne_eq, not_true_eq_false, false_and, true_and, false_or]
      cases update.updateType with
      | addOwner owner => simp
      | delOwner owner => simp
      | update blob => simp
  | cons owner owners => simp

/-- One update changes a listing's owners as it changes those of `verify_history`. -/
theorem DirectoryListing.apply_owners (listing : DirectoryListing P) (update : DirectoryUpdate P) :
    (listing.apply update).owners = nextOwners listing.owners update.updateType := by
  rw [DirectoryListing.apply]
  cases update.updateType with
  | addOwner owner =>
      simp only [nextOwners, List.contains_iff_mem]
      split <;> rfl
  | delOwner owner => rfl
  | update message => rfl

/-- A listing collects the owners which the history leaves. -/
theorem foldl_apply_owners (history : List (DirectoryUpdate P)) (listing : DirectoryListing P) :
    (history.foldl DirectoryListing.apply listing).owners = ownersFrom listing.owners history := by
  induction history generalizing listing with
  | nil => rfl
  | cons update rest ih =>
      rw [List.foldl_cons, ih, DirectoryListing.apply_owners]
      rfl

/-- A listing is built from a valid history, and from no other. -/
theorem buildListing_isOk {response : DirectoryResponse P} :
    (∃ listing, buildListing response = .ok listing) ↔ ValidHistory response.history := by
  rw [ValidHistory, buildListing]
  cases verifyHistory response.history with
  | error err => simp
  | ok done => simp

/-- The owners of a listing are those which the history leaves. -/
theorem buildListing_owners {response : DirectoryResponse P} {listing : DirectoryListing P}
    (built : buildListing response = .ok listing) :
    listing.owners = ownersFrom [] response.history := by
  rw [buildListing] at built
  split at built
  · cases built
  · cases built
    exact foldl_apply_owners response.history ⟨none, []⟩

/-- The hash to be named next is that of the last update. -/
theorem lastHashFrom_getD (history : List (DirectoryUpdate P)) :
    (lastHashFrom none history).getD P.zeroHash = prevUpdateHash history := by
  induction history using List.reverseRecOn with
  | nil => rfl
  | append_singleton history update _ =>
      rw [lastHashFrom, List.foldl_append, prevUpdateHash, List.getLast?_append]
      rfl

/-- An operation names the tip of the history. -/
theorem prevUpdateHash_eq_tip (history : List (DirectoryUpdate P)) :
    prevUpdateHash history = (updateLinking P).tip history := by
  induction history using List.reverseRecOn with
  | nil => rfl
  | append_singleton history update _ =>
      rw [prevUpdateHash, List.getLast?_append, Linking.tip, Linking.tipFrom_snoc]
      rfl

/-- What the next update of a valid history has to be, in terms of the owners reached. -/
theorem validHistory_snoc {history : List (DirectoryUpdate P)} {update : DirectoryUpdate P} :
    ValidHistory (history ++ [update]) ↔ ValidHistory history ∧
      update.prevUpdateHash = prevUpdateHash history ∧
        MaySign (ownersFrom [] history) update := by
  rw [ValidHistory, ValidHistory, verifyHistory, verifyHistory, verifyHistoryFrom_append,
    verifyHistoryFrom_cons, lastHashFrom_getD, signatureVerdict_iff]
  simp [verifyHistoryFrom]

/-- The owners of a listing decide about the next update: it extends the history when it
links to it and is signed as they require. So every prefix of a valid history is valid,
and the listed owners are the keys which may sign: a linked update under one of them is
accepted, one under another key alone is not. -/
theorem validHistory_snoc_iff (response : DirectoryResponse P) :
    (∀ update, ValidHistory (response.history ++ [update]) ↔
      ValidHistory response.history ∧
        update.prevUpdateHash = prevUpdateHash response.history ∧
          ∃ listing, buildListing response = .ok listing ∧ MaySign listing.owners update) ∧
      (ValidHistory response.history →
        ∀ shorter, shorter <+: response.history → ValidHistory shorter) ∧
      (∀ listing, buildListing response = .ok listing → listing.owners ≠ [] →
        ∀ update, update.prevUpdateHash = prevUpdateHash response.history →
          ∀ key, Signable.verify update key = true →
            (key ∈ listing.owners → ValidHistory (response.history ++ [update])) ∧
              (key ∉ listing.owners →
                (∀ other, Signable.verify update other = true → other = key) →
                  ¬ValidHistory (response.history ++ [update]))) := by
  refine ⟨?_, ?_, ?_⟩
  · intro update
    rw [validHistory_snoc]
    refine and_congr_right fun valid => and_congr_right fun _ => ?_
    obtain ⟨listing, built⟩ := buildListing_isOk.mpr valid
    rw [← buildListing_owners built]
    constructor
    · intro may
      exact ⟨listing, built, may⟩
    · rintro ⟨other, otherBuilt, may⟩
      cases built.symm.trans otherBuilt
      exact may
  · rintro valid shorter ⟨rest, whole⟩
    rw [← whole] at valid
    exact valid.of_append
  · intro listing built owned update linked key verified
    have valid := buildListing_isOk.mp ⟨listing, built⟩
    rw [validHistory_snoc, ← buildListing_owners built]
    constructor
    · intro owner
      exact ⟨valid, linked, Or.inl ⟨owned, key, owner, verified⟩⟩
    · rintro stranger only ⟨_, _, ⟨_, owner, listed, signed⟩ | ⟨empty, _⟩⟩
      · exact stranger (only owner signed ▸ listed)
      · exact owned empty

end Nullspace
