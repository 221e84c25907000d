import Nullspace.Client.NewDevice
import Nullspace.DirClient.Listing
import Nullspace.Server.Separation
import Nullspace.Server.TokenSecrecy

/-!
# Registering a new username

`register_bootstrap` draws a device secret, makes its key the owner of the username,
publishes the descriptor, gets a token and a medium-term key accepted by the server, and
only then writes the secret to the local database. A run takes these steps one at a time;
each may fail before or after its effect, and the process may stop between any two. The
directory keeps what it has accepted for the name, and shows what it has committed.
-/

namespace Nullspace

open Nullspace.Base

variable {P : Primitives}

/-- What the user asks for: `BootstrapNewUser`, with the server of that name. -/
structure RegisterRequest where
  username : UserName
  server : ServerConfig

/-- The two updates which a registration inserts. -/
inductive NameUpdate where
  | owner
  | descriptor

/-- Where `register_bootstrap` is. -/
inductive RegisterAttempt (P : Primitives) where
  | checkName
  | findServer
  /-- Before the history is fetched for an update. -/
  | fetch (update : NameUpdate) (secret : P.SigningSecret)
  | insert (update : NameUpdate) (secret : P.SigningSecret) (signed : DirectoryUpdate P)
  /-- `wait_for_update`. -/
  | await (update : NameUpdate) (secret : P.SigningSecret) (signed : DirectoryUpdate P)
  | deviceAuth (secret : P.SigningSecret)
  | mediumKey (secret : P.SigningSecret) (auth : AuthToken)
  | persist (secret : P.SigningSecret) (mediumSk : P.DhSecret)

/-- The step draws a device secret whose key was drawn before. -/
def RegisterAttempt.redraws (drawn : List P.SigningPublic) (secret : P.SigningSecret) :
    RegisterAttempt P → Bool
  | .findServer => drawn.contains (P.publicKey secret)
  | _ => false

/-- How a step goes: a step which fails may have had its effect already. -/
inductive Fate where
  | works
  | failsBefore
  | failsAfter
deriving DecidableEq

/-- What one step meets and draws. -/
structure RegisterEnv (P : Primitives) where
  fate : Fate
  serverKnown : Bool
  secret : P.SigningSecret
  mediumSk : P.DhSecret
  created : Timestamp
  call : CallEnv P

/-- What a registration reads and writes. -/
structure RegisterWorld (P : Primitives) where
  /-- The updates which the directory has accepted for the username. -/
  accepted : List (DirectoryUpdate P)
  /-- How many of them are committed. -/
  committed : Nat
  server : ServerDb P
  /-- The row of `client_identity`. -/
  identity : Option (Identity P)
  attempt : Option (RegisterAttempt P)
  /-- The keys drawn so far. The code keeps no such record. -/
  drawn : List P.SigningPublic

inductive RegisterEvent (P : Primitives) where
  /-- The user asks for the registration. -/
  | begin
  | advance (env : RegisterEnv P)
  /-- The process stops. -/
  | stop
  | commit

/-- The descriptor which a registration publishes. -/
def RegisterRequest.descriptor (request : RegisterRequest) (secret : P.SigningSecret) :
    UserDescriptor P :=
  ⟨request.server.serverName, P.bcsHash (P.publicKey secret)⟩

/-- `add_owner` and `insert_user_descriptor`, up to the insertion. -/
def NameUpdate.sign (request : RegisterRequest) (response : DirectoryResponse P)
    (secret : P.SigningSecret) :
    NameUpdate → Except DirectoryHistoryError (DirectoryUpdate P)
  | .owner => addOwner response (P.publicKey secret) secret
  | .descriptor => insertUserDescriptor response (request.descriptor secret) secret

/-- What follows once an update is in the directory. -/
def NameUpdate.next (secret : P.SigningSecret) : NameUpdate → RegisterAttempt P
  | .owner => .fetch .descriptor secret
  | .descriptor => .deviceAuth secret

/-- `get_user_descriptor`, from a verified response. -/
def getUserDescriptor (response : DirectoryResponse P) :
    Except String (Option (UserDescriptor P)) :=
  match buildListing response with
  | .error err => .error err.message
  | .ok listing =>
      match listing.latest with
      | none => .ok none
      | some latest =>
          if latest.kind ≠ Blob.v1UserDescriptor then
            .error ("unexpected message kind: " ++ latest.kind)
          else
            match Bcs.fromBytes latest.inner with
            | none => .error "invalid user descriptor"
            | some descriptor => .ok (some descriptor)

/-- The medium-term key which `register_medium_key` signs. -/
def signedMediumPk (secret : P.SigningSecret) (mediumSk : P.DhSecret) (created : Timestamp) :
    SignedMediumPk P :=
  ⟨P.dhPublicKey mediumSk, created,
    P.sign secret (Bcs.toBytes (P.dhPublicKey mediumSk, created))⟩

namespace RegisterWorld

/-- What a query for the username returns. -/
def shown (world : RegisterWorld P) : DirectoryResponse P :=
  ⟨world.accepted.take world.committed, 0, []⟩

/-- The server asks the directory about the username too; a failed lookup stays one. -/
def serverCall (world : RegisterWorld P) (request : RegisterRequest) (call : CallEnv P) :
    CallEnv P :=
  { call with
    descriptor := fun username =>
      if username = request.username then
        match call.descriptor username, getUserDescriptor world.shown with
        | some _, .ok descriptor => some descriptor
        | _, _ => none
      else call.descriptor username }

/-- `v1_insert_update` at the username, by its verdict over the accepted history. -/
def insertUpdate (world : RegisterWorld P) (signed : DirectoryUpdate P) :
    Except DirectoryErr (RegisterWorld P) :=
  match verifyHistory (world.accepted ++ [signed]) with
  | .error err => .error (.updateRejected err.message)
  | .ok () => .ok { world with accepted := world.accepted ++ [signed] }

/-- `persist_identity`: the table has one row at most. -/
def persistIdentity (world : RegisterWorld P) (identity : Identity P) :
    Except InternalRpcError (RegisterWorld P) :=
  match world.identity with
  | some _ => .error (.other "UNIQUE constraint failed: client_identity.id")
  | none => .ok { world with identity := some identity }

/-- One step of `register_bootstrap`, and where it goes on, if it does. -/
def perform (request : RegisterRequest) (env : RegisterEnv P) (world : RegisterWorld P) :
    RegisterAttempt P → RegisterWorld P × Except InternalRpcError (Option (RegisterAttempt P))
  | .checkName =>
      match getUserDescriptor world.shown with
      | .error text => (world, .error (.other text))
      | .ok (some _) => (world, .error (.other "username already exists"))
      | .ok none => (world, .ok (some .findServer))
  | .findServer =>
      if env.serverKnown then
        ({ world with drawn := world.drawn ++ [P.publicKey env.secret] },
          .ok (some (.fetch .owner env.secret)))
      else (world, .error (.other "server not found"))
  | .fetch update secret =>
      match update.sign request world.shown secret with
      | .error err => (world, .error (.other err.message))
      | .ok signed => (world, .ok (some (.insert update secret signed)))
  | .insert update secret signed =>
      match world.insertUpdate signed with
      | .error err => (world, .error (.other err.message))
      | .ok next => (next, .ok (some (.await update secret signed)))
  | .await update secret signed =>
      if signed.hash ∈ world.shown.history.map DirectoryUpdate.hash then
        (world, .ok (some (update.next secret)))
      else (world, .ok (some (.await update secret signed)))
  | .deviceAuth secret =>
      match world.server.deviceAuth request.server (world.serverCall request env.call)
          request.username (bootstrapChain secret) with
      | (server, .error err) => ({ world with server := server }, .error (.other err.message))
      | (server, .ok auth) =>
          ({ world with server := server }, .ok (some (.mediumKey secret auth)))
  | .mediumKey secret auth =>
      match world.server.deviceAddMediumPk env.call auth
          (signedMediumPk secret env.mediumSk env.created) with
      | (server, .error err) => ({ world with server := server }, .error (.other err.message))
      | (server, .ok _) =>
          ({ world with server := server }, .ok (some (.persist secret env.mediumSk)))
  | .persist secret mediumSk =>
      match world.persistIdentity (.persisted request.username request.server.serverName secret
          (bootstrapChain secret) mediumSk) with
      | .error err => (world, .error err)
      | .ok next => (next, .ok none)

/-- The attempt after a step: an error ends it, and the user gets the error. -/
def settle : RegisterWorld P × Except InternalRpcError (Option (RegisterAttempt P)) →
    RegisterWorld P
  | (world, .error _) => { world with attempt := none }
  | (world, .ok attempt) => { world with attempt := attempt }

/-- The directory commits what it has accepted. -/
def commit (world : RegisterWorld P) : RegisterWorld P :=
  { world with committed := world.accepted.length }

/-- One registration at a time, again and again. A key is never drawn twice. -/
def machine (request : RegisterRequest) : Machine (RegisterWorld P) (RegisterEvent P) where
  step world
    | .begin =>
        match world.attempt, world.identity with
        | some _, _ => none
        | none, some _ => some world
        | none, none => some { world with attempt := some .checkName }
    | .advance env =>
        match world.attempt with
        | none => none
        | some phase =>
            if phase.redraws world.drawn env.secret then none
            else
              match env.fate with
              | .works => some (settle (perform request env world phase))
              | .failsBefore => some { world with attempt := none }
              | .failsAfter => some { (perform request env world phase).1 with attempt := none }
    | .stop => some { world with attempt := none }
    | .commit => some world.commit

/-- Before anything was registered. -/
def start (server : ServerDb P) : RegisterWorld P := ⟨[], 0, server, none, none, []⟩

/-! ## What a registration leads to -/

/-- The first update of a registration. -/
def ownerUpdate (secret : P.SigningSecret) : DirectoryUpdate P :=
  signedUpdate P.zeroHash (.addOwner (P.publicKey secret)) secret

/-- The update which a registration puts behind it. -/
def descriptorUpdate (request : RegisterRequest) (secret : P.SigningSecret) : DirectoryUpdate P :=
  signedUpdate (ownerUpdate secret).hash
    (.update ⟨Blob.v1UserDescriptor, Bcs.toBytes (request.descriptor (P := P) secret)⟩) secret

section Updates

variable (request : RegisterRequest) (secret : P.SigningSecret)

theorem owners_ownerUpdate : ownersFrom [] [ownerUpdate secret] = [P.publicKey secret] := by
  simp [ownersFrom, nextOwners, ownerUpdate, signedUpdate]

theorem owners_descriptorUpdate :
    ownersFrom [] [ownerUpdate secret, descriptorUpdate request secret] = [P.publicKey secret] :=
  owners_ownerUpdate secret

variable (signs : P.SignsCorrectly)

include signs

theorem validHistory_ownerUpdate : ValidHistory [ownerUpdate secret] := by
  rw [← List.nil_append [ownerUpdate secret], validHistory_snoc]
  exact ⟨validHistory_nil, rfl, Or.inr ⟨rfl, P.publicKey secret, rfl, signs secret _⟩⟩

theorem validHistory_descriptorUpdate :
    ValidHistory [ownerUpdate secret, descriptorUpdate request secret] := by
  rw [← List.singleton_append, validHistory_snoc]
  refine ⟨validHistory_ownerUpdate secret signs, rfl, Or.inl ?_⟩
  rw [owners_ownerUpdate]
  exact ⟨List.cons_ne_nil _ _, P.publicKey secret, List.mem_singleton_self _, signs secret _⟩

/-- A query behind both updates returns the descriptor. -/
theorem getUserDescriptor_descriptorUpdate (height : Nat) (branch : Bytes) :
    getUserDescriptor ⟨[ownerUpdate secret, descriptorUpdate request secret], height, branch⟩ =
      .ok (some (request.descriptor secret)) := by
  have valid : verifyHistory [ownerUpdate secret, descriptorUpdate request secret] = .ok () :=
    validHistory_descriptorUpdate request secret signs
  simp only [getUserDescriptor, buildListing, valid]
  simp [DirectoryListing.apply, ownerUpdate, descriptorUpdate, signedUpdate]

end Updates

/-- The chain of the first device verifies under its own key. -/
theorem bootstrapChain_verifies (signs : P.SignsCorrectly) (secret : P.SigningSecret)
    {now : Timestamp} (early : now < maxTimestamp) :
    (bootstrapChain secret).verifies now (P.bcsHash (P.publicKey secret)) = true := by
  have selfVerifies := verify_issueCertificate signs secret (P.publicKey secret) maxTimestamp true
  have trusted : (bootstrapChain secret).Trusted now (P.bcsHash (P.publicKey secret)) := by
    refine ⟨?_, ⟨_, List.mem_singleton_self _, rfl, early⟩, ?_, early, Or.inl ⟨rfl, selfVerifies⟩⟩
    · intro cert listed _
      rw [List.mem_singleton.mp listed]
      exact selfVerifies
    · intro cert listed apart
      rw [List.mem_singleton.mp listed] at apart
      exact absurd rfl apart
  rw [CertificateChain.verifies, CertificateChain.verify_eq_ok.mpr trusted]

/-- A new token belongs to the device for which it was inserted. -/
theorem tokenOwner_inserted {db : ServerDb P} {username : UserName} {device : P.Hash}
    {token : AuthToken} (absent : db.deviceAuthTokens.lookup (username, device) = none) :
    (db.insertAuthToken username device token).tokenOwner? token = some (username, device) := by
  have missing : (username, device) ∉
      db.deviceAuthTokens.keep fun other => decide (other ≠ token) := by
    rw [← AList.lookup_eq_none, Table.lookup_keep]
    · exact absent
    · intro row found
      rw [absent] at found
      cases found
  rw [ServerDb.tokenOwner?, ServerDb.insertAuthToken, Table.rows_insert missing,
    List.find?_cons_of_pos (by simp)]
  rfl

/-- The server knows the device of a registration by a token. -/
structure Enrolled (request : RegisterRequest) (secret : P.SigningSecret) (auth : AuthToken)
    (server : ServerDb P) : Prop where
  owner : server.tokenOwner? auth =
    some (request.username, ServerDb.deviceHash (bootstrapChain secret))
  certificate : server.deviceCertificates.lookup (ServerDb.deviceHash (bootstrapChain secret)) =
    some ⟨request.username, bootstrapChain secret⟩

/-- The server takes the device of a published descriptor. -/
theorem deviceAuth_enrols (signs : P.SignsCorrectly) (request : RegisterRequest)
    {call : CallEnv P} {secret : P.SigningSecret} {server : ServerDb P}
    (published : call.descriptor request.username = some (some (request.descriptor secret)))
    (works : call.dbFails = false) (early : call.clock < maxTimestamp)
    (absent : server.deviceAuthTokens.lookup
      (request.username, ServerDb.deviceHash (bootstrapChain secret)) = none) :
    ∃ next auth, server.deviceAuth request.server call request.username (bootstrapChain secret) =
        (next, .ok auth) ∧ Enrolled request secret auth next := by
  have accepts : WatchedServer.Accepts request.server call request.username
      (bootstrapChain secret) :=
    ⟨⟨_, published, rfl, bootstrapChain_verifies signs secret early⟩, works⟩
  rcases ServerDb.deviceAuth_cases request.server call request.username (bootstrapChain secret)
    server with ⟨err, _, refused⟩ | ⟨next, auth, answered, _, tokens⟩
  · exact absurd accepts refused
  · rcases tokens with ⟨known, _⟩ | ⟨rfl, tokens⟩
    · rw [absent] at known
      cases known
    · refine ⟨next, call.freshToken, answered, ?_, ?_⟩
      · rw [ServerDb.tokenOwner?, tokens]
        exact tokenOwner_inserted absent
      · have tables := ServerDb.deviceAuth_tables (congrArg Prod.snd answered)
        rw [answered] at tables
        rw [tables.1, AList.lookup_insert]

/-- The server takes the medium-term key of an enrolled device. -/
theorem deviceAddMediumPk_enrolled (signs : P.SignsCorrectly) {request : RegisterRequest}
    {call : CallEnv P} {secret : P.SigningSecret} {auth : AuthToken} {server : ServerDb P}
    (enrolled : Enrolled request secret auth server) (works : call.dbFails = false)
    (mediumSk : P.DhSecret) {created : Timestamp} (fits : ServerDb.fitsI64 created = true) :
    ∃ next, server.deviceAddMediumPk call auth (signedMediumPk secret mediumSk created) =
      (next, .ok ()) := by
  have signed : Signable.verify (signedMediumPk secret mediumSk created)
      (bootstrapChain secret).lastDevice.pk = true := signs secret _
  have stamp : ServerDb.fitsI64 (signedMediumPk secret mediumSk created).created = true := fits
  rw [ServerDb.deviceAddMediumPk]
  simp only [works, enrolled.owner, enrolled.certificate, signed, stamp, ne_eq, not_true_eq_false,
    Bool.not_true, Bool.false_eq_true, if_false]
  exact ⟨_, rfl⟩

end RegisterWorld
end Nullspace
