import Nullspace.Server.Mailbox

/-!
# Device authentication

`deviceAuth` asks for a certificate chain which verifies; it asks for nothing which only
the holder of the device key could make. `deviceList` gives the chains to everyone.
-/

namespace Nullspace

open Nullspace.Base

variable {P : Primitives}

namespace ServerDb

/-- What `device_auth` checks before it opens its transaction. -/
def checkChain (config : ServerConfig) (env : CallEnv P) (username : UserName)
    (cert : CertificateChain P) : Except ServerRpcError Unit :=
  match env.descriptor username with
  | none => .error .retryLater
  | some none => .error .accessDenied
  | some (some descriptor) =>
      if descriptor.serverName ≠ config.serverName then .error .accessDenied
      else if !cert.verifies env.clock descriptor.rootCertHash then .error .accessDenied
      else .ok ()

/-- The hash which names the device of a chain. -/
def deviceHash (cert : CertificateChain P) : P.Hash := P.bcsHash cert.lastDevice.pk

/-- `device_auth`. A device keeps the token which it got first. -/
def deviceAuth (config : ServerConfig) (env : CallEnv P) (username : UserName)
    (cert : CertificateChain P) (db : ServerDb P) : ServerDb P × Except ServerRpcError AuthToken :=
  match checkChain config env username cert with
  | .error err => (db, .error err)
  | .ok () =>
      if env.dbFails then (db, .error .retryLater)
      else
        let listed := { db with
          deviceCertificates := db.deviceCertificates.insert (deviceHash cert) ⟨username, cert⟩ }
        match db.deviceAuthTokens.lookup (username, deviceHash cert) with
        | some token =>
            match listed.updateDmMailbox env.now username none with
            | none => (db, .error .retryLater)
            | some next => (next, .ok token)
        | none =>
            match (listed.insertAuthToken username (deviceHash cert) env.freshToken).updateDmMailbox
                env.now username (some env.freshToken) with
            | none => (db, .error .retryLater)
            | some next => (next, .ok env.freshToken)

/-- `device_list`. -/
def deviceList (env : CallEnv P) (username : UserName) (db : ServerDb P) :
    Except ServerRpcError (Option (List (P.Hash × CertificateChain P))) :=
  if env.dbFails then .error .retryLater
  else
    match db.certificatesOf username with
    | [] => .ok none
    | rows => .ok (some rows)

/-- `i64::try_from` of a timestamp. -/
def fitsI64 (created : Timestamp) : Bool := decide (created.toNat < 2 ^ 63)

/-- `device_add_medium_pk`. -/
def deviceAddMediumPk (env : CallEnv P) (auth : AuthToken) (mediumPk : SignedMediumPk P)
    (db : ServerDb P) : ServerDb P × Except ServerRpcError Unit :=
  if env.dbFails then (db, .error .retryLater)
  else
    match db.tokenOwner? auth with
    | none => (db, .error .accessDenied)
    | some (username, hash) =>
        match db.deviceCertificates.lookup hash with
        | none => (db, .error .accessDenied)
        | some row =>
            if row.username ≠ username then (db, .error .accessDenied)
            else if deviceHash row.certChain ≠ hash then (db, .error .accessDenied)
            else if !Signable.verify mediumPk row.certChain.lastDevice.pk then
              (db, .error .accessDenied)
            else if !fitsI64 mediumPk.created then (db, .error .retryLater)
            else
              ({ db with deviceMediumPks := db.deviceMediumPks.insert hash mediumPk }, .ok ())

/-- `device_medium_pks`: the keys of the devices for which the user has a token. -/
def deviceMediumPksOf (env : CallEnv P) (username : UserName) (db : ServerDb P) :
    Except ServerRpcError (List (P.Hash × SignedMediumPk P)) :=
  if env.dbFails then .error .retryLater
  else
    .ok (db.deviceMediumPks.rows.filter fun (hash, _) =>
      decide ((username, hash) ∈ db.deviceAuthTokens))

def profileGet (env : CallEnv P) (username : UserName) (db : ServerDb P) :
    Except ServerRpcError (Option (UserProfile P)) :=
  if env.dbFails then .error .retryLater else .ok (db.userProfiles.lookup username)

/-- `profile_set`: some listed device has to have signed it, and it has to be newer. -/
def profileSet (env : CallEnv P) (username : UserName) (profile : UserProfile P)
    (db : ServerDb P) : ServerDb P × Except ServerRpcError Unit :=
  if env.dbFails then (db, .error .retryLater)
  else if !(db.certificatesOf username).any fun (_, chain) =>
      Signable.verify profile chain.lastDevice.pk then (db, .error .accessDenied)
  else if !fitsI64 profile.created then (db, .error .retryLater)
  else
    let stale : Bool :=
      match db.userProfiles.lookup username with
      | none => false
      | some previous => decide (profile.created ≤ previous.created)
    if stale then (db, .error .accessDenied)
    else ({ db with userProfiles := db.userProfiles.insert username profile }, .ok ())

/-- `upsert_fragment_row`: the later expiry wins, and none is the latest. -/
def upsertFragmentRow (rows : Table P.Hash FragmentRow) (hash : P.Hash) (row : FragmentRow) :
    Table P.Hash FragmentRow :=
  match rows.lookup hash with
  | none => rows.insert hash row
  | some earlier =>
      let expiresAt : Option NanoTimestamp :=
        match earlier.expiresAt, row.expiresAt with
        | some before, some after => if asI64 before > asI64 after then some before else some after
        | _, _ => none
      rows.insert hash ⟨earlier.createdAt, expiresAt, row.size⟩

/-- `upload_frag`: the file is written before the transaction. -/
def uploadFrag (env : CallEnv P) (auth : AuthToken) (frag : Fragment P) (ttl : UInt32)
    (db : ServerDb P) : ServerDb P × Except ServerRpcError Unit :=
  if !db.authTokenExists auth then (db, .error .accessDenied)
  else
    let hash := P.bcsHash frag
    let filed := { db with fragmentFiles := db.fragmentFiles.insert hash frag }
    if env.dbFails then (filed, .error .retryLater)
    else
      ({ filed with
        fragments := upsertFragmentRow db.fragments hash
          ⟨env.now, expiresAtFromTtl env.now ttl, (Bcs.toBytes frag).length⟩ }, .ok ())

def downloadFrag (hash : P.Hash) (db : ServerDb P) : Except ServerRpcError (Option (Fragment P)) :=
  .ok (db.fragmentFiles.lookup hash)

end ServerDb
end Nullspace
