import Nullspace.Server.Device

/-!
# The server's calls

All calls of the protocol as one function from a request to a response.
-/

namespace Nullspace

open Nullspace.Base

variable (P : Primitives)

/-- A call of `ServerProtocol`. The request of a proxied call is opaque. -/
inductive ServerRequest where
  | deviceAuth (username : UserName) (cert : CertificateChain P)
  | deviceCerts (username : UserName)
  | deviceMediumPks (username : UserName)
  | profile (username : UserName)
  | profileSet (username : UserName) (value : UserProfile P)
  | deviceAddMediumPk (auth : AuthToken) (mediumPk : SignedMediumPk P)
  | mailboxSend (auth : AuthToken) (mailbox : MailboxId P) (message : Blob) (ttl : UInt32)
  | mailboxMultirecv (args : List (MailboxRecvArgs P)) (timeoutMs : UInt64)
  | mailboxAclEdit (auth : AuthToken) (mailbox : MailboxId P) (arg : MailboxAcl P)
  | registerGroup (auth : AuthToken) (group : GroupId P)
  | proxyServer (auth : AuthToken) (server : ServerName) (req : Bytes)
  | proxyDirectory (auth : AuthToken) (req : Bytes)
  | uploadFrag (auth : AuthToken) (frag : Fragment P) (ttl : UInt32)
  | downloadFrag (hash : P.Hash)

inductive ServerResponse where
  | authToken (result : Except ServerRpcError AuthToken)
  | certs (result : Except ServerRpcError (Option (List (P.Hash × CertificateChain P))))
  | mediumPks (result : Except ServerRpcError (List (P.Hash × SignedMediumPk P)))
  | profile (result : Except ServerRpcError (Option (UserProfile P)))
  | receivedAt (result : Except ServerRpcError NanoTimestamp)
  | entries (result : Except ServerRpcError (List (MailboxId P × List (MailboxEntry P))))
  | done (result : Except ServerRpcError Unit)
  | proxied (result : Except ProxyError Bytes)
  | fragment (result : Except ServerRpcError (Option (Fragment P)))

variable {P}

/-- What a proxied call returns: a caller without a token is turned away. -/
def proxyAnswer (env : CallEnv P) (enabled : Bool) (auth : AuthToken) (db : ServerDb P) :
    Except ProxyError Bytes :=
  if !enabled then .error .notSupported
  else if env.dbFails then .error (.upstream "rate limited, retry later")
  else if !db.authTokenExists auth then .error .notSupported
  else
    match env.upstream with
    | none => .error (.upstream "call failed")
    | some answer => .ok answer

/-- Answer one request. -/
def ServerDb.handle (config : ServerConfig) (env : CallEnv P) (db : ServerDb P) :
    ServerRequest P → ServerDb P × ServerResponse P
  | .deviceAuth username cert =>
      let (next, result) := db.deviceAuth config env username cert
      (next, .authToken result)
  | .deviceCerts username => (db, .certs (db.deviceList env username))
  | .deviceMediumPks username => (db, .mediumPks (db.deviceMediumPksOf env username))
  | .profile username => (db, .profile (db.profileGet env username))
  | .profileSet username value =>
      let (next, result) := db.profileSet env username value
      (next, .done result)
  | .deviceAddMediumPk auth mediumPk =>
      let (next, result) := db.deviceAddMediumPk env auth mediumPk
      (next, .done result)
  | .mailboxSend auth mailbox message ttl =>
      let (next, result) := db.mailboxSend env.now env.dbFails auth mailbox message ttl
      (next, .receivedAt result)
  | .mailboxMultirecv args _ =>
      let (next, result) := db.mailboxMultirecv env args
      (next, .entries result)
  | .mailboxAclEdit auth mailbox arg =>
      let (next, result) := db.mailboxAclEdit env auth mailbox arg
      (next, .done result)
  | .registerGroup auth group =>
      let (next, result) := db.registerGroup env auth group
      (next, .done result)
  | .proxyServer auth _ _ => (db, .proxied (proxyAnswer env config.proxyEnabled auth db))
  | .proxyDirectory auth _ => (db, .proxied (proxyAnswer env true auth db))
  | .uploadFrag auth frag ttl =>
      let (next, result) := db.uploadFrag env auth frag ttl
      (next, .done result)
  | .downloadFrag hash => (db, .fragment (db.downloadFrag hash))

end Nullspace
