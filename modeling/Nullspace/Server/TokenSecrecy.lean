import Nullspace.Base.Machine
import Nullspace.Server.Frame
import Nullspace.Symbolic

/-!
# Who can get a device's token

A run is a list of calls by an adversary and by others, in any order, each with its own
clock readings, directory answers and failures. The adversary may send any request
whatever, also one which it could not put together from what it knows. It learns the
tokens in the responses which get back to it: only `device_auth` returns a token, a mailbox
entry carries the hash of its sender's. What other parties put into messages is opaque here.

A server passes a proxied request on unread and its answer back unread, and the server at the
other end may be itself. So a request which it has forwarded may arrive here later, as a call of
its own, and the answer is for the caller which had it forwarded. A request which other servers
have forwarded is a call here whose answer is for the first caller.

A fresh token is random: a run in which one repeats an issued token is left out.
-/

namespace Nullspace

open Nullspace.Base

variable {P : Primitives}

inductive Caller where
  | adversary
  | other
deriving DecidableEq

/-- A call, who makes it, and what it meets. -/
structure ServerCall (P : Primitives) where
  caller : Caller
  env : CallEnv P
  request : ServerRequest P

/-- A token and the device for which `device_auth` issued it. -/
structure IssuedToken (P : Primitives) where
  username : UserName
  device : P.Hash
  token : AuthToken
deriving DecidableEq

/-- A server, with a record of the tokens it issued and of those the adversary learned. -/
structure WatchedServer (P : Primitives) where
  db : ServerDb P
  issued : List (IssuedToken P)
  learned : List AuthToken

/-- The token which a response hands out. -/
def ServerResponse.token? : ServerResponse P → Option AuthToken
  | .authToken (.ok token) => some token
  | _ => none

/-- The device for which a request wants a token. -/
def ServerRequest.device? : ServerRequest P → Option (UserName × P.Hash)
  | .deviceAuth username cert => some (username, ServerDb.deviceHash cert)
  | _ => none

namespace WatchedServer

def fresh : WatchedServer P := ⟨.empty, [], []⟩

/-- The server as a machine over calls. -/
def machine (config : ServerConfig) : Machine (WatchedServer P) (ServerCall P) where
  step state call :=
    if call.env.freshToken ∈ state.issued.map IssuedToken.token then none
    else
      let (db, response) := state.db.handle config call.env call.request
      match call.request.device?, response.token? with
      | some (username, device), some token =>
          some ⟨db, state.issued ++ [⟨username, device, token⟩],
            if call.caller = .adversary then state.learned ++ [token] else state.learned⟩
      | _, _ => some { state with db := db }

/-- The adversary has no token of a device which is not its own. -/
def Secret (owns : P.Hash → Prop) (state : WatchedServer P) : Prop :=
  ∀ entry ∈ state.issued, ¬owns entry.device → entry.token ∉ state.learned

/-- A chain which the server accepts for a username at the time of the call. -/
def Accepts (config : ServerConfig) (env : CallEnv P) (username : UserName)
    (cert : CertificateChain P) : Prop :=
  (∃ descriptor, env.descriptor username = some (some descriptor) ∧
    descriptor.serverName = config.serverName ∧
    cert.verifies env.clock descriptor.rootCertHash = true) ∧ env.dbFails = false

/-- The adversary presents acceptable chains of its own devices only. -/
def Possession (config : ServerConfig) (owns : P.Hash → Prop) (_ : WatchedServer P)
    (call : ServerCall P) : Prop :=
  call.caller = .adversary → ∀ username cert, call.request = .deviceAuth username cert →
    Accepts config call.env username cert → owns (ServerDb.deviceHash cert)

/-- A chain passes when the directory has the user at this server, with a root under which it
verifies. -/
theorem checkChain_ok {config : ServerConfig} {env : CallEnv P} {username : UserName}
    {cert : CertificateChain P} :
    ServerDb.checkChain config env username cert = .ok () ↔
      ∃ descriptor, env.descriptor username = some (some descriptor) ∧
        descriptor.serverName = config.serverName ∧
        cert.verifies env.clock descriptor.rootCertHash = true := by
  rw [ServerDb.checkChain]
  cases env.descriptor username with
  | none => simp
  | some found =>
      cases found with
      | none => simp
      | some descriptor =>
          by_cases server : descriptor.serverName = config.serverName
          · cases verdict : cert.verifies env.clock descriptor.rootCertHash <;>
              simp [server, verdict]
          · simp [server]

end WatchedServer

namespace ServerDb

/-- The access rows of a direct mailbox can always be written. -/
theorem updateDmMailbox_defined (db : ServerDb P) (now : NanoTimestamp) (username : UserName)
    (newToken : Option AuthToken) : ∃ next, db.updateDmMailbox now username newToken = some next := by
  have known : MailboxId.direct username ∈
      (db.insertMailbox (MailboxId.direct username) now).mailboxes := by
    simp only [insertMailbox]
    split
    · assumption
    · exact (AList.mem_insert _).mpr (Or.inl rfl)
  simp only [updateDmMailbox, insertAcl, known, if_true]
  cases newToken <;> simp

/-- The tokens after a successful `device_auth`: the device's token is in the table, and
every other row was there before. -/
theorem deviceAuth_cases (config : ServerConfig) (env : CallEnv P) (username : UserName)
    (cert : CertificateChain P) (db : ServerDb P) :
    (∃ err, db.deviceAuth config env username cert = (db, .error err) ∧
      ¬WatchedServer.Accepts config env username cert) ∨
    ∃ next token, db.deviceAuth config env username cert = (next, .ok token) ∧
      WatchedServer.Accepts config env username cert ∧
      ((db.deviceAuthTokens.lookup (username, deviceHash cert) = some token ∧
          next.deviceAuthTokens = db.deviceAuthTokens) ∨
        (token = env.freshToken ∧ next.deviceAuthTokens =
          (db.insertAuthToken username (deviceHash cert) token).deviceAuthTokens)) := by
  rw [deviceAuth]
  cases checked : checkChain config env username cert with
  | error err =>
      refine Or.inl ⟨err, rfl, fun accepts => ?_⟩
      have passes := WatchedServer.checkChain_ok.mpr accepts.1
      simp [checked] at passes
  | ok value =>
      have verified := WatchedServer.checkChain_ok.mp checked
      cases fails : env.dbFails with
      | true =>
          exact Or.inl ⟨.retryLater, rfl, fun accepts => by simp [WatchedServer.Accepts, fails] at accepts⟩
      | false =>
          have accepts : WatchedServer.Accepts config env username cert := ⟨verified, fails⟩
          refine Or.inr ?_
          simp only [Bool.false_eq_true, if_false]
          cases existing : db.deviceAuthTokens.lookup (username, deviceHash cert) with
          | some token =>
              obtain ⟨next, updated⟩ := updateDmMailbox_defined { db with
                deviceCertificates := db.deviceCertificates.insert (deviceHash cert)
                  ⟨username, cert⟩ } env.now username none
              simp only [updated]
              exact ⟨next, token, rfl, accepts, Or.inl ⟨rfl, (aside_updateDmMailbox updated).tokens⟩⟩
          | none =>
              obtain ⟨next, updated⟩ := updateDmMailbox_defined
                (insertAuthToken { db with
                  deviceCertificates := db.deviceCertificates.insert (deviceHash cert)
                    ⟨username, cert⟩ } username (deviceHash cert) env.freshToken) env.now username
                (some env.freshToken)
              simp only [updated]
              exact ⟨next, env.freshToken, rfl, accepts,
                Or.inr ⟨rfl, (aside_updateDmMailbox updated).tokens⟩⟩

end ServerDb

namespace WatchedServer

/-- The invariant: the table holds issued tokens, no token was issued to two devices, and
what the adversary learned belongs to its own devices. -/
structure Traced (owns : P.Hash → Prop) (state : WatchedServer P) : Prop where
  table : ∀ username device token,
    state.db.deviceAuthTokens.lookup (username, device) = some token →
      ⟨username, device, token⟩ ∈ state.issued
  once : ∀ first ∈ state.issued, ∀ second ∈ state.issued, first.token = second.token →
    first = second
  learned : ∀ token ∈ state.learned, ∃ entry ∈ state.issued, entry.token = token ∧
    owns entry.device

theorem traced_fresh (owns : P.Hash → Prop) : (fresh (P := P)).Traced owns where
  table _ _ _ found := by simp [fresh, ServerDb.empty] at found
  once _ listed := by simp [fresh] at listed
  learned _ listed := by simp [fresh] at listed

/-- Where tokens are traced, they are secret. -/
theorem Traced.secret {owns : P.Hash → Prop} {state : WatchedServer P}
    (traced : state.Traced owns) : state.Secret owns := by
  intro entry listed foreign learned
  obtain ⟨own, ownListed, same, owned⟩ := traced.learned entry.token learned
  exact foreign (traced.once own ownListed entry listed same ▸ owned)

/-- A token which is about to be handed out goes into the record. -/
theorem Traced.issue {owns : P.Hash → Prop} {state : WatchedServer P} {next : ServerDb P}
    {username : UserName} {device : P.Hash} {token fresh : AuthToken} {caller : Caller}
    (traced : state.Traced owns) (unused : fresh ∉ state.issued.map IssuedToken.token)
    (handed : state.db.deviceAuthTokens.lookup (username, device) = some token ∧
        next.deviceAuthTokens = state.db.deviceAuthTokens ∨
      token = fresh ∧ next.deviceAuthTokens =
        (state.db.insertAuthToken username device token).deviceAuthTokens)
    (owned : caller = .adversary → owns device) :
    Traced owns ⟨next, state.issued ++ [⟨username, device, token⟩],
      if caller = .adversary then state.learned ++ [token] else state.learned⟩ := by
  -- either the entry repeats one of the record, or its token is new
  have alone : ∀ entry ∈ state.issued, entry.token = token → entry = ⟨username, device, token⟩ := by
    intro entry listed same
    rcases handed with ⟨found, _⟩ | ⟨rfl, _⟩
    · exact traced.once entry listed _ (traced.table username device token found) same
    · exact absurd (List.mem_map.mpr ⟨entry, listed, same⟩) unused
  refine ⟨?_, ?_, ?_⟩
  · intro otherName otherDevice otherToken found
    rcases handed with ⟨_, kept⟩ | ⟨_, inserted⟩
    · rw [kept] at found
      exact List.mem_append_left _ (traced.table _ _ _ found)
    · rw [inserted, ServerDb.insertAuthToken, Table.lookup_insert_eq] at found
      split at found
      · rename_i same
        obtain ⟨rfl, rfl⟩ := Prod.mk.inj same
        cases found
        exact List.mem_append_right _ List.mem_cons_self
      · exact List.mem_append_left _ (traced.table _ _ _ (Table.lookup_of_lookup_keep found))
  · intro first firstListed second secondListed same
    rcases List.mem_append.mp firstListed with firstEarlier | firstNew <;>
      rcases List.mem_append.mp secondListed with secondEarlier | secondNew
    · exact traced.once first firstEarlier second secondEarlier same
    · obtain rfl := List.mem_singleton.mp secondNew
      exact alone first firstEarlier same
    · obtain rfl := List.mem_singleton.mp firstNew
      exact (alone second secondEarlier same.symm).symm
    · rw [List.mem_singleton.mp firstNew, List.mem_singleton.mp secondNew]
  · have earlier : ∀ learned ∈ state.learned, ∃ entry ∈ state.issued ++ [⟨username, device, token⟩],
        entry.token = learned ∧ owns entry.device := by
      intro learned listed
      obtain ⟨entry, entryListed, held⟩ := traced.learned learned listed
      exact ⟨entry, List.mem_append_left _ entryListed, held⟩
    intro learned listed
    dsimp only at listed
    split at listed
    · rename_i adversary
      rcases List.mem_append.mp listed with before | new
      · exact earlier learned before
      · obtain rfl := List.mem_singleton.mp new
        exact ⟨_, List.mem_append_right _ List.mem_cons_self, rfl, owned adversary⟩
    · exact earlier learned listed

/-- What a step does: it hands out a token, or leaves the record and the tokens. -/
theorem step_cases {config : ServerConfig} {state next : WatchedServer P} {call : ServerCall P}
    (taken : (machine config).step state call = some next) :
    call.env.freshToken ∉ state.issued.map IssuedToken.token ∧
      ((∃ username cert db token, call.request = .deviceAuth username cert ∧
          state.db.deviceAuth config call.env username cert = (db, .ok token) ∧
          next = ⟨db, state.issued ++ [⟨username, ServerDb.deviceHash cert, token⟩],
            if call.caller = .adversary then state.learned ++ [token] else state.learned⟩) ∨
        ((∀ username cert, call.request = .deviceAuth username cert →
            ¬Accepts config call.env username cert ∧ next = state) ∧
          next.db.deviceAuthTokens = state.db.deviceAuthTokens ∧
          next = { state with db := (state.db.handle config call.env call.request).1 })) := by
  obtain ⟨caller, env, request⟩ := call
  simp only [machine] at taken
  split at taken
  · cases taken
  · rename_i unused
    refine ⟨unused, ?_⟩
    by_cases auth : ∃ username cert, request = .deviceAuth username cert
    · obtain ⟨username, cert, rfl⟩ := auth
      rcases ServerDb.deviceAuth_cases config env username cert state.db with
        ⟨err, outcome, refused⟩ | ⟨db, token, outcome, _, _⟩
      · simp only [ServerDb.handle, outcome, ServerRequest.device?, ServerResponse.token?] at taken
        cases taken
        have kept : (state.db.handle config env (.deviceAuth username cert)).1 = state.db := by
          simp only [ServerDb.handle, outcome]
        refine Or.inr ⟨?_, rfl, by rw [kept]⟩
        intro otherName otherCert same
        cases same
        exact ⟨refused, rfl⟩
      · simp only [ServerDb.handle, outcome, ServerRequest.device?, ServerResponse.token?] at taken
        cases taken
        exact Or.inl ⟨username, cert, db, token, rfl, outcome, rfl⟩
    · have noAuth : ∀ username cert, request ≠ .deviceAuth username cert :=
        fun username cert same => auth ⟨username, cert, same⟩
      have device : request.device? = none := by
        cases request with
        | deviceAuth username cert => exact absurd rfl (noAuth username cert)
        | _ => rfl
      simp only [device] at taken
      cases taken
      exact Or.inr ⟨fun username cert same => absurd same (noAuth username cert),
        ServerDb.handle_tokens config env state.db noAuth, rfl⟩

/-- A step which meets the guard keeps the invariant. -/
theorem Traced.step {config : ServerConfig} {owns : P.Hash → Prop} {state next : WatchedServer P}
    {call : ServerCall P} (traced : state.Traced owns) (possession : Possession config owns state call)
    (taken : (machine config).step state call = some next) : next.Traced owns := by
  obtain ⟨unused, ⟨username, cert, db, token, isAuth, accepted, rfl⟩ | ⟨_, tokens, rfl⟩⟩ :=
    step_cases taken
  · rcases ServerDb.deviceAuth_cases config call.env username cert state.db with
      ⟨err, outcome, _⟩ | ⟨_, _, outcome, accepts, handed⟩
    · cases accepted.symm.trans outcome
    · cases accepted.symm.trans outcome
      exact traced.issue unused handed fun adversary =>
        possession adversary username cert isAuth accepts
  · exact ⟨fun username device token found => traced.table username device token (tokens ▸ found),
      traced.once, traced.learned⟩

end WatchedServer

/-- The checks of `v1_proxy_server` before it looks for the other server. -/
def ServerDb.forwards (config : ServerConfig) (env : CallEnv P) (auth : AuthToken)
    (db : ServerDb P) : Bool :=
  config.proxyEnabled && !env.dbFails && db.authTokenExists auth

/-- A proxied call returns an answer exactly when it passes the checks and one comes back. -/
theorem proxyAnswer_eq_ok {config : ServerConfig} {env : CallEnv P} {auth : AuthToken}
    {db : ServerDb P} {answer : Bytes} :
    proxyAnswer env config.proxyEnabled auth db = .ok answer ↔
      db.forwards config env auth = true ∧ env.upstream = some answer := by
  rw [proxyAnswer, ServerDb.forwards]
  cases config.proxyEnabled <;> cases env.dbFails <;> cases db.authTokenExists auth <;>
    cases env.upstream <;> simp

/-- The call as the server sees it: without its answer the caller learns nothing. -/
def ServerCall.answered (call : ServerCall P) (returns : Bool) : ServerCall P :=
  { call with caller := if returns then call.caller else .other }

/-- A server, and the requests which it has forwarded, with their callers. -/
structure ForwardingServer (P : Primitives) where
  watched : WatchedServer P
  forwarded : List (Caller × Bytes)

inductive ForwardingEvent (P : Primitives) where
  /-- A call arrives, straight from its caller or through other servers. -/
  | call (call : ServerCall P) (returns : Bool)
  /-- A request arrives which this server has forwarded to itself. -/
  | hop (position : Nat) (env : CallEnv P) (returns : Bool)

/-- The answer gets back to the caller. -/
def ForwardingEvent.returns : ForwardingEvent P → Bool
  | .call _ returns => returns
  | .hop _ _ returns => returns

namespace ForwardingServer

open WatchedServer (Accepts Secret Traced)

def fresh : ForwardingServer P := ⟨.fresh, []⟩

/-- The call which an event brings. A server reads `parse req` in a forwarded `req`. -/
def callOf (parse : Bytes → Option (ServerRequest P)) (state : ForwardingServer P) :
    ForwardingEvent P → Option (ServerCall P)
  | .call call _ => some call
  | .hop position env _ =>
      match state.forwarded[position]? with
      | none => none
      | some (caller, req) => (parse req).map fun request => ⟨caller, env, request⟩

/-- The forwarded requests which are still on their way. -/
def underWay (state : ForwardingServer P) : ForwardingEvent P → List (Caller × Bytes)
  | .call _ _ => state.forwarded
  | .hop position _ _ => state.forwarded.eraseIdx position

/-- The request which a call has forwarded. -/
def passOn (config : ServerConfig) (db : ServerDb P) (call : ServerCall P) :
    List (Caller × Bytes) :=
  match call.request with
  | .proxyServer auth _ req =>
      if db.forwards config call.env auth then [(call.caller, req)] else []
  | _ => []

/-- The server as a machine over calls and over forwarded requests which come back to it. -/
def machine (parse : Bytes → Option (ServerRequest P)) (config : ServerConfig) :
    Machine (ForwardingServer P) (ForwardingEvent P) where
  step state event :=
    match state.callOf parse event with
    | none => none
    | some call =>
        match (WatchedServer.machine config).step state.watched (call.answered event.returns) with
        | none => none
        | some watched =>
            some ⟨watched, state.underWay event ++ passOn config state.watched.db call⟩

/-- The adversary gets an answer to acceptable chains of its own devices only, also when servers
have forwarded them. -/
def Possession (parse : Bytes → Option (ServerRequest P)) (config : ServerConfig)
    (owns : P.Hash → Prop) (state : ForwardingServer P) (event : ForwardingEvent P) : Prop :=
  event.returns = true → ∀ env username cert,
    state.callOf parse event = some ⟨.adversary, env, .deviceAuth username cert⟩ →
      Accepts config env username cert → owns (ServerDb.deviceHash cert)

variable {parse : Bytes → Option (ServerRequest P)} {config : ServerConfig}
  {owns : P.Hash → Prop} {state next : ForwardingServer P} {event : ForwardingEvent P}

end ForwardingServer

namespace WatchedServer

def exampleServer : ServerConfig := ⟨symbolicServer, false⟩

def aliceChain : CertificateChain symbolic := rootChain 1 100

/-- The directory names the root device of every user. -/
def envWith (freshToken : AuthToken) : CallEnv symbolic where
  now := 0
  clock := 0
  descriptor _ := some (some ⟨exampleServer.serverName, symbolic.bcsHash (1 : UInt8)⟩)
  freshToken := freshToken
  dbFails := false
  upstream := none
  served := none

def tokenOf (byte : UInt8) : AuthToken := ⟨⟨List.replicate 20 byte, List.length_replicate⟩⟩

/-- A server on which Alice's device has authenticated itself. -/
def registeredDb : ServerDb symbolic :=
  (ServerDb.empty.deviceAuth exampleServer (envWith (tokenOf 1)) alice aliceChain).1

end WatchedServer

namespace ForwardingServer

open WatchedServer (Secret aliceChain envWith exampleServer tokenOf)

/-- The same chain in a request which the adversary has the server forward to itself, with the
token of its own device. -/
def forwardedRun : List (ForwardingEvent symbolic) :=
  let bobbyEnv : CallEnv symbolic :=
    { envWith (tokenOf 2) with descriptor := fun username => some (symbolicDirectory username) }
  [.call ⟨.other, envWith (tokenOf 1), .deviceAuth alice aliceChain⟩ true,
    .call ⟨.adversary, bobbyEnv, .deviceAuth bobby (rootChain 2 100)⟩ true,
    .call ⟨.adversary, envWith (tokenOf 3), .proxyServer (tokenOf 2) symbolicServer [1]⟩ true,
    .hop 0 (envWith (tokenOf 4)) true]

example : ((machine (fun req => if req = [1] then some (.deviceAuth alice aliceChain) else none)
    ⟨symbolicServer, true⟩).exec fresh forwardedRun).map (fun state => state.watched.learned) =
      some [tokenOf 2, tokenOf 1] := by decide +kernel

end ForwardingServer
end Nullspace
