import Nullspace.Client.Registration
import Nullspace.Server.DeviceTokens

/-!
# Calls of other servers

A client calls other servers through its own one, so that they do not see where it is.
`get_server_client` makes a `ProxyingTransport` for each server which it needs and keeps it in a
cache. A transport for another server has the name of the own server and a token, both read
from the client's state, one after the other, while other tasks go on. Once its own server says
`NotSupported`, a transport calls its target directly, and it never asks again: the own server
says so when its operator does not want to proxy, but also to a token which it does not know.

`excused_always` lists the reasons for which a client shows itself.
-/

namespace Nullspace

open Nullspace.Base

variable {P : Primitives}

namespace ServerDb

/-- A new token takes no other out of the table. -/
theorem authTokenExists_insertAuthToken {db : ServerDb P} {username : UserName} {device : P.Hash}
    {auth : AuthToken} (token : AuthToken)
    (absent : db.deviceAuthTokens.lookup (username, device) = none)
    (known : db.authTokenExists auth = true) :
    (db.insertAuthToken username device token).authTokenExists auth = true := by
  rw [authTokenExists] at known ⊢
  by_cases same : auth = token
  · rw [same, RegisterWorld.tokenOwner_inserted absent]
    rfl
  · rw [tokenOwner_insertAuthToken absent same]
    exact known

/-- A server still knows its tokens after a device authenticates. -/
theorem authTokenExists_deviceAuth (config : ServerConfig) (env : CallEnv P) (username : UserName)
    (cert : CertificateChain P) {db : ServerDb P} {auth : AuthToken}
    (known : db.authTokenExists auth = true) :
    (db.deviceAuth config env username cert).1.authTokenExists auth = true := by
  rcases deviceAuth_cases config env username cert db with
    ⟨err, refused, _⟩ | ⟨next, token, accepted, _⟩
  · rw [refused]
    exact known
  · rw [accepted, authTokenExists, tokenOwner?]
    rcases deviceAuth_accepted accepted with ⟨_, tokens, _⟩ | ⟨absent, _, tokens, _⟩
    · rw [tokens]
      exact known
    · rw [tokens]
      exact authTokenExists_insertAuthToken token absent known

/-- A token which a server knows stays known, whoever calls it. -/
theorem authTokenExists_handle (config : ServerConfig) (env : CallEnv P)
    (request : ServerRequest P) {db : ServerDb P} {auth : AuthToken}
    (known : db.authTokenExists auth = true) :
    (db.handle config env request).1.authTokenExists auth = true := by
  by_cases authenticates : ∃ username cert, request = .deviceAuth username cert
  · obtain ⟨username, cert, rfl⟩ := authenticates
    exact authTokenExists_deviceAuth config env username cert known
  · have tokens : (db.handle config env request).1.deviceAuthTokens = db.deviceAuthTokens :=
      handle_tokens config env db fun username cert same => authenticates ⟨username, cert, same⟩
    rw [authTokenExists, tokenOwner?, tokens]
    exact known

/-- A device knows its token. -/
theorem authTokenExists_issued {config : ServerConfig} {env : CallEnv P} {username : UserName}
    {cert : CertificateChain P} {db next : ServerDb P} {token : AuthToken}
    (accepted : db.deviceAuth config env username cert = (next, .ok token)) :
    next.authTokenExists token = true := by
  rw [authTokenExists, tokenOwner?]
  rcases deviceAuth_accepted accepted with ⟨stored, tokens, _⟩ | ⟨absent, rfl, tokens, _⟩
  · rw [tokens, Option.isSome_map, List.find?_isSome]
    exact ⟨_, Table.mem_rows.mpr stored, decide_eq_true rfl⟩
  · rw [tokens]
    exact congrArg Option.isSome (RegisterWorld.tokenOwner_inserted absent)

end ServerDb

structure ProxyInfo where
  ownServerName : ServerName
  authToken : AuthToken
  /-- The server which has issued the token. The code keeps no record. -/
  issuer : ServerName
deriving DecidableEq

structure ProxyingTransport where
  targetName : ServerName
  proxyUnsupported : Bool
  proxyInfo : Option ProxyInfo
  /-- The own server as the client knew it. The code keeps no record. -/
  home : Option ServerName
deriving DecidableEq

/-- `ProxyingTransport::new` -/
def ProxyingTransport.new (targetName : ServerName) (home : Option ServerName)
    (proxyInfo : Option ProxyInfo) : ProxyingTransport :=
  ⟨targetName, proxyInfo.isNone, proxyInfo, home⟩

/-- A client, the servers, and the calls which are under way. -/
structure ProxyWorld (P : Primitives) where
  servers : ServerName → ServerDb P
  /-- `Identity::load`: the own server's name may be missing, or the identity itself. -/
  identity : Option (Option ServerName)
  /-- `AUTH_TOKEN_CACHE` -/
  tokens : Table ServerName AuthToken
  /-- The clients which are being made, with the own server's name which each has read. -/
  creating : Table ServerName (Option ServerName)
  /-- `SERVER_CACHE` -/
  clients : Table ServerName Nat
  /-- The transports so far. A caller keeps its transport when the cache forgets it. -/
  transports : List ProxyingTransport
  /-- The calls which the own server is to pass on, by transport. -/
  calls : List Nat
  /-- The transports which have called their targets directly. The code keeps no record. -/
  direct : List Nat

/-- What a step meets. -/
structure ProxyEnv (P : Primitives) where
  call : CallEnv P
  fate : Fate
  /-- The directory's answer about the client's user. -/
  found : Option ServerName
  directoryFails : Bool

inductive ProxyEvent (P : Primitives) where
  /-- Anybody calls a server. -/
  | serve (server : ServerName) (env : CallEnv P) (request : ServerRequest P)
  /-- The client registers, or learns that its server is another one. -/
  | identify (identity : Option (Option ServerName))
  /-- `get_server_client` up to the own server's name. -/
  | create (name : ServerName)
  | finishCreate (name : ServerName) (env : ProxyEnv P)
  | call (transport : Nat)
  /-- The own server's answer to a call, or none. -/
  | answer (position : Nat) (env : ProxyEnv P)
  | forgetClient (name : ServerName)
  | forgetToken (name : ServerName)

namespace ProxyWorld

def setServer (world : ProxyWorld P) (server : ServerName) (db : ServerDb P) : ProxyWorld P :=
  { world with servers := Function.update world.servers server db }

@[simp] theorem setServer_same (world : ProxyWorld P) (server : ServerName) (db : ServerDb P) :
    (world.setServer server db).servers server = db := by
  simp [setServer]

/-- `own_server_name`: a name which is missing is looked up and stored. -/
def ownServerName (world : ProxyWorld P) (env : ProxyEnv P) :
    ProxyWorld P × Option ServerName :=
  match world.identity with
  | none => (world, none)
  | some (some name) => (world, some name)
  | some none =>
      match env.found with
      | none => (world, none)
      | some name => ({ world with identity := some (some name) }, some name)

/-- `get_auth_token` -/
def getAuthToken (config : ServerName → ServerConfig) (username : UserName)
    (cert : CertificateChain P) (world : ProxyWorld P) (env : ProxyEnv P) :
    ProxyWorld P × Option (AuthToken × ServerName) :=
  match world.ownServerName env with
  | (world, none) => (world, none)
  | (world, some name) =>
      match world.tokens.lookup name with
      | some token => (world, some (token, name))
      | none =>
          if env.directoryFails || decide (env.fate = .failsBefore) then (world, none)
          else
            let (db, result) := (world.servers name).deviceAuth (config name) env.call username cert
            let called := world.setServer name db
            match env.fate, result with
            | .works, .ok token =>
                ({ called with tokens := called.tokens.insert name token }, some (token, name))
            | _, _ => (called, none)

/-- The end of `get_server_client`, without a client when something has failed. -/
def finish (world : ProxyWorld P) (name : ServerName) (home : Option ServerName)
    (proxyInfo : Option ProxyInfo) (env : ProxyEnv P) : ProxyWorld P :=
  if env.directoryFails then { world with creating := world.creating.erase name }
  else
    { world with
      creating := world.creating.erase name
      clients := world.clients.insert name world.transports.length
      transports := world.transports ++ [.new name home proxyInfo] }

/-- `get_server_client` from the own server's name on. -/
def finishCreate (config : ServerName → ServerConfig) (username : UserName)
    (cert : CertificateChain P) (world : ProxyWorld P) (env : ProxyEnv P) (name : ServerName)
    (home : Option ServerName) : ProxyWorld P :=
  match home with
  | none => world.finish name home none env
  | some own =>
      if own = name then world.finish name home none env
      else
        match world.getAuthToken config username cert env with
        | (next, none) => { next with creating := next.creating.erase name }
        | (next, some (token, issuer)) => next.finish name home (some ⟨own, token, issuer⟩) env

/-- The call of a transport which does not go through the own server, or its request to it. -/
def callRaw (world : ProxyWorld P) (number : Nat) (transport : ProxyingTransport) :
    ProxyWorld P :=
  if transport.proxyUnsupported then { world with direct := world.direct ++ [number] }
  else
    match transport.proxyInfo with
    | none => { world with direct := world.direct ++ [number] }
    | some info =>
        if info.ownServerName = transport.targetName then
          { world with direct := world.direct ++ [number] }
        else { world with calls := world.calls ++ [number] }

/-- The own server says `NotSupported`. -/
def switch (world : ProxyWorld P) (number : Nat) (transport : ProxyingTransport) : ProxyWorld P :=
  { world with
    transports := world.transports.set number { transport with proxyUnsupported := true }
    direct := world.direct ++ [number] }

/-- What the own server says to a call which is to be passed on. -/
def proxied (config : ServerName → ServerConfig) (world : ProxyWorld P) (env : ProxyEnv P)
    (info : ProxyInfo) : Option (Except ProxyError Bytes) :=
  if env.fate = .works then
    some (proxyAnswer env.call (config info.ownServerName).proxyEnabled info.authToken
      (world.servers info.ownServerName))
  else none

/-- The machine of a client whose device has one chain. -/
def machine (config : ServerName → ServerConfig) (username : UserName)
    (cert : CertificateChain P) : Machine (ProxyWorld P) (ProxyEvent P) where
  step world
    | .serve server env request =>
        some (world.setServer server
          ((world.servers server).handle (config server) env request).1)
    | .identify identity => some { world with identity := identity }
    | .create name =>
        -- `try_get_with` makes one client at a time for each name.
        if name ∈ world.clients ∨ name ∈ world.creating then none
        else some { world with creating := world.creating.insert name world.identity.join }
    | .finishCreate name env =>
        match world.creating.lookup name with
        | none => none
        | some home => some (world.finishCreate config username cert env name home)
    | .call number =>
        match world.transports[number]? with
        | none => none
        | some transport => some (world.callRaw number transport)
    | .answer position env =>
        match world.calls[position]? with
        | none => none
        | some number =>
            match world.transports[number]? with
            | none => none
            | some transport =>
                let rest := { world with calls := world.calls.eraseIdx position }
                match transport.proxyInfo.bind (world.proxied config env) with
                | some (.error .notSupported) => some (rest.switch number transport)
                | _ => some rest
    | .forgetClient name => some { world with clients := world.clients.erase name }
    | .forgetToken name => some { world with tokens := world.tokens.erase name }

def start (servers : ServerName → ServerDb P) : ProxyWorld P :=
  ⟨servers, none, ∅, ∅, ∅, [], [], []⟩

end ProxyWorld

/-- The client knew no own server, or the target is its own one; or the own server does not
proxy, or it is not the one which has issued the token. -/
def ProxyingTransport.Excused (config : ServerName → ServerConfig)
    (transport : ProxyingTransport) : Prop :=
  transport.home = none ∨ transport.home = some transport.targetName ∨
    ∃ info, transport.proxyInfo = some info ∧ transport.home = some info.ownServerName ∧
      ((config info.ownServerName).proxyEnabled = false ∨ info.issuer ≠ info.ownServerName)

namespace ProxyWorld

/-- Every token came from a server which still knows it, and a transport which has stopped
asking has a reason. -/
structure Founded (config : ServerName → ServerConfig) (world : ProxyWorld P)
    (transport : ProxyingTransport) : Prop where
  known : ∀ info, transport.proxyInfo = some info → transport.home = some info.ownServerName ∧
    (world.servers info.issuer).authTokenExists info.authToken = true
  bare : transport.proxyInfo = none →
    transport.home = none ∨ transport.home = some transport.targetName
  switched : transport.proxyUnsupported = true → transport.Excused config

/-- Each transport which has called its target directly has a reason. -/
def AllExcused (config : ServerName → ServerConfig) (world : ProxyWorld P) : Prop :=
  ∀ number ∈ world.direct, ∃ transport, world.transports[number]? = some transport ∧
    transport.Excused config

structure Backed (config : ServerName → ServerConfig) (world : ProxyWorld P) : Prop where
  tokens : ∀ name token, world.tokens.lookup name = some token →
    (world.servers name).authTokenExists token = true
  transports : ∀ transport ∈ world.transports, world.Founded config transport
  direct : world.AllExcused config

/-- Every server knows the tokens which it knew. -/
def Knows (world next : ProxyWorld P) : Prop :=
  ∀ name token, (world.servers name).authTokenExists token = true →
    (next.servers name).authTokenExists token = true

/-- A server which keeps its tokens leaves all of them known. -/
theorem knows_setServer {world : ProxyWorld P} {server : ServerName} {db : ServerDb P}
    (keeps : ∀ token, (world.servers server).authTokenExists token = true →
      db.authTokenExists token = true) : Knows world (world.setServer server db) := by
  intro name token known
  by_cases here : name = server
  · subst here
    simpa [setServer] using keeps token known
  · simpa [setServer, here] using known

theorem Founded.mono {config : ServerName → ServerConfig} {world next : ProxyWorld P}
    {transport : ProxyingTransport} (founded : world.Founded config transport)
    (knows : Knows world next) : next.Founded config transport where
  known info same := ⟨(founded.known info same).1, knows _ _ (founded.known info same).2⟩
  bare := founded.bare
  switched := founded.switched

/-- What happens at servers and in the caches takes no reason away. -/
theorem Backed.of_same {config : ServerName → ServerConfig} {world next : ProxyWorld P}
    (backed : world.Backed config) (knows : Knows world next)
    (tokens : ∀ name token, next.tokens.lookup name = some token →
      world.tokens.lookup name = some token ∨ (next.servers name).authTokenExists token = true)
    (transports : next.transports = world.transports) (direct : next.direct = world.direct) :
    next.Backed config := by
  refine ⟨?_, ?_, ?_⟩
  · intro name token found
    rcases tokens name token found with earlier | known
    · exact knows name token (backed.tokens name token earlier)
    · exact known
  · intro transport listed
    rw [transports] at listed
    exact (backed.transports transport listed).mono knows
  · intro number listed
    rw [direct] at listed
    rw [transports]
    exact backed.direct number listed

theorem knows_refl (world : ProxyWorld P) : Knows world world := fun _ _ known => known

theorem backed_start (config : ServerName → ServerConfig) (servers : ServerName → ServerDb P) :
    (start servers).Backed config where
  tokens name token found := by simp [start] at found
  transports transport listed := absurd listed List.not_mem_nil
  direct number listed := absurd listed List.not_mem_nil

theorem ownServerName_same (world : ProxyWorld P) (env : ProxyEnv P) :
    (world.ownServerName env).1 = { world with
      identity := (world.ownServerName env).1.identity } := by
  rw [ownServerName]
  split
  · rfl
  · rfl
  · split <;> rfl

/-- A token which the client gets is known to the server which it is from. -/
structure Obtained (config : ServerName → ServerConfig)
    (outcome : ProxyWorld P × Option (AuthToken × ServerName)) : Prop where
  backed : outcome.1.Backed config
  known : ∀ token issuer, outcome.2 = some (token, issuer) →
    (outcome.1.servers issuer).authTokenExists token = true

/-- A token which is fetched is known to the server which it is from. -/
theorem Backed.getAuthToken {config : ServerName → ServerConfig} {username : UserName}
    {cert : CertificateChain P} {world : ProxyWorld P} (backed : world.Backed config)
    (env : ProxyEnv P) : Obtained config (world.getAuthToken config username cert env) := by
  have named : (world.ownServerName env).1.Backed config := by
    rw [ownServerName_same]
    exact backed.of_same (knows_refl world) (fun _ _ found => .inl found) rfl rfl
  rw [ProxyWorld.getAuthToken]
  generalize world.ownServerName env = outcome at named
  obtain ⟨next, own⟩ := outcome
  cases own with
  | none => exact ⟨named, fun _ _ same => by cases same⟩
  | some name =>
      dsimp only at named ⊢
      split
      · rename_i token cached
        refine ⟨named, ?_⟩
        rintro _ _ ⟨⟩
        exact named.tokens name token cached
      · split
        · exact ⟨named, fun _ _ same => by cases same⟩
        · have keeps : ∀ token, (next.servers name).authTokenExists token = true →
              ((next.servers name).deviceAuth (config name) env.call username
                cert).1.authTokenExists token = true := fun token known =>
            ServerDb.authTokenExists_deviceAuth (config name) env.call username cert known
          have knows := knows_setServer keeps
          have called := named.of_same knows (fun _ _ found => .inl found) rfl rfl
          split
          · rename_i token fate issued
            have known : ((next.setServer name ((next.servers name).deviceAuth (config name) env.call
                username cert).1).servers name).authTokenExists token = true := by
              rw [setServer_same]
              exact ServerDb.authTokenExists_issued (Prod.ext rfl issued)
            refine ⟨called.of_same (knows_refl _) ?_ rfl rfl, ?_⟩
            · intro other listed found
              rcases Table.lookup_insert_cases found with ⟨rfl, rfl⟩ | earlier
              · exact .inr known
              · exact .inl earlier
            · rintro _ _ ⟨⟩
              exact known
          · exact ⟨called, fun _ _ same => by cases same⟩

/-- A new transport has a known token or a reason to do without. -/
theorem Backed.finish {config : ServerName → ServerConfig} {world : ProxyWorld P}
    (backed : world.Backed config) (name : ServerName) {home : Option ServerName}
    {proxyInfo : Option ProxyInfo} (env : ProxyEnv P)
    (known : ∀ info, proxyInfo = some info → home = some info.ownServerName ∧
      (world.servers info.issuer).authTokenExists info.authToken = true)
    (bare : proxyInfo = none → home = none ∨ home = some name) :
    (world.finish name home proxyInfo env).Backed config := by
  rw [ProxyWorld.finish]
  split
  · exact backed.of_same (knows_refl world) (fun _ _ found => .inl found) rfl rfl
  · refine ⟨backed.tokens, ?_, ?_⟩
    · intro transport listed
      rcases List.mem_append.mp listed with earlier | new
      · exact (backed.transports transport earlier).mono (knows_refl world)
      · rw [List.mem_singleton.mp new]
        refine ⟨known, bare, fun unsupported => ?_⟩
        rcases bare (Option.isNone_iff_eq_none.mp unsupported) with unknown | own
        · exact .inl unknown
        · exact .inr (.inl own)
    · intro number listed
      obtain ⟨transport, found, excused⟩ := backed.direct number listed
      have within : number < world.transports.length := (List.getElem?_eq_some_iff.mp found).1
      exact ⟨transport, (List.getElem?_append_left within).trans found, excused⟩

/-- A transport which is created has a known token or a reason to do without. -/
theorem Backed.finishCreate {config : ServerName → ServerConfig} {username : UserName}
    {cert : CertificateChain P} {world : ProxyWorld P} (backed : world.Backed config)
    (env : ProxyEnv P) (name : ServerName) (home : Option ServerName) :
    (world.finishCreate config username cert env name home).Backed config := by
  cases home with
  | none => exact backed.finish name env (fun _ same => by cases same) fun _ => .inl rfl
  | some own =>
      simp only [ProxyWorld.finishCreate]
      split
      · rename_i here
        refine backed.finish name env (fun _ same => by cases same) fun _ => .inr ?_
        rw [here]
      · have obtained : Obtained config (world.getAuthToken config username cert env) :=
          backed.getAuthToken env
        split
        · rename_i next outcome
          rw [outcome] at obtained
          exact obtained.backed.of_same (knows_refl next) (fun _ _ found => .inl found) rfl rfl
        · rename_i next token issuer outcome
          rw [outcome] at obtained
          refine obtained.backed.finish name env ?_ (fun none => by cases none)
          rintro _ ⟨⟩
          exact ⟨rfl, obtained.known token issuer rfl⟩

/-- A server says `NotSupported` when it does not proxy or does not know the token. -/
theorem notSupported_of_proxyAnswer {env : CallEnv P} {enabled : Bool} {auth : AuthToken}
    {db : ServerDb P} (refused : proxyAnswer env enabled auth db = .error .notSupported) :
    enabled = false ∨ db.authTokenExists auth = false := by
  rw [proxyAnswer] at refused
  cases enabled with
  | false => exact .inl rfl
  | true =>
      cases known : db.authTokenExists auth with
      | false => exact .inr rfl
      | true =>
          rw [known] at refused
          simp only [Bool.not_true, Bool.false_eq_true, if_false] at refused
          split at refused
          · cases refused
          · split at refused <;> cases refused

/-- Only a server which does not proxy, or does not know the token, makes a transport stop. -/
theorem Backed.refused {config : ServerName → ServerConfig} {world : ProxyWorld P}
    (backed : world.Backed config) {transport : ProxyingTransport}
    (listed : transport ∈ world.transports) {env : ProxyEnv P}
    (refused : transport.proxyInfo.bind (world.proxied config env) =
      some (.error .notSupported)) : transport.Excused config := by
  obtain ⟨info, same, answered⟩ := Option.bind_eq_some_iff.mp refused
  obtain ⟨home, known⟩ := (backed.transports transport listed).known info same
  refine .inr (.inr ⟨info, same, home, ?_⟩)
  rw [proxied] at answered
  split at answered
  · rcases notSupported_of_proxyAnswer (Option.some.inj answered) with disabled | unknown
    · exact .inl disabled
    · refine .inr fun issued => ?_
      rw [issued, unknown] at known
      cases known
  · cases answered

/-- A direct call which has a reason may be counted. -/
theorem Backed.direct_append {config : ServerName → ServerConfig} {world : ProxyWorld P}
    (backed : world.Backed config) {number : Nat} {transport : ProxyingTransport}
    (found : world.transports[number]? = some transport) (excused : transport.Excused config) :
    Backed config { world with direct := world.direct ++ [number] } := by
  refine ⟨backed.tokens, fun transport listed =>
    (backed.transports transport listed).mono (knows_refl world), ?_⟩
  intro other listed
  rcases List.mem_append.mp listed with earlier | new
  · exact backed.direct other earlier
  · rw [List.mem_singleton.mp new]
    exact ⟨transport, found, excused⟩

/-- A call over a transport leaves every direct call with its reason. -/
theorem Backed.callRaw {config : ServerName → ServerConfig} {world : ProxyWorld P}
    (backed : world.Backed config) {number : Nat} {transport : ProxyingTransport}
    (found : world.transports[number]? = some transport) :
    (world.callRaw number transport).Backed config := by
  have founded := backed.transports transport (List.mem_of_getElem? found)
  rw [ProxyWorld.callRaw]
  split
  · rename_i unsupported
    exact backed.direct_append found (founded.switched unsupported)
  · split
    · rename_i bare
      rcases founded.bare bare with unknown | own
      · exact backed.direct_append found (.inl unknown)
      · exact backed.direct_append found (.inr (.inl own))
    · rename_i info same
      split
      · rename_i here
        refine backed.direct_append found (.inr (.inl ?_))
        rw [← here]
        exact (founded.known info same).1
      · exact backed.of_same (knows_refl world) (fun _ _ found => .inl found) rfl rfl

/-- A transport stops asking with a reason. -/
theorem Backed.switch {config : ServerName → ServerConfig} {world : ProxyWorld P}
    (backed : world.Backed config) {number : Nat} {transport : ProxyingTransport}
    (found : world.transports[number]? = some transport) (excused : transport.Excused config) :
    (world.switch number transport).Backed config := by
  have founded := backed.transports transport (List.mem_of_getElem? found)
  have within : number < world.transports.length := (List.getElem?_eq_some_iff.mp found).1
  refine ⟨backed.tokens, ?_, ?_⟩
  · intro other listed
    rcases List.mem_or_eq_of_mem_set listed with earlier | rfl
    · exact (backed.transports other earlier).mono (knows_refl world)
    · exact ⟨founded.known, founded.bare, fun _ => excused⟩
  · intro other listed
    have target : (world.switch number transport).transports[number]? =
        some { transport with proxyUnsupported := true } := List.getElem?_set_self within
    by_cases same : other = number
    · subst same
      exact ⟨_, target, excused⟩
    · rcases List.mem_append.mp listed with earlier | new
      · obtain ⟨before, listedBefore, reason⟩ := backed.direct other earlier
        exact ⟨before, (List.getElem?_set_ne (Ne.symm same)).trans listedBefore, reason⟩
      · exact absurd (List.mem_singleton.mp new) same

/-- Every step leaves every direct call with its reason. -/
theorem Backed.step {config : ServerName → ServerConfig} {username : UserName}
    {cert : CertificateChain P} {world next : ProxyWorld P} {event : ProxyEvent P}
    (backed : world.Backed config)
    (taken : (machine config username cert).step world event = some next) :
    next.Backed config := by
  cases event with
  | serve server env request =>
      cases taken
      refine backed.of_same (knows_setServer fun token known => ?_) (fun _ _ found => .inl found)
        rfl rfl
      exact ServerDb.authTokenExists_handle (config server) env request known
  | identify identity =>
      cases taken
      exact backed.of_same (knows_refl world) (fun _ _ found => .inl found) rfl rfl
  | create name =>
      simp only [machine] at taken
      split at taken
      · cases taken
      · cases taken
        exact backed.of_same (knows_refl world) (fun _ _ found => .inl found) rfl rfl
  | finishCreate name env =>
      simp only [machine] at taken
      split at taken
      · cases taken
      · cases taken
        exact backed.finishCreate env name _
  | call number =>
      simp only [machine] at taken
      split at taken
      · cases taken
      · rename_i transport found
        cases taken
        exact backed.callRaw found
  | answer position env =>
      simp only [machine] at taken
      split at taken
      · cases taken
      · rename_i number _
        split at taken
        · cases taken
        · rename_i transport found
          have rest : Backed config { world with calls := world.calls.eraseIdx position } :=
            backed.of_same (knows_refl world) (fun _ _ found => .inl found) rfl rfl
          split at taken
          · rename_i refused
            cases taken
            exact rest.switch found (backed.refused (List.mem_of_getElem? found) refused)
          · cases taken
            exact rest
  | forgetClient name =>
      cases taken
      exact backed.of_same (knows_refl world) (fun _ _ found => .inl found) rfl rfl
  | forgetToken name =>
      cases taken
      exact backed.of_same (knows_refl world)
        (fun _ _ found => .inl (Table.lookup_of_lookup_erase found)) rfl rfl

/-- However calls, caches and changes of the own server follow each other, and whoever calls the
servers: a client calls a server directly only while it knew no own server when it made the
transport, or when that is its own server, or when its own server does not proxy, or when its
own server had changed before it got the token. -/
theorem excused_always (config : ServerName → ServerConfig) (username : UserName)
    (cert : CertificateChain P) (servers : ServerName → ServerDb P)
    (events : List (ProxyEvent P)) :
    (machine config username cert).Always (AllExcused config) (start servers) events := by
  have backed : (machine config username cert).Always (Backed config) (start servers) events :=
    Machine.always_of_step Backed.step events (backed_start config servers)
  exact fun before position world reached => (backed before position world reached).direct

end ProxyWorld
end Nullspace
