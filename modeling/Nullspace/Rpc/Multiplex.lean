import Mathlib.Tactic.Cases
import Nullspace.Base.Machine
import Nullspace.Base.Table

/-!
# The shared TCP client

All calls to one endpoint go through one `RawTcpClient`: a task which takes commands from
a queue, writes requests to its connection and finds the caller of a response by the
request identifier. The caller chooses the identifier: `v1_proxy_server` hands the requests
of all its users on as they are.

A call is numbered when it is made. The remote end answers a request at most once, on the
connection which brought it, and its answers arrive in any order.

`delivers_iff_distinct` says when responses and cancellations go to their own calls:
exactly when no call is made with an identifier which another call still uses.
-/

namespace Nullspace

open Nullspace.Base

variable {Id Content Body : Type}

structure JrpcRequest (Id Content : Type) where
  id : Id
  /-- The method and its parameters. -/
  content : Content

structure JrpcResponse (Id Body : Type) where
  id : Id
  body : Body
  /-- The call whose request the remote end answers with it. It is not on the wire. -/
  call : Nat

/-- Why a call fails. -/
inductive TcpError where
  /-- "tcp client task stopped": the task dropped the sender of the call. -/
  | stopped
  /-- "tcp request timeout" -/
  | timeout
  /-- The endpoint cannot be reached. -/
  | unreachable
  /-- The request is no JSON. -/
  | encoding
  /-- "tcp connection closed", or why the reader closed it. -/
  | closed
deriving DecidableEq

inductive ClientCommand (Id Content : Type) where
  | call (number : Nat) (req : JrpcRequest Id Content)
  /-- The code sends the identifier alone. -/
  | cancel (number : Nat) (id : Id)

/-- The request which a command makes. -/
def ClientCommand.request? : ClientCommand Id Content → Option (Nat × JrpcRequest Id Content)
  | .call number req => some (number, req)
  | .cancel _ _ => none

/-- The requests in a queue. -/
def requests (commands : List (ClientCommand Id Content)) : List (Nat × JrpcRequest Id Content) :=
  commands.filterMap ClientCommand.request?

/-- How the task fares with a request. -/
structure Attempt where
  connects : Bool
  encodes : Bool
  writes : Bool
deriving DecidableEq

/-- The callers in `call_raw`. -/
structure Callers (Id Body : Type) where
  /-- Those which wait for their response. -/
  waiting : Table Nat Id
  /-- Those between their timeout and the command to cancel. -/
  cancelling : Table Nat Id
  /-- What they return. -/
  outcomes : Table Nat (Except TcpError (JrpcResponse Id Body))

namespace Callers

/-- A sender sends, or is dropped: nobody listens to a call which does not wait. -/
def resolve (callers : Callers Id Body) (call : Nat)
    (outcome : Except TcpError (JrpcResponse Id Body)) : Callers Id Body :=
  { callers with
    waiting := callers.waiting.erase call
    outcomes :=
      if call ∈ callers.waiting then callers.outcomes.insert call outcome else callers.outcomes }

/-- The loop of `fail_in_flight`. -/
def failAll (callers : Callers Id Body) : List Nat → Callers Id Body
  | [] => callers
  | call :: calls => (callers.resolve call (.error .closed)).failAll calls

/-- A call which still waits is not the resolved one. -/
theorem of_resolve_waiting {callers : Callers Id Body} {call other : Nat}
    {outcome : Except TcpError (JrpcResponse Id Body)} {id : Id}
    (waits : (callers.resolve call outcome).waiting.lookup other = some id) :
    callers.waiting.lookup other = some id ∧ other ≠ call := by
  refine ⟨Table.lookup_of_lookup_erase waits, ?_⟩
  rintro rfl
  simp [resolve] at waits

/-- A new outcome is that of the resolved call. -/
theorem of_resolve_outcomes {callers : Callers Id Body} {call other : Nat}
    {outcome result : Except TcpError (JrpcResponse Id Body)}
    (returns : (callers.resolve call outcome).outcomes.lookup other = some result) :
    callers.outcomes.lookup other = some result ∨ other = call ∧ result = outcome := by
  simp only [resolve] at returns
  split at returns
  · rcases Table.lookup_insert_cases returns with ⟨same, given⟩ | returns
    · cases given
      exact .inr ⟨same, rfl⟩
    · exact .inl returns
  · exact .inl returns

@[simp] theorem failAll_cancelling (callers : Callers Id Body) (calls : List Nat) :
    (callers.failAll calls).cancelling = callers.cancelling := by
  induction calls generalizing callers with
  | nil => rfl
  | cons call calls ih => exact ih _

/-- A call which still waits is not one of the failed ones. -/
theorem of_failAll_waiting {callers : Callers Id Body} {calls : List Nat} {other : Nat} {id : Id}
    (waits : (callers.failAll calls).waiting.lookup other = some id) :
    callers.waiting.lookup other = some id ∧ other ∉ calls := by
  induction calls generalizing callers with
  | nil => exact ⟨waits, List.not_mem_nil⟩
  | cons call calls ih =>
      obtain ⟨kept, unlisted⟩ := ih waits
      obtain ⟨before, apart⟩ := of_resolve_waiting kept
      exact ⟨before, List.not_mem_cons_of_ne_of_not_mem apart unlisted⟩

/-- Failing calls brings no response. -/
theorem of_failAll_outcomes {callers : Callers Id Body} {calls : List Nat} {other : Nat}
    {resp : JrpcResponse Id Body}
    (returns : (callers.failAll calls).outcomes.lookup other = some (.ok resp)) :
    callers.outcomes.lookup other = some (.ok resp) := by
  induction calls generalizing callers with
  | nil => exact returns
  | cons call calls ih =>
      rcases of_resolve_outcomes (ih returns) with before | ⟨_, failed⟩
      · exact before
      · cases failed

end Callers

/-- The client task, its queue, its connection and its callers. -/
structure TcpClient (Id Content Body : Type) where
  /-- The number of the next call. -/
  calls : Nat
  commands : List (ClientCommand Id Content)
  connected : Bool
  /-- The map `in_flight`: a sender is known by its call. -/
  inFlight : Table Id Nat
  /-- The requests on the connection without an answer yet. -/
  unanswered : List (Nat × JrpcRequest Id Content)
  callers : Callers Id Body
  /-- The cancellations so far which removed a sender, with its call. The code keeps no
  record. -/
  removed : List (Nat × Nat)

inductive TcpEvent (Id Content Body : Type) where
  | call (req : JrpcRequest Id Content)
  | timeout (number : Nat)
  /-- A caller after its timeout gets a place in the queue. -/
  | cancel (number : Nat)
  /-- A caller goes away. -/
  | drop (number : Nat)
  /-- The task takes the next command. -/
  | command (attempt : Attempt)
  /-- The response to the unanswered request at this position arrives. -/
  | respond (position : Nat) (body : Body)
  /-- The connection is lost. -/
  | close

namespace TcpClient

def fresh : TcpClient Id Content Body := ⟨0, [], false, ∅, [], ⟨∅, ∅, ∅⟩, []⟩

variable [DecidableEq Id]

/-- `fail_in_flight`, and `connection = None`. -/
def failInFlight (client : TcpClient Id Content Body) : TcpClient Id Content Body :=
  { client with
    connected := false
    inFlight := ∅
    unanswered := []
    callers := client.callers.failAll (client.inFlight.rows.map Prod.snd) }

/-- A sender leaves the map, if there is one, and sends or is dropped. -/
def removeSender (client : TcpClient Id Content Body) (id : Id)
    (outcome : Except TcpError (JrpcResponse Id Body)) : TcpClient Id Content Body :=
  { client with
    inFlight := client.inFlight.erase id
    callers :=
      match client.inFlight.lookup id with
      | none => client.callers
      | some call => client.callers.resolve call outcome }

/-- The branch of `ClientCommand::Call`. A sender under the same identifier is replaced. -/
def startCall (client : TcpClient Id Content Body) (attempt : Attempt) (call : Nat)
    (req : JrpcRequest Id Content) : TcpClient Id Content Body :=
  if client.connected = false ∧ attempt.connects = false then
    { client with callers := client.callers.resolve call (.error .unreachable) }
  else if attempt.encodes = false then
    { client with
      connected := true
      callers := client.callers.resolve call (.error .encoding) }
  else if attempt.writes = false then
    { client with callers := client.callers.resolve call (.error .closed) }.failInFlight
  else
    let client := client.removeSender req.id (.error .stopped)
    { client with
      connected := true
      inFlight := client.inFlight.insert req.id call
      unanswered := client.unanswered ++ [(call, req)] }

/-- The branch of `ClientCommand::Cancel`. -/
def cancelCall (client : TcpClient Id Content Body) (call : Nat) (id : Id) :
    TcpClient Id Content Body :=
  { client.removeSender id (.error .stopped) with
    removed := client.removed ++ ((client.inFlight.lookup id).map fun other => (call, other)).toList }

/-- A caller sends `ClientCommand::Call`. -/
def sendCall (client : TcpClient Id Content Body) (req : JrpcRequest Id Content) :
    TcpClient Id Content Body :=
  { client with
    calls := client.calls + 1
    commands := client.commands ++ [.call client.calls req]
    callers := { client.callers with
      waiting := client.callers.waiting.insert client.calls req.id } }

/-- A caller sends `ClientCommand::Cancel`. -/
def sendCancel (client : TcpClient Id Content Body) (call : Nat) (id : Id) :
    TcpClient Id Content Body :=
  { client with
    commands := client.commands ++ [.cancel call id]
    callers := { client.callers with cancelling := client.callers.cancelling.erase call } }

/-- The client as a machine. -/
def machine (Id Content Body : Type) [DecidableEq Id] :
    Machine (TcpClient Id Content Body) (TcpEvent Id Content Body) where
  step client
    | .call req => some (client.sendCall req)
    | .timeout call =>
        match client.callers.waiting.lookup call with
        | none => none
        | some id =>
            let callers := client.callers.resolve call (.error .timeout)
            some { client with callers := { callers with
              cancelling := callers.cancelling.insert call id } }
    | .cancel call =>
        match client.callers.cancelling.lookup call with
        | none => none
        | some id => some (client.sendCancel call id)
    | .drop call =>
        some { client with
          callers := { client.callers with
            waiting := client.callers.waiting.erase call
            cancelling := client.callers.cancelling.erase call } }
    | .command attempt =>
        match client.commands with
        | [] => none
        | .call call req :: commands =>
            some ({ client with commands := commands }.startCall attempt call req)
        | .cancel call id :: commands =>
            some ({ client with commands := commands }.cancelCall call id)
    | .respond position body =>
        match client.unanswered[position]? with
        | none => none
        | some (call, req) =>
            some ({ client with unanswered := client.unanswered.eraseIdx position }.removeSender
              req.id (.ok ⟨req.id, body, call⟩))
    | .close => if client.connected then some client.failInFlight else none

/-- Every response went to the call which it answers, and every cancellation took its own
call. -/
structure Delivers (client : TcpClient Id Content Body) : Prop where
  own : ∀ call resp, client.callers.outcomes.lookup call = some (.ok resp) → resp.call = call
  cancels : ∀ call other, (call, other) ∈ client.removed → other = call

/-- The requests which are queued or without an answer, by call. -/
def pending (client : TcpClient Id Content Body) : List (Nat × JrpcRequest Id Content) :=
  client.unanswered ++ requests client.commands

/-- The identifier is in use by a call: its request is pending, or its cancellation is not
queued yet. -/
def Uses (client : TcpClient Id Content Body) (call : Nat) (id : Id) : Prop :=
  (∃ req, (call, req) ∈ client.pending ∧ req.id = id) ∨
    client.callers.cancelling.lookup call = some id

/-- A call is made only with an identifier which no other call uses. -/
def Distinct (client : TcpClient Id Content Body) : TcpEvent Id Content Body → Prop
  | .call req => ∀ call, ¬client.Uses call req.id
  | _ => True

/-! ## Steps and runs -/

/-- A call which still waits after a removal did not have the sender. -/
theorem of_removeSender_waiting {client : TcpClient Id Content Body} {id other : Id} {call : Nat}
    {outcome : Except TcpError (JrpcResponse Id Body)}
    (waits : (client.removeSender id outcome).callers.waiting.lookup call = some other) :
    client.callers.waiting.lookup call = some other ∧ client.inFlight.lookup id ≠ some call := by
  simp only [removeSender] at waits
  cases found : client.inFlight.lookup id with
  | none =>
      rw [found] at waits
      exact ⟨waits, by simp⟩
  | some receiver =>
      rw [found] at waits
      obtain ⟨before, apart⟩ := Callers.of_resolve_waiting waits
      exact ⟨before, fun same => apart (Option.some.inj same).symm⟩

/-- A removed sender gives its outcome to its own call. -/
theorem of_removeSender_outcomes {client : TcpClient Id Content Body} {id : Id} {call : Nat}
    {outcome result : Except TcpError (JrpcResponse Id Body)}
    (returns : (client.removeSender id outcome).callers.outcomes.lookup call = some result) :
    client.callers.outcomes.lookup call = some result ∨
      client.inFlight.lookup id = some call ∧ result = outcome := by
  simp only [removeSender] at returns
  cases found : client.inFlight.lookup id with
  | none =>
      rw [found] at returns
      exact .inl returns
  | some receiver =>
      rw [found] at returns
      rcases Callers.of_resolve_outcomes returns with before | ⟨rfl, same⟩
      · exact .inl before
      · exact .inr ⟨rfl, same⟩

@[simp] theorem removeSender_cancelling (client : TcpClient Id Content Body) (id : Id)
    (outcome : Except TcpError (JrpcResponse Id Body)) :
    (client.removeSender id outcome).callers.cancelling = client.callers.cancelling := by
  simp only [removeSender]
  split <;> rfl

/-- A sender which stays has another identifier. -/
theorem lookup_removeSender {client : TcpClient Id Content Body} {id other : Id} {call : Nat}
    {outcome : Except TcpError (JrpcResponse Id Body)}
    (found : (client.removeSender id outcome).inFlight.lookup other = some call) :
    client.inFlight.lookup other = some call ∧ other ≠ id := by
  refine ⟨Table.lookup_of_lookup_erase found, ?_⟩
  rintro rfl
  simp [removeSender] at found

omit [DecidableEq Id] in
theorem requests_append (first second : List (ClientCommand Id Content)) :
    requests (first ++ second) = requests first ++ requests second :=
  List.filterMap_append

omit [DecidableEq Id] in
theorem requests_sendCall (client : TcpClient Id Content Body) (req : JrpcRequest Id Content) :
    requests (client.sendCall req).commands = requests client.commands ++ [(client.calls, req)] :=
  requests_append _ _

omit [DecidableEq Id] in
theorem requests_sendCancel (client : TcpClient Id Content Body) (call : Nat) (id : Id) :
    requests (client.sendCancel call id).commands = requests client.commands :=
  (requests_append _ _).trans (List.append_nil _)

/-- One call at a time uses an identifier, also from the point where a cancellation stands in
the queue. -/
structure Ordered (client : TcpClient Id Content Body) : Prop where
  numbered : ∀ {call id}, client.Uses call id → call < client.calls
  distinct : ∀ {call req other otherReq}, (call, req) ∈ client.pending →
    (other, otherReq) ∈ client.pending → req.id = otherReq.id → call = other
  cancelling : ∀ {call id}, client.callers.cancelling.lookup call = some id →
    ∀ other req, (other, req) ∈ client.pending → req.id = id → other = call
  queued : ∀ {front call id rear}, client.commands = front ++ .cancel call id :: rear →
    ∀ other req, (other, req) ∈ client.unanswered ++ requests front → req.id = id → other = call

/-- The map knows the callers which wait, and no others than those of the connection. -/
structure Tracked (client : TcpClient Id Content Body) : Prop where
  written : ∀ {id call}, client.inFlight.lookup id = some call →
    ∃ req, (call, req) ∈ client.unanswered ∧ req.id = id
  waits : ∀ {call id}, client.callers.waiting.lookup call = some id →
    (∃ req, (call, req) ∈ requests client.commands ∧ req.id = id) ∨
      client.inFlight.lookup id = some call

omit [DecidableEq Id] in
/-- The order stays when commands are taken from the front of the queue and their requests, at
most, are written. -/
theorem Ordered.of_taken {client next : TcpClient Id Content Body} (ordered : client.Ordered)
    (calls : next.calls = client.calls) (taken : List (ClientCommand Id Content))
    (commands : client.commands = taken ++ next.commands)
    (unanswered : ∀ request ∈ next.unanswered,
      request ∈ client.unanswered ∨ request ∈ requests taken)
    (cancelling : ∀ call id, next.callers.cancelling.lookup call = some id →
      client.callers.cancelling.lookup call = some id) : next.Ordered := by
  have within : ∀ front, ∀ request ∈ next.unanswered ++ requests front,
      request ∈ client.unanswered ++ requests (taken ++ front) := by
    intro front request member
    rw [requests_append, List.mem_append, List.mem_append]
    rcases List.mem_append.mp member with written | queued
    · rcases unanswered request written with before | now
      · exact .inl before
      · exact .inr (.inl now)
    · exact .inr (.inr queued)
  have pending : ∀ request ∈ next.pending, request ∈ client.pending := by
    intro request member
    rw [TcpClient.pending, commands]
    exact within next.commands request member
  refine ⟨?_, ?_, ?_, ?_⟩
  · intro call id uses
    rw [calls]
    refine ordered.numbered (uses.imp ?_ (cancelling call id))
    rintro ⟨req, member, named⟩
    exact ⟨req, pending _ member, named⟩
  · intro call req other otherReq left right same
    exact ordered.distinct (pending _ left) (pending _ right) same
  · intro call id found other req member same
    exact ordered.cancelling (cancelling call id found) other req (pending _ member) same
  · intro front call id rear position other req member same
    have whole : client.commands = (taken ++ front) ++ .cancel call id :: rear := by
      rw [commands, position, List.append_assoc]
    exact ordered.queued whole other req (within front _ member) same

omit [DecidableEq Id] in
/-- A request with an identifier of its own keeps the queue in order. -/
theorem Ordered.sendCall {client : TcpClient Id Content Body} {req : JrpcRequest Id Content}
    (ordered : client.Ordered) (unused : ∀ call, ¬client.Uses call req.id) :
    (client.sendCall req).Ordered := by
  have pending : ∀ other otherReq, (other, otherReq) ∈ (client.sendCall req).pending →
      (other, otherReq) ∈ client.pending ∨ other = client.calls ∧ otherReq = req := by
    intro other otherReq member
    rw [TcpClient.pending, requests_sendCall, ← List.append_assoc] at member
    exact (List.mem_append.mp member).imp_right fun new => by simpa using new
  have apart : ∀ other otherReq, (other, otherReq) ∈ client.pending → otherReq.id ≠ req.id :=
    fun other otherReq member same => unused other (.inl ⟨otherReq, member, same⟩)
  refine ⟨?_, ?_, ?_, ?_⟩
  · rintro call id (⟨otherReq, member, rfl⟩ | found)
    · rcases pending call otherReq member with old | ⟨rfl, _⟩
      · exact (ordered.numbered (.inl ⟨otherReq, old, rfl⟩)).trans (Nat.lt_succ_self _)
      · exact Nat.lt_succ_self _
    · exact (ordered.numbered (.inr found)).trans (Nat.lt_succ_self _)
  · intro call left other right leftMember rightMember same
    rcases pending call left leftMember with leftOld | ⟨rfl, rfl⟩ <;>
      rcases pending other right rightMember with rightOld | ⟨rfl, rfl⟩
    · exact ordered.distinct leftOld rightOld same
    · exact absurd same (apart call left leftOld)
    · exact absurd same.symm (apart other right rightOld)
    · rfl
  · intro call id found other otherReq member same
    rcases pending other otherReq member with old | ⟨rfl, rfl⟩
    · exact ordered.cancelling found other otherReq old same
    · exact absurd (.inr (same ▸ found)) (unused call)
  · intro front call id rear position
    rcases List.eq_nil_or_concat rear with rfl | ⟨rear, last, rfl⟩
    · cases List.append_inj_right' position rfl
    · have whole : client.commands ++ [ClientCommand.call client.calls req] =
          (front ++ .cancel call id :: rear) ++ [last] := by
        refine position.trans ?_
        rw [List.concat_eq_append, List.append_assoc]
        rfl
      exact ordered.queued (List.append_inj' whole rfl).1

omit [DecidableEq Id] in
/-- A cancellation comes behind the request which it cancels. -/
theorem Ordered.sendCancel {client : TcpClient Id Content Body} {call : Nat} {id : Id}
    (ordered : client.Ordered) (found : client.callers.cancelling.lookup call = some id) :
    (client.sendCancel call id).Ordered := by
  have same : (client.sendCancel call id).pending = client.pending := by
    rw [TcpClient.pending, requests_sendCancel]
    rfl
  refine ⟨?_, ?_, ?_, ?_⟩
  · intro other otherId uses
    rw [Uses, same] at uses
    exact ordered.numbered (uses.imp_right Table.lookup_of_lookup_erase)
  · rw [same]
    exact ordered.distinct
  · intro other otherId kept
    rw [same]
    exact ordered.cancelling (Table.lookup_of_lookup_erase kept)
  · intro front other otherId rear position
    rcases List.eq_nil_or_concat rear with rfl | ⟨rear, last, rfl⟩
    · obtain ⟨rfl, new⟩ := List.append_inj' position rfl
      cases new
      exact ordered.cancelling found
    · have whole : client.commands ++ [ClientCommand.cancel call id] =
          (front ++ .cancel other otherId :: rear) ++ [last] := by
        refine position.trans ?_
        rw [List.concat_eq_append, List.append_assoc]
        rfl
      exact ordered.queued (List.append_inj' whole rfl).1

/-- A caller whose sender is not the removed one keeps its place. -/
theorem Tracked.waits_elsewhere {client : TcpClient Id Content Body} {id other : Id} {call : Nat}
    (tracked : client.Tracked) (waits : client.callers.waiting.lookup call = some other)
    (apart : client.inFlight.lookup id ≠ some call) :
    (∃ req, (call, req) ∈ requests client.commands ∧ req.id = other) ∨
      other ≠ id ∧ (client.inFlight.erase id).lookup other = some call := by
  refine (tracked.waits waits).imp_right fun known => ?_
  have elsewhere : other ≠ id := fun same => apart (same ▸ known)
  exact ⟨elsewhere, (AList.lookup_erase_ne elsewhere).trans known⟩

omit [DecidableEq Id] in
/-- A failed call returns no response. -/
theorem Delivers.own_of_resolve {client : TcpClient Id Content Body} {call other : Nat}
    {error : TcpError} {resp : JrpcResponse Id Body} (delivers : client.Delivers)
    (returns : (client.callers.resolve call (.error error)).outcomes.lookup other =
      some (.ok resp)) : resp.call = other := by
  rcases Callers.of_resolve_outcomes returns with before | ⟨_, refused⟩
  · exact delivers.own other resp before
  · cases refused

/-- An error brings no call the response of another. -/
theorem Delivers.own_of_removeSender {client : TcpClient Id Content Body} {id : Id} {call : Nat}
    {error : TcpError} {resp : JrpcResponse Id Body} (delivers : client.Delivers)
    (returns : (client.removeSender id (.error error)).callers.outcomes.lookup call =
      some (.ok resp)) : resp.call = call := by
  rcases of_removeSender_outcomes returns with before | ⟨_, refused⟩
  · exact delivers.own call resp before
  · cases refused

/-- What every step keeps whose call has an identifier of its own. -/
structure Orderly (client : TcpClient Id Content Body) : Prop where
  ordered : client.Ordered
  tracked : client.Tracked
  delivers : client.Delivers

/-- The state stays orderly when the connection fails. -/
theorem Orderly.failInFlight {client : TcpClient Id Content Body} (orderly : client.Orderly) :
    client.failInFlight.Orderly := by
  obtain ⟨ordered, tracked, delivers⟩ := orderly
  refine ⟨?_, ⟨?_, ?_⟩, ⟨?_, delivers.cancels⟩⟩
  · refine ordered.of_taken rfl [] rfl (fun _ written => absurd written List.not_mem_nil) ?_
    intro call id found
    rwa [TcpClient.failInFlight, Callers.failAll_cancelling] at found
  · intro id call found
    cases found
  · intro call id waits
    obtain ⟨before, unlisted⟩ := Callers.of_failAll_waiting waits
    refine (tracked.waits before).imp_right fun known => absurd ?_ unlisted
    exact List.mem_map.mpr ⟨(id, call), Table.mem_rows.mpr known, rfl⟩
  · intro call resp returns
    exact delivers.own call resp (Callers.of_failAll_outcomes returns)

/-- The state stays orderly when the transport starts a call. -/
theorem Orderly.startCall {client : TcpClient Id Content Body} {call : Nat}
    {req : JrpcRequest Id Content} {commands : List (ClientCommand Id Content)}
    (orderly : client.Orderly) (next : client.commands = .call call req :: commands)
    (attempt : Attempt) :
    ({ client with commands := commands }.startCall attempt call req).Orderly := by
  have requested : requests client.commands = (call, req) :: requests commands := by
    rw [next]
    rfl
  have failed : ∀ error connected,
      { client with
        commands := commands
        connected := connected
        callers := client.callers.resolve call (.error error) }.Orderly := by
    intro error connected
    obtain ⟨ordered, tracked, delivers⟩ := orderly
    refine ⟨?_, ⟨tracked.written, ?_⟩, ⟨?_, delivers.cancels⟩⟩
    · exact ordered.of_taken rfl [.call call req] next (fun _ => .inl) fun _ _ => id
    · intro other otherId waits
      obtain ⟨before, apart⟩ := Callers.of_resolve_waiting waits
      refine (tracked.waits before).imp_left ?_
      rintro ⟨otherReq, queued, same⟩
      rw [requested] at queued
      rcases List.mem_cons.mp queued with new | queued
      · cases new
        exact absurd rfl apart
      · exact ⟨otherReq, queued, same⟩
    · exact fun _ _ returns => delivers.own_of_resolve returns
  unfold TcpClient.startCall
  split_ifs
  · exact failed .unreachable client.connected
  · exact failed .encoding true
  · exact (failed .closed client.connected).failInFlight
  · obtain ⟨ordered, tracked, delivers⟩ := orderly
    refine ⟨?_, ⟨?_, ?_⟩, ⟨?_, delivers.cancels⟩⟩
    · refine ordered.of_taken rfl [.call call req] next ?_ ?_
      · intro request member
        exact (List.mem_append.mp member).imp_right fun new => by
          simpa [requests, ClientCommand.request?] using new
      · intro other otherId found
        rwa [removeSender_cancelling] at found
    · intro id other found
      rcases Table.lookup_insert_cases found with ⟨rfl, rfl⟩ | found
      · exact ⟨req, List.mem_append_right _ List.mem_cons_self, rfl⟩
      · obtain ⟨otherReq, written, named⟩ := tracked.written (lookup_removeSender found).1
        exact ⟨otherReq, List.mem_append_left _ written, named⟩
    · intro other otherId waits
      obtain ⟨before, apart⟩ := of_removeSender_waiting waits
      dsimp only at before apart ⊢
      rw [Table.lookup_insert_eq]
      rcases tracked.waits_elsewhere before apart with ⟨otherReq, queued, same⟩ | ⟨elsewhere, known⟩
      · rw [requested] at queued
        rcases List.mem_cons.mp queued with new | queued
        · cases new
          exact .inr (if_pos same.symm)
        · exact .inl ⟨otherReq, queued, same⟩
      · rw [if_neg elsewhere]
        exact .inr known
    · exact fun _ _ returns => delivers.own_of_removeSender returns

/-- The state stays orderly when the transport drops a cancelled call. -/
theorem Orderly.cancelCall {client : TcpClient Id Content Body} {call : Nat} {id : Id}
    {commands : List (ClientCommand Id Content)} (orderly : client.Orderly)
    (next : client.commands = .cancel call id :: commands) :
    ({ client with commands := commands }.cancelCall call id).Orderly := by
  obtain ⟨ordered, tracked, delivers⟩ := orderly
  have queue : requests client.commands = requests commands := by
    rw [next]
    rfl
  unfold TcpClient.cancelCall
  refine ⟨?_, ⟨?_, ?_⟩, ⟨?_, ?_⟩⟩
  · refine ordered.of_taken rfl [.cancel call id] next (fun _ => .inl) ?_
    intro other otherId found
    rwa [removeSender_cancelling] at found
  · intro otherId other found
    exact tracked.written (Table.lookup_of_lookup_erase found)
  · intro other otherId waits
    obtain ⟨before, apart⟩ := of_removeSender_waiting waits
    have known := tracked.waits_elsewhere before apart
    rw [queue] at known
    exact known.imp_right And.right
  · exact fun _ _ returns => delivers.own_of_removeSender returns
  · intro first other member
    rcases List.mem_append.mp member with before | now
    · exact delivers.cancels first other before
    · -- The removed call is on the connection under this identifier.
      obtain ⟨receiver, known, same⟩ := Option.map_eq_some_iff.mp (Option.mem_toList.mp now)
      cases same
      obtain ⟨req, written, named⟩ := tracked.written known
      have position : client.commands = [] ++ .cancel call id :: commands := next
      exact ordered.queued position other req (List.mem_append_left _ written) named

/-- The state stays orderly when a response comes in. -/
theorem Orderly.respond {client : TcpClient Id Content Body} {position call : Nat}
    {req : JrpcRequest Id Content} (orderly : client.Orderly)
    (found : client.unanswered[position]? = some (call, req)) (body : Body) :
    ({ client with unanswered := client.unanswered.eraseIdx position }.removeSender req.id
      (.ok ⟨req.id, body, call⟩)).Orderly := by
  obtain ⟨ordered, tracked, delivers⟩ := orderly
  refine ⟨?_, ⟨?_, ?_⟩, ⟨?_, delivers.cancels⟩⟩
  · refine ordered.of_taken rfl [] rfl (fun _ member => .inl (List.mem_of_mem_eraseIdx member)) ?_
    intro other otherId kept
    rwa [removeSender_cancelling] at kept
  · intro otherId other kept
    obtain ⟨before, elsewhere⟩ := lookup_removeSender kept
    obtain ⟨otherReq, written, rfl⟩ := tracked.written before
    refine ⟨otherReq, ?_, rfl⟩
    obtain ⟨place, stands⟩ := List.mem_iff_getElem?.mp written
    refine List.mem_eraseIdx_iff_getElem?.mpr ⟨place, ?_, stands⟩
    rintro rfl
    rw [found] at stands
    cases stands
    exact elsewhere rfl
  · intro other otherId waits
    obtain ⟨before, apart⟩ := of_removeSender_waiting waits
    exact (tracked.waits_elsewhere before apart).imp_right And.right
  · intro other resp returns
    rcases of_removeSender_outcomes returns with before | ⟨known, same⟩
    · exact delivers.own other resp before
    · cases same
      obtain ⟨otherReq, written, named⟩ := tracked.written known
      have answered := List.mem_of_getElem? found
      exact ordered.distinct (List.mem_append_left _ answered) (List.mem_append_left _ written)
        named.symm

/-- The state stays orderly when a call is made with an identifier of its own. -/
theorem Orderly.sendCall {client : TcpClient Id Content Body} {req : JrpcRequest Id Content}
    (orderly : client.Orderly) (unused : ∀ call, ¬client.Uses call req.id) :
    (client.sendCall req).Orderly := by
  obtain ⟨ordered, tracked, delivers⟩ := orderly
  refine ⟨Ordered.sendCall ordered unused, ⟨tracked.written, ?_⟩, ⟨delivers.own, delivers.cancels⟩⟩
  intro other id waits
  rw [requests_sendCall]
  rcases Table.lookup_insert_cases waits with ⟨rfl, rfl⟩ | waits
  · exact .inl ⟨req, List.mem_append_right _ List.mem_cons_self, rfl⟩
  · refine (tracked.waits waits).imp_left ?_
    rintro ⟨otherReq, queued, named⟩
    exact ⟨otherReq, List.mem_append_left _ queued, named⟩

/-- The state stays orderly when a call times out. -/
theorem Orderly.timeout {client : TcpClient Id Content Body} {call : Nat} {id : Id}
    (orderly : client.Orderly) (waits : client.callers.waiting.lookup call = some id) :
    { client with callers :=
      { client.callers.resolve call (.error .timeout) with
        cancelling := client.callers.cancelling.insert call id } }.Orderly := by
  obtain ⟨ordered, tracked, delivers⟩ := orderly
  have pending : ∃ req, (call, req) ∈ client.pending ∧ req.id = id := by
    rcases tracked.waits waits with ⟨req, queued, named⟩ | known
    · exact ⟨req, List.mem_append_right _ queued, named⟩
    · obtain ⟨req, written, named⟩ := tracked.written known
      exact ⟨req, List.mem_append_left _ written, named⟩
  refine ⟨⟨?_, ordered.distinct, ?_, ordered.queued⟩, ⟨tracked.written, ?_⟩,
    ⟨?_, delivers.cancels⟩⟩
  · rintro other otherId (old | found)
    · exact ordered.numbered (.inl old)
    · rcases Table.lookup_insert_cases found with ⟨rfl, rfl⟩ | found
      · exact ordered.numbered (.inl pending)
      · exact ordered.numbered (.inr found)
  · intro other otherId found
    rcases Table.lookup_insert_cases found with ⟨rfl, rfl⟩ | found
    · obtain ⟨req, member, named⟩ := pending
      intro other otherReq otherMember otherNamed
      exact ordered.distinct otherMember member (otherNamed.trans named.symm)
    · exact ordered.cancelling found
  · intro other otherId otherWaits
    exact tracked.waits (Table.lookup_of_lookup_erase otherWaits)
  · exact fun _ _ returns => delivers.own_of_resolve returns

/-- Every step whose identifier is its own keeps the state orderly. -/
theorem orderly_step {client next : TcpClient Id Content Body} {event : TcpEvent Id Content Body}
    (orderly : client.Orderly) (distinct : client.Distinct event)
    (taken : (machine Id Content Body).step client event = some next) : next.Orderly := by
  cases event with
  | call req =>
      cases taken
      exact orderly.sendCall distinct
  | timeout call =>
      simp only [machine] at taken
      split at taken
      · cases taken
      · rename_i id waits
        cases taken
        exact orderly.timeout waits
  | cancel call =>
      simp only [machine] at taken
      split at taken
      · cases taken
      · rename_i id found
        cases taken
        refine ⟨Ordered.sendCancel orderly.ordered found, ⟨orderly.tracked.written, ?_⟩,
          ⟨orderly.delivers.own, orderly.delivers.cancels⟩⟩
        intro other otherId waits
        rw [requests_sendCancel]
        exact orderly.tracked.waits waits
  | drop call =>
      cases taken
      obtain ⟨ordered, tracked, delivers⟩ := orderly
      refine ⟨?_, ⟨tracked.written, ?_⟩, ⟨delivers.own, delivers.cancels⟩⟩
      · exact ordered.of_taken rfl [] rfl (fun _ => .inl) fun _ _ => Table.lookup_of_lookup_erase
      · exact fun waits => tracked.waits (Table.lookup_of_lookup_erase waits)
  | command attempt =>
      simp only [machine] at taken
      split at taken
      · cases taken
      · rename_i call req commands queue
        cases taken
        exact orderly.startCall queue attempt
      · rename_i call id commands queue
        cases taken
        exact orderly.cancelCall queue
  | respond position body =>
      simp only [machine] at taken
      split at taken
      · cases taken
      · rename_i call req found
        cases taken
        exact orderly.respond found body
  | close =>
      simp only [machine] at taken
      split at taken
      · cases taken
        exact orderly.failInFlight
      · cases taken

theorem orderly_fresh : (fresh : TcpClient Id Content Body).Orderly := by
  refine ⟨⟨?_, ?_, ?_, ?_⟩, ⟨?_, ?_⟩, ⟨?_, ?_⟩⟩
  · rintro _ _ (⟨_, member, _⟩ | found)
    · exact absurd member List.not_mem_nil
    · cases found
  · intro _ _ _ _ member
    exact absurd member List.not_mem_nil
  · intro _ _ found
    cases found
  · intro front _ _ _ position
    exact absurd position.symm (by simp [fresh])
  · intro _ _ found
    cases found
  · intro _ _ found
    cases found
  · intro _ _ found
    cases found
  · intro _ _ member
    exact absurd member List.not_mem_nil

/-- The task takes a command and nothing fails. -/
def quietAttempt : Attempt := ⟨true, true, true⟩

/-- When nothing fails a call is sent over the connection. -/
theorem startCall_quiet (client : TcpClient Id Content Body) (call : Nat)
    (req : JrpcRequest Id Content) :
    client.startCall quietAttempt call req =
      { client.removeSender req.id (.error .stopped) with
        connected := true
        inFlight := (client.inFlight.erase req.id).insert req.id call
        unanswered := client.unanswered ++ [(call, req)] } := by
  rw [startCall, if_neg (by simp [quietAttempt]), if_neg (by simp [quietAttempt]),
    if_neg (by simp [quietAttempt])]
  rfl

/-- The removal of another call's sender leaves a call waiting. -/
theorem waiting_removeSender {client : TcpClient Id Content Body} {id : Id} {call : Nat}
    (apart : client.inFlight.lookup id ≠ some call)
    (outcome : Except TcpError (JrpcResponse Id Body)) :
    (client.removeSender id outcome).callers.waiting.lookup call =
      client.callers.waiting.lookup call := by
  simp only [removeSender]
  split
  · rfl
  · rename_i receiver known
    refine AList.lookup_erase_ne ?_
    rintro rfl
    exact apart known

/-- The transport takes a call from the queue. -/
theorem step_call {client : TcpClient Id Content Body} {call : Nat} {req : JrpcRequest Id Content}
    {commands : List (ClientCommand Id Content)} (queue : client.commands = .call call req :: commands)
    (attempt : Attempt) :
    (machine Id Content Body).step client (.command attempt) =
      some ({ client with commands := commands }.startCall attempt call req) := by
  simp only [machine]
  rw [queue]

/-- The transport takes a cancellation from the queue. -/
theorem step_cancel {client : TcpClient Id Content Body} {call : Nat} {id : Id}
    {commands : List (ClientCommand Id Content)} (queue : client.commands = .cancel call id :: commands)
    (attempt : Attempt) :
    (machine Id Content Body).step client (.command attempt) =
      some ({ client with commands := commands }.cancelCall call id) := by
  simp only [machine]
  rw [queue]

/-- A queue whose last command makes a call is worked off, and the call is in flight. -/
theorem exec_drain {number : Nat} {req : JrpcRequest Id Content}
    {front : List (ClientCommand Id Content)} (client : TcpClient Id Content Body)
    (queue : client.commands = front ++ [.call number req])
    (earlier : ∀ call otherReq, (call, otherReq) ∈ requests front → call ≠ number)
    (elsewhere : ∀ id, client.inFlight.lookup id ≠ some number) :
    ∃ final, (machine Id Content Body).exec client
        (List.replicate (front.length + 1) (.command quietAttempt)) = some final ∧
      final.commands = [] ∧ final.inFlight.lookup req.id = some number ∧
      final.unanswered = client.unanswered ++ requests client.commands ∧
      final.callers.cancelling = client.callers.cancelling ∧
      final.callers.waiting.lookup number = client.callers.waiting.lookup number := by
  induction front generalizing client with
  | nil =>
      have taken := step_call queue quietAttempt
      rw [startCall_quiet] at taken
      rw [List.length_nil, Nat.zero_add, List.replicate_one, Machine.exec_cons, taken]
      refine ⟨_, rfl, rfl, AList.lookup_insert _, ?_, removeSender_cancelling _ _ _,
        waiting_removeSender (elsewhere _) _⟩
      rw [queue]
      rfl
  | cons command front ih =>
      rw [List.length_cons, List.replicate_succ, Machine.exec_cons]
      cases command with
      | call other otherReq =>
          have apart : other ≠ number := earlier other otherReq List.mem_cons_self
          rw [step_call queue quietAttempt, startCall_quiet, Option.bind_some]
          obtain ⟨final, ran, drained, known, written, cancelling, waiting⟩ :=
            ih { client.removeSender otherReq.id (.error .stopped) with
                commands := front ++ [.call number req]
                connected := true
                inFlight := (client.inFlight.erase otherReq.id).insert otherReq.id other
                unanswered := client.unanswered ++ [(other, otherReq)] } rfl
              (fun call req listed => earlier call req (List.mem_cons_of_mem _ listed)) (by
                intro id found
                rcases Table.lookup_insert_cases found with ⟨_, same⟩ | found
                · exact apart same.symm
                · exact elsewhere id (Table.lookup_of_lookup_erase found))
          refine ⟨final, ran, drained, known, ?_, ?_, ?_⟩
          · rw [written, queue, List.append_assoc]
            rfl
          · rw [cancelling]
            exact removeSender_cancelling _ _ _
          · rw [waiting]
            exact waiting_removeSender (elsewhere _) _
      | cancel other id =>
          rw [step_cancel queue quietAttempt, Option.bind_some]
          obtain ⟨final, ran, drained, known, written, cancelling, waiting⟩ :=
            ih ({ client with commands := front ++ [ClientCommand.call number req] }.cancelCall
              other id) rfl
              earlier fun id found => elsewhere id (Table.lookup_of_lookup_erase found)
          refine ⟨final, ran, drained, known, ?_, ?_, ?_⟩
          · rw [written, queue]
            rfl
          · rw [cancelling]
            exact removeSender_cancelling _ _ _
          · rw [waiting]
            exact waiting_removeSender (elsewhere _) _

/-- A call which waits for a sender gets the outcome of its removal. -/
theorem outcomes_removeSender {client : TcpClient Id Content Body} {id other : Id} {call : Nat}
    (known : client.inFlight.lookup id = some call)
    (waits : client.callers.waiting.lookup call = some other)
    (outcome : Except TcpError (JrpcResponse Id Body)) :
    (client.removeSender id outcome).callers.outcomes.lookup call = some outcome := by
  have listed : call ∈ client.callers.waiting := AList.lookup_isSome.mp (by simp [waits])
  simp only [removeSender, known, Callers.resolve, if_pos listed]
  exact AList.lookup_insert _

/-- The queue is worked off after a call. -/
theorem exec_drain_sendCall {client : TcpClient Id Content Body} (orderly : client.Orderly)
    (req : JrpcRequest Id Content) :
    ∃ final, (machine Id Content Body).exec (client.sendCall req)
        (List.replicate (client.commands.length + 1) (.command quietAttempt)) = some final ∧
      final.commands = [] ∧ final.inFlight.lookup req.id = some client.calls ∧
      (∀ request ∈ client.pending, request ∈ final.unanswered) ∧
      final.callers.cancelling = client.callers.cancelling ∧
      final.callers.waiting.lookup client.calls = some req.id := by
  have queue : (client.sendCall req).commands =
      client.commands ++ [.call client.calls req] := rfl
  obtain ⟨final, ran, drained, known, written, cancelling, waiting⟩ :=
    exec_drain (client.sendCall req) queue
      (fun call otherReq listed => (orderly.ordered.numbered
        (.inl ⟨otherReq, List.mem_append_right _ listed, rfl⟩)).ne)
      (fun id found => by
        obtain ⟨otherReq, member, named⟩ := orderly.tracked.written found
        exact lt_irrefl _ (orderly.ordered.numbered
          (.inl ⟨otherReq, List.mem_append_left _ member, named⟩)))
  refine ⟨final, ran, drained, known, ?_, cancelling, waiting.trans (AList.lookup_insert _)⟩
  intro request member
  rw [written, requests_sendCall, ← List.append_assoc]
  exact List.mem_append_left _ member

/-- A call with an identifier in use goes wrong: the other call's response reaches it, or the
other call's cancellation removes it. -/
theorem exists_misdelivery [Inhabited Body] {client : TcpClient Id Content Body} {call : Nat}
    {req : JrpcRequest Id Content} (orderly : client.Orderly) (uses : client.Uses call req.id) :
    ∃ rest, (∀ event ∈ rest, ∀ req, event ≠ .call req) ∧
      ∃ final, (machine Id Content Body).exec (client.sendCall req) rest = some final ∧
        ¬final.Delivers := by
  have older : call < client.calls := orderly.ordered.numbered uses
  obtain ⟨middle, ran, drained, known, written, cancelling, waits⟩ :=
    exec_drain_sendCall orderly req
  -- No event of the rest is a call.
  have calm : ∀ extra : List (TcpEvent Id Content Body), (∀ event ∈ extra, ∀ req, event ≠ .call req) →
      ∀ event ∈ List.replicate (client.commands.length + 1) (.command quietAttempt) ++ extra,
        ∀ req, event ≠ .call req := by
    intro extra quiet event member req same
    rcases List.mem_append.mp member with listed | listed
    · rw [List.eq_of_mem_replicate listed] at same
      cases same
    · exact quiet event listed req same
  rcases uses with ⟨otherReq, member, named⟩ | found
  · obtain ⟨position, stands⟩ := List.mem_iff_getElem?.mp (written _ member)
    have taken : (machine Id Content Body).step middle (.respond position default) =
        some ({ middle with unanswered := middle.unanswered.eraseIdx position }.removeSender
          otherReq.id (.ok ⟨otherReq.id, default, call⟩)) := by
      simp only [machine, stands]
    have reached := Machine.exec_snoc.mpr ⟨middle, ran, taken⟩
    refine ⟨_, calm [.respond position default] (by simp), _, reached, ?_⟩
    intro delivers
    have misled := delivers.own client.calls _
      (outcomes_removeSender (by rw [named]; exact known) waits _)
    exact older.ne misled
  · have taken : (machine Id Content Body).step middle (.cancel call) =
        some (middle.sendCancel call req.id) := by
      simp only [machine, cancelling, found]
    have queue : (middle.sendCancel call req.id).commands = .cancel call req.id :: [] := by
      rw [sendCancel, drained]
      rfl
    have reached := Machine.exec_snoc.mpr
      ⟨_, Machine.exec_snoc.mpr ⟨middle, ran, taken⟩, step_cancel queue quietAttempt⟩
    rw [List.append_assoc] at reached
    refine ⟨_, calm [.cancel call, .command quietAttempt] (by simp), _, reached, ?_⟩
    intro delivers
    have removed := delivers.cancels call client.calls (List.mem_append_right _ ?_)
    · exact older.ne' removed
    · rw [Option.mem_toList]
      exact Option.map_eq_some_iff.mpr ⟨_, known, rfl⟩

/-- However the run goes on after any of its steps, without further calls, responses and
cancellations go to their own calls. -/
def AlwaysDelivers (events : List (TcpEvent Id Content Body)) : Prop :=
  ∀ before, before <+: events → ∀ rest, (∀ event ∈ rest, ∀ req, event ≠ .call req) →
    (machine Id Content Body).Always Delivers fresh (before ++ rest)

/-- While the identifiers in use differ, every response goes to its own call. -/
theorem alwaysDelivers_of_distinct {events : List (TcpEvent Id Content Body)}
    (along : (machine Id Content Body).Along Distinct fresh events) : AlwaysDelivers events := by
  intro before within rest quiet
  have onward : (machine Id Content Body).Along Distinct fresh (before ++ rest) := by
    intro shorter event position state next reached taken
    cases event with
    | call req =>
        refine along.of_prefix within shorter (.call req) ?_ state next reached taken
        rcases List.prefix_or_prefix_of_prefix position (List.prefix_append before rest) with
          inside | ⟨tail, whole⟩
        · exact inside
        · rcases List.eq_nil_or_concat tail with rfl | ⟨tail, last, rfl⟩
          · exact ⟨[], by rw [List.append_nil] at whole ⊢; exact whole.symm⟩
          · rw [← whole, List.prefix_append_right_inj] at position
            rw [List.concat_eq_append, ← List.append_assoc] at whole
            obtain ⟨-, same⟩ := List.append_inj' whole rfl
            cases same
            exact absurd rfl (quiet _ (position.subset (by simp)) req)
    | _ => trivial
  intro shorter position state reached
  exact (Machine.always_of_along orderly_step orderly_fresh onward shorter position state
    reached).delivers

/-- Responses and cancellations go to their own calls, however the run goes on, exactly when no
call is made with an identifier which another call still uses. -/
theorem delivers_iff_distinct [Inhabited Body] (events : List (TcpEvent Id Content Body)) :
    AlwaysDelivers events ↔ (machine Id Content Body).Along Distinct fresh events := by
  refine ⟨fun delivers => ?_, alwaysDelivers_of_distinct⟩
  refine Machine.along_of_property AlwaysDelivers
    (fun delivers within before position => delivers before (position.trans within)) ?_ delivers
  intro before event state next delivers along reached taken
  cases event with
  | call req =>
      intro call uses
      have orderly : state.Orderly :=
        (Machine.always_of_along orderly_step orderly_fresh along).last reached
      cases taken
      obtain ⟨rest, quiet, final, ran, breaks⟩ := exists_misdelivery orderly uses
      refine breaks ((delivers _ (List.prefix_refl _) rest quiet).last ?_)
      rw [Machine.exec_append, Machine.exec_snoc.mpr ⟨state, reached, rfl⟩]
      exact ran
  | _ => trivial

/-- Two users of a proxy number their requests alike, and the server answers in order. -/
def clashRun : List (TcpEvent Nat String String) :=
  [.call ⟨1, "alice"⟩, .call ⟨1, "bob"⟩, .command quietAttempt, .command quietAttempt,
    .respond 0 "for alice"]

/-- The second call gets what was said for the first. -/
theorem outcomes_clashRun :
    ((machine Nat String String).exec fresh clashRun).map
      (fun client => (client.callers.outcomes.lookup 0, client.callers.outcomes.lookup 1)) =
        some (some (.error .stopped), some (.ok ⟨1, "for alice", 0⟩)) := by
  rfl

/-- Two calls with one identifier break the delivery. -/
theorem clashRun_breaks : ¬∀ events : List (TcpEvent Nat String String),
    (machine Nat String String).Always Delivers fresh events := by
  intro property
  obtain ⟨client, reached, returned⟩ := Option.map_eq_some_iff.mp outcomes_clashRun
  have bob : client.callers.outcomes.lookup 1 = some (.ok ⟨1, "for alice", 0⟩) :=
    congrArg Prod.snd returned
  exact absurd (((property clashRun).last reached).own 1 _ bob) (by decide)

end TcpClient
end Nullspace
