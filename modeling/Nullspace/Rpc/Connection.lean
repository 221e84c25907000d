import Nullspace.Base.Lines
import Nullspace.Base.Refinement
import Nullspace.Rpc.Message
import Nullspace.Rpc.Multiplex

/-!
# Connections

A `RawTcpClient` and the server at its endpoint talk through byte streams, with a message on
every line. Bytes arrive in pieces of any size, and either stream can be cut off anywhere. A
server starts a task for each request it reads, and the tasks end in any order.

Connections which the client has left go on at the server: what is on its way there is still
read, and the tasks still answer.
-/

namespace Nullspace

open Nullspace.Base

variable {Id Content Body : Type}

/-- The text of some bytes, if they are UTF-8. -/
def ofUtf8? (bytes : Bytes) : Option String := String.fromUTF8? ⟨bytes.toArray⟩

/-- A text decoded from bytes has these bytes. -/
theorem utf8_of_ofUtf8? {bytes : Bytes} {text : String} (decoded : ofUtf8? bytes = some text) :
    utf8 text = bytes := by
  rw [ofUtf8?, String.fromUTF8?] at decoded
  split_ifs at decoded
  cases decoded
  rfl

/-- What a server writes to a connection. -/
inductive Reply (Id Body : Type) where
  | response (id : Id) (body : Body)
  /-- To a line which is no request. -/
  | parseError (line : String)

/-- The JSON texts of the `nanorpc` crate's types. -/
structure RpcJson (Id Content Body : Type) where
  writeRequest : JrpcRequest Id Content → String
  readRequest : String → Option (JrpcRequest Id Content)
  writeReply : Reply Id Body → String
  readResponse : String → Option (Id × Body)

/-- A text with no control characters in it. -/
structure Compact (text : String) : Prop where
  some : text ≠ ""
  printable : ∀ byte ∈ utf8 text, 32 ≤ byte

/-- What `serde_json` does: what is written on one line is read again, what is cut off is not,
and a response has an identifier. -/
structure RpcJson.Lawful (json : RpcJson Id Content Body) : Prop where
  request : ∀ req, json.readRequest (json.writeRequest req) = some req
  compactRequest : ∀ req, Compact (json.writeRequest req)
  cutRequest : ∀ req text, utf8 text <+: utf8 (json.writeRequest req) →
    text ≠ json.writeRequest req → json.readRequest text = none
  response : ∀ id body, json.readResponse (json.writeReply (.response id body)) = some (id, body)
  parseError : ∀ line, json.readResponse (json.writeReply (.parseError line)) = none
  compactReply : ∀ reply, Compact (json.writeReply reply)
  cutReply : ∀ reply text, utf8 text <+: utf8 (json.writeReply reply) →
    text ≠ json.writeReply reply → json.readResponse text = none

def newline : UInt8 := 10

def carriageReturn : UInt8 := 13

/-- One direction of a connection. -/
structure Channel where
  /-- What is queued, or on its way. -/
  wire : Bytes
  /-- What has arrived. -/
  buffer : Bytes
  /-- The writer has gone: nothing more comes than what is on its way. -/
  ended : Bool
  /-- The reader goes on. -/
  reads : Bool
  /-- The calls whose lines are not read yet. The code keeps no record. -/
  calls : List Nat
deriving DecidableEq

namespace Channel

def fresh : Channel := ⟨[], [], false, true, []⟩

/-- A line for the writer, which is lost when the writer has gone. -/
def send (channel : Channel) (call : Nat) (text : String) : Channel :=
  { channel with
    wire := if channel.ended then channel.wire else channel.wire ++ (utf8 text ++ [newline])
    calls := channel.calls ++ [call] }

/-- So many bytes arrive. -/
def arrive (channel : Channel) (count : Nat) : Channel :=
  { channel with
    wire := channel.wire.drop count
    buffer := channel.buffer ++ channel.wire.take count }

/-- The writer goes, and only so many bytes still come. -/
def hangUp (channel : Channel) (count : Nat) : Channel :=
  { channel with wire := channel.wire.take count, ended := true }

/-- The reader goes. -/
def stop (channel : Channel) : Channel := { channel with reads := false }

/-- `without_carriage_return` of the line codec. -/
def withoutCarriageReturn (line : Bytes) : Bytes :=
  if line.getLast? = some carriageReturn then line.dropLast else line

/-- What a reader gets. -/
inductive Framed where
  /-- A line, and the buffer after it. -/
  | line (text : String) (rest : Bytes)
  | failed
  | finished
  /-- It waits for more. -/
  | waits

/-- A line is UTF-8. -/
def frame (line rest : Bytes) : Framed :=
  match ofUtf8? (withoutCarriageReturn line) with
  | none => .failed
  | some text => .line text rest

/-- `FramedRead::next`, with a `LinesCodec`: at the end of a stream what is left is a line. -/
def next (channel : Channel) : Framed :=
  match readLine newline maxMessageBytes channel.buffer with
  | .line content rest => frame content rest
  | .tooLong => .failed
  | .more =>
      if channel.ended = false ∨ channel.wire ≠ [] then .waits
      else if channel.buffer = [] ∨ channel.buffer = [carriageReturn] then .finished
      else frame channel.buffer []

/-- The call of the next line. -/
def call (channel : Channel) : Nat := channel.calls.headD 0

/-- The reader has taken a line. -/
def take (channel : Channel) (rest : Bytes) : Channel :=
  { channel with buffer := rest, calls := channel.calls.tail }

/-- The reader has passed over an empty line. -/
def skip (channel : Channel) (rest : Bytes) : Channel := { channel with buffer := rest }

end Channel

inductive Direction where
  | up
  | down
deriving DecidableEq

/-- A connection, with what both ends keep for it. -/
structure RpcConnection (Id Content Body : Type) where
  up : Channel
  /-- The server's tasks, with the numbers of their calls. -/
  tasks : List (Nat × JrpcRequest Id Content)
  down : Channel
  /-- The responses which the client has read and not handed out. -/
  events : List (JrpcResponse Id Body)

namespace RpcConnection

def fresh : RpcConnection Id Content Body := ⟨.fresh, [], .fresh, []⟩

def onChannel (connection : RpcConnection Id Content Body) (change : Channel → Channel) :
    Direction → RpcConnection Id Content Body
  | .up => { connection with up := change connection.up }
  | .down => { connection with down := change connection.down }

/-- The client writes a request. -/
def request (json : RpcJson Id Content Body) (call : Nat) (req : JrpcRequest Id Content)
    (connection : RpcConnection Id Content Body) : RpcConnection Id Content Body :=
  { connection with up := connection.up.send call (json.writeRequest req) }

/-- The client drops its end. Its writer still writes what is queued. -/
def leave (connection : RpcConnection Id Content Body) : RpcConnection Id Content Body :=
  { connection with up := connection.up.hangUp connection.up.wire.length }

/-- The loop of `rpc_connection_io`. -/
def serve (json : RpcJson Id Content Body) (connection : RpcConnection Id Content Body) :
    Option (RpcConnection Id Content Body) :=
  if connection.up.reads = false then none
  else
    match connection.up.next with
    | .waits => none
    | .failed | .finished => some { connection with up := connection.up.stop }
    | .line text rest =>
        if text = "" then some { connection with up := connection.up.skip rest }
        else
          match json.readRequest text with
          | some req =>
              some { connection with
                up := connection.up.take rest
                tasks := connection.tasks ++ [(connection.up.call, req)] }
          | none =>
              some { connection with
                up := connection.up.take rest
                down := connection.down.send connection.up.call
                  (json.writeReply (.parseError text)) }

/-- A task ends: `respond_raw` answers with the identifier of the request. -/
def reply (json : RpcJson Id Content Body) (position call : Nat) (req : JrpcRequest Id Content)
    (body : Body) (connection : RpcConnection Id Content Body) :
    RpcConnection Id Content Body :=
  { connection with
    tasks := connection.tasks.eraseIdx position
    down := connection.down.send call (json.writeReply (.response req.id body)) }

/-- The reader of `connect_with_io`. -/
def listen (json : RpcJson Id Content Body) (connection : RpcConnection Id Content Body) :
    Option (RpcConnection Id Content Body) :=
  if connection.down.reads = false then none
  else
    match connection.down.next with
    | .waits => none
    | .failed | .finished => some { connection with down := connection.down.stop }
    | .line text rest =>
        if text = "" then some { connection with down := connection.down.skip rest }
        else
          match json.readResponse text with
          | some (id, body) =>
              some { connection with
                down := connection.down.take rest
                events := connection.events ++ [⟨id, body, connection.down.call⟩] }
          | none => some { connection with down := connection.down.stop }

/-- The calls whose requests the server has not answered yet. -/
def ahead (connection : RpcConnection Id Content Body) : List Nat :=
  connection.up.calls ++ connection.tasks.map Prod.fst

/-- All calls of the connection without a result yet. -/
def outstanding (connection : RpcConnection Id Content Body) : List Nat :=
  connection.ahead ++ (connection.down.calls ++ connection.events.map JrpcResponse.call)

end RpcConnection

/-- A client, and its connections to the server. -/
structure TcpLink (Id Content Body : Type) where
  client : TcpClient Id Content Body
  /-- The newest first: this is the client's own, when it is connected. -/
  connections : List (RpcConnection Id Content Body)
  /-- The calls so far, with their requests. The code keeps no record. -/
  made : List (Nat × JrpcRequest Id Content)
  /-- The answers of the service so far, with the calls they are for. The code keeps no
  record. -/
  responded : List (Nat × JrpcRequest Id Content × Body)

inductive LinkEvent (Id Content Body : Type) where
  | client (event : TcpEvent Id Content Body)
  | arrive (connection : Nat) (direction : Direction) (count : Nat)
  | hangUp (connection : Nat) (direction : Direction) (count : Nat)
  /-- A time limit of the server's reader, or a reader's error. -/
  | stop (connection : Nat) (direction : Direction)
  | serve (connection : Nat)
  | reply (connection position : Nat) (body : Body)
  | listen
  /-- The client task takes a `ConnEvent::Response`. -/
  | take

namespace TcpLink

def fresh : TcpLink Id Content Body := ⟨.fresh, [], [], []⟩

/-- The connections, after the task has taken a call from its queue. -/
def startCall (json : RpcJson Id Content Body) (link : TcpLink Id Content Body)
    (attempt : Attempt) (call : Nat) (req : JrpcRequest Id Content) :
    List (RpcConnection Id Content Body) :=
  if link.client.connected = false ∧ attempt.connects = false then link.connections
  else
    let connections :=
      if link.client.connected then link.connections else .fresh :: link.connections
    if attempt.encodes = false then connections
    else if attempt.writes = false then connections.modifyHead .leave
    else connections.modifyHead (.request json call req)

/-- The connections, after the task has taken a command from its queue. -/
def command (json : RpcJson Id Content Body) (link : TcpLink Id Content Body)
    (attempt : Attempt) : List (RpcConnection Id Content Body) :=
  match link.client.commands with
  | .call call req :: _ => link.startCall json attempt call req
  | _ => link.connections

/-- The writer of the client's own connection has gone, and lines for it are refused. -/
def writerGone (link : TcpLink Id Content Body) : Bool :=
  link.client.connected && link.connections.head?.any fun connection => connection.up.ended

/-- Where the request of a call is among those without an answer. -/
def place (client : TcpClient Id Content Body) (call : Nat) : Nat :=
  (client.unanswered.map Prod.fst).idxOf call

/-- The task hands out a response. -/
def handOut [DecidableEq Id] (client : TcpClient Id Content Body) (resp : JrpcResponse Id Body) :
    TcpClient Id Content Body :=
  { client with
    unanswered := client.unanswered.eraseIdx (place client resp.call) }.removeSender resp.id
      (.ok resp)

/-- One of the connections changes, if it is there and can. -/
def onConnection (link : TcpLink Id Content Body) (index : Nat)
    (change : RpcConnection Id Content Body → Option (RpcConnection Id Content Body)) :
    Option (TcpLink Id Content Body) := do
  let connection ← link.connections[index]?
  let changed ← change connection
  some { link with connections := link.connections.set index changed }

/-- The step of a client, without the responses: they come from the connection. -/
def clientStep [DecidableEq Id] (json : RpcJson Id Content Body)
    (link : TcpLink Id Content Body) : TcpEvent Id Content Body → Option (TcpLink Id Content Body)
  | .respond _ _ => none
  | .call req =>
      some { link with
        client := link.client.sendCall req
        made := link.made ++ [(link.client.calls, req)] }
  | .command attempt =>
      if link.writerGone && attempt.writes then none
      else do
        let client ← (TcpClient.machine Id Content Body).step link.client (.command attempt)
        some { link with client := client, connections := link.command json attempt }
  | .close => do
      let client ← (TcpClient.machine Id Content Body).step link.client .close
      some { link with
        client := client
        connections := link.connections.modifyHead .leave }
  | event => do
      let client ← (TcpClient.machine Id Content Body).step link.client event
      some { link with client := client }

/-- A client and its server as a machine. -/
def machine [DecidableEq Id] (json : RpcJson Id Content Body) :
    Machine (TcpLink Id Content Body) (LinkEvent Id Content Body) where
  step link
    | .client event => link.clientStep json event
    | .arrive index direction count =>
        link.onConnection index fun connection =>
          some (connection.onChannel (·.arrive count) direction)
    | .hangUp index direction count =>
        link.onConnection index fun connection =>
          some (connection.onChannel (·.hangUp count) direction)
    | .stop index direction =>
        link.onConnection index fun connection => some (connection.onChannel .stop direction)
    | .serve index => link.onConnection index (RpcConnection.serve json)
    | .reply index position body => do
        let connection ← link.connections[index]?
        let (call, req) ← connection.tasks[position]?
        some { link with
          connections := link.connections.set index (connection.reply json position call req body)
          responded := link.responded ++ [(call, req, body)] }
    | .listen => if link.client.connected then link.onConnection 0 (RpcConnection.listen json) else none
    | .take =>
        if link.client.connected then
          match link.connections with
          | [] => none
          | connection :: older =>
              match connection.events with
              | [] => none
              | resp :: events =>
                  some { link with
                    client := handOut link.client resp
                    connections := { connection with events := events } :: older }
        else none

end TcpLink
end Nullspace
