import Mathlib.Data.List.Perm.Subperm
import Nullspace.Rpc.Connection

/-!
# What streams carry

A reader of a stream gets the messages whose lines were written, one after another, however the
bytes come, and at most a front part of the next one when the writer goes. So a connection
carries the requests which were made and the answers which the service gave, and every call on it
is in one place: on its way to the server, in a task there, on its way back, or read.
-/

namespace Nullspace

open Nullspace.Base

variable {Id Content Body Message : Type}

namespace Channel

/-- The messages whose lines are not read yet: all of what was written, or a front part of it
when the writer has gone. -/
structure Carries (channel : Channel) (text : Message → String) (messages : List (Nat × Message)) :
    Prop where
  calls : channel.calls = messages.map Prod.fst
  written : channel.buffer ++ channel.wire <+:
    writeLines newline (messages.map fun message => utf8 (text message.2))
  whole : channel.ended = false → channel.buffer ++ channel.wire =
    writeLines newline (messages.map fun message => utf8 (text message.2))

variable {channel : Channel} {text : Message → String} {messages : List (Nat × Message)}

/-- An empty channel carries nothing. -/
theorem carries_fresh (text : Message → String) : fresh.Carries text [] :=
  ⟨rfl, List.prefix_refl _, fun _ => rfl⟩

/-- A message which is sent is carried behind the others. -/
theorem Carries.send (carries : channel.Carries text messages) (call : Nat) (message : Message) :
    (channel.send call (text message)).Carries text (messages ++ [(call, message)]) := by
  refine ⟨?_, ?_, ?_⟩
  · rw [List.map_append, ← carries.calls]
    rfl
  · rw [List.map_append, List.map_singleton, writeLines_snoc, Channel.send]
    cases ended : channel.ended with
    | true => exact carries.written.trans (List.prefix_append _ _)
    | false =>
        rw [← carries.whole ended, List.append_assoc]
        exact List.prefix_refl _
  · intro ended
    rw [List.map_append, List.map_singleton, writeLines_snoc, ← carries.whole ended,
      List.append_assoc, Channel.send]
    simp only [show channel.ended = false from ended, Bool.false_eq_true, if_false]

/-- Bytes which arrive leave the messages as they are. -/
theorem Carries.arrive (carries : channel.Carries text messages) (count : Nat) :
    (channel.arrive count).Carries text messages := by
  have same : (channel.arrive count).buffer ++ (channel.arrive count).wire =
      channel.buffer ++ channel.wire := by
    rw [Channel.arrive, List.append_assoc, List.take_append_drop]
  exact ⟨carries.calls, same ▸ carries.written, fun ended => same ▸ carries.whole ended⟩

/-- A connection which is cut carries a part of what was sent. -/
theorem Carries.hangUp (carries : channel.Carries text messages) (count : Nat) :
    (channel.hangUp count).Carries text messages where
  calls := carries.calls
  written := ((List.prefix_append_right_inj _).mpr (List.take_prefix _ _)).trans carries.written
  whole ended := nomatch ended

/-- A reader which stops loses nothing which it has read. -/
theorem Carries.stop (carries : channel.Carries text messages) :
    channel.stop.Carries text messages :=
  ⟨carries.calls, carries.written, carries.whole⟩

/-- A line of printable bytes has no carriage return. -/
theorem withoutCarriageReturn_of_printable {line : Bytes} (printable : ∀ byte ∈ line, 32 ≤ byte) :
    withoutCarriageReturn line = line := by
  refine if_neg fun ends => ?_
  exact absurd (printable _ (List.mem_of_getLast? ends)) (by decide)

/-- A line of printable bytes is read as it was written. -/
theorem frame_eq_line {bytes rest after : Bytes} {line : String}
    (printable : ∀ byte ∈ bytes, 32 ≤ byte) (framed : frame bytes rest = .line line after) :
    utf8 line = bytes ∧ after = rest := by
  rw [frame, withoutCarriageReturn_of_printable printable] at framed
  cases decoded : ofUtf8? bytes with
  | none =>
      rw [decoded] at framed
      cases framed
  | some text =>
      rw [decoded] at framed
      cases framed
      exact ⟨utf8_of_ofUtf8? decoded, rfl⟩

/-- A reader gets the first message's line, or what is there of it at the end of the stream. -/
theorem Carries.next (compact : ∀ message, Compact (text message))
    (carries : channel.Carries text messages) {line : String} {rest : Bytes}
    (read : channel.next = .line line rest) :
    line ≠ "" ∧ ∃ message others, messages = (channel.call, message) :: others ∧
      utf8 line <+: utf8 (text message) ∧ (channel.take rest).Carries text others := by
  have plain : ∀ line ∈ messages.map fun message => utf8 (text message.2), newline ∉ line := by
    intro line member inside
    obtain ⟨message, _, rfl⟩ := List.mem_map.mp member
    exact absurd ((compact message.2).printable _ inside) (by decide)
  have some_of_utf8 : utf8 line ≠ [] → line ≠ "" := by
    rintro some rfl
    exact some rfl
  rw [Channel.next] at read
  split at read
  · rename_i content after found
    obtain ⟨lines, listed, onward⟩ := readLine_of_written plain carries.written found
    obtain ⟨⟨call, message⟩, others, rfl, rfl, rfl⟩ := List.map_eq_cons_iff.mp listed
    obtain ⟨same, rfl⟩ := frame_eq_line (compact message).printable read
    have named : channel.call = call := by
      rw [Channel.call, carries.calls]
      rfl
    refine ⟨some_of_utf8 ?_, message, others, by rw [named], same ▸ List.prefix_refl _, ?_⟩
    · rw [same]
      exact fun none => (compact message).some (utf8_injective none)
    · refine ⟨?_, onward, fun ended => ?_⟩
      · rw [Channel.take, carries.calls]
        rfl
      · have whole := carries.whole ended
        rw [(readLine_eq_line found).1, List.append_assoc, List.map_cons, writeLines_cons] at whole
        exact (List.cons.inj (List.append_cancel_left whole)).2
  · cases read
  · rename_i found
    split_ifs at read with waits none
    rw [not_or, Bool.not_eq_false, not_not] at waits
    have written := carries.written
    rw [waits.2, List.append_nil] at written
    obtain ⟨first, lines, listed, within⟩ :=
      prefix_of_written written (readLine_eq_more found) (not_or.mp none).1
    obtain ⟨⟨call, message⟩, others, rfl, rfl, rfl⟩ := List.map_eq_cons_iff.mp listed
    obtain ⟨same, rfl⟩ := frame_eq_line
      (fun byte inside => (compact message).printable byte (within.subset inside)) read
    have named : channel.call = call := by
      rw [Channel.call, carries.calls]
      rfl
    refine ⟨some_of_utf8 (same ▸ (not_or.mp none).1), message, others, by rw [named],
      same ▸ within, ?_, ?_, ?_⟩
    · rw [Channel.take, carries.calls]
      rfl
    · rw [Channel.take, waits.2]
      exact List.nil_prefix
    · intro ended
      cases waits.1.symm.trans ended

end Channel

/-- The service has answered the call's request so. -/
def Answered (responded : List (Nat × JrpcRequest Id Content × Body)) (call : Nat) (id : Id)
    (body : Body) : Prop :=
  ∃ req, (call, req, body) ∈ responded ∧ req.id = id

/-- An answered call stays answered while more is answered. -/
theorem Answered.mono {responded more : List (Nat × JrpcRequest Id Content × Body)} {call : Nat}
    {id : Id} {body : Body} (answered : Answered responded call id body)
    (grows : responded ⊆ more) : Answered more call id body := by
  obtain ⟨req, listed, named⟩ := answered
  exact ⟨req, grows listed, named⟩

/-- A reply to a call is the service's, or it says that a line was no request. -/
def Sourced (responded : List (Nat × JrpcRequest Id Content × Body)) (call : Nat) :
    Reply Id Body → Prop
  | .response id body => Answered responded call id body
  | .parseError _ => True

/-- A reply keeps its source while more is answered. -/
theorem Sourced.mono {responded more : List (Nat × JrpcRequest Id Content × Body)} {call : Nat}
    {reply : Reply Id Body} (sourced : Sourced responded call reply) (grows : responded ⊆ more) :
    Sourced more call reply := by
  cases reply with
  | response id body => exact Answered.mono sourced grows
  | parseError line => trivial

/-- A call passes from the first of three places to the end of the second. -/
theorem perm_passed (first middle last : List Nat) (call : Nat) :
    (first ++ (middle ++ [call] ++ last)).Perm (call :: first ++ (middle ++ last)) := by
  rw [List.append_assoc, List.singleton_append, ← List.append_assoc, List.cons_append,
    ← List.append_assoc]
  exact List.perm_middle

namespace RpcConnection

/-- The requests which a connection carries were made, and the service gave the answers. -/
structure Holds (json : RpcJson Id Content Body) (made : List (Nat × JrpcRequest Id Content))
    (responded : List (Nat × JrpcRequest Id Content × Body))
    (connection : RpcConnection Id Content Body) : Prop where
  up : ∃ requests, connection.up.Carries json.writeRequest requests ∧ requests ⊆ made
  tasks : connection.tasks ⊆ made
  down : ∃ replies, connection.down.Carries json.writeReply replies ∧
    ∀ reply ∈ replies, Sourced responded reply.1 reply.2
  events : ∀ resp ∈ connection.events, Answered responded resp.call resp.id resp.body

/-- A call stays on its connection, and what the server has not answered is only less. -/
structure Passes (before after : RpcConnection Id Content Body) : Prop where
  ahead : after.ahead.Subperm before.ahead
  outstanding : after.outstanding.Perm before.outstanding

variable {json : RpcJson Id Content Body} {made : List (Nat × JrpcRequest Id Content)}
  {responded : List (Nat × JrpcRequest Id Content × Body)}
  {connection next : RpcConnection Id Content Body}

/-- A new connection holds, whatever was made before it. -/
theorem holds_fresh : (fresh : RpcConnection Id Content Body).Holds json made responded where
  up := ⟨[], Channel.carries_fresh _, List.nil_subset _⟩
  tasks := List.nil_subset _
  down := ⟨[], Channel.carries_fresh _, fun _ listed => absurd listed List.not_mem_nil⟩
  events _ listed := absurd listed List.not_mem_nil

/-- A connection holds while more calls are made and answered. -/
theorem Holds.mono {later : List (Nat × JrpcRequest Id Content)}
    {more : List (Nat × JrpcRequest Id Content × Body)} (holds : connection.Holds json made responded)
    (makes : made ⊆ later) (responds : responded ⊆ more) : connection.Holds json later more := by
  obtain ⟨requests, up, known⟩ := holds.up
  obtain ⟨replies, down, sourced⟩ := holds.down
  refine ⟨⟨requests, up, List.Subset.trans known makes⟩, List.Subset.trans holds.tasks makes,
    ⟨replies, down, ?_⟩, ?_⟩
  · exact fun reply listed => (sourced reply listed).mono responds
  · exact fun resp listed => (holds.events resp listed).mono responds

/-- What changes a stream and not its messages. -/
theorem Holds.onChannel {change : Channel → Channel} (holds : connection.Holds json made responded)
    (keeps : ∀ {Message : Type} {channel : Channel} {text : Message → String}
      {messages : List (Nat × Message)}, channel.Carries text messages →
        (change channel).Carries text messages) (direction : Direction) :
    (connection.onChannel change direction).Holds json made responded := by
  cases direction with
  | up =>
      obtain ⟨requests, carries, known⟩ := holds.up
      exact ⟨⟨requests, keeps carries, known⟩, holds.tasks, holds.down, holds.events⟩
  | down =>
      obtain ⟨replies, carries, sourced⟩ := holds.down
      exact ⟨holds.up, holds.tasks, ⟨replies, keeps carries, sourced⟩, holds.events⟩

/-- What happens to the bytes of a channel leaves the calls as they are. -/
theorem passes_onChannel (change : Channel → Channel)
    (calls : ∀ channel, (change channel).calls = channel.calls) (direction : Direction) :
    Passes connection (connection.onChannel change direction) := by
  have ahead : (connection.onChannel change direction).ahead = connection.ahead := by
    cases direction with
    | up => rw [RpcConnection.ahead, onChannel, calls]; rfl
    | down => rfl
  refine ⟨ahead ▸ List.Subperm.refl _, ?_⟩
  rw [outstanding, ahead]
  cases direction with
  | up => exact List.Perm.refl _
  | down => rw [onChannel, calls]; exact List.Perm.refl _

/-- A request of a known call may be sent. -/
theorem Holds.request (holds : connection.Holds json made responded) {call : Nat}
    {req : JrpcRequest Id Content} (known : (call, req) ∈ made) :
    (connection.request json call req).Holds json made responded := by
  obtain ⟨requests, carries, listed⟩ := holds.up
  refine ⟨⟨requests ++ [(call, req)], carries.send call req, ?_⟩, holds.tasks, holds.down,
    holds.events⟩
  exact List.append_subset.mpr ⟨listed, List.cons_subset.mpr ⟨known, List.nil_subset _⟩⟩

/-- A request puts its call ahead of the server. -/
theorem ahead_request (json : RpcJson Id Content Body) (call : Nat) (req : JrpcRequest Id Content)
    (connection : RpcConnection Id Content Body) :
    (connection.request json call req).ahead.Perm (call :: connection.ahead) := by
  rw [ahead, request, Channel.send, List.append_assoc]
  exact List.perm_middle

/-- A request is outstanding until it is answered. -/
theorem outstanding_request (json : RpcJson Id Content Body) (call : Nat)
    (req : JrpcRequest Id Content) (connection : RpcConnection Id Content Body) :
    (connection.request json call req).outstanding.Perm (call :: connection.outstanding) :=
  (ahead_request json call req connection).append_right _

/-- A connection which is left holds. -/
theorem Holds.leave (holds : connection.Holds json made responded) :
    connection.leave.Holds json made responded :=
  holds.onChannel (fun carries => carries.hangUp connection.up.wire.length) .up

theorem ahead_leave (connection : RpcConnection Id Content Body) :
    connection.leave.ahead = connection.ahead := rfl

/-- The server reads a line. -/
theorem Holds.serve (lawful : json.Lawful) (holds : connection.Holds json made responded)
    (served : connection.serve json = some next) :
    next.Holds json made responded ∧ Passes connection next := by
  rw [RpcConnection.serve] at served
  split_ifs at served
  obtain ⟨requests, carries, known⟩ := holds.up
  cases read : connection.up.next with
  | waits =>
      rw [read] at served
      cases served
  | failed | finished =>
      rw [read] at served
      cases served
      exact ⟨holds.onChannel Channel.Carries.stop .up,
        passes_onChannel Channel.stop (fun _ => rfl) .up⟩
  | line text rest =>
      rw [read] at served
      obtain ⟨some, req, others, rfl, within, onward⟩ := carries.next lawful.compactRequest read
      rw [List.cons_subset] at known
      have calls : connection.up.calls = connection.up.call :: others.map Prod.fst := carries.calls
      have left : (connection.up.take rest).calls = others.map Prod.fst := onward.calls
      simp only [if_neg some] at served
      split at served
      · rename_i other parsed
        cases served
        have whole : text = json.writeRequest req := by
          by_contra cut
          cases parsed.symm.trans (lawful.cutRequest req text within cut)
        have same : other = req := by
          rw [whole, lawful.request] at parsed
          exact (Option.some.inj parsed).symm
        subst same
        refine ⟨⟨⟨others, onward, known.2⟩, ?_, holds.down, holds.events⟩, ?_⟩
        · exact List.append_subset.mpr
            ⟨holds.tasks, List.cons_subset.mpr ⟨known.1, List.nil_subset _⟩⟩
        · have moved : (others.map Prod.fst ++
              (connection.tasks ++ [(connection.up.call, other)]).map Prod.fst).Perm
                connection.ahead := by
            rw [ahead, calls, List.map_append, ← List.append_assoc, List.cons_append]
            exact List.perm_append_singleton _ _
          rw [← left] at moved
          exact ⟨moved.subperm, moved.append_right _⟩
      · cases served
        obtain ⟨replies, down, sourced⟩ := holds.down
        refine ⟨⟨⟨others, onward, known.2⟩, holds.tasks,
          ⟨_, down.send connection.up.call (.parseError text), ?_⟩, holds.events⟩, ?_, ?_⟩
        · intro reply listed
          rcases List.mem_append.mp listed with earlier | new
          · exact sourced reply earlier
          · rw [List.mem_singleton.mp new]
            trivial
        · rw [ahead, ahead, left, calls, List.cons_append]
          exact (List.sublist_cons_self _ _).subperm
        · rw [outstanding, outstanding, ahead, ahead, left, calls, List.cons_append]
          exact perm_passed _ _ _ _

/-- A task ends. -/
theorem Holds.reply {position call : Nat} {req : JrpcRequest Id Content}
    (holds : connection.Holds json made responded) (body : Body) :
    (connection.reply json position call req body).Holds json made
      (responded ++ [(call, req, body)]) := by
  have grown := holds.mono (List.Subset.refl made)
    (List.subset_append_left responded [(call, req, body)])
  obtain ⟨replies, down, sourced⟩ := grown.down
  refine ⟨grown.up, List.Subset.trans List.eraseIdx_subset grown.tasks,
    ⟨_, down.send call (.response req.id body), ?_⟩, grown.events⟩
  intro reply listed
  rcases List.mem_append.mp listed with earlier | new
  · exact sourced reply earlier
  · rw [List.mem_singleton.mp new]
    exact ⟨req, List.mem_append_right _ (List.mem_singleton_self _), rfl⟩

/-- A task which ends takes its call off the server. -/
theorem ahead_reply (json : RpcJson Id Content Body) {position call : Nat}
    {req : JrpcRequest Id Content} (found : connection.tasks[position]? = some (call, req))
    (body : Body) :
    (call :: (connection.reply json position call req body).ahead).Perm connection.ahead := by
  obtain ⟨within, here⟩ := List.getElem?_eq_some_iff.mp found
  have split : ((call, req) :: connection.tasks.eraseIdx position).Perm connection.tasks :=
    here ▸ List.getElem_cons_eraseIdx_perm within
  have numbers := split.map Prod.fst
  rw [ahead, ahead, reply]
  exact List.perm_middle.symm.trans (numbers.append_left _)

/-- A reply leaves its call outstanding until the client reads it. -/
theorem outstanding_reply (json : RpcJson Id Content Body) {position call : Nat}
    {req : JrpcRequest Id Content} (found : connection.tasks[position]? = some (call, req))
    (body : Body) :
    (connection.reply json position call req body).outstanding.Perm connection.outstanding := by
  have moved := (ahead_reply json found body).append_right
    (connection.down.calls ++ connection.events.map JrpcResponse.call)
  exact (perm_passed _ _ _ call).trans moved

/-- The client reads a line. -/
theorem Holds.listen (lawful : json.Lawful) (holds : connection.Holds json made responded)
    (heard : connection.listen json = some next) :
    next.Holds json made responded ∧ Passes connection next := by
  rw [RpcConnection.listen] at heard
  split_ifs at heard
  obtain ⟨replies, carries, sourced⟩ := holds.down
  have stops : RpcConnection.Holds json made responded { connection with
      down := connection.down.stop } ∧
      Passes connection { connection with down := connection.down.stop } :=
    ⟨holds.onChannel Channel.Carries.stop .down,
      passes_onChannel Channel.stop (fun _ => rfl) .down⟩
  cases read : connection.down.next with
  | waits =>
      rw [read] at heard
      cases heard
  | failed | finished =>
      rw [read] at heard
      cases heard
      exact stops
  | line text rest =>
      rw [read] at heard
      obtain ⟨some, reply, others, rfl, within, onward⟩ := carries.next lawful.compactReply read
      have calls : connection.down.calls = connection.down.call :: others.map Prod.fst :=
        carries.calls
      have left : (connection.down.take rest).calls = others.map Prod.fst := onward.calls
      simp only [if_neg some] at heard
      split at heard
      · rename_i id body parsed
        cases heard
        have whole : text = json.writeReply reply := by
          by_contra cut
          cases parsed.symm.trans (lawful.cutReply reply text within cut)
        have first := sourced _ List.mem_cons_self
        cases reply with
        | parseError line =>
            rw [whole, lawful.parseError] at parsed
            cases parsed
        | response named said =>
            rw [whole, lawful.response] at parsed
            cases parsed
            refine ⟨⟨holds.up, holds.tasks, ⟨others, onward, ?_⟩, ?_⟩, List.Subperm.refl _, ?_⟩
            · exact fun reply listed => sourced reply (List.mem_cons_of_mem _ listed)
            · intro resp listed
              rcases List.mem_append.mp listed with earlier | new
              · exact holds.events resp earlier
              · rw [List.mem_singleton.mp new]
                exact first
            · rw [outstanding, outstanding, left, calls, List.map_append]
              refine List.Perm.append_left connection.ahead ?_
              rw [← List.append_assoc, List.cons_append]
              exact List.perm_append_singleton _ _
      · cases heard
        exact stops

end RpcConnection

end Nullspace
