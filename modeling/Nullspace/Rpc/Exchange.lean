import Nullspace.Rpc.Streams

/-!
# What is exchanged over connections

`exec_client` says that a client with its connections does what the client alone does whose
responses just arrive. `served_always` says that the service answers every call at most once,
however streams are cut up or off, and `ownAnswers_of_distinct` that a call gets the answer
which the service gave to this call's own request.
-/

namespace Nullspace

open Nullspace.Base

variable {Id Content Body : Type}

namespace TcpClient

variable [DecidableEq Id]

/-- A command gives no call a response. -/
theorem ok_of_startCall {client : TcpClient Id Content Body} {attempt : Attempt} {call other : Nat}
    {req : JrpcRequest Id Content} {resp : JrpcResponse Id Body}
    (returns : (client.startCall attempt call req).callers.outcomes.lookup other =
      some (.ok resp)) : client.callers.outcomes.lookup other = some (.ok resp) := by
  have resolved : ∀ {callers : Callers Id Body} {error : TcpError} {call : Nat},
      (callers.resolve call (.error error)).outcomes.lookup other = some (.ok resp) →
        callers.outcomes.lookup other = some (.ok resp) := by
    intro callers error call listed
    rcases Callers.of_resolve_outcomes listed with before | ⟨_, failed⟩
    · exact before
    · cases failed
  rw [startCall] at returns
  split_ifs at returns
  · exact resolved returns
  · exact resolved returns
  · exact resolved (Callers.of_failAll_outcomes returns)
  · rcases of_removeSender_outcomes returns with before | ⟨_, failed⟩
    · exact before
    · cases failed

/-- Steps without a response give none. -/
theorem ok_of_step {client next : TcpClient Id Content Body} {event : TcpEvent Id Content Body}
    {call : Nat} {resp : JrpcResponse Id Body}
    (taken : (machine Id Content Body).step client event = some next)
    (silent : ∀ position body, event ≠ .respond position body)
    (returns : next.callers.outcomes.lookup call = some (.ok resp)) :
    client.callers.outcomes.lookup call = some (.ok resp) := by
  cases event with
  | call req | drop call =>
      cases taken
      exact returns
  | respond position body => exact absurd rfl (silent position body)
  | timeout number =>
      simp only [machine] at taken
      split at taken
      · cases taken
      · cases taken
        rcases Callers.of_resolve_outcomes returns with before | ⟨_, failed⟩
        · exact before
        · cases failed
  | cancel number =>
      simp only [machine] at taken
      split at taken
      · cases taken
      · cases taken
        exact returns
  | command attempt =>
      simp only [machine] at taken
      split at taken
      · cases taken
      · cases taken
        rename_i commands _
        have before : { client with commands := commands }.callers.outcomes.lookup call =
            some (.ok resp) := ok_of_startCall returns
        exact before
      · cases taken
        rcases of_removeSender_outcomes returns with before | ⟨_, failed⟩
        · exact before
        · cases failed
  | close =>
      simp only [machine] at taken
      split at taken
      · cases taken
        exact Callers.of_failAll_outcomes returns
      · cases taken

instance decidableDistinct (client : TcpClient Id Content Body) :
    (event : TcpEvent Id Content Body) → Decidable (client.Distinct event)
  | .call req =>
      decidable_of_iff ((∀ request ∈ client.pending, request.2.id ≠ req.id) ∧
        ∀ row ∈ client.callers.cancelling.rows, row.2 ≠ req.id) (by
          constructor
          · rintro ⟨left, right⟩ call (⟨other, listed, named⟩ | found)
            · exact left _ listed named
            · exact right (call, req.id) (Table.mem_rows.mpr found) rfl
          · intro distinct
            constructor
            · exact fun request listed named => distinct request.1 (.inl ⟨request.2, listed, named⟩)
            · rintro ⟨call, id⟩ listed rfl
              exact distinct call (.inr (Table.mem_rows.mp listed)))
  | .timeout _ | .cancel _ | .drop _ | .command _ | .respond _ _ | .close => isTrue trivial

end TcpClient

namespace TcpLink

/-- The calls which the service may still be asked for. -/
def unserved (link : TcpLink Id Content Body) : List Nat :=
  (requests link.client.commands).map Prod.fst ++ link.connections.flatMap RpcConnection.ahead

/-- What every step keeps. -/
structure Holds (json : RpcJson Id Content Body) (link : TcpLink Id Content Body) : Prop where
  connections : ∀ connection ∈ link.connections, connection.Holds json link.made link.responded
  numbered : link.made.map Prod.fst = List.range link.client.calls
  pending : link.client.pending ⊆ link.made
  /-- A call is waiting, at the server, or answered: nothing makes two of it. -/
  once : (link.unserved ++ link.responded.map Prod.fst).Subperm (List.range link.client.calls)
  asked : ∀ call req body, (call, req, body) ∈ link.responded → (call, req) ∈ link.made
  /-- The calls without an answer are the ones on the client's own connection. -/
  own : link.client.connected = true → ∃ connection older,
    link.connections = connection :: older ∧
      (link.client.unanswered.map Prod.fst).Perm connection.outstanding
  idle : link.client.connected = false → link.client.unanswered = []
  outcomes : ∀ call resp, link.client.callers.outcomes.lookup call = some (.ok resp) →
    Answered link.responded resp.call resp.id resp.body

variable {json : RpcJson Id Content Body} {link next : TcpLink Id Content Body}

theorem holds_fresh (json : RpcJson Id Content Body) :
    (fresh : TcpLink Id Content Body).Holds json where
  connections _ listed := absurd listed List.not_mem_nil
  numbered := rfl
  pending := List.nil_subset _
  once := List.Subperm.refl _
  asked _ _ _ listed := absurd listed List.not_mem_nil
  own connected := nomatch connected
  idle _ := rfl
  outcomes _ _ returned := nomatch returned

/-- A number has one request. -/
theorem Holds.unique (holds : link.Holds json) {call : Nat} {first second : JrpcRequest Id Content}
    (left : (call, first) ∈ link.made) (right : (call, second) ∈ link.made) : first = second := by
  have numbers : (link.made.map Prod.fst).Nodup := holds.numbered ▸ List.nodup_range
  exact (Prod.mk.inj (List.inj_on_of_nodup_map numbers left right rfl)).2

/-- Some commands are taken from the queue, and their requests, at most, go to the server. -/
theorem Holds.moves (holds : link.Holds json) {client : TcpClient Id Content Body}
    {connections : List (RpcConnection Id Content Body)}
    (taken : List (Nat × JrpcRequest Id Content)) (calls : client.calls = link.client.calls)
    (queue : requests link.client.commands = taken ++ requests client.commands)
    (unanswered : client.unanswered ⊆ link.client.unanswered ++ taken)
    (each : ∀ connection ∈ connections, connection.Holds json link.made link.responded)
    (ahead : (connections.flatMap RpcConnection.ahead).Subperm
      (taken.map Prod.fst ++ link.connections.flatMap RpcConnection.ahead))
    (own : client.connected = true → ∃ connection older, connections = connection :: older ∧
      (client.unanswered.map Prod.fst).Perm connection.outstanding)
    (idle : client.connected = false → client.unanswered = [])
    (outcomes : ∀ call resp, client.callers.outcomes.lookup call = some (.ok resp) →
      link.client.callers.outcomes.lookup call = some (.ok resp) ∨
        Answered link.responded resp.call resp.id resp.body) :
    Holds json { link with client := client, connections := connections } := by
  refine ⟨each, ?_, ?_, ?_, holds.asked, own, idle, ?_⟩
  · rw [holds.numbered, calls]
  · intro request member
    refine holds.pending ?_
    rw [TcpClient.pending, queue, ← List.append_assoc]
    exact List.mem_append.mpr ((List.mem_append.mp member).imp_left fun left => unanswered left)
  · rw [calls]
    refine List.Subperm.trans ?_ holds.once
    refine List.Subperm.append ?_ (List.Subperm.refl _)
    rw [unserved, unserved, queue, List.map_append]
    refine ((List.Subperm.refl _).append ahead).trans ?_
    rw [List.append_assoc]
    exact List.Perm.subperm (List.perm_append_comm_assoc _ _ _)
  · intro call resp returned
    rcases outcomes call resp returned with before | now
    · exact holds.outcomes call resp before
    · exact now

/-- The connection which the task writes to, once it has one. -/
theorem Holds.opened (holds : link.Holds json) : ∃ connection older,
    (if link.client.connected then link.connections else .fresh :: link.connections) =
      connection :: older ∧
    (∀ other ∈ connection :: older, other.Holds json link.made link.responded) ∧
    (link.client.unanswered.map Prod.fst).Perm connection.outstanding ∧
    (connection :: older).flatMap RpcConnection.ahead =
      link.connections.flatMap RpcConnection.ahead := by
  cases connected : link.client.connected with
  | true =>
      obtain ⟨connection, older, same, matched⟩ := holds.own connected
      exact ⟨connection, older, same, same ▸ holds.connections, matched, by rw [same]⟩
  | false =>
      refine ⟨.fresh, link.connections, rfl, ?_, ?_, rfl⟩
      · exact List.forall_mem_cons.mpr ⟨RpcConnection.holds_fresh, holds.connections⟩
      · rw [holds.idle connected]
        exact List.Perm.refl _

/-- The link holds after a call is taken from the queue. -/
theorem Holds.startCall [DecidableEq Id] (holds : link.Holds json) {call : Nat}
    {req : JrpcRequest Id Content} {commands : List (ClientCommand Id Content)}
    (queue : link.client.commands = .call call req :: commands) (attempt : Attempt) :
    Holds json { link with
      client := { link.client with commands := commands }.startCall attempt call req
      connections := link.startCall json attempt call req } := by
  have requested : requests link.client.commands = [(call, req)] ++ requests commands := by
    rw [queue]
    rfl
  have known : (call, req) ∈ link.made := by
    refine holds.pending (List.mem_append_right _ ?_)
    rw [requested]
    exact List.mem_cons_self
  have outcomes : ∀ other resp,
      ({ link.client with commands := commands }.startCall attempt call req).callers.outcomes.lookup
        other = some (.ok resp) → link.client.callers.outcomes.lookup other = some (.ok resp) ∨
          Answered link.responded resp.call resp.id resp.body := by
    intro other resp returned
    have before : { link.client with commands := commands }.callers.outcomes.lookup other =
        some (.ok resp) := TcpClient.ok_of_startCall returned
    exact .inl before
  obtain ⟨connection, older, opened, each, matched, ahead⟩ := holds.opened
  have less : ∀ numbers : List Nat, numbers.Subperm (call :: numbers) :=
    fun numbers => (List.sublist_cons_self call numbers).subperm
  revert outcomes
  rw [TcpLink.startCall, opened, TcpClient.startCall]
  dsimp only
  split_ifs with refused encodes writes
  · intro outcomes
    refine holds.moves [(call, req)] rfl requested (List.subset_append_left _ _)
      holds.connections (less _) ?_ holds.idle outcomes
    exact fun connected => Bool.noConfusion (connected.symm.trans refused.1)
  · intro outcomes
    refine holds.moves [(call, req)] rfl requested (List.subset_append_left _ _) each
      (ahead ▸ less _) (fun _ => ⟨connection, older, rfl, matched⟩)
      (fun idle => Bool.noConfusion idle) outcomes
  · intro outcomes
    rw [List.modifyHead_cons]
    refine holds.moves [(call, req)] rfl requested (List.nil_subset _) ?_ ?_
      (fun connected => Bool.noConfusion connected) (fun _ => rfl) outcomes
    · rw [List.forall_mem_cons] at each ⊢
      exact each.imp_left RpcConnection.Holds.leave
    · rw [← ahead]
      exact less _
  · intro outcomes
    rw [List.modifyHead_cons]
    refine holds.moves [(call, req)] rfl requested (List.Subset.refl _) ?_ ?_ ?_
      (fun idle => Bool.noConfusion idle) outcomes
    · rw [List.forall_mem_cons] at each ⊢
      exact each.imp_left fun carries => carries.request known
    · rw [← ahead, List.flatMap_cons, List.flatMap_cons]
      exact ((RpcConnection.ahead_request json call req connection).append_right _).subperm
    · refine fun _ => ⟨_, older, rfl, ?_⟩
      rw [List.map_append]
      refine (List.perm_append_singleton call _).trans ?_
      exact (matched.cons call).trans
        (RpcConnection.outstanding_request json call req connection).symm

/-- A step of the client which moves no request. -/
theorem Holds.stays (holds : link.Holds json) {client : TcpClient Id Content Body}
    (calls : client.calls = link.client.calls)
    (queue : requests link.client.commands = requests client.commands)
    (connected : client.connected = link.client.connected)
    (unanswered : client.unanswered = link.client.unanswered)
    (outcomes : ∀ call resp, client.callers.outcomes.lookup call = some (.ok resp) →
      link.client.callers.outcomes.lookup call = some (.ok resp)) :
    Holds json { link with client := client } := by
  refine holds.moves [] calls queue ?_ holds.connections (List.Subperm.refl _) ?_ ?_
    fun call resp returned => .inl (outcomes call resp returned)
  · rw [unanswered]
    exact List.subset_append_left _ _
  · rw [connected, unanswered]
    exact holds.own
  · rw [connected, unanswered]
    exact holds.idle

/-- The link holds after a command, which reaches the newest connection only. -/
theorem Holds.command [DecidableEq Id] (holds : link.Holds json) {attempt : Attempt}
    {client : TcpClient Id Content Body}
    (taken : (TcpClient.machine Id Content Body).step link.client (.command attempt) =
      some client) :
    Holds json { link with client := client, connections := link.command json attempt } := by
  have outcomes : ∀ call resp, client.callers.outcomes.lookup call = some (.ok resp) →
      link.client.callers.outcomes.lookup call = some (.ok resp) :=
    fun call resp => TcpClient.ok_of_step taken (fun _ _ => nofun)
  simp only [TcpClient.machine] at taken
  split at taken
  · cases taken
  · rename_i call req commands queue
    cases taken
    rw [TcpLink.command, queue]
    exact holds.startCall queue attempt
  · rename_i call id commands queue
    cases taken
    rw [TcpLink.command, queue]
    have same : requests link.client.commands = requests commands := by
      rw [queue]
      rfl
    exact holds.stays rfl same rfl rfl outcomes

/-- The link holds after a call is queued, which is on no connection yet. -/
theorem Holds.sendCall (holds : link.Holds json) (req : JrpcRequest Id Content) :
    Holds json { link with
      client := link.client.sendCall req
      made := link.made ++ [(link.client.calls, req)] } := by
  refine ⟨?_, ?_, ?_, ?_, ?_, holds.own, holds.idle, holds.outcomes⟩
  · exact fun connection listed => (holds.connections connection listed).mono
      (List.subset_append_left _ _) (List.Subset.refl _)
  · rw [List.map_append, holds.numbered]
    exact List.range_succ.symm
  · rw [TcpClient.pending, TcpClient.requests_sendCall, ← List.append_assoc]
    exact List.append_subset.mpr ⟨List.Subset.trans holds.pending (List.subset_append_left _ _),
      List.subset_append_right _ _⟩
  · have numbers : (unserved { link with client := link.client.sendCall req } ++
        link.responded.map Prod.fst).Perm
        ((link.unserved ++ link.responded.map Prod.fst) ++ [link.client.calls]) := by
      rw [unserved, unserved, TcpClient.requests_sendCall, List.map_append]
      have swapped : ([link.client.calls] ++ (link.connections.flatMap RpcConnection.ahead ++
          link.responded.map Prod.fst)).Perm
          (link.connections.flatMap RpcConnection.ahead ++ link.responded.map Prod.fst ++
            [link.client.calls]) := List.perm_append_comm
      simp only [List.append_assoc, List.map_cons, List.map_nil] at swapped ⊢
      exact swapped.append_left _
    have room := holds.once.append (List.Subperm.refl [link.client.calls])
    rw [← List.range_succ] at room
    exact numbers.subperm.trans room
  · exact fun call asked body listed =>
      List.mem_append_left _ (holds.asked call asked body listed)

/-- The link holds after its connection is lost. -/
theorem Holds.close [DecidableEq Id] (holds : link.Holds json) :
    Holds json { link with
      client := link.client.failInFlight
      connections := link.connections.modifyHead RpcConnection.leave } := by
  refine holds.moves [] rfl rfl (List.nil_subset _) ?_ ?_ (fun connected => nomatch connected)
    (fun _ => rfl) fun call resp returned => .inl (Callers.of_failAll_outcomes returned)
  · have each := holds.connections
    cases listed : link.connections with
    | nil => exact fun _ member => absurd member List.not_mem_nil
    | cons connection older =>
        rw [listed, List.forall_mem_cons] at each
        rw [List.modifyHead_cons, List.forall_mem_cons]
        exact each.imp_left RpcConnection.Holds.leave
  · cases link.connections with
    | nil => exact List.Subperm.refl _
    | cons connection older => exact List.Subperm.refl _

/-- Every step of the client keeps the link. -/
theorem Holds.clientStep [DecidableEq Id] (holds : link.Holds json)
    {event : TcpEvent Id Content Body} (taken : link.clientStep json event = some next) :
    next.Holds json := by
  have quiet : ∀ {client : TcpClient Id Content Body},
      (TcpClient.machine Id Content Body).step link.client event = some client →
      (∀ position body, event ≠ .respond position body) → client.calls = link.client.calls →
      requests link.client.commands = requests client.commands →
      client.connected = link.client.connected →
      client.unanswered = link.client.unanswered → Holds json { link with client := client } :=
    fun moved silent calls queue connected unanswered =>
      holds.stays calls queue connected unanswered
        fun call resp => TcpClient.ok_of_step moved silent
  cases event with
  | respond position body => cases taken
  | call req =>
      cases taken
      exact holds.sendCall req
  | command attempt =>
      simp only [TcpLink.clientStep] at taken
      split_ifs at taken
      obtain ⟨client, moved, same⟩ := Option.bind_eq_some_iff.mp taken
      cases same
      exact holds.command moved
  | close =>
      obtain ⟨client, moved, same⟩ := Option.bind_eq_some_iff.mp taken
      cases same
      simp only [TcpClient.machine] at moved
      split_ifs at moved
      cases moved
      exact holds.close
  | timeout number =>
      obtain ⟨client, moved, same⟩ := Option.bind_eq_some_iff.mp taken
      cases same
      have whole := moved
      simp only [TcpClient.machine] at moved
      split at moved
      · cases moved
      · cases moved
        exact quiet whole (fun _ _ same => by cases same) rfl rfl rfl rfl
  | cancel number =>
      obtain ⟨client, moved, same⟩ := Option.bind_eq_some_iff.mp taken
      cases same
      have whole := moved
      simp only [TcpClient.machine] at moved
      split at moved
      · cases moved
      · cases moved
        exact quiet whole (fun _ _ same => by cases same) rfl
          (TcpClient.requests_sendCancel _ _ _).symm rfl rfl
  | drop number =>
      cases taken
      exact quiet rfl (fun _ _ same => by cases same) rfl rfl rfl rfl

/-- One item of a list changes. -/
theorem flatMap_set_perm {Item : Type} (count : Item → List Nat) {items : List Item} {item : Item}
    {index : Nat} (found : items[index]? = some item) (other : Item) :
    ((items.set index other).flatMap count).Perm
      (count other ++ (items.eraseIdx index).flatMap count) ∧
      (items.flatMap count).Perm (count item ++ (items.eraseIdx index).flatMap count) := by
  obtain ⟨within, rfl⟩ := List.getElem?_eq_some_iff.mp found
  constructor
  · exact (List.set_perm_cons_eraseIdx within other).flatMap_right count
  · exact (List.getElem_cons_eraseIdx_perm within).symm.flatMap_right count

/-- A connection passes calls on, and the service is not asked. -/
theorem Holds.onConnection (holds : link.Holds json) {index : Nat}
    {change : RpcConnection Id Content Body → Option (RpcConnection Id Content Body)}
    (keeps : ∀ connection changed, connection.Holds json link.made link.responded →
      change connection = some changed →
        changed.Holds json link.made link.responded ∧ connection.Passes changed)
    (taken : link.onConnection index change = some next) : next.Holds json := by
  obtain ⟨connection, found, onward⟩ := Option.bind_eq_some_iff.mp taken
  obtain ⟨changed, changes, same⟩ := Option.bind_eq_some_iff.mp onward
  cases same
  have before := holds.connections connection (List.mem_of_getElem? found)
  obtain ⟨after, passes⟩ := keeps connection changed before changes
  obtain ⟨set, unset⟩ := flatMap_set_perm RpcConnection.ahead found changed
  refine holds.moves [] rfl rfl (List.subset_append_left _ _) ?_ ?_ ?_ holds.idle
    fun call resp returned => .inl returned
  · intro other listed
    rcases List.mem_or_eq_of_mem_set listed with earlier | rfl
    · exact holds.connections other earlier
    · exact after
  · refine set.subperm.trans (List.Subperm.trans ?_ unset.symm.subperm)
    exact passes.ahead.append (List.Subperm.refl _)
  · intro connected
    obtain ⟨first, older, listed, matched⟩ := holds.own connected
    rw [listed] at found ⊢
    cases index with
    | zero =>
        cases found
        exact ⟨changed, older, rfl, matched.trans passes.outstanding.symm⟩
    | succ index => exact ⟨first, older.set index changed, rfl, matched⟩

/-- A stream changes, and its messages do not. -/
theorem Holds.stream (holds : link.Holds json) {index : Nat} {direction : Direction}
    (change : Channel → Channel)
    (keeps : ∀ {Message : Type} {channel : Channel} {text : Message → String}
      {messages : List (Nat × Message)}, channel.Carries text messages →
        (change channel).Carries text messages)
    (calls : ∀ channel, (change channel).calls = channel.calls)
    (taken : link.onConnection index
      (fun connection => some (connection.onChannel change direction)) = some next) :
    next.Holds json := by
  refine holds.onConnection ?_ taken
  intro connection changed before same
  cases same
  exact ⟨before.onChannel keeps direction, RpcConnection.passes_onChannel change calls direction⟩

/-- The link holds after a task writes its reply. -/
theorem Holds.reply (holds : link.Holds json) {index position call : Nat}
    {req : JrpcRequest Id Content} {connection : RpcConnection Id Content Body}
    (found : link.connections[index]? = some connection)
    (task : connection.tasks[position]? = some (call, req)) (body : Body) :
    Holds json { link with
      connections := link.connections.set index (connection.reply json position call req body)
      responded := link.responded ++ [(call, req, body)] } := by
  have before := holds.connections connection (List.mem_of_getElem? found)
  have grows : link.responded ⊆ link.responded ++ [(call, req, body)] :=
    List.subset_append_left _ _
  have passes := RpcConnection.ahead_reply json task body
  obtain ⟨set, unset⟩ := flatMap_set_perm RpcConnection.ahead found
    (connection.reply json position call req body)
  refine ⟨?_, holds.numbered, holds.pending, ?_, ?_, ?_, holds.idle, ?_⟩
  · intro other listed
    rcases List.mem_or_eq_of_mem_set listed with earlier | rfl
    · exact (holds.connections other earlier).mono (List.Subset.refl _) grows
    · exact before.reply body
  · refine List.Subperm.trans (List.Perm.subperm ?_) holds.once
    rw [unserved, unserved, List.map_append]
    have moved := (set.cons call).trans ((passes.append_right _).trans unset.symm)
    simp only [List.append_assoc, List.map_cons, List.map_nil]
    refine List.Perm.append_left _ (List.Perm.trans ?_ (moved.append_right _))
    rw [← List.append_assoc]
    exact List.perm_append_singleton call _
  · intro other asked said listed
    rcases List.mem_append.mp listed with earlier | new
    · exact holds.asked other asked said earlier
    · cases List.mem_singleton.mp new
      exact before.tasks (List.mem_of_getElem? task)
  · intro connected
    obtain ⟨first, older, listed, matched⟩ := holds.own connected
    rw [listed] at found ⊢
    cases index with
    | zero =>
        cases found
        exact ⟨_, older, rfl,
          matched.trans (RpcConnection.outstanding_reply json task body).symm⟩
    | succ index => exact ⟨first, older.set index _, rfl, matched⟩
  · exact fun other resp returned => (holds.outcomes other resp returned).mono grows

/-- The response which comes next is to a request without an answer. -/
theorem Holds.placed (holds : link.Holds json) (connected : link.client.connected = true)
    {connection : RpcConnection Id Content Body} {older : List (RpcConnection Id Content Body)}
    (listed : link.connections = connection :: older) {resp : JrpcResponse Id Body}
    {events : List (JrpcResponse Id Body)} (queue : connection.events = resp :: events) :
    (link.client.unanswered.map Prod.fst).Perm
        (resp.call :: RpcConnection.outstanding { connection with events := events }) ∧
      ∃ req, link.client.unanswered[place link.client resp.call]? = some (resp.call, req) ∧
        req.id = resp.id := by
  obtain ⟨first, rest, same, matched⟩ := holds.own connected
  cases listed.symm.trans same
  have taken : connection.outstanding.Perm
      (resp.call :: RpcConnection.outstanding { connection with events := events }) := by
    rw [RpcConnection.outstanding, RpcConnection.outstanding, queue, List.map_cons,
      ← List.append_assoc, ← List.append_assoc]
    exact List.perm_middle
  have moved := matched.trans taken
  refine ⟨moved, ?_⟩
  have waits : resp.call ∈ link.client.unanswered.map Prod.fst :=
    moved.mem_iff.mpr List.mem_cons_self
  have here : (link.client.unanswered.map Prod.fst)[place link.client resp.call]? =
      some resp.call := List.getElem?_idxOf waits
  rw [List.getElem?_map] at here
  obtain ⟨⟨call, req⟩, found, named⟩ := Option.map_eq_some_iff.mp here
  cases named
  have head : connection ∈ link.connections := listed ▸ List.mem_cons_self
  obtain ⟨asked, said, same⟩ :=
    (holds.connections connection head).events resp (queue ▸ List.mem_cons_self)
  have one : asked = req := holds.unique (holds.asked _ asked _ said)
    (holds.pending (List.mem_append_left _ (List.mem_of_getElem? found)))
  exact ⟨req, found, one ▸ same⟩

/-- The link holds after a response is handed out. -/
theorem Holds.handOut [DecidableEq Id] (holds : link.Holds json)
    (connected : link.client.connected = true) {connection : RpcConnection Id Content Body}
    {older : List (RpcConnection Id Content Body)}
    (listed : link.connections = connection :: older) {resp : JrpcResponse Id Body}
    {events : List (JrpcResponse Id Body)} (queue : connection.events = resp :: events) :
    Holds json { link with
      client := TcpLink.handOut link.client resp
      connections := { connection with events := events } :: older } := by
  obtain ⟨moved, req, found, named⟩ := holds.placed connected listed queue
  have each := holds.connections
  rw [listed, List.forall_mem_cons] at each
  refine holds.moves [] rfl rfl ?_ ?_ ?_ ?_ ?_ ?_
  · exact List.Subset.trans List.eraseIdx_subset (List.subset_append_left _ _)
  · refine List.forall_mem_cons.mpr ⟨?_, each.2⟩
    refine ⟨each.1.up, each.1.tasks, each.1.down, fun other member => each.1.events other ?_⟩
    rw [queue]
    exact List.mem_cons_of_mem _ member
  · rw [listed]
    exact List.Subperm.refl _
  · intro _
    refine ⟨_, older, rfl, ?_⟩
    obtain ⟨within, here⟩ := List.getElem?_eq_some_iff.mp found
    have erased := (List.getElem_cons_eraseIdx_perm within).map Prod.fst
    rw [here, List.map_cons] at erased
    exact (erased.trans moved).cons_inv
  · intro idle
    cases connected.symm.trans idle
  · intro call other returned
    rcases TcpClient.of_removeSender_outcomes returned with before | ⟨_, same⟩
    · exact .inl before
    · cases same
      exact .inr (each.1.events resp (queue ▸ List.mem_cons_self))

/-- Every step of either end keeps the link. -/
theorem Holds.step [DecidableEq Id] (lawful : json.Lawful)
    {event : LinkEvent Id Content Body} (holds : link.Holds json)
    (taken : (machine json).step link event = some next) : next.Holds json := by
  cases event with
  | client event => exact holds.clientStep taken
  | arrive index direction count =>
      exact holds.stream (·.arrive count) (fun carries => carries.arrive count) (fun _ => rfl) taken
  | hangUp index direction count =>
      exact holds.stream (·.hangUp count) (fun carries => carries.hangUp count) (fun _ => rfl) taken
  | stop index direction =>
      exact holds.stream .stop Channel.Carries.stop (fun _ => rfl) taken
  | serve index =>
      exact holds.onConnection (fun _ _ before served => before.serve lawful served) taken
  | reply index position body =>
      obtain ⟨connection, found, onward⟩ := Option.bind_eq_some_iff.mp taken
      obtain ⟨⟨call, req⟩, task, same⟩ := Option.bind_eq_some_iff.mp onward
      cases same
      exact holds.reply found task body
  | listen =>
      simp only [machine] at taken
      split_ifs at taken
      exact holds.onConnection (fun _ _ before heard => before.listen lawful heard) taken
  | take =>
      simp only [machine] at taken
      split_ifs at taken with connected
      split at taken
      · cases taken
      · rename_i connection older listed
        split at taken
        · cases taken
        · rename_i resp events queue
          cases taken
          exact holds.handOut connected listed queue

/-- What a client does of its own accord. -/
def shows : TcpEvent Id Content Body → Option (TcpEvent Id Content Body)
  | .respond _ _ => none
  | event => some event

def sees : LinkEvent Id Content Body → Option (TcpEvent Id Content Body)
  | .client event => some event
  | _ => none

/-- A client with its connections does what the client alone does whose responses just arrive. -/
theorem refines_machine [DecidableEq Id] (lawful : json.Lawful) :
    Machine.Refines (machine json) (TcpClient.machine Id Content Body) client (Holds json) sees
      shows where
  kept holds taken := holds.step lawful taken
  step := by
    intro link event next holds taken
    have hidden : ∀ {index : Nat}
        {change : RpcConnection Id Content Body → Option (RpcConnection Id Content Body)},
        link.onConnection index change = some next → next.client = link.client := by
      intro index change moved
      obtain ⟨connection, found, onward⟩ := Option.bind_eq_some_iff.mp moved
      obtain ⟨changed, changes, same⟩ := Option.bind_eq_some_iff.mp onward
      cases same
      rfl
    cases event with
    | client event =>
        refine .inr ?_
        cases event with
        | respond position body => cases taken
        | call req =>
            cases taken
            exact ⟨.call req, rfl, rfl⟩
        | command attempt =>
            simp only [machine, TcpLink.clientStep] at taken
            split_ifs at taken
            obtain ⟨client, moved, same⟩ := Option.bind_eq_some_iff.mp taken
            cases same
            exact ⟨.command attempt, moved, rfl⟩
        | drop number =>
            cases taken
            exact ⟨.drop number, rfl, rfl⟩
        | close =>
            obtain ⟨client, moved, same⟩ := Option.bind_eq_some_iff.mp taken
            cases same
            exact ⟨.close, moved, rfl⟩
        | timeout number =>
            obtain ⟨client, moved, same⟩ := Option.bind_eq_some_iff.mp taken
            cases same
            exact ⟨.timeout number, moved, rfl⟩
        | cancel number =>
            obtain ⟨client, moved, same⟩ := Option.bind_eq_some_iff.mp taken
            cases same
            exact ⟨.cancel number, moved, rfl⟩
    | arrive | hangUp | stop | serve => exact .inl ⟨rfl, hidden taken⟩
    | reply index position body =>
        obtain ⟨connection, found, onward⟩ := Option.bind_eq_some_iff.mp taken
        obtain ⟨⟨call, req⟩, task, same⟩ := Option.bind_eq_some_iff.mp onward
        cases same
        exact .inl ⟨rfl, rfl⟩
    | listen =>
        simp only [machine] at taken
        split_ifs at taken
        exact .inl ⟨rfl, hidden taken⟩
    | take =>
        simp only [machine] at taken
        split_ifs at taken with connected
        split at taken
        · cases taken
        · rename_i connection older listed
          split at taken
          · cases taken
          · rename_i resp events queue
            cases taken
            obtain ⟨_, req, found, named⟩ := holds.placed connected listed queue
            refine .inr ⟨.respond (place link.client resp.call) resp.body, ?_, rfl⟩
            simp only [TcpClient.machine, found, named]
            rfl

/-- Every run of a client with its connections is a run of the client alone, which makes the
same calls and takes the same commands. -/
theorem exec_client [DecidableEq Id] (lawful : json.Lawful)
    {events : List (LinkEvent Id Content Body)}
    (reached : (machine json).exec fresh events = some link) :
    ∃ acts, (TcpClient.machine Id Content Body).exec .fresh acts = some link.client ∧
      acts.filterMap shows = events.filterMap sees :=
  (refines_machine lawful).exec (holds_fresh json) reached

/-- The text of a request without parameters. -/
def exampleRequest (id : Bool) : String :=
  "\x7b\"jsonrpc\":\"2.0\",\"method\":\"ping\",\"params\":[],\"id\":" ++
    if id then "1\x7d" else "0\x7d"

def exampleResponse (id body : Bool) : String :=
  "\x7b\"jsonrpc\":\"2.0\",\"result\":" ++ (if body then "1" else "0") ++ ",\"id\":" ++
    if id then "1\x7d" else "0\x7d"

/-- To a line with the first 20 bytes of a request. -/
def exampleError : String :=
  "\x7b\"error\":\x7b\"code\":-32700,\"data\":\"EOF while parsing a string at line 1 " ++
    "column 20\",\"message\":\"Parse error\"\x7d,\"id\":null,\"jsonrpc\":\"2.0\"\x7d"

def exampleRpc : RpcJson Bool Unit Bool where
  writeRequest req := exampleRequest req.id
  readRequest text :=
    ([false, true].find? fun id => exampleRequest id = text).map fun id => ⟨id, ()⟩
  writeReply
    | .response id body => exampleResponse id body
    | .parseError _ => exampleError
  readResponse text :=
    [(false, false), (false, true), (true, false), (true, true)].find? fun said =>
      exampleResponse said.1 said.2 = text

theorem exampleRequest_cut : ∀ id other,
    utf8 (exampleRequest id) <+: utf8 (exampleRequest other) →
      exampleRequest id = exampleRequest other := by decide +kernel

theorem exampleResponse_cut : ∀ id body other said,
    utf8 (exampleResponse id body) <+: utf8 (exampleResponse other said) →
      exampleResponse id body = exampleResponse other said := by decide +kernel

theorem exampleError_cut : ∀ id body,
    ¬utf8 (exampleResponse id body) <+: utf8 exampleError := by decide +kernel

/-- The codec of the example reads back what it writes. -/
theorem exampleRpc_lawful : exampleRpc.Lawful where
  request := by
    rintro ⟨id, _⟩
    cases id <;> rfl
  compactRequest := by
    have compact : ∀ id, exampleRequest id ≠ "" ∧ ∀ byte ∈ utf8 (exampleRequest id), 32 ≤ byte := by
      decide +kernel
    exact fun req => ⟨(compact req.id).1, (compact req.id).2⟩
  cutRequest := by
    intro req text within cut
    simp only [exampleRpc, Option.map_eq_none_iff]
    refine List.find?_eq_none.mpr fun id _ found => cut ?_
    have same : exampleRequest id = text := of_decide_eq_true found
    subst same
    exact exampleRequest_cut id req.id within
  response := by decide +kernel
  parseError := by
    have unread : exampleRpc.readResponse exampleError = none := by decide +kernel
    exact fun _ => unread
  compactReply := by
    have compact : ∀ id body, exampleResponse id body ≠ "" ∧
        ∀ byte ∈ utf8 (exampleResponse id body), 32 ≤ byte := by decide +kernel
    rintro (⟨id, body⟩ | line)
    · exact ⟨(compact id body).1, (compact id body).2⟩
    · have plain : exampleError ≠ "" ∧ ∀ byte ∈ utf8 exampleError, 32 ≤ byte := by decide +kernel
      exact ⟨plain.1, plain.2⟩
  cutReply := by
    intro reply text within cut
    refine List.find?_eq_none.mpr fun said _ found => ?_
    have same : exampleResponse said.1 said.2 = text := of_decide_eq_true found
    subst same
    cases reply with
    | response id body => exact cut (exampleResponse_cut said.1 said.2 id body within)
    | parseError line => exact exampleError_cut said.1 said.2 within

/-- The first request is cut off on its way and fails, and the second one goes through. -/
def cutRun : List (LinkEvent Bool Unit Bool) :=
  [.client (.call ⟨false, ()⟩), .client (.command TcpClient.quietAttempt), .arrive 0 .up 20,
    .hangUp 0 .up 0, .serve 0, .serve 0, .arrive 0 .down 200, .listen, .client .close,
    .client (.call ⟨false, ()⟩), .client (.command TcpClient.quietAttempt), .arrive 0 .up 200,
    .serve 0, .reply 0 0 true, .arrive 0 .down 200, .listen, .take]

/-- Two requests are answered in the other order. -/
def crossedRun : List (LinkEvent Bool Unit Bool) :=
  [.client (.call ⟨false, ()⟩), .client (.call ⟨true, ()⟩),
    .client (.command TcpClient.quietAttempt), .client (.command TcpClient.quietAttempt),
    .arrive 0 .up 30, .arrive 0 .up 200, .serve 0, .serve 0, .reply 0 1 true, .reply 0 0 false,
    .arrive 0 .down 200, .listen, .listen, .take, .take]

/-- What a call has returned, if it is a response. -/
def answer (link : TcpLink Id Content Body) (call : Nat) : Option Body :=
  ((link.client.callers.outcomes.lookup call).bind Except.toOption).map JrpcResponse.body

theorem answer_crossedRun : ((machine exampleRpc).exec fresh crossedRun).map
    (fun link => (link.answer 0, link.answer 1)) = some (some false, some true) := by
  decide +kernel

theorem exec_client_crossed : ∃ link acts,
    (machine exampleRpc).exec fresh crossedRun = some link ∧
      (TcpClient.machine Bool Unit Bool).exec .fresh acts = some link.client ∧
        acts.filterMap shows = crossedRun.filterMap sees := by
  obtain ⟨link, reached, _⟩ := Option.map_eq_some_iff.mp answer_crossedRun
  obtain ⟨acts, ran, same⟩ := exec_client exampleRpc_lawful reached
  exact ⟨link, acts, reached, ran, same⟩

/-- What the service was asked for, and what callers got. -/
structure Served (link : TcpLink Id Content Body) : Prop where
  /-- The service answered no call twice. -/
  once : (link.responded.map Prod.fst).Nodup
  /-- It was asked what was called for. -/
  asked : ∀ call req body, (call, req, body) ∈ link.responded → (call, req) ∈ link.made
  /-- A call has a response of the service. -/
  outcomes : ∀ call resp, link.client.callers.outcomes.lookup call = some (.ok resp) →
    Answered link.responded resp.call resp.id resp.body

/-- In a link which holds every response was made for its call. -/
theorem Holds.served (holds : link.Holds json) : link.Served where
  once := by
    obtain ⟨all, same, within⟩ := holds.once
    have distinct := same.nodup_iff.mp (within.nodup List.nodup_range)
    exact (List.nodup_append.mp distinct).2.1
  asked := holds.asked
  outcomes := holds.outcomes

/-- However streams are cut up or off and tasks are delayed, the service answers a call at most
once, what it is asked is a call's request, and what a caller gets is its answer to some call
with the identifier. -/
theorem served_always [DecidableEq Id] (lawful : json.Lawful)
    (events : List (LinkEvent Id Content Body)) :
    (machine json).Always Served (fresh : TcpLink Id Content Body) events := by
  intro before position link reached
  exact (Machine.always_of_step (Holds.step lawful) events (holds_fresh json) before position link
    reached).served

theorem served_always_cut : (machine exampleRpc).Always Served fresh cutRun :=
  served_always exampleRpc_lawful cutRun

example : ((machine exampleRpc).exec fresh cutRun).map
    (fun link => (link.answer 0, link.answer 1)) = some (none, some true) := by
  decide +kernel

/-- A call which returns a response returns the service's answer to this call's own request. -/
def OwnAnswers (link : TcpLink Id Content Body) : Prop :=
  ∀ call resp, link.client.callers.outcomes.lookup call = some (.ok resp) →
    ∃ req, (call, req) ∈ link.made ∧ (call, req, resp.body) ∈ link.responded ∧ req.id = resp.id

/-- Calls get their own answers when none is made with an identifier which another one uses. -/
theorem ownAnswers_of_distinct [DecidableEq Id] (lawful : json.Lawful)
    {events : List (LinkEvent Id Content Body)}
    (along : (machine json).Along
      (fun link event => ∀ act ∈ sees event, link.client.Distinct act) fresh events) :
    (machine json).Always OwnAnswers fresh events := by
  have kept := (refines_machine lawful).always TcpClient.Orderly TcpClient.Distinct
    (fun {client act next} orderly allowed taken => by
      refine TcpClient.orderly_step orderly ?_ taken
      cases act with
      | respond position body => trivial
      | _ => exact allowed _ rfl)
    (holds_fresh json) TcpClient.orderly_fresh along
  intro before position link reached call resp returned
  obtain ⟨holds, orderly⟩ := kept before position link reached
  obtain ⟨req, said, named⟩ := holds.outcomes call resp returned
  rw [orderly.delivers.own call resp returned] at said
  exact ⟨req, holds.asked call req resp.body said, said, named⟩

theorem ownAnswers_of_distinct_crossed :
    (machine exampleRpc).Always OwnAnswers fresh crossedRun :=
  ownAnswers_of_distinct exampleRpc_lawful (by decide +kernel)

end TcpLink
end Nullspace
