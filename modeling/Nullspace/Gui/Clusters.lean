import Nullspace.Client.Readable

/-!
# Clusters of messages

A conversation is drawn in clusters: what one user wrote within three minutes, in messages of
one type. `clusterConvo_clustering` says that the clusters are the conversation cut into
pieces, and that a cluster which starts with a received message goes on as far as it can.
-/

namespace Nullspace

open Nullspace.Base

variable {P : Primitives}

/-- `MessageType`. -/
inductive MessageType where
  | text
  | attachment
  | groupInvite
deriving DecidableEq

/-- `message_type`. -/
def messageType (message : MessageView P) : MessageType :=
  match message.body with
  | .plainText _ => .text
  | .attachment .. => .attachment
  | .groupInvite _ => .groupInvite

/-- `CLUSTER_WINDOW_NANOS`. -/
def clusterWindowNanos : UInt64 := 3 * 60 * 1000000000

/-- `u64::abs_diff`. -/
def absDiff (first second : UInt64) : UInt64 :=
  if first < second then second - first else first - second

/-- `messages[start..stop]`. -/
def slice {Item : Type} (items : List Item) (start stop : Nat) : List Item :=
  (items.take stop).drop start

section Slices

variable {Item : Type} {items : List Item} {start stop : Nat}

theorem slice_append_drop (order : start ≤ stop) :
    slice items start stop ++ items.drop stop = items.drop start := by
  rw [slice, List.drop_take, show items.drop stop = (items.drop start).drop (stop - start) by
    rw [List.drop_drop, Nat.add_sub_cancel' order], List.take_append_drop]

theorem length_slice (bound : stop ≤ items.length) :
    (slice items start stop).length = stop - start := by
  rw [slice, List.length_drop, List.length_take, Nat.min_eq_left bound]

theorem slice_eq_cons {first : Item} (present : items[start]? = some first) (order : start < stop) :
    slice items start stop = first :: slice items (start + 1) stop := by
  have inside : (items.take stop)[start]? = some first := by
    rw [List.getElem?_take_of_lt order, present]
  obtain ⟨bound, found⟩ := List.getElem?_eq_some_iff.mp inside
  rw [slice, slice, ← found]
  exact List.drop_eq_getElem_cons bound

theorem slice_succ {first : Item} (present : items[start]? = some first) :
    slice items start (start + 1) = [first] := by
  rw [slice_eq_cons present (Nat.lt_succ_self start)]
  refine congrArg (List.cons first) (List.drop_eq_nil_of_le ?_)
  rw [List.length_take]
  exact Nat.min_le_left _ _

theorem mem_slice {item : Item} (listed : item ∈ slice items start stop) :
    ∃ position, start ≤ position ∧ position < stop ∧ items[position]? = some item := by
  obtain ⟨index, found⟩ := List.mem_iff_getElem?.mp listed
  rw [slice, List.getElem?_drop, List.getElem?_take] at found
  split at found
  · exact ⟨start + index, Nat.le_add_right _ _, ‹_›, found⟩
  · cases found

end Slices

/-- Reading the clock: what it shows when the message at a position is looked at. A position is
looked at once. -/
abbrev ClockReadings := Nat → NanoTimestamp

/-- The inner loop, from a candidate's position: where the cluster ends. -/
def clusterEnd (clock : ClockReadings) (messages : List (MessageView P)) (first : MessageView P)
    (firstTs : NanoTimestamp) (stop : Nat) : Nat :=
  if inside : stop < messages.length then
    let candidate := messages[stop]
    let candidateTs := candidate.receivedAt.getD (clock stop)
    if candidate.sender ≠ first.sender then stop
    else if messageType candidate ≠ messageType first then stop
    else if absDiff firstTs candidateTs > clusterWindowNanos then stop
    else clusterEnd clock messages first firstTs (stop + 1)
  else stop
termination_by messages.length - stop

/-- A cluster does not end before its start. -/
theorem le_clusterEnd (clock : ClockReadings) (messages : List (MessageView P))
    (first : MessageView P) (firstTs : NanoTimestamp) (stop : Nat) :
    stop ≤ clusterEnd clock messages first firstTs stop := by
  fun_induction clusterEnd clock messages first firstTs stop with
  | case1 | case2 | case3 | case5 => exact le_rfl
  | case4 stop inside candidate candidateTs sender type window ih => exact Nat.le_of_succ_le ih

/-- A cluster ends within the list. -/
theorem clusterEnd_le (clock : ClockReadings) {messages : List (MessageView P)}
    (first : MessageView P) (firstTs : NanoTimestamp) {stop : Nat}
    (bound : stop ≤ messages.length) :
    clusterEnd clock messages first firstTs stop ≤ messages.length := by
  fun_induction clusterEnd clock messages first firstTs stop with
  | case1 | case2 | case3 | case5 => exact bound
  | case4 stop inside candidate candidateTs sender type window ih => exact ih inside

/-- A turn of the outer loop leaves fewer messages. -/
theorem clusterEnd_left (clock : ClockReadings) {messages : List (MessageView P)}
    (first : MessageView P) (firstTs : NanoTimestamp) {start : Nat}
    (inside : start < messages.length) :
    messages.length - clusterEnd clock messages first firstTs (start + 1) <
      messages.length - start := by
  have further := le_clusterEnd clock messages first firstTs (start + 1)
  omega

/-- The outer loop of `cluster_convo`: the clusters from a position on. -/
def clusterConvoFrom (clock : ClockReadings) (messages : List (MessageView P)) (start : Nat) :
    List (List (MessageView P)) :=
  if inside : start < messages.length then
    let first := messages[start]
    match first.receivedAt with
    | none => slice messages start (start + 1) :: clusterConvoFrom clock messages (start + 1)
    | some firstTs =>
        let stop := clusterEnd clock messages first firstTs (start + 1)
        slice messages start stop :: clusterConvoFrom clock messages stop
  else []
termination_by messages.length - start
decreasing_by
  · omega
  · exact clusterEnd_left clock _ _ inside

/-- `cluster_convo`. -/
def clusterConvo (clock : ClockReadings) (messages : List (MessageView P)) :
    List (List (MessageView P)) :=
  clusterConvoFrom clock messages 0

/-- The time by which a message at a position is placed. -/
def placedAt (clock : ClockReadings) (position : Nat) (message : MessageView P) : NanoTimestamp :=
  message.receivedAt.getD (clock position)

/-- A message which belongs to the cluster of a received one. -/
structure Joins (clock : ClockReadings) (first : MessageView P) (firstTs : NanoTimestamp)
    (position : Nat) (message : MessageView P) : Prop where
  sender : message.sender = first.sender
  type : messageType message = messageType first
  window : absDiff firstTs (placedAt clock position message) ≤ clusterWindowNanos

/-- A message stays out of a cluster for its sender, its type or its time. -/
theorem not_joins_iff {clock : ClockReadings} {first : MessageView P} {firstTs : NanoTimestamp}
    {position : Nat} {message : MessageView P} :
    ¬Joins clock first firstTs position message ↔
      message.sender ≠ first.sender ∨ messageType message ≠ messageType first ∨
        clusterWindowNanos < absDiff firstTs (placedAt clock position message) := by
  constructor
  · intro apart
    by_contra neither
    rw [not_or, not_or, not_not, not_not] at neither
    exact apart ⟨neither.1, neither.2.1, UInt64.not_lt.mp neither.2.2⟩
  · rintro (sender | type | window) joins
    · exact sender joins.sender
    · exact type joins.type
    · exact UInt64.not_le.mpr window joins.window

/-- The cluster has the messages up to a position, and the message there does not join it. -/
def EndsAt (clock : ClockReadings) (messages : List (MessageView P)) (first : MessageView P)
    (firstTs : NanoTimestamp) (start stop : Nat) : Prop :=
  (∀ position message, start ≤ position → position < stop →
    messages[position]? = some message → Joins clock first firstTs position message) ∧
  ∀ next, messages[stop]? = some next → ¬Joins clock first firstTs stop next

/-- A cluster ends where the next message stays out. -/
theorem endsAt_self {clock : ClockReadings} {messages : List (MessageView P)}
    {first : MessageView P} {firstTs : NanoTimestamp} {stop : Nat}
    (apart : ∀ inside : stop < messages.length,
      ¬Joins clock first firstTs stop (messages.get ⟨stop, inside⟩)) :
    EndsAt clock messages first firstTs stop stop := by
  refine ⟨fun position message after before => by omega, ?_⟩
  intro next found
  obtain ⟨inside, rfl⟩ := List.getElem?_eq_some_iff.mp found
  exact apart inside

/-- The inner loop stops at the first message which does not join. -/
theorem endsAt_clusterEnd (clock : ClockReadings) (messages : List (MessageView P))
    (first : MessageView P) (firstTs : NanoTimestamp) (stop : Nat) :
    EndsAt clock messages first firstTs stop
      (clusterEnd clock messages first firstTs stop) := by
  fun_induction clusterEnd clock messages first firstTs stop with
  | case1 stop inside candidate sender =>
      exact endsAt_self fun _ joins => sender joins.sender
  | case2 stop inside candidate sender type =>
      exact endsAt_self fun _ joins => type joins.type
  | case3 stop inside candidate candidateTs sender type window =>
      exact endsAt_self fun _ joins => UInt64.not_le.mpr window joins.window
  | case4 stop inside candidate candidateTs sender type window ih =>
      refine ⟨?_, ih.2⟩
      intro position message after before found
      rcases Nat.eq_or_lt_of_le after with rfl | later
      · rw [List.getElem?_eq_getElem inside] at found
        cases found
        exact ⟨not_not.mp sender, not_not.mp type, UInt64.not_lt.mp window⟩
      · exact ih.1 position message later before found
  | case5 stop outside =>
      exact endsAt_self fun inside => absurd inside outside

/-- A cluster: a message and what was received next to it, from the same user and of the same
type. A message which is not received yet is alone. -/
def IsCluster (cluster : List (MessageView P)) : Prop :=
  ∃ first others, cluster = first :: others ∧ (first.receivedAt = none → others = []) ∧
    ∀ message ∈ cluster, message.sender = first.sender ∧
      messageType message = messageType first ∧
      ∀ receivedAt, message.receivedAt = some receivedAt →
        ∃ firstTs, first.receivedAt = some firstTs ∧
          absDiff firstTs receivedAt ≤ clusterWindowNanos

/-- A message which was not received yet is a cluster of its own. -/
theorem isCluster_pending {first : MessageView P} (pending : first.receivedAt = none) :
    IsCluster [first] := by
  refine ⟨first, [], rfl, fun _ => rfl, ?_⟩
  intro message listed
  rw [List.mem_singleton.mp listed]
  exact ⟨rfl, rfl, fun receivedAt received => by rw [pending] at received; cases received⟩

theorem absDiff_self (time : UInt64) : absDiff time time = 0 := by
  rw [absDiff, if_neg (UInt64.lt_irrefl time), UInt64.sub_self]

/-- The messages up to the end of a cluster are one. -/
theorem isCluster_received {clock : ClockReadings} {messages : List (MessageView P)}
    {first : MessageView P} {firstTs : NanoTimestamp} {start stop : Nat}
    (present : messages[start]? = some first) (received : first.receivedAt = some firstTs)
    (order : start < stop) (ends : EndsAt clock messages first firstTs (start + 1) stop) :
    IsCluster (slice messages start stop) := by
  have shown : first.receivedAt ≠ none := by
    rw [received]
    exact Option.some_ne_none firstTs
  rw [slice_eq_cons present order]
  refine ⟨first, _, rfl, fun pending => absurd pending shown, ?_⟩
  intro message listed
  rcases List.mem_cons.mp listed with rfl | listed
  · refine ⟨rfl, rfl, fun receivedAt same => ⟨firstTs, received, ?_⟩⟩
    rw [received] at same
    cases same
    rw [absDiff_self]
    decide
  · obtain ⟨position, after, before, found⟩ := mem_slice listed
    have joins := ends.1 position message after before found
    refine ⟨joins.sender, joins.type, fun receivedAt same => ⟨firstTs, received, ?_⟩⟩
    have window := joins.window
    rwa [placedAt, same, Option.getD_some] at window

/-- The first of a cluster does not join the cluster before it, if that has a received message
to start with. The clusters begin at a position. -/
def Maximal (clock : ClockReadings) (start : Nat) (clusters : List (List (MessageView P))) :
    Prop :=
  ∀ before first members next others after,
    clusters = before ++ (first :: members) :: (next :: others) :: after →
    ∀ firstTs, first.receivedAt = some firstTs →
      ¬Joins clock first firstTs (start + (before.flatten.length + (members.length + 1))) next

theorem maximal_nil (clock : ClockReadings) (start : Nat) :
    Maximal (P := P) clock start [] := by
  intro before first members next others after same
  simp at same

/-- Clusters are maximal when the first one stays out of the second and the rest is maximal. -/
theorem maximal_cons {clock : ClockReadings} {start : Nat} {cluster : List (MessageView P)}
    {clusters : List (List (MessageView P))}
    (border : ∀ first members next others after, cluster = first :: members →
      clusters = (next :: others) :: after → ∀ firstTs, first.receivedAt = some firstTs →
      ¬Joins clock first firstTs (start + cluster.length) next)
    (later : Maximal clock (start + cluster.length) clusters) :
    Maximal clock start (cluster :: clusters) := by
  intro before first members next others after same firstTs received
  cases before with
  | nil =>
      obtain ⟨rfl, rest⟩ := List.cons.inj same
      have apart := border first members next others after rfl rest firstTs received
      simpa using apart
  | cons head before =>
      obtain ⟨rfl, rest⟩ := List.cons.inj same
      have apart := later before first members next others after rest firstTs received
      rw [List.flatten_cons, List.length_append]
      rwa [show start + (cluster.length + before.flatten.length + (members.length + 1)) =
        start + cluster.length + (before.flatten.length + (members.length + 1)) by omega]

/-- The clusters from a position on are the messages from there on. -/
theorem clusterConvoFrom_flatten (clock : ClockReadings) (messages : List (MessageView P))
    (start : Nat) : (clusterConvoFrom clock messages start).flatten = messages.drop start := by
  fun_induction clusterConvoFrom clock messages start with
  | case1 start inside first pending ih =>
      rw [List.flatten_cons, ih, slice_append_drop (Nat.le_succ start)]
  | case2 start inside first firstTs received stop ih =>
      have further := le_clusterEnd clock messages first firstTs (start + 1)
      rw [List.flatten_cons, ih, slice_append_drop (by omega)]
  | case3 start outside =>
      rw [List.flatten_nil, List.drop_eq_nil_of_le (Nat.le_of_not_lt outside)]

/-- Every part of the partition is a cluster. -/
theorem clusterConvoFrom_isCluster (clock : ClockReadings) (messages : List (MessageView P))
    (start : Nat) : ∀ cluster ∈ clusterConvoFrom clock messages start, IsCluster cluster := by
  fun_induction clusterConvoFrom clock messages start with
  | case1 start inside first pending ih =>
      intro cluster listed
      rcases List.mem_cons.mp listed with rfl | listed
      · rw [slice_succ (List.getElem?_eq_getElem inside)]
        exact isCluster_pending pending
      · exact ih cluster listed
  | case2 start inside first firstTs received stop ih =>
      have further := le_clusterEnd clock messages first firstTs (start + 1)
      intro cluster listed
      rcases List.mem_cons.mp listed with rfl | listed
      · exact isCluster_received (List.getElem?_eq_getElem inside) received (by omega)
          (endsAt_clusterEnd clock messages first firstTs (start + 1))
      · exact ih cluster listed
  | case3 start outside =>
      intro cluster listed
      cases listed

/-- The first message of the clusters from a position on is the one at that position. -/
theorem getElem?_of_clusters {clock : ClockReadings} {messages : List (MessageView P)}
    {start : Nat} {next : MessageView P} {others : List (MessageView P)}
    {after : List (List (MessageView P))}
    (same : clusterConvoFrom clock messages start = (next :: others) :: after) :
    messages[start]? = some next := by
  have whole := clusterConvoFrom_flatten clock messages start
  rw [same, List.flatten_cons, List.cons_append] at whole
  rw [← List.head?_drop, ← whole]
  rfl

/-- No cluster of the partition could take the first message of the next one. -/
theorem clusterConvoFrom_maximal (clock : ClockReadings) (messages : List (MessageView P))
    (start : Nat) : Maximal clock start (clusterConvoFrom clock messages start) := by
  fun_induction clusterConvoFrom clock messages start with
  | case1 start inside first pending ih =>
      have size : (slice messages start (start + 1)).length = start + 1 - start :=
        length_slice inside
      refine maximal_cons ?_ (by rwa [size, Nat.add_sub_cancel' (Nat.le_succ start)])
      intro other members next others after same _ firstTs received
      rw [slice_succ (List.getElem?_eq_getElem inside)] at same
      obtain ⟨rfl, -⟩ := List.cons.inj same
      rw [pending] at received
      cases received
  | case2 start inside first firstTs received stop ih =>
      have further : start + 1 ≤ stop := le_clusterEnd clock messages first firstTs (start + 1)
      have within : stop ≤ messages.length := clusterEnd_le clock first firstTs inside
      have size : start + (slice messages start stop).length = stop := by
        rw [length_slice within]
        omega
      refine maximal_cons ?_ (by rwa [size])
      intro other members next others after same rest otherTs otherReceived
      rw [slice_eq_cons (List.getElem?_eq_getElem inside) further] at same
      obtain ⟨rfl, -⟩ := List.cons.inj same
      obtain rfl : firstTs = otherTs := Option.some.inj (received.symm.trans otherReceived)
      rw [size]
      exact (endsAt_clusterEnd clock messages first firstTs (start + 1)).2 next
        (getElem?_of_clusters rest)
  | case3 start outside => exact maximal_nil clock start

/-- The conversation as it is drawn: cut into clusters, each of which goes on as far as it
can. -/
structure Clustering (clock : ClockReadings) (messages : List (MessageView P))
    (clusters : List (List (MessageView P))) : Prop where
  whole : clusters.flatten = messages
  cluster : ∀ cluster ∈ clusters, IsCluster cluster
  maximal : ∀ before first members next others after,
    clusters = before ++ (first :: members) :: (next :: others) :: after →
    ∀ firstTs, first.receivedAt = some firstTs →
      next.sender ≠ first.sender ∨ messageType next ≠ messageType first ∨
        clusterWindowNanos < absDiff firstTs
          (placedAt clock (before ++ [first :: members]).flatten.length next)

/-- The clusters partition the conversation in order, and none can be extended. -/
theorem clusterConvo_clustering (clock : ClockReadings) (messages : List (MessageView P)) :
    Clustering clock messages (clusterConvo clock messages) where
  whole := clusterConvoFrom_flatten clock messages 0
  cluster := clusterConvoFrom_isCluster clock messages 0
  maximal := by
    intro before first members next others after same firstTs received
    have apart := clusterConvoFrom_maximal clock messages 0 before first members next others after
      same firstTs received
    rw [← not_joins_iff]
    simpa using apart

end Nullspace
