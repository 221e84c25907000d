import Nullspace.Client.SendLoop

/-!
# The order of the copies

The loop holds the oldest message which waits, so that nothing older is posted for the first
time behind it, as long as no request lands after its message was given up.
-/

namespace Nullspace

open Nullspace.Base

variable {P : Primitives}

namespace SendRun

/-- The rows whose copies of one kind are in the mailboxes for a conversation. -/
def boxIds (run : SendRun P) (toSelf : Bool) (convo : ConvoId P) : List Nat :=
  (run.posted.filter fun copy => decide (copy.toSelf = toSelf ∧ copy.convo = convo)).map
    MessageCopy.rowId

/-- In the recipient's mailbox the first copies come in the order of the queue. -/
def InOrder (convo : ConvoId P) (run : SendRun P) : Prop := FirstsAscend (run.boxIds false convo)

/-- A request lands while its message waits, or where a copy of it is already. -/
def Timely (run : SendRun P) : SendStep P → Prop
  | .land position => ∀ copy ∈ run.inFlight[position]?,
      copy.rowId ∈ (run.devices .sender).pendingIds ∨
        ∃ other ∈ run.posted, other.rowId = copy.rowId ∧ other.toSelf = copy.toSelf
  | _ => True

/-- The loop holds the oldest pending row. -/
structure Held (db : ClientDb P) (sending : Sending P) : Prop where
  joined : (sending.row, sending.convo) ∈ db.joinedMessages
  pending : sending.row.isPending = true
  oldest : ∀ id ∈ db.pendingIds, sending.row.id ≤ id

structure Orderly (identity : Identity P) (run : SendRun P) : Prop where
  filed : ∀ device, (run.devices device).Filed
  ids : ((run.devices .sender).convoMessages.map ConvoMessage.id).Nodup
  owners : ∀ row ∈ (run.devices .sender).convoMessages, row.isPending = true →
    row.senderUsername = identity.username
  stands : ∀ copy ∈ run.posted ++ run.inFlight,
    (run.devices .sender).Stands copy.rowId copy.convo copy.event
  /-- Nothing which is older than a copy waits. -/
  low : ∀ copy ∈ run.posted ++ run.inFlight, ∀ id ∈ (run.devices .sender).pendingIds,
    copy.rowId ≤ id
  held : ∀ sending, run.sending = some sending → Held (run.devices .sender) sending

/-- What becomes of a request. -/
inductive Requested (identity : Identity P) (run : SendRun P) (sending : Sending P)
    (toSelf : Bool) (attempts : Nat) (onward : NanoTimestamp → SendPhase) : SendRun P → Prop
  | failed : Requested identity run sending toSelf attempts onward
      { run with sending := some { sending with phase := .retry attempts } }
  | unanswered {entry : MailboxEntry P} : Requested identity run sending toSelf attempts onward
      { run with
        sending := some { sending with phase := .retry attempts }
        inFlight := run.inFlight ++
          [⟨sending.row.id, sending.convo, toSelf,
            (sending.row.content sending.convo).shown identity.username, entry⟩] }
  | answered {entry : MailboxEntry P} (receivedAt : NanoTimestamp) :
      Requested identity run sending toSelf attempts onward
        { run with
          sending := some { sending with phase := onward receivedAt }
          posted := run.posted ++
            [⟨sending.row.id, sending.convo, toSelf,
              (sending.row.content sending.convo).shown identity.username, entry⟩] }

/-- A request of the sender ends in one of the ways of `Requested`. -/
theorem requested (identity : Identity P) (run : SendRun P) (sending : Sending P) (toSelf : Bool)
    (attempts : Nat) (input : SealInput P) (onward : NanoTimestamp → SendPhase)
    (outcome : SendOutcome) : Requested identity run sending toSelf attempts onward
      (run.request identity sending toSelf attempts input onward outcome) := by
  cases outcome with
  | refused => exact .failed
  | unanswered receivedAt =>
      rw [request]
      split
      · exact .failed
      · exact .unanswered
  | answered receivedAt =>
      rw [request]
      split
      · exact .failed
      · exact .answered receivedAt

variable {identity : Identity P} {run : SendRun P}

/-- The event which is sealed for a held row is that of the row. -/
theorem Orderly.copy_fits (orderly : run.Orderly identity) {sending : Sending P}
    (holds : run.sending = some sending) :
    (run.devices .sender).Stands sending.row.id sending.convo
        ((sending.row.content sending.convo).shown identity.username) ∧
      ∀ id ∈ (run.devices .sender).pendingIds, sending.row.id ≤ id := by
  have held := orderly.held sending holds
  have owner := orderly.owners sending.row (ClientDb.mem_joinedMessages.mp held.joined).1
    held.pending
  have same : (sending.row.content sending.convo).shown identity.username = sending.row.shown := by
    rw [Event.shown, ConvoMessage.content, ConvoMessage.shown, owner]
  rw [same]
  exact ⟨⟨sending.row, held.joined, rfl, rfl⟩, held.oldest⟩

/-- Steps which do not touch the devices. -/
theorem Orderly.of_devices {next : SendRun P} (orderly : run.Orderly identity)
    (devices : next.devices = run.devices)
    (copies : ∀ copy ∈ next.posted ++ next.inFlight, copy ∈ run.posted ++ run.inFlight ∨
      (run.devices .sender).Stands copy.rowId copy.convo copy.event ∧
        ∀ id ∈ (run.devices .sender).pendingIds, copy.rowId ≤ id)
    (held : ∀ sending, next.sending = some sending → Held (run.devices .sender) sending) :
    next.Orderly identity where
  filed := devices ▸ orderly.filed
  ids := devices ▸ orderly.ids
  owners := devices ▸ orderly.owners
  stands copy listed := by
    rw [devices]
    rcases copies copy listed with old | new
    · exact orderly.stands copy old
    · exact new.1
  low copy listed := by
    rw [devices]
    rcases copies copy listed with old | new
    · exact orderly.low copy old
    · exact new.2
  held := devices ▸ held

/-- A row which the loop holds is still the oldest pending one when rows are added. -/
theorem Held.of_adds {username : UserName} {db next : ClientDb P} {sending : Sending P}
    (held : Held db sending) (adds : ClientDb.Adds username db next) : Held next sending := by
  refine ⟨adds.joined held.joined, held.pending, fun id listed => ?_⟩
  rcases adds.pending_cases listed with old | above
  · exact held.oldest id old
  · exact (above sending.row (ClientDb.mem_joinedMessages.mp held.joined).1).le

/-- A device adds rows. -/
theorem Orderly.setDevice (orderly : run.Orderly identity) {peer : UserName} {device : Device}
    {db : ClientDb P} (adds : ClientDb.Adds (device.username identity peer) (run.devices device) db) :
    (run.setDevice device db).Orderly identity := by
  have filed : ∀ other, ((run.setDevice device db).devices other).Filed := by
    intro other
    by_cases same : other = device
    · rw [same, setDevice_same]
      exact adds.filed
    · rw [setDevice_of_ne same]
      exact orderly.filed other
  by_cases sends : device = .sender
  · subst sends
    have now : (run.setDevice .sender db).devices .sender = db := setDevice_same run .sender db
    refine ⟨filed, ?_, ?_, ?_, ?_, ?_⟩
    · rw [now]
      exact adds.ids orderly.ids
    · rw [now]
      exact adds.owners orderly.owners
    · intro copy listed
      rw [now]
      exact adds.stands (orderly.stands copy listed)
    · intro copy listed id waits
      rw [now] at waits
      rcases adds.pending_cases waits with old | above
      · exact orderly.low copy listed id old
      · obtain ⟨row, joined, same, _⟩ := orderly.stands copy listed
        rw [← same]
        exact (above row (ClientDb.mem_joinedMessages.mp joined).1).le
    · intro sending holds
      rw [now]
      exact (orderly.held sending holds).of_adds adds
  · have now : (run.setDevice device db).devices .sender = run.devices .sender :=
      setDevice_of_ne (Ne.symm sends) run db
    refine ⟨filed, ?_, ?_, ?_, ?_, ?_⟩
    · rw [now]
      exact orderly.ids
    · rw [now]
      exact orderly.owners
    · rw [now]
      exact orderly.stands
    · rw [now]
      exact orderly.low
    · rw [now]
      exact orderly.held

/-- What came of the held message is recorded. -/
theorem Orderly.record (orderly : run.Orderly identity) {id : Nat}
    {change : ConvoMessage → ConvoMessage} (convoId : ∀ row, (change row).convoId = row.convoId)
    (ids : ∀ row, (change row).id = row.id) (shown : ∀ row, (change row).shown = row.shown)
    (sent : ∀ row, (change row).isPending = false) :
    ({ run.setDevice .sender ((run.devices .sender).updateRow id change) with
      sending := none } : SendRun P).Orderly identity := by
  have now : (run.setDevice .sender ((run.devices .sender).updateRow id change)).devices .sender =
      (run.devices .sender).updateRow id change := setDevice_same run .sender _
  refine ⟨?_, ?_, ?_, ?_, ?_, fun sending impossible => by cases impossible⟩
  · intro other
    by_cases same : other = .sender
    · rw [same]
      exact now ▸ ClientDb.filed_updateRow (orderly.filed .sender) convoId shown
    · have old : (run.setDevice .sender ((run.devices .sender).updateRow id change)).devices other =
          run.devices other := setDevice_of_ne same run _
      exact old ▸ orderly.filed other
  · dsimp only
    rw [now, ClientDb.ids_updateRow ids]
    exact orderly.ids
  · intro row listed pending
    dsimp only at listed
    rw [now] at listed
    obtain ⟨earlier, old, rfl⟩ := List.mem_map.mp listed
    split at pending
    · rw [sent] at pending
      cases pending
    · rename_i apart
      rw [if_neg apart]
      exact orderly.owners earlier old pending
  · intro copy listed
    dsimp only
    rw [now]
    exact ClientDb.stands_updateRow convoId ids shown (orderly.stands copy listed)
  · intro copy listed other waits
    dsimp only at waits
    rw [now] at waits
    exact orderly.low copy listed other ((ClientDb.mem_pendingIds_updateRow sent).mp waits).1

/-- A request leaves the run orderly. -/
theorem Orderly.request (orderly : run.Orderly identity) {sending : Sending P} {toSelf : Bool}
    {attempts : Nat} {onward : NanoTimestamp → SendPhase} {next : SendRun P}
    (holds : run.sending = some sending)
    (requests : Requested identity run sending toSelf attempts onward next) :
    next.Orderly identity := by
  have held := orderly.held sending holds
  have fits := orderly.copy_fits holds
  cases requests with
  | failed =>
      refine orderly.of_devices rfl (fun copy listed => Or.inl listed) ?_
      rintro _ ⟨⟩
      exact ⟨held.joined, held.pending, held.oldest⟩
  | unanswered =>
      refine orderly.of_devices rfl ?_ ?_
      · intro copy listed
        dsimp only at listed
        rw [← List.append_assoc, List.mem_append, List.mem_singleton] at listed
        rcases listed with old | rfl
        · exact Or.inl old
        · exact Or.inr fits
      · rintro _ ⟨⟩
        exact ⟨held.joined, held.pending, held.oldest⟩
  | answered receivedAt =>
      refine orderly.of_devices rfl ?_ ?_
      · intro copy listed
        dsimp only at listed
        rw [List.append_assoc, List.mem_append, List.mem_append, List.mem_singleton] at listed
        rcases listed with old | rfl | flying
        · exact Or.inl (List.mem_append_left _ old)
        · exact Or.inr fits
        · exact Or.inl (List.mem_append_right _ flying)
      · rintro _ ⟨⟩
        exact ⟨held.joined, held.pending, held.oldest⟩

/-- What a step does to mailboxes and rows. -/
inductive Moves (json : JsonReader P) (identity : Identity P) (peer : UserName)
    (run : SendRun P) : SendStep P → SendRun P → Prop
  | picked {row : ConvoMessage} {convo : ConvoId P}
      (found : (run.devices .sender).nextPendingMessage = some (row, convo)) :
      Moves json identity peer run .pick { run with sending := some ⟨row, convo, .first 0⟩ }
  | requested {input : SealInput P} {outcome : SendOutcome} {sending : Sending P}
      {toSelf : Bool} {attempts : Nat} {onward : NanoTimestamp → SendPhase} {next : SendRun P}
      (holds : run.sending = some sending)
      (onwards : ∀ receivedAt, onward receivedAt = .second attempts ∨
        onward receivedAt = .sent receivedAt ∧
          (sending.convo.hasSelfCopy identity = true → toSelf = true))
      (requests : Requested identity run sending toSelf attempts onward next) :
      Moves json identity peer run (.attempt input outcome) next
  | landed {position : Nat} {copy : MessageCopy P}
      (flies : run.inFlight[position]? = some copy) :
      Moves json identity peer run (.land position)
        { run with
          inFlight := run.inFlight.eraseIdx position
          posted := run.posted ++ [copy] }
  | recorded {now : NanoTimestamp} {err : String} {sending : Sending P}
      {change : ConvoMessage → ConvoMessage} (holds : run.sending = some sending)
      (ends : (∃ receivedAt, sending.phase = .sent receivedAt) ∨ sending.phase = .failed)
      (convoId : ∀ row, (change row).convoId = row.convoId)
      (ids : ∀ row, (change row).id = row.id) (shown : ∀ row, (change row).shown = row.shown)
      (sent : ∀ row, (change row).isPending = false) :
      Moves json identity peer run (.record now err false)
        { run.setDevice .sender ((run.devices .sender).updateRow sending.row.id change) with
          sending := none }
  | restarted {event : SendStep P} :
      Moves json identity peer run event { run with sending := none }
  | read {device : Device} {position : Nat} {reading : EntryReading P} {copy : MessageCopy P}
      (posted : run.posted[position]? = some copy) :
      Moves json identity peer run (.read device position reading)
        { run.setDevice device
            ((reading.event copy.entry).process json (run.devices device)).1 with
          received := Function.update run.received device (run.received device ++
            ((reading.event copy.entry).process json (run.devices device)).2.toList) }
  | aside {device : Device} {step : DeviceStep P} :
      Moves json identity peer run (.aside device step)
        (run.setDevice device (step.run json (device.username identity peer) (run.devices device)))

/-- What a step of the machine does to mailboxes and rows. -/
theorem moves {json : JsonReader P} {peer : UserName} {event : SendStep P} {next : SendRun P}
    (taken : (machine json identity peer).step run event = some next) :
    Moves json identity peer run event next := by
  cases event with
  | pick =>
      simp only [machine] at taken
      split at taken
      · cases taken
      · obtain ⟨⟨row, convo⟩, found, rfl⟩ := Option.map_eq_some_iff.mp taken
        exact .picked found
  | attempt input outcome =>
      simp only [machine] at taken
      split at taken
      · cases taken
      · rename_i sending holds
        split at taken
        · rename_i attempts _
          cases taken
          refine .requested holds ?_ (requested identity run sending false attempts input _ outcome)
          intro receivedAt
          by_cases copied : sending.convo.hasSelfCopy identity = true
          · exact Or.inl (if_pos copied)
          · exact Or.inr ⟨if_neg copied, fun impossible => absurd impossible copied⟩
        · rename_i attempts _
          cases taken
          exact .requested holds (fun receivedAt => Or.inr ⟨rfl, fun _ => rfl⟩)
            (requested identity run sending true attempts input _ outcome)
        · cases taken
        · cases taken
  | land position =>
      simp only [machine] at taken
      split at taken
      · cases taken
      · rename_i copy flies
        cases taken
        exact .landed flies
  | record now err fails =>
      simp only [machine] at taken
      split at taken
      · cases taken
      · rename_i sending holds
        split at taken
        · rename_i receivedAt sent
          cases fails with
          | true =>
              cases taken
              exact .restarted
          | false =>
              cases taken
              exact .recorded holds (Or.inl ⟨receivedAt, sent⟩) (fun _ => rfl) (fun _ => rfl)
                (fun _ => rfl) (fun _ => rfl)
        · rename_i failed
          cases fails with
          | true =>
              cases taken
              exact .restarted
          | false =>
              cases taken
              exact .recorded holds (Or.inr failed) (fun _ => rfl) (fun _ => rfl)
                (fun _ => rfl) (fun _ => rfl)
        · cases taken
        · cases taken
  | restart =>
      cases taken
      exact .restarted
  | read device position reading =>
      simp only [machine] at taken
      split at taken
      · cases taken
      · rename_i copy posted
        cases taken
        exact .read posted
  | aside device step =>
      cases taken
      exact .aside

variable {json : JsonReader P} {peer : UserName} {event : SendStep P} {next : SendRun P}

/-- The received events play no part. -/
theorem Orderly.of_received (orderly : run.Orderly identity)
    (received : Device → List (ConvoId P × ShownEvent)) :
    ({ run with received := received } : SendRun P).Orderly identity :=
  orderly.of_devices rfl (fun _ listed => Or.inl listed) orderly.held

/-- Every step leaves the run orderly. -/
theorem Orderly.step (orderly : run.Orderly identity)
    (moves : Moves json identity peer run event next) : next.Orderly identity := by
  cases moves with
  | picked found =>
      obtain ⟨joined, pending, oldest⟩ := ClientDb.nextPendingMessage_eq_some found
      refine orderly.of_devices rfl (fun copy listed => Or.inl listed) ?_
      rintro _ ⟨⟩
      refine ⟨joined, pending, fun id waits => ?_⟩
      obtain ⟨row, listed, waiting, rfl⟩ := ClientDb.mem_pendingIds.mp waits
      obtain ⟨convo, found, looked, owns⟩ := (orderly.filed .sender).owned row listed
      have standing : (run.devices .sender).convoOf? row.convoId = some convo :=
        owns ▸ ClientDb.convoOf_eq_some (orderly.filed .sender).keyed looked
      exact oldest (row, convo) (ClientDb.mem_joinedMessages.mpr ⟨listed, standing⟩) waiting
  | requested holds onwards requests => exact orderly.request holds requests
  | @landed position copy flies =>
      refine orderly.of_devices rfl (fun other listed => Or.inl ?_) orderly.held
      have flying := List.mem_of_getElem? flies
      dsimp only at listed
      rw [List.append_assoc, List.mem_append, List.mem_append, List.mem_singleton] at listed
      rcases listed with old | rfl | rest
      · exact List.mem_append_left _ old
      · exact List.mem_append_right _ flying
      · exact List.mem_append_right _ (List.mem_of_mem_eraseIdx rest)
  | recorded holds ends convoId ids shown sent => exact orderly.record convoId ids shown sent
  | restarted =>
      exact orderly.of_devices rfl (fun copy listed => Or.inl listed)
        fun _ impossible => by cases impossible
  | @read device position reading copy posted =>
      exact (orderly.setDevice ((reading.event copy.entry).adds json (orderly.filed device)
        (device.username identity peer))).of_received _
  | @aside device step => exact orderly.setDevice (step.adds json (orderly.filed device) _)

/-- A copy which is posted comes last among those of its kind. -/
theorem boxIds_append (run : SendRun P) (copy : MessageCopy P) (toSelf : Bool) (convo : ConvoId P)
    {after : SendRun P} (posted : after.posted = run.posted ++ [copy]) :
    after.boxIds toSelf convo = run.boxIds toSelf convo ++
      if copy.toSelf = toSelf ∧ copy.convo = convo then [copy.rowId] else [] := by
  rw [boxIds, posted, List.filter_append, List.map_append, boxIds]
  by_cases same : copy.toSelf = toSelf ∧ copy.convo = convo
  · rw [if_pos same, List.filter_singleton, decide_eq_true same, cond_true, List.map_singleton]
  · rw [if_neg same, List.filter_singleton, decide_eq_false same, cond_false, List.map_nil]

/-- First copies come in the order of the queue, in all mailboxes. -/
def Ascending (run : SendRun P) : Prop :=
  ∀ toSelf convo, FirstsAscend (run.boxIds toSelf convo)

/-- A copy is posted whose message waits, or of which there is one already. -/
theorem Ascending.append (ascending : run.Ascending) (orderly : run.Orderly identity)
    {copy : MessageCopy P} {after : SendRun P} (posted : after.posted = run.posted ++ [copy])
    (stands : (run.devices .sender).Stands copy.rowId copy.convo copy.event)
    (fits : copy.rowId ∈ (run.devices .sender).pendingIds ∨
      ∃ other ∈ run.posted, other.rowId = copy.rowId ∧ other.toSelf = copy.toSelf) :
    after.Ascending := by
  intro toSelf convo
  rw [boxIds_append run copy toSelf convo posted]
  split
  · rename_i same
    refine (ascending toSelf convo).append ?_
    rcases fits with waits | ⟨other, listed, sameId, sameKind⟩
    · refine Or.inr fun id boxed => ?_
      obtain ⟨earlier, filtered, rfl⟩ := List.mem_map.mp boxed
      exact orderly.low earlier (List.mem_append_left _ (List.mem_filter.mp filtered).1) _ waits
    · refine Or.inl (List.mem_map.mpr ⟨other, List.mem_filter.mpr ⟨listed, ?_⟩, sameId⟩)
      have otherStands := orderly.stands other (List.mem_append_left _ listed)
      rw [sameId] at otherStands
      have sameConvo := (otherStands.unique orderly.ids stands).1
      exact decide_eq_true ⟨sameKind.trans same.1, sameConvo.trans same.2⟩
  · rw [List.append_nil]
    exact ascending toSelf convo

/-- The order of copies depends on the mailboxes only. -/
theorem Ascending.of_posted (ascending : run.Ascending) {after : SendRun P}
    (posted : after.posted = run.posted) : after.Ascending := by
  intro toSelf convo
  rw [boxIds, posted]
  exact ascending toSelf convo

/-- The row which the loop holds waits to be sent. -/
theorem Orderly.held_waits (orderly : run.Orderly identity) {sending : Sending P}
    (holds : run.sending = some sending) :
    sending.row.id ∈ (run.devices .sender).pendingIds := by
  have held := orderly.held sending holds
  exact ClientDb.mem_pendingIds.mpr
    ⟨sending.row, (ClientDb.mem_joinedMessages.mp held.joined).1, held.pending, rfl⟩

/-- Every timely step leaves first copies in the order of the queue. -/
theorem Ascending.step (ascending : run.Ascending) (orderly : run.Orderly identity)
    (timely : run.Timely event) (moves : Moves json identity peer run event next) :
    next.Ascending := by
  cases moves with
  | picked found => exact ascending.of_posted rfl
  | requested holds onwards requests =>
      cases requests with
      | failed => exact ascending.of_posted rfl
      | unanswered => exact ascending.of_posted rfl
      | answered receivedAt =>
          exact ascending.append orderly rfl (orderly.copy_fits holds).1
            (Or.inl (orderly.held_waits holds))
  | landed flies =>
      refine ascending.append orderly rfl ?_ (timely _ flies)
      exact orderly.stands _ (List.mem_append_right _ (List.mem_of_getElem? flies))
  | recorded holds ends convoId ids shown sent => exact ascending.of_posted rfl
  | restarted => exact ascending.of_posted rfl
  | read posted => exact ascending.of_posted rfl
  | aside => exact ascending.of_posted rfl

end SendRun
end Nullspace
