import Nullspace.Client.CopyOrder

/-!
# Messages in three histories

The send loop posts at least one copy of a message, and the unique index of each device keeps
one row. `delivered_of_undisturbed` says in which runs the first copies come in the order of
the queue, and in which every history has each posted message exactly once.
-/

namespace Nullspace

open Nullspace.Base

variable {P : Primitives}

namespace SendRun

/-- Where the recipient finds a conversation of the sender. -/
def seenAs (identity : Identity P) : ConvoId P → ConvoId P
  | .direct _ => .direct identity.username
  | .group groupId => .group groupId

/-- The recipient's device has processed its mailbox. -/
def PeerProcessed (identity : Identity P) (convo : ConvoId P) (run : SendRun P) : Prop :=
  ∀ copy ∈ run.posted, copy.toSelf = false → copy.convo = convo →
    (seenAs identity convo, copy.event) ∈ run.received .peer

/-- The user's other device has processed its mailboxes: that of the user, and those of the
groups. -/
def OwnProcessed (identity : Identity P) (run : SendRun P) : Prop :=
  ∀ copy ∈ run.posted, copy.toSelf = copy.convo.hasSelfCopy identity →
    (copy.convo, copy.event) ∈ run.received .own

/-- Each posted message has one row on the sender's device, on the recipient's once that has
processed its mailbox, and on the user's other device once the message does not wait any more
and that device has processed its mailboxes. -/
structure ExactlyOnce (identity : Identity P) (convo : ConvoId P) (run : SendRun P) : Prop where
  sender : ∀ copy ∈ run.posted,
    (run.devices .sender).contents.count (some copy.convo, copy.event) = 1
  peer : run.PeerProcessed identity convo → ∀ copy ∈ run.posted, copy.toSelf = false →
    copy.convo = convo → (run.devices .peer).contents.count (some (seenAs identity convo),
      copy.event) = 1
  own : run.OwnProcessed identity → ∀ copy ∈ run.posted, copy.toSelf = false →
    copy.rowId ∉ (run.devices .sender).pendingIds →
      (run.devices .own).contents.count (some copy.convo, copy.event) = 1

/-- No message is given up between its two copies, and no event of a copy meets a different
one with its key. -/
def Undivided (json : JsonReader P) (identity : Identity P) (run : SendRun P) :
    SendStep P → Prop
  | .record _ _ fails => fails = false → ∀ sending ∈ run.sending, sending.phase = .failed →
      sending.convo.hasSelfCopy identity = true →
        (∃ copy ∈ run.posted, copy.rowId = sending.row.id ∧ copy.toSelf = false) →
          ∃ copy ∈ run.posted, copy.rowId = sending.row.id ∧ copy.toSelf = true
  | .read device position reading => device ≠ .sender → ∀ copy ∈ run.posted[position]?,
      ∀ event ∈ ((reading.event copy.entry).process json (run.devices device)).2,
        ∀ other ∈ (run.devices device).contents,
          shownKey other = shownKey (ClientDb.filing event) → other = ClientDb.filing event
  | _ => True

variable {json : JsonReader P} {identity : Identity P} {peer : UserName} {run next : SendRun P}
  {event : SendStep P}

/-- What the steps under the second condition keep. -/
structure Copied (identity : Identity P) (run : SendRun P) : Prop where
  /-- A message which does not wait any more has its second copy with the first. -/
  both : ∀ copy ∈ run.posted, copy.toSelf = false → copy.convo.hasSelfCopy identity = true →
    copy.rowId ∈ (run.devices .sender).pendingIds ∨
      ∃ other ∈ run.posted, other.rowId = copy.rowId ∧ other.toSelf = true
  sent : ∀ sending receivedAt, run.sending = some sending → sending.phase = .sent receivedAt →
    sending.convo.hasSelfCopy identity = true →
      ∃ copy ∈ run.posted, copy.rowId = sending.row.id ∧ copy.toSelf = true
  /-- What was read is in the history. -/
  kept : ∀ device, device ≠ .sender → ∀ event ∈ run.received device,
    ClientDb.filing event ∈ (run.devices device).contents

/-- More copies, and no other message which waits. -/
theorem Copied.both_of_posted (copied : run.Copied identity) {after : SendRun P}
    {copies : List (MessageCopy P)} (posted : after.posted = run.posted ++ copies)
    (waits : ∀ id ∈ (run.devices .sender).pendingIds, id ∈ (after.devices .sender).pendingIds)
    (more : ∀ copy ∈ copies, copy.toSelf = false → copy.convo.hasSelfCopy identity = true →
      copy.rowId ∈ (run.devices .sender).pendingIds ∨
        ∃ other ∈ run.posted, other.rowId = copy.rowId ∧ other.toSelf = true) :
    ∀ copy ∈ after.posted, copy.toSelf = false → copy.convo.hasSelfCopy identity = true →
      copy.rowId ∈ (after.devices .sender).pendingIds ∨
        ∃ other ∈ after.posted, other.rowId = copy.rowId ∧ other.toSelf = true := by
  intro copy listed first copies
  rw [posted] at listed ⊢
  have before : copy.rowId ∈ (run.devices .sender).pendingIds ∨
      ∃ other ∈ run.posted, other.rowId = copy.rowId ∧ other.toSelf = true := by
    rcases List.mem_append.mp listed with old | new
    · exact copied.both copy old first copies
    · exact more copy new first copies
  rcases before with waiting | ⟨other, otherListed, same⟩
  · exact Or.inl (waits _ waiting)
  · exact Or.inr ⟨other, List.mem_append_left _ otherListed, same⟩

/-- A failed attempt is not a sent message. -/
theorem retry_ne_sent (attempts : Nat) (receivedAt : NanoTimestamp) :
    SendPhase.retry attempts ≠ .sent receivedAt := by
  rw [SendPhase.retry]
  split <;> exact SendPhase.noConfusion

/-- A request leaves each copy with its rows. -/
theorem Copied.request (copied : run.Copied identity) (orderly : run.Orderly identity)
    {sending : Sending P} {toSelf : Bool} {attempts : Nat} {onward : NanoTimestamp → SendPhase}
    (holds : run.sending = some sending)
    (onwards : ∀ receivedAt, onward receivedAt = .second attempts ∨
      onward receivedAt = .sent receivedAt ∧
        (sending.convo.hasSelfCopy identity = true → toSelf = true))
    (requests : Requested identity run sending toSelf attempts onward next) :
    next.Copied identity := by
  cases requests with
  | failed =>
      refine ⟨copied.both, ?_, copied.kept⟩
      rintro _ receivedAt ⟨⟩ sent
      exact absurd sent (retry_ne_sent attempts receivedAt)
  | unanswered =>
      refine ⟨copied.both, ?_, copied.kept⟩
      rintro _ receivedAt ⟨⟩ sent
      exact absurd sent (retry_ne_sent attempts receivedAt)
  | answered receivedAt =>
      refine ⟨copied.both_of_posted rfl (fun _ waits => waits) ?_, ?_, copied.kept⟩
      · intro copy listed _ _
        rw [List.mem_singleton] at listed
        subst listed
        exact Or.inl (orderly.held_waits holds)
      · rintro _ time ⟨⟩ sent copies
        rcases onwards receivedAt with second | ⟨_, last⟩
        · rw [second] at sent
          cases sent
        · exact ⟨_, List.mem_append_right _ (List.mem_singleton_self _), rfl, last copies⟩

/-- A device adds rows, and has perhaps read a copy. -/
theorem Copied.write (copied : run.Copied identity) {device : Device} {db : ClientDb P}
    (adds : ClientDb.Adds (device.username identity peer) (run.devices device) db)
    {received : Device → List (ConvoId P × ShownEvent)}
    (known : ∀ other, ∀ event ∈ received other, event ∈ run.received other ∨
      other = device ∧ (device ≠ .sender → ClientDb.filing event ∈ db.contents)) :
    ({ run.setDevice device db with received := received } : SendRun P).Copied identity := by
  have grown : ∀ other, (run.devices other).contents ⊆
      ((run.setDevice device db).devices other).contents := by
    intro other
    by_cases same : other = device
    · rw [same, setDevice_same]
      exact adds.contents.subset
    · rw [setDevice_of_ne same]
      exact List.Subset.refl _
  have waits : (run.devices .sender).pendingIds ⊆
      ((run.setDevice device db).devices .sender).pendingIds := by
    by_cases same : Device.sender = device
    · rw [same, setDevice_same]
      exact adds.pendingIds_subset
    · rw [setDevice_of_ne same]
      exact List.Subset.refl _
  refine ⟨?_, copied.sent, ?_⟩
  · intro copy listed first copies
    exact (copied.both copy listed first copies).imp_left fun waiting => waits waiting
  · intro other apart event listed
    rcases known other event listed with old | ⟨rfl, filed⟩
    · exact grown other (copied.kept other apart event old)
    · dsimp only
      rw [setDevice_same]
      exact filed apart

/-- Every timely and undivided step leaves each copy with its rows. -/
theorem Copied.step (copied : run.Copied identity) (orderly : run.Orderly identity)
    (timely : run.Timely event) (undivided : run.Undivided json identity event)
    (moves : Moves json identity peer run event next) : next.Copied identity := by
  cases moves with
  | picked found =>
      refine ⟨copied.both, ?_, copied.kept⟩
      rintro _ receivedAt ⟨⟩ sent
      cases sent
  | requested holds onwards requests => exact copied.request orderly holds onwards requests
  | @landed position copy flies =>
      refine ⟨copied.both_of_posted rfl (fun _ waits => waits) ?_, ?_, copied.kept⟩
      · intro other listed first copies
        rw [List.mem_singleton] at listed
        subst listed
        rcases timely _ flies with waits | ⟨twin, twinListed, sameId, sameKind⟩
        · exact Or.inl waits
        · have stands := orderly.stands other
            (List.mem_append_right _ (List.mem_of_getElem? flies))
          have twinStands := orderly.stands twin (List.mem_append_left _ twinListed)
          rw [sameId] at twinStands
          have sameConvo := (twinStands.unique orderly.ids stands).1
          have both := copied.both twin twinListed (sameKind.trans first) (sameConvo ▸ copies)
          rwa [sameId] at both
      · intro sending receivedAt holds sent copies
        obtain ⟨other, listed, same⟩ := copied.sent sending receivedAt holds sent copies
        exact ⟨other, List.mem_append_left _ listed, same⟩
  | @recorded now err sending change holds ends convoId ids shown sent =>
      have senderDb : (run.setDevice .sender ((run.devices .sender).updateRow sending.row.id
          change)).devices .sender = (run.devices .sender).updateRow sending.row.id change :=
        setDevice_same run .sender _
      refine ⟨?_, (fun _ _ impossible => by cases impossible), ?_⟩
      · intro copy listed first copies
        dsimp only at listed ⊢
        rw [senderDb, ClientDb.mem_pendingIds_updateRow sent]
        rcases copied.both copy listed first copies with waits | second
        · by_cases same : copy.rowId = sending.row.id
          · have stands := orderly.stands copy (List.mem_append_left _ listed)
            rw [same] at stands
            have sameConvo := (stands.unique orderly.ids (orderly.copy_fits holds).1).1
            rw [sameConvo] at copies
            rw [same]
            rcases ends with ⟨receivedAt, sentPhase⟩ | failed
            · exact Or.inr (copied.sent sending receivedAt holds sentPhase copies)
            · exact Or.inr (undivided rfl sending holds failed copies ⟨copy, listed, same, first⟩)
          · exact Or.inl ⟨waits, same⟩
        · exact Or.inr second
      · intro device other event listed
        have old : (run.setDevice .sender ((run.devices .sender).updateRow sending.row.id
            change)).devices device = run.devices device := setDevice_of_ne other run _
        exact old ▸ copied.kept device other event listed
  | restarted =>
      exact ⟨copied.both, (fun _ _ impossible => by cases impossible), copied.kept⟩
  | @read device position reading copy posted =>
      have files := (reading.event copy.entry).files json (orderly.filed device)
      refine copied.write ((reading.event copy.entry).adds json (orderly.filed device)
        (device.username identity peer)) ?_
      intro other event listed
      by_cases same : other = device
      · subst same
        rw [Function.update_self, List.mem_append, Option.mem_toList] at listed
        refine listed.imp_right fun new => ⟨rfl, fun apart => ?_⟩
        rw [files.contents, new]
        exact mem_insertOrIgnore_self (undivided apart copy posted event new)
      · rw [Function.update_of_ne same] at listed
        exact Or.inl listed
  | @aside device step =>
      exact copied.write (step.adds json (orderly.filed device) _) fun _ _ listed => Or.inl listed

/-- Where each copy has its rows, each message is there once. -/
theorem Copied.exactlyOnce (copied : run.Copied identity) (orderly : run.Orderly identity)
    (convo : ConvoId P) : run.ExactlyOnce identity convo where
  sender copy listed :=
    (orderly.filed .sender).count_eq_one
      (orderly.stands copy (List.mem_append_left _ listed)).contents
  peer processed copy listed first same :=
    (orderly.filed .peer).count_eq_one
      (copied.kept .peer Device.noConfusion _ (processed copy listed first same))
  own processed copy listed first settled := by
    refine (orderly.filed .own).count_eq_one
      (copied.kept .own Device.noConfusion (copy.convo, copy.event) ?_)
    by_cases copies : copy.convo.hasSelfCopy identity = true
    · obtain ⟨other, otherListed, sameId, second⟩ :=
        (copied.both copy listed first copies).resolve_left settled
      have stands := orderly.stands copy (List.mem_append_left _ listed)
      have otherStands := orderly.stands other (List.mem_append_left _ otherListed)
      rw [sameId] at otherStands
      obtain ⟨sameConvo, sameEvent⟩ := otherStands.unique orderly.ids stands
      have read := processed other otherListed (by rw [second, sameConvo, copies])
      rwa [sameConvo, sameEvent] at read
    · rw [Bool.not_eq_true] at copies
      exact processed copy listed (first.trans copies.symm)

/-- Both conditions. -/
def Undisturbed (json : JsonReader P) (identity : Identity P) (run : SendRun P)
    (event : SendStep P) : Prop :=
  run.Timely event ∧ run.Undivided json identity event

theorem orderly_start {devices : Device → ClientDb P} (filed : ∀ device, (devices device).Filed)
    (ids : ((devices .sender).convoMessages.map ConvoMessage.id).Nodup)
    (owners : ∀ row ∈ (devices .sender).convoMessages, row.isPending = true →
      row.senderUsername = identity.username) : (start devices).Orderly identity where
  filed := filed
  ids := ids
  owners := owners
  stands _ listed := by cases listed
  low _ listed := by cases listed
  held _ impossible := by cases impossible

theorem copied_start (devices : Device → ClientDb P) : (start devices).Copied identity where
  both _ listed := by cases listed
  sent _ _ impossible := by cases impossible
  kept _ _ _ listed := by cases listed

/-- When no request lands after its message was given up, the first copies come in the order
of the queue; when besides no message is given up between its copies and no event of a copy
meets a different one with its key, every history has each posted message exactly once. -/
theorem delivered_of_undisturbed (json : JsonReader P) (identity : Identity P) (peer : UserName)
    (convo : ConvoId P) {devices : Device → ClientDb P}
    (filed : ∀ device, (devices device).Filed)
    (ids : ((devices .sender).convoMessages.map ConvoMessage.id).Nodup)
    (owners : ∀ row ∈ (devices .sender).convoMessages, row.isPending = true →
      row.senderUsername = identity.username) (events : List (SendStep P)) :
    ((machine json identity peer).Along Timely (start devices) events →
      (machine json identity peer).Always (InOrder convo) (start devices) events) ∧
    ((machine json identity peer).Along (Undisturbed json identity) (start devices) events →
      (machine json identity peer).Always (ExactlyOnce identity convo) (start devices) events) := by
  have orderly : (start devices).Orderly identity := orderly_start filed ids owners
  constructor
  · intro along before position run reached
    have kept : (machine json identity peer).Always
        (fun run => run.Orderly identity ∧ run.Ascending) (start devices) events := by
      refine Machine.always_of_along ?_ ⟨orderly, ?_⟩ along
      · rintro run event next ⟨orderly, ascending⟩ timely taken
        exact ⟨orderly.step (moves taken), ascending.step orderly timely (moves taken)⟩
      · intro toSelf convo first listed
        cases listed
    exact (kept before position run reached).2 false convo
  · intro along before position run reached
    have kept : (machine json identity peer).Always
        (fun run => run.Orderly identity ∧ run.Copied identity) (start devices) events := by
      refine Machine.always_of_along ?_ ⟨orderly, ?_⟩ along
      · rintro run event next ⟨orderly, copied⟩ ⟨timely, undivided⟩ taken
        exact ⟨orderly.step (moves taken),
          copied.step orderly timely undivided (moves taken)⟩
      · exact copied_start devices
    obtain ⟨orderlyNow, copied⟩ := kept before position run reached
    exact copied.exactlyOnce orderlyNow convo

instance (run : SendRun P) : (event : SendStep P) → Decidable (run.Timely event)
  | .land position => inferInstanceAs (Decidable (∀ copy ∈ run.inFlight[position]?, _ ∨ _))
  | .pick | .attempt .. | .record .. | .restart | .read .. | .aside .. => isTrue trivial

instance (json : JsonReader P) (identity : Identity P) (run : SendRun P) :
    (event : SendStep P) → Decidable (run.Undivided json identity event)
  | .record _ _ fails =>
      inferInstanceAs (Decidable (fails = false → ∀ sending ∈ run.sending, _ → _ → _ → _))
  | .read device position reading =>
      inferInstanceAs (Decidable (device ≠ .sender → ∀ copy ∈ run.posted[position]?,
        ∀ event ∈ ((reading.event copy.entry).process json (run.devices device)).2,
          ∀ other ∈ (run.devices device).contents, _ → _))
  | .pick | .attempt .. | .land _ | .restart | .aside .. => isTrue trivial

instance (json : JsonReader P) (identity : Identity P) (run : SendRun P) (event : SendStep P) :
    Decidable (run.Undisturbed json identity event) :=
  inferInstanceAs (Decidable (_ ∧ _))

/-- Three devices without messages. -/
def freshDevices : Device → ClientDb symbolic := fun _ => .empty

def deviceEnv (identity : Identity symbolic) : ClientEnv symbolic :=
  ⟨some identity, 6, 6, symbolicDirectory, fun _ => false⟩

/-- Alice writes to Bobby, and the loop takes the message. -/
def aliceQueues : List (SendStep symbolic) :=
  [.aside .sender (.queue (deviceEnv aliceIdentity) (.direct bobby) "text/plain" (utf8 "hi") 4),
    .pick]

/-- A request for the devices with a medium-term key. -/
def sealFor (mediumPk : UInt8) : SealInput symbolic :=
  ⟨[mediumPk], 0, symbolicKey 0, zeroNonce, none⟩

/-- An answer is lost, and the whole message is sent again before the request lands. -/
def lostAnswerRun : List (SendStep symbolic) :=
  aliceQueues ++
    [.attempt (sealFor bobbyMedium) (.unanswered 8), .attempt (sealFor bobbyMedium) (.answered 5),
      .attempt (sealFor aliceMedium) (.answered 6), .land 0, .record 9 "" false,
      .read .peer 0 (.direct (deviceEnv bobbyIdentity) (symbolicServer, .direct bobby)),
      .read .peer 2 (.direct (deviceEnv bobbyIdentity) (symbolicServer, .direct bobby)),
      .read .own 1 (.direct (deviceEnv aliceIdentity) (symbolicServer, .direct alice)),
      .read .sender 1 (.direct (deviceEnv aliceIdentity) (symbolicServer, .direct alice))]

/-- In the run the message is delivered in order and once. -/
theorem lostAnswerRun_delivered :
    (machine symbolicJson aliceIdentity bobby).Always (InOrder (.direct bobby))
        (start freshDevices) lostAnswerRun ∧
      (machine symbolicJson aliceIdentity bobby).Always
        (ExactlyOnce aliceIdentity (.direct bobby)) (start freshDevices) lostAnswerRun := by
  have delivered := delivered_of_undisturbed symbolicJson aliceIdentity bobby (.direct bobby)
    (fun _ => ClientDb.filed_empty) List.nodup_nil (fun _ listed => by cases listed) lostAnswerRun
  exact ⟨delivered.1 (by decide +kernel), delivered.2 (by decide +kernel)⟩

/-- Bobby's device reads both copies, and each device has one row. -/
example : ((machine symbolicJson aliceIdentity bobby).exec (start freshDevices)
    lostAnswerRun).map (fun run => (run.boxIds false (.direct bobby), run.received .peer,
      [Device.sender, .peer, .own].map fun device => (run.devices device).contents.length)) =
    some ([1, 1],
      [(.direct alice, ⟨alice, "text/plain", utf8 "hi", 4⟩),
        (.direct alice, ⟨alice, "text/plain", utf8 "hi", 4⟩)], [1, 1, 1]) := by decide +kernel

/-- Bobby's server answers at each attempt, and Alice's never does. -/
def dividedRun : List (SendStep symbolic) :=
  aliceQueues ++
    (List.replicate 8 [.attempt (sealFor bobbyMedium) (.answered 5),
      .attempt (sealFor aliceMedium) .refused]).flatten ++ [.record 9 "unreachable" false]

/-- A message which was posted is given up, and Alice's other device never gets it. -/
theorem dividedRun_loses :
    ¬∀ events, (machine symbolicJson aliceIdentity bobby).Always
      (fun run => run.InOrder (.direct bobby) ∧ run.ExactlyOnce aliceIdentity (.direct bobby))
      (start freshDevices) events := by
  intro always
  have ends : ((machine symbolicJson aliceIdentity bobby).exec (start freshDevices)
      dividedRun).map (fun run => (run.posted.map fun copy => (copy.rowId, copy.toSelf, copy.convo),
        (run.devices .sender).pendingIds, (run.devices .own).contents)) =
      some (List.replicate 8 (1, false, .direct bobby), [], []) := by decide +kernel
  obtain ⟨run, reached, seen⟩ := Option.map_eq_some_iff.mp ends
  simp only [Prod.mk.injEq] at seen
  obtain ⟨copies, pending, own⟩ := seen
  have alike : ∀ copy ∈ run.posted, copy.toSelf = false ∧ copy.convo = .direct bobby := by
    intro copy listed
    have here : (copy.rowId, copy.toSelf, copy.convo) ∈
        List.replicate 8 (1, false, ConvoId.direct bobby) :=
      copies ▸ List.mem_map_of_mem listed
    have same := List.eq_of_mem_replicate here
    simp only [Prod.mk.injEq] at same
    exact same.2
  have posted : ∃ copy, copy ∈ run.posted := by
    apply List.exists_mem_of_ne_nil
    rintro empty
    rw [empty] at copies
    cases copies
  obtain ⟨copy, listed⟩ := posted
  have processed : run.OwnProcessed aliceIdentity := by
    intro other otherListed second
    obtain ⟨first, convo⟩ := alike other otherListed
    rw [first, convo] at second
    exact absurd second (by decide)
  have once := ((always _).last reached).2.own processed copy listed (alike copy listed).1
    (by rw [pending]; exact List.not_mem_nil)
  rw [own] at once
  cases once

/-- A request lands after its message was given up, and behind the next message. -/
def lateRun : List (SendStep symbolic) :=
  aliceQueues ++ .attempt (sealFor bobbyMedium) (.unanswered 20) ::
    List.replicate 7 (.attempt (sealFor bobbyMedium) .refused) ++
      [.record 9 "unreachable" false,
        .aside .sender (.queue (deviceEnv aliceIdentity) (.direct bobby) "text/plain"
          (utf8 "hello?") 10),
        .pick, .attempt (sealFor bobbyMedium) (.answered 11), .land 0]

example : ((machine symbolicJson aliceIdentity bobby).exec (start freshDevices) lateRun).map
    (fun run => run.boxIds false (.direct bobby)) = some [2, 1] := by decide +kernel

end SendRun
end Nullspace
