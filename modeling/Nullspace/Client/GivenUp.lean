import Nullspace.Base.Retry
import Nullspace.Client.SendLoop

/-!
# Direct messages which are given up

`send_dm` posts to the peer and then to the user, and `retry_backoff` runs it up to eight
times from its beginning. Here a post either stores its entry and is answered, or stores
nothing and is an error. `undelivered_iff` says for which patterns of posts a message that is
shown as failed did not reach the peer; the send loop's machine runs the same attempts.
-/

namespace Nullspace

open Nullspace.Base

variable {P : Primitives}

/-- What a call of `send_dm_once` meets. -/
structure PostTry (P : Primitives) where
  /-- An error before anything is sealed. -/
  fails : Option String
  input : SealInput P
  /-- `v1_mailbox_send`. -/
  answer : Except String NanoTimestamp

/-- What a call of `send_dm` meets. -/
structure DmTry (P : Primitives) where
  peer : PostTry P
  self : PostTry P

/-- `send_dm_once`, with the mailboxes' entries which are copies of messages. -/
def sendDmOnce (identity : Identity P) (row : ConvoMessage) (peer : UserName) (toSelf : Bool)
    (attempt : PostTry P) (posted : List (MessageCopy P)) :
    List (MessageCopy P) × Except String NanoTimestamp :=
  match attempt.fails with
  | some err => (posted, .error err)
  | none =>
      match identity.sealDirect attempt.input (row.content (P := P) (.direct peer)) with
      | none =>
          (posted, .error ("failed to encrypt DM for " ++
            if toSelf then identity.username.str else peer.str))
      | some message =>
          match attempt.answer with
          | .error err => (posted, .error err)
          | .ok receivedAt =>
              (posted ++ [⟨row.id, .direct peer, toSelf,
                (row.content (P := P) (.direct peer)).shown identity.username,
                ⟨message, receivedAt, attempt.input.senderAuthTokenHash⟩⟩], .ok receivedAt)

/-- `send_dm`. -/
def sendDm (identity : Identity P) (row : ConvoMessage) (peer : UserName) (attempt : DmTry P)
    (posted : List (MessageCopy P)) : List (MessageCopy P) × Except String NanoTimestamp :=
  match sendDmOnce identity row peer false attempt.peer posted with
  | (posted, .error err) => (posted, .error err)
  | (posted, .ok peerReceivedAt) =>
      if identity.username ≠ peer then sendDmOnce identity row peer true attempt.self posted
      else (posted, .ok peerReceivedAt)

/-- What `send_loop_once` does about a message, with all that its attempts meet. -/
def sendTurn (identity : Identity P) (row : ConvoMessage) (peer : UserName)
    (pattern : Nat → DmTry P) (now : NanoTimestamp) (db : ClientDb P)
    (posted : List (MessageCopy P)) : ClientDb P × List (MessageCopy P) :=
  match retry (fun attempt => sendDm identity row peer (pattern attempt)) 7 0 posted with
  | (posted, .ok receivedAt) => (db.markMessageSent row.id receivedAt, posted)
  | (posted, .error err) => (db.markMessageFailed row.id err now, posted)

/-- A copy of the message is in the peer's mailbox. -/
def InPeerMailbox (peer : UserName) (id : Nat) (posted : List (MessageCopy P)) : Prop :=
  ∃ copy ∈ posted, copy.rowId = id ∧ copy.convo = .direct peer ∧ copy.toSelf = false

/-- The message is shown with an error. -/
def ClientDb.ShownFailed (db : ClientDb P) (id : Nat) : Prop :=
  ∃ row ∈ db.convoMessages, row.id = id ∧ row.sendError ≠ none

/-- The post stores its entry. -/
def PostTry.Stores (identity : Identity P) (row : ConvoMessage) (peer : UserName)
    (attempt : PostTry P) : Prop :=
  attempt.fails = none ∧
    (identity.sealDirect attempt.input (row.content (.direct peer))).isSome = true ∧
    Succeeds attempt.answer

/-- Both posts store their entries; a message to oneself has one. -/
def DmTry.Completes (identity : Identity P) (row : ConvoMessage) (peer : UserName)
    (attempt : DmTry P) : Prop :=
  attempt.peer.Stores identity row peer ∧
    (identity.username ≠ peer → attempt.self.Stores identity row peer)

section

variable (identity : Identity P) (row : ConvoMessage) (peer : UserName)

/-- A post stores its copy, or stores nothing and fails. -/
theorem sendDmOnce_cases (toSelf : Bool) (attempt : PostTry P) (posted : List (MessageCopy P)) :
    (¬attempt.Stores identity row peer ∧
      ∃ err, sendDmOnce identity row peer toSelf attempt posted = (posted, .error err)) ∨
    attempt.Stores identity row peer ∧ ∃ copy receivedAt,
      sendDmOnce identity row peer toSelf attempt posted = (posted ++ [copy], .ok receivedAt) ∧
        copy.rowId = row.id ∧ copy.convo = .direct peer ∧ copy.toSelf = toSelf := by
  rw [sendDmOnce, PostTry.Stores]
  cases attempt.fails with
  | some err => exact .inl ⟨(fun stores => by cases stores.1), err, rfl⟩
  | none =>
      cases identity.sealDirect attempt.input (row.content (.direct peer)) with
      | none => exact .inl ⟨(fun stores => by cases stores.2.1), _, rfl⟩
      | some message =>
          cases attempt.answer with
          | error err =>
              refine .inl ⟨?_, err, rfl⟩
              rintro ⟨_, _, receivedAt, answered⟩
              cases answered
          | ok receivedAt => exact .inr ⟨⟨rfl, rfl, receivedAt, rfl⟩, _, receivedAt, rfl, rfl, rfl, rfl⟩

/-- An attempt succeeds exactly when both posts store their entries. -/
theorem sendDm_succeeds (attempt : DmTry P) (posted : List (MessageCopy P)) :
    Succeeds (sendDm identity row peer attempt posted).2 ↔ attempt.Completes identity row peer := by
  rw [sendDm, DmTry.Completes]
  rcases sendDmOnce_cases identity row peer false attempt.peer posted with
    ⟨missing, err, sent⟩ | ⟨stores, copy, receivedAt, sent, _⟩
  · rw [sent]
    refine iff_of_false ?_ fun completes => missing completes.1
    rintro ⟨_, answered⟩
    cases answered
  · simp only [sent]
    by_cases own : identity.username = peer
    · rw [if_neg (not_not.mpr own)]
      exact iff_of_true ⟨receivedAt, rfl⟩ ⟨stores, fun apart => absurd own apart⟩
    · rw [if_pos own]
      rcases sendDmOnce_cases identity row peer true attempt.self (posted ++ [copy]) with
        ⟨missing, err, second⟩ | ⟨second, other, receivedAt, both, _⟩
      · rw [second]
        refine iff_of_false ?_ fun completes => missing (completes.2 own)
        rintro ⟨_, answered⟩
        cases answered
      · rw [both]
        exact iff_of_true ⟨receivedAt, rfl⟩ ⟨stores, fun _ => second⟩

/-- An attempt leaves a copy with the peer exactly when its first post is stored. -/
theorem sendDm_posted (attempt : DmTry P) (posted : List (MessageCopy P)) :
    InPeerMailbox peer row.id (sendDm identity row peer attempt posted).1 ↔
      InPeerMailbox peer row.id posted ∨ attempt.peer.Stores identity row peer := by
  rw [sendDm]
  rcases sendDmOnce_cases identity row peer false attempt.peer posted with
    ⟨missing, err, sent⟩ | ⟨stores, copy, receivedAt, sent, id, convo, first⟩
  · rw [sent, or_iff_left missing]
  · simp only [sent]
    have listed : InPeerMailbox peer row.id (posted ++ [copy]) :=
      ⟨copy, List.mem_append_right _ (List.mem_singleton_self copy), id, convo, first⟩
    refine iff_of_true ?_ (.inr stores)
    split
    · rcases sendDmOnce_cases identity row peer true attempt.self (posted ++ [copy]) with
        ⟨_, err, second⟩ | ⟨_, other, receivedAt, both, _⟩
      · rw [second]
        exact listed
      · rw [both]
        obtain ⟨held, member, kept⟩ := listed
        exact ⟨held, List.mem_append_left _ member, kept⟩
    · exact listed

end

section

variable {identity : Identity P} {row : ConvoMessage} {peer : UserName} {db : ClientDb P}

/-- The turn ends with an error exactly when the row is shown with one. -/
theorem shownFailed_sendTurn (picked : db.nextPendingMessage = some (row, .direct peer))
    (unique : (db.convoMessages.map ConvoMessage.id).Nodup) (pattern : Nat → DmTry P)
    (now : NanoTimestamp) (posted : List (MessageCopy P)) :
    (sendTurn identity row peer pattern now db posted).1.ShownFailed row.id ↔
      ¬Succeeds (retry (fun attempt => sendDm identity row peer (pattern attempt)) 7 0 posted).2 := by
  obtain ⟨joined, pending, -⟩ := ClientDb.nextPendingMessage_eq_some picked
  obtain ⟨listed, -⟩ := ClientDb.mem_joinedMessages.mp joined
  have spotless : row.sendError = none := by
    rw [ConvoMessage.isPending, Bool.and_eq_true, Option.isNone_iff_eq_none,
      Option.isNone_iff_eq_none] at pending
    exact pending.2
  rw [sendTurn]
  split <;> rename_i ended
  · rw [ended]
    refine iff_of_false ?_ fun failed => failed ⟨_, rfl⟩
    rintro ⟨shown, member, same, failed⟩
    obtain ⟨old, stored, rfl⟩ := List.mem_map.mp member
    have own : old = row := by
      apply List.inj_on_of_nodup_map unique stored listed
      split at same <;> exact same
    subst own
    rw [if_pos rfl] at failed
    exact failed spotless
  · rw [ended]
    refine iff_of_true ⟨_, List.mem_map.mpr ⟨row, listed, rfl⟩, ?_, ?_⟩ ?_
    · rw [if_pos rfl]
    · rw [if_pos rfl]
      exact Option.some_ne_none _
    · rintro ⟨_, answered⟩
      cases answered

/-- What a turn posts is what its attempts do. -/
theorem posted_sendTurn (pattern : Nat → DmTry P) (now : NanoTimestamp)
    (posted : List (MessageCopy P)) :
    (sendTurn identity row peer pattern now db posted).2 =
      (retry (fun attempt => sendDm identity row peer (pattern attempt)) 7 0 posted).1 := by
  rw [sendTurn]
  split <;> rename_i ended <;> rw [ended]

/-- A message which is shown as failed did not reach the peer, exactly when one of the eight
attempts would have stored both copies, or none of them the peer's. -/
theorem undelivered_iff (picked : db.nextPendingMessage = some (row, .direct peer))
    (unique : (db.convoMessages.map ConvoMessage.id).Nodup) (pattern : Nat → DmTry P)
    (now : NanoTimestamp) (posted : List (MessageCopy P)) :
    ((sendTurn identity row peer pattern now db posted).1.ShownFailed row.id →
        ¬InPeerMailbox peer row.id (sendTurn identity row peer pattern now db posted).2) ↔
      (∃ attempt < 8, (pattern attempt).Completes identity row peer) ∨
        ¬InPeerMailbox peer row.id posted ∧
          ∀ attempt < 8, ¬(pattern attempt).peer.Stores identity row peer := by
  have succeeds := retry_ok_iff
    (fun attempt state => sendDm_succeeds identity row peer (pattern attempt) state) 7 0 posted
  have range : ∀ attempts : Nat → Prop, (∃ later, 0 ≤ later ∧ later ≤ 0 + 7 ∧ attempts later) ↔
      ∃ later < 8, attempts later := by
    intro attempts
    refine exists_congr fun later => ?_
    rw [and_iff_right (Nat.zero_le later), Nat.zero_add, Nat.lt_succ_iff]
  rw [range] at succeeds
  rw [shownFailed_sendTurn picked unique, posted_sendTurn, ← succeeds]
  by_cases success : Succeeds
      (retry (fun attempt => sendDm identity row peer (pattern attempt)) 7 0 posted).2
  · exact iff_of_true (fun failed => absurd success failed) (.inl success)
  · have left := retry_holds_iff
      (fun attempt state => sendDm_posted identity row peer (pattern attempt) state) 7 0 posted
      success
    rw [range] at left
    rw [imp_iff_right success, left, or_iff_right success, not_or]
    simp only [not_exists, not_and]

end

/-- Alice's device with a message to Bobby which waits. -/
def queuedDb : ClientDb symbolic :=
  (ClientDb.empty.queueMessage symbolicJson ⟨some aliceIdentity, 4, 4, symbolicDirectory,
    fun _ => false⟩ (.direct bobby) alice "text/plain" (utf8 "hi") 4).1

def queuedRow : ConvoMessage := ⟨1, 1, alice, "text/plain", utf8 "hi", 4, none, none⟩

theorem queuedDb_picked : queuedDb.nextPendingMessage = some (queuedRow, .direct bobby) := by
  decide +kernel

theorem queuedDb_unique : (queuedDb.convoMessages.map ConvoMessage.id).Nodup := by
  decide +kernel

/-- A post for one key. -/
def postFor (mediumPk : UInt8) (answer : Except String NanoTimestamp) : PostTry symbolic :=
  ⟨none, ⟨[mediumPk], (9 : UInt8), symbolicKey 5, zeroNonce, none⟩, answer⟩

/-- Bobby's server stores its entry each time, and Alice's own server is not reached before a
certain attempt. -/
def reachedFrom (attempts attempt : Nat) : DmTry symbolic :=
  ⟨postFor bobbyMedium (.ok 5),
    postFor aliceMedium (if attempt < attempts then .error "unreachable" else .ok 6)⟩

theorem undelivered_iff_second :
    ¬((sendTurn aliceIdentity queuedRow bobby (reachedFrom 1) 9 queuedDb []).1.ShownFailed 1 ∧
      InPeerMailbox bobby 1
        (sendTurn aliceIdentity queuedRow bobby (reachedFrom 1) 9 queuedDb []).2) := by
  rw [not_and]
  refine (undelivered_iff queuedDb_picked queuedDb_unique (reachedFrom 1) 9 []).mpr
    (.inl ⟨1, by decide, ⟨rfl, by decide +kernel, 5, rfl⟩, fun _ => ⟨rfl, by decide +kernel, 6, rfl⟩⟩)

/-- In all eight attempts the first post is stored and the second is not. -/
theorem givenUp_delivered :
    queuedDb.nextPendingMessage = some (queuedRow, .direct bobby) ∧
      (queuedDb.convoMessages.map ConvoMessage.id).Nodup ∧
      ¬((sendTurn aliceIdentity queuedRow bobby (reachedFrom 8) 9 queuedDb []).1.ShownFailed 1 →
        ¬InPeerMailbox bobby 1
          (sendTurn aliceIdentity queuedRow bobby (reachedFrom 8) 9 queuedDb []).2) := by
  refine ⟨queuedDb_picked, queuedDb_unique, fun undelivered => ?_⟩
  have shown : (sendTurn aliceIdentity queuedRow bobby (reachedFrom 8) 9 queuedDb
      []).1.convoMessages = [{ queuedRow with
        sendError := some "unreachable", receivedAt := some 9 }] := by decide +kernel
  have copies : (sendTurn aliceIdentity queuedRow bobby (reachedFrom 8) 9 queuedDb []).2.map
      (fun copy => (copy.rowId, copy.convo, copy.toSelf)) =
        List.replicate 8 (1, .direct bobby, false) := by decide +kernel
  refine undelivered ⟨_, shown ▸ List.mem_singleton_self _, rfl, Option.some_ne_none _⟩ ?_
  have listed : ((1, .direct bobby, false) : Nat × ConvoId symbolic × Bool) ∈
      (sendTurn aliceIdentity queuedRow bobby (reachedFrom 8) 9 queuedDb []).2.map
        (fun copy => (copy.rowId, copy.convo, copy.toSelf)) := by
    rw [copies]
    exact List.mem_cons_self
  obtain ⟨copy, member, same⟩ := List.mem_map.mp listed
  simp only [Prod.mk.injEq] at same
  exact ⟨copy, member, same⟩

/-- How the machine's request ends. -/
def PostTry.outcome (attempt : PostTry P) : SendOutcome :=
  match attempt.fails, attempt.answer with
  | none, .ok receivedAt => .answered receivedAt
  | none, .error _ => .refused
  | some _, _ => .refused

/-- A post as a step of the machine. -/
def PostTry.step (attempt : PostTry P) : SendStep P := .attempt attempt.input attempt.outcome

/-- The posts of an attempt: the second is made after the first was stored. -/
def DmTry.steps (identity : Identity P) (row : ConvoMessage) (peer : UserName)
    (attempt : DmTry P) : List (SendStep P) :=
  match (sendDmOnce identity row peer false attempt.peer []).2 with
  | .error _ => [attempt.peer.step]
  | .ok _ =>
      if identity.username ≠ peer then [attempt.peer.step, attempt.self.step]
      else [attempt.peer.step]

/-- The posts of all attempts which are made. -/
def turnSteps (identity : Identity P) (row : ConvoMessage) (peer : UserName)
    (pattern : Nat → DmTry P) : Nat → Nat → List (SendStep P)
  | 0, attempt => (pattern attempt).steps identity row peer
  | more + 1, attempt =>
      match (sendDm identity row peer (pattern attempt) []).2 with
      | .ok _ => (pattern attempt).steps identity row peer
      | .error _ =>
          (pattern attempt).steps identity row peer ++
            turnSteps identity row peer pattern more (attempt + 1)

/-- Where the machine goes from the end of a post or of an attempt. -/
def SendPhase.after (done : NanoTimestamp → SendPhase) (otherwise : SendPhase) :
    Except String NanoTimestamp → SendPhase
  | .ok receivedAt => done receivedAt
  | .error _ => otherwise

namespace SendRun

variable (identity : Identity P) (row : ConvoMessage) (peer : UserName)

/-- How a post ends does not depend on what was posted before. -/
theorem sendDmOnce_answer (toSelf : Bool) (attempt : PostTry P) (posted : List (MessageCopy P)) :
    (sendDmOnce identity row peer toSelf attempt posted).2 =
      (sendDmOnce identity row peer toSelf attempt []).2 := by
  simp only [sendDmOnce]
  split
  · rfl
  · split
    · rfl
    · split <;> rfl

/-- How an attempt ends does not depend on what was posted before. -/
theorem sendDm_answer (attempt : DmTry P) (posted : List (MessageCopy P)) :
    (sendDm identity row peer attempt posted).2 = (sendDm identity row peer attempt []).2 := by
  have first := sendDmOnce_answer identity row peer false attempt.peer posted
  rw [sendDm, sendDm]
  cases sent : sendDmOnce identity row peer false attempt.peer posted with
  | mk next outcome =>
      cases again : sendDmOnce identity row peer false attempt.peer [] with
      | mk other same =>
          rw [sent, again] at first
          cases first
          cases outcome with
          | error err => rfl
          | ok receivedAt =>
              dsimp only
              split
              · rw [sendDmOnce_answer, sendDmOnce_answer _ _ _ _ _ other]
              · rfl

/-- A post is a request of the machine. -/
theorem request_post (run : SendRun P) (toSelf : Bool) (attempts : Nat) (attempt : PostTry P)
    (phase : SendPhase) (next : NanoTimestamp → SendPhase) :
    run.request identity ⟨row, .direct peer, phase⟩ toSelf attempts attempt.input next
        attempt.outcome =
      { run with
        sending := some ⟨row, .direct peer, .after next (.retry attempts)
          (sendDmOnce identity row peer toSelf attempt run.posted).2⟩
        posted := (sendDmOnce identity row peer toSelf attempt run.posted).1 } := by
  rw [PostTry.outcome, sendDmOnce]
  cases attempt.fails with
  | some err => rfl
  | none =>
      cases sealed : identity.sealDirect attempt.input (row.content (P := P) (.direct peer)) with
      | none =>
          cases attempt.answer with
          | error err => rfl
          | ok receivedAt =>
              simp only [request, ClientDb.sealCopy, sealed]
              rfl
      | some message =>
          cases attempt.answer with
          | error err => rfl
          | ok receivedAt =>
              simp only [request, ClientDb.sealCopy, sealed]
              rfl

variable (json : JsonReader P) (name : UserName)

/-- An attempt of `send_dm` is what the machine does from `first` on. -/
theorem exec_steps (run : SendRun P) (attempts : Nat) (attempt : DmTry P) :
    (machine json identity name).exec
        { run with sending := some ⟨row, .direct peer, .first attempts⟩ }
        (attempt.steps identity row peer) =
      some { run with
        sending := some ⟨row, .direct peer, .after .sent (.retry attempts)
          (sendDm identity row peer attempt run.posted).2⟩
        posted := (sendDm identity row peer attempt run.posted).1 } := by
  have first := request_post identity row peer
    { run with sending := some ⟨row, .direct peer, .first attempts⟩ } false attempts attempt.peer
    (.first attempts) fun receivedAt =>
      if (ConvoId.direct peer : ConvoId P).hasSelfCopy identity then .second attempts
      else .sent receivedAt
  rw [DmTry.steps, ← sendDmOnce_answer identity row peer false attempt.peer run.posted, sendDm]
  dsimp only at first
  cases sent : sendDmOnce identity row peer false attempt.peer run.posted with
  | mk posted outcome =>
      rw [sent] at first
      cases outcome with
      | error err =>
          rw [Machine.exec_cons, PostTry.step]
          simp only [machine, first]
          rfl
      | ok receivedAt =>
          have taken : (machine json identity name).step
              { run with sending := some ⟨row, .direct peer, .first attempts⟩ } attempt.peer.step =
              some { run with
                sending := some ⟨row, .direct peer,
                  if (ConvoId.direct peer : ConvoId P).hasSelfCopy identity then .second attempts
                  else .sent receivedAt⟩
                posted := posted } := congrArg some first
          dsimp only
          by_cases apart : identity.username ≠ peer
          · have second := request_post identity row peer
              { run with
                sending := some ⟨row, .direct peer, .second attempts⟩, posted := posted }
              true attempts attempt.self (.second attempts) .sent
            have copies : (ConvoId.direct peer : ConvoId P).hasSelfCopy identity = true :=
              decide_eq_true apart
            rw [if_pos apart, if_pos apart, Machine.exec_cons, taken, copies, if_pos rfl]
            exact congrArg some second
          · have alone : (ConvoId.direct peer : ConvoId P).hasSelfCopy identity = false :=
              decide_eq_false apart
            rw [if_neg apart, if_neg apart, Machine.exec_cons, taken, alone,
              if_neg Bool.false_ne_true]
            rfl

/-- The attempts of a turn are a run of the machine. -/
theorem exec_turnSteps (pattern : Nat → DmTry P) (more attempt : Nat) (run : SendRun P)
    (eight : attempt + more = 7) :
    (machine json identity name).exec
        { run with sending := some ⟨row, .direct peer, .first attempt⟩ }
        (turnSteps identity row peer pattern more attempt) =
      some { run with
        sending := some ⟨row, .direct peer, .after .sent .failed
          (retry (fun attempt => sendDm identity row peer (pattern attempt)) more attempt
            run.posted).2⟩
        posted := (retry (fun attempt => sendDm identity row peer (pattern attempt)) more attempt
          run.posted).1 } := by
  induction more generalizing attempt run with
  | zero =>
      have last : SendPhase.retry attempt = .failed := if_neg (by omega)
      rw [turnSteps, exec_steps, last]
      rfl
  | succ more ih =>
      have again : SendPhase.retry attempt = .first (attempt + 1) := if_pos (by omega)
      have answered := sendDm_answer identity row peer (pattern attempt) run.posted
      have made := exec_steps identity row peer json name run attempt (pattern attempt)
      rw [turnSteps, ← answered, retry]
      cases sent : sendDm identity row peer (pattern attempt) run.posted with
      | mk posted outcome =>
          rw [sent] at made
          cases outcome with
          | ok receivedAt => exact made
          | error err =>
              dsimp only
              rw [Machine.exec_append, made, Option.bind_some]
              simp only [SendPhase.after, again]
              exact ih (attempt + 1) { run with posted := posted } (by omega)

/-- A turn is a run of the machine which ends with the record of what came of it. -/
theorem exec_sendTurn (pattern : Nat → DmTry P) (now : NanoTimestamp) (run : SendRun P) :
    ∃ err, (machine json identity name).exec
        { run with sending := some ⟨row, .direct peer, .first 0⟩ }
        (turnSteps identity row peer pattern 7 0 ++ [.record now err false]) =
      some { run.setDevice .sender
          (sendTurn identity row peer pattern now (run.devices .sender) run.posted).1 with
        sending := none
        posted := (sendTurn identity row peer pattern now (run.devices .sender) run.posted).2 } := by
  have made := exec_turnSteps identity row peer json name pattern 7 0 run rfl
  rw [sendTurn]
  cases ended : retry (fun attempt => sendDm identity row peer (pattern attempt)) 7 0 run.posted with
  | mk posted outcome =>
      rw [ended] at made
      cases outcome with
      | ok receivedAt =>
          refine ⟨"", ?_⟩
          rw [Machine.exec_append, made]
          rfl
      | error err =>
          refine ⟨err, ?_⟩
          rw [Machine.exec_append, made]
          rfl

end SendRun
end Nullspace
