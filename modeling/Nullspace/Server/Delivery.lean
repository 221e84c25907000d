import Nullspace.Server.TokenSecrecy

/-!
# Delivery to one receiver

Any number of sends, each a clock reading (behind a `BEGIN` which takes no lock) and a later
commit, interleave with a receiver which reads one mailbox page by page and continues behind
the last entry it got, and with every other call. Clock readings are arbitrary.

An entry's place in the receiver's order is its sender's clock reading, fixed before the
commit; `delivers_iff` says that the only way to lose an entry is to commit one at or
below a cursor which was handed out meanwhile. Times are compared as the server compares
them, through `asI64`.
-/

namespace Nullspace

open Nullspace.Base

variable {P : Primitives}

/-- A send which has read the clock. -/
structure PendingSend (P : Primitives) where
  now : NanoTimestamp
  auth : AuthToken
  mailbox : MailboxId P
  message : Blob
  ttl : UInt32

/-- The receiver: whose mailbox, and with which token. -/
structure Receiver (P : Primitives) where
  mailbox : MailboxId P
  auth : AuthToken

structure MailRun (P : Primitives) where
  db : ServerDb P
  sending : Table Nat (PendingSend P)
  /-- The receiver's cursor. -/
  after : NanoTimestamp
  /-- The ids of the entries which the receiver got. -/
  returned : List Nat

inductive MailEvent (P : Primitives) where
  | sendClock (call : Nat) (send : PendingSend P)
  | sendCommit (call : Nat) (dbFails : Bool)
  /-- One polling transaction of the receiver's `mailbox_multirecv`; an idle one repeats. -/
  | receive (now : NanoTimestamp) (dbFails : Bool)
  /-- Any call but a send. -/
  | other (env : CallEnv P) (request : ServerRequest P)

/-- A send is two events of its own, so it is refused among the other calls. -/
def ServerRequest.isSend : ServerRequest P → Bool
  | .mailboxSend _ _ _ _ => true
  | _ => false

/-- The send's transaction finds the right to send, the mailbox, and no entry of the same time. -/
def PendingSend.Admissible (send : PendingSend P) (db : ServerDb P) : Prop :=
  ((db.purgeExpiredEntries send.now).aclForToken send.mailbox send.auth).canSend = true ∧
    send.mailbox ∈ db.mailboxes ∧
    ∀ row ∈ (db.purgeExpiredEntries send.now).mailboxEntries, row.mailboxId = send.mailbox →
      row.receivedAt ≠ send.now

namespace MailRun

/-- A receiver which starts over an empty server. -/
def fresh : MailRun P := ⟨.empty, ∅, 0, []⟩

/-- The server and the receiver as a machine. -/
def machine (config : ServerConfig) (receiver : Receiver P) : Machine (MailRun P) (MailEvent P) where
  step state
    | .sendClock call send =>
        if call ∈ state.sending then none
        else some { state with sending := state.sending.insert call send }
    | .sendCommit call dbFails =>
        match state.sending.lookup call with
        | none => none
        | some send =>
            some { state with
              db := (state.db.mailboxSend send.now dbFails send.auth send.mailbox send.message
                send.ttl).1
              sending := state.sending.erase call }
    | .receive now dbFails =>
        if dbFails then some state
        else
          match state.db.pollMailbox now ⟨receiver.auth, receiver.mailbox, state.after⟩ with
          | (db, .error _) => some { state with db := db }
          | (db, .ok rows) =>
              match rows.getLast? with
              | none => some { state with db := db }
              | some last =>
                  some { state with
                    db := db
                    after := last.receivedAt
                    returned := state.returned ++ rows.map EntryRow.entryId }
    | .other env request =>
        if request.isSend then none
        else some { state with db := (state.db.handle config env request).1 }

/-- No entry was returned twice, and every stored entry of the mailbox which was not
returned yet and which has not expired, by whichever clock reading, is still ahead of
the cursor. -/
structure Delivers (receiver : Receiver P) (state : MailRun P) : Prop where
  once : state.returned.Nodup
  ahead : ∀ now, ∀ row ∈ state.db.mailboxEntries, row.mailboxId = receiver.mailbox →
    expiredAt now row.expiresAt = false → row.entryId ∉ state.returned →
      asI64 state.after < asI64 row.receivedAt

/-- A send which commits an entry of the mailbox has a clock reading ahead of the cursor. -/
def Ahead (receiver : Receiver P) (state : MailRun P) : MailEvent P → Prop
  | .sendCommit call dbFails => ∀ send, state.sending.lookup call = some send →
      dbFails = false → send.mailbox = receiver.mailbox → send.Admissible state.db →
        ∀ now, expiredAt now (expiresAtFromTtl send.now send.ttl) = false →
          asI64 state.after < asI64 send.now
  | _ => True

/-- The invariant: entries are told apart by their ids, and in one mailbox by their
times; what was returned is at or below the cursor. -/
structure Ordered (receiver : Receiver P) (state : MailRun P) : Prop where
  delivers : state.Delivers receiver
  ids : (state.db.mailboxEntries.map EntryRow.entryId).Nodup
  times : state.db.mailboxEntries.Pairwise fun first second =>
    first.mailboxId = second.mailboxId → first.receivedAt ≠ second.receivedAt
  bounded : ∀ row ∈ state.db.mailboxEntries, row.entryId < state.db.nextEntryId
  past : ∀ entryId ∈ state.returned, entryId < state.db.nextEntryId
  behind : ∀ row ∈ state.db.mailboxEntries, row.entryId ∈ state.returned →
    asI64 row.receivedAt ≤ asI64 state.after

theorem ordered_fresh (receiver : Receiver P) : (fresh (P := P)).Ordered receiver where
  delivers := ⟨List.nodup_nil, fun _ _ listed => by simp [fresh, ServerDb.empty] at listed⟩
  ids := List.nodup_nil
  times := .nil
  bounded _ listed := by simp [fresh, ServerDb.empty] at listed
  past _ listed := by simp [fresh] at listed
  behind _ listed := by simp [fresh, ServerDb.empty] at listed

/-- Losing expired entries keeps the invariant. -/
theorem Ordered.of_sublist {receiver : Receiver P} {state : MailRun P} {db : ServerDb P}
    (ordered : state.Ordered receiver) (entries : db.mailboxEntries.Sublist state.db.mailboxEntries)
    (entryId : db.nextEntryId = state.db.nextEntryId) (sending : Table Nat (PendingSend P)) :
    Ordered receiver { state with db := db, sending := sending } where
  delivers := ⟨ordered.delivers.once, fun now row listed =>
    ordered.delivers.ahead now row (entries.subset listed)⟩
  ids := ordered.ids.sublist (entries.map _)
  times := ordered.times.sublist entries
  bounded row listed := entryId ▸ ordered.bounded row (entries.subset listed)
  past id listed := entryId ▸ ordered.past id listed
  behind row listed := ordered.behind row (entries.subset listed)

/-! ## Steps and runs -/

/-- Entries are returned in the order of their times. -/
theorem pairwise_entriesAfter (db : ServerDb P) (now after : NanoTimestamp)
    (mailbox : MailboxId P) :
    (db.entriesAfter now mailbox after).Pairwise ServerDb.entryLe := by
  have total := ServerDb.entryLe_total (P := P)
  have transitive := ServerDb.entryLe_trans (P := P)
  exact List.pairwise_insertionSort _ _

/-- The rows of a page are at or below its last one, and the rows behind the page above. -/
theorem page_bounds {db : ServerDb P} {now after : NanoTimestamp} {mailbox : MailboxId P}
    {last : EntryRow P}
    (ended : ((db.entriesAfter now mailbox after).take ServerDb.pageLimit).getLast? = some last) :
    (∀ row ∈ (db.entriesAfter now mailbox after).take ServerDb.pageLimit,
      asI64 row.receivedAt ≤ asI64 last.receivedAt) ∧
    ∀ row ∈ (db.entriesAfter now mailbox after).drop ServerDb.pageLimit,
      asI64 last.receivedAt ≤ asI64 row.receivedAt := by
  have sorted := pairwise_entriesAfter db now after mailbox
  rw [← List.take_append_drop ServerDb.pageLimit (db.entriesAfter now mailbox after),
    List.pairwise_append] at sorted
  obtain ⟨within, _, across⟩ := sorted
  obtain ⟨front, page⟩ := List.getLast?_eq_some_iff.mp ended
  have lastListed : last ∈ (db.entriesAfter now mailbox after).take ServerDb.pageLimit := by
    rw [page]
    exact List.mem_append_right _ List.mem_cons_self
  have weaken : ∀ first second : EntryRow P, ServerDb.entryLe first second →
      asI64 first.receivedAt ≤ asI64 second.receivedAt := by
    intro first second
    simp only [ServerDb.entryLe]
    omega
  constructor
  · intro row listed
    rw [page] at listed within
    rcases List.mem_append.mp listed with earlier | same
    · exact weaken row last ((List.pairwise_append.mp within).2.2 row earlier last List.mem_cons_self)
    · rw [List.mem_singleton.mp same]
  · intro row listed
    exact weaken last row (across last lastListed row listed)

/-- Entries of one mailbox are told apart by their times. -/
theorem Ordered.eq_of_time {receiver : Receiver P} {state : MailRun P}
    (ordered : state.Ordered receiver) {first second : EntryRow P}
    (firstListed : first ∈ state.db.mailboxEntries) (secondListed : second ∈ state.db.mailboxEntries)
    (mailboxes : first.mailboxId = second.mailboxId)
    (sameTime : asI64 first.receivedAt = asI64 second.receivedAt) : first = second := by
  by_contra different
  have symmetric : Std.Symm fun first second : EntryRow P =>
      first.mailboxId = second.mailboxId → first.receivedAt ≠ second.receivedAt :=
    ⟨fun first second distinct mailboxes same => distinct mailboxes.symm same.symm⟩
  have apart := ordered.times.forall firstListed secondListed different
  exact apart mailboxes (asI64_inj.mp sameTime)

/-- A page keeps the invariant: it takes what comes next, and the cursor follows it. -/
theorem Ordered.receivePage {receiver : Receiver P} {state : MailRun P} {now : NanoTimestamp}
    {last : EntryRow P} (ordered : state.Ordered receiver)
    (ended : ((state.db.entriesAfter now receiver.mailbox state.after).take
      ServerDb.pageLimit).getLast? = some last)
    (unexpired : ∀ row ∈ state.db.mailboxEntries, expiredAt now row.expiresAt = false) :
    Ordered receiver { state with
      after := last.receivedAt
      returned := state.returned ++ ((state.db.entriesAfter now receiver.mailbox state.after).take
        ServerDb.pageLimit).map EntryRow.entryId } := by
  obtain ⟨below, above⟩ := page_bounds ended
  have pageSubset : ∀ row ∈ (state.db.entriesAfter now receiver.mailbox state.after).take
      ServerDb.pageLimit, row ∈ state.db.mailboxEntries ∧ row.mailboxId = receiver.mailbox ∧
        asI64 state.after < asI64 row.receivedAt := by
    intro row listed
    obtain ⟨stored, mailbox, ahead, _⟩ := ServerDb.mem_entriesAfter.mp (List.mem_of_mem_take listed)
    exact ⟨stored, mailbox, ahead⟩
  have lastListed := List.mem_of_getLast? ended
  obtain ⟨lastStored, lastMailbox, lastAhead⟩ := pageSubset last lastListed
  have identified : ∀ row ∈ state.db.mailboxEntries, ∀ other ∈ state.db.mailboxEntries,
      row.entryId = other.entryId → row = other :=
    fun row listed other otherListed same =>
      List.inj_on_of_nodup_map ordered.ids listed otherListed same
  refine ⟨⟨?_, ?_⟩, ordered.ids, ordered.times, ordered.bounded, ?_, ?_⟩
  · refine List.nodup_append.mpr ⟨ordered.delivers.once, ?_, ?_⟩
    · have sortedIds : ((state.db.entriesAfter now receiver.mailbox state.after).map
          EntryRow.entryId).Nodup := by
        refine List.Nodup.map_on ?_ ?_
        · intro row listed other otherListed same
          exact identified row (ServerDb.mem_entriesAfter.mp listed).1 other
            (ServerDb.mem_entriesAfter.mp otherListed).1 same
        · have distinct : state.db.mailboxEntries.Nodup := List.Nodup.of_map _ ordered.ids
          exact (List.perm_insertionSort _ _).nodup_iff.mpr (distinct.filter _)
      rw [List.map_take]
      exact sortedIds.sublist (List.take_sublist _ _)
    · rintro seen listed other otherListed rfl
      obtain ⟨row, rowListed, rfl⟩ := List.mem_map.mp otherListed
      obtain ⟨stored, _, ahead⟩ := pageSubset row rowListed
      have behind := ordered.behind row stored listed
      omega
  · intro later row stored mailbox unexpiredLater unseen
    have isAhead : asI64 state.after < asI64 row.receivedAt :=
      ordered.delivers.ahead later row stored mailbox unexpiredLater
        fun listed => unseen (List.mem_append_left _ listed)
    have pending : row ∈ state.db.entriesAfter now receiver.mailbox state.after :=
      ServerDb.mem_entriesAfter.mpr ⟨stored, mailbox, isAhead, unexpired row stored⟩
    rw [← List.take_append_drop ServerDb.pageLimit
      (state.db.entriesAfter now receiver.mailbox state.after)] at pending
    rcases List.mem_append.mp pending with taken | left
    · exact absurd (List.mem_append_right _ (List.mem_map_of_mem taken)) unseen
    · have notBelow := above row left
      have notSame : asI64 last.receivedAt ≠ asI64 row.receivedAt := by
        intro same
        obtain rfl := ordered.eq_of_time lastStored stored (lastMailbox.trans mailbox.symm) same
        exact unseen (List.mem_append_right _ (List.mem_map_of_mem lastListed))
      exact lt_of_le_of_ne notBelow notSame
  · intro entryId listed
    rcases List.mem_append.mp listed with earlier | new
    · exact ordered.past entryId earlier
    · obtain ⟨row, rowListed, rfl⟩ := List.mem_map.mp new
      exact ordered.bounded row (pageSubset row rowListed).1
  · intro row stored listed
    rcases List.mem_append.mp listed with earlier | new
    · exact (ordered.behind row stored earlier).trans lastAhead.le
    · obtain ⟨other, otherListed, same⟩ := List.mem_map.mp new
      obtain rfl := identified other (pageSubset other otherListed).1 row stored same
      exact below other otherListed

/-- A poll either changes nothing the receiver sees, or hands out a page of the entries
which are left after the purge. -/
theorem receive_cases {config : ServerConfig} {receiver : Receiver P} {state next : MailRun P}
    {now : NanoTimestamp} {dbFails : Bool}
    (taken : (machine config receiver).step state (.receive now dbFails) = some next) :
    next = state ∨
    next = { state with db := state.db.purgeExpiredEntries now } ∨
    ∃ last, (((state.db.purgeExpiredEntries now).entriesAfter now receiver.mailbox
        state.after).take ServerDb.pageLimit).getLast? = some last ∧
      next = { state with
        db := state.db.purgeExpiredEntries now
        after := last.receivedAt
        returned := state.returned ++
          (((state.db.purgeExpiredEntries now).entriesAfter now receiver.mailbox state.after).take
            ServerDb.pageLimit).map EntryRow.entryId } := by
  simp only [machine, ServerDb.pollMailbox] at taken
  cases dbFails with
  | true =>
      cases taken
      exact Or.inl rfl
  | false =>
      simp only [Bool.false_eq_true, if_false] at taken
      split at taken
      · rename_i refused
        split at refused <;> cases refused
        cases taken
        exact Or.inl rfl
      · rename_i db rows polled
        split at polled <;> cases polled
        split at taken
        · cases taken
          exact Or.inr (Or.inl rfl)
        · rename_i last ended
          cases taken
          exact Or.inr (Or.inr ⟨last, ended, rfl⟩)

/-- A commit either changes nothing in the database, or appends one entry. -/
theorem sendCommit_cases {config : ServerConfig} {receiver : Receiver P} {state next : MailRun P}
    {call : Nat} {dbFails : Bool}
    (taken : (machine config receiver).step state (.sendCommit call dbFails) = some next) :
    ∃ send, state.sending.lookup call = some send ∧ next.after = state.after ∧
      next.returned = state.returned ∧
      (next.db = state.db ∧ ¬(dbFails = false ∧ send.Admissible state.db) ∨
        dbFails = false ∧ send.Admissible state.db ∧
          next.db.mailboxEntries = (state.db.purgeExpiredEntries send.now).mailboxEntries ++
            [⟨state.db.nextEntryId, send.mailbox, send.now, send.message, P.bcsHash send.auth,
              expiresAtFromTtl send.now send.ttl⟩] ∧
          next.db.nextEntryId = state.db.nextEntryId + 1) := by
  simp only [machine] at taken
  split at taken
  · simp at taken
  · rename_i send pending
    cases taken
    refine ⟨send, pending, rfl, rfl, ?_⟩
    dsimp only
    simp only [ServerDb.mailboxSend]
    cases dbFails with
    | true => exact Or.inl ⟨by simp, by simp⟩
    | false =>
        simp only [Bool.false_eq_true, if_false]
        split
        · rename_i refused
          refine Or.inl ⟨rfl, fun admitted => ?_⟩
          simp [admitted.2.1] at refused
        · rename_i allowed
          split
          · rename_i refused
            refine Or.inl ⟨rfl, fun admitted => ?_⟩
            have inserted := refused.symm.trans (ServerDb.insertEntry_eq_some.mpr
              ⟨admitted.2.2.1, admitted.2.2.2, rfl⟩)
            exact Option.some_ne_none _ inserted.symm
          · rename_i db inserted
            obtain ⟨known, distinct, rfl⟩ := ServerDb.insertEntry_eq_some.mp inserted
            have canSend : ((state.db.purgeExpiredEntries send.now).aclForToken send.mailbox
                send.auth).canSend = true := by simpa using allowed
            exact Or.inr ⟨trivial, ⟨canSend, known, distinct⟩, rfl, rfl⟩

/-- A commit which meets the guard keeps the invariant. -/
theorem Ordered.append {receiver : Receiver P} {state next : MailRun P} {send : PendingSend P}
    (ordered : state.Ordered receiver) (after : next.after = state.after)
    (returned : next.returned = state.returned) (admissible : send.Admissible state.db)
    (entries : next.db.mailboxEntries = (state.db.purgeExpiredEntries send.now).mailboxEntries ++
      [⟨state.db.nextEntryId, send.mailbox, send.now, send.message, P.bcsHash send.auth,
        expiresAtFromTtl send.now send.ttl⟩])
    (entryId : next.db.nextEntryId = state.db.nextEntryId + 1)
    (ahead : send.mailbox = receiver.mailbox → ∀ now,
      expiredAt now (expiresAtFromTtl send.now send.ttl) = false →
        asI64 state.after < asI64 send.now) : next.Ordered receiver := by
  have purged := ordered.of_sublist (ServerDb.aside_purge state.db send.now).entries rfl state.sending
  refine ⟨⟨?_, ?_⟩, ?_, ?_, ?_, ?_, ?_⟩
  · rw [returned]
    exact purged.delivers.once
  · intro now row stored mailbox unexpired unseen
    rw [after]
    rw [returned] at unseen
    rw [entries] at stored
    rcases List.mem_append.mp stored with earlier | new
    · exact purged.delivers.ahead now row earlier mailbox unexpired unseen
    · obtain rfl := List.mem_singleton.mp new
      exact ahead mailbox now unexpired
  · rw [entries, List.map_append]
    refine List.nodup_append.mpr ⟨purged.ids, List.nodup_singleton _, ?_⟩
    rintro first listed second new rfl
    obtain ⟨row, stored, rfl⟩ := List.mem_map.mp listed
    have smaller : row.entryId < state.db.nextEntryId := purged.bounded row stored
    rw [List.map_singleton, List.mem_singleton] at new
    exact absurd new smaller.ne
  · rw [entries]
    refine List.pairwise_append.mpr ⟨purged.times, List.pairwise_singleton _ _, ?_⟩
    intro row stored new listed mailboxes
    obtain rfl := List.mem_singleton.mp listed
    exact admissible.2.2 row stored mailboxes
  · intro row stored
    rw [entryId]
    rw [entries] at stored
    rcases List.mem_append.mp stored with earlier | new
    · exact Nat.lt_succ_of_lt (purged.bounded row earlier)
    · obtain rfl := List.mem_singleton.mp new
      exact Nat.lt_succ_self _
  · intro id listed
    rw [entryId]
    rw [returned] at listed
    exact Nat.lt_succ_of_lt (purged.past id listed)
  · intro row stored listed
    rw [after]
    rw [returned] at listed
    rw [entries] at stored
    rcases List.mem_append.mp stored with earlier | new
    · exact purged.behind row earlier listed
    · obtain rfl := List.mem_singleton.mp new
      exact absurd (purged.past _ listed) (lt_irrefl _)

/-- A step which meets the guard keeps the invariant. -/
theorem Ordered.step {config : ServerConfig} {receiver : Receiver P} {state next : MailRun P}
    {event : MailEvent P} (ordered : state.Ordered receiver) (ahead : state.Ahead receiver event)
    (taken : (machine config receiver).step state event = some next) : next.Ordered receiver := by
  cases event with
  | sendClock call send =>
      simp only [machine] at taken
      split at taken
      · simp at taken
      · cases taken
        exact ordered.of_sublist (.refl state.db.mailboxEntries) rfl _
  | sendCommit call dbFails =>
      obtain ⟨send, pending, after, returned, ⟨same, _⟩ | ⟨works, admissible, entries, entryId⟩⟩ :=
        sendCommit_cases taken
      · obtain ⟨db, sending, cursor, ids⟩ := next
        dsimp only at after returned same
        subst after returned same
        exact ordered.of_sublist (.refl _) rfl sending
      · exact ordered.append after returned admissible entries entryId fun mailbox =>
          ahead send pending works mailbox admissible
  | receive now dbFails =>
      have purged := ordered.of_sublist (ServerDb.aside_purge state.db now).entries rfl state.sending
      rcases receive_cases taken with rfl | rfl | ⟨last, ended, rfl⟩
      · exact ordered
      · exact purged
      · refine purged.receivePage ended fun row stored => ?_
        have kept := (List.mem_filter.mp stored).2
        simpa using kept
  | other env request =>
      simp only [machine] at taken
      split at taken
      · simp at taken
      · rename_i allowed
        cases taken
        have noSend : ∀ auth mailbox message ttl, request ≠ .mailboxSend auth mailbox message ttl := by
          rintro auth mailbox message ttl rfl
          exact allowed rfl
        obtain ⟨entries, entryId⟩ := ServerDb.handle_entries config env state.db noSend
        exact ordered.of_sublist entries entryId state.sending

/-- A commit at or below the cursor leaves an entry there which was not returned. -/
theorem Ordered.ahead_of_delivers {config : ServerConfig} {receiver : Receiver P}
    {state next : MailRun P} {event : MailEvent P} (ordered : state.Ordered receiver)
    (taken : (machine config receiver).step state event = some next)
    (delivers : next.Delivers receiver) : state.Ahead receiver event := by
  cases event with
  | sendCommit call dbFails =>
      intro send pending works mailbox admissible now unexpired
      obtain ⟨found, sameCall, after, returned, ⟨_, refused⟩ | ⟨_, _, entries, _⟩⟩ :=
        sendCommit_cases taken
      · obtain rfl := Option.some.inj (pending.symm.trans sameCall)
        exact absurd ⟨works, admissible⟩ refused
      · obtain rfl := Option.some.inj (pending.symm.trans sameCall)
        rw [← after]
        refine delivers.ahead now ⟨state.db.nextEntryId, send.mailbox, send.now, send.message,
          P.bcsHash send.auth, expiresAtFromTtl send.now send.ttl⟩ ?_ mailbox unexpired ?_
        · rw [entries]
          exact List.mem_append_right _ List.mem_cons_self
        · rw [returned]
          intro listed
          exact absurd (ordered.past _ listed) (lt_irrefl _)
  | _ => exact trivial

/-- Delivery loses nothing and repeats nothing exactly in the runs in which every commit
to the mailbox is ahead of the receiver's cursor. -/
theorem delivers_iff (config : ServerConfig) (receiver : Receiver P) (events : List (MailEvent P)) :
    (machine config receiver).Always (Delivers receiver) fresh events ↔
      (machine config receiver).Along (Ahead receiver) fresh events := by
  have invariant : ∀ run, (machine config receiver).Along (Ahead receiver) fresh run →
      (machine config receiver).Always (Ordered receiver) fresh run := fun run =>
    Machine.always_of_along (fun holds allowed taken => holds.step allowed taken)
      (ordered_fresh receiver)
  constructor
  · intro always
    refine Machine.along_of_property
      (fun run => (machine config receiver).Always (Delivers receiver) fresh run)
      (fun holds within before position => holds before (position.trans within)) ?_ always
    intro before event state next holds along reached taken
    exact ((invariant before along).last reached).ahead_of_delivers taken
      (holds.last (Machine.exec_snoc.mpr ⟨state, reached, taken⟩))
  · intro along before position state reached
    exact (invariant events along before position state reached).delivers

open WatchedServer in
/-- Bob's send reads the clock at 5, Carol's at 10. Carol's commits, Alice receives it, and then
Bob's commits. -/
def lateCommitRun : List (MailEvent symbolic) :=
  [.other (envWith (tokenOf 1)) (.deviceAuth alice aliceChain),
    .sendClock 0 ⟨5, .anonymous, .direct alice, ⟨Blob.v1DirectMessage, []⟩, 0⟩,
    .sendClock 1 ⟨10, .anonymous, .direct alice, ⟨Blob.v1DirectMessage, []⟩, 0⟩,
    .sendCommit 1 false,
    .receive 10 false,
    .sendCommit 0 false]

/-- An entry of that run. -/
def lateEntry (entryId : Nat) (receivedAt : NanoTimestamp) : EntryRow symbolic :=
  ⟨entryId, .direct alice, receivedAt, ⟨Blob.v1DirectMessage, []⟩,
    symbolic.bcsHash AuthToken.anonymous, none⟩

open WatchedServer in
/-- In the run an entry which is committed late is never returned. -/
theorem lateCommitRun_breaks :
    ¬(machine exampleServer ⟨.direct alice, tokenOf 1⟩).Always
      (Delivers ⟨.direct alice, tokenOf 1⟩) fresh lateCommitRun := by
  intro always
  have ends : ((machine exampleServer ⟨.direct alice, tokenOf 1⟩).exec fresh lateCommitRun).map
      (fun state => (state.after, state.returned, state.db.mailboxEntries)) =
      some (10, [1], [lateEntry 1 10, lateEntry 2 5]) := by decide +kernel
  obtain ⟨state, reached, held⟩ := Option.map_eq_some_iff.mp ends
  simp only [Prod.mk.injEq] at held
  obtain ⟨after, returned, entries⟩ := held
  have ahead := (always.last reached).ahead 0 (lateEntry 2 5) (by simp [entries]) rfl rfl
    (by simp [returned, lateEntry])
  rw [after] at ahead
  exact absurd ahead (by decide)

end MailRun
end Nullspace
