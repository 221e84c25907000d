import Nullspace.Server.Delivery

/-!
# Receivers which wait for an entry

A receiver of `mailbox_multirecv` reads the counter of its mailbox, looks for entries, and if
there are none waits until the counter has grown. A sender commits its entry and then raises
the counter and notifies. The counters are in a cache which forgets what nobody has asked for
in an hour: whoever asks next gets a new counter, and those who wait on the old one are not
notified any more.

`notStranded_of_uninterrupted`: as long as no counter is replaced under a receiver, none is
left waiting behind an entry which was announced.
-/

namespace Nullspace

open Nullspace.Base

variable {P : Primitives}

/-- The query of the receiver asks for the entry. -/
def MailboxRecvArgs.Awaits (arg : MailboxRecvArgs P) (row : EntryRow P) : Prop :=
  row.mailboxId = arg.mailbox ∧ asI64 arg.after < asI64 row.receivedAt

instance (arg : MailboxRecvArgs P) (row : EntryRow P) : Decidable (arg.Awaits row) :=
  inferInstanceAs (Decidable (_ ∧ _))

/-- Where a receiver is in its loop. A topic is a counter with its event, named by how many
were made before it. -/
inductive RecvPhase where
  | looping
  | counted (topic counter : Nat)
  /-- The query found nothing. -/
  | unserved (topic counter : Nat)
  /-- `wait_until` looks at the topic's counter next. -/
  | checking (topic counter : Nat)
  /-- `wait_until` has found the counter too low, and the topic has not notified since. -/
  | parked (topic counter : Nat)
  | ended
deriving DecidableEq

/-- The topic of a receiver which is in `wait_until`. -/
def RecvPhase.waitsOn : RecvPhase → Option Nat
  | .checking topic _ | .parked topic _ => some topic
  | .looping | .counted _ _ | .unserved _ _ | .ended => none

/-- `notify_all`. -/
def RecvPhase.wake (notified : Nat) : RecvPhase → RecvPhase
  | .parked topic counter =>
      if topic = notified then .checking topic counter else .parked topic counter
  | .checking topic counter => .checking topic counter
  | .looping => .looping
  | .counted topic counter => .counted topic counter
  | .unserved topic counter => .unserved topic counter
  | .ended => .ended

/-- One argument of a call of `mailbox_multirecv`. -/
structure Waiter (P : Primitives) where
  arg : MailboxRecvArgs P
  phase : RecvPhase
deriving DecidableEq

/-- Where a sender is after its commit. -/
inductive IncrPhase where
  | committed
  | found (topic : Nat)
  | raised (topic : Nat)
deriving DecidableEq

/-- A call of `mailbox_send` which has yet to notify. -/
structure Announcement (P : Primitives) where
  row : EntryRow P
  phase : IncrPhase
deriving DecidableEq

structure PubSubRun (P : Primitives) where
  db : ServerDb P
  cache : Table (MailboxId P) Nat
  /-- The counters of all topics. -/
  counters : List Nat
  waiters : List (Waiter P)
  announcements : List (Announcement P)
  /-- The entries whose senders have notified. -/
  announced : List (EntryRow P)

/-- A step names the state in which it finds its receiver or sender. -/
inductive PubSubStep (P : Primitives) where
  | receive (arg : MailboxRecvArgs P)
  | readCounter (index : Nat) (arg : MailboxRecvArgs P)
  /-- The transaction of the receiver. -/
  | query (index : Nat) (arg : MailboxRecvArgs P) (topic counter : Nat) (now : NanoTimestamp)
      (dbFails : Bool)
  /-- The `get_with` of `wait_gt`. -/
  | waitGt (index : Nat) (arg : MailboxRecvArgs P) (topic counter : Nat)
  | check (index : Nat) (arg : MailboxRecvArgs P) (topic counter : Nat)
  /-- The call times out, or another of its arguments is served. -/
  | leave (index : Nat) (waiter : Waiter P)
  /-- The transaction of `mailbox_send`. -/
  | send (now : NanoTimestamp) (dbFails : Bool) (auth : AuthToken) (mailbox : MailboxId P)
      (message : Blob) (ttl : UInt32)
  /-- The `get_with` of `incr`. -/
  | find (index : Nat) (row : EntryRow P)
  /-- The `fetch_add` of `incr`. -/
  | raise (index : Nat) (row : EntryRow P) (topic : Nat)
  /-- The `notify_all` of `incr`. -/
  | notify (index : Nat) (row : EntryRow P) (topic : Nat)
  /-- A sender's call is dropped. -/
  | drop (index : Nat)
  /-- The cache forgets an idle mailbox. -/
  | evict (mailbox : MailboxId P)
  /-- Any call but these. -/
  | other (env : CallEnv P) (request : ServerRequest P)

namespace PubSubRun

/-- A server which has just started. -/
def start (db : ServerDb P) : PubSubRun P := ⟨db, ∅, [], [], [], db.mailboxEntries⟩

/-- The value of a topic's counter. -/
def count (run : PubSubRun P) (topic : Nat) : Nat := run.counters.getD topic 0

/-- `get_with`: the topic of a mailbox, made if there is none. -/
def getWith (run : PubSubRun P) (mailbox : MailboxId P) : PubSubRun P × Nat :=
  match run.cache.lookup mailbox with
  | some topic => (run, topic)
  | none =>
      ({ run with
        cache := run.cache.insert mailbox run.counters.length
        counters := run.counters ++ [0] }, run.counters.length)

def move (run : PubSubRun P) (index : Nat) (arg : MailboxRecvArgs P) (phase : RecvPhase) :
    PubSubRun P :=
  { run with waiters := run.waiters.set index ⟨arg, phase⟩ }

/-- Where a receiver goes on after its transaction. -/
def queried (topic counter : Nat) : Except ServerRpcError (List (EntryRow P)) → RecvPhase
  | .error _ => .ended
  | .ok [] => .unserved topic counter
  | .ok (_ :: _) => .ended

/-- The transaction of a sender. -/
def commit (run : PubSubRun P) (now : NanoTimestamp) (dbFails : Bool) (auth : AuthToken)
    (mailbox : MailboxId P) (message : Blob) (ttl : UInt32) : PubSubRun P :=
  match run.db.mailboxSend now dbFails auth mailbox message ttl with
  | (db, .error _) => { run with db := db }
  | (db, .ok _) =>
      { run with
        db := db
        announcements := run.announcements ++
          (db.mailboxEntries.getLast?.map fun row => ⟨row, .committed⟩).toList }

/-- The `notify_all` of a sender, behind which its entry counts as announced. -/
def notifyAll (run : PubSubRun P) (index : Nat) (row : EntryRow P) (topic : Nat) : PubSubRun P :=
  { run with
    waiters := run.waiters.map fun waiter => ⟨waiter.arg, waiter.phase.wake topic⟩
    announcements := run.announcements.eraseIdx index
    announced := run.announced ++ [row] }

/-- Receivers, senders and the cache, one step of one of them at a time. -/
def machine (config : ServerConfig) : Machine (PubSubRun P) (PubSubStep P) where
  step run
    | .receive arg => some { run with waiters := run.waiters ++ [⟨arg, .looping⟩] }
    | .readCounter index arg =>
        if run.waiters[index]? = some ⟨arg, .looping⟩ then
          let (run, topic) := run.getWith arg.mailbox
          some (run.move index arg (.counted topic (run.count topic)))
        else none
    | .query index arg topic counter now dbFails =>
        if run.waiters[index]? = some ⟨arg, .counted topic counter⟩ then
          if dbFails then some (run.move index arg .ended)
          else
            let (db, rows) := run.db.pollMailbox now arg
            some ({ run with db := db }.move index arg (queried topic counter rows))
        else none
    | .waitGt index arg topic counter =>
        if run.waiters[index]? = some ⟨arg, .unserved topic counter⟩ then
          let (run, found) := run.getWith arg.mailbox
          some (run.move index arg (.checking found counter))
        else none
    | .check index arg topic counter =>
        if run.waiters[index]? = some ⟨arg, .checking topic counter⟩ then
          some (run.move index arg
            (if counter < run.count topic then .looping else .parked topic counter))
        else none
    | .leave index waiter =>
        if run.waiters[index]? = some waiter then some (run.move index waiter.arg .ended)
        else none
    | .send now dbFails auth mailbox message ttl =>
        some (run.commit now dbFails auth mailbox message ttl)
    | .find index row =>
        if run.announcements[index]? = some ⟨row, .committed⟩ then
          let (run, topic) := run.getWith row.mailboxId
          some { run with announcements := run.announcements.set index ⟨row, .found topic⟩ }
        else none
    | .raise index row topic =>
        if run.announcements[index]? = some ⟨row, .found topic⟩ then
          some { run with
            counters := run.counters.modify topic (· + 1)
            announcements := run.announcements.set index ⟨row, .raised topic⟩ }
        else none
    | .notify index row topic =>
        if run.announcements[index]? = some ⟨row, .raised topic⟩ then
          some (run.notifyAll index row topic)
        else none
    | .drop index => some { run with announcements := run.announcements.eraseIdx index }
    | .evict mailbox => some { run with cache := run.cache.erase mailbox }
    | .other env request =>
        if request.isSend then none
        else some { run with db := (run.db.handle config env request).1 }

/-- A receiver waits, while an entry which it asks for is in the table and its sender has
notified. -/
def Stranded (run : PubSubRun P) : Prop :=
  ∃ waiter ∈ run.waiters, (∃ topic counter, waiter.phase = .parked topic counter) ∧
    ∃ row ∈ run.db.mailboxEntries, row ∈ run.announced ∧ waiter.arg.Awaits row

/-- `wait_gt` finds the topic whose counter was read, and `incr` finds the topic on which each
receiver waits which asks for the entry. -/
def Uninterrupted (run : PubSubRun P) : PubSubStep P → Prop
  | .waitGt _ arg topic _ => run.cache.lookup arg.mailbox = some topic
  | .find _ row => ∀ waiter ∈ run.waiters, waiter.arg.Awaits row →
      ∀ topic ∈ waiter.phase.waitsOn, run.cache.lookup row.mailboxId = some topic
  | .receive _ | .readCounter _ _ | .query _ _ _ _ _ _ | .check _ _ _ _ | .leave _ _
  | .send _ _ _ _ _ _ | .raise _ _ _ | .notify _ _ _ | .drop _ | .evict _ | .other _ _ => True

instance (run : PubSubRun P) : (step : PubSubStep P) → Decidable (run.Uninterrupted step)
  | .waitGt _ arg topic _ => inferInstanceAs (Decidable (run.cache.lookup arg.mailbox = some topic))
  | .find _ row => inferInstanceAs (Decidable (∀ waiter ∈ run.waiters, waiter.arg.Awaits row →
      ∀ topic ∈ waiter.phase.waitsOn, run.cache.lookup row.mailboxId = some topic))
  | .receive _ | .readCounter _ _ | .query _ _ _ _ _ _ | .check _ _ _ _ | .leave _ _
  | .send _ _ _ _ _ _ | .raise _ _ _ | .notify _ _ _ | .drop _ | .evict _ | .other _ _ =>
      inferInstanceAs (Decidable True)

/-! ## What no receiver misses -/

/-- A topic was made, and its counter has not fallen behind what was read. -/
def Reads (run : PubSubRun P) (topic counter : Nat) : Prop :=
  topic < run.counters.length ∧ counter ≤ run.count topic

/-- Whoever has announced an entry which the receiver asks for did so on the receiver's topic
and after the receiver read the counter, or has yet to do so. -/
structure Heard (run : PubSubRun P) (arg : MailboxRecvArgs P) (topic counter : Nat) : Prop where
  pending : ∀ announcement ∈ run.announcements, announcement.row ∈ run.db.mailboxEntries →
    arg.Awaits announcement.row → announcement.phase = .committed ∨
      announcement.phase = .found topic ∨
        announcement.phase = .raised topic ∧ counter < run.count topic
  done : ∀ row ∈ run.announced, row ∈ run.db.mailboxEntries → arg.Awaits row →
    counter < run.count topic

/-- No entry for which the receiver asks was announced to the end. -/
def Quiet (run : PubSubRun P) (arg : MailboxRecvArgs P) : Prop :=
  ∀ row ∈ run.announced, row ∈ run.db.mailboxEntries → ¬arg.Awaits row

/-- What holds of a receiver in each phase. A topic which the cache has forgotten never comes
back, so before `wait_gt` nothing else is of use. -/
def Covers (run : PubSubRun P) (arg : MailboxRecvArgs P) : RecvPhase → Prop
  | .looping | .ended => True
  | .counted topic counter => run.Reads topic counter
  | .unserved topic counter => run.Reads topic counter ∧
      (run.cache.lookup arg.mailbox = some topic → run.Heard arg topic counter)
  | .checking topic counter => run.Reads topic counter ∧ run.Heard arg topic counter
  | .parked topic counter =>
      run.Reads topic counter ∧ run.Heard arg topic counter ∧ run.Quiet arg

structure Safe (run : PubSubRun P) : Prop where
  cached : ∀ mailbox topic, run.cache.lookup mailbox = some topic → topic < run.counters.length
  numbered : ∀ announcement ∈ run.announcements, announcement.row.entryId < run.db.nextEntryId
  finished : ∀ row ∈ run.announced, row.entryId < run.db.nextEntryId
  covers : ∀ waiter ∈ run.waiters, run.Covers waiter.arg waiter.phase

/-- In a safe state nobody is stranded. -/
theorem not_stranded_of_safe {run : PubSubRun P} (safe : run.Safe) : ¬run.Stranded := by
  rintro ⟨waiter, member, ⟨topic, counter, parked⟩, row, stored, announced, awaits⟩
  have covered := safe.covers waiter member
  rw [parked] at covered
  exact covered.2.2 row announced stored awaits

theorem safe_start {db : ServerDb P}
    (bounded : ∀ row ∈ db.mailboxEntries, row.entryId < db.nextEntryId) : (start db).Safe where
  cached mailbox topic found := by cases found
  numbered announcement member := absurd member List.not_mem_nil
  finished := bounded
  covers waiter member := absurd member List.not_mem_nil

/-- Nothing is announced, nothing posted, and the cache has no old topic that it had not. -/
structure Calms (run next : PubSubRun P) : Prop where
  entries : ∀ row ∈ next.db.mailboxEntries, row ∈ run.db.mailboxEntries
  entryId : next.db.nextEntryId = run.db.nextEntryId
  announcements : ∀ announcement ∈ next.announcements, announcement ∈ run.announcements
  announced : next.announced = run.announced
  made : run.counters.length ≤ next.counters.length
  count : ∀ topic, next.count topic = run.count topic
  cache : ∀ mailbox topic, topic < run.counters.length →
    next.cache.lookup mailbox = some topic → run.cache.lookup mailbox = some topic

theorem Calms.refl (run : PubSubRun P) : Calms run run :=
  ⟨fun _ stored => stored, rfl, fun _ member => member, rfl, le_rfl, fun _ => rfl,
    fun _ _ _ found => found⟩

theorem Reads.calms {run next : PubSubRun P} (calms : Calms run next) {topic counter : Nat}
    (reads : run.Reads topic counter) : next.Reads topic counter :=
  ⟨Nat.lt_of_lt_of_le reads.1 calms.made, (calms.count topic).symm ▸ reads.2⟩

theorem Heard.calms {run next : PubSubRun P} (calms : Calms run next) {arg : MailboxRecvArgs P}
    {topic counter : Nat} (heard : run.Heard arg topic counter) :
    next.Heard arg topic counter where
  pending announcement member stored awaits := by
    rw [calms.count]
    exact heard.pending announcement (calms.announcements _ member) (calms.entries _ stored) awaits
  done row announced stored awaits := by
    rw [calms.count]
    exact heard.done row (calms.announced ▸ announced) (calms.entries _ stored) awaits

theorem Covers.calms {run next : PubSubRun P} (calms : Calms run next) {arg : MailboxRecvArgs P}
    {phase : RecvPhase} (covers : run.Covers arg phase) : next.Covers arg phase := by
  cases phase with
  | looping => trivial
  | ended => trivial
  | counted topic counter => exact Reads.calms calms covers
  | unserved topic counter =>
      exact ⟨covers.1.calms calms, fun found =>
        (covers.2 (calms.cache _ _ covers.1.1 found)).calms calms⟩
  | checking topic counter => exact ⟨covers.1.calms calms, covers.2.calms calms⟩
  | parked topic counter =>
      exact ⟨covers.1.calms calms, covers.2.1.calms calms, fun row announced stored =>
        covers.2.2 row (calms.announced ▸ announced) (calms.entries row stored)⟩

/-- Getting a topic announces nothing. -/
theorem calms_getWith (run : PubSubRun P) (mailbox : MailboxId P) :
    Calms run (run.getWith mailbox).1 := by
  rw [getWith]
  split
  · exact .refl run
  · refine ⟨fun _ stored => stored, rfl, fun _ member => member, rfl, by simp, ?_, ?_⟩
    · intro topic
      rw [count, count, List.getD_eq_getElem?_getD, List.getD_eq_getElem?_getD,
        List.getElem?_append]
      split
      · rfl
      · rename_i beyond
        rw [List.getElem?_eq_none (Nat.le_of_not_lt beyond)]
        cases topic - run.counters.length <;> rfl
    · intro other topic old found
      rw [Table.lookup_insert_eq] at found
      split at found
      · cases found
        exact absurd old (Nat.lt_irrefl _)
      · exact found

/-- The topic which `get_with` returns is in the cache. -/
theorem lookup_getWith (run : PubSubRun P) (mailbox : MailboxId P) :
    (run.getWith mailbox).1.cache.lookup mailbox = some (run.getWith mailbox).2 := by
  rw [getWith]
  split
  · assumption
  · exact AList.lookup_insert _

/-- A cached topic is the one which is got. -/
theorem getWith_of_cached {run : PubSubRun P} {mailbox : MailboxId P} {topic : Nat}
    (cached : run.cache.lookup mailbox = some topic) : run.getWith mailbox = (run, topic) := by
  rw [getWith, cached]

/-- Cached topics were made, also after one is got. -/
theorem cached_getWith {run : PubSubRun P} (safe : run.Safe) (mailbox : MailboxId P) :
    ∀ other topic, (run.getWith mailbox).1.cache.lookup other = some topic →
      topic < (run.getWith mailbox).1.counters.length := by
  intro other topic found
  rw [getWith] at found ⊢
  split at found
  · exact safe.cached other topic found
  · rw [List.length_append]
    rw [Table.lookup_insert_eq] at found
    split at found
    · cases found
      exact Nat.lt_succ_self _
    · exact Nat.lt_succ_of_lt (safe.cached other topic found)

/-- A calm step keeps the run safe if it does so for the receivers which it moves. -/
theorem Safe.calms {run next : PubSubRun P} (safe : run.Safe) (calms : Calms run next)
    (cached : ∀ mailbox topic, next.cache.lookup mailbox = some topic →
      topic < next.counters.length)
    (moved : ∀ waiter ∈ next.waiters, waiter ∈ run.waiters ∨
      next.Covers waiter.arg waiter.phase) : next.Safe where
  cached := cached
  numbered announcement member := by
    rw [calms.entryId]
    exact safe.numbered announcement (calms.announcements announcement member)
  finished row member := by
    rw [calms.entryId]
    exact safe.finished row (calms.announced ▸ member)
  covers waiter member := by
    rcases moved waiter member with before | covers
    · exact (safe.covers waiter before).calms calms
    · exact covers

/-- A step which moves one receiver, after a calm change. -/
theorem Safe.move {run middle : PubSubRun P} (safe : run.Safe) (calms : Calms run middle)
    (cached : ∀ mailbox topic, middle.cache.lookup mailbox = some topic →
      topic < middle.counters.length)
    (same : middle.waiters = run.waiters) {index : Nat} {arg : MailboxRecvArgs P}
    {phase : RecvPhase} (covers : middle.Covers arg phase) :
    (middle.move index arg phase).Safe := by
  have frame : Calms middle (middle.move index arg phase) :=
    ⟨fun _ stored => stored, rfl, fun _ member => member, rfl, le_rfl, fun _ => rfl,
      fun _ _ _ found => found⟩
  have whole : Calms run (middle.move index arg phase) :=
    ⟨calms.entries, calms.entryId, calms.announcements, calms.announced, calms.made, calms.count,
      calms.cache⟩
  apply safe.calms whole cached
  intro waiter member
  rcases List.mem_or_eq_of_mem_set member with before | rfl
  · exact .inl (same ▸ before)
  · exact .inr (covers.calms frame)

theorem waiters_getWith (run : PubSubRun P) (mailbox : MailboxId P) :
    (run.getWith mailbox).1.waiters = run.waiters := by
  rw [getWith]
  split <;> rfl

theorem announcements_getWith (run : PubSubRun P) (mailbox : MailboxId P) :
    (run.getWith mailbox).1.announcements = run.announcements := by
  rw [getWith]
  split <;> rfl

/-- In a safe state every receiver is covered in its phase. -/
theorem covers_at {run : PubSubRun P} (safe : run.Safe) {index : Nat} {waiter : Waiter P}
    (found : run.waiters[index]? = some waiter) : run.Covers waiter.arg waiter.phase :=
  safe.covers waiter (List.mem_of_getElem? found)

/-- The state stays safe when a receiver reads the counter. -/
theorem safe_readCounter {run : PubSubRun P} (safe : run.Safe) (index : Nat)
    (arg : MailboxRecvArgs P) :
    ((run.getWith arg.mailbox).1.move index arg
      (.counted (run.getWith arg.mailbox).2
        ((run.getWith arg.mailbox).1.count (run.getWith arg.mailbox).2))).Safe := by
  have cached := cached_getWith safe arg.mailbox
  apply safe.move (calms_getWith run arg.mailbox) cached (waiters_getWith run arg.mailbox)
  exact ⟨cached _ _ (lookup_getWith run arg.mailbox), le_rfl⟩

/-- A query leaves no entry of its mailbox behind, or it serves the receiver. -/
theorem pollMailbox_unserved {now : NanoTimestamp} {arg : MailboxRecvArgs P} {db next : ServerDb P}
    (polled : db.pollMailbox now arg = (next, .ok [])) :
    ∀ row ∈ next.mailboxEntries, ¬arg.Awaits row := by
  simp only [ServerDb.pollMailbox] at polled
  split at polled
  · cases polled
  · rw [Prod.mk.injEq, Except.ok.injEq, List.take_eq_nil_iff] at polled
    obtain ⟨rfl, empty⟩ := polled
    intro row stored awaits
    have lasting : expiredAt now row.expiresAt = false := by
      simpa using (List.mem_filter.mp stored).2
    have listed := ServerDb.mem_entriesAfter.mpr ⟨stored, awaits.1, awaits.2, lasting⟩
    rw [empty.resolve_left (by decide)] at listed
    exact List.not_mem_nil listed

/-- A poll posts nothing. -/
theorem pollMailbox_frame (now : NanoTimestamp) (arg : MailboxRecvArgs P) (db : ServerDb P) :
    (∀ row ∈ (db.pollMailbox now arg).1.mailboxEntries, row ∈ db.mailboxEntries) ∧
      (db.pollMailbox now arg).1.nextEntryId = db.nextEntryId := by
  simp only [ServerDb.pollMailbox]
  split
  · exact ⟨fun _ stored => stored, rfl⟩
  · exact ⟨fun _ stored => List.mem_of_mem_filter stored, rfl⟩

/-- Another database without new entries. -/
theorem calms_db {run : PubSubRun P} {db : ServerDb P}
    (entries : ∀ row ∈ db.mailboxEntries, row ∈ run.db.mailboxEntries)
    (entryId : db.nextEntryId = run.db.nextEntryId) : Calms run { run with db := db } :=
  ⟨entries, entryId, fun _ member => member, rfl, le_rfl, fun _ => rfl, fun _ _ _ found => found⟩

/-- The state stays safe when a receiver makes its query. -/
theorem safe_query {run : PubSubRun P} (safe : run.Safe) {index topic counter : Nat}
    {arg : MailboxRecvArgs P} (found : run.waiters[index]? = some ⟨arg, .counted topic counter⟩)
    (now : NanoTimestamp) :
    ({ run with db := (run.db.pollMailbox now arg).1 }.move index arg
      (queried topic counter (run.db.pollMailbox now arg).2)).Safe := by
  have calms := calms_db (pollMailbox_frame now arg run.db).1 (pollMailbox_frame now arg run.db).2
  apply safe.move calms safe.cached rfl
  have reads : run.Reads topic counter := covers_at safe found
  cases answer : (run.db.pollMailbox now arg).2 with
  | error err => trivial
  | ok rows =>
      cases rows with
      | cons row rows => trivial
      | nil =>
          have none := pollMailbox_unserved (Prod.ext rfl answer)
          refine ⟨reads.calms calms, fun _ => ⟨?_, ?_⟩⟩
          · intro announcement _ stored awaits
            exact absurd awaits (none _ stored)
          · intro row _ stored awaits
            exact absurd awaits (none row stored)

/-- The state stays safe when a receiver waits on the topic whose counter it read. -/
theorem safe_waitGt {run : PubSubRun P} (safe : run.Safe) {index topic counter : Nat}
    {arg : MailboxRecvArgs P} (found : run.waiters[index]? = some ⟨arg, .unserved topic counter⟩)
    (same : run.cache.lookup arg.mailbox = some topic) :
    (run.move index arg (.checking topic counter)).Safe := by
  obtain ⟨reads, heard⟩ := covers_at safe found
  exact safe.move (.refl run) safe.cached rfl ⟨reads, heard same⟩

/-- The state stays safe when a receiver compares the counter. -/
theorem safe_check {run : PubSubRun P} (safe : run.Safe) {index topic counter : Nat}
    {arg : MailboxRecvArgs P} (found : run.waiters[index]? = some ⟨arg, .checking topic counter⟩) :
    (run.move index arg
      (if counter < run.count topic then .looping else .parked topic counter)).Safe := by
  obtain ⟨reads, heard⟩ := covers_at safe found
  apply safe.move (.refl run) safe.cached rfl
  split
  · trivial
  · rename_i low
    exact ⟨reads, heard, fun row announced stored awaits =>
      low (heard.done row announced stored awaits)⟩

/-- The announcement is no later than the receiver may rely on. -/
def Passed (run : PubSubRun P) (topic counter : Nat) (phase : IncrPhase) : Prop :=
  phase = .committed ∨ phase = .found topic ∨ phase = .raised topic ∧ counter < run.count topic

/-- What a step has to say about the announcements which it adds or takes on. -/
theorem Heard.step {run next : PubSubRun P} {arg : MailboxRecvArgs P} {topic counter : Nat}
    (heard : run.Heard arg topic counter) (count : run.count topic ≤ next.count topic)
    (pending : ∀ announcement ∈ next.announcements, announcement.row ∈ next.db.mailboxEntries →
      arg.Awaits announcement.row →
        announcement ∈ run.announcements ∧ announcement.row ∈ run.db.mailboxEntries ∨
          next.Passed topic counter announcement.phase)
    (done : ∀ row ∈ next.announced, row ∈ next.db.mailboxEntries → arg.Awaits row →
      row ∈ run.announced ∧ row ∈ run.db.mailboxEntries ∨ counter < next.count topic) :
    next.Heard arg topic counter where
  pending announcement member stored awaits := by
    rcases pending announcement member stored awaits with ⟨before, kept⟩ | passed
    · rcases heard.pending announcement before kept awaits with
        committed | found | ⟨raised, low⟩
      · exact .inl committed
      · exact .inr (.inl found)
      · exact .inr (.inr ⟨raised, Nat.lt_of_lt_of_le low count⟩)
    · exact passed
  done row announced stored awaits := by
    rcases done row announced stored awaits with ⟨before, kept⟩ | low
    · exact Nat.lt_of_lt_of_le (heard.done row before kept awaits) count
    · exact low

/-- What a step has to keep for a receiver which it does not move. -/
theorem Covers.step {run next : PubSubRun P} {arg : MailboxRecvArgs P} {phase : RecvPhase}
    (covers : run.Covers arg phase)
    (reads : ∀ topic counter, run.Reads topic counter → next.Reads topic counter)
    (cache : ∀ topic, topic < run.counters.length →
      next.cache.lookup arg.mailbox = some topic → run.cache.lookup arg.mailbox = some topic)
    (heard : ∀ topic counter, run.Reads topic counter →
      phase.waitsOn = some topic ∨ next.cache.lookup arg.mailbox = some topic →
        run.Heard arg topic counter → next.Heard arg topic counter)
    (quiet : ∀ topic counter, phase = .parked topic counter → run.Heard arg topic counter →
      run.Quiet arg → next.Quiet arg) : next.Covers arg phase := by
  cases phase with
  | looping => trivial
  | ended => trivial
  | counted topic counter => exact reads topic counter covers
  | unserved topic counter =>
      refine ⟨reads topic counter covers.1, fun found => ?_⟩
      exact heard topic counter covers.1 (.inr found) (covers.2 (cache topic covers.1.1 found))
  | checking topic counter =>
      exact ⟨reads topic counter covers.1, heard topic counter covers.1 (.inl rfl) covers.2⟩
  | parked topic counter =>
      exact ⟨reads topic counter covers.1, heard topic counter covers.1 (.inl rfl) covers.2.1,
        quiet topic counter rfl covers.2.1 covers.2.2⟩

/-- The state stays safe when a sender commits. -/
theorem safe_commit {run : PubSubRun P} (safe : run.Safe) (now : NanoTimestamp) (dbFails : Bool)
    (auth : AuthToken) (mailbox : MailboxId P) (message : Blob) (ttl : UInt32) :
    (run.commit now dbFails auth mailbox message ttl).Safe := by
  rw [commit]
  rcases ServerDb.mailboxSend_cases now dbFails auth mailbox message ttl run.db with
    ⟨err, sent⟩ | ⟨next, sent, inserted⟩
  · rw [sent]
    exact safe
  · obtain ⟨-, -, rfl⟩ := ServerDb.insertEntry_eq_some.mp inserted
    simp only [sent, List.getLast?_append, List.getLast?_singleton, Option.some_or,
      Option.map_some, Option.toList_some]
    -- The new entry has an id which no announced one has.
    have older : ∀ row : EntryRow P, row.entryId < run.db.nextEntryId →
        row ∈ (run.db.purgeExpiredEntries now).mailboxEntries ++
          [⟨run.db.nextEntryId, mailbox, now, message, P.bcsHash auth, expiresAtFromTtl now ttl⟩] →
        row ∈ run.db.mailboxEntries := by
      intro row below stored
      rcases List.mem_append.mp stored with kept | new
      · exact List.mem_of_mem_filter kept
      · rw [List.mem_singleton.mp new] at below
        exact absurd below (Nat.lt_irrefl _)
    constructor
    · exact safe.cached
    · intro announcement member
      rcases List.mem_append.mp member with before | new
      · exact Nat.lt_succ_of_lt (safe.numbered announcement before)
      · rw [List.mem_singleton.mp new]
        exact Nat.lt_succ_self _
    · exact fun row member => Nat.lt_succ_of_lt (safe.finished row member)
    · intro waiter member
      refine (safe.covers waiter member).step (fun _ _ reads => reads) (fun _ _ found => found)
        ?_ ?_
      · intro topic counter _ _ heard
        refine heard.step le_rfl ?_ ?_
        · intro announcement listed stored _
          rcases List.mem_append.mp listed with before | new
          · exact .inl ⟨before, older _ (safe.numbered announcement before) stored⟩
          · rw [List.mem_singleton.mp new]
            exact .inr (.inl rfl)
        · intro row announced stored _
          exact .inl ⟨announced, older row (safe.finished row announced) stored⟩
      · intro topic counter _ _ quiet row announced stored
        exact quiet row announced (older row (safe.finished row announced) stored)

/-- The state stays safe when a sender finds the topic on which the receivers wait. -/
theorem safe_find {run : PubSubRun P} (safe : run.Safe) {index : Nat} {row : EntryRow P}
    (found : run.announcements[index]? = some ⟨row, .committed⟩)
    (reaches : ∀ waiter ∈ run.waiters, waiter.arg.Awaits row → ∀ topic ∈ waiter.phase.waitsOn,
      run.cache.lookup row.mailboxId = some topic) :
    Safe { (run.getWith row.mailboxId).1 with
      announcements := (run.getWith row.mailboxId).1.announcements.set index
        ⟨row, .found (run.getWith row.mailboxId).2⟩ } := by
  have calms := calms_getWith run row.mailboxId
  have lookup := lookup_getWith run row.mailboxId
  constructor
  · exact cached_getWith safe row.mailboxId
  · intro announcement member
    have same : run.db.nextEntryId = (run.getWith row.mailboxId).1.db.nextEntryId :=
      calms.entryId.symm
    dsimp only
    rw [← same]
    rcases List.mem_or_eq_of_mem_set member with before | rfl
    · exact safe.numbered announcement (calms.announcements announcement before)
    · exact safe.numbered ⟨row, .committed⟩ (List.mem_of_getElem? found)
  · intro other member
    have same : run.db.nextEntryId = (run.getWith row.mailboxId).1.db.nextEntryId :=
      calms.entryId.symm
    dsimp only
    rw [← same]
    exact safe.finished other (calms.announced ▸ member)
  · intro waiter member
    have before : waiter ∈ run.waiters := waiters_getWith run row.mailboxId ▸ member
    refine ((safe.covers waiter before).calms calms).step (fun _ _ reads => reads)
      (fun _ _ found => found) ?_ (fun _ _ _ _ quiet => quiet)
    intro topic counter _ relies heard
    refine heard.step le_rfl ?_ (fun _ announced stored _ => .inl ⟨announced, stored⟩)
    intro announcement listed stored awaits
    rcases List.mem_or_eq_of_mem_set listed with kept | rfl
    · exact .inl ⟨kept, stored⟩
    · -- The sender has found the topic on which the receiver relies.
      have same : (run.getWith row.mailboxId).2 = topic := by
        rcases relies with waits | cached
        · rw [getWith_of_cached (reaches waiter before awaits topic waits)]
        · rw [← awaits.1] at cached
          exact Option.some.inj (lookup.symm.trans cached)
      exact .inr (.inr (.inl (congrArg IncrPhase.found same)))

/-- Raising a topic's counter leaves the others as they are. -/
theorem count_raise {run : PubSubRun P} (topic : Nat) {other : Nat}
    (made : other < run.counters.length) :
    (run.counters.modify topic (· + 1)).getD other 0 =
      if topic = other then run.count other + 1 else run.count other := by
  rw [count, List.getD_eq_getElem?_getD, List.getD_eq_getElem?_getD, List.getElem?_modify,
    List.getElem?_eq_getElem made]
  split <;> rfl

/-- The state stays safe when a sender raises the counter. -/
theorem safe_raise {run : PubSubRun P} (safe : run.Safe) {index topic : Nat} {row : EntryRow P}
    (found : run.announcements[index]? = some ⟨row, .found topic⟩) :
    Safe { run with
      counters := run.counters.modify topic (· + 1)
      announcements := run.announcements.set index ⟨row, .raised topic⟩ } := by
  have raised : ∀ other, other < run.counters.length → run.count other ≤
      (run.counters.modify topic (· + 1)).getD other 0 := by
    intro other made
    rw [count_raise topic made]
    split
    · exact Nat.le_succ _
    · exact le_rfl
  constructor
  · intro mailbox other cached
    rw [List.length_modify]
    exact safe.cached mailbox other cached
  · intro announcement member
    rcases List.mem_or_eq_of_mem_set member with before | rfl
    · exact safe.numbered announcement before
    · exact safe.numbered ⟨row, .found topic⟩ (List.mem_of_getElem? found)
  · exact safe.finished
  · intro waiter member
    refine (safe.covers waiter member).step ?_ (fun _ _ found => found) ?_
      (fun _ _ _ _ quiet => quiet)
    · intro other counter reads
      refine ⟨?_, Nat.le_trans reads.2 (raised other reads.1)⟩
      rw [List.length_modify]
      exact reads.1
    · intro other counter reads _ heard
      refine heard.step (raised other reads.1) ?_
        (fun _ announced stored _ => .inl ⟨announced, stored⟩)
      intro announcement listed stored awaits
      rcases List.mem_or_eq_of_mem_set listed with kept | rfl
      · exact .inl ⟨kept, stored⟩
      · right
        have own := heard.pending _ (List.mem_of_getElem? found) stored awaits
        simp only [reduceCtorEq, IncrPhase.found.injEq, false_and, or_false, false_or] at own
        subst own
        have grown : counter < (run.counters.modify topic (· + 1)).getD topic 0 := by
          rw [count_raise topic reads.1, if_pos rfl]
          exact Nat.lt_succ_of_le reads.2
        exact .inr (.inr ⟨rfl, grown⟩)

/-- Whoever relies on a topic learns of a raised entry through this topic. -/
theorem Heard.raised {run : PubSubRun P} {arg : MailboxRecvArgs P} {other counter : Nat}
    (heard : run.Heard arg other counter) {index topic : Nat} {row : EntryRow P}
    (found : run.announcements[index]? = some ⟨row, .raised topic⟩)
    (stored : row ∈ run.db.mailboxEntries) (awaits : arg.Awaits row) :
    topic = other ∧ counter < run.count other := by
  have own := heard.pending _ (List.mem_of_getElem? found) stored awaits
  simp only [reduceCtorEq, IncrPhase.raised.injEq, false_or] at own
  exact own

/-- A sender which notifies its topic is heard there. -/
theorem Heard.notifyAll {run : PubSubRun P} {arg : MailboxRecvArgs P} {other counter : Nat}
    (heard : run.Heard arg other counter) {index topic : Nat} {row : EntryRow P}
    (found : run.announcements[index]? = some ⟨row, .raised topic⟩) :
    (run.notifyAll index row topic).Heard arg other counter := by
  refine heard.step le_rfl ?_ ?_
  · intro announcement listed stored _
    exact .inl ⟨List.mem_of_mem_eraseIdx listed, stored⟩
  · intro announced listed stored awaits
    rcases List.mem_append.mp listed with before | new
    · exact .inl ⟨before, stored⟩
    · rw [List.mem_singleton.mp new] at stored awaits
      exact .inr (heard.raised found stored awaits).2

/-- The state stays safe when a sender notifies. -/
theorem safe_notifyAll {run : PubSubRun P} (safe : run.Safe) {index topic : Nat} {row : EntryRow P}
    (found : run.announcements[index]? = some ⟨row, .raised topic⟩) :
    (run.notifyAll index row topic).Safe := by
  constructor
  · exact safe.cached
  · exact fun announcement member => safe.numbered announcement (List.mem_of_mem_eraseIdx member)
  · intro other member
    rcases List.mem_append.mp member with before | new
    · exact safe.finished other before
    · rw [List.mem_singleton.mp new]
      exact safe.numbered ⟨row, .raised topic⟩ (List.mem_of_getElem? found)
  · intro waiter member
    obtain ⟨⟨arg, phase⟩, listed, rfl⟩ := List.mem_map.mp member
    have covers := safe.covers ⟨arg, phase⟩ listed
    cases phase with
    | looping => trivial
    | ended => trivial
    | counted other counter => exact covers
    | unserved other counter =>
        exact ⟨covers.1, fun cached => (covers.2 cached).notifyAll found⟩
    | checking other counter => exact ⟨covers.1, covers.2.notifyAll found⟩
    | parked other counter =>
        obtain ⟨reads, heard, quiet⟩ := covers
        dsimp only [RecvPhase.wake]
        split
        · exact ⟨reads, heard.notifyAll found⟩
        · rename_i apart
          refine ⟨reads, heard.notifyAll found, ?_⟩
          intro announced member stored awaits
          rcases List.mem_append.mp member with earlier | new
          · exact quiet announced earlier stored awaits
          · rw [List.mem_singleton.mp new] at stored awaits
            exact apart (heard.raised found stored awaits).1.symm

/-- Every uninterrupted step keeps the state safe. -/
theorem safe_step {config : ServerConfig} {run next : PubSubRun P} {step : PubSubStep P}
    (safe : run.Safe) (uninterrupted : run.Uninterrupted step)
    (taken : (machine config).step run step = some next) : next.Safe := by
  cases step with
  | receive arg =>
      cases taken
      refine safe.calms ⟨fun _ stored => stored, rfl, fun _ member => member, rfl, le_rfl,
        fun _ => rfl, fun _ _ _ found => found⟩ safe.cached ?_
      intro waiter member
      rcases List.mem_append.mp member with before | new
      · exact .inl before
      · rw [List.mem_singleton.mp new]
        exact .inr trivial
  | readCounter index arg =>
      simp only [machine] at taken
      split at taken <;> cases taken
      exact safe_readCounter safe index arg
  | query index arg topic counter now dbFails =>
      simp only [machine] at taken
      split at taken
      · rename_i found
        split at taken <;> cases taken
        · exact safe.move (.refl run) safe.cached rfl trivial
        · exact safe_query safe found now
      · cases taken
  | waitGt index arg topic counter =>
      simp only [machine] at taken
      split at taken
      · rename_i found
        cases taken
        rw [getWith_of_cached uninterrupted]
        exact safe_waitGt safe found uninterrupted
      · cases taken
  | check index arg topic counter =>
      simp only [machine] at taken
      split at taken
      · rename_i found
        cases taken
        exact safe_check safe found
      · cases taken
  | leave index waiter =>
      simp only [machine] at taken
      split at taken <;> cases taken
      exact safe.move (.refl run) safe.cached rfl trivial
  | send now dbFails auth mailbox message ttl =>
      cases taken
      exact safe_commit safe now dbFails auth mailbox message ttl
  | find index row =>
      simp only [machine] at taken
      split at taken
      · rename_i found
        cases taken
        exact safe_find safe found uninterrupted
      · cases taken
  | raise index row topic =>
      simp only [machine] at taken
      split at taken
      · rename_i found
        cases taken
        exact safe_raise safe found
      · cases taken
  | notify index row topic =>
      simp only [machine] at taken
      split at taken
      · rename_i found
        cases taken
        exact safe_notifyAll safe found
      · cases taken
  | drop index =>
      cases taken
      exact safe.calms ⟨fun _ stored => stored, rfl,
        fun _ member => List.mem_of_mem_eraseIdx member, rfl, le_rfl, fun _ => rfl,
        fun _ _ _ found => found⟩ safe.cached fun _ member => .inl member
  | evict mailbox =>
      cases taken
      have kept : ∀ other topic, (run.cache.erase mailbox).lookup other = some topic →
          run.cache.lookup other = some topic := by
        intro other topic found
        by_cases same : other = mailbox
        · rw [same, AList.lookup_erase] at found
          cases found
        · rwa [AList.lookup_erase_ne same] at found
      exact safe.calms ⟨fun _ stored => stored, rfl, fun _ member => member, rfl, le_rfl,
        fun _ => rfl, fun other topic _ found => kept other topic found⟩
        (fun other topic found => safe.cached other topic (kept other topic found))
        fun _ member => .inl member
  | other env request =>
      simp only [machine] at taken
      split at taken
      · cases taken
      · rename_i noSend
        cases taken
        have other : ∀ auth mailbox message ttl, request ≠ .mailboxSend auth mailbox message ttl := by
          rintro auth mailbox message ttl rfl
          exact noSend rfl
        have frame := ServerDb.handle_entries config env run.db other
        exact safe.calms (calms_db (fun row stored => frame.1.subset stored) frame.2) safe.cached
          fun _ member => .inl member

/-- In a run in which no topic is replaced under a receiver, no receiver waits while an entry
for it was announced. -/
theorem notStranded_of_uninterrupted {config : ServerConfig} {db : ServerDb P}
    (bounded : ∀ row ∈ db.mailboxEntries, row.entryId < db.nextEntryId)
    {steps : List (PubSubStep P)}
    (along : (machine config).Along Uninterrupted (start db) steps) :
    (machine config).Always (fun run => ¬run.Stranded) (start db) steps := by
  have safe : (machine config).Always Safe (start db) steps :=
    Machine.always_of_along safe_step (safe_start bounded) along
  exact fun before position run reached => not_stranded_of_safe (safe before position run reached)

/-- A topic which the cache has forgotten is not got again. -/
theorem getWith_ne {run : PubSubRun P} {mailbox : MailboxId P} {topic : Nat}
    (made : topic < run.counters.length) (apart : run.cache.lookup mailbox ≠ some topic) :
    (run.getWith mailbox).2 ≠ topic := by
  rw [getWith]
  split
  · rename_i found cached
    rintro rfl
    exact apart cached
  · exact Nat.ne_of_gt made

/-- A sender which finds another topic than a receiver waits on leaves the receiver behind. -/
theorem stranded_of_interrupted (config : ServerConfig) {run : PubSubRun P} {index : Nat}
    {row : EntryRow P} (committed : run.announcements[index]? = some ⟨row, .committed⟩)
    (stored : row ∈ run.db.mailboxEntries) {arg : MailboxRecvArgs P} {topic counter : Nat}
    (parked : ⟨arg, .parked topic counter⟩ ∈ run.waiters) (awaits : arg.Awaits row)
    (made : topic < run.counters.length) (apart : run.cache.lookup row.mailboxId ≠ some topic) :
    ∃ found next, (machine config).exec run
      [.find index row, .raise index row found, .notify index row found] = some next ∧
        next.Stranded := by
  have other := getWith_ne made apart
  have kept : row ∈ (run.getWith row.mailboxId).1.db.mailboxEntries := by
    rw [getWith]
    split <;> exact stored
  have waits : ⟨arg, .parked topic counter⟩ ∈ (run.getWith row.mailboxId).1.waiters := by
    rwa [waiters_getWith]
  have inside : index < (run.getWith row.mailboxId).1.announcements.length := by
    rw [announcements_getWith]
    exact (List.getElem?_eq_some_iff.mp committed).1
  have finds : (machine config).step run (.find index row) =
      some { (run.getWith row.mailboxId).1 with
        announcements := (run.getWith row.mailboxId).1.announcements.set index
          ⟨row, .found (run.getWith row.mailboxId).2⟩ } := if_pos committed
  generalize (run.getWith row.mailboxId).1 = middle at kept waits inside finds
  generalize (run.getWith row.mailboxId).2 = found at other finds
  refine ⟨found, notifyAll { middle with
    counters := middle.counters.modify found (· + 1)
    announcements := middle.announcements.set index ⟨row, .raised found⟩ } index row found, ?_,
    ⟨arg, .parked topic counter⟩, ?_, ⟨topic, counter, rfl⟩, row, kept, ?_, awaits⟩
  · rw [Machine.exec_cons, finds, Option.bind_some]
    simp only [Machine.exec, machine, List.getElem?_set_self inside, List.set_set, if_true]
  · refine List.mem_map.mpr ⟨_, waits, ?_⟩
    simp only [RecvPhase.wake, if_neg (Ne.symm other)]
  · exact List.mem_append_right _ (List.mem_singleton_self row)

open WatchedServer (exampleServer registeredDb tokenOf)

/-- Alice's device waits for her first message. -/
def aliceArg : MailboxRecvArgs symbolic := ⟨tokenOf 1, .direct alice, 0⟩

def firstRow : EntryRow symbolic :=
  ⟨1, .direct alice, 7, ⟨"x", []⟩, symbolic.bcsHash AuthToken.anonymous, none⟩

/-- The device waits, and then a message is posted. -/
def waitingRun : List (PubSubStep symbolic) :=
  [.receive aliceArg, .readCounter 0 aliceArg, .query 0 aliceArg 0 0 5 false,
    .waitGt 0 aliceArg 0 0, .check 0 aliceArg 0 0]

def postedRun (topic : Nat) : List (PubSubStep symbolic) :=
  [.send 7 false .anonymous (.direct alice) ⟨"x", []⟩ 0, .find 0 firstRow, .raise 0 firstRow topic,
    .notify 0 firstRow topic]

theorem registeredDb_bounded :
    ∀ row ∈ registeredDb.mailboxEntries, row.entryId < registeredDb.nextEntryId := by
  decide +kernel

/-- In the run in which a message is posted while the device waits, nobody is stranded. -/
theorem notStranded_of_uninterrupted_posted :
    (machine exampleServer).Always (fun run => ¬run.Stranded) (start registeredDb)
      (waitingRun ++ postedRun 0) :=
  notStranded_of_uninterrupted registeredDb_bounded (by decide +kernel)

/-- An hour passes before the message comes, and the device is not woken. -/
theorem forgotten_strands :
    (∀ row ∈ registeredDb.mailboxEntries, row.entryId < registeredDb.nextEntryId) ∧
      ¬(machine exampleServer).Always (fun run => ¬run.Stranded) (start registeredDb)
        (waitingRun ++ .evict (.direct alice) :: postedRun 1) := by
  refine ⟨registeredDb_bounded, fun always => ?_⟩
  have ends : ((machine exampleServer).exec (start registeredDb)
      (waitingRun ++ .evict (.direct alice) :: postedRun 1)).map
        (fun run => (run.waiters, run.db.mailboxEntries, run.announced)) =
      some ([⟨aliceArg, .parked 0 0⟩], [firstRow], [firstRow]) := by decide +kernel
  obtain ⟨run, reached, held⟩ := Option.map_eq_some_iff.mp ends
  simp only [Prod.mk.injEq] at held
  obtain ⟨waiters, entries, announced⟩ := held
  refine always.last reached ⟨⟨aliceArg, .parked 0 0⟩, ?_, ⟨0, 0, rfl⟩, firstRow, ?_, ?_, ?_⟩
  · rw [waiters]
    exact List.mem_cons_self
  · rw [entries]
    exact List.mem_cons_self
  · rw [announced]
    exact List.mem_cons_self
  · decide

end PubSubRun
end Nullspace
