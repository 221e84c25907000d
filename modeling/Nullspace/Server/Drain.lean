import Nullspace.Rpc.Message
import Nullspace.Server.AclEdit
import Nullspace.Structs.Text

/-!
# Draining a mailbox

A page holds at most a hundred entries, whatever their sizes; a transport reads at most
`maxMessageBytes` of it. `drains_iff_leavesRoom` says when a receiver can always read its
next page: exactly when every send leaves the pages around its entry small enough.
-/

namespace Nullspace

open Nullspace.Base Nullspace.Base.Json

variable {P : Primitives}

namespace ServerDb

/-- The first entries behind a cursor. -/
def page (db : ServerDb P) (now : NanoTimestamp) (mailbox : MailboxId P) (after : NanoTimestamp) :
    List (EntryRow P) :=
  (db.entriesAfter now mailbox after).take pageLimit

/-- The bytes of an answer with some entries of a mailbox. -/
def answerSize (envelope : Envelope) (mailbox : MailboxId P) (rows : List (EntryRow P)) : Nat :=
  2 * (P.hashBytes mailbox.hash).length + entriesSize (rows.map entryOf) + 5 + envelope.overhead

/-- Every answer to a receiver fits into a message, whoever has the right to receive. -/
def Drains (envelope : Envelope) (db : ServerDb P) : Prop :=
  ∀ acl env args answer,
    ({ db with mailboxAcl := acl }.mailboxMultirecv env args).2 = .ok answer →
      Fits (envelope.response (multirecvJson answer))

/-- A send which posts an entry leaves every page that holds the entry within the limit. -/
def LeavesRoom (envelope : Envelope) (db : ServerDb P) (call : CallEnv P × ServerRequest P) :
    Prop :=
  ∀ auth mailbox message ttl next, call.2 = .mailboxSend auth mailbox message ttl →
    db.mailboxSend call.1.now call.1.dbFails auth mailbox message ttl = (next, .ok call.1.now) →
      ∀ now after, (∃ row ∈ next.page now mailbox after, row.entryId = db.nextEntryId) →
        answerSize envelope mailbox (next.page now mailbox after) ≤ maxMessageBytes

/-- The request line of a send fits into a message. -/
def Posted (envelope : Envelope) (call : CallEnv P × ServerRequest P) : Prop :=
  ∀ auth mailbox message ttl, call.2 = .mailboxSend auth mailbox message ttl →
    Fits (envelope.request "v1_mailbox_send"
      [auth.json, hashJson mailbox.hash, message.json, number ttl.toNat])

/-! ## Pages and answers -/

/-- The later of two times, as SQLite compares them. -/
def later (first second : NanoTimestamp) : NanoTimestamp :=
  if asI64 first ≤ asI64 second then second else first

/-- An entry has expired by the later of two times when it has by one of them. -/
theorem expiredAt_later (first second : NanoTimestamp) (expiresAt : Option NanoTimestamp) :
    expiredAt (later first second) expiresAt =
      (expiredAt first expiresAt || expiredAt second expiresAt) := by
  cases expiresAt with
  | none => rfl
  | some expiry =>
      rw [expiredAt, expiredAt, expiredAt, ← Bool.decide_or, decide_eq_decide, later]
      split <;> omega

/-- Entries which went at one time are gone at every later one. -/
theorem entriesAfter_purge (db : ServerDb P) (purged now : NanoTimestamp) (mailbox : MailboxId P)
    (after : NanoTimestamp) : (db.purgeExpiredEntries purged).entriesAfter now mailbox after =
      db.entriesAfter (later purged now) mailbox after := by
  simp only [entriesAfter, purgeExpiredEntries, List.filter_filter]
  refine congrArg _ (List.filter_congr fun row _ => ?_)
  rw [expiredAt_later, Bool.not_or, Bool.and_assoc, Bool.and_comm (!expiredAt now row.expiresAt)]

/-- A purge removes from a page what has expired by then. -/
theorem page_purge (db : ServerDb P) (purged now : NanoTimestamp) (mailbox : MailboxId P)
    (after : NanoTimestamp) : (db.purgeExpiredEntries purged).page now mailbox after =
      db.page (later purged now) mailbox after := by
  rw [page, entriesAfter_purge, page]

theorem page_congr {db next : ServerDb P} (entries : next.mailboxEntries = db.mailboxEntries)
    (now : NanoTimestamp) (mailbox : MailboxId P) (after : NanoTimestamp) :
    next.page now mailbox after = db.page now mailbox after := by
  rw [page, entriesAfter, entries, page, entriesAfter]

/-- What is inserted behind the front leaves the front alone. -/
theorem take_orderedInsert {Item : Type} {order : Item → Item → Prop} [DecidableRel order]
    {item : Item} {items : List Item} {count : Nat}
    (behind : item ∉ (items.orderedInsert order item).take count) :
    (items.orderedInsert order item).take count = items.take count := by
  induction items generalizing count with
  | nil =>
      cases count with
      | zero => rfl
      | succ count => simp at behind
  | cons first rest ih =>
      cases count with
      | zero => rfl
      | succ count =>
          rw [List.orderedInsert_cons] at behind ⊢
          split at behind
          · simp at behind
          · rename_i above
            rw [if_neg above]
            rw [List.take_succ_cons, List.mem_cons, not_or] at behind
            rw [List.take_succ_cons, List.take_succ_cons, ih behind.2]

/-- Entries are told apart by their ids. -/
structure Identified (db : ServerDb P) : Prop where
  nodup : (db.mailboxEntries.map EntryRow.entryId).Nodup
  bounded : ∀ row ∈ db.mailboxEntries, row.entryId < db.nextEntryId

/-- A page after a new entry holds the entry, or is the page from before. -/
theorem page_append {db : ServerDb P} {row : EntryRow P}
    (distinct : ((db.mailboxEntries ++ [row]).map EntryRow.entryId).Nodup) (nextEntryId : Nat)
    (now : NanoTimestamp) (mailbox : MailboxId P) (after : NanoTimestamp) :
    let next := { db with
      mailboxEntries := db.mailboxEntries ++ [row], nextEntryId := nextEntryId }
    row ∈ next.page now mailbox after ∨ next.page now mailbox after = db.page now mailbox after := by
  intro next
  rw [or_iff_not_imp_left]
  intro absent
  simp only [next, page, entriesAfter, List.filter_append, List.filter_cons, List.filter_nil] at absent ⊢
  split at absent
  · rename_i passes
    rw [if_pos passes]
    have total := entryLe_total (P := P)
    have transitive := entryLe_trans (P := P)
    generalize kept : db.mailboxEntries.filter _ = rows at absent ⊢
    have listed : ∀ other ∈ rows ++ [row], other ∈ db.mailboxEntries ++ [row] := by
      intro other member
      rcases List.mem_append.mp member with old | new
      · rw [← kept] at old
        exact List.mem_append_left _ (List.mem_of_mem_filter old)
      · exact List.mem_append_right _ new
    have front : (rows ++ [row]).insertionSort entryLe = (row :: rows).insertionSort entryLe := by
      have order := (List.perm_insertionSort entryLe (rows ++ [row])).trans
        ((List.perm_append_singleton row rows).trans
          (List.perm_insertionSort entryLe (row :: rows)).symm)
      refine order.eq_of_pairwise ?_ (List.pairwise_insertionSort _ _)
        (List.pairwise_insertionSort _ _)
      intro first second member other below above
      have ids : first.entryId = second.entryId := by
        simp only [entryLe] at below above
        omega
      rw [List.mem_insertionSort] at member
      rw [List.mem_insertionSort, List.mem_cons] at other
      refine List.inj_on_of_nodup_map distinct (listed first member) (listed second ?_) ids
      rcases other with rfl | old
      · exact List.mem_append_right _ List.mem_cons_self
      · exact List.mem_append_left _ old
    rw [front, List.insertionSort_cons] at absent ⊢
    exact take_orderedInsert absent
  · rename_i refused
    rw [if_neg refused, List.append_nil]

/-- A poll which is not refused hands out a page. -/
theorem pollMailbox_ok {now : NanoTimestamp} {arg : MailboxRecvArgs P} {db : ServerDb P}
    {rows : List (EntryRow P)} (polled : (db.pollMailbox now arg).2 = .ok rows) :
    rows = db.page now arg.mailbox arg.after := by
  simp only [pollMailbox] at polled
  split at polled
  · cases polled
  · cases polled
    have same : later now now = now := by
      rw [later, ite_self]
    rw [entriesAfter_purge, same, page]

/-- `answerSize` is the size of the answer. -/
theorem size_answer (envelope : Envelope) (mailbox : MailboxId P) (rows : List (EntryRow P)) :
    size (envelope.response (multirecvJson [(mailbox, rows.map entryOf)])) =
      answerSize envelope mailbox rows := by
  rw [envelope.size_response, size_multirecvJson, answerSize]

/-- An access list by which everyone may receive from a mailbox. -/
def openAcl (mailbox : MailboxId P) : Table (MailboxId P × P.Hash) AclRights :=
  AList.insert (mailbox, P.bcsHash AuthToken.anonymous) ⟨false, false, true⟩ ∅

/-- Under an open list the page is what a poll hands out. -/
theorem pollMailbox_openAcl (now : NanoTimestamp) (mailbox : MailboxId P) (after : NanoTimestamp)
    (db : ServerDb P) :
    (pollMailbox now ⟨.anonymous, mailbox, after⟩ { db with mailboxAcl := openAcl mailbox }).2 =
      .ok (db.page now mailbox after) := by
  have mayReceive : (aclForToken ({ db with mailboxAcl := openAcl mailbox }.purgeExpiredEntries now)
      mailbox AuthToken.anonymous).canRecv = true := by
    simp only [aclForToken, loadAclHash, purgeExpiredEntries, openAcl, AList.lookup_insert]
  rcases outcome : (pollMailbox now ⟨.anonymous, mailbox, after⟩
    { db with mailboxAcl := openAcl mailbox }).2 with err | rows
  · simp only [pollMailbox, mayReceive, Bool.not_true, Bool.false_eq_true, if_false] at outcome
    cases outcome
  · rw [pollMailbox_ok outcome]
    exact congrArg Except.ok (page_congr rfl now mailbox after)

/-- Every page with entries is the answer to a receiver. -/
theorem mailboxMultirecv_openAcl {now : NanoTimestamp} {mailbox : MailboxId P}
    {after : NanoTimestamp} {db : ServerDb P} (filled : db.page now mailbox after ≠ []) :
    (mailboxMultirecv ⟨now, 0, fun _ => none, .anonymous, false, none, some 0⟩
        [⟨.anonymous, mailbox, after⟩] { db with mailboxAcl := openAcl mailbox }).2 =
      .ok [(mailbox, (db.page now mailbox after).map entryOf)] := by
  have polled := pollMailbox_openAcl now mailbox after db
  obtain ⟨first, rest, page⟩ := List.exists_cons_of_ne_nil filled
  rcases outcome : pollMailbox now ⟨.anonymous, mailbox, after⟩
    { db with mailboxAcl := openAcl mailbox } with ⟨next, result⟩
  rw [outcome, page] at polled
  cases polled
  simp only [mailboxMultirecv, Option.bind_some, List.getElem?_cons_zero, Bool.false_eq_true,
    if_false, outcome, page]

/-- A receiver can read every answer exactly when the pages are small enough; an empty answer
always is. -/
theorem drains_iff {envelope : Envelope} (short : envelope.overhead + 2 ≤ maxMessageBytes)
    {db : ServerDb P} : Drains envelope db ↔
      ∀ now mailbox after, db.page now mailbox after ≠ [] →
        answerSize envelope mailbox (db.page now mailbox after) ≤ maxMessageBytes := by
  constructor
  · intro drains now mailbox after filled
    rw [← size_answer]
    exact drains (openAcl mailbox) _ _ _ (mailboxMultirecv_openAcl filled)
  · intro small acl env args answer received
    have empty : Fits (envelope.response (multirecvJson (P := P) [])) := by
      rw [Fits, envelope.size_response, size_multirecvJson_nil, Nat.add_comm]
      exact short
    simp only [mailboxMultirecv] at received
    split at received
    · cases received
      exact empty
    · rename_i arg served
      split at received
      · cases received
      · split at received
        · cases received
        · cases received
          exact empty
        · rename_i next rows filled outcome
          cases received
          have page := pollMailbox_ok (congrArg Prod.snd outcome)
          rw [page_congr rfl] at page
          rw [Fits, size_answer, page]
          exact small env.now arg.mailbox arg.after (page ▸ filled)

theorem identified_empty : Identified (P := P) .empty :=
  ⟨List.nodup_nil, fun _ listed => by simp [empty] at listed⟩

/-- What a step does to the entries: some expire, or one is posted behind the others. -/
theorem entries_step (config : ServerConfig) (db : ServerDb P)
    (call : CallEnv P × ServerRequest P) :
    let next := (db.handle config call.1 call.2).1
    (next.nextEntryId = db.nextEntryId ∧ (next.mailboxEntries = db.mailboxEntries ∨
      next.mailboxEntries = (db.purgeExpiredEntries call.1.now).mailboxEntries) ∧
        ∀ envelope, LeavesRoom envelope db call) ∨
    ∃ auth mailbox message ttl, call.2 = .mailboxSend auth mailbox message ttl ∧
      db.mailboxSend call.1.now call.1.dbFails auth mailbox message ttl =
        (next, .ok call.1.now) ∧
      next = { db.purgeExpiredEntries call.1.now with
        mailboxEntries := (db.purgeExpiredEntries call.1.now).mailboxEntries ++
          [⟨db.nextEntryId, mailbox, call.1.now, message, P.bcsHash auth,
            expiresAtFromTtl call.1.now ttl⟩]
        nextEntryId := db.nextEntryId + 1 } := by
  intro next
  by_cases send : ∃ auth mailbox message ttl, call.2 = .mailboxSend auth mailbox message ttl
  · obtain ⟨auth, mailbox, message, ttl, asked⟩ := send
    have same : next = (db.mailboxSend call.1.now call.1.dbFails auth mailbox message ttl).1 := by
      simp only [next, asked, handle]
    rcases mailboxSend_cases call.1.now call.1.dbFails auth mailbox message ttl db with
      ⟨err, sent⟩ | ⟨posted, sent, inserted⟩
    · left
      rw [sent] at same
      refine ⟨by rw [same], Or.inl (by rw [same]), ?_⟩
      intro envelope auth' mailbox' message' ttl' other again accepted
      rw [asked] at again
      cases again
      rw [sent] at accepted
      cases accepted
    · right
      obtain ⟨_, _, rfl⟩ := insertEntry_eq_some.mp inserted
      rw [sent] at same
      exact ⟨auth, mailbox, message, ttl, asked, by rw [same, sent], same⟩
  · left
    have noSend : ∀ auth mailbox message ttl, call.2 ≠ .mailboxSend auth mailbox message ttl :=
      fun auth mailbox message ttl asked => send ⟨auth, mailbox, message, ttl, asked⟩
    refine ⟨(handle_entries config call.1 db noSend).2, mailboxEntries_handle config call.1 db noSend, ?_⟩
    intro envelope auth mailbox message ttl _ asked
    exact absurd asked (noSend auth mailbox message ttl)

/-- A purge leaves the entries told apart. -/
theorem Identified.purge {db : ServerDb P} (identified : db.Identified) (now : NanoTimestamp) :
    (db.purgeExpiredEntries now).Identified where
  nodup := identified.nodup.sublist (List.filter_sublist.map _)
  bounded row listed := identified.bounded row (List.mem_of_mem_filter listed)

/-- A new entry gets an identifier of its own. -/
theorem Identified.append {db : ServerDb P} (identified : db.Identified) {row : EntryRow P}
    (new : row.entryId = db.nextEntryId) :
    ((db.mailboxEntries ++ [row]).map EntryRow.entryId).Nodup := by
  rw [List.map_append, List.map_singleton]
  refine List.nodup_append.mpr ⟨identified.nodup, by simp, ?_⟩
  rintro id listed other single rfl
  obtain ⟨earlier, member, rfl⟩ := List.mem_map.mp listed
  have bound := identified.bounded earlier member
  rw [List.mem_singleton.mp single, new] at bound
  omega

/-- Every step leaves the entries told apart. -/
theorem Identified.step {config : ServerConfig} {db next : ServerDb P}
    {call : CallEnv P × ServerRequest P} (identified : db.Identified)
    (taken : (machine config).step db call = some next) : next.Identified := by
  cases taken
  rcases entries_step config db call with ⟨nextId, same | purged, _⟩ | ⟨_, _, _, _, _, _, posted⟩
  · exact ⟨same ▸ identified.nodup, nextId ▸ same ▸ identified.bounded⟩
  · have kept := identified.purge call.1.now
    exact ⟨purged ▸ kept.nodup, nextId ▸ purged ▸ kept.bounded⟩
  · have kept := identified.purge call.1.now
    rw [posted]
    refine ⟨kept.append rfl, ?_⟩
    intro row listed
    rcases List.mem_append.mp listed with old | new
    · exact Nat.lt_succ_of_lt (kept.bounded row old)
    · rw [List.mem_singleton.mp new]
      exact Nat.lt_succ_self _

/-- A step keeps every page readable exactly when it leaves room around what it posts. -/
theorem Identified.drains_iff {config : ServerConfig} {envelope : Envelope}
    (short : envelope.overhead + 2 ≤ maxMessageBytes) {db next : ServerDb P}
    {call : CallEnv P × ServerRequest P} (identified : db.Identified) (drains : db.Drains envelope)
    (taken : (machine config).step db call = some next) :
    next.Drains envelope ↔ db.LeavesRoom envelope call := by
  have before := (ServerDb.drains_iff short).mp drains
  cases taken
  rcases entries_step config db call with
    ⟨_, same | purged, free⟩ | ⟨auth, mailbox, message, ttl, asked, sent, posted⟩
  · refine iff_of_true ((ServerDb.drains_iff short).mpr ?_) (free envelope)
    intro now mailbox after
    rw [page_congr same]
    exact before now mailbox after
  · refine iff_of_true ((ServerDb.drains_iff short).mpr ?_) (free envelope)
    intro now mailbox after
    rw [page_congr purged, page_purge]
    exact before _ mailbox after
  · rw [ServerDb.drains_iff short]
    constructor
    · intro small auth' mailbox' message' ttl' next' again accepted now after holds
      rw [asked] at again
      cases again
      rw [sent] at accepted
      cases accepted
      obtain ⟨row, listed, _⟩ := holds
      exact small now mailbox after (List.ne_nil_of_mem listed)
    · intro room now other after filled
      have numbered : (⟨db.nextEntryId, mailbox, call.1.now, message, P.bcsHash auth,
          expiresAtFromTtl call.1.now ttl⟩ : EntryRow P).entryId =
            (db.purgeExpiredEntries call.1.now).nextEntryId := rfl
      have split := page_append ((identified.purge call.1.now).append numbered)
        (db.nextEntryId + 1) now other after
      dsimp only at split
      rw [← posted] at split
      rcases split with holds | old
      · obtain ⟨_, rfl, _⟩ := mem_entriesAfter.mp (List.mem_of_mem_take holds)
        exact room auth mailbox message ttl _ asked sent now after ⟨_, holds, rfl⟩
      · rw [old, page_purge] at filled ⊢
        exact before _ other after filled

/-- In every run of a server, a receiver can read every page exactly when every send leaves
room around its entry. -/
theorem drains_iff_leavesRoom (config : ServerConfig) {envelope : Envelope}
    (short : envelope.overhead + 2 ≤ maxMessageBytes) (calls : List (CallEnv P × ServerRequest P)) :
    (machine config).Always (Drains envelope) .empty calls ↔
      (machine config).Along (LeavesRoom envelope) .empty calls := by
  refine Machine.always_iff_along_within Identified
    (fun identified taken => identified.step taken)
    (fun identified drains taken => identified.drains_iff short drains taken) identified_empty ?_
  rw [ServerDb.drains_iff short]
  intro now mailbox after filled
  exact absurd rfl filled

open WatchedServer in
/-- Anyone may write to Alice's mailbox. Two messages which fit into a line each are too much for
one answer. -/
def floodRun (body : Bytes) : List (CallEnv symbolic × ServerRequest symbolic) :=
  [(envWith (tokenOf 1), .deviceAuth alice aliceChain),
    ({ envWith (tokenOf 2) with now := 1 },
      .mailboxSend .anonymous (.direct alice) ⟨Blob.v1DirectMessage, body⟩ 0),
    ({ envWith (tokenOf 2) with now := 2 },
      .mailboxSend .anonymous (.direct alice) ⟨Blob.v1DirectMessage, body⟩ 0)]

/-- An entry of that run. -/
def floodEntry (body : Bytes) (entryId : Nat) (receivedAt : NanoTimestamp) : EntryRow symbolic :=
  ⟨entryId, .direct alice, receivedAt, ⟨Blob.v1DirectMessage, body⟩,
    symbolic.bcsHash AuthToken.anonymous, none⟩

theorem page_floodRun (body : Bytes) :
    ((machine WatchedServer.exampleServer).exec .empty (floodRun body)).map
      (fun db => db.page 3 (.direct alice) 0) = some [floodEntry body 1 1, floodEntry body 2 2] := by
  rfl

theorem drains_iff_leavesRoom_floodRun :
    (machine WatchedServer.exampleServer).Always (Drains (jsonRpc "1")) .empty (floodRun [1]) ↔
      (machine WatchedServer.exampleServer).Along (LeavesRoom (jsonRpc "1")) .empty (floodRun [1]) :=
  drains_iff_leavesRoom _ (by decide) _

theorem posted_floodRun {body : Bytes} (length : body.length = 600000) :
    ∀ call ∈ floodRun body, Posted (jsonRpc "1") call := by
  have line : Fits ((jsonRpc "1").request "v1_mailbox_send"
      [AuthToken.anonymous.json, hashJson (MailboxId.direct (P := symbolic) alice).hash,
        Blob.json ⟨Blob.v1DirectMessage, body⟩, number 0]) := by
    have kind : escapedLength Blob.v1DirectMessage = 17 := by decide
    have token : size AuthToken.anonymous.json = 42 := by decide
    have mailbox : size (hashJson (MailboxId.direct (P := symbolic) alice).hash) = 46 := by decide
    have zero : size (number 0) = 1 := by decide
    have message : size (Blob.json ⟨Blob.v1DirectMessage, body⟩) = 800039 := by
      rw [Blob.size_json, Blob.jsonSize, length, kind]
    have version : size "2.0" = 3 := by decide
    have one : size "1" = 1 := by decide
    have names : size "jsonrpc" = 7 ∧ size "method" = 6 ∧ size "params" = 6 ∧ size "id" = 2 ∧
        size "v1_mailbox_send" = 15 := by decide
    simp only [Fits, jsonRpc, size_object, size_array, List.map_cons, List.map_nil, List.sum_cons,
      List.sum_nil, List.length_cons, List.length_nil, size_quoted, token, mailbox, zero, message,
      version, one, names, maxMessageBytes]
    omega
  intro call listed auth mailbox message ttl asked
  simp only [floodRun, List.mem_cons, List.not_mem_nil, or_false] at listed
  rcases listed with rfl | rfl | rfl <;> cases asked
  · exact line
  · exact line

/-- The answer with both messages does not fit. -/
theorem floodRun_breaks : ¬∀ (config : ServerConfig) (envelope : Envelope)
    (calls : List (CallEnv symbolic × ServerRequest symbolic)),
    envelope.overhead + 2 ≤ maxMessageBytes → (∀ call ∈ calls, Posted envelope call) →
    (machine config).Always (Drains envelope) .empty calls := by
  intro property
  have short : (jsonRpc "1").overhead + 2 ≤ maxMessageBytes := by decide
  have large : ∃ body : Bytes, body.length = 600000 := ⟨List.replicate 600000 0, List.length_replicate⟩
  obtain ⟨body, length⟩ := large
  have always := property WatchedServer.exampleServer (jsonRpc "1") _ short (posted_floodRun length)
  obtain ⟨db, reached, page⟩ := Option.map_eq_some_iff.mp (page_floodRun body)
  have small := (drains_iff short).mp (always.last reached) 3 (.direct alice) 0 (by simp [page])
  rw [page] at small
  simp only [answerSize, entriesSize, List.map_cons, List.map_nil, List.sum_cons, List.sum_nil,
    floodEntry, entryOf, MailboxEntry.jsonSize, Blob.jsonSize, length, maxMessageBytes] at small
  omega

end ServerDb
end Nullspace
