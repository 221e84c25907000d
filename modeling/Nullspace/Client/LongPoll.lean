import Nullspace.Base.Machine
import Nullspace.Server.Mailbox
import Nullspace.Symbolic

/-!
# The long poller

All receivers of a client which wait at one server share a worker. It merges their requests
into one `v1_mailbox_multirecv`, one argument for each mailbox and token, and hands the answer
round: to every request of the mailbox which was served, or an error to everyone.

The answer of the server names the mailbox alone. `isolates_iff_unmixed` and
`answersLeast_iff_spared` say when the requests of other mailboxes and of other tokens are
served as if they had polled alone.
-/

namespace Nullspace

open Nullspace.Base

variable {P : Primitives}

/-- A receiver which waits for the first entry behind its cursor. -/
structure PollRequest (P : Primitives) where
  auth : AuthToken
  mailbox : MailboxId P
  after : NanoTimestamp
  /-- The channel to the receiver. -/
  respondTo : Nat
deriving DecidableEq

/-- What a receiver gets instead of an entry. -/
inductive PollError where
  | server (err : ServerRpcError)
  /-- "long poller shutdown" -/
  | shutdown
deriving DecidableEq

/-- The map of `v1_mailbox_multirecv`. -/
abbrev PollAnswer (P : Primitives) := List (MailboxId P × List (MailboxEntry P))

/-- Receivers which were answered. -/
abbrev Completions (P : Primitives) := List (PollRequest P × Except PollError (MailboxEntry P))

namespace PollRequest

/-- Requests of one mailbox and one token share an argument. -/
def key (request : PollRequest P) : MailboxId P × AuthToken := (request.mailbox, request.auth)

end PollRequest

/-- The map `min_after`. -/
def mergeAfter (minAfter : Table (MailboxId P × AuthToken) NanoTimestamp)
    (request : PollRequest P) : Table (MailboxId P × AuthToken) NanoTimestamp :=
  minAfter.insert request.key <|
    match minAfter.lookup request.key with
    | none => request.after
    | some existing => if request.after < existing then request.after else existing

/-- The map `indices`. -/
def mergeIndex (indices : Table (MailboxId P × AuthToken) (List Nat))
    (request : PollRequest P × Nat) : Table (MailboxId P × AuthToken) (List Nat) :=
  indices.insert request.1.key ((indices.lookup request.1.key).getD [] ++ [request.2])

/-- `build_args`: the least cursor of each mailbox and token, and the places of the requests
which it stands for. -/
def buildArgs (pending : List (PollRequest P)) :
    List (MailboxRecvArgs P) × Table (MailboxId P × AuthToken) (List Nat) :=
  ((pending.foldl mergeAfter ∅).rows.map fun row => ⟨row.1.2, row.1.1, row.2⟩,
    pending.zipIdx.foldl mergeIndex ∅)

/-- The merged cursor of a key is the least one of its requests. -/
def Merged (pending : List (PollRequest P)) (key : MailboxId P × AuthToken) :
    Option NanoTimestamp → Prop
  | none => ∀ request ∈ pending, request.key ≠ key
  | some after => (∃ request ∈ pending, request.key = key ∧ request.after = after) ∧
      ∀ request ∈ pending, request.key = key → after ≤ request.after

/-- A request with another key changes nothing for this one. -/
theorem Merged.apart {earlier : List (PollRequest P)} {request : PollRequest P}
    {key : MailboxId P × AuthToken} {found : Option NanoTimestamp} (merged : Merged earlier key found)
    (other : request.key ≠ key) : Merged (earlier ++ [request]) key found := by
  cases found with
  | none =>
      intro later listed
      rcases List.mem_append.mp listed with before | now
      · exact merged later before
      · exact List.mem_singleton.mp now ▸ other
  | some after =>
      obtain ⟨⟨first, member, named⟩, bound⟩ := merged
      refine ⟨⟨first, List.mem_append_left _ member, named⟩, ?_⟩
      intro later listed same
      rcases List.mem_append.mp listed with before | now
      · exact bound later before same
      · exact absurd (List.mem_singleton.mp now ▸ same) other

/-- A request joins the least cursor of its key. -/
theorem Merged.join {earlier : List (PollRequest P)} {request : PollRequest P}
    {after : NanoTimestamp} {found : Option NanoTimestamp}
    (merged : Merged earlier request.key found) (least : after ≤ request.after)
    (below : ∀ existing, found = some existing → after ≤ existing)
    (taken : after = request.after ∨ found = some after) :
    Merged (earlier ++ [request]) request.key (some after) := by
  constructor
  · rcases taken with rfl | rfl
    · exact ⟨request, List.mem_append_right _ List.mem_cons_self, rfl, rfl⟩
    · obtain ⟨first, member, named⟩ := merged.1
      exact ⟨first, List.mem_append_left _ member, named⟩
  · intro later listed same
    rcases List.mem_append.mp listed with before | now
    · cases found with
      | none => exact absurd same (merged later before)
      | some existing => exact UInt64.le_trans (below existing rfl) (merged.2 later before same)
    · exact List.mem_singleton.mp now ▸ least

/-- The map of cursors has the least one for each key. -/
theorem merged_foldl (pending : List (PollRequest P)) (key : MailboxId P × AuthToken) :
    Merged pending key ((pending.foldl mergeAfter ∅).lookup key) := by
  induction pending using List.reverseRecOn with
  | nil =>
      intro request listed
      exact absurd listed List.not_mem_nil
  | append_singleton earlier request ih =>
      rw [List.foldl_append, List.foldl_cons, List.foldl_nil, mergeAfter, Table.lookup_insert_eq]
      split_ifs with same
      · subst same
        cases found : (earlier.foldl mergeAfter ∅).lookup request.key with
        | none =>
            rw [found] at ih
            exact ih.join (UInt64.le_refl _) (by simp) (.inl rfl)
        | some existing =>
            rw [found] at ih
            dsimp only
            split_ifs with below
            · exact ih.join (UInt64.le_refl _)
                (fun _ same => Option.some.inj same ▸ UInt64.le_of_lt below) (.inl rfl)
            · exact ih.join (UInt64.not_lt.mp below)
                (fun _ same => Option.some.inj same ▸ UInt64.le_refl _) (.inr rfl)
      · exact ih.apart (Ne.symm same)

/-- An argument carries the least cursor of the requests which share it. -/
theorem mem_buildArgs {pending : List (PollRequest P)} {arg : MailboxRecvArgs P} :
    arg ∈ (buildArgs pending).1 ↔
      (∃ request ∈ pending, request.key = (arg.mailbox, arg.auth) ∧ request.after = arg.after) ∧
        ∀ request ∈ pending, request.key = (arg.mailbox, arg.auth) → arg.after ≤ request.after := by
  have merged := merged_foldl pending (arg.mailbox, arg.auth)
  have listed : arg ∈ (buildArgs pending).1 ↔
      (pending.foldl mergeAfter ∅).lookup (arg.mailbox, arg.auth) = some arg.after := by
    rw [← Table.mem_rows, buildArgs]
    constructor
    · intro member
      obtain ⟨row, stands, rfl⟩ := List.mem_map.mp member
      exact stands
    · exact fun stands => List.mem_map.mpr ⟨_, stands, rfl⟩
  rw [listed]
  constructor
  · intro found
    rw [found] at merged
    exact merged
  · rintro ⟨⟨request, member, named, after⟩, least⟩
    cases found : (pending.foldl mergeAfter ∅).lookup (arg.mailbox, arg.auth) with
    | none =>
        rw [found] at merged
        exact absurd named (merged request member)
    | some existing =>
        rw [found] at merged
        obtain ⟨⟨first, inside, firstNamed, rfl⟩, bound⟩ := merged
        rw [UInt64.le_antisymm (least first inside firstNamed)
          (after ▸ bound request member named)]

/-- The places of a key are those of its requests. -/
theorem mem_indices {pending : List (PollRequest P)} {key : MailboxId P × AuthToken}
    {place : Nat} : place ∈ ((buildArgs pending).2.lookup key).getD [] ↔
      ∃ request, pending[place]? = some request ∧ request.key = key := by
  rw [buildArgs]
  dsimp only
  induction pending using List.reverseRecOn with
  | nil => simp
  | append_singleton earlier request ih =>
      have grown : (∃ other, (earlier ++ [request])[place]? = some other ∧ other.key = key) ↔
          (∃ other, earlier[place]? = some other ∧ other.key = key) ∨
            place = earlier.length ∧ request.key = key := by
        rcases lt_trichotomy place earlier.length with inside | rfl | outside
        · simp [List.getElem?_append_left inside, inside.ne]
        · simp
        · have beyond : (earlier ++ [request]).length ≤ place := by
            rw [List.length_append, List.length_singleton]
            omega
          simp [List.getElem?_eq_none beyond, List.getElem?_eq_none outside.le, outside.ne']
      rw [List.zipIdx_append, List.foldl_append, grown, ← ih]
      simp only [List.zipIdx_cons, List.zipIdx_nil, List.foldl_cons, List.foldl_nil, mergeIndex,
        Table.lookup_insert_eq]
      split_ifs with same
      · subst same
        simp
      · simp [Ne.symm same]

/-- What an answer holds for the request at a place. -/
def entryFor (answer : PollAnswer P) (mailboxKeys : Table (MailboxId P × AuthToken) (List Nat))
    (request : PollRequest P) (place : Nat) : Option (MailboxEntry P) :=
  match mailboxKeys.lookup request.key with
  | none => none
  | some indices =>
      if place ∈ indices then
        match answer.lookup request.mailbox with
        | none => none
        | some entries => entries.find? fun entry => decide (request.after < entry.receivedAt)
      else none

/-- `username_poll_response`: the requests which it completes, and those which stay pending.
There is no response when the call fails on its way. -/
def usernamePollResponse (response : Option (Except ServerRpcError (PollAnswer P)))
    (mailboxKeys : Table (MailboxId P × AuthToken) (List Nat)) (pending : List (PollRequest P)) :
    Completions P × List (PollRequest P) :=
  match response with
  | none => ([], pending)
  | some (.error err) => (pending.map fun request => (request, .error (.server err)), [])
  | some (.ok answer) =>
      if answer.isEmpty then ([], pending)
      else
        (pending.zipIdx.filterMap fun request =>
            (entryFor answer mailboxKeys request.1 request.2).map fun entry => (request.1, .ok entry),
          (pending.zipIdx.filter fun request =>
            (entryFor answer mailboxKeys request.1 request.2).isNone).map Prod.fst)

/-- An answer to the arguments of the same requests is searched by mailbox. -/
theorem entryFor_own {pending : List (PollRequest P)} {request : PollRequest P} {place : Nat}
    (stands : pending[place]? = some request) (answer : PollAnswer P) :
    entryFor answer (buildArgs pending).2 request place =
      (answer.lookup request.mailbox).bind fun entries =>
        entries.find? fun entry => decide (request.after < entry.receivedAt) := by
  have listed := mem_indices.mpr ⟨request, stands, rfl⟩
  rw [entryFor]
  cases found : (buildArgs pending).2.lookup request.key with
  | none => simp [found] at listed
  | some indices =>
      rw [found, Option.getD_some] at listed
      dsimp only
      rw [if_pos listed]
      cases answer.lookup request.mailbox <;> rfl

/-- Every request is either completed or stays. -/
theorem perm_usernamePollResponse (response : Option (Except ServerRpcError (PollAnswer P)))
    (mailboxKeys : Table (MailboxId P × AuthToken) (List Nat)) (pending : List (PollRequest P)) :
    ((usernamePollResponse response mailboxKeys pending).1.map Prod.fst ++
      (usernamePollResponse response mailboxKeys pending).2).Perm pending := by
  rcases response with _ | err | answer
  · exact List.Perm.refl _
  · simp [usernamePollResponse, Function.comp_def]
  · rw [usernamePollResponse]
    split_ifs
    · exact List.Perm.refl _
    · have split : ∀ requests : List (PollRequest P × Nat),
          ((requests.filterMap fun request =>
              (entryFor answer mailboxKeys request.1 request.2).map fun entry =>
                ((request.1, .ok entry) : PollRequest P × Except PollError (MailboxEntry P))).map
            Prod.fst ++ (requests.filter fun request =>
              (entryFor answer mailboxKeys request.1 request.2).isNone).map Prod.fst).Perm
            (requests.map Prod.fst) := by
        intro requests
        induction requests with
        | nil => exact List.Perm.refl _
        | cons request rest ih =>
            cases found : entryFor answer mailboxKeys request.1 request.2 with
            | none => simpa [found] using List.perm_middle.trans (ih.cons _)
            | some entry => simpa [found] using ih
      simpa using split pending.zipIdx

/-- An answer completes the requests for which it has an entry. -/
theorem mem_usernamePollResponse {pending : List (PollRequest P)} {answer : PollAnswer P}
    {request : PollRequest P} {outcome : Except PollError (MailboxEntry P)} :
    (request, outcome) ∈
        (usernamePollResponse (some (.ok answer)) (buildArgs pending).2 pending).1 ↔
      request ∈ pending ∧ ∃ entries entry, answer.lookup request.mailbox = some entries ∧
        (entries.find? fun entry => decide (request.after < entry.receivedAt)) = some entry ∧
        outcome = .ok entry := by
  rw [usernamePollResponse]
  split_ifs with empty
  · rw [List.isEmpty_iff.mp empty]
    simp
  · rw [List.mem_filterMap]
    constructor
    · rintro ⟨⟨other, place⟩, stands, answered⟩
      have stands := List.mem_zipIdx_iff_getElem?.mp stands
      rw [entryFor_own stands] at answered
      obtain ⟨entry, found, same⟩ := Option.map_eq_some_iff.mp answered
      obtain ⟨entries, served, first⟩ := Option.bind_eq_some_iff.mp found
      cases same
      exact ⟨List.mem_of_getElem? stands, entries, entry, served, first, rfl⟩
    · rintro ⟨listed, entries, entry, served, first, rfl⟩
      obtain ⟨place, stands⟩ := List.mem_iff_getElem?.mp listed
      refine ⟨(request, place), List.mem_zipIdx_iff_getElem?.mpr stands, ?_⟩
      rw [entryFor_own stands, served, Option.bind_some, first]
      rfl

/-- One round of the worker: the call, and its answer handed round. -/
def poll (env : CallEnv P) (db : ServerDb P) (pending : List (PollRequest P)) :
    Completions P × List (PollRequest P) :=
  usernamePollResponse (some (db.mailboxMultirecv env (buildArgs pending).1).2)
    (buildArgs pending).2 pending

/-- The token of the request may receive. -/
def CanRecv (db : ServerDb P) (request : PollRequest P) : Prop :=
  (db.aclForToken request.mailbox request.auth).canRecv = true

instance (db : ServerDb P) (request : PollRequest P) : Decidable (CanRecv db request) :=
  inferInstanceAs (Decidable (_ = true))

/-- However the race of the mailboxes ends, access is denied to those only who have none. -/
def Isolates (db : ServerDb P) (pending : List (PollRequest P)) : Prop :=
  ∀ env request, (request, .error (.server .accessDenied)) ∈ (poll env db pending).1 →
    ¬CanRecv db request

/-- All tokens may receive, or none. -/
def Unmixed (db : ServerDb P) (pending : List (PollRequest P)) : Prop :=
  ∀ request ∈ pending, CanRecv db request → ∀ other ∈ pending, CanRecv db other

/-- The answer with the page of one mailbox. -/
def answerOf (mailbox : MailboxId P) (page : List (MailboxEntry P)) : PollAnswer P :=
  if page.isEmpty then [] else [(mailbox, page)]

/-- The mailbox which ends the race decides the answer. -/
theorem mailboxMultirecv_served {env : CallEnv P} {args : List (MailboxRecvArgs P)}
    {arg : MailboxRecvArgs P} (ends : (env.served.bind fun place => args[place]?) = some arg)
    (up : env.dbFails = false) (db : ServerDb P) :
    (db.mailboxMultirecv env args).2 =
      if (db.aclForToken arg.mailbox arg.auth).canRecv then
        .ok (answerOf arg.mailbox ((((db.purgeExpiredEntries env.now).entriesAfter env.now
          arg.mailbox arg.after).take ServerDb.pageLimit).map ServerDb.entryOf))
      else .error .accessDenied := by
  have same : (db.purgeExpiredEntries env.now).aclForToken arg.mailbox arg.auth =
      db.aclForToken arg.mailbox arg.auth := rfl
  simp only [ServerDb.mailboxMultirecv, ends, up, ServerDb.pollMailbox, same]
  cases (db.aclForToken arg.mailbox arg.auth).canRecv with
  | false => rfl
  | true =>
      generalize ((db.purgeExpiredEntries env.now).entriesAfter env.now arg.mailbox
        arg.after).take ServerDb.pageLimit = rows
      cases rows <;> rfl

/-- A call is denied through the mailbox which ends the race. -/
theorem mailboxMultirecv_denied {env : CallEnv P} {args : List (MailboxRecvArgs P)}
    {db : ServerDb P} (denied : (db.mailboxMultirecv env args).2 = .error .accessDenied) :
    ∃ arg ∈ args, (db.aclForToken arg.mailbox arg.auth).canRecv = false := by
  cases ends : env.served.bind fun place => args[place]? with
  | none => simp [ServerDb.mailboxMultirecv, ends] at denied
  | some arg =>
      cases up : env.dbFails with
      | true => simp [ServerDb.mailboxMultirecv, ends, up] at denied
      | false =>
          obtain ⟨place, -, stands⟩ := Option.bind_eq_some_iff.mp ends
          refine ⟨arg, List.mem_of_getElem? stands, ?_⟩
          rw [mailboxMultirecv_served ends up] at denied
          cases can : (db.aclForToken arg.mailbox arg.auth).canRecv with
          | false => rfl
          | true => simp [can] at denied

/-- A call in which a given argument ends the race. -/
def raceWonBy (place : Nat) : CallEnv P :=
  ⟨0, 0, fun _ => none, AuthToken.anonymous, false, none, some place⟩

/-- Every request has an argument. -/
theorem exists_arg {pending : List (PollRequest P)} {request : PollRequest P}
    (listed : request ∈ pending) :
    ∃ after, ⟨request.auth, request.mailbox, after⟩ ∈ (buildArgs pending).1 := by
  have merged := merged_foldl pending request.key
  cases found : (pending.foldl mergeAfter ∅).lookup request.key with
  | none =>
      rw [found] at merged
      exact absurd rfl (merged request listed)
  | some after => exact ⟨after, List.mem_map.mpr ⟨_, Table.mem_rows.mpr found, rfl⟩⟩

/-- A denied call completes all requests with the denial. -/
theorem errors_of_denied {env : CallEnv P} {db : ServerDb P} {pending : List (PollRequest P)}
    (denied : (db.mailboxMultirecv env (buildArgs pending).1).2 = .error .accessDenied)
    {request : PollRequest P} (listed : request ∈ pending) :
    (request, .error (.server .accessDenied)) ∈ (poll env db pending).1 := by
  rw [poll, denied]
  exact List.mem_map.mpr ⟨request, listed, rfl⟩

/-- Requests are isolated from each other exactly when all their tokens may receive, or none. -/
theorem isolates_iff_unmixed (db : ServerDb P) (pending : List (PollRequest P)) :
    Isolates db pending ↔ Unmixed db pending := by
  constructor
  · intro isolates request listed can other otherListed
    by_contra cannot
    obtain ⟨after, member⟩ := exists_arg otherListed
    obtain ⟨place, stands⟩ := List.mem_iff_getElem?.mp member
    have ends : ((raceWonBy place : CallEnv P).served.bind fun place =>
        (buildArgs pending).1[place]?) = some ⟨other.auth, other.mailbox, after⟩ := stands
    have denied : (db.mailboxMultirecv (raceWonBy place) (buildArgs pending).1).2 =
        .error .accessDenied := by
      rw [mailboxMultirecv_served ends rfl]
      exact if_neg cannot
    exact isolates _ request (errors_of_denied denied listed) can
  · intro unmixed env request completed can
    rw [poll] at completed
    rcases answered : (db.mailboxMultirecv env (buildArgs pending).1).2 with err | answer
    · rw [answered] at completed
      obtain ⟨same, listed, named⟩ := List.mem_map.mp completed
      cases named
      obtain ⟨arg, member, cannot⟩ := mailboxMultirecv_denied answered
      obtain ⟨⟨first, inside, key, -⟩, -⟩ := mem_buildArgs.mp member
      obtain ⟨mailbox, token⟩ := Prod.mk.inj key
      have allowed := unmixed request listed can first inside
      rw [CanRecv, mailbox, token, cannot] at allowed
      cases allowed
    · rw [answered, mem_usernamePollResponse] at completed
      obtain ⟨-, _, _, -, -, failed⟩ := completed
      cases failed

/-- A token of a device. -/
def deviceToken (byte : UInt8) : AuthToken := ⟨⟨byte :: List.replicate 19 0, by simp⟩⟩

/-- Alice receives her direct messages, and is no longer in the access list of a group. -/
def leftGroup : ServerDb symbolic :=
  { ServerDb.empty with
    mailboxAcl := (∅ : Table (MailboxId symbolic × List UInt8) AclRights).insert
      (.direct alice, symbolic.bcsHash (deviceToken 1)) ⟨false, true, true⟩ }

def leftGroupRequests : List (PollRequest symbolic) :=
  [⟨deviceToken 1, .direct alice, 0, 0⟩, ⟨deviceToken 1, .groupMessages ⟨[7]⟩, 0, 1⟩]

/-- The denial of the group's mailbox reaches the request for direct messages. -/
theorem leftGroup_breaks : ¬∀ (db : ServerDb symbolic) (pending : List (PollRequest symbolic)),
    Isolates db pending := by
  intro property
  have can : CanRecv leftGroup ⟨deviceToken 1, .direct alice, 0, 0⟩ := by decide
  have denied : (leftGroup.mailboxMultirecv (raceWonBy 0) (buildArgs leftGroupRequests).1).2 =
      .error .accessDenied := by decide
  exact property leftGroup leftGroupRequests _ _ (errors_of_denied denied List.mem_cons_self) can

/-- A page of `mailbox_multirecv`: the first hundred entries behind a cursor, by `received_at`. -/
def IsPage (entries : List (MailboxEntry P)) (after : NanoTimestamp)
    (page : List (MailboxEntry P)) : Prop :=
  ∃ sorted : List (MailboxEntry P),
    sorted.Perm (entries.filter fun entry => decide (after < entry.receivedAt)) ∧
      sorted.Pairwise (fun first second => first.receivedAt ≤ second.receivedAt) ∧
      page = sorted.take ServerDb.pageLimit

/-- What a mailbox holds for its receivers. -/
def contents (db : ServerDb P) (now : NanoTimestamp) (mailbox : MailboxId P) :
    List (MailboxEntry P) :=
  (db.mailboxEntries.filter fun row =>
    decide (row.mailboxId = mailbox) && !expiredAt now row.expiresAt).map ServerDb.entryOf

/-- The server answers with such pages as long as no time stamp leaves the range of its columns,
which is until the year 2262. -/
theorem isPage_entriesAfter {db : ServerDb P} {after : NanoTimestamp} (now : NanoTimestamp)
    (mailbox : MailboxId P) (dated : ∀ row ∈ db.mailboxEntries, row.receivedAt.toNat < 2 ^ 63)
    (small : after.toNat < 2 ^ 63) :
    IsPage (contents db now mailbox) after ((((db.purgeExpiredEntries now).entriesAfter now
      mailbox after).take ServerDb.pageLimit).map ServerDb.entryOf) := by
  refine ⟨((db.purgeExpiredEntries now).entriesAfter now mailbox after).map ServerDb.entryOf,
    ?_, ?_, List.map_take⟩
  · rw [contents, List.filter_map]
    refine List.Perm.map _ ((List.perm_insertionSort _ _).trans (List.Perm.of_eq ?_))
    rw [ServerDb.purgeExpiredEntries, List.filter_filter, List.filter_filter]
    refine List.filter_congr fun row listed => ?_
    have order : asI64 after < asI64 row.receivedAt ↔ after < row.receivedAt := by
      rw [asI64_of_lt small, asI64_of_lt (dated row listed), Int.ofNat_lt, UInt64.lt_iff_toNat_lt]
    simp only [ServerDb.entryOf, Function.comp, order, Bool.decide_and]
    grind
  · have total := ServerDb.entryLe_total (P := P)
    have trans := ServerDb.entryLe_trans (P := P)
    have stored : ∀ row ∈ (db.purgeExpiredEntries now).entriesAfter now mailbox after,
        asI64 row.receivedAt = row.receivedAt.toNat := by
      intro row listed
      have kept := (ServerDb.mem_entriesAfter.mp listed).1
      exact asI64_of_lt (dated row (List.mem_of_mem_filter kept))
    rw [List.pairwise_map]
    refine (List.pairwise_insertionSort ServerDb.entryLe _).imp_of_mem ?_
    intro first second firstListed secondListed ordered
    rw [ServerDb.entryLe, stored first firstListed, stored second secondListed] at ordered
    have bound : first.receivedAt.toNat ≤ second.receivedAt.toNat := by omega
    exact UInt64.le_iff_toNat_le.mpr bound

/-- The first entry behind a cursor. -/
structure LeastAfter (entries : List (MailboxEntry P)) (after : NanoTimestamp)
    (entry : MailboxEntry P) : Prop where
  listed : entry ∈ entries
  behind : after < entry.receivedAt
  least : ∀ other ∈ entries, after < other.receivedAt → entry.receivedAt ≤ other.receivedAt

/-- The completed requests have their first entries, and the others stay. -/
structure AnswersLeast (entries : MailboxId P → List (MailboxEntry P))
    (pending : List (PollRequest P)) (result : Completions P × List (PollRequest P)) : Prop where
  answered : ∀ request outcome, (request, outcome) ∈ result.1 →
    ∃ entry, outcome = .ok entry ∧ LeastAfter (entries request.mailbox) request.after entry
  kept : (result.1.map Prod.fst ++ result.2).Perm pending

/-- When there is something to answer an argument with, no request of its mailbox with another
token has an entry between its own cursor and that of the argument. -/
def Spared (entries : MailboxId P → List (MailboxEntry P)) (pending : List (PollRequest P))
    (arg : MailboxRecvArgs P) : Prop :=
  (∃ entry ∈ entries arg.mailbox, arg.after < entry.receivedAt) →
    ∀ request ∈ pending, request.mailbox = arg.mailbox → request.auth ≠ arg.auth →
      ∀ entry ∈ entries arg.mailbox, request.after < entry.receivedAt →
        arg.after < entry.receivedAt

/-- What a search in a page finds is the first entry behind its cursor, if none of those is
missing from the page's mailbox. -/
theorem leastAfter_of_find? {entries page : List (MailboxEntry P)} {cursor after : NanoTimestamp}
    {entry : MailboxEntry P} (isPage : IsPage entries cursor page)
    (found : (page.find? fun other => decide (after < other.receivedAt)) = some entry)
    (covers : ∀ other ∈ entries, after < other.receivedAt → cursor < other.receivedAt) :
    LeastAfter entries after entry := by
  obtain ⟨sorted, perm, ordered, rfl⟩ := isPage
  have listed : ∀ other, other ∈ sorted ↔ other ∈ entries ∧ cursor < other.receivedAt := by
    intro other
    rw [perm.mem_iff, List.mem_filter, decide_eq_true_eq]
  obtain ⟨-, front, rear, split, before⟩ := List.find?_eq_some_iff_append.mp found
  have whole : sorted = front ++ entry :: (rear ++ sorted.drop ServerDb.pageLimit) := by
    rw [← List.cons_append, ← List.append_assoc, ← split, List.take_append_drop]
  rw [whole] at ordered
  refine ⟨?_, by simpa using List.find?_some found, ?_⟩
  · have inside : entry ∈ sorted := List.mem_of_mem_take (List.mem_of_find?_eq_some found)
    exact ((listed entry).mp inside).1
  · intro other member behind
    have inside := (listed other).mpr ⟨member, covers other member behind⟩
    rw [whole, List.mem_append, List.mem_cons] at inside
    rcases inside with earlier | rfl | later
    · have missed := before other earlier
      simp [behind] at missed
    · exact UInt64.le_refl _
    · exact (List.pairwise_cons.mp (List.pairwise_append.mp ordered).2.1).1 other later

/-- An entry of a page lies behind the cursor. -/
theorem IsPage.mem {entries page : List (MailboxEntry P)} {after : NanoTimestamp}
    {entry : MailboxEntry P} (isPage : IsPage entries after page) (listed : entry ∈ page) :
    entry ∈ entries ∧ after < entry.receivedAt := by
  obtain ⟨sorted, perm, -, rfl⟩ := isPage
  simpa using perm.mem_iff.mp (List.mem_of_mem_take listed)

/-- A page is empty only when there is nothing behind the cursor. -/
theorem IsPage.exists_cons {entries page : List (MailboxEntry P)} {after : NanoTimestamp}
    {entry : MailboxEntry P} (isPage : IsPage entries after page) (listed : entry ∈ entries)
    (behind : after < entry.receivedAt) : ∃ first rest, page = first :: rest := by
  obtain ⟨sorted, perm, -, rfl⟩ := isPage
  have inside : entry ∈ sorted :=
    perm.mem_iff.mpr (List.mem_filter.mpr ⟨listed, decide_eq_true behind⟩)
  cases sorted with
  | nil => exact absurd inside List.not_mem_nil
  | cons first rest => exact ⟨first, _, List.take_succ_cons⟩

/-- The answer holds the page of its mailbox, if there is anything on it. -/
theorem lookup_answerOf {mailbox other : MailboxId P} {page entries : List (MailboxEntry P)} :
    (answerOf mailbox page).lookup other = some entries ↔
      other = mailbox ∧ page ≠ [] ∧ entries = page := by
  rw [answerOf]
  cases page with
  | nil => simp
  | cons first rest =>
      by_cases same : other = mailbox
      · subst same
        simp [eq_comm]
      · have apart : (other == mailbox) = false := beq_eq_false_iff_ne.mpr same
        simp [List.lookup_cons, apart, same]

/-- With a page of its argument, the worker gives no request a later entry than its first one
exactly when the requests of other tokens are spared. -/
theorem answersLeast_iff_spared (entries : MailboxId P → List (MailboxEntry P))
    (pending : List (PollRequest P)) {arg : MailboxRecvArgs P} (asked : arg ∈ (buildArgs pending).1)
    {page : List (MailboxEntry P)} (isPage : IsPage (entries arg.mailbox) arg.after page) :
    AnswersLeast entries pending (usernamePollResponse (some (.ok (answerOf arg.mailbox page)))
        (buildArgs pending).2 pending) ↔ Spared entries pending arg := by
  constructor
  · rintro answers ⟨top, topListed, above⟩ request listed mailbox token entry member behind
    by_contra hidden
    have below : entry.receivedAt ≤ arg.after := UInt64.not_lt.mp hidden
    obtain ⟨first, rest, rfl⟩ := isPage.exists_cons topListed above
    have later : arg.after < first.receivedAt := (isPage.mem List.mem_cons_self).2
    have reached : request.after < first.receivedAt :=
      UInt64.lt_trans (UInt64.lt_of_lt_of_le behind below) later
    have completed : (request, .ok first) ∈ (usernamePollResponse
        (some (.ok (answerOf arg.mailbox (first :: rest)))) (buildArgs pending).2 pending).1 :=
      mem_usernamePollResponse.mpr ⟨listed, first :: rest, first,
        lookup_answerOf.mpr ⟨mailbox, by simp, rfl⟩,
        List.find?_cons_of_pos (decide_eq_true reached), rfl⟩
    obtain ⟨_, same, least⟩ := answers.answered _ _ completed
    cases same
    have bound := least.least entry (mailbox ▸ member) behind
    exact UInt64.not_lt.mpr (UInt64.le_trans bound below) later
  · intro spared
    refine ⟨?_, perm_usernamePollResponse _ _ _⟩
    intro request outcome completed
    obtain ⟨listed, served, entry, looked, found, rfl⟩ := mem_usernamePollResponse.mp completed
    obtain ⟨mailbox, -, rfl⟩ := lookup_answerOf.mp looked
    refine ⟨entry, rfl, ?_⟩
    rw [mailbox]
    refine leastAfter_of_find? isPage found ?_
    intro other member behind
    by_cases token : request.auth = arg.auth
    · -- The cursor of the argument is the least one of this token.
      have merged := (mem_buildArgs.mp asked).2 request listed (Prod.ext mailbox token)
      exact UInt64.lt_of_le_of_lt merged behind
    · exact spared ⟨entry, isPage.mem (List.mem_of_find?_eq_some found)⟩ request listed mailbox token
        other member behind

/-- A mailbox with two entries. -/
def twoEntries (_ : MailboxId symbolic) : List (MailboxEntry symbolic) :=
  [⟨⟨Blob.v1DirectMessage, [1]⟩, 10, none⟩, ⟨⟨Blob.v1DirectMessage, [2]⟩, 20, none⟩]

/-- Two devices of one client wait at it, one behind the other. -/
def twoTokens : List (PollRequest symbolic) :=
  [⟨deviceToken 1, .direct alice, 5, 0⟩, ⟨deviceToken 2, .direct alice, 15, 1⟩]

theorem asked_twoTokens : ⟨deviceToken 2, .direct alice, 15⟩ ∈ (buildArgs twoTokens).1 := by
  decide

theorem isPage_twoEntries :
    IsPage (twoEntries (.direct alice)) 15 [⟨⟨Blob.v1DirectMessage, [2]⟩, 20, none⟩] := by
  refine ⟨[⟨⟨Blob.v1DirectMessage, [2]⟩, 20, none⟩], ?_, ?_, rfl⟩
  · exact List.Perm.of_eq (by decide)
  · exact List.pairwise_singleton _ _

theorem answersLeast_iff_spared_twoTokens :
    AnswersLeast twoEntries twoTokens (usernamePollResponse
        (some (.ok (answerOf (.direct alice) [⟨⟨Blob.v1DirectMessage, [2]⟩, 20, none⟩])))
        (buildArgs twoTokens).2 twoTokens) ↔
      Spared twoEntries twoTokens ⟨deviceToken 2, .direct alice, 15⟩ :=
  answersLeast_iff_spared twoEntries twoTokens asked_twoTokens isPage_twoEntries

/-- The first device gets an entry which is not its first one. -/
theorem twoTokens_breaks : ¬∀ (entries : MailboxId symbolic → List (MailboxEntry symbolic))
    (pending : List (PollRequest symbolic)) (arg : MailboxRecvArgs symbolic)
    (page : List (MailboxEntry symbolic)), arg ∈ (buildArgs pending).1 →
      IsPage (entries arg.mailbox) arg.after page →
        AnswersLeast entries pending (usernamePollResponse
          (some (.ok (answerOf arg.mailbox page))) (buildArgs pending).2 pending) := by
  intro property
  have answers := property twoEntries twoTokens _ _ asked_twoTokens isPage_twoEntries
  obtain ⟨entry, same, first⟩ := answers.answered ⟨deviceToken 1, .direct alice, 5, 0⟩
    (.ok ⟨⟨Blob.v1DirectMessage, [2]⟩, 20, none⟩) (by decide)
  cases same
  exact absurd (first.least ⟨⟨Blob.v1DirectMessage, [1]⟩, 10, none⟩ (by decide) (by decide))
    (by decide)

/-- `LONG_POLL_MIN_MS` and `LONG_POLL_MAX_MS`. -/
def clampPoll (timeout : Nat) : Nat := max 15000 (min timeout (30 * 60 * 1000))

def aimdIncrease (current : Nat) : Nat := clampPoll (min (current + 5000) (2 ^ 64 - 1))

/-- The code halves through a `f64`, which is exact in this range. -/
def aimdDecrease (current : Nat) : Nat := clampPoll (current / 2)

/-- The loop of `run_server_worker`. -/
structure PollWorker (P : Primitives) where
  pending : List (PollRequest P)
  timeoutMs : Nat
  stopped : Bool
  /-- The requests which were answered. The code keeps no record. -/
  completed : Completions P

inductive PollEvent (P : Primitives) where
  | newRequest (request : PollRequest P)
  /-- A poll ends before the next request comes. -/
  | pollResponse (response : Option (Except ServerRpcError (PollAnswer P)))
  | shutdown

namespace PollWorker

def fresh : PollWorker P := ⟨[], 15000, false, []⟩

/-- The timeout of the next poll. -/
def nextTimeout (current : Nat) : Option (Except ServerRpcError (PollAnswer P)) → Nat
  | none => aimdDecrease current
  | some (.ok answer) => if answer.isEmpty then aimdIncrease current else current
  | some (.error _) => current

/-- The worker as a machine. It polls only for somebody. -/
def machine : Machine (PollWorker P) (PollEvent P) where
  step worker event :=
    if worker.stopped then none
    else
      match event with
      | .newRequest request => some { worker with pending := worker.pending ++ [request] }
      | .pollResponse response =>
          if worker.pending.isEmpty then none
          else
            let result := usernamePollResponse response (buildArgs worker.pending).2 worker.pending
            some { worker with
              pending := result.2
              timeoutMs := nextTimeout worker.timeoutMs response
              completed := worker.completed ++ result.1 }
      | .shutdown =>
          some { worker with
            pending := []
            stopped := true
            completed := worker.completed ++
              worker.pending.map fun request => (request, .error .shutdown) }

/-- The requests which a run brings. -/
def requestsOf (events : List (PollEvent P)) : List (PollRequest P) :=
  events.filterMap fun
    | .newRequest request => some request
    | _ => none

/-- What was answered and what waits grow by what the step brings. -/
theorem perm_step {worker next : PollWorker P} {event : PollEvent P}
    (taken : machine.step worker event = some next) :
    (next.completed.map Prod.fst ++ next.pending).Perm
      (worker.completed.map Prod.fst ++ worker.pending ++ requestsOf [event]) := by
  simp only [machine] at taken
  cases running : worker.stopped with
  | true => simp [running] at taken
  | false =>
      rw [running, if_neg Bool.false_ne_true] at taken
      cases event with
      | newRequest request =>
          cases taken
          rw [List.append_assoc]
          exact List.Perm.refl _
      | pollResponse response =>
          dsimp only at taken
          split_ifs at taken
          cases taken
          rw [List.map_append, List.append_assoc]
          refine List.Perm.trans ?_ (List.Perm.of_eq (List.append_nil _).symm)
          exact (perm_usernamePollResponse response _ worker.pending).append_left _
      | shutdown =>
          cases taken
          refine List.Perm.of_eq ?_
          simp [requestsOf, Function.comp_def]

/-- No request is lost, and none is answered twice. -/
theorem perm_exec {events : List (PollEvent P)} {worker : PollWorker P}
    (reached : machine.exec fresh events = some worker) :
    (worker.completed.map Prod.fst ++ worker.pending).Perm (requestsOf events) := by
  induction events using List.reverseRecOn generalizing worker with
  | nil =>
      cases reached
      exact List.Perm.refl _
  | append_singleton events event ih =>
      obtain ⟨before, reached, taken⟩ := Machine.exec_snoc.mp reached
      have split : requestsOf (events ++ [event]) = requestsOf events ++ requestsOf [event] :=
        List.filterMap_append
      rw [split]
      exact (perm_step taken).trans ((ih reached).append_right _)

end PollWorker
end Nullspace
