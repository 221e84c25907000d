import Nullspace.Base.Machine
import Nullspace.Client.DeviceRows
import Nullspace.Client.Pages

/-!
# Overviews

Three queries tell in short what others tell in full: the list of the conversations has the
last message of each one, and the details of a user have the groups in common and the time of
the last message of the user. In every run of a device the list agrees with the histories,
`surveys_always`, and the time is that of the newest message which the user sent,
`tells_always`.
-/

namespace Nullspace

open Nullspace.Base

variable {P : Primitives}

inductive MessageDirection where
  | incoming
  | outgoing
deriving DecidableEq

structure UserLastMessageSummary where
  receivedAt : Option NanoTimestamp
  direction : MessageDirection
  preview : String
deriving DecidableEq

namespace ClientDb

/-- The rows of the direct conversation with a user which the local user did not send. -/
def incomingRows (db : ClientDb P) (localUsername otherUsername : UserName) : List ConvoMessage :=
  (db.joinedMessages.filter fun entry =>
    decide (entry.2 = .direct otherUsername ∧ entry.1.senderUsername ≠ localUsername)).map Prod.fst

/-- `last_dm_message_summary`. -/
def lastDmMessageSummary (db : ClientDb P) (localUsername otherUsername : UserName) :
    Option UserLastMessageSummary :=
  let newest := (newest ConvoMessage.id 1 (db.incomingRows localUsername otherUsername)).head?
  (newest.bind ConvoMessage.receivedAt).map fun receivedAt => ⟨some receivedAt, .incoming, ""⟩

/-- `common_groups`, in the order of the bytes of the identifiers. -/
def commonGroups (db : ClientDb P) (localUsername otherUsername : UserName) : List (GroupId P) :=
  ((db.groups.rows.filter fun row =>
      row.2.roster.senderActive otherUsername && row.2.roster.senderActive localUsername).map
    Prod.fst).mergeSort fun first second => decide (Bcs.toBytes first ≤ Bcs.toBytes second)

/-- `group_members`, in the order of the usernames. -/
def groupMembers (env : ClientEnv P) (groupId : GroupId P) (db : ClientDb P) :
    ClientDb P × Except EntryError (List (UserName × RosterMember)) :=
  if env.fails .identity then (db, .error .database)
  else
    match env.identity with
    | none => (db, .error (.said "client not ready"))
    | some _ =>
        match db.groups.lookup groupId with
        | none => (db, .error (.said "group not found"))
        | some group =>
            if env.fails .connection then (db, .error .database)
            else
              match db.loadRoster env groupId group.descriptor.initAdmin with
              | (db, .error err) => (db, .error err)
              | (db, .ok ()) =>
                  if env.fails .member then (db, .error .database)
                  else
                    match db.groups.lookup groupId with
                    | none => (db, .ok [])
                    | some group =>
                        (db, .ok (group.roster.members.rows.mergeSort fun first second =>
                          decide (first.1.str ≤ second.1.str)))

variable {json : JsonReader P} {env : ReadEnv P} {db : ClientDb P}

/-- An incoming row stands in the direct conversation and is another user's. -/
theorem mem_incomingRows {localUsername otherUsername : UserName} {row : ConvoMessage} :
    row ∈ db.incomingRows localUsername otherUsername ↔
      (row, .direct otherUsername) ∈ db.joinedMessages ∧ row.senderUsername ≠ localUsername := by
  simp only [incomingRows, List.mem_map, List.mem_filter, decide_eq_true_eq]
  constructor
  · rintro ⟨⟨_, _⟩, ⟨joined, rfl, foreign⟩, rfl⟩
    exact ⟨joined, foreign⟩
  · rintro ⟨joined, foreign⟩
    exact ⟨(row, _), ⟨joined, rfl, foreign⟩, rfl⟩

/-- Joined rows are rows, in their order. -/
theorem joinedMessages_sublist (db : ClientDb P) :
    (db.joinedMessages.map Prod.fst).Sublist db.convoMessages := by
  rw [joinedMessages, List.map_filterMap]
  generalize db.convoMessages = rows
  induction rows with
  | nil => exact .slnil
  | cons row rest ih =>
      cases standing : db.convoOf? row.convoId with
      | none =>
          rw [List.filterMap_cons_none (by rw [standing]; rfl)]
          exact ih.cons row
      | some convo =>
          rw [List.filterMap_cons_some (by rw [standing]; rfl)]
          exact ih.cons_cons row

/-- A group is common when both users are active in it. -/
theorem mem_commonGroups {localUsername otherUsername : UserName} {groupId : GroupId P} :
    groupId ∈ db.commonGroups localUsername otherUsername ↔
      ∃ group, db.groups.lookup groupId = some group ∧
        group.roster.senderActive otherUsername = true ∧
          group.roster.senderActive localUsername = true := by
  simp only [commonGroups, List.mem_mergeSort, List.mem_map, List.mem_filter, Bool.and_eq_true]
  constructor
  · rintro ⟨⟨_, group⟩, ⟨listed, both⟩, rfl⟩
    exact ⟨group, Table.mem_rows.mp listed, both⟩
  · rintro ⟨group, looked, both⟩
    exact ⟨(groupId, group), ⟨Table.mem_rows.mpr looked, both⟩, rfl⟩

/-- A group is in common to two users exactly if its roster lists both as active. -/
theorem mem_commonGroups_of_lookup {localUsername otherUsername : UserName} {groupId : GroupId P}
    {group : GroupRecord P} (looked : db.groups.lookup groupId = some group) :
    groupId ∈ db.commonGroups localUsername otherUsername ↔
      ∀ username ∈ [localUsername, otherUsername], ∃ member,
        (username, member) ∈ group.roster.members.rows ∧ member.isActive = true := by
  have active : ∀ username, group.roster.senderActive username = true ↔
      ∃ member, (username, member) ∈ group.roster.members.rows ∧ member.isActive = true := by
    intro username
    simp only [Table.mem_rows, GroupRoster.senderActive, GroupRoster.get]
    cases group.roster.members.lookup username with
    | none => simp
    | some member => simp
  simp only [mem_commonGroups, looked, Option.some.injEq, exists_eq_left', active,
    List.forall_mem_cons, List.not_mem_nil, false_implies, implies_true, and_true]
  exact and_comm

/-- Once the members of a group are shown, it is in common to two users exactly if both are
shown as active ones. -/
theorem mem_commonGroups_of_groupMembers {surroundings : ClientEnv P} {groupId : GroupId P}
    {next : ClientDb P} {members : List (UserName × RosterMember)}
    (shown : db.groupMembers surroundings groupId = (next, .ok members))
    {localUsername otherUsername : UserName} (known : groupId ∈ next.groups) :
    groupId ∈ next.commonGroups localUsername otherUsername ↔
      ∀ username ∈ [localUsername, otherUsername],
        ∃ member, (username, member) ∈ members ∧ member.isActive = true := by
  rw [groupMembers] at shown
  split at shown
  · cases shown
  · split at shown
    · cases shown
    · split at shown
      · cases shown
      · split at shown
        · cases shown
        · split at shown
          · cases shown
          · split at shown
            · cases shown
            · split at shown
              · rename_i absent
                cases shown
                exact absurd known (AList.lookup_eq_none.mp absent)
              · rename_i group looked
                cases shown
                rw [mem_commonGroups_of_lookup looked]
                simp only [List.mem_mergeSort]

/-- What is shown of a row does not depend on what is stored. -/
theorem decodeRow_result (json : JsonReader P) (env : ReadEnv P) (db other : ClientDb P)
    (row : ConvoMessage) :
    (db.decodeRow json env row).2 = (other.decodeRow json env row).2 := by
  rw [decodeRow, decodeRow, decodeMessageContent, decodeMessageContent]
  split
  · rfl
  · split
    · rfl
    · split
      · cases json.attachment row.body with
        | none => rfl
        | some root =>
            dsimp only
            split <;> rfl
      · rfl

/-- The last message is listed as a history of one message shows it. -/
theorem showRows_of_lastView {convo : ConvoId P} {last : Option ConvoMessage} {next : ClientDb P}
    {shown : Option (MessageView P)} (viewed : db.lastView json env convo last = (next, .ok shown))
    (other : ClientDb P) : (other.showRows json env convo last.toList).2 = .ok shown.toList := by
  cases last with
  | none =>
      cases viewed
      rfl
  | some row =>
      have same := decodeRow_result json env db other row
      rw [lastView] at viewed
      rw [Option.toList_some, showRows]
      split at viewed
      · cases viewed
      · rename_i aborts decoded
        cases viewed
        rw [decoded] at same
        split
        · rename_i aborted
          rw [aborted] at same
          cases same
          exact (aborts rfl).elim
        · rfl
        · rename_i decodes
          rw [decodes] at same
          cases same
      · rename_i decoded
        cases viewed
        rw [decoded] at same
        split
        · rename_i aborted
          rw [aborted] at same
          cases same
        · rename_i fails
          rw [fails] at same
          cases same
        · rename_i decodes
          rw [decodes] at same
          cases same
          rfl

/-- The list has the conversations of the query in their order, each with its last message. -/
theorem summarize_spec {rows : List (ConvoId P × Option ConvoMessage)} {next : ClientDb P}
    {list : List (ConvoSummary P)} (listed : db.summarize json env rows = (next, .ok list)) :
    list.map ConvoSummary.convoId = rows.map Prod.fst ∧ ∀ summary ∈ list,
      ∃ last, (summary.convoId, last) ∈ rows ∧ ∀ other : ClientDb P,
        (other.showRows json env summary.convoId last.toList).2 =
          .ok summary.lastMessage.toList := by
  induction rows generalizing db list with
  | nil =>
      cases listed
      exact ⟨rfl, fun summary none => absurd none List.not_mem_nil⟩
  | cons entry rest ih =>
      rw [summarize] at listed
      split at listed
      · cases listed
      · rename_i middle shown viewed
        cases later : middle.summarize json env rest with
        | mk final result =>
            rw [later] at listed
            cases result with
            | error err => cases listed
            | ok others =>
                cases listed
                obtain ⟨convos, summaries⟩ := ih later
                refine ⟨congrArg _ convos, ?_⟩
                intro summary inside
                rcases List.mem_cons.mp inside with rfl | behind
                · exact ⟨_, List.mem_cons_self, showRows_of_lastView viewed⟩
                · obtain ⟨last, row, shows⟩ := summaries summary behind
                  exact ⟨last, List.mem_cons_of_mem _ row, shows⟩

/-- The last message of a conversation is its row with the greatest identifier. -/
theorem lastMessage_eq_some (ids : (db.convoMessages.map ConvoMessage.id).Nodup) {convoId : Nat}
    {row : ConvoMessage} :
    db.lastMessage convoId = some row ↔ row ∈ db.convoMessages ∧ row.convoId = convoId ∧
      ∀ other ∈ db.convoMessages, other.convoId = convoId → other.id ≤ row.id := by
  have found : ∀ {last}, db.lastMessage convoId = some last →
      last ∈ db.convoMessages ∧ last.convoId = convoId ∧
        ∀ other ∈ db.convoMessages, other.convoId = convoId → other.id ≤ last.id := by
    intro last looked
    obtain ⟨listed, owns⟩ := List.mem_filter.mp (List.mem_of_find?_eq_some looked)
    have greatest := List.find?_some looked
    rw [List.all_eq_true] at greatest
    refine ⟨listed, of_decide_eq_true owns, fun other inside same => ?_⟩
    exact (of_decide_eq_true (greatest other inside)).resolve_left (not_not_intro same)
  refine ⟨found, ?_⟩
  rintro ⟨listed, owns, greatest⟩
  cases looked : db.lastMessage convoId with
  | none =>
      have none := List.find?_eq_none.mp looked row
        (List.mem_filter.mpr ⟨listed, decide_eq_true owns⟩)
      rw [List.all_eq_true] at none
      refine absurd (fun other inside => decide_eq_true ?_) none
      by_cases same : other.convoId = convoId
      · exact .inr (greatest other inside same)
      · exact .inl same
  | some last =>
      obtain ⟨lastListed, lastOwns, lastGreatest⟩ := found looked
      have sameId : last.id = row.id :=
        Nat.le_antisymm (greatest last lastListed lastOwns) (lastGreatest row listed owns)
      rw [List.inj_on_of_nodup_map ids lastListed listed sameId]

/-- A history of one message has the last message. -/
theorem historyRows_one (ids : (db.convoMessages.map ConvoMessage.id).Nodup)
    (bounded : ∀ row ∈ db.convoMessages, row.id < 2 ^ 63) {convo : ConvoId P} {found : ConvoRow}
    (looked : db.convos.lookup convo = some found) :
    db.historyRows convo none none 1 = (db.lastMessage found.id).toList := by
  have whole : (db.convoMessages.filter fun message => message.convoId = found.id ∧
      (message.id : Int) ≤ (none : Option Int).getD (2 ^ 63 - 1) ∧
        (none : Option Int).getD (-2 ^ 63) ≤ (message.id : Int)) =
          db.convoMessages.filter fun message => message.convoId = found.id := by
    refine List.filter_congr fun row listed => ?_
    have below := bounded row listed
    rw [decide_eq_decide, Option.getD_none, Option.getD_none]
    exact and_iff_left ⟨by omega, by omega⟩
  have page : newest ConvoMessage.id 1 (db.convoMessages.filter fun message =>
      message.convoId = found.id) = (db.lastMessage found.id).toList := by
    have head : (newest ConvoMessage.id 1 (db.convoMessages.filter fun message =>
        message.convoId = found.id)).head? = db.lastMessage found.id := by
      refine Option.ext fun row => ?_
      rw [head_newest_eq_some (ids.sublist (List.filter_sublist.map _)), lastMessage_eq_some ids]
      simp only [List.mem_filter, decide_eq_true_eq, and_imp, and_assoc]
    have short : (newest ConvoMessage.id 1 (db.convoMessages.filter fun message =>
        message.convoId = found.id)).length ≤ 1 := List.length_take_le 1 _
    rw [← head]
    cases rows : newest ConvoMessage.id 1 (db.convoMessages.filter fun message =>
        message.convoId = found.id) with
    | nil => rfl
    | cons first rest =>
        rw [rows, List.length_cons] at short
        rw [List.length_eq_zero_iff.mp (show rest.length = 0 by omega)]
        rfl
  rw [newest] at page
  have once : UInt16.toNat 1 = 1 := rfl
  rw [historyRows, looked]
  dsimp only
  rw [whole, once, page]
  cases db.lastMessage found.id <;> rfl

/-- What the list is ordered by for a conversation. -/
def orderOf (db : ClientDb P) (convo : ConvoId P) : List Int :=
  match db.convos.lookup convo with
  | none => []
  | some row => listKey row (db.lastMessage row.id)

/-- The query has each conversation once, with its last message. -/
theorem mem_listRows {convo : ConvoId P} {last : Option ConvoMessage} :
    (convo, last) ∈ db.listRows ↔
      ∃ found, db.convos.lookup convo = some found ∧ last = db.lastMessage found.id := by
  simp only [listRows, List.mem_map, List.mem_mergeSort]
  constructor
  · rintro ⟨_, ⟨⟨other, row⟩, listed, rfl⟩, same⟩
    cases same
    exact ⟨row, Table.mem_rows.mp listed, rfl⟩
  · rintro ⟨row, looked, rfl⟩
    exact ⟨_, ⟨(convo, row), Table.mem_rows.mpr looked, rfl⟩, rfl⟩

/-- Each conversation is listed once. -/
theorem nodup_listRows : (db.listRows.map Prod.fst).Nodup := by
  rw [listRows, List.map_map]
  refine ((List.mergeSort_perm _ _).map _).nodup_iff.mpr ?_
  rw [List.map_map]
  exact db.convos.rows_keys_nodup

/-- Conversations are listed in the order of their last messages. -/
theorem listRows_ordered : db.listRows.Pairwise fun first second =>
    db.orderOf second.1 ≤ db.orderOf first.1 := by
  rw [listRows, List.pairwise_map]
  refine (List.pairwise_mergeSort ?_ ?_ _).imp_of_mem ?_
  · intro first second third before after
    rw [decide_eq_true_eq] at before after ⊢
    exact le_trans after before
  · intro first second
    rw [Bool.or_eq_true, decide_eq_true_eq, decide_eq_true_eq]
    exact le_total _ _
  intro first second firstListed secondListed below
  obtain ⟨⟨convo, row⟩, inside, rfl⟩ := List.mem_map.mp (List.mem_mergeSort.mp firstListed)
  obtain ⟨⟨other, row'⟩, inside', rfl⟩ := List.mem_map.mp (List.mem_mergeSort.mp secondListed)
  rw [orderOf, orderOf, Table.mem_rows.mp inside, Table.mem_rows.mp inside']
  exact of_decide_eq_true below

/-- The list of the conversations agrees with their histories. -/
structure Surveys (json : JsonReader P) (env : ReadEnv P) (db : ClientDb P)
    (list : List (ConvoSummary P)) : Prop where
  once : (list.map ConvoSummary.convoId).Nodup
  every : ∀ convo, convo ∈ list.map ConvoSummary.convoId ↔ convo ∈ db.convos
  ordered : list.Pairwise fun first second =>
    db.orderOf second.convoId ≤ db.orderOf first.convoId
  agrees : ∀ summary ∈ list, (db.convoHistory json env summary.convoId none none 1).2 =
    .ok summary.lastMessage.toList

/-- A list which is returned agrees with the histories. -/
theorem surveys_of_convoList (ids : (db.convoMessages.map ConvoMessage.id).Nodup)
    (bounded : ∀ row ∈ db.convoMessages, row.id < 2 ^ 63) {next : ClientDb P}
    {list : List (ConvoSummary P)} (listed : db.convoList json env = (next, .ok list)) :
    db.Surveys json env list := by
  rw [convoList] at listed
  split at listed
  · cases listed
  · rename_i works
    obtain ⟨convos, summaries⟩ := summarize_spec listed
    refine ⟨convos ▸ nodup_listRows, ?_, ?_, ?_⟩
    · intro convo
      rw [convos, List.mem_map, ← AList.lookup_isSome, Option.isSome_iff_exists]
      constructor
      · rintro ⟨⟨_, last⟩, inside, rfl⟩
        obtain ⟨found, looked, _⟩ := mem_listRows.mp inside
        exact ⟨found, looked⟩
      · rintro ⟨found, looked⟩
        exact ⟨(convo, db.lastMessage found.id), mem_listRows.mpr ⟨found, looked, rfl⟩, rfl⟩
    · have order : db.listRows.Pairwise fun first second =>
        db.orderOf second.1 ≤ db.orderOf first.1 := listRows_ordered
      rw [← List.pairwise_map (f := Prod.fst) (R := fun first second =>
        db.orderOf second ≤ db.orderOf first), ← convos, List.pairwise_map] at order
      exact order
    · intro summary inside
      obtain ⟨last, row, shows⟩ := summaries summary inside
      obtain ⟨found, looked, rfl⟩ := mem_listRows.mp row
      rw [convoHistory, if_neg works, historyRows_one ids bounded looked]
      exact shows db

/-- The rows of before, and one row at most which has a time of receipt. -/
def AddsReceived (db next : ClientDb P) : Prop :=
  next.convoMessages = db.convoMessages ∨ ∃ row receivedAt,
    next.convoMessages = db.convoMessages ++ [row] ∧ row.receivedAt = some receivedAt

/-- A message which is stored has a time of receipt. -/
theorem addsReceived_withMessage (db : ClientDb P) {next : ClientDb P} {convo : ConvoId P} {now : NanoTimestamp}
    {sender : UserName} {content : Event P} {receivedAt : NanoTimestamp}
    (rows : next.convoMessages = db.withMessage convo now sender content receivedAt) :
    AddsReceived db next := by
  rw [withMessage_eq] at rows
  split at rows
  · exact .inl rows
  · exact .inr ⟨_, receivedAt, rows, rfl⟩

/-- Processing an entry adds one received row at most. -/
theorem addsReceived_entry (json : JsonReader P) (db : ClientDb P) (event : EntryEvent P) :
    AddsReceived db (event.process json db).1 := by
  cases event with
  | direct env key entry =>
      rw [EntryEvent.process]
      rcases InboxRun.processMailboxEntry_cases json env key entry db with
        ⟨_, same⟩ | ⟨identity, _, _, _, same⟩
      · rw [same]
        exact .inl rfl
      · rw [same]
        obtain ⟨rows, _⟩ :=
          (db.updateMailboxAfter key entry.receivedAt).receiveDirect_spec json env identity entry
        split at rows
        · exact .inl rows
        · split at rows
          · exact .inl rows
          · exact addsReceived_withMessage (db.updateMailboxAfter key entry.receivedAt) rows
  | group env groupId row entry =>
      rw [EntryEvent.process]
      by_cases rekey : entry.message.kind = Blob.v1GroupRekey
      · rw [ClientDb.processGroupMessageEntry, if_pos rekey]
        obtain ⟨groups, same⟩ := groupsOnly_rekey env groupId row entry.message db
        rw [same]
        exact .inl rfl
      · obtain ⟨rows, _⟩ := db.processGroupMessageEntry_spec json env groupId row rekey
        split at rows
        · exact .inl rows
        · split at rows
          · exact .inl rows
          · exact addsReceived_withMessage db rows

end ClientDb

/-- The identity with which an entry is processed is that of the user. -/
def EntryEvent.OfUser (username : UserName) : EntryEvent P → Prop
  | .direct env _ _ => ∀ identity ∈ env.identity, identity.username = username
  | .group _ _ _ _ => True

instance (username : UserName) : (event : EntryEvent P) → Decidable (event.OfUser username)
  | .direct env _ _ => inferInstanceAs (Decidable (∀ identity ∈ env.identity, _))
  | .group _ _ _ _ => inferInstanceAs (Decidable True)

/-- A conversation is that of the user with the sender, or the one to which the user sends. -/
theorem EntryEvent.addressed {json : JsonReader P} {username : UserName} {event : EntryEvent P}
    (own : event.OfUser username) {db : ClientDb P} {convo : ConvoId P} {shown : ShownEvent}
    (brought : (event.process json db).2 = some (convo, shown)) :
    ∃ recipient, Addressed username shown.sender recipient convo := by
  cases event with
  | direct env key entry =>
      rw [EntryEvent.process, ClientDb.directEvent] at brought
      split at brought
      · cases brought
      · rename_i identity found
        split at brought
        · cases brought
        · split at brought
          · cases brought
          · rename_i target sender content write
            split at brought
            · cases brought
            · cases brought
              rw [ClientDb.directWrite] at write
              split at write
              · split at write
                · cases write
                · split at write
                  · rename_i read
                    cases write
                    exact ⟨_, own identity found ▸ (readDirect_addressed read).2.2⟩
                  · cases write
              · cases write
  | group env groupId row entry =>
      rw [EntryEvent.process, ClientDb.groupEvent] at brought
      split at brought
      · cases brought
      · split at brought
        · cases brought
        · rename_i target sender content write
          split at brought
          · cases brought
          · cases brought
            rw [ClientDb.groupWrite] at write
            split at write
            · split at write
              · cases write
              · split at write
                · rename_i read
                  cases write
                  exact ⟨_, (readGroupEvent_addressed username read).2.2⟩
                · cases write
            · cases write

/-- The device has the user's identity. -/
def DeviceStep.OfUser (username : UserName) : DeviceStep P → Prop
  | .entry event => event.OfUser username
  | .queue _ _ _ _ _ => True

instance (username : UserName) : (step : DeviceStep P) → Decidable (step.OfUser username)
  | .entry event => inferInstanceAs (Decidable (event.OfUser username))
  | .queue _ _ _ _ _ => inferInstanceAs (Decidable True)

inductive OverviewEvent (P : Primitives) where
  | device (step : DeviceStep P)
  /-- A message was sent, or was given up with an error. -/
  | receive (id : Nat) (receivedAt : NanoTimestamp) (sendError : Option String)
  /-- The groups change, by whatever operation. -/
  | groups (groups : Table (GroupId P) (GroupRecord P))
  | convoList (env : ReadEnv P)
  | convoHistory (env : ReadEnv P) (convo : ConvoId P) (before after : Option Int) (limit : UInt16)

namespace Overview

/-- The database of a device. The identifiers of rows are `i64`. -/
def machine (json : JsonReader P) (username : UserName) :
    Machine (ClientDb P) (OverviewEvent P) where
  step db
    | .device step =>
        if step.OfUser username ∧ nextRowId (db.convoMessages.map ConvoMessage.id) < 2 ^ 63 then
          some (step.run json username db)
        else none
    | .receive id receivedAt sendError =>
        some (match sendError with
          | none => db.markMessageSent id receivedAt
          | some err => db.markMessageFailed id err receivedAt)
    | .groups groups => some { db with groups := groups }
    | .convoList env => some (db.convoList json env).1
    | .convoHistory env convo before after limit =>
        some (db.convoHistory json env convo before after limit).1

/-- What every run keeps of the rows. -/
structure Sound (username : UserName) (db : ClientDb P) : Prop where
  filed : db.Filed
  ids : (db.convoMessages.map ConvoMessage.id).Nodup
  bounded : ∀ row ∈ db.convoMessages, row.id < 2 ^ 63
  addressed : ∀ convo event, (some convo, event) ∈ db.contents →
    ∃ recipient, Addressed username event.sender recipient convo
  received : ∀ row ∈ db.convoMessages, row.receivedAt = none → row.senderUsername = username

theorem sound_empty (username : UserName) : Sound username (ClientDb.empty : ClientDb P) where
  filed := ClientDb.filed_empty
  ids := List.nodup_nil
  bounded _ listed := absurd listed List.not_mem_nil
  addressed _ _ listed := absurd listed List.not_mem_nil
  received _ listed := absurd listed List.not_mem_nil

variable {json : JsonReader P} {username : UserName} {db next : ClientDb P}

theorem Sound.of_same (sound : Sound username db) (convos : next.convos = db.convos)
    (rows : next.convoMessages = db.convoMessages) : Sound username next := by
  obtain ⟨filed, contents⟩ := sound.filed.of_same convos rows
  exact ⟨filed, rows ▸ sound.ids, rows ▸ sound.bounded, contents ▸ sound.addressed,
    rows ▸ sound.received⟩

theorem Sound.of_onlyRoots (sound : Sound username db) (only : ClientDb.OnlyRoots db next) :
    Sound username next := by
  obtain ⟨roots, rfl⟩ := only
  exact sound.of_same rfl rfl

/-- A message which was sent or given up gets a time of receipt. -/
theorem Sound.updateRow (sound : Sound username db) (id : Nat)
    {change : ConvoMessage → ConvoMessage} (convoId : ∀ row, (change row).convoId = row.convoId)
    (ids : ∀ row, (change row).id = row.id) (shown : ∀ row, (change row).shown = row.shown)
    (received : ∀ row, (change row).receivedAt ≠ none) : Sound username (db.updateRow id change) where
  filed := ClientDb.filed_updateRow sound.filed convoId shown
  ids := by
    rw [ClientDb.ids_updateRow ids]
    exact sound.ids
  bounded row listed := by
    obtain ⟨earlier, old, rfl⟩ := List.mem_map.mp listed
    split
    · exact ids earlier ▸ sound.bounded earlier old
    · exact sound.bounded earlier old
  addressed := by
    rw [ClientDb.contents_updateRow db id convoId shown]
    exact sound.addressed
  received row listed unsent := by
    obtain ⟨earlier, old, rfl⟩ := List.mem_map.mp listed
    split at unsent
    · exact absurd unsent (received earlier)
    · rename_i other
      rw [if_neg other]
      exact sound.received earlier old unsent

/-- An entry adds a received row at most, and a queued message is the user's. -/
theorem Sound.device (sound : Sound username db) {step : DeviceStep P}
    (own : step.OfUser username)
    (small : nextRowId (db.convoMessages.map ConvoMessage.id) < 2 ^ 63) :
    Sound username (step.run json username db) := by
  have adds := step.adds json sound.filed username
  refine ⟨adds.filed, adds.ids sound.ids, ?_, ?_, ?_⟩
  · intro row listed
    rcases adds.rows with same | ⟨added, rows, fresh, _⟩
    · exact sound.bounded row (same ▸ listed)
    · rw [rows, List.mem_append, List.mem_singleton] at listed
      rcases listed with old | rfl
      · exact sound.bounded row old
      · rwa [fresh]
  · intro convo event listed
    cases step with
    | entry entry =>
        rw [DeviceStep.run, (entry.files json sound.filed).contents] at listed
        rcases mem_of_mem_insertAll listed with old | new
        · exact sound.addressed convo event old
        · obtain ⟨⟨_, _⟩, brought, same⟩ := List.mem_map.mp new
          cases same
          exact entry.addressed own (Option.mem_toList.mp brought)
    | queue env target mime body sentAt =>
        cases sound.filed.queueMessage json env target username mime body sentAt with
        | refused _ contents _ => exact sound.addressed convo event (contents ▸ listed)
        | added _ contents _ _ _ =>
            rw [DeviceStep.run, contents, List.mem_append, List.mem_singleton] at listed
            rcases listed with old | new
            · exact sound.addressed convo event old
            · cases new
              refine ⟨convo.recipient, ?_⟩
              cases convo with
              | direct peer => exact .inr ⟨rfl, rfl⟩
              | group groupId => rfl
  · intro row listed unsent
    cases step with
    | entry entry =>
        rcases ClientDb.addsReceived_entry json db entry with same | ⟨added, receivedAt, rows, sent⟩
        · exact sound.received row (same ▸ listed) unsent
        · rw [DeviceStep.run, rows, List.mem_append, List.mem_singleton] at listed
          rcases listed with old | rfl
          · exact sound.received row old unsent
          · cases sent.symm.trans unsent
    | queue env target mime body sentAt =>
        cases sound.filed.queueMessage json env target username mime body sentAt with
        | refused _ _ rows =>
            rw [DeviceStep.run, rows] at listed
            exact sound.received row listed unsent
        | added _ _ rows _ shown =>
            rw [DeviceStep.run, rows, List.mem_append, List.mem_singleton] at listed
            rcases listed with old | rfl
            · exact sound.received row old unsent
            · exact congrArg ShownEvent.sender shown

/-- Every step of the device keeps the invariant. -/
theorem Sound.step (sound : Sound username db) {event : OverviewEvent P}
    (taken : (machine json username).step db event = some next) : Sound username next := by
  cases event with
  | device step =>
      simp only [machine] at taken
      split_ifs at taken with may
      cases taken
      exact sound.device may.1 may.2
  | receive id receivedAt sendError =>
      cases taken
      cases sendError with
      | none =>
          exact sound.updateRow id (fun _ => rfl) (fun _ => rfl) (fun _ => rfl)
            fun _ => Option.some_ne_none _
      | some err =>
          exact sound.updateRow id (fun _ => rfl) (fun _ => rfl) (fun _ => rfl)
            fun _ => Option.some_ne_none _
  | groups groups =>
      cases taken
      exact sound.of_same rfl rfl
  | convoList env =>
      cases taken
      exact sound.of_onlyRoots (ClientDb.onlyRoots_convoList json env db)
  | convoHistory env convo before after limit =>
      cases taken
      exact sound.of_onlyRoots (ClientDb.onlyRoots_convoHistory json env db convo before after limit)

/-- In every run the invariant holds. -/
theorem sound_exec {events : List (OverviewEvent P)}
    (reached : (machine json username).exec ClientDb.empty events = some db) : Sound username db :=
  Machine.inv_of_exec (Sound username) (fun sound taken _ => sound.step taken)
    (sound_empty username) reached

/-! ## The main results -/

/-- In every run, whatever a call meets, a list of the conversations which it returns agrees
with their histories. -/
theorem surveys_always (json : JsonReader P) (username : UserName)
    (events : List (OverviewEvent P)) :
    (machine json username).Always (fun db => ∀ env next list,
      db.convoList json env = (next, .ok list) → db.Surveys json env list)
      ClientDb.empty events := by
  intro before _ db reached env next list listed
  have sound := sound_exec reached
  exact ClientDb.surveys_of_convoList sound.ids sound.bounded listed

/-- The summary tells when the user sent the newest of its messages, if there are any. -/
def Tells (username : UserName) (db : ClientDb P) (other : UserName) : Prop :=
  (db.lastDmMessageSummary username other = none ↔
    ∀ row, (row, .direct other) ∈ db.joinedMessages → row.senderUsername = username) ∧
  ∀ summary, db.lastDmMessageSummary username other = some summary →
    summary.direction = .incoming ∧ ∃ row, (row, .direct other) ∈ db.joinedMessages ∧
      row.senderUsername = other ∧ row.receivedAt = summary.receivedAt ∧
        ∀ later, (later, .direct other) ∈ db.joinedMessages → later.senderUsername = other →
          later.id ≤ row.id

/-- What the user did not send in a conversation with another user, the other user sent. -/
theorem Sound.incoming (sound : Sound username db) {other : UserName} {row : ConvoMessage}
    (listed : row ∈ db.incomingRows username other) :
    row.senderUsername = other ∧ ∃ receivedAt, row.receivedAt = some receivedAt := by
  obtain ⟨joined, foreign⟩ := ClientDb.mem_incomingRows.mp listed
  obtain ⟨inside, standing⟩ := ClientDb.mem_joinedMessages.mp joined
  constructor
  · obtain ⟨recipient, ⟨_, sender⟩ | ⟨_, sender⟩⟩ := sound.addressed (.direct other) row.shown
      (List.mem_map.mpr ⟨row, inside, by rw [standing]⟩)
    · exact sender
    · exact absurd sender foreign
  · cases received : row.receivedAt with
    | none => exact absurd (sound.received row inside received) foreign
    | some receivedAt => exact ⟨receivedAt, rfl⟩

/-- Where the invariant holds the summary tells of the newest message. -/
theorem Sound.tells (sound : Sound username db) {other : UserName} (apart : other ≠ username) :
    Tells username db other := by
  have distinct : ((db.incomingRows username other).map ConvoMessage.id).Nodup :=
    sound.ids.sublist
      (((List.filter_sublist.map Prod.fst).trans db.joinedMessages_sublist).map _)
  rw [Tells, ClientDb.lastDmMessageSummary]
  cases found : (newest ConvoMessage.id 1 (db.incomingRows username other)).head? with
  | none =>
      have nobody := head_newest_eq_none.mp found
      refine ⟨iff_of_true rfl fun row joined => ?_, fun summary absent => by cases absent⟩
      by_contra foreign
      have listed := ClientDb.mem_incomingRows.mpr ⟨joined, foreign⟩
      rw [nobody] at listed
      cases listed
  | some row =>
      obtain ⟨listed, newest⟩ := (head_newest_eq_some distinct).mp found
      obtain ⟨sender, receivedAt, received⟩ := sound.incoming listed
      have joined := (ClientDb.mem_incomingRows.mp listed).1
      rw [Option.bind_some, received, Option.map_some]
      constructor
      · refine iff_of_false (Option.some_ne_none _) fun own => apart ?_
        rw [← sender]
        exact own row joined
      · intro summary same
        cases same
        refine ⟨rfl, row, joined, sender, received, fun later laterJoined theirs => ?_⟩
        exact newest later (ClientDb.mem_incomingRows.mpr ⟨laterJoined, theirs ▸ apart⟩)

/-- In every run the details of each other user tell the time of receipt of the newest message
which that user sent, and nothing exactly if there is none. -/
theorem tells_always (json : JsonReader P) (username : UserName) (events : List (OverviewEvent P)) :
    (machine json username).Always (fun db => ∀ other ≠ username, Tells username db other)
      ClientDb.empty events :=
  fun _ _ _ reached _ apart => (sound_exec reached).tells apart

end Overview
end Nullspace
