import Nullspace.Base.Newest
import Nullspace.Client.Queue
import Nullspace.Client.Readable

/-!
# Pages of a conversation

A page of `convo_history` has the newest rows of a range, the oldest first, without those
which cannot be decoded.
-/

namespace Nullspace

open Nullspace.Base

variable {P : Primitives}

section

variable (json : JsonReader P)

/-- The row can be decoded as far as its content goes. -/
def ConvoMessage.displayable (row : ConvoMessage) : Bool :=
  decide (row.mime ≠ Attachment.mimeType) || (json.attachment row.body).isSome

/-- The row is decoded in a call: it is displayable, and its root can be stored. -/
def ConvoMessage.shows (env : ReadEnv P) (row : ConvoMessage) : Bool :=
  row.displayable json && (decide (row.mime ≠ Attachment.mimeType) || !env.storeFails row.id)

/-- The displayable rows of a conversation, by their identifiers. -/
def ClientDb.displayableIds (db : ClientDb P) (convo : ConvoId P) : List Nat :=
  (db.joinedMessages.filter fun entry =>
    decide (entry.2 = convo) && entry.1.displayable json).map fun entry => entry.1.id

/-- The rows of a conversation which are decoded in a call, by their identifiers. -/
def ClientDb.shownIds (env : ReadEnv P) (convo : ConvoId P) (db : ClientDb P) : List Nat :=
  (db.joinedMessages.filter fun entry =>
    decide (entry.2 = convo) && entry.1.shows json env).map fun entry => entry.1.id

end

namespace ClientDb

/-- How many rows of a conversation have a greater identifier. -/
def newerRows (db : ClientDb P) (convo : ConvoId P) (id : Nat) : Nat :=
  db.joinedMessages.countP fun entry => decide (entry.2 = convo) && decide (id < entry.1.id)

variable {json : JsonReader P} {env : ReadEnv P} {db : ClientDb P}

/-- No more rows are newer than there are. -/
theorem newerRows_le (db : ClientDb P) (convo : ConvoId P) (id : Nat) :
    db.newerRows convo id ≤ db.convoMessages.length :=
  List.countP_le_length.trans (List.length_filterMap_le _ _)

theorem mem_displayableIds {convo : ConvoId P} {id : Nat} :
    id ∈ db.displayableIds json convo ↔
      ∃ row, (row, convo) ∈ db.joinedMessages ∧ row.displayable json = true ∧ row.id = id := by
  simp only [displayableIds, List.mem_map, List.mem_filter, Bool.and_eq_true, decide_eq_true_eq]
  constructor
  · rintro ⟨⟨row, _⟩, ⟨joined, rfl, decodes⟩, same⟩
    exact ⟨row, joined, decodes, same⟩
  · rintro ⟨row, joined, decodes, same⟩
    exact ⟨(row, convo), ⟨joined, rfl, decodes⟩, same⟩

theorem mem_shownIds {convo : ConvoId P} {id : Nat} :
    id ∈ db.shownIds json env convo ↔
      ∃ row, (row, convo) ∈ db.joinedMessages ∧ row.shows json env = true ∧ row.id = id := by
  simp only [shownIds, List.mem_map, List.mem_filter, Bool.and_eq_true, decide_eq_true_eq]
  constructor
  · rintro ⟨⟨row, _⟩, ⟨joined, rfl, shown⟩, same⟩
    exact ⟨row, joined, shown, same⟩
  · rintro ⟨row, joined, shown, same⟩
    exact ⟨(row, convo), ⟨joined, rfl, shown⟩, same⟩

/-- A row which is shown is displayable. -/
theorem displayable_of_shown {convo : ConvoId P} {id : Nat} (shown : id ∈ db.shownIds json env convo) :
    id ∈ db.displayableIds json convo := by
  obtain ⟨row, joined, shows, rfl⟩ := mem_shownIds.mp shown
  rw [ConvoMessage.shows, Bool.and_eq_true] at shows
  exact mem_displayableIds.mpr ⟨row, joined, shows.1, rfl⟩

/-- What is shown depends on whether roots can be stored. -/
theorem shownIds_of_stores {convo : ConvoId P} {call : ReadEnv P} (same : call.storeFails = env.storeFails) :
    db.shownIds json call convo = db.shownIds json env convo := by
  simp only [shownIds, ConvoMessage.shows, same]

theorem mem_displayableIds_updateRow {convo : ConvoId P} {id other : Nat}
    {change : ConvoMessage → ConvoMessage} (convoId : ∀ row, (change row).convoId = row.convoId)
    (ids : ∀ row, (change row).id = row.id)
    (displays : ∀ row, (change row).displayable json = row.displayable json) :
    other ∈ (db.updateRow id change).displayableIds json convo ↔
      other ∈ db.displayableIds json convo := by
  rw [mem_displayableIds, mem_displayableIds]
  constructor
  · rintro ⟨_, joined, decodes, rfl⟩
    obtain ⟨earlier, old, rfl⟩ := (mem_joined_updateRow convoId).mp joined
    refine ⟨earlier, old, ?_, ?_⟩
    · split at decodes
      · rwa [displays] at decodes
      · exact decodes
    · split
      · rw [ids]
      · rfl
  · rintro ⟨earlier, old, decodes, rfl⟩
    refine ⟨_, (mem_joined_updateRow convoId).mpr ⟨earlier, old, rfl⟩, ?_, ?_⟩
    · split
      · rwa [displays]
      · exact decodes
    · split
      · rw [ids]
      · rfl

/-- However a fetch ends, it changes no rows. -/
theorem onlyRoots_of_fetched {convo : ConvoId P} {before after : Option Int} {limit : UInt16}
    {next : ClientDb P} {result : Except ReadError (List (MessageView P))}
    (fetched : db.convoHistory json env convo before after limit = (next, result)) :
    OnlyRoots db next := by
  have only := onlyRoots_convoHistory json env db convo before after limit
  rwa [fetched] at only

theorem OnlyRoots.joined {next : ClientDb P} (only : OnlyRoots db next) :
    next.joinedMessages = db.joinedMessages := by
  obtain ⟨roots, rfl⟩ := only
  rfl

theorem OnlyRoots.displayableIds {next : ClientDb P} {convo : ConvoId P}
    (only : OnlyRoots db next) : next.displayableIds json convo = db.displayableIds json convo := by
  rw [ClientDb.displayableIds, only.joined, ClientDb.displayableIds]

theorem OnlyRoots.shownIds {next : ClientDb P} {convo : ConvoId P} (only : OnlyRoots db next) :
    next.shownIds json env convo = db.shownIds json env convo := by
  rw [ClientDb.shownIds, only.joined, ClientDb.shownIds]

theorem OnlyRoots.filed {next : ClientDb P} (only : OnlyRoots db next) (filed : db.Filed) :
    next.Filed := by
  obtain ⟨roots, rfl⟩ := only
  have kept : ClientDb.Filed { db with attachmentRoots := roots } ∧
      ClientDb.contents { db with attachmentRoots := roots } = db.contents :=
    filed.of_same rfl rfl
  exact kept.1

/-- A row which was decoded is shown. -/
theorem shows_of_decodeRow {row : ConvoMessage} {next : ClientDb P} {body : MessageContent P}
    (decoded : db.decodeRow json env row = (next, .ok body)) : row.shows json env = true := by
  rw [decodeRow, decodeMessageContent] at decoded
  simp only [ConvoMessage.shows, ConvoMessage.displayable, Bool.and_eq_true, Bool.or_eq_true,
    decide_eq_true_eq, Bool.not_eq_true']
  by_cases isAttachment : row.mime = Attachment.mimeType
  · rw [isAttachment, if_neg (by decide), if_neg (by decide), if_pos rfl] at decoded
    cases read : json.attachment row.body with
    | none =>
        rw [read] at decoded
        cases decoded
    | some root =>
        rw [read] at decoded
        dsimp only at decoded
        split at decoded
        · cases decoded
        · rename_i stored
          rw [Bool.not_eq_true] at stored
          exact ⟨Or.inr rfl, Or.inr stored⟩
  · exact ⟨Or.inl isAttachment, Or.inl isAttachment⟩

/-- A row which would be shown fails only by aborting. -/
theorem aborted_of_decodeRow {row : ConvoMessage} {next : ClientDb P} {err : ReadError}
    (shown : row.shows json env = true) (failed : db.decodeRow json env row = (next, .error err)) :
    err = .aborted := by
  rw [decodeRow, decodeMessageContent] at failed
  simp only [ConvoMessage.shows, ConvoMessage.displayable, Bool.and_eq_true, Bool.or_eq_true,
    decide_eq_true_eq, Bool.not_eq_true'] at shown
  split at failed
  · cases failed
  · split at failed
    · cases failed
    · split at failed
      · rename_i isAttachment
        have stored := shown.2.resolve_left (not_not_intro isAttachment)
        obtain ⟨root, read⟩ :=
          Option.isSome_iff_exists.mp (shown.1.resolve_left (not_not_intro isAttachment))
        rw [read] at failed
        dsimp only at failed
        rw [stored, if_neg Bool.false_ne_true] at failed
        cases total : totalSize root.children with
        | none =>
            rw [total] at failed
            cases failed
            rfl
        | some size =>
            rw [total] at failed
            cases failed
      · cases failed

/-- A page has the rows which are decoded, in their order. -/
theorem showRows_ids {convo : ConvoId P} {rows : List ConvoMessage} {next : ClientDb P}
    {messages : List (MessageView P)}
    (read : db.showRows json env convo rows = (next, .ok messages)) :
    messages.map MessageView.id =
      (rows.filter fun row => row.shows json env).map ConvoMessage.id := by
  induction rows generalizing db messages with
  | nil =>
      cases read
      rfl
  | cons row rest ih =>
      rw [showRows] at read
      split at read
      · cases read
      · rename_i other decoded
        have hidden : ¬row.shows json env = true := fun shown =>
          other (aborted_of_decodeRow shown decoded)
        rw [List.filter_cons_of_neg hidden]
        exact ih read
      · rename_i later body decoded
        cases remaining : later.showRows json env convo rest with
        | mk final result =>
            rw [remaining] at read
            cases result with
            | error err => cases read
            | ok others =>
                cases read
                rw [List.filter_cons_of_pos (shows_of_decodeRow decoded), List.map_cons,
                  List.map_cons, ih remaining]
                rfl

/-- Each message of a page is a view of one of its rows. -/
theorem view_of_showRows {convo : ConvoId P} {rows : List ConvoMessage} {next : ClientDb P}
    {messages : List (MessageView P)} (read : db.showRows json env convo rows = (next, .ok messages))
    {msg : MessageView P} (listed : msg ∈ messages) : ∃ row ∈ rows, ∃ body, msg = view convo row body := by
  induction rows generalizing db messages with
  | nil =>
      cases read
      cases listed
  | cons row rest ih =>
      rw [showRows] at read
      split at read
      · cases read
      · obtain ⟨found, foundListed, body, same⟩ := ih read listed
        exact ⟨found, List.mem_cons_of_mem _ foundListed, body, same⟩
      · rename_i later body decoded
        cases remaining : later.showRows json env convo rest with
        | mk final result =>
            rw [remaining] at read
            cases result with
            | error err => cases read
            | ok others =>
                cases read
                rcases List.mem_cons.mp listed with rfl | other
                · exact ⟨row, List.mem_cons_self, body, rfl⟩
                · obtain ⟨found, foundListed, body, same⟩ := ih remaining other
                  exact ⟨found, List.mem_cons_of_mem _ foundListed, body, same⟩

/-- Only an overflow keeps a page from being shown. -/
theorem showRows_error {convo : ConvoId P} {rows : List ConvoMessage} {next : ClientDb P}
    {err : ReadError} (failed : db.showRows json env convo rows = (next, .error err)) :
    err = .aborted := by
  induction rows generalizing db with
  | nil => cases failed
  | cons row rest ih =>
      rw [showRows] at failed
      split at failed
      · cases failed
        rfl
      · exact ih failed
      · rename_i later body decoded
        cases remaining : later.showRows json env convo rest with
        | mk final result =>
            rw [remaining] at failed
            cases result with
            | ok others => cases failed
            | error other =>
                cases failed
                exact ih remaining

/-- Identifiers tell conversations apart. -/
theorem Filed.convoOf_iff (filed : db.Filed) {id : Nat} {convo : ConvoId P} :
    db.convoOf? id = some convo ↔
      ∃ found, db.convos.lookup convo = some found ∧ found.id = id := by
  constructor
  · intro standing
    obtain ⟨⟨_, found⟩, listed, rfl⟩ := Option.map_eq_some_iff.mp standing
    have owns := List.find?_some listed
    exact ⟨found, Table.mem_rows.mp (List.mem_of_find?_eq_some listed), of_decide_eq_true owns⟩
  · rintro ⟨found, looked, rfl⟩
    exact convoOf_eq_some filed.keyed looked

/-- The conversation's rows with a property, counted with and without the others. -/
theorem Filed.countP_joined (filed : db.Filed) {convo : ConvoId P} {found : ConvoRow}
    (looked : db.convos.lookup convo = some found) (holds : ConvoMessage → Bool) :
    (db.joinedMessages.countP fun entry => decide (entry.2 = convo) && holds entry.1) =
      db.convoMessages.countP fun row => decide (row.convoId = found.id) && holds row := by
  rw [joinedMessages, List.countP_filterMap]
  apply List.countP_congr
  intro row listed
  have standing : db.convoOf? row.convoId = some convo ↔ row.convoId = found.id := by
    rw [filed.convoOf_iff]
    constructor
    · rintro ⟨other, same, owns⟩
      cases looked.symm.trans same
      exact owns.symm
    · intro same
      exact ⟨found, looked, same.symm⟩
  cases owner : db.convoOf? row.convoId with
  | none =>
      rw [owner] at standing
      have apart : row.convoId ≠ found.id := fun same => by cases standing.mpr same
      simp [apart]
  | some other =>
      rw [owner, Option.some.injEq] at standing
      simp [standing]

/-- The rows of a page: those of the range which have few newer ones in the range. -/
theorem Filed.mem_historyRows (filed : db.Filed)
    (ids : (db.convoMessages.map ConvoMessage.id).Nodup) {convo : ConvoId P}
    {before after : Option Int} {limit : UInt16} {row : ConvoMessage} :
    row ∈ db.historyRows convo before after limit ↔
      (row, convo) ∈ db.joinedMessages ∧ (row.id : Int) ≤ before.getD (2 ^ 63 - 1) ∧
        after.getD (-2 ^ 63) ≤ (row.id : Int) ∧
          (db.joinedMessages.countP fun entry => decide (entry.2 = convo) &&
            decide ((entry.1.id : Int) ≤ before.getD (2 ^ 63 - 1) ∧ row.id < entry.1.id)) <
              limit.toNat := by
  rw [mem_joinedMessages, filed.convoOf_iff, historyRows]
  cases looked : db.convos.lookup convo with
  | none => simp
  | some found =>
      have counts := filed.countP_joined looked fun other =>
        decide ((other.id : Int) ≤ before.getD (2 ^ 63 - 1) ∧ row.id < other.id)
      have unique : ((db.convoMessages.filter fun message => message.convoId = found.id ∧
          (message.id : Int) ≤ before.getD (2 ^ 63 - 1) ∧
            after.getD (-2 ^ 63) ≤ (message.id : Int)).map ConvoMessage.id).Nodup :=
        ids.sublist (List.filter_sublist.map _)
      have page := mem_newest unique limit.toNat row
      rw [newest, List.countP_filter, List.mem_filter, decide_eq_true_eq] at page
      have newer : after.getD (-2 ^ 63) ≤ (row.id : Int) →
          (db.convoMessages.countP fun other => decide (row.id < other.id) &&
            decide (other.convoId = found.id ∧ (other.id : Int) ≤ before.getD (2 ^ 63 - 1) ∧
              after.getD (-2 ^ 63) ≤ (other.id : Int))) =
          db.convoMessages.countP fun other => decide (other.convoId = found.id) &&
            decide ((other.id : Int) ≤ before.getD (2 ^ 63 - 1) ∧ row.id < other.id) := by
        intro above
        apply List.countP_congr
        intro other _
        simp only [Bool.and_eq_true, decide_eq_true_eq]
        constructor
        · rintro ⟨later, same, below, _⟩
          exact ⟨same, below, later⟩
        · rintro ⟨same, below, later⟩
          exact ⟨later, same, below, by omega⟩
      rw [List.mem_reverse, page, counts]
      constructor
      · rintro ⟨⟨listed, owns, below, above⟩, few⟩
        exact ⟨⟨listed, found, rfl, owns.symm⟩, below, above, newer above ▸ few⟩
      · rintro ⟨⟨listed, other, same, owns⟩, below, above, few⟩
        cases same
        exact ⟨⟨listed, owns.symm, below, above⟩, (newer above).symm ▸ few⟩

/-- The oldest row of a page comes first. -/
theorem historyRows_ascending (convo : ConvoId P) (before after : Option Int) (limit : UInt16) :
    (db.historyRows convo before after limit).Pairwise fun first second =>
      first.id ≤ second.id := by
  rw [historyRows]
  split
  · exact .nil
  · exact List.pairwise_reverse.mpr (newest_sorted limit.toNat)

/-- The page of everything, when all rows are of one conversation. -/
theorem historyRows_all {convo : ConvoId P} {found : ConvoRow}
    (looked : db.convos.lookup convo = some found)
    (ascends : db.convoMessages.Pairwise fun first second => first.id < second.id)
    (owned : ∀ row ∈ db.convoMessages, row.convoId = found.id ∧ row.id < 2 ^ 63)
    {limit : UInt16} (few : db.convoMessages.length ≤ limit.toNat) :
    db.historyRows convo none none limit = db.convoMessages := by
  have whole : (db.convoMessages.filter fun message => message.convoId = found.id ∧
      (message.id : Int) ≤ (none : Option Int).getD (2 ^ 63 - 1) ∧
        (none : Option Int).getD (-2 ^ 63) ≤ (message.id : Int)) = db.convoMessages := by
    rw [List.filter_eq_self]
    intro row listed
    obtain ⟨owns, bounded⟩ := owned row listed
    simp only [decide_eq_true_eq, Option.getD_none]
    exact ⟨owns, by omega, by omega⟩
  have page := newest_of_ascending ascends limit.toNat
  rw [newest] at page
  rw [historyRows, looked]
  dsimp only
  rw [whole, page, List.take_of_length_le (by rwa [List.length_reverse]), List.reverse_reverse]

/-- With a row a page has all newer ones of its range. -/
theorem Filed.historyRows_upward (filed : db.Filed)
    (ids : (db.convoMessages.map ConvoMessage.id).Nodup) {convo : ConvoId P}
    {before after : Option Int} {limit : UInt16} {row newer : ConvoMessage}
    (listed : row ∈ db.historyRows convo before after limit)
    (joined : (newer, convo) ∈ db.joinedMessages) (above : row.id ≤ newer.id)
    (below : (newer.id : Int) ≤ before.getD (2 ^ 63 - 1)) :
    newer ∈ db.historyRows convo before after limit := by
  obtain ⟨_, _, lower, few⟩ := (filed.mem_historyRows ids).mp listed
  refine (filed.mem_historyRows ids).mpr ⟨joined, below, by omega, lt_of_le_of_lt ?_ few⟩
  apply List.countP_mono_left
  intro entry _ counted
  simp only [Bool.and_eq_true, decide_eq_true_eq] at counted ⊢
  exact ⟨counted.1, counted.2.1, by omega⟩

/-- A page without an upper end has the rows of its range which have few newer ones. -/
theorem Filed.mem_newest_page (filed : db.Filed)
    (ids : (db.convoMessages.map ConvoMessage.id).Nodup) {convo : ConvoId P} {after : Option Int}
    {limit : UInt16} {row : ConvoMessage} (joined : (row, convo) ∈ db.joinedMessages)
    (bounded : (row.id : Int) < 2 ^ 63) (above : after.getD (-2 ^ 63) ≤ (row.id : Int))
    (few : db.newerRows convo row.id < limit.toNat) :
    row ∈ db.historyRows convo none after limit := by
  refine (filed.mem_historyRows ids).mpr ⟨joined, ?_, above, lt_of_le_of_lt ?_ few⟩
  · rw [Option.getD_none]
    omega
  · apply List.countP_mono_left
    intro entry _ counted
    simp only [Bool.and_eq_true, decide_eq_true_eq] at counted ⊢
    exact ⟨counted.1, counted.2.2⟩

end ClientDb
end Nullspace
