import Mathlib.Logic.Relation
import Nullspace.Client.Download
import Nullspace.Client.Effects
import Nullspace.Structs.Text

/-!
# Reading conversations and attachments

Messages are stored as they arrive, and decoded whenever a conversation is listed or read:
then a root is stored again and its sizes are added up. Its status and a download add them up
too. An overflow aborts the process, whatever the call does with errors.

`readable_iff_summable` says of which databases all calls can be made.
-/

namespace Nullspace

open Nullspace.Base

variable {P : Primitives}

/-- The mime type of a group invite. -/
def GroupInviteMsg.mimeType : String := "application/vnd.nullspace.v1.group_invite"

/-- A message as it is shown. -/
inductive MessageContent (P : Primitives) where
  /-- The text is decoded from these bytes, with replacements for what is not UTF-8. -/
  | plainText (body : Bytes)
  | attachment (id : P.Hash) (size : UInt64) (mime filename : String)
  | groupInvite (inviteId : Nat)
deriving DecidableEq

/-- `ConvoMessage` of the RPC interface. -/
structure MessageView (P : Primitives) where
  id : Nat
  convoId : ConvoId P
  sender : UserName
  body : MessageContent P
  sendError : Option String
  receivedAt : Option NanoTimestamp
deriving DecidableEq

structure ConvoSummary (P : Primitives) where
  convoId : ConvoId P
  lastMessage : Option (MessageView P)
deriving DecidableEq

/-- The client's database with `attachment_paths`. -/
structure AttachmentDb (P : Primitives) where
  client : ClientDb P
  attachmentPaths : Table P.Hash String

/-- What a call meets. -/
structure ReadEnv (P : Primitives) where
  queryFails : Bool
  /-- The root of this message cannot be stored. -/
  storeFails : Nat → Bool
  /-- The length of the file at a path, if it is one. -/
  fileLength : String → Option Nat
  /-- Why a download ends before it fetches anything. -/
  refuses : Option String
  server : FragmentServer P
  /-- The path which a download chooses. -/
  finalPath : String

inductive ReadError where
  /-- The process aborts. -/
  | aborted
  | database
  | said (text : String)
  | download (err : DownloadError)
deriving DecidableEq

section

variable (json : JsonReader P) (env : ReadEnv P)

namespace ClientDb

/-- `decode_message_content`. -/
def decodeMessageContent (messageId : Nat) (sender : UserName) (mime : String) (body : Bytes)
    (db : ClientDb P) : ClientDb P × Except ReadError (MessageContent P) :=
  if mime = "text/plain" ∨ mime = "text/markdown" then (db, .ok (.plainText body))
  else if mime = GroupInviteMsg.mimeType then (db, .ok (.groupInvite messageId))
  else if mime = Attachment.mimeType then
    match json.attachment body with
    | none => (db, .error (.said "invalid attachment root"))
    | some root =>
        if env.storeFails messageId then (db, .error .database)
        else
          (db.storeAttachmentRoot sender root,
            match totalSize root.children with
            | none => .error .aborted
            | some size => .ok (.attachment (P.bcsHash root) size root.mime root.filename))
  else (db, .ok (.plainText (utf8 "Unsupported message")))

/-- A row as it is shown in a conversation. -/
def view (convo : ConvoId P) (row : ConvoMessage) (body : MessageContent P) : MessageView P :=
  ⟨row.id, convo, row.senderUsername, body, row.sendError, row.receivedAt⟩

def decodeRow (row : ConvoMessage) (db : ClientDb P) :
    ClientDb P × Except ReadError (MessageContent P) :=
  db.decodeMessageContent json env row.id row.senderUsername row.mime row.body

/-- A loop's result with an item before the others. -/
def withFirst {Item : Type} (first : Item) :
    ClientDb P × Except ReadError (List Item) → ClientDb P × Except ReadError (List Item)
  | (db, .error err) => (db, .error err)
  | (db, .ok items) => (db, .ok (first :: items))

/-- The row with the greatest identifier of a conversation. -/
def lastMessage (db : ClientDb P) (convoId : Nat) : Option ConvoMessage :=
  (db.convoMessages.filter fun row => row.convoId = convoId).find? fun row =>
    db.convoMessages.all fun other => other.convoId ≠ convoId ∨ other.id ≤ row.id

/-- What the list is ordered by, the greatest first: whether a time of receipt is missing,
the time of receipt, and the conversation's creation and identifier. -/
def listKey (row : ConvoRow) (last : Option ConvoMessage) : List Int :=
  match last.bind ConvoMessage.receivedAt with
  | none => [1, 0, asI64 row.createdAt, row.id]
  | some receivedAt => [0, asI64 receivedAt, asI64 row.createdAt, row.id]

/-- The rows of the `SELECT` in `convo_list`. -/
def listRows (db : ClientDb P) : List (ConvoId P × Option ConvoMessage) :=
  ((db.convos.rows.map fun (convo, row) => (listKey row (db.lastMessage row.id), convo,
      db.lastMessage row.id)).mergeSort fun first second => second.1 ≤ first.1).map Prod.snd

/-- The last message of a conversation as it is shown, if it can be decoded. -/
def lastView (convo : ConvoId P) (last : Option ConvoMessage) (db : ClientDb P) :
    ClientDb P × Except ReadError (Option (MessageView P)) :=
  match last with
  | none => (db, .ok none)
  | some row =>
      match db.decodeRow json env row with
      | (db, .error .aborted) => (db, .error .aborted)
      | (db, .error _) => (db, .ok none)
      | (db, .ok body) => (db, .ok (some (view convo row body)))

/-- The loop of `convo_list`. -/
def summarize : List (ConvoId P × Option ConvoMessage) → ClientDb P →
    ClientDb P × Except ReadError (List (ConvoSummary P))
  | [], db => (db, .ok [])
  | (convo, last) :: rest, db =>
      match db.lastView json env convo last with
      | (db, .error err) => (db, .error err)
      | (db, .ok shown) => withFirst ⟨convo, shown⟩ (summarize rest db)

def convoList (db : ClientDb P) : ClientDb P × Except ReadError (List (ConvoSummary P)) :=
  if env.queryFails then (db, .error .database) else db.summarize json env db.listRows

/-- The rows of the `SELECT` in `convo_history`, in the order in which they are read. -/
def historyRows (db : ClientDb P) (convo : ConvoId P) (before after : Option Int) (limit : UInt16) :
    List ConvoMessage :=
  match db.convos.lookup convo with
  | none => []
  | some row =>
      (((db.convoMessages.filter fun message => message.convoId = row.id ∧
          (message.id : Int) ≤ before.getD (2 ^ 63 - 1) ∧
            after.getD (-2 ^ 63) ≤ (message.id : Int)).mergeSort fun first second =>
              second.id ≤ first.id).take limit.toNat).reverse

/-- The loop of `convo_history`: a message which cannot be decoded is left out. -/
def showRows (convo : ConvoId P) : List ConvoMessage → ClientDb P →
    ClientDb P × Except ReadError (List (MessageView P))
  | [], db => (db, .ok [])
  | row :: rest, db =>
      match db.decodeRow json env row with
      | (db, .error .aborted) => (db, .error .aborted)
      | (db, .error _) => showRows convo rest db
      | (db, .ok body) => withFirst (view convo row body) (showRows convo rest db)

def convoHistory (convo : ConvoId P) (before after : Option Int) (limit : UInt16)
    (db : ClientDb P) : ClientDb P × Except ReadError (List (MessageView P)) :=
  if env.queryFails then (db, .error .database)
  else db.showRows json env convo (db.historyRows convo before after limit)

end ClientDb

/-- `attachment_status`. The sizes are added up when there is a file. -/
def attachmentStatus (id : P.Hash) (db : AttachmentDb P) :
    Except ReadError (Attachment P × Option String) :=
  if env.queryFails then .error .database
  else
    match db.client.attachmentRoots.lookup id with
    | none => .error .database
    | some (root, _) =>
        match db.attachmentPaths.lookup id with
        | none => .ok (root, none)
        | some path =>
            match env.fileLength path with
            | none => .ok (root, none)
            | some length =>
                match totalSize root.children with
                | none => .error .aborted
                | some total =>
                    .ok (root, if length = total.toNat then some path else none)

/-- `download_inner`, for which the result of `download_attachment_to_path` is given. -/
def downloadInner (id : P.Hash) (result : DownloadResult) (db : AttachmentDb P) :
    AttachmentDb P × Except ReadError Unit :=
  match db.client.attachmentRoots.lookup id with
  | none => (db, .error (.said "attachment not found"))
  | some _ =>
      match env.refuses with
      | some reason => (db, .error (.said reason))
      | none =>
          match result with
          | .aborted => (db, .error .aborted)
          | .failed err => (db, .error (.download err))
          | .saved _ =>
              if env.queryFails then (db, .error .database)
              else
                ({ db with attachmentPaths := db.attachmentPaths.insert id env.finalPath }, .ok ())

inductive ReadCall (P : Primitives) where
  | convoList
  | convoHistory (convo : ConvoId P) (before after : Option Int) (limit : UInt16)
  | attachmentStatus (id : P.Hash)
  | attachmentDownload (id : P.Hash)

/-- The error which a call ends in. -/
def errorOf {Result : Type} : Except ReadError Result → Option ReadError
  | .ok _ => none
  | .error err => some err

/-- A call, what it leaves in the database, and its error. -/
inductive Reads (db : AttachmentDb P) :
    ReadCall P → AttachmentDb P → Option ReadError → Prop
  | convoList : Reads db .convoList { db with client := (db.client.convoList json env).1 }
      (errorOf (db.client.convoList json env).2)
  | convoHistory (convo : ConvoId P) (before after : Option Int) (limit : UInt16) :
      Reads db (.convoHistory convo before after limit)
        { db with client := (db.client.convoHistory json env convo before after limit).1 }
        (errorOf (db.client.convoHistory json env convo before after limit).2)
  | attachmentStatus (id : P.Hash) :
      Reads db (.attachmentStatus id) db (errorOf (attachmentStatus env id db))
  | attachmentDownload {id : P.Hash} {result : DownloadResult}
      (fetched : env.refuses = none → ∀ root sender,
        db.client.attachmentRoots.lookup id = some (root, sender) →
          Downloads env.server root result) :
      Reads db (.attachmentDownload id) (downloadInner env id result db).1
        (errorOf (downloadInner env id result db).2)

/-- Calls, one after the other. -/
def ReadStep (db next : AttachmentDb P) : Prop := ∃ env call err, Reads json env db call next err

/-- Whatever calls are made, none aborts the process. -/
def Readable (db : AttachmentDb P) : Prop :=
  ∀ later, Relation.ReflTransGen (ReadStep json) db later →
    ∀ env call next err, Reads json env later call next err → err ≠ some .aborted

namespace ClientDb

/-- The sizes of each stored attachment can be added up. -/
structure Summable (db : ClientDb P) : Prop where
  messages : ∀ row ∈ db.convoMessages, row.mime = Attachment.mimeType →
    ∀ root ∈ json.attachment row.body, sizeSum root.children < 2 ^ 64
  roots : ∀ id root sender, db.attachmentRoots.lookup id = some (root, sender) →
    sizeSum root.children < 2 ^ 64

end ClientDb

end

namespace ClientDb

/-- The keys of `convo_messages`: the primary key, and the foreign key to `convos`. -/
structure MessagesKeyed (db : ClientDb P) : Prop where
  ids : (db.convoMessages.map ConvoMessage.id).Nodup
  owned : ∀ row ∈ db.convoMessages, ∃ convo found, db.convos.lookup convo = some found ∧
    found.id = row.convoId

variable {json : JsonReader P} {env : ReadEnv P} {db : ClientDb P}

/-! ## What calls do -/

/-- Nothing has changed but the attachment roots. -/
def OnlyRoots (db next : ClientDb P) : Prop := ∃ roots, next = { db with attachmentRoots := roots }

theorem OnlyRoots.refl (db : ClientDb P) : OnlyRoots db db := ⟨db.attachmentRoots, rfl⟩

theorem OnlyRoots.trans {first second third : ClientDb P} (before : OnlyRoots first second)
    (after : OnlyRoots second third) : OnlyRoots first third := by
  obtain ⟨roots, rfl⟩ := before
  obtain ⟨others, rfl⟩ := after
  exact ⟨others, rfl⟩

theorem OnlyRoots.messages {next : ClientDb P} (only : OnlyRoots db next) :
    next.convoMessages = db.convoMessages := by
  obtain ⟨roots, rfl⟩ := only
  rfl

section

variable (json env db)

theorem onlyRoots_decodeRow (row : ConvoMessage) : OnlyRoots db (db.decodeRow json env row).1 := by
  rw [decodeRow, decodeMessageContent]
  split
  · exact .refl db
  · split
    · exact .refl db
    · split
      · cases json.attachment row.body with
        | none => exact .refl db
        | some root =>
            dsimp only
            split
            · exact .refl db
            · exact ⟨_, rfl⟩
      · exact .refl db

@[simp] theorem withFirst_fst {Item : Type} (first : Item)
    (ends : ClientDb P × Except ReadError (List Item)) : (withFirst first ends).1 = ends.1 := by
  obtain ⟨next, result⟩ := ends
  cases result <;> rfl

theorem onlyRoots_showRows (convo : ConvoId P) (rows : List ConvoMessage) :
    OnlyRoots db (db.showRows json env convo rows).1 := by
  induction rows generalizing db with
  | nil => exact .refl db
  | cons row rest ih =>
      have head := onlyRoots_decodeRow json env db row
      rw [showRows]
      split
      · rename_i decoded
        rwa [decoded] at head
      · rename_i decoded
        rw [decoded] at head
        exact head.trans (ih _)
      · rename_i decoded
        rw [decoded] at head
        rw [withFirst_fst]
        exact head.trans (ih _)

theorem onlyRoots_lastView (convo : ConvoId P) (last : Option ConvoMessage) :
    OnlyRoots db (db.lastView json env convo last).1 := by
  cases last with
  | none => exact .refl db
  | some row =>
      have head := onlyRoots_decodeRow json env db row
      rw [lastView]
      split <;> rename_i decoded <;> rwa [decoded] at head

theorem onlyRoots_summarize (rows : List (ConvoId P × Option ConvoMessage)) :
    OnlyRoots db (db.summarize json env rows).1 := by
  induction rows generalizing db with
  | nil => exact .refl db
  | cons entry rest ih =>
      have head := onlyRoots_lastView json env db entry.1 entry.2
      rw [summarize]
      split
      · rename_i shown
        rwa [shown] at head
      · rename_i shown
        rw [shown] at head
        rw [withFirst_fst]
        exact head.trans (ih _)

/-- `convo_list` stores roots at most. -/
theorem onlyRoots_convoList : OnlyRoots db (db.convoList json env).1 := by
  rw [convoList]
  split
  · exact .refl db
  · exact onlyRoots_summarize json env db _

/-- `convo_history` stores roots at most. -/
theorem onlyRoots_convoHistory (convo : ConvoId P) (before after : Option Int) (limit : UInt16) :
    OnlyRoots db (db.convoHistory json env convo before after limit).1 := by
  rw [convoHistory]
  split
  · exact .refl db
  · exact onlyRoots_showRows json env db convo _

end

/-- A stored root whose sizes can be added up leaves all of them so. -/
theorem Summable.storeAttachmentRoot (summable : db.Summable json) (sender : UserName)
    {root : Attachment P} (fits : sizeSum root.children < 2 ^ 64) :
    (db.storeAttachmentRoot sender root).Summable json where
  messages := summable.messages
  roots id found owner listed := by
    rcases Table.lookup_insert_cases listed with ⟨_, same⟩ | earlier
    · cases same
      exact fits
    · exact summable.roots id found owner earlier

/-- The process lives, and the attachments can still be added up. -/
structure Survives {Result : Type} (json : JsonReader P)
    (ends : ClientDb P × Except ReadError Result) : Prop where
  summable : ends.1.Summable json
  ends : ends.2 ≠ .error .aborted

theorem survives_decodeRow (env : ReadEnv P) (summable : db.Summable json) {row : ConvoMessage}
    (listed : row ∈ db.convoMessages) : Survives json (db.decodeRow json env row) := by
  rw [decodeRow, decodeMessageContent]
  split
  · exact ⟨summable, by simp⟩
  · split
    · exact ⟨summable, by simp⟩
    · split
      · rename_i isAttachment
        cases read : json.attachment row.body with
        | none => exact ⟨summable, by simp⟩
        | some root =>
            have fits := summable.messages row listed isAttachment root read
            dsimp only
            split
            · exact ⟨summable, by simp⟩
            · rw [totalSize_eq, if_pos fits]
              exact ⟨summable.storeAttachmentRoot _ fits, by simp⟩
      · exact ⟨summable, by simp⟩

/-- The root of an attachment is stored before its size is computed. -/
theorem decodeRow_root {row : ConvoMessage} {root : Attachment P}
    (isAttachment : row.mime = Attachment.mimeType) (read : json.attachment row.body = some root)
    (stores : env.storeFails row.id = false) :
    db.decodeRow json env row = (db.storeAttachmentRoot row.senderUsername root,
      match totalSize root.children with
      | none => .error .aborted
      | some size => .ok (.attachment (P.bcsHash root) size root.mime root.filename)) := by
  have notText : ¬(row.mime = "text/plain" ∨ row.mime = "text/markdown") := by
    rw [isAttachment]
    decide
  have notInvite : row.mime ≠ GroupInviteMsg.mimeType := by
    rw [isAttachment]
    decide
  rw [decodeRow, decodeMessageContent, if_neg notText, if_neg notInvite, if_pos isAttachment]
  simp only [read, stores, Bool.false_eq_true, if_false]

/-- The one way in which decoding aborts. -/
theorem decodeRow_aborts {row : ConvoMessage} {root : Attachment P}
    (isAttachment : row.mime = Attachment.mimeType) (read : json.attachment row.body = some root)
    (stores : env.storeFails row.id = false) (overflows : totalSize root.children = none) :
    (db.decodeRow json env row).2 = .error .aborted := by
  rw [decodeRow_root isAttachment read stores, overflows]

/-- An item before the others aborts nothing. -/
theorem Survives.withFirst {Item : Type} {ends : ClientDb P × Except ReadError (List Item)}
    (survives : Survives json ends) (first : Item) : Survives json (withFirst first ends) := by
  obtain ⟨next, result⟩ := ends
  cases result with
  | error err => exact survives
  | ok items => exact ⟨survives.summable, fun impossible => by contradiction⟩

theorem survives_showRows (convo : ConvoId P) {rows : List ConvoMessage}
    (summable : db.Summable json) (listed : ∀ row ∈ rows, row ∈ db.convoMessages) :
    Survives json (db.showRows json env convo rows) := by
  induction rows generalizing db with
  | nil => exact ⟨summable, fun impossible => by contradiction⟩
  | cons row rest ih =>
      have head := survives_decodeRow env summable (listed row List.mem_cons_self)
      have tail := ih head.summable fun other inside => by
        rw [(onlyRoots_decodeRow json env db row).messages]
        exact listed other (List.mem_cons_of_mem _ inside)
      rw [showRows]
      split
      · rename_i aborted
        rw [aborted] at head
        exact absurd rfl head.ends
      · rename_i failed
        rwa [failed] at tail
      · rename_i decoded
        rw [decoded] at tail
        exact tail.withFirst _

theorem survives_lastView (env : ReadEnv P) (convo : ConvoId P) {last : Option ConvoMessage}
    (summable : db.Summable json) (listed : ∀ row ∈ last, row ∈ db.convoMessages) :
    Survives json (db.lastView json env convo last) := by
  cases last with
  | none => exact ⟨summable, fun impossible => by contradiction⟩
  | some row =>
      have head := survives_decodeRow env summable (listed row rfl)
      rw [lastView]
      split
      · rename_i aborted
        rw [aborted] at head
        exact absurd rfl head.ends
      · rename_i failed
        rw [failed] at head
        exact ⟨head.summable, by simp⟩
      · rename_i decoded
        rw [decoded] at head
        exact ⟨head.summable, by simp⟩

theorem survives_summarize {rows : List (ConvoId P × Option ConvoMessage)}
    (summable : db.Summable json)
    (listed : ∀ entry ∈ rows, ∀ row ∈ entry.2, row ∈ db.convoMessages) :
    Survives json (db.summarize json env rows) := by
  induction rows generalizing db with
  | nil => exact ⟨summable, fun impossible => by contradiction⟩
  | cons entry rest ih =>
      obtain ⟨convo, last⟩ := entry
      have head := survives_lastView env convo summable (listed _ List.mem_cons_self)
      have tail := ih head.summable fun other inside => by
        rw [(onlyRoots_lastView json env db convo last).messages]
        exact listed other (List.mem_cons_of_mem _ inside)
      rw [summarize]
      split
      · rename_i failed
        rw [failed] at head
        exact ⟨head.summable, fun same => head.ends (by cases same; rfl)⟩
      · rename_i shown
        rw [shown] at tail
        exact tail.withFirst _

/-- The last message of a conversation is a stored one. -/
theorem mem_of_lastMessage {convoId : Nat} {row : ConvoMessage}
    (last : db.lastMessage convoId = some row) : row ∈ db.convoMessages :=
  (List.mem_filter.mp (List.mem_of_find?_eq_some last)).1

/-- `convo_list` aborts nothing while sizes can be added up. -/
theorem survives_convoList (env : ReadEnv P) (summable : db.Summable json) :
    Survives json (db.convoList json env) := by
  rw [convoList]
  split
  · exact ⟨summable, by simp⟩
  · refine survives_summarize summable fun entry listed row isLast => ?_
    obtain ⟨keyed, inside, rfl⟩ := List.mem_map.mp listed
    obtain ⟨found, _, rfl⟩ := List.mem_map.mp ((List.mergeSort_perm _ _).mem_iff.mp inside)
    exact mem_of_lastMessage isLast

/-- The rows of a page are stored ones. -/
theorem mem_of_historyRows {convo : ConvoId P} {before after : Option Int} {limit : UInt16}
    {row : ConvoMessage} (listed : row ∈ db.historyRows convo before after limit) :
    row ∈ db.convoMessages := by
  rw [historyRows] at listed
  split at listed
  · contradiction
  · have taken := List.mem_of_mem_take (List.mem_reverse.mp listed)
    exact (List.mem_filter.mp ((List.mergeSort_perm _ _).mem_iff.mp taken)).1

/-- `convo_history` aborts nothing while sizes can be added up. -/
theorem survives_convoHistory (env : ReadEnv P) (summable : db.Summable json) (convo : ConvoId P)
    (before after : Option Int) (limit : UInt16) :
    Survives json (db.convoHistory json env convo before after limit) := by
  rw [convoHistory]
  split
  · exact ⟨summable, by simp⟩
  · exact survives_showRows convo summable fun _ => mem_of_historyRows

theorem withFirst_error {Item : Type} {first : Item} {err : ReadError}
    {ends : ClientDb P × Except ReadError (List Item)} (failed : ends.2 = .error err) :
    (withFirst first ends).2 = .error err := by
  obtain ⟨next, result⟩ := ends
  cases failed
  rfl

/-- The last message fails only by aborting. -/
theorem lastView_error {convo : ConvoId P} {last : Option ConvoMessage} {next : ClientDb P}
    {err : ReadError} (failed : db.lastView json env convo last = (next, .error err)) :
    err = .aborted := by
  cases last with
  | none => cases failed
  | some row =>
      rw [lastView] at failed
      split at failed
      · cases failed
        rfl
      · cases failed
      · cases failed

/-- A last message whose decoding aborts aborts the list. -/
theorem lastView_aborts (convo : ConvoId P) {row : ConvoMessage}
    (decodes : (db.decodeRow json env row).2 = .error .aborted) :
    (db.lastView json env convo (some row)).2 = .error .aborted := by
  rw [lastView]
  split
  · rfl
  · rename_i real same
    rw [same] at decodes
    exact (real (Except.error.inj decodes)).elim
  · rename_i same
    rw [same] at decodes
    contradiction

/-- A row aborts the loop, whatever stands before it. -/
theorem summarize_aborts {rows : List (ConvoId P × Option ConvoMessage)} {convo : ConvoId P}
    {row : ConvoMessage} (listed : (convo, some row) ∈ rows)
    (decodes : ∀ db : ClientDb P, (db.decodeRow json env row).2 = .error .aborted) :
    (db.summarize json env rows).2 = .error .aborted := by
  induction rows generalizing db with
  | nil => contradiction
  | cons entry rest ih =>
      rw [summarize]
      split
      · rename_i failed
        rw [lastView_error failed]
      · rename_i shown
        rcases List.mem_cons.mp listed with rfl | later
        · have aborts := lastView_aborts convo (decodes db)
          rw [shown] at aborts
          contradiction
        · exact withFirst_error (ih later)

/-- A message which is the last of its conversation and whose sizes overflow: there is no list
of conversations at all, now or later. -/
theorem convoList_aborts {convo : ConvoId P} {found : ConvoRow} {row : ConvoMessage}
    (listed : (convo, found) ∈ db.convos.rows) (last : db.lastMessage found.id = some row)
    (isAttachment : row.mime = Attachment.mimeType) {root : Attachment P}
    (read : json.attachment row.body = some root) (overflows : totalSize root.children = none)
    (queries : env.queryFails = false) (stores : env.storeFails row.id = false) :
    (db.convoList json env).2 = .error .aborted ∧
      ((db.convoList json env).1.convoList json env).2 = .error .aborted := by
  have aborts : ∀ roots, (({ db with attachmentRoots := roots } : ClientDb P).convoList json env).2 =
      .error .aborted := by
    intro roots
    have inside : (listKey found (some row), convo, some row) ∈
        db.convos.rows.map fun (convo, row) => (listKey row (db.lastMessage row.id), convo,
          db.lastMessage row.id) := by
      refine List.mem_map.mpr ⟨(convo, found), listed, ?_⟩
      dsimp only
      rw [last]
    have isRow : (convo, some row) ∈ db.listRows :=
      List.mem_map.mpr ⟨_, (List.mergeSort_perm _ _).mem_iff.mpr inside, rfl⟩
    rw [convoList, if_neg (by simp [queries])]
    exact summarize_aborts isRow fun _ => decodeRow_aborts isAttachment read stores overflows
  refine ⟨aborts db.attachmentRoots, ?_⟩
  obtain ⟨roots, same⟩ := onlyRoots_convoList json env db
  rw [same]
  exact aborts roots

/-- A history of one message. -/
theorem historyRows_single (keyed : db.MessagesKeyed) {row : ConvoMessage}
    (listed : row ∈ db.convoMessages) :
    ∃ convo, db.historyRows convo (some row.id) (some row.id) 1 = [row] := by
  obtain ⟨convo, found, looked, owns⟩ := keyed.owned row listed
  refine ⟨convo, ?_⟩
  have only : (db.convoMessages.filter fun message => message.convoId = found.id ∧
      (message.id : Int) ≤ (some (row.id : Int)).getD (2 ^ 63 - 1) ∧
        (some (row.id : Int)).getD (-2 ^ 63) ≤ (message.id : Int)) = [row] := by
    have same : ∀ message ∈ db.convoMessages, (decide (message.convoId = found.id ∧
        (message.id : Int) ≤ (some (row.id : Int)).getD (2 ^ 63 - 1) ∧
          (some (row.id : Int)).getD (-2 ^ 63) ≤ (message.id : Int))) = (message == row) := by
      intro message inside
      rw [Option.getD_some, Option.getD_some, beq_eq_decide, decide_eq_decide]
      constructor
      · rintro ⟨_, below, above⟩
        exact List.inj_on_of_nodup_map keyed.ids inside listed (by omega)
      · rintro rfl
        exact ⟨owns.symm, by omega, by omega⟩
    rw [List.filter_congr same, List.filter_beq,
      List.count_eq_one_of_mem (List.Nodup.of_map _ keyed.ids) listed]
    rfl
  simp only [historyRows, looked, only, List.mergeSort_singleton]
  rfl

/-- A conversation which is looked up or made keeps the keys. -/
theorem MessagesKeyed.ensureConvoId (keyed : db.MessagesKeyed) (convo : ConvoId P)
    (now : NanoTimestamp) : (db.ensureConvoId convo now).1.MessagesKeyed ∧
      ∃ found, (db.ensureConvoId convo now).1.convos.lookup convo = some found ∧
        found.id = (db.ensureConvoId convo now).2 := by
  rw [ClientDb.ensureConvoId]
  split
  · rename_i found looked
    exact ⟨keyed, found, looked, rfl⟩
  · rename_i absent
    refine ⟨⟨keyed.ids, fun row listed => ?_⟩, _, AList.lookup_insert _, rfl⟩
    obtain ⟨other, found, looked, owns⟩ := keyed.owned row listed
    refine ⟨other, found, ?_, owns⟩
    have apart : other ≠ convo := by
      rintro rfl
      rw [absent] at looked
      contradiction
    exact (AList.lookup_insert_ne apart).trans looked

/-- A message of a conversation which exists keeps the keys. -/
theorem MessagesKeyed.insertMessage (keyed : db.MessagesKeyed) {convo : ConvoId P} {convoId : Nat}
    (owns : ∃ found, db.convos.lookup convo = some found ∧ found.id = convoId) (sender : UserName)
    (content : Event P) (receivedAt : NanoTimestamp) :
    (db.insertMessage convoId sender content receivedAt).MessagesKeyed := by
  rw [ClientDb.insertMessage]
  split
  · exact keyed
  · constructor
    · rw [List.map_append, List.map_singleton]
      exact nodup_append_nextRowId keyed.ids
    · intro row listed
      rcases List.mem_append.mp listed with earlier | new
      · exact keyed.owned row earlier
      · obtain rfl := List.mem_singleton.mp new
        obtain ⟨found, looked, same⟩ := owns
        exact ⟨convo, found, looked, same⟩

/-- Storing a received message keeps the keys. -/
theorem MessagesKeyed.storeMessage (keyed : db.MessagesKeyed) (surroundings : ClientEnv P)
    (convo : ConvoId P) (sender : UserName) (content : Event P) (receivedAt : NanoTimestamp) :
    (db.storeMessage json surroundings convo sender content receivedAt).1.MessagesKeyed := by
  rw [ClientDb.storeMessage]
  split
  · exact keyed
  · have rooted : (if surroundings.fails .attachment then db
        else db.storeAttachment json sender content).MessagesKeyed := by
      split
      · exact keyed
      · obtain ⟨roots, same⟩ := storeAttachment_eq json sender content db
        rw [same]
        exact ⟨keyed.ids, keyed.owned⟩
    dsimp only
    split
    · exact rooted
    · obtain ⟨opened, owns⟩ := rooted.ensureConvoId convo surroundings.now
      split
      · exact opened
      · exact opened.insertMessage owns sender content receivedAt

end ClientDb

variable {json : JsonReader P} {env : ReadEnv P} {db : AttachmentDb P}

/-- The error of a call is the one which it ends in. -/
theorem errorOf_eq_some {Result : Type} {result : Except ReadError Result} {err : ReadError} :
    errorOf result = some err ↔ result = .error err := by
  cases result <;> simp [errorOf]

/-- `attachment_status` does not abort while sizes can be added up. -/
theorem attachmentStatus_survives (summable : db.client.Summable json) (id : P.Hash) :
    attachmentStatus env id db ≠ .error .aborted := by
  rw [attachmentStatus]
  split
  · simp
  · split
    · simp
    · rename_i root sender looked
      have fits := summable.roots id root sender looked
      split
      · simp
      · split
        · simp
        · rw [totalSize_eq, if_pos fits]
          simp

/-- `download_inner` does not abort while sizes can be added up. -/
theorem downloadInner_survives (summable : db.client.Summable json) {id : P.Hash}
    {result : DownloadResult}
    (fetched : env.refuses = none → ∀ root sender,
      db.client.attachmentRoots.lookup id = some (root, sender) →
        Downloads env.server root result) :
    (downloadInner env id result db).2 ≠ .error .aborted := by
  cases looked : db.client.attachmentRoots.lookup id with
  | none => simp [downloadInner, looked]
  | some found =>
      cases starts : env.refuses with
      | some reason => simp [downloadInner, looked, starts]
      | none =>
          cases result with
          | aborted =>
              obtain ⟨root, sender⟩ := found
              have fits := summable.roots id root sender looked
              have large := totalSize_eq_none.mp
                (downloads_aborted.mp (fetched starts root sender looked))
              omega
          | failed err => simp [downloadInner, looked, starts]
          | saved content =>
              simp only [downloadInner, looked, starts]
              split <;> simp

/-- A download leaves the messages and the roots as they are. -/
theorem downloadInner_client (id : P.Hash) (result : DownloadResult) :
    (downloadInner env id result db).1.client = db.client := by
  cases looked : db.client.attachmentRoots.lookup id with
  | none => simp only [downloadInner, looked]
  | some found =>
      cases starts : env.refuses with
      | some reason => simp only [downloadInner, looked, starts]
      | none =>
          cases result with
          | aborted => simp only [downloadInner, looked, starts]
          | failed err => simp only [downloadInner, looked, starts]
          | saved content =>
              simp only [downloadInner, looked, starts]
              split <;> rfl

/-- However a call ends, the conversations and their messages stay, and the next start meets
them again. -/
theorem reads_onlyRoots {call : ReadCall P} {next : AttachmentDb P} {err : Option ReadError}
    (reads : Reads json env db call next err) : ClientDb.OnlyRoots db.client next.client := by
  cases reads with
  | convoList => exact ClientDb.onlyRoots_convoList json env db.client
  | convoHistory convo before after limit =>
      exact ClientDb.onlyRoots_convoHistory json env db.client convo before after limit
  | attachmentStatus id => exact .refl db.client
  | attachmentDownload fetched =>
      rw [downloadInner_client]
      exact .refl db.client

/-- No call aborts on attachments which can be added up, and it leaves such. -/
theorem reads_survives (summable : db.client.Summable json) {call : ReadCall P}
    {next : AttachmentDb P} {err : Option ReadError} (reads : Reads json env db call next err) :
    next.client.Summable json ∧ err ≠ some .aborted := by
  cases reads with
  | convoList =>
      have survives := ClientDb.survives_convoList env summable
      exact ⟨survives.summable, fun same => survives.ends (errorOf_eq_some.mp same)⟩
  | convoHistory convo before after limit =>
      have survives := ClientDb.survives_convoHistory env summable convo before after limit
      exact ⟨survives.summable, fun same => survives.ends (errorOf_eq_some.mp same)⟩
  | attachmentStatus id =>
      exact ⟨summable, fun same => attachmentStatus_survives summable id (errorOf_eq_some.mp same)⟩
  | attachmentDownload fetched =>
      refine ⟨?_, fun same => downloadInner_survives summable fetched (errorOf_eq_some.mp same)⟩
      rwa [downloadInner_client]

/-- Calls which nothing makes fail. -/
def calmReads : ReadEnv P := ⟨false, fun _ => false, fun _ => none, none, fun _ _ => .ok none, ""⟩

/-- A stored message whose sizes overflow aborts some call which reads it. -/
theorem convoHistory_aborts (keyed : db.client.MessagesKeyed) {row : ConvoMessage}
    (listed : row ∈ db.client.convoMessages) (isAttachment : row.mime = Attachment.mimeType)
    {root : Attachment P} (read : json.attachment row.body = some root)
    (overflows : totalSize root.children = none) :
    ∃ call next, Reads json calmReads db call next (some .aborted) := by
  obtain ⟨convo, rows⟩ := ClientDb.historyRows_single keyed listed
  have aborts : (db.client.convoHistory json calmReads convo (some row.id) (some row.id) 1).2 =
      .error .aborted := by
    have decoded : (db.client.decodeRow json calmReads row).2 = .error .aborted :=
      ClientDb.decodeRow_aborts isAttachment read rfl overflows
    rw [ClientDb.convoHistory, if_neg (by simp [calmReads]), rows, ClientDb.showRows]
    split
    · rfl
    · rename_i real same
      rw [same] at decoded
      exact (real (Except.error.inj decoded)).elim
    · rename_i same
      rw [same] at decoded
      contradiction
  refine ⟨.convoHistory convo (some row.id) (some row.id) 1, { db with
    client := (db.client.convoHistory json calmReads convo (some row.id) (some row.id) 1).1 }, ?_⟩
  rw [← errorOf_eq_some.mpr aborts]
  exact .convoHistory convo (some row.id) (some row.id) 1

/-- A stored root whose sizes overflow aborts some call for it. -/
theorem attachmentDownload_aborts (json : JsonReader P) {id : P.Hash} {root : Attachment P} {sender : UserName}
    (looked : db.client.attachmentRoots.lookup id = some (root, sender))
    (overflows : totalSize root.children = none) :
    ∃ call next, Reads json calmReads db call next (some .aborted) := by
  have aborts : downloadInner calmReads id .aborted db = (db, .error .aborted) := by
    simp only [downloadInner, looked, calmReads]
  refine ⟨.attachmentDownload id, (downloadInner calmReads id .aborted db).1, ?_⟩
  rw [← errorOf_eq_some.mpr (congrArg Prod.snd aborts)]
  refine .attachmentDownload fun _ found owner stored => ?_
  rw [looked] at stored
  cases stored
  exact .aborted overflows

/-- Conversations and attachments can be read for ever exactly when the sizes of each stored
attachment can be added up. -/
theorem readable_iff_summable (keyed : db.client.MessagesKeyed) :
    Readable json db ↔ db.client.Summable json := by
  constructor
  · intro readable
    have survives : ∀ call next, ¬Reads json calmReads db call next (some .aborted) :=
      fun call next reads => readable db .refl calmReads call next _ reads rfl
    constructor
    · intro row listed isAttachment root read
      by_contra large
      have overflows := totalSize_eq_none.mpr (Nat.le_of_not_lt large)
      obtain ⟨call, next, reads⟩ := convoHistory_aborts keyed listed isAttachment read overflows
      exact survives call next reads
    · intro id root sender looked
      by_contra large
      have overflows := totalSize_eq_none.mpr (Nat.le_of_not_lt large)
      obtain ⟨call, next, reads⟩ := attachmentDownload_aborts json looked overflows
      exact survives call next reads
  · intro summable later run
    have kept : later.client.Summable json := by
      induction run with
      | refl => exact summable
      | tail _ step ih =>
          obtain ⟨_, _, _, reads⟩ := step
          exact (reads_survives ih reads).1
    exact fun _ _ _ _ reads => (reads_survives kept reads).2

section

open Nullspace.Base.Json

/-- A root as JSON. -/
def Attachment.jsonText (root : Attachment P) : String :=
  object [("filename", string root.filename), ("mime", string root.mime),
    ("children", array (root.children.map fun child =>
      array [hashJson child.1, number child.2.toNat])),
    ("content_key", quoted (base64 root.contentKey.bytes.1))]

end

/-- Reads one root, in the form in which it is written. -/
def rootJson (root : Attachment symbolic) : JsonReader symbolic where
  attachment body := if body = utf8 root.jsonText then some root else none
  groupManage _ := none

theorem rootJson_attachment (root : Attachment symbolic) :
    (rootJson root).attachment (utf8 root.jsonText) = some root := by
  simp [rootJson]

/-- The row of Alice's message with this root. -/
def rootRow (root : Attachment symbolic) : ConvoMessage :=
  ⟨1, 1, alice, Attachment.mimeType, utf8 root.jsonText, 3, none, some 7⟩

/-- Bobby's database after this message. -/
def receivedRoot (root : Attachment symbolic) : AttachmentDb symbolic :=
  ⟨(ClientDb.empty.storeMessage (rootJson root) ⟨none, 5, 5, fun _ => none, fun _ => false⟩
    (.direct alice) alice ⟨.user bobby, 3, Attachment.mimeType, utf8 root.jsonText⟩ 7).1, ∅⟩

theorem receivedRoot_eq (root : Attachment symbolic) : ∃ roots, (receivedRoot root).client =
    { (ClientDb.empty : ClientDb symbolic) with
      convos := (∅ : Table (ConvoId symbolic) ConvoRow).insert (.direct alice) ⟨1, 5⟩
      convoMessages := [rootRow root]
      attachmentRoots := roots } := by
  obtain ⟨roots, rooted⟩ := ClientDb.storeAttachment_eq (rootJson root) alice
    ⟨.user bobby, 3, Attachment.mimeType, utf8 root.jsonText⟩ ClientDb.empty
  refine ⟨roots, ?_⟩
  rw [receivedRoot, ClientDb.storeMessage]
  simp only [rooted]
  rfl

theorem receivedRoot_keyed (root : Attachment symbolic) :
    (receivedRoot root).client.MessagesKeyed := by
  apply ClientDb.MessagesKeyed.storeMessage
  exact ⟨.nil, fun _ listed => by contradiction⟩

/-- Two children of half the range each. -/
def hugeRoot : Attachment symbolic :=
  ⟨"leaves", "text/plain", [(symbolic.bcsHash (symbolicLeaf [1, 2, 3]), 0x8000000000000000),
    (symbolic.bcsHash (symbolicLeaf [4]), 0x8000000000000000)], symbolicKey 4⟩

/-- A message of Alice's makes Bobby's client abort, and whenever he lists his conversations. -/
theorem hugeRoot_breaks :
    (rootJson hugeRoot).attachment (utf8 hugeRoot.jsonText) = some hugeRoot ∧
      (∀ env, env.queryFails = false → env.storeFails 1 = false →
        ((receivedRoot hugeRoot).client.convoList (rootJson hugeRoot) env).2 = .error .aborted ∧
          (((receivedRoot hugeRoot).client.convoList (rootJson hugeRoot) env).1.convoList
            (rootJson hugeRoot) env).2 = .error .aborted) ∧
      ¬Readable (rootJson hugeRoot) (receivedRoot hugeRoot) := by
  have read := rootJson_attachment hugeRoot
  have overflows : totalSize hugeRoot.children = none := totalSize_eq_none.mpr (by decide)
  obtain ⟨roots, same⟩ := receivedRoot_eq hugeRoot
  refine ⟨read, fun env queries stores => ?_, fun readable => ?_⟩
  · rw [same]
    have isConvo : (.direct alice, ⟨1, 5⟩) ∈ Table.rows
        ((∅ : Table (ConvoId symbolic) ConvoRow).insert (.direct alice) ⟨1, 5⟩) :=
      Table.mem_rows.mpr (AList.lookup_insert _)
    exact ClientDb.convoList_aborts isConvo rfl rfl read overflows queries stores
  · have listed : rootRow hugeRoot ∈ (receivedRoot hugeRoot).client.convoMessages := by
      rw [same]
      exact List.mem_cons_self
    obtain ⟨call, next, reads⟩ := convoHistory_aborts (receivedRoot_keyed hugeRoot) listed rfl read
      overflows
    exact readable _ .refl _ _ _ _ reads rfl

theorem readable_iff_summable_twoLeaves :
    Readable (rootJson (twoLeaves 3 1)) (receivedRoot (twoLeaves 3 1)) ↔
      (receivedRoot (twoLeaves 3 1)).client.Summable (rootJson (twoLeaves 3 1)) :=
  readable_iff_summable (receivedRoot_keyed (twoLeaves 3 1))

end Nullspace
