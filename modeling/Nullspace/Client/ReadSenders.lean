import Nullspace.Client.Readable

/-!
# Whose server a download asks

A download asks the server of the sender who is stored with the attachment's root. The root's
hash is the only key, and whenever a message is decoded for display its sender takes the place
of the one before. `undisturbed_iff` says of which databases reading leaves all senders alone.
-/

namespace Nullspace

open Nullspace.Base

variable {P : Primitives}

/-- A call of `convo_list` or `convo_history`, and what it leaves. -/
inductive ReadsHistory (json : JsonReader P) (db : ClientDb P) : ClientDb P → Prop
  | convoList (env : ReadEnv P) : ReadsHistory json db (db.convoList json env).1
  | convoHistory (env : ReadEnv P) (convo : ConvoId P) (before after : Option Int)
      (limit : UInt16) :
      ReadsHistory json db (db.convoHistory json env convo before after limit).1

namespace ClientDb

/-- The sender whose server `download_inner` asks for an attachment. -/
def downloadSender (db : ClientDb P) (id : P.Hash) : Option UserName :=
  (db.attachmentRoots.lookup id).map Prod.snd

/-- However often and in whatever order conversations are read, downloads ask the same
servers. -/
def Undisturbed (json : JsonReader P) (db : ClientDb P) : Prop :=
  ∀ later, Relation.ReflTransGen (ReadsHistory json) db later →
    ∀ id, later.downloadSender id = db.downloadSender id

/-- The root of a message is stored with the sender of the message. -/
def Attributed (json : JsonReader P) (db : ClientDb P) (row : ConvoMessage) : Prop :=
  row.mime = Attachment.mimeType → ∀ root, json.attachment row.body = some root →
    db.downloadSender (P.bcsHash root) = some row.senderUsername

variable {json : JsonReader P} {db next last : ClientDb P}

/-- The same messages are there, and the same senders. -/
structure SameSenders (db next : ClientDb P) : Prop where
  messages : next.convoMessages = db.convoMessages
  senders : ∀ id, next.downloadSender id = db.downloadSender id

theorem SameSenders.refl (db : ClientDb P) : SameSenders db db := ⟨rfl, fun _ => rfl⟩

theorem SameSenders.trans (first : SameSenders db next) (second : SameSenders next last) :
    SameSenders db last :=
  ⟨second.messages.trans first.messages, fun id => (second.senders id).trans (first.senders id)⟩

theorem Attributed.of_same {row : ConvoMessage} (attributed : db.Attributed json row)
    (same : SameSenders db next) : next.Attributed json row := by
  intro isAttachment root read
  rw [same.senders]
  exact attributed isAttachment root read

/-- A stored root is asked for at its sender's server. -/
theorem downloadSender_storeAttachmentRoot (db : ClientDb P) (sender : UserName)
    (root : Attachment P) (id : P.Hash) :
    (db.storeAttachmentRoot sender root).downloadSender id =
      if id = P.bcsHash root then some sender else db.downloadSender id := by
  rw [downloadSender, storeAttachmentRoot, Table.lookup_insert_eq]
  split <;> rfl

/-- Decoding a message stores its root with its sender. -/
theorem downloadSender_decodeRow {env : ReadEnv P} {row : ConvoMessage} {root : Attachment P}
    (isAttachment : row.mime = Attachment.mimeType) (read : json.attachment row.body = some root)
    (stores : env.storeFails row.id = false) :
    (db.decodeRow json env row).1.downloadSender (P.bcsHash root) = some row.senderUsername := by
  rw [decodeRow_root isAttachment read stores, downloadSender_storeAttachmentRoot, if_pos rfl]

theorem sameSenders_decodeRow {row : ConvoMessage} (attributed : db.Attributed json row)
    (env : ReadEnv P) : SameSenders db (db.decodeRow json env row).1 := by
  refine ⟨(onlyRoots_decodeRow json env db row).messages, fun id => ?_⟩
  rw [decodeRow, decodeMessageContent]
  split
  · rfl
  · split
    · rfl
    · split
      · rename_i isAttachment
        cases read : json.attachment row.body with
        | none => rfl
        | some root =>
            dsimp only
            split
            · rfl
            · rw [downloadSender_storeAttachmentRoot]
              split
              · subst id
                exact (attributed isAttachment root read).symm
              · rfl
      · rfl

theorem sameSenders_showRows (env : ReadEnv P) (convo : ConvoId P) {rows : List ConvoMessage}
    (attributed : ∀ row ∈ rows, db.Attributed json row) :
    SameSenders db (db.showRows json env convo rows).1 := by
  induction rows generalizing db with
  | nil => exact .refl db
  | cons row rest ih =>
      have head := sameSenders_decodeRow (attributed row List.mem_cons_self) env
      have tail := ih fun other listed =>
        (attributed other (List.mem_cons_of_mem row listed)).of_same head
      rw [showRows]
      split
      · rename_i aborted
        rwa [aborted] at head
      · rename_i failed
        rw [failed] at head tail
        exact head.trans tail
      · rename_i decoded
        rw [decoded] at head tail
        rw [withFirst_fst]
        exact head.trans tail

theorem sameSenders_lastView (env : ReadEnv P) (convo : ConvoId P) {shown : Option ConvoMessage}
    (attributed : ∀ row ∈ shown, db.Attributed json row) :
    SameSenders db (db.lastView json env convo shown).1 := by
  cases shown with
  | none => exact .refl db
  | some row =>
      have head := sameSenders_decodeRow (attributed row rfl) env
      rw [lastView]
      split <;> rename_i decoded <;> rwa [decoded] at head

theorem sameSenders_summarize (env : ReadEnv P)
    {rows : List (ConvoId P × Option ConvoMessage)}
    (attributed : ∀ entry ∈ rows, ∀ row ∈ entry.2, db.Attributed json row) :
    SameSenders db (db.summarize json env rows).1 := by
  induction rows generalizing db with
  | nil => exact .refl db
  | cons entry rest ih =>
      obtain ⟨convo, shown⟩ := entry
      have head := sameSenders_lastView env convo (attributed _ List.mem_cons_self)
      have tail := ih fun other listed row isLast =>
        (attributed other (List.mem_cons_of_mem _ listed) row isLast).of_same head
      rw [summarize]
      split
      · rename_i failed
        rwa [failed] at head
      · rename_i decoded
        rw [decoded] at head tail
        rw [withFirst_fst]
        exact head.trans tail

/-- When all messages are attributed, a call keeps the senders. -/
theorem sameSenders_reads (attributed : ∀ row ∈ db.convoMessages, db.Attributed json row)
    (reads : ReadsHistory json db next) : SameSenders db next := by
  cases reads with
  | convoList env =>
      rw [convoList]
      split
      · exact .refl db
      · refine sameSenders_summarize env fun entry listed row isLast => ?_
        obtain ⟨keyed, inside, rfl⟩ := List.mem_map.mp listed
        obtain ⟨found, -, rfl⟩ := List.mem_map.mp ((List.mergeSort_perm _ _).mem_iff.mp inside)
        exact attributed row (mem_of_lastMessage isLast)
  | convoHistory env convo before after limit =>
      rw [convoHistory]
      split
      · exact .refl db
      · exact sameSenders_showRows env convo fun row listed =>
          attributed row (mem_of_historyRows listed)

/-- However often attributed messages are read, the senders stay. -/
theorem sameSenders_run (attributed : ∀ row ∈ db.convoMessages, db.Attributed json row)
    (run : Relation.ReflTransGen (ReadsHistory json) db next) : SameSenders db next := by
  induction run with
  | refl => exact .refl db
  | tail _ step ih =>
      refine ih.trans (sameSenders_reads ?_ step)
      intro row listed
      rw [ih.messages] at listed
      exact (attributed row listed).of_same ih

/-- The history of one message alone. -/
theorem exists_reads_message (keyed : db.MessagesKeyed) {row : ConvoMessage}
    (listed : row ∈ db.convoMessages) (isAttachment : row.mime = Attachment.mimeType)
    {root : Attachment P} (read : json.attachment row.body = some root) :
    ∃ next, ReadsHistory json db next ∧
      next.downloadSender (P.bcsHash root) = some row.senderUsername := by
  obtain ⟨convo, rows⟩ := historyRows_single keyed listed
  refine ⟨_, .convoHistory calmReads convo (some row.id) (some row.id) 1, ?_⟩
  have stored := @downloadSender_decodeRow P json db calmReads row root isAttachment read rfl
  rw [convoHistory, if_neg (by simp [calmReads]), rows, showRows]
  split <;> rename_i decoded <;> rw [decoded] at stored
  · exact stored
  · exact stored
  · rw [withFirst_fst]
    exact stored

/-- Reading leaves all senders alone exactly when every message which carries a root is from
the sender who is stored with this root. -/
theorem undisturbed_iff (keyed : db.MessagesKeyed) :
    db.Undisturbed json ↔ ∀ row ∈ db.convoMessages, db.Attributed json row := by
  constructor
  · intro undisturbed row listed isAttachment root read
    obtain ⟨next, reads, stored⟩ := exists_reads_message keyed listed isAttachment read
    rw [← undisturbed next (.single reads), stored]
  · exact fun attributed later run => (sameSenders_run attributed run).senders

end ClientDb

/-- The database of `receivedRoot` after Bobby has sent the attachment to himself. -/
def forwardedRoot (root : Attachment symbolic) : ClientDb symbolic :=
  ((receivedRoot root).client.storeMessage (rootJson root)
    ⟨none, 5, 5, fun _ => none, fun _ => false⟩
    (.direct bobby) bobby ⟨.user bobby, 4, Attachment.mimeType, utf8 root.jsonText⟩ 9).1

theorem forwardedRoot_keyed (root : Attachment symbolic) : (forwardedRoot root).MessagesKeyed :=
  (receivedRoot_keyed root).storeMessage _ _ _ _ _

theorem rootRow_forwarded :
    rootRow (twoLeaves 3 1) ∈ (forwardedRoot (twoLeaves 3 1)).convoMessages := by
  decide +kernel

theorem forwardedRoot_sender :
    (forwardedRoot (twoLeaves 3 1)).downloadSender (symbolic.bcsHash (twoLeaves 3 1)) =
      some bobby := by
  decide +kernel

/-- When Bobby reads Alice's message, his downloads ask her server again. -/
theorem forwardedRoot_redirected :
    ¬∀ db : ClientDb symbolic, db.MessagesKeyed →
      db.Undisturbed (rootJson (twoLeaves 3 1)) := by
  intro undisturbed
  obtain ⟨next, reads, stored⟩ := ClientDb.exists_reads_message
    (forwardedRoot_keyed (twoLeaves 3 1)) rootRow_forwarded rfl
    (rootJson_attachment (twoLeaves 3 1))
  have kept := undisturbed _ (forwardedRoot_keyed _) next (.single reads)
    (symbolic.bcsHash (twoLeaves 3 1))
  rw [stored, forwardedRoot_sender] at kept
  exact absurd (Option.some.inj kept) (by decide)

/-- The message of the root which was received. -/
theorem undisturbed_iff_receivedRoot :
    (receivedRoot (twoLeaves 3 1)).client.Undisturbed (rootJson (twoLeaves 3 1)) ↔
      ∀ row ∈ (receivedRoot (twoLeaves 3 1)).client.convoMessages,
        (receivedRoot (twoLeaves 3 1)).client.Attributed (rootJson (twoLeaves 3 1)) row :=
  ClientDb.undisturbed_iff (receivedRoot_keyed (twoLeaves 3 1))

end Nullspace
