import Mathlib.Data.List.Sort
import Nullspace.Base.Json
import Nullspace.Structs.Directory
import Nullspace.Structs.Server

/-!
# Wire types as JSON

What `serde_json` writes for the types which servers and directories answer with, and how
many bytes it takes. Bytes are base64, hashes and tokens are hexadecimal.
-/

namespace Nullspace

open Nullspace.Base Nullspace.Base.Json

variable {P : Primitives}

/-- The bytes of keys and signatures, as `to_bytes` gives them. -/
structure RawBytes (P : Primitives) where
  signingPublic : P.SigningPublic → Bytes
  signature : P.Signature → Bytes

def hashJson (hash : P.Hash) : String := quoted (hex (P.hashBytes hash))

/-- A hash is a quoted hexadecimal text. -/
@[simp] theorem size_hashJson (hash : P.Hash) :
    size (hashJson hash) = 2 * (P.hashBytes hash).length + 2 := by
  rw [hashJson, size_quoted, size_hex]

def AuthToken.json (token : AuthToken) : String := quoted (hex token.bytes.1)

def Blob.json (blob : Blob) : String :=
  object [("kind", string blob.kind), ("inner", quoted (base64 blob.inner))]

/-- The bytes of a blob as JSON. -/
def Blob.jsonSize (blob : Blob) : Nat :=
  escapedLength blob.kind + (4 * blob.inner.length + 2) / 3 + 22

/-- `Blob.jsonSize` is the size of what `Blob.json` writes. -/
@[simp] theorem Blob.size_json (blob : Blob) : size blob.json = blob.jsonSize := by
  have kind : size "kind" = 4 := by decide
  have inner : size "inner" = 5 := by decide
  simp only [Blob.json, size_object, List.map_cons, List.map_nil, List.sum_cons, List.sum_nil,
    List.length_cons, List.length_nil, kind, inner, size_string, size_quoted, size_base64,
    Blob.jsonSize]
  omega

namespace MailboxEntry

def json (entry : MailboxEntry P) : String :=
  object [("message", entry.message.json), ("received_at", number entry.receivedAt.toNat),
    ("sender_auth_token_hash", match entry.senderAuthTokenHash with
      | none => null
      | some hash => hashJson hash)]

/-- The bytes of an entry as JSON. -/
def jsonSize (entry : MailboxEntry P) : Nat :=
  entry.message.jsonSize + size (number entry.receivedAt.toNat) +
    (match entry.senderAuthTokenHash with
      | none => 4
      | some hash => 2 * (P.hashBytes hash).length + 2) + 53

/-- A mailbox entry has the size which `jsonSize` counts. -/
@[simp] theorem size_json (entry : MailboxEntry P) : size entry.json = entry.jsonSize := by
  have message : size "message" = 7 := by decide
  have receivedAt : size "received_at" = 11 := by decide
  have sender : size "sender_auth_token_hash" = 22 := by decide
  cases sent : entry.senderAuthTokenHash <;>
  · simp only [json, jsonSize, sent, size_object, List.map_cons, List.map_nil, List.sum_cons,
      List.sum_nil, List.length_cons, List.length_nil, message, receivedAt, sender, size_null,
      size_hashJson, Blob.size_json]
    omega

end MailboxEntry

/-- The answer of `v1_mailbox_multirecv`: a map from mailboxes to their entries. -/
def multirecvJson (answer : List (MailboxId P × List (MailboxEntry P))) : String :=
  object (answer.map fun (mailbox, entries) =>
    (hex (P.hashBytes mailbox.hash), array (entries.map MailboxEntry.json)))

/-- The bytes of the entries of one mailbox, with the commas between them. -/
def entriesSize (entries : List (MailboxEntry P)) : Nat :=
  (entries.map MailboxEntry.jsonSize).sum + (entries.length - 1) + 2

theorem size_multirecvJson_nil : size (multirecvJson (P := P) []) = 2 := by
  rw [multirecvJson, List.map_nil, size_object]
  rfl

/-- An answer for one mailbox has the hexadecimal digits of its hash and its entries. -/
theorem size_multirecvJson (mailbox : MailboxId P) (entries : List (MailboxEntry P)) :
    size (multirecvJson [(mailbox, entries)]) =
      2 * (P.hashBytes mailbox.hash).length + entriesSize entries + 5 := by
  have each : size ∘ MailboxEntry.json (P := P) = MailboxEntry.jsonSize :=
    funext MailboxEntry.size_json
  simp only [multirecvJson, size_object, List.map_cons, List.map_nil, List.sum_cons, List.sum_nil,
    List.length_cons, List.length_nil, size_hex, size_array, List.map_map, each, List.length_map,
    entriesSize]
  omega

namespace DirectoryHeader

def json (header : DirectoryHeader P) : String :=
  object [("prev", hashJson header.prev), ("smt_root", hashJson header.smtRoot),
    ("time_unix", number header.timeUnix.toNat)]

/-- The bytes of a header as JSON. -/
def jsonSize (header : DirectoryHeader P) : Nat :=
  2 * (P.hashBytes header.prev).length + 2 * (P.hashBytes header.smtRoot).length +
    size (number header.timeUnix.toNat) + 38

/-- A header has the size which `jsonSize` counts. -/
@[simp] theorem size_json (header : DirectoryHeader P) : size header.json = header.jsonSize := by
  have prev : size "prev" = 4 := by decide
  have smtRoot : size "smt_root" = 8 := by decide
  have timeUnix : size "time_unix" = 9 := by decide
  simp only [json, jsonSize, size_object, List.map_cons, List.map_nil, List.sum_cons, List.sum_nil,
    List.length_cons, List.length_nil, prev, smtRoot, timeUnix, size_hashJson]
  omega

end DirectoryHeader

section

variable (raw : RawBytes P)

def DirectoryUpdateInner.json : DirectoryUpdateInner P → String
  | .addOwner owner => object [("AddOwner", quoted (base64 (raw.signingPublic owner)))]
  | .delOwner owner => object [("DelOwner", quoted (base64 (raw.signingPublic owner)))]
  | .update blob => object [("Update", blob.json)]

def DirectoryUpdateInner.jsonSize : DirectoryUpdateInner P → Nat
  | .addOwner owner | .delOwner owner => (4 * (raw.signingPublic owner).length + 2) / 3 + 15
  | .update blob => blob.jsonSize + 11

/-- The inner update has the size which `jsonSize` counts. -/
theorem DirectoryUpdateInner.size_json (inner : DirectoryUpdateInner P) :
    size (inner.json raw) = inner.jsonSize raw := by
  have addOwner : size "AddOwner" = 8 := by decide
  have delOwner : size "DelOwner" = 8 := by decide
  have update : size "Update" = 6 := by decide
  cases inner <;>
  · simp only [json, jsonSize, size_object, List.map_cons, List.map_nil, List.sum_cons,
      List.sum_nil, List.length_cons, List.length_nil, addOwner, delOwner, update, size_quoted,
      size_base64, Blob.size_json]
    omega

def DirectoryUpdate.json (update : DirectoryUpdate P) : String :=
  object [("prev_update_hash", hashJson update.prevUpdateHash),
    ("update_type", update.updateType.json raw),
    ("signature", quoted (base64 (raw.signature update.signature)))]

/-- The bytes of an update as JSON. -/
def DirectoryUpdate.jsonSize (update : DirectoryUpdate P) : Nat :=
  2 * (P.hashBytes update.prevUpdateHash).length + update.updateType.jsonSize raw +
    (4 * (raw.signature update.signature).length + 2) / 3 + 53

/-- An update has the size which `jsonSize` counts. -/
theorem DirectoryUpdate.size_json (update : DirectoryUpdate P) :
    size (update.json raw) = update.jsonSize raw := by
  have prev : size "prev_update_hash" = 16 := by decide
  have type : size "update_type" = 11 := by decide
  have signature : size "signature" = 9 := by decide
  simp only [json, jsonSize, size_object, List.map_cons, List.map_nil, List.sum_cons, List.sum_nil,
    List.length_cons, List.length_nil, prev, type, signature, size_hashJson, size_quoted,
    size_base64, DirectoryUpdateInner.size_json]
  omega

namespace DirectoryChunk

/-- The updates of a chunk stand in the order of their keys. -/
def sortedUpdates (chunk : DirectoryChunk P) : List (String × List (DirectoryUpdate P)) :=
  chunk.updates.rows.insertionSort fun first second => first.1 ≤ second.1

def json (chunk : DirectoryChunk P) : String :=
  object [("header", chunk.header.json),
    ("updates", object (chunk.sortedUpdates.map fun (key, updates) =>
      (escape key, array (updates.map (DirectoryUpdate.json raw)))))]

/-- The bytes of a key and its updates, in an object. -/
def rowSize (row : String × List (DirectoryUpdate P)) : Nat :=
  escapedLength row.1 + (row.2.map (DirectoryUpdate.jsonSize raw)).sum + (row.2.length - 1) + 5

/-- The bytes of a chunk as JSON. -/
def jsonSize (chunk : DirectoryChunk P) : Nat :=
  chunk.header.jsonSize + (chunk.updates.rows.map (rowSize raw)).sum +
    (chunk.updates.rows.length - 1) + 24

/-- A chunk has the size which `jsonSize` counts. -/
theorem size_json (chunk : DirectoryChunk P) : size (chunk.json raw) = chunk.jsonSize raw := by
  have header : size "header" = 6 := by decide
  have updates : size "updates" = 7 := by decide
  have each : size ∘ DirectoryUpdate.json raw = DirectoryUpdate.jsonSize raw :=
    funext (DirectoryUpdate.size_json raw)
  have sorted := List.perm_insertionSort
    (fun first second : String × List (DirectoryUpdate P) => first.1 ≤ second.1) chunk.updates.rows
  have rows : (chunk.sortedUpdates.map fun row => size (escape row.1) + 3 +
      size (array (row.2.map (DirectoryUpdate.json raw)))).sum =
        (chunk.updates.rows.map (rowSize raw)).sum := by
    rw [← (sorted.map (rowSize raw)).sum_eq]
    refine congrArg List.sum (List.map_congr_left fun row _ => ?_)
    simp only [size_escape, size_array, List.map_map, each, List.length_map, rowSize]
    omega
  have length : chunk.sortedUpdates.length = chunk.updates.rows.length := sorted.length_eq
  simp only [json, jsonSize, size_object, List.map_cons, List.map_nil, List.sum_cons, List.sum_nil,
    List.length_cons, List.length_nil, header, updates, DirectoryHeader.size_json, List.map_map,
    List.length_map, Function.comp_def, rows, length]
  omega

end DirectoryChunk
end
end Nullspace
