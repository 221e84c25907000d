import Mathlib.Data.List.TakeDrop
import Nullspace.Base.Json
import Nullspace.Structs.Basic

/-!
# Messages

Requests and responses are JSON-RPC texts of the `nanorpc` crate, around texts of this
program. The transports read at most `maxMessageBytes` of a response: the line codec of
the TCP transports gives up at a longer line, and the HTTP transport cuts the body off.
-/

namespace Nullspace

open Nullspace.Base Nullspace.Base.Json

/-- `MAX_MESSAGE_BYTES`. -/
def maxMessageBytes : Nat := 1024 * 1024

/-- What the `nanorpc` crate puts around a call and around its result, and how much it adds to
the result. -/
structure Envelope where
  request (method : String) (params : List String) : String
  response (result : String) : String
  overhead : Nat
  size_response : ∀ result, size (response result) = size result + overhead

/-- The form of JSON-RPC 2.0, with a given identifier. -/
def jsonRpc (id : String) : Envelope where
  request method params :=
    object [("jsonrpc", quoted "2.0"), ("method", quoted method), ("params", array params),
      ("id", id)]
  response result := object [("jsonrpc", quoted "2.0"), ("result", result), ("id", id)]
  overhead := size id + 33
  size_response result := by
    have jsonrpc : size "jsonrpc" = 7 := by decide
    have version : size "2.0" = 3 := by decide
    have name : size "result" = 6 := by decide
    have idName : size "id" = 2 := by decide
    simp only [size_object, List.map_cons, List.map_nil, List.sum_cons, List.sum_nil,
      List.length_cons, List.length_nil, jsonrpc, version, name, idName, size_quoted]
    omega

/-- A message which every transport reads whole. -/
def Fits (message : String) : Prop := size message ≤ maxMessageBytes

instance (message : String) : Decidable (Fits message) :=
  inferInstanceAs (Decidable (size message ≤ maxMessageBytes))

/-- The loop of `HttpTransport::call_raw` over the chunks of a body. -/
def readBody (body : Bytes) : List Bytes → Bytes
  | [] => body
  | chunk :: rest =>
      if body.length + chunk.length > maxMessageBytes then
        body ++ chunk.take (maxMessageBytes - body.length)
      else readBody (body ++ chunk) rest

/-- A body is read up to the limit and cut there. -/
theorem readBody_eq_take {body : Bytes} (short : body.length ≤ maxMessageBytes)
    (chunks : List Bytes) :
    readBody body chunks = (body ++ chunks.flatten).take maxMessageBytes := by
  induction chunks generalizing body with
  | nil => rw [readBody, List.flatten_nil, List.append_nil, List.take_of_length_le short]
  | cons chunk rest ih =>
      rw [readBody, List.flatten_cons]
      by_cases long : body.length + chunk.length > maxMessageBytes
      · rw [if_pos long, List.take_append, List.take_of_length_le short, List.take_append,
          show maxMessageBytes - body.length - chunk.length = 0 by omega, List.take_zero,
          List.append_nil]
      · rw [if_neg long, ih (by rw [List.length_append]; omega), List.append_assoc]

/-- The bytes of a text are counted by its size. -/
theorem length_utf8 (text : String) : (utf8 text).length = size text := by
  rw [utf8, Array.length_toList]
  rfl

/-- However a message is cut into chunks, the HTTP transport reads the whole of it exactly when
it fits. -/
theorem readBody_iff_fits {chunks : List Bytes} {message : String}
    (sent : chunks.flatten = utf8 message) : readBody [] chunks = utf8 message ↔ Fits message := by
  rw [readBody_eq_take (Nat.zero_le _), List.nil_append, sent, List.take_eq_self_iff, length_utf8]
  rfl

end Nullspace
