import Nullspace.Base.Machine
import Nullspace.DirClient.HeaderSync

/-!
# Verified queries of the directory client

One query is three steps: fetch the item and an anchor, synchronise the headers, verify
the response. Several queries of one client may be between these steps at a time; what
the server answers, and which cached anchors have been evicted, comes with the events.
The cached anchor is looked up by the height which the server claims for its proof.
-/

namespace Nullspace

open Nullspace.Base

variable {P : Primitives} {S : Smt P}

/-- `verify_response` and what precedes it can fail in these ways. -/
inductive QueryError where
  | unavailable
  | anchorSignature
  | sync (err : SyncError)
  | headerChainMismatch
  | missingHeader (height : Nat)
  | decompress
  | invalidProof
deriving DecidableEq

/-- The value in the tree for a history: an empty history means absence. -/
def historyValue (history : List (DirectoryUpdate P)) : Bytes :=
  if history = [] then [] else Bcs.toBytes history

/-- The value of a history tells the history. -/
theorem historyValue_injective :
    Function.Injective (historyValue : List (DirectoryUpdate P) → Bytes) := by
  intro first second same
  simp only [historyValue] at same
  split at same <;> split at same
  · simp [*]
  · exact absurd same.symm (Bcs.toBytes_list_ne_nil second)
  · exact absurd same (Bcs.toBytes_list_ne_nil first)
  · exact Bcs.toBytes_injective same

/-- `verify_response`; `decompress` reads a compressed proof of the `novasmt` crate. -/
def verifyResponse (decompress : Bytes → Option S.Proof) (table : HeaderTable P) (key : String)
    (anchor : DirectoryAnchor P) (response : DirectoryResponse P) : Except QueryError Unit :=
  if response.proofHeight > anchor.lastHeaderHeight then .error .headerChainMismatch
  else
    match table.loadHeader response.proofHeight with
    | none => .error (.missingHeader response.proofHeight)
    | some header =>
        match decompress response.proofMerkleBranch with
        | none => .error .decompress
        | some proof =>
            if S.check proof header.smtRoot (DirectoryDb.keyHash key)
                (historyValue response.history) then .ok ()
            else .error .invalidProof

/-- A response verifies when its proof leads to the header at its height. -/
theorem verifyResponse_ok {decompress : Bytes → Option S.Proof} {table : HeaderTable P}
    {key : String} {anchor : DirectoryAnchor P} {response : DirectoryResponse P} :
    verifyResponse decompress table key anchor response = .ok () ↔
      response.proofHeight ≤ anchor.lastHeaderHeight ∧
      ∃ header, table.loadHeader response.proofHeight = some header ∧
        ∃ proof, decompress response.proofMerkleBranch = some proof ∧
          S.check proof header.smtRoot (DirectoryDb.keyHash key)
            (historyValue response.history) = true := by
  rw [verifyResponse]
  by_cases above : response.proofHeight > anchor.lastHeaderHeight
  · rw [if_pos above]
    simp only [reduceCtorEq, false_iff]
    omega
  · rw [if_neg above]
    cases table.loadHeader response.proofHeight with
    | none => simp
    | some header =>
        cases decompress response.proofMerkleBranch with
        | none => simp
        | some proof => simp [Nat.le_of_not_gt above]

/-- The loop which waits for an anchor at a height; `none` is an answer without one. -/
def awaitAnchor (anchorPk : P.SigningPublic) (height : Nat) :
    List (Option (DirectoryAnchor P)) → Except QueryError (DirectoryAnchor P)
  | [] => .error .unavailable
  | none :: _ => .error .unavailable
  | some anchor :: rest =>
      if !Signable.verify anchor anchorPk then .error .anchorSignature
      else if anchor.lastHeaderHeight < height then awaitAnchor anchorPk height rest
      else .ok anchor

/-- An anchor which was waited for is signed and high enough. -/
theorem awaitAnchor_ok {anchorPk : P.SigningPublic} {height : Nat}
    {answers : List (Option (DirectoryAnchor P))} {anchor : DirectoryAnchor P}
    (awaited : awaitAnchor anchorPk height answers = .ok anchor) :
    some anchor ∈ answers ∧ Signable.verify anchor anchorPk = true ∧
      height ≤ anchor.lastHeaderHeight := by
  induction answers with
  | nil => simp [awaitAnchor] at awaited
  | cons answer rest ih =>
      cases answer with
      | none => simp [awaitAnchor] at awaited
      | some first =>
          rw [awaitAnchor] at awaited
          split at awaited
          · simp at awaited
          · rename_i signed
            split at awaited
            · obtain ⟨listed, verified, reaches⟩ := ih awaited
              exact ⟨List.mem_cons_of_mem _ listed, verified, reaches⟩
            · rename_i reaches
              cases awaited
              exact ⟨List.mem_cons_self, by simpa using signed, Nat.le_of_not_lt reaches⟩

/-- A query which has a response and an anchor. -/
structure Query (P : Primitives) where
  key : String
  response : DirectoryResponse P
  anchor : DirectoryAnchor P
  synced : Bool

structure DirClient (P : Primitives) where
  headers : HeaderTable P
  /-- `anchor_cache`, keyed by the proof height of a response. -/
  anchorCache : Table Nat (DirectoryAnchor P)
  queries : Table Nat (Query P)
  /-- The responses which queries returned, with their keys. The code keeps no record. -/
  accepted : List (String × DirectoryResponse P)

inductive DirClientEvent (P : Primitives) where
  | fetch (query : Nat) (key : String) (response : Option (DirectoryResponse P)) (evicted : Bool)
      (anchors : List (Option (DirectoryAnchor P)))
  | sync (query : Nat) (replies : List (Option (List (DirectoryHeader P))))
  | verify (query : Nat)
  /-- The process starts again over the same database. -/
  | restart

/-- The anchors which the server offers in an event. -/
def DirClientEvent.anchors : DirClientEvent P → List (Option (DirectoryAnchor P))
  | .fetch _ _ _ _ anchors => anchors
  | _ => []

namespace DirClient

/-- A client over a new header table. -/
def fresh : DirClient P := ⟨∅, ∅, ∅, []⟩

/-- `anchor_cache.try_get_with`: an evicted anchor is fetched again, a failure is not kept. -/
def anchorFor (anchorPk : P.SigningPublic) (client : DirClient P) (height : Nat) (evicted : Bool)
    (anchors : List (Option (DirectoryAnchor P))) : Except QueryError (DirectoryAnchor P) :=
  match client.anchorCache.lookup height with
  | none => awaitAnchor anchorPk height anchors
  | some anchor => if evicted then awaitAnchor anchorPk height anchors else .ok anchor

/-- The client as a machine over the steps of `fetch_verified_response`. -/
def machine (decompress : Bytes → Option S.Proof) (anchorPk : P.SigningPublic) :
    Machine (DirClient P) (DirClientEvent P) where
  step client
    | .fetch query key response evicted anchors =>
        if query ∈ client.queries then none
        else
          match response with
          | none => some client
          | some response =>
              match client.anchorFor anchorPk response.proofHeight evicted anchors with
              | .error _ => some client
              | .ok anchor =>
                  some { client with
                    anchorCache := client.anchorCache.insert response.proofHeight anchor
                    queries := client.queries.insert query ⟨key, response, anchor, false⟩ }
    | .sync query replies =>
        match client.queries.lookup query with
        | none => none
        | some running =>
            if running.synced then none
            else
              match client.headers.syncHeaders running.anchor replies with
              | (headers, .error _) =>
                  some { client with headers := headers, queries := client.queries.erase query }
              | (headers, .ok ()) =>
                  some { client with
                    headers := headers
                    queries := client.queries.insert query { running with synced := true } }
    | .verify query =>
        match client.queries.lookup query with
        | none => none
        | some running =>
            if !running.synced then none
            else
              match verifyResponse decompress client.headers running.key running.anchor
                  running.response with
              | .error _ => some { client with queries := client.queries.erase query }
              | .ok () =>
                  some { client with
                    queries := client.queries.erase query
                    accepted := client.accepted ++ [(running.key, running.response)] }
    | .restart => some { client with anchorCache := ∅, queries := ∅ }

end DirClient
end Nullspace
