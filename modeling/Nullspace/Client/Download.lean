import Nullspace.Base.Overlay
import Nullspace.Structs.Fragment
import Nullspace.Symbolic

/-!
# Downloads of attachments

The children of the root are fetched side by side, each with all its leaves one after the
other; a leaf is written at the offset which the declared sizes give it. What a server
answers to a request may depend on anything, so an answer is looked up by the position of
the request in the recursion.

`fetchAll_unique` is what the hash checks are worth: the leaves which are written do not
depend on the server.
-/

namespace Nullspace

open Nullspace.Base

variable {P : Primitives}

/-- The answers of a fragment server, by the position of the request and its hash. -/
abbrev FragmentServer (P : Primitives) :=
  List Nat → P.Hash → Except String (Option (Fragment P))

inductive DownloadError where
  /-- The recursion goes deeper than the given bound; no error of the program. -/
  | unfinished
  | server (reason : String)
  | said (text : String)
  | io
deriving DecidableEq

/-- The writes of some leaves, in their order. -/
abbrev LeafWrites := Except DownloadError (List (Write UInt8))

/-- The children of a node, one after the other. -/
def fetchChildren (fetch : List Nat → P.Hash → UInt64 → LeafWrites) (position : List Nat) :
    Nat → UInt64 → List (P.Hash × UInt64) → LeafWrites
  | _, _, [] => .ok []
  | index, offset, (child, size) :: rest =>
      match fetch (position ++ [index]) child offset with
      | .error err => .error err
      | .ok writes =>
          match fetchChildren fetch position (index + 1) (saturatingAdd offset size) rest with
          | .error err => .error err
          | .ok more => .ok (writes ++ more)

/-- `download_fragment`. Offsets and ends of files are positive `i64` values. -/
def fetchFragment (server : FragmentServer P) (key : AeadKey) :
    Nat → List Nat → P.Hash → UInt64 → LeafWrites
  | 0, _, _, _ => .error .unfinished
  | depth + 1, position, hash, offset =>
      match server position hash with
      | .error reason => .error (.server reason)
      | .ok none => .error (.said "missing fragment")
      | .ok (some frag) =>
          if P.bcsHash frag ≠ hash then .error (.said "fragment hash mismatch")
          else
            match frag with
            | .node children =>
                fetchChildren (fetchFragment server key depth) position 0 offset children
            | .leaf nonce data =>
                match P.aeadDecrypt key nonce data [] with
                | none => .error (.said "chunk decryption failed")
                | some plaintext =>
                    if offset.toNat + plaintext.length < 2 ^ 63 then
                      .ok [(offset.toNat, plaintext)]
                    else .error .io

/-- The tasks of the root's children. One which fails ends the download. -/
def fetchAll (server : FragmentServer P) (key : AeadKey) (depth : Nat) :
    Nat → List (P.Hash × UInt64) → Except DownloadError (List (List (Write UInt8)))
  | _, [] => .ok []
  | index, (hash, offset) :: rest =>
      match fetchFragment server key depth [index] hash offset with
      | .error err => .error err
      | .ok writes =>
          match fetchAll server key depth (index + 1) rest with
          | .error err => .error err
          | .ok more => .ok (writes :: more)

/-- `TRANSFER_CONCURRENCY`. -/
def transferConcurrency : Nat := 64

inductive DownloadResult where
  /-- The process aborts. -/
  | aborted
  | failed (err : DownloadError)
  | saved (content : Bytes)
deriving DecidableEq

/-- The end of a download whose leaves were written in some order: the count of the written
bytes, which wraps, is compared with the total. -/
def finishDownload (total : UInt64) (order : List (Write UInt8)) : DownloadResult :=
  if UInt64.ofNat (order.map fun write => write.2.length).sum ≠ total then
    .failed (.said "download size mismatch")
  else .saved (overlay 0 (List.replicate total.toNat 0) order)

/-- `download_attachment_to_path`, to a path where no file exists and stays none, with the
file system in order: how it can end. -/
inductive Downloads (server : FragmentServer P) (root : Attachment P) : DownloadResult → Prop
  | aborted (overflows : totalSize root.children = none) : Downloads server root .aborted
  | empty (childless : root.children = []) : Downloads server root (.saved [])
  | tooLong {total : UInt64} (sized : totalSize root.children = some total)
      (children : root.children ≠ []) (long : 2 ^ 63 ≤ total.toNat) :
      Downloads server root (.failed .io)
  | stopped {total : UInt64} {depth : Nat} {err : DownloadError}
      (sized : totalSize root.children = some total) (children : root.children ≠ [])
      (short : total.toNat < 2 ^ 63)
      (fetched : fetchAll server root.contentKey depth 0 (childOffsets root) = .error err)
      (real : err ≠ .unfinished) : Downloads server root (.failed err)
  | finished {total : UInt64} {depth : Nat} {writers : List (List (Write UInt8))}
      {order : List (Write UInt8)} (sized : totalSize root.children = some total)
      (children : root.children ≠ []) (short : total.toNat < 2 ^ 63)
      (fetched : fetchAll server root.contentKey depth 0 (childOffsets root) = .ok writers)
      (ordered : Buffered transferConcurrency writers [] order) :
      Downloads server root (finishDownload total order)

/-! ## What a fetch writes -/

/-- The writes of a fragment which has arrived. -/
def Writes (key : AeadKey) (fetch : List Nat → P.Hash → UInt64 → LeafWrites) (position : List Nat)
    (offset : UInt64) (writes : List (Write UInt8)) : Fragment P → Prop
  | .node children => fetchChildren fetch position 0 offset children = .ok writes
  | .leaf nonce data => ∃ plaintext, P.aeadDecrypt key nonce data [] = some plaintext ∧
      offset.toNat + plaintext.length < 2 ^ 63 ∧ writes = [(offset.toNat, plaintext)]

/-- A fragment is fetched when it has its hash, and its leaves are written. -/
theorem fetchFragment_succ (server : FragmentServer P) (key : AeadKey) (depth : Nat)
    (position : List Nat) (hash : P.Hash) (offset : UInt64) (writes : List (Write UInt8)) :
    fetchFragment server key (depth + 1) position hash offset = .ok writes ↔
      ∃ frag, server position hash = .ok (some frag) ∧ P.bcsHash frag = hash ∧
        Writes key (fetchFragment server key depth) position offset writes frag := by
  rw [fetchFragment]
  cases answer : server position hash with
  | error reason => simp
  | ok found =>
      cases found with
      | none => simp
      | some frag =>
          simp only [Except.ok.injEq, Option.some.injEq, exists_eq_left']
          by_cases named : P.bcsHash frag = hash
          · rw [if_neg (not_not.mpr named), and_iff_right named]
            cases frag with
            | node children => rfl
            | leaf nonce data =>
                simp only [Writes]
                cases P.aeadDecrypt key nonce data [] with
                | none => simp
                | some plaintext =>
                    simp only [Option.some.injEq, exists_eq_left']
                    split <;> rename_i fits
                    · rw [and_iff_right fits, Except.ok.injEq]
                      exact eq_comm
                    · exact iff_of_false (fun impossible => by contradiction)
                        fun holds => fits holds.1
          · rw [if_pos named]
            simp [named]

/-- The first child is fetched, and the rest behind it. -/
theorem fetchChildren_cons {fetch : List Nat → P.Hash → UInt64 → LeafWrites} {position : List Nat}
    {index : Nat} {offset size : UInt64} {child : P.Hash} {rest : List (P.Hash × UInt64)}
    {writes : List (Write UInt8)} :
    fetchChildren fetch position index offset ((child, size) :: rest) = .ok writes ↔
      ∃ first more, fetch (position ++ [index]) child offset = .ok first ∧
        fetchChildren fetch position (index + 1) (saturatingAdd offset size) rest = .ok more ∧
          writes = first ++ more := by
  rw [fetchChildren]
  cases fetch (position ++ [index]) child offset with
  | error err => simp
  | ok first =>
      cases fetchChildren fetch position (index + 1) (saturatingAdd offset size) rest with
      | error err => simp
      | ok more => simp [eq_comm]

/-- The tasks of a root are the first child's and those of the rest. -/
theorem fetchAll_cons {server : FragmentServer P} {key : AeadKey} {depth index : Nat}
    {hash : P.Hash} {offset : UInt64} {rest : List (P.Hash × UInt64)}
    {writers : List (List (Write UInt8))} :
    fetchAll server key depth index ((hash, offset) :: rest) = .ok writers ↔
      ∃ first more, fetchFragment server key depth [index] hash offset = .ok first ∧
        fetchAll server key depth (index + 1) rest = .ok more ∧ writers = first :: more := by
  rw [fetchAll]
  cases fetchFragment server key depth [index] hash offset with
  | error err => simp
  | ok first =>
      cases fetchAll server key depth (index + 1) rest with
      | error err => simp
      | ok more => simp [eq_comm]

/-- Children which have been fetched are fetched so by a fetch which goes on further. -/
theorem fetchChildren_mono {first second : List Nat → P.Hash → UInt64 → LeafWrites}
    (settles : ∀ position hash offset, first position hash offset ≠ .error .unfinished →
      second position hash offset = first position hash offset)
    {position : List Nat} {index : Nat} {offset : UInt64} {children : List (P.Hash × UInt64)}
    (settled : fetchChildren first position index offset children ≠ .error .unfinished) :
    fetchChildren second position index offset children =
      fetchChildren first position index offset children := by
  induction children generalizing index offset with
  | nil => rfl
  | cons child rest ih =>
      rw [fetchChildren] at settled
      rw [fetchChildren, fetchChildren]
      have same := settles (position ++ [index]) child.1 offset
      cases head : first (position ++ [index]) child.1 offset with
      | error err =>
          rw [head] at same settled
          rw [same settled]
      | ok writes =>
          rw [head] at same settled
          rw [same (fun impossible => by contradiction)]
          have behind : fetchChildren first position (index + 1) (saturatingAdd offset child.2) rest ≠
              .error .unfinished → fetchChildren second position (index + 1)
                (saturatingAdd offset child.2) rest = fetchChildren first position (index + 1)
                  (saturatingAdd offset child.2) rest := ih
          cases tail : fetchChildren first position (index + 1) (saturatingAdd offset child.2)
              rest with
          | error err =>
              rw [tail] at behind settled
              rw [behind settled]
          | ok more =>
              rw [tail] at behind
              rw [behind (fun impossible => by contradiction)]

/-- A fetch which has come to an end stays as it is when it may go deeper. -/
theorem fetchFragment_mono {server : FragmentServer P} {key : AeadKey} {depth deeper : Nat}
    (more : depth ≤ deeper) {position : List Nat} {hash : P.Hash} {offset : UInt64}
    (settled : fetchFragment server key depth position hash offset ≠ .error .unfinished) :
    fetchFragment server key deeper position hash offset =
      fetchFragment server key depth position hash offset := by
  induction depth generalizing deeper position hash offset with
  | zero => exact absurd rfl settled
  | succ depth ih =>
      obtain ⟨deeper, rfl⟩ := Nat.exists_eq_succ_of_ne_zero (Nat.ne_of_gt (Nat.zero_lt_of_lt more))
      rw [fetchFragment] at settled
      rw [Nat.succ_eq_add_one, fetchFragment, fetchFragment]
      cases answer : server position hash with
      | error reason => rfl
      | ok found =>
          cases found with
          | none => rfl
          | some frag =>
              by_cases named : P.bcsHash frag = hash
              · simp only [answer, named, ne_eq, not_true, if_false] at settled ⊢
                cases frag with
                | node children =>
                    exact fetchChildren_mono (fun _ _ _ => ih (Nat.le_of_succ_le_succ more)) settled
                | leaf nonce data => rfl
              · simp only [ne_eq, named, not_false_iff, if_true]

/-- A deeper recursion fetches the same where the shallower one has come to an end. -/
theorem fetchAll_mono {server : FragmentServer P} {key : AeadKey} {depth deeper : Nat}
    (more : depth ≤ deeper) {index : Nat} {children : List (P.Hash × UInt64)}
    (settled : fetchAll server key depth index children ≠ .error .unfinished) :
    fetchAll server key deeper index children = fetchAll server key depth index children := by
  induction children generalizing index with
  | nil => rfl
  | cons child rest ih =>
      rw [fetchAll] at settled
      rw [fetchAll, fetchAll]
      have same : fetchFragment server key depth [index] child.1 child.2 ≠ .error .unfinished →
          fetchFragment server key deeper [index] child.1 child.2 =
            fetchFragment server key depth [index] child.1 child.2 := fetchFragment_mono more
      cases head : fetchFragment server key depth [index] child.1 child.2 with
      | error err =>
          rw [head] at same settled
          have real : (.error err : LeafWrites) ≠ .error .unfinished := by
            intro unfinished
            cases unfinished
            exact settled rfl
          rw [same real]
      | ok writes =>
          rw [head] at same settled
          rw [same (fun impossible => by contradiction)]
          have behind : fetchAll server key depth (index + 1) rest ≠ .error .unfinished →
              fetchAll server key deeper (index + 1) rest =
                fetchAll server key depth (index + 1) rest := ih
          cases tail : fetchAll server key depth (index + 1) rest with
          | error err =>
              rw [tail] at behind settled
              rw [behind settled]
          | ok more =>
              rw [tail] at behind
              rw [behind (fun impossible => by contradiction)]

/-- Two ends which fetches come to are the same. -/
theorem fetchAll_settled {server : FragmentServer P} {key : AeadKey} {depth other index : Nat}
    {children : List (P.Hash × UInt64)}
    (settled : fetchAll server key depth index children ≠ .error .unfinished)
    (again : fetchAll server key other index children ≠ .error .unfinished) :
    fetchAll server key depth index children = fetchAll server key other index children := by
  rw [← fetchAll_mono (Nat.le_max_left depth other) settled,
    ← fetchAll_mono (Nat.le_max_right depth other) again]

/-- Children are fetched in one way when each of them is. -/
theorem fetchChildren_unique {first second : List Nat → P.Hash → UInt64 → LeafWrites}
    (unique : ∀ here there hash offset writes others, first here hash offset = .ok writes →
      second there hash offset = .ok others → writes = others)
    {here there : List Nat} {left right : Nat} {offset : UInt64}
    {children : List (P.Hash × UInt64)} {writes others : List (Write UInt8)}
    (fetched : fetchChildren first here left offset children = .ok writes)
    (again : fetchChildren second there right offset children = .ok others) : writes = others := by
  induction children generalizing left right offset writes others with
  | nil =>
      cases fetched
      cases again
      rfl
  | cons child rest ih =>
      obtain ⟨_, _, head, tail, rfl⟩ := fetchChildren_cons.mp fetched
      obtain ⟨_, _, otherHead, otherTail, rfl⟩ := fetchChildren_cons.mp again
      rw [unique _ _ _ _ _ _ head otherHead, ih tail otherTail]

/-- A fragment which two servers have under one hash is the same, and so are its leaves. -/
theorem fetchFragment_unique (free : P.CollisionFree) {first second : FragmentServer P}
    {key : AeadKey} {depth other : Nat} {here there : List Nat} {hash : P.Hash} {offset : UInt64}
    {writes others : List (Write UInt8)}
    (fetched : fetchFragment first key depth here hash offset = .ok writes)
    (again : fetchFragment second key other there hash offset = .ok others) : writes = others := by
  induction depth generalizing other here there hash offset writes others with
  | zero => contradiction
  | succ depth ih =>
      cases other with
      | zero => contradiction
      | succ other =>
          obtain ⟨frag, _, named, written⟩ := (fetchFragment_succ _ _ _ _ _ _ _).mp fetched
          obtain ⟨twin, _, same, rewritten⟩ := (fetchFragment_succ _ _ _ _ _ _ _).mp again
          obtain rfl := free.bcsHash_inj.mp (named.trans same.symm)
          cases frag with
          | node children =>
              have unique : ∀ here there hash offset writes others,
                  fetchFragment first key depth here hash offset = .ok writes →
                    fetchFragment second key other there hash offset = .ok others →
                      writes = others :=
                fun _ _ _ _ _ _ fetched again => ih fetched again
              exact fetchChildren_unique unique written rewritten
          | leaf nonce data =>
              obtain ⟨plaintext, opened, _, rfl⟩ := written
              obtain ⟨reopened, opens, _, rfl⟩ := rewritten
              rw [Option.some.inj (opened.symm.trans opens)]

/-- Without collisions the writes of a root's children do not depend on the server. -/
theorem fetchAll_unique (free : P.CollisionFree) {first second : FragmentServer P} {key : AeadKey}
    {depth other left right : Nat} {children : List (P.Hash × UInt64)}
    {writers others : List (List (Write UInt8))}
    (fetched : fetchAll first key depth left children = .ok writers)
    (again : fetchAll second key other right children = .ok others) : writers = others := by
  induction children generalizing left right writers others with
  | nil =>
      cases fetched
      cases again
      rfl
  | cons child rest ih =>
      obtain ⟨_, _, head, tail, rfl⟩ := fetchAll_cons.mp fetched
      obtain ⟨_, _, otherHead, otherTail, rfl⟩ := fetchAll_cons.mp again
      rw [fetchFragment_unique free head otherHead, ih tail otherTail]

/-- The recursion succeeds, with these writes of the root's children. -/
def Recursed (server : FragmentServer P) (root : Attachment P)
    (writers : List (List (Write UInt8))) : Prop :=
  ∃ depth, fetchAll server root.contentKey depth 0 (childOffsets root) = .ok writers

/-- One server's answers lead to one recursion. -/
theorem Recursed.unique {server : FragmentServer P} {root : Attachment P}
    {writers others : List (List (Write UInt8))} (fetched : Recursed server root writers)
    (again : Recursed server root others) : writers = others := by
  obtain ⟨depth, fetched⟩ := fetched
  obtain ⟨other, again⟩ := again
  have settled : fetchAll server root.contentKey depth 0 (childOffsets root) ≠
      .error .unfinished := by
    rw [fetched]
    exact fun impossible => by contradiction
  have resettled : fetchAll server root.contentKey other 0 (childOffsets root) ≠
      .error .unfinished := by
    rw [again]
    exact fun impossible => by contradiction
  exact Except.ok.inj (fetched.symm.trans ((fetchAll_settled settled resettled).trans again))

/-- How a download returns `Ok`. -/
structure Finished (root : Attachment P) (writers : List (List (Write UInt8)))
    (order : List (Write UInt8)) (content : Bytes) : Prop where
  children : root.children ≠ []
  short : sizeSum root.children < 2 ^ 63
  ordered : Buffered transferConcurrency writers [] order
  counted : (order.map fun write => write.2.length).sum % 2 ^ 64 = sizeSum root.children
  content : overlay 0 (List.replicate (sizeSum root.children) 0) order = content

/-- A download is saved when its writes count as many bytes as there should be. -/
theorem finishDownload_eq_saved {total : UInt64} {order : List (Write UInt8)} {content : Bytes} :
    finishDownload total order = .saved content ↔
      (order.map fun write => write.2.length).sum % 2 ^ 64 = total.toNat ∧
        overlay 0 (List.replicate total.toNat 0) order = content := by
  rw [finishDownload]
  have counts : UInt64.ofNat (order.map fun write => write.2.length).sum = total ↔
      (order.map fun write => write.2.length).sum % 2 ^ 64 = total.toNat := by
    rw [← UInt64.toNat_inj, UInt64.toNat_ofNat']
  by_cases counted : UInt64.ofNat (order.map fun write => write.2.length).sum = total
  · rw [if_neg (not_not.mpr counted), DownloadResult.saved.injEq, and_iff_right (counts.mp counted)]
  · rw [if_pos counted]
    exact iff_of_false (fun impossible => by contradiction) fun holds => counted (counts.mpr holds.1)

/-- A download aborts when the sizes overflow, and only then. -/
theorem downloads_aborted {server : FragmentServer P} {root : Attachment P} :
    Downloads server root .aborted ↔ totalSize root.children = none := by
  refine ⟨fun downloads => ?_, .aborted⟩
  generalize ends : DownloadResult.aborted = result at downloads
  cases downloads with
  | aborted overflows => exact overflows
  | empty childless => contradiction
  | tooLong sized children long => contradiction
  | stopped sized children short fetched real => contradiction
  | finished sized children short fetched ordered =>
      rw [finishDownload] at ends
      split at ends <;> contradiction

/-- A download which is saved is that of a root without children, or a finished one. -/
theorem downloads_saved {server : FragmentServer P} {root : Attachment P} {content : Bytes} :
    Downloads server root (.saved content) ↔
      (root.children = [] ∧ content = []) ∨
        ∃ writers order, Recursed server root writers ∧ Finished root writers order content := by
  constructor
  · intro downloads
    generalize ends : DownloadResult.saved content = result at downloads
    cases downloads with
    | aborted overflows => contradiction
    | empty childless =>
        cases ends
        exact .inl ⟨childless, rfl⟩
    | tooLong sized children long => contradiction
    | stopped sized children short fetched real => contradiction
    | finished sized children short fetched ordered =>
        obtain ⟨counted, saved⟩ := finishDownload_eq_saved.mp ends.symm
        have size := totalSize_eq_some.mp sized
        rw [size] at short counted saved
        exact .inr ⟨_, _, ⟨_, fetched⟩, children, short, ordered, counted, saved⟩
  · rintro (⟨childless, rfl⟩ | ⟨writers, order, ⟨depth, fetched⟩, finished⟩)
    · exact .empty childless
    · have fits : sizeSum root.children < 2 ^ 64 := by
        have short := finished.short
        omega
      have size : (UInt64.ofNat (sizeSum root.children)).toNat = sizeSum root.children :=
        UInt64.toNat_ofNat_of_lt' fits
      have ends : finishDownload (UInt64.ofNat (sizeSum root.children)) order = .saved content :=
        finishDownload_eq_saved.mpr
          ⟨size.symm ▸ finished.counted, size.symm ▸ finished.content⟩
      rw [← ends]
      exact .finished (totalSize_eq_some.mpr size) finished.children (size.symm ▸ finished.short)
        fetched finished.ordered

/-- Downloads of one root from any two servers perform the same writes, and can leave the same
contents: a server can make a download fail, and no more. -/
theorem downloads_server_independent (free : P.CollisionFree) (root : Attachment P)
    {first second : FragmentServer P} {writers others : List (List (Write UInt8))}
    (fetched : Recursed first root writers) (again : Recursed second root others) :
    writers = others ∧
      (∀ order reorder, Buffered transferConcurrency writers [] order →
        Buffered transferConcurrency others [] reorder → order.Perm reorder) ∧
      ∀ content, Downloads first root (.saved content) ↔ Downloads second root (.saved content) := by
  obtain ⟨depth, fetched⟩ := fetched
  obtain ⟨other, again⟩ := again
  obtain rfl := fetchAll_unique free fetched again
  refine ⟨rfl, ?_, ?_⟩
  · intro order reorder ordered reordered
    exact ordered.perm.trans reordered.perm.symm
  · intro content
    rw [downloads_saved, downloads_saved]
    refine or_congr Iff.rfl (exists_congr fun written => exists_congr fun order =>
      and_congr_left fun _ => ?_)
    constructor
    · rintro ⟨_, found⟩
      obtain rfl := fetchAll_unique free found fetched
      exact ⟨other, again⟩
    · rintro ⟨_, found⟩
      obtain rfl := fetchAll_unique free found again
      exact ⟨depth, fetched⟩

/-- A leaf under the symbolic content key. -/
def symbolicLeaf (data : Bytes) : Fragment symbolic :=
  .leaf zeroNonce (symbolic.aeadEncrypt (symbolicKey 4) zeroNonce data [])

/-- A server which has these fragments. -/
def serverOf (frags : List (Fragment symbolic)) : FragmentServer symbolic := fun _ hash =>
  .ok (frags.find? fun frag => decide (symbolic.bcsHash frag = hash))

/-- A root with leaves of three bytes and of one, and what is said of their sizes. -/
def twoLeaves (first second : UInt64) : Attachment symbolic :=
  ⟨"leaves", "text/plain", [(symbolic.bcsHash (symbolicLeaf [1, 2, 3]), first),
    (symbolic.bcsHash (symbolicLeaf [4]), second)], symbolicKey 4⟩

/-- Two servers, of which one has more than the other, let the same file be saved. -/
theorem downloads_server_independent_twoLeaves :
    Downloads (serverOf [symbolicLeaf [1, 2, 3], symbolicLeaf [4]]) (twoLeaves 3 1)
        (.saved [1, 2, 3, 4]) ↔
      Downloads (serverOf [symbolicLeaf [5], symbolicLeaf [4], symbolicLeaf [1, 2, 3]])
        (twoLeaves 3 1) (.saved [1, 2, 3, 4]) :=
  (downloads_server_independent symbolic_collisionFree (twoLeaves 3 1) ⟨1, rfl⟩ ⟨1, rfl⟩).2.2
    [1, 2, 3, 4]

end Nullspace
