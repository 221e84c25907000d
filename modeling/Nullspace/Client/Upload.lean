import Nullspace.Base.Chunks
import Nullspace.Client.DownloadContent
import Nullspace.Server.Fragments
import Nullspace.Structs.Sealing

/-!
# Uploads of attachments

A file is cut into chunks, each of them sealed in a leaf. While a level of the tree has more
than `maxFanout` fragments, the next one has a node for every `maxFanout` of them; the last
level are the root's children.

A download goes down the tree again. `Holds` says what a store has below a pair of a hash and
a size, and each level holds the same file as the one below it.
-/

namespace Nullspace

open Nullspace.Base

variable {P : Primitives}

/-- `CHUNK_SIZE_BYTES`. -/
def chunkSizeBytes : Nat := 128 * 1024

/-- `MAX_FANOUT`. -/
def maxFanout : Nat := 512

inductive UploadError where
  /-- The level-building loop runs longer than the given bound; no error of the program. -/
  | unfinished
  /-- A sum of sizes overflows, and the process aborts. -/
  | aborted
  | server (reason : String)
deriving DecidableEq

/-- A file which does not change, and the randomness of its upload. The length of a file is a
positive `i64`. -/
structure UploadJob where
  filename : String
  mime : String
  content : Bytes
  contentKey : AeadKey
  nonce : Nat → FixedBytes 24
  short : content.length < 2 ^ 63

/-- The answers to `v1_upload_frag`. -/
abbrev UploadAnswers (P : Primitives) := Fragment P → Except String Unit

def uploadFragment (answers : UploadAnswers P) (frag : Fragment P) : Except UploadError Unit :=
  match answers frag with
  | .error reason => .error (.server reason)
  | .ok () => .ok ()

/-- The node over a group of the current level, with its hash and its size. -/
def groupNode (group : List (P.Hash × UInt64)) : Except UploadError (P.Hash × UInt64) :=
  match totalSize group with
  | none => .error .aborted
  | some size => .ok (P.bcsHash (Fragment.node group), size)

def nextLevel (level : List (P.Hash × UInt64)) : Except UploadError (List (P.Hash × UInt64)) :=
  (chunks maxFanout level).mapM groupNode

/-- The level-building loop, with the nodes which it has made. -/
def buildLevels : Nat → List (P.Hash × UInt64) → List (List (P.Hash × UInt64)) →
    Except UploadError (List (P.Hash × UInt64) × List (List (P.Hash × UInt64)))
  | bound, level, nodes =>
      if level.length ≤ maxFanout then .ok (level, nodes)
      else
        match bound with
        | 0 => .error .unfinished
        | bound + 1 =>
            match nextLevel level with
            | .error err => .error err
            | .ok next => buildLevels bound next (nodes ++ chunks maxFanout level)

namespace UploadJob

def chunkCount (job : UploadJob) : Nat := Base.chunkCount chunkSizeBytes job.content.length

def chunk (job : UploadJob) (index : Nat) : Bytes := chunkAt chunkSizeBytes job.content index

def leaf (job : UploadJob) (index : Nat) : Fragment P :=
  .leaf (job.nonce index) (P.aeadEncrypt job.contentKey (job.nonce index) (job.chunk index) [])

/-- What the task of a chunk returns. -/
def result (job : UploadJob) (index : Nat) : Nat × P.Hash × UInt64 :=
  (index, P.bcsHash (job.leaf index : Fragment P), UInt64.ofNat (job.chunk index).length)

def uploadChunk (job : UploadJob) (answers : UploadAnswers P) (index : Nat) :
    Except UploadError (Nat × P.Hash × UInt64) :=
  match uploadFragment answers (job.leaf index) with
  | .error err => .error err
  | .ok () => .ok (job.result index)

/-- `upload_inner` from the first chunk on, with the order in which the tasks of the chunks
complete: the root of `UploadDone`, and the nodes. -/
def uploadInner (job : UploadJob) (answers : UploadAnswers P) (order : List Nat) :
    Except UploadError (Attachment P × List (List (P.Hash × UInt64))) :=
  match order.mapM (job.uploadChunk answers) with
  | .error err => .error err
  | .ok completed =>
      match buildLevels completed.length
          ((completed.mergeSort fun first second => first.1 ≤ second.1).map Prod.snd) [] with
      | .error err => .error err
      | .ok (children, nodes) =>
          match nodes.mapM fun group => uploadFragment answers (.node group) with
          | .error err => .error err
          | .ok _ => .ok (⟨job.filename, job.mime, children, job.contentKey⟩, nodes)

/-- The fragments of an upload. -/
def fragments (job : UploadJob) (nodes : List (List (P.Hash × UInt64))) : List (Fragment P) :=
  (List.range job.chunkCount).map job.leaf ++ nodes.map .node

end UploadJob

/-! ## What an upload stores -/

/-- A node has the hash and the size of its group. -/
theorem groupNode_eq_ok {group : List (P.Hash × UInt64)} {child : P.Hash × UInt64} :
    groupNode group = .ok child ↔
      child.1 = P.bcsHash (Fragment.node group) ∧ child.2.toNat = sizeSum group := by
  obtain ⟨hash, size⟩ := child
  rw [groupNode, ← totalSize_eq_some]
  cases totalSize group with
  | none => simp
  | some total =>
      simp only [Except.ok.injEq, Prod.mk.injEq, Option.some.injEq]
      exact and_congr_left fun _ => eq_comm

/-- The declared size is the number of bytes. -/
def Sized (child : P.Hash × UInt64) (data : Bytes) : Prop := child.2.toNat = data.length

/-- Declared sizes which are right add up to the bytes. -/
theorem sizeSum_of_sized {children : List (P.Hash × UInt64)} {datas : List Bytes}
    (sized : List.Forall₂ Sized children datas) : sizeSum children = datas.flatten.length := by
  induction sized with
  | nil => rfl
  | cons head tail ih =>
      rw [sizeSum_cons, ih, List.flatten_cons, List.length_append, head]

/-- A level of nodes has the size of the level below. -/
theorem sizeSum_groupNodes {groups : List (List (P.Hash × UInt64))} {next : List (P.Hash × UInt64)}
    (nodes : List.Forall₂ (fun group child => groupNode group = .ok child) groups next) :
    sizeSum next = sizeSum groups.flatten := by
  induction nodes with
  | nil => rfl
  | cons node _ ih => rw [sizeSum_cons, List.flatten_cons, sizeSum_append, ih, (groupNode_eq_ok.mp node).2]

/-- A level whose sizes can be added up has a next one, with the same sum. -/
theorem exists_nextLevel {level : List (P.Hash × UInt64)} (fits : sizeSum level < 2 ^ 64) :
    ∃ next, nextLevel level = .ok next ∧ sizeSum next = sizeSum level ∧
      next.length = chunkCount maxFanout level.length := by
  have whole : (chunks maxFanout level).flatten = level := flatten_chunks (by decide) level
  have steps : ∀ group ∈ chunks maxFanout level, ∃ child, groupNode group = .ok child := by
    intro group listed
    obtain ⟨before, after, split⟩ := List.append_of_mem listed
    have size : sizeSum level = sizeSum before.flatten + (sizeSum group + sizeSum after.flatten) := by
      rw [← sizeSum_append, ← sizeSum_append, ← List.flatten_cons, ← List.flatten_append, ← split,
        whole]
    have small : sizeSum group < 2 ^ 64 := by omega
    exact ⟨(_, UInt64.ofNat (sizeSum group)),
      groupNode_eq_ok.mpr ⟨rfl, UInt64.toNat_ofNat_of_lt' small⟩⟩
  obtain ⟨next, built⟩ := exists_mapM_eq_ok steps
  have nodes := mapM_eq_ok.mp built
  refine ⟨next, built, ?_, ?_⟩
  · rw [sizeSum_groupNodes nodes, whole]
  · rw [← nodes.length_eq, length_chunks]

/-- The loop comes to an end. -/
theorem exists_buildLevels {bound : Nat} {level : List (P.Hash × UInt64)}
    (nodes : List (List (P.Hash × UInt64))) (fits : sizeSum level < 2 ^ 64)
    (enough : level.length ≤ bound) : ∃ top, buildLevels bound level nodes = .ok top := by
  induction bound generalizing level nodes with
  | zero =>
      rw [buildLevels, if_pos (Nat.le_trans enough (Nat.zero_le _))]
      exact ⟨_, rfl⟩
  | succ bound ih =>
      rw [buildLevels]
      split
      · exact ⟨_, rfl⟩
      · rename_i wide
        obtain ⟨next, built, same, length⟩ := exists_nextLevel fits
        have narrower : next.length < level.length :=
          length ▸ chunkCount_lt (by decide) (Nat.lt_of_not_le wide)
        rw [built]
        exact ih _ (same ▸ fits) (by omega)

/-- What the nodes over some groups have below them. -/
theorem forall₂_groupNode {related : P.Hash × UInt64 → Bytes → Prop}
    {groups : List (List (P.Hash × UInt64))} {next : List (P.Hash × UInt64)}
    {datas : List (List Bytes)}
    (nodes : List.Forall₂ (fun group child => groupNode group = .ok child) groups next)
    (all : List.Forall₂ (List.Forall₂ related) groups datas)
    (closed : ∀ group ∈ groups, ∀ below child, List.Forall₂ related group below →
      groupNode group = .ok child → related child below.flatten) :
    List.Forall₂ related next (datas.map List.flatten) := by
  induction nodes generalizing datas with
  | nil =>
      cases all
      exact .nil
  | cons node nodes ih =>
      cases all with
      | cons head tail =>
          refine .cons (closed _ (by simp) _ _ head node) (ih tail ?_)
          intro group listed
          exact closed group (List.mem_cons_of_mem _ listed)

/-- A relation which nodes keep holds of each next level. -/
theorem nextLevel_spec {related : P.Hash × UInt64 → Bytes → Prop}
    {level next : List (P.Hash × UInt64)} {datas : List Bytes}
    (built : nextLevel level = .ok next) (all : List.Forall₂ related level datas)
    (closed : ∀ group ∈ chunks maxFanout level, ∀ below child, List.Forall₂ related group below →
      groupNode group = .ok child → related child below.flatten) :
    List.Forall₂ related next ((chunks maxFanout datas).map List.flatten) :=
  forall₂_groupNode (mapM_eq_ok.mp built) (forall₂_chunks maxFanout all) closed

/-- The next level has the bytes of the level below. -/
theorem flatten_nextLevel (datas : List Bytes) :
    ((chunks maxFanout datas).map List.flatten).flatten = datas.flatten := by
  rw [← List.flatten_flatten, flatten_chunks (by decide)]

/-- The loop ends here, or it goes on with the next level. -/
theorem buildLevels_cases {bound : Nat} {level top : List (P.Hash × UInt64)}
    {nodes rest : List (List (P.Hash × UInt64))}
    (built : buildLevels bound level nodes = .ok (top, rest)) :
    (level.length ≤ maxFanout ∧ top = level ∧ rest = nodes) ∨
      ∃ shorter next, bound = shorter + 1 ∧ nextLevel level = .ok next ∧
        buildLevels shorter next (nodes ++ chunks maxFanout level) = .ok (top, rest) := by
  cases bound with
  | zero =>
      rw [buildLevels] at built
      split at built
      · rename_i narrow
        cases built
        exact .inl ⟨narrow, rfl, rfl⟩
      · contradiction
  | succ shorter =>
      rw [buildLevels] at built
      split at built
      · rename_i narrow
        cases built
        exact .inl ⟨narrow, rfl, rfl⟩
      · cases made : nextLevel level with
        | error err =>
            rw [made] at built
            contradiction
        | ok next =>
            rw [made] at built
            exact .inr ⟨shorter, next, rfl, rfl, built⟩

/-- The loop keeps the nodes which it has. -/
theorem subset_buildLevels {bound : Nat} {level top : List (P.Hash × UInt64)}
    {nodes rest : List (List (P.Hash × UInt64))}
    (built : buildLevels bound level nodes = .ok (top, rest)) : nodes ⊆ rest := by
  induction bound generalizing level nodes with
  | zero =>
      rcases buildLevels_cases built with ⟨_, _, rfl⟩ | ⟨_, _, impossible, _⟩
      · exact List.Subset.refl _
      · contradiction
  | succ bound ih =>
      rcases buildLevels_cases built with ⟨_, _, rfl⟩ | ⟨_, next, same, _, goesOn⟩
      · exact List.Subset.refl _
      · cases same
        exact List.Subset.trans (List.subset_append_left _ _) (ih goesOn)

/-- What the loop leaves: few children, with the same bytes below them in the same order. -/
theorem buildLevels_spec {related : P.Hash × UInt64 → Bytes → Prop} {bound : Nat}
    {level top : List (P.Hash × UInt64)} {nodes rest : List (List (P.Hash × UInt64))}
    {datas : List Bytes} (built : buildLevels bound level nodes = .ok (top, rest))
    (all : List.Forall₂ related level datas)
    (closed : ∀ group ∈ rest, ∀ below child, List.Forall₂ related group below →
      groupNode group = .ok child → related child below.flatten) :
    top.length ≤ maxFanout ∧
      (∃ below, List.Forall₂ related top below ∧ below.flatten = datas.flatten) ∧
      ∀ group ∈ rest, group ∈ nodes ∨ ∃ below, List.Forall₂ related group below ∧
        below.flatten.length ≤ datas.flatten.length := by
  induction bound generalizing level nodes datas with
  | zero =>
      rcases buildLevels_cases built with ⟨narrow, rfl, rfl⟩ | ⟨_, _, impossible, _⟩
      · exact ⟨narrow, ⟨datas, all, rfl⟩, fun _ listed => .inl listed⟩
      · contradiction
  | succ bound ih =>
      rcases buildLevels_cases built with ⟨narrow, rfl, rfl⟩ | ⟨_, next, same, made, goesOn⟩
      · exact ⟨narrow, ⟨datas, all, rfl⟩, fun _ listed => .inl listed⟩
      · cases same
        have kept := subset_buildLevels goesOn
        have below := nextLevel_spec made all fun group listed =>
          closed group (kept (List.mem_append_right _ listed))
        obtain ⟨narrow, ⟨tops, related, same⟩, listed⟩ := ih goesOn below
        refine ⟨narrow, ⟨tops, related, same.trans (flatten_nextLevel datas)⟩, ?_⟩
        intro group found
        rcases listed group found with earlier | holds
        · rcases List.mem_append.mp earlier with before | here
          · exact .inl before
          · obtain ⟨index, _, rfl⟩ := List.mem_map.mp here
            exact .inr ⟨_, forall₂_chunkAt maxFanout all index, length_flatten_chunkAt _ _ _⟩
        · rw [flatten_nextLevel] at holds
          exact .inr holds

/-- A fetch writes these pieces one after the other, wherever it begins. -/
structure Places (server : FragmentServer P) (key : AeadKey) (depth : Nat)
    (child : P.Hash × UInt64) (pieces : List Bytes) : Prop where
  sized : Sized child pieces.flatten
  fetched : ∀ position (offset : UInt64), offset.toNat + pieces.flatten.length < 2 ^ 63 →
    fetchFragment server key depth position child.1 offset = .ok (placed offset.toNat pieces)

theorem Places.mono {server : FragmentServer P} {key : AeadKey} {depth deeper : Nat}
    {child : P.Hash × UInt64} {pieces : List Bytes} (places : Places server key depth child pieces)
    (more : depth ≤ deeper) : Places server key deeper child pieces where
  sized := places.sized
  fetched position offset fits := by
    have fetched := places.fetched position offset fits
    rw [← fetched]
    apply fetchFragment_mono more
    rw [fetched]
    exact fun impossible => by contradiction

/-- The store has this data below the hash, and the size is right. -/
def Holds (server : FragmentServer P) (key : AeadKey) (child : P.Hash × UInt64) (data : Bytes) :
    Prop :=
  ∃ depth pieces, pieces.flatten = data ∧ Places server key depth child pieces

/-- What a store holds has its declared size. -/
theorem Holds.sized {server : FragmentServer P} {key : AeadKey} {child : P.Hash × UInt64}
    {data : Bytes} (holds : Holds server key child data) : Sized child data := by
  obtain ⟨_, _, rfl, places⟩ := holds
  exact places.sized

/-- A stored leaf which can be opened holds its plaintext. -/
theorem holds_leaf {server : FragmentServer P} {key : AeadKey} {nonce : FixedBytes 24}
    {data plaintext : Bytes} {size : UInt64}
    (found : ∀ position, server position (P.bcsHash (Fragment.leaf nonce data : Fragment P)) =
      .ok (some (.leaf nonce data)))
    (opens : P.aeadDecrypt key nonce data [] = some plaintext)
    (sized : size.toNat = plaintext.length) :
    Holds server key (P.bcsHash (Fragment.leaf nonce data : Fragment P), size) plaintext := by
  refine ⟨1, [plaintext], by simp, ?_, ?_⟩
  · simpa [Sized] using sized
  · intro position offset fits
    rw [fetchFragment_succ]
    refine ⟨_, found position, rfl, plaintext, opens, ?_, rfl⟩
    simpa using fits

/-- Some depth is enough for all children. -/
theorem exists_places {server : FragmentServer P} {key : AeadKey}
    {children : List (P.Hash × UInt64)} {datas : List Bytes}
    (all : List.Forall₂ (Holds server key) children datas) :
    ∃ depth groups, groups.map List.flatten = datas ∧
      List.Forall₂ (Places server key depth) children groups := by
  induction all with
  | nil => exact ⟨0, [], rfl, .nil⟩
  | cons head _ ih =>
      obtain ⟨depth, pieces, rfl, places⟩ := head
      obtain ⟨other, groups, rfl, rest⟩ := ih
      refine ⟨max depth other, pieces :: groups, rfl, .cons (places.mono (Nat.le_max_left _ _)) ?_⟩
      exact rest.imp fun _ _ places => places.mono (Nat.le_max_right _ _)

/-- The next child is written behind this one. -/
theorem offset_next {child : P.Hash × UInt64} {data : Bytes} {offset : UInt64}
    (sized : Sized child data) (fits : offset.toNat + data.length < 2 ^ 63) :
    (saturatingAdd offset child.2).toNat = offset.toNat + data.length := by
  rw [saturatingAdd_of_lt (by rw [sized]; omega), sized]

/-- Children are written one behind the other. -/
theorem fetchChildren_places {server : FragmentServer P} {key : AeadKey} {depth index : Nat}
    {position : List Nat} {offset : UInt64} {children : List (P.Hash × UInt64)}
    {groups : List (List Bytes)} (all : List.Forall₂ (Places server key depth) children groups)
    (fits : offset.toNat + groups.flatten.flatten.length < 2 ^ 63) :
    fetchChildren (fetchFragment server key depth) position index offset children =
      .ok (placed offset.toNat groups.flatten) := by
  induction all generalizing index offset with
  | nil => rfl
  | @cons child pieces children groups head _ ih =>
      rw [List.flatten_cons, List.flatten_append, List.length_append] at fits
      have here : offset.toNat + pieces.flatten.length < 2 ^ 63 := by omega
      have next := offset_next head.sized here
      refine fetchChildren_cons.mpr ⟨_, _, head.fetched _ offset here, ih ?_, ?_⟩
      · rw [next]
        omega
      · rw [List.flatten_cons, placed_append, next]

/-- The tasks of a root write one behind the other. -/
theorem fetchAll_places {server : FragmentServer P} {key : AeadKey} {depth index : Nat}
    {offset : UInt64} {children : List (P.Hash × UInt64)} {groups : List (List Bytes)}
    (all : List.Forall₂ (Places server key depth) children groups)
    (fits : offset.toNat + groups.flatten.flatten.length < 2 ^ 63) :
    fetchAll server key depth index (offsetsFrom offset children) =
      .ok (placedAll offset.toNat groups) := by
  induction all generalizing index offset with
  | nil => rfl
  | @cons child pieces children groups head _ ih =>
      rw [List.flatten_cons, List.flatten_append, List.length_append] at fits
      have here : offset.toNat + pieces.flatten.length < 2 ^ 63 := by omega
      have next := offset_next head.sized here
      refine fetchAll_cons.mpr ⟨_, _, head.fetched _ offset here, ih ?_, ?_⟩
      · rw [next]
        omega
      · rw [placedAll, next]

/-- A stored node holds what its children do. -/
theorem holds_node {server : FragmentServer P} {key : AeadKey} {group : List (P.Hash × UInt64)}
    {child : P.Hash × UInt64} {below : List Bytes}
    (found : ∀ position, server position (P.bcsHash (Fragment.node group)) =
      .ok (some (.node group)))
    (all : List.Forall₂ (Holds server key) group below) (node : groupNode group = .ok child) :
    Holds server key child below.flatten := by
  obtain ⟨named, size⟩ := groupNode_eq_ok.mp node
  obtain ⟨depth, groups, rfl, places⟩ := exists_places all
  have same : groups.flatten.flatten = (groups.map List.flatten).flatten := List.flatten_flatten
  refine ⟨depth + 1, groups.flatten, same, ?_, ?_⟩
  · rw [Sized, size, sizeSum_of_sized (all.imp fun _ _ holds => holds.sized), same]
  · intro position offset fits
    rw [fetchFragment_succ, named]
    exact ⟨_, found position, rfl, fetchChildren_places places fits⟩

/-- The store serves what it took, whatever the request. -/
def Keeps (answers : UploadAnswers P) (server : FragmentServer P) (frags : List (Fragment P)) :
    Prop :=
  ∀ frag ∈ frags, answers frag = .ok () →
    ∀ position, server position (P.bcsHash frag) = .ok (some frag)

/-- A fetch of the hash yields this many bytes. -/
def BytesBelow (server : FragmentServer P) (key : AeadKey) (hash : P.Hash) (count : Nat) : Prop :=
  ∃ depth, ∀ position, ∃ writes, fetchFragment server key depth position hash 0 = .ok writes ∧
    (writes.map fun write => write.2.length).sum = count

/-- What a store holds is fetched in full. -/
theorem Holds.bytesBelow {server : FragmentServer P} {key : AeadKey} {child : P.Hash × UInt64}
    {data : Bytes} (holds : Holds server key child data) (fits : data.length < 2 ^ 63) :
    BytesBelow server key child.1 child.2.toNat := by
  have sized := holds.sized
  obtain ⟨depth, pieces, rfl, places⟩ := holds
  refine ⟨depth, fun position => ⟨_, places.fetched position 0 ?_, ?_⟩⟩
  · simpa using fits
  · have lengths : (placed (0 : UInt64).toNat pieces).map (fun write => write.2.length) =
        pieces.map List.length := by
      rw [← placed_map_snd (0 : UInt64).toNat pieces, List.map_map, placed_map_snd]
      rfl
    rw [lengths, sized, List.length_flatten]

/-- A fragment is uploaded when the server takes it. -/
theorem uploadFragment_eq_ok {answers : UploadAnswers P} {frag : Fragment P} :
    uploadFragment answers frag = .ok () ↔ answers frag = .ok () := by
  rw [uploadFragment]
  cases answers frag <;> simp

/-- An upload fails with what the server said. -/
theorem uploadFragment_eq_error {answers : UploadAnswers P} {frag : Fragment P} {err : UploadError}
    (failed : uploadFragment answers frag = .error err) : ∃ reason, err = .server reason := by
  rw [uploadFragment] at failed
  cases refused : answers frag with
  | error reason =>
      rw [refused] at failed
      cases failed
      exact ⟨reason, rfl⟩
  | ok done =>
      rw [refused] at failed
      contradiction

namespace UploadJob

/-- A chunk is uploaded when the server takes its leaf. -/
theorem uploadChunk_eq_ok {job : UploadJob} {answers : UploadAnswers P} {index : Nat}
    {entry : Nat × P.Hash × UInt64} :
    job.uploadChunk answers index = .ok entry ↔
      answers (job.leaf index) = .ok () ∧ entry = job.result index := by
  rw [uploadChunk, ← uploadFragment_eq_ok]
  cases uploadFragment answers (job.leaf index : Fragment P) <;> simp [eq_comm]

/-- A chunk fails with what the server said. -/
theorem uploadChunk_eq_error {job : UploadJob} {answers : UploadAnswers P} {index : Nat}
    {err : UploadError} (failed : job.uploadChunk answers index = .error err) :
    ∃ reason, err = .server reason := by
  rw [uploadChunk] at failed
  cases sent : uploadFragment answers (job.leaf index : Fragment P) with
  | error reason =>
      rw [sent] at failed
      cases failed
      exact uploadFragment_eq_error sent
  | ok done =>
      rw [sent] at failed
      contradiction

/-- The tasks return results which depend on their chunks alone. -/
theorem mapM_uploadChunk {job : UploadJob} {answers : UploadAnswers P} {order : List Nat}
    {completed : List (Nat × P.Hash × UInt64)}
    (collected : order.mapM (job.uploadChunk answers) = .ok completed) :
    completed = order.map job.result ∧ ∀ index ∈ order, answers (job.leaf index) = .ok () := by
  have all := mapM_eq_ok.mp collected
  clear collected
  induction all with
  | nil => exact ⟨rfl, fun _ listed => by contradiction⟩
  | cons head _ ih =>
      obtain ⟨taken, rfl⟩ := uploadChunk_eq_ok.mp head
      obtain ⟨rfl, others⟩ := ih
      exact ⟨rfl, List.forall_mem_cons.mpr ⟨taken, others⟩⟩

/-- The pairs of the chunks. -/
def firstLevel (job : UploadJob) : List (P.Hash × UInt64) :=
  (List.range job.chunkCount).map fun index => (job.result index).2

/-- In whatever order the tasks complete, sorting puts the chunks in their order. -/
theorem sorted_results {job : UploadJob} {order : List Nat}
    (completes : order.Perm (List.range job.chunkCount)) :
    (((order.map (job.result (P := P))).mergeSort fun first second => first.1 ≤ second.1).map
      Prod.snd) = job.firstLevel := by
  have ascends : (order.mergeSort fun first second => decide (first ≤ second)).Pairwise
      fun first second => decide (first ≤ second) = true :=
    List.pairwise_mergeSort (fun _ _ _ => by simpa using Nat.le_trans)
      (fun first second => by simpa using Nat.le_total first second) order
  have sorted : order.mergeSort (fun first second => decide (first ≤ second)) =
      List.range job.chunkCount := by
    refine List.Perm.eq_of_pairwise ?_ (by simpa using ascends) List.pairwise_le_range
      ((List.mergeSort_perm _ _).trans completes)
    exact fun _ _ _ _ above below => Nat.le_antisymm above below
  rw [← List.map_mergeSort (r := fun first second => decide (first ≤ second)) fun _ _ _ _ => rfl,
    sorted, List.map_map]
  rfl

/-- The chunks are the content, in order. -/
theorem flatten_chunk (job : UploadJob) :
    ((List.range job.chunkCount).map job.chunk).flatten = job.content :=
  flatten_chunks (by decide) job.content

theorem toNat_chunk_length (job : UploadJob) (index : Nat) :
    (UInt64.ofNat (job.chunk index).length).toNat = (job.chunk index).length := by
  have short : (job.chunk index).length ≤ chunkSizeBytes := by
    rw [chunk, chunkAt, List.length_take]
    exact Nat.min_le_left _ _
  exact UInt64.toNat_ofNat_of_lt' (Nat.lt_of_le_of_lt short (by decide))

/-- The declared sizes of the chunks are right. -/
theorem firstLevel_sized (job : UploadJob) :
    List.Forall₂ Sized (job.firstLevel : List (P.Hash × UInt64))
      ((List.range job.chunkCount).map job.chunk) := by
  rw [firstLevel, List.forall₂_map_left_iff, List.forall₂_map_right_iff, List.forall₂_same]
  exact fun index _ => job.toNat_chunk_length index

/-- The sizes of the chunks add up to the length of the file. -/
theorem sizeSum_firstLevel (job : UploadJob) :
    sizeSum (job.firstLevel : List (P.Hash × UInt64)) = job.content.length := by
  rw [sizeSum_of_sized job.firstLevel_sized, flatten_chunk]

variable {job : UploadJob} {answers : UploadAnswers P} {order : List Nat}

/-- An upload fails when the store refuses a fragment, and for no other reason. -/
theorem uploadInner_eq_error {err : UploadError}
    (completes : order.Perm (List.range job.chunkCount))
    (failed : job.uploadInner answers order = .error err) : ∃ reason, err = .server reason := by
  rw [uploadInner] at failed
  cases collected : order.mapM (job.uploadChunk answers) with
  | error reason =>
      rw [collected] at failed
      cases failed
      obtain ⟨index, _, refused⟩ := exists_of_mapM_eq_error collected
      exact uploadChunk_eq_error refused
  | ok completed =>
      obtain ⟨rfl, _⟩ := mapM_uploadChunk collected
      have short := job.short
      have fits : sizeSum (job.firstLevel : List (P.Hash × UInt64)) < 2 ^ 64 := by
        rw [sizeSum_firstLevel]
        omega
      have enough : (job.firstLevel : List (P.Hash × UInt64)).length ≤
          (order.map (job.result (P := P))).length := by
        rw [List.length_map, completes.length_eq, firstLevel, List.length_map]
      obtain ⟨⟨children, nodes⟩, built⟩ := exists_buildLevels [] fits enough
      simp only [collected, sorted_results completes, built] at failed
      cases sent : nodes.mapM fun group => uploadFragment answers (.node group) with
      | error reason =>
          rw [sent] at failed
          cases failed
          obtain ⟨group, _, refused⟩ := exists_of_mapM_eq_error sent
          exact uploadFragment_eq_error refused
      | ok done =>
          rw [sent] at failed
          contradiction

/-- What an upload which produces a root has done. -/
theorem uploadInner_eq_ok {root : Attachment P} {nodes : List (List (P.Hash × UInt64))}
    (completes : order.Perm (List.range job.chunkCount))
    (uploads : job.uploadInner answers order = .ok (root, nodes)) :
    root.contentKey = job.contentKey ∧
      (∃ bound, buildLevels bound job.firstLevel [] = .ok (root.children, nodes)) ∧
      ∀ frag ∈ job.fragments nodes, answers frag = .ok () := by
  rw [uploadInner] at uploads
  cases collected : order.mapM (job.uploadChunk answers) with
  | error reason =>
      rw [collected] at uploads
      contradiction
  | ok completed =>
      obtain ⟨rfl, taken⟩ := mapM_uploadChunk collected
      simp only [collected, sorted_results completes] at uploads
      cases built : buildLevels (order.map (job.result (P := P))).length job.firstLevel [] with
      | error reason =>
          rw [built] at uploads
          contradiction
      | ok made =>
          obtain ⟨children, groups⟩ := made
          simp only [built] at uploads
          cases sent : groups.mapM fun group => uploadFragment answers (.node group) with
          | error reason =>
              rw [sent] at uploads
              contradiction
          | ok done =>
              rw [sent] at uploads
              cases uploads
              refine ⟨rfl, ⟨_, built⟩, fun frag listed => ?_⟩
              rcases List.mem_append.mp listed with isLeaf | isNode
              · obtain ⟨index, inside, rfl⟩ := List.mem_map.mp isLeaf
                exact taken index (completes.mem_iff.mpr inside)
              · obtain ⟨group, inside, rfl⟩ := List.mem_map.mp isNode
                obtain ⟨_, _, accepted⟩ := exists_of_mem_forall₂ (mapM_eq_ok.mp sent) inside
                exact uploadFragment_eq_ok.mp accepted

/-- What the store has below the root's children and the nodes. -/
theorem holds_of_uploadInner
    (opens : ∀ key nonce plaintext, P.aeadDecrypt key nonce (P.aeadEncrypt key nonce plaintext []) []
      = some plaintext) {root : Attachment P} {nodes : List (List (P.Hash × UInt64))}
    (completes : order.Perm (List.range job.chunkCount))
    (uploads : job.uploadInner answers order = .ok (root, nodes)) {server : FragmentServer P}
    (keeps : Keeps answers server (job.fragments nodes)) :
    root.children.length ≤ maxFanout ∧
      (∃ below, List.Forall₂ (Holds server job.contentKey) root.children below ∧
        below.flatten = job.content) ∧
      ∀ group ∈ nodes, ∃ below, List.Forall₂ (Holds server job.contentKey) group below ∧
        below.flatten.length ≤ job.content.length := by
  obtain ⟨_, ⟨bound, built⟩, taken⟩ := uploadInner_eq_ok completes uploads
  have served : ∀ frag ∈ job.fragments nodes, ∀ position,
      server position (P.bcsHash frag) = .ok (some frag) :=
    fun frag listed => keeps frag listed (taken frag listed)
  have leaves : List.Forall₂ (Holds server job.contentKey) job.firstLevel
      ((List.range job.chunkCount).map job.chunk) := by
    rw [firstLevel, List.forall₂_map_left_iff, List.forall₂_map_right_iff, List.forall₂_same]
    intro index inside
    refine holds_leaf (served _ ?_) (opens _ _ _) (job.toNat_chunk_length index)
    exact List.mem_append_left _ (List.mem_map_of_mem inside)
  obtain ⟨narrow, ⟨below, top, same⟩, listed⟩ := buildLevels_spec built leaves
    fun group inside below child all node =>
      holds_node (served _ (List.mem_append_right _ (List.mem_map_of_mem inside))) all node
  rw [job.flatten_chunk] at same listed
  refine ⟨narrow, ⟨below, top, same⟩, fun group inside => ?_⟩
  exact (listed group inside).resolve_left (List.not_mem_nil)

end UploadJob

/-- No child has more bytes than all of them. -/
theorem length_le_of_mem_forall₂ {related : P.Hash × UInt64 → Bytes → Prop}
    {children : List (P.Hash × UInt64)} {datas : List Bytes}
    (all : List.Forall₂ related children datas) {child : P.Hash × UInt64}
    (listed : child ∈ children) :
    ∃ data, related child data ∧ data.length ≤ datas.flatten.length := by
  obtain ⟨data, inside, holds⟩ := exists_of_mem_forall₂ all listed
  exact ⟨data, holds, (List.sublist_flatten_of_mem inside).length_le⟩

/-- A root over what a store has is downloaded in every order to the same file. -/
theorem downloads_of_holds {server : FragmentServer P} {root : Attachment P} {below : List Bytes}
    (all : List.Forall₂ (Holds server root.contentKey) root.children below)
    (short : below.flatten.length < 2 ^ 63) :
    (∃ result, Downloads server root result) ∧
      ∀ result, Downloads server root result → result = .saved below.flatten := by
  have size : sizeSum root.children = below.flatten.length :=
    sizeSum_of_sized (all.imp fun _ _ holds => holds.sized)
  obtain ⟨depth, groups, rfl, places⟩ := exists_places all
  rw [← List.flatten_flatten] at size short ⊢
  have fetched : fetchAll server root.contentKey depth 0 (childOffsets root) =
      .ok (placedAll 0 groups) := by
    refine fetchAll_places places ?_
    simpa using short
  have described : inOrder (placedAll 0 groups) = groups.flatten.flatten := by
    rw [inOrder, flatten_placedAll, List.flatMap_def]
    exact congrArg List.flatten (placed_map_snd 0 groups.flatten)
  have inPlace : InPlace root (placedAll 0 groups) := by
    constructor
    · rw [described, size]
    · rw [described, size]
      exact agrees_placedAll 0 groups
  have ends : ∀ {total order}, totalSize root.children = some total → root.children ≠ [] →
      Buffered transferConcurrency (placedAll 0 groups) [] order →
        finishDownload total order = .saved groups.flatten.flatten := by
    intro total order sized children ordered
    have total_eq := totalSize_eq_some.mp sized
    refine finishDownload_eq_saved.mpr ⟨?_, ?_⟩
    · rw [length_inOrder ordered, described, total_eq, size]
      exact Nat.mod_eq_of_lt (by omega)
    · rw [total_eq, ← described]
      exact inPlace.agrees.overlay_eq ordered
  constructor
  · by_cases childless : root.children = []
    · exact ⟨_, .empty childless⟩
    · have total : totalSize root.children = some (UInt64.ofNat (sizeSum root.children)) := by
        rw [totalSize_eq, if_pos (by omega)]
      have toNat := totalSize_eq_some.mp total
      refine ⟨_, .finished total childless ?_ fetched (buffered_flatten _)⟩
      rw [toNat, size]
      exact short
  · intro result downloads
    cases downloads with
    | aborted overflows =>
        have large := totalSize_eq_none.mp overflows
        omega
    | empty childless =>
        rw [childless, sizeSum_nil] at size
        rw [List.eq_nil_of_length_eq_zero size.symm]
    | tooLong sized children long =>
        rw [totalSize_eq_some.mp sized] at long
        omega
    | stopped sized children _ failed real =>
        have settled := fetchAll_settled (by rw [fetched]; exact fun impossible => by contradiction)
          (by rw [failed]; exact fun same => real (Except.error.inj same))
        rw [fetched, failed] at settled
        contradiction
    | finished sized children _ again ordered =>
        obtain rfl := Recursed.unique ⟨_, fetched⟩ ⟨_, again⟩
        exact ends sized children ordered

/-- Uploads and downloads fit together: an upload which is not refused ends, with few children
and right sizes, and every download of its root from a store which keeps its fragments saves
the file. -/
theorem upload_round_trip
    (opens : ∀ key nonce plaintext, P.aeadDecrypt key nonce (P.aeadEncrypt key nonce plaintext []) []
      = some plaintext) (job : UploadJob) (answers : UploadAnswers P) {order : List Nat}
    (completes : order.Perm (List.range job.chunkCount)) :
    (∀ err, job.uploadInner answers order = .error err → ∃ reason, err = .server reason) ∧
      ∀ root nodes, job.uploadInner answers order = .ok (root, nodes) →
        root.children.length ≤ maxFanout ∧
          ∀ server, Keeps answers server (job.fragments nodes) →
            (∀ child ∈ root.children ++ nodes.flatten,
              BytesBelow server job.contentKey child.1 child.2.toNat) ∧
            (∃ result, Downloads server root result) ∧
            ∀ result, Downloads server root result → result = .saved job.content := by
  refine ⟨fun err => UploadJob.uploadInner_eq_error completes, fun root nodes uploads => ?_⟩
  obtain ⟨sameKey, ⟨bound, built⟩, _⟩ := UploadJob.uploadInner_eq_ok completes uploads
  have narrow := (buildLevels_spec built job.firstLevel_sized fun group _ below child all node => by
    rw [Sized, (groupNode_eq_ok.mp node).2, sizeSum_of_sized all]).1
  refine ⟨narrow, fun server keeps => ?_⟩
  obtain ⟨_, ⟨below, top, same⟩, inner⟩ :=
    UploadJob.holds_of_uploadInner opens completes uploads keeps
  have short := job.short
  constructor
  · intro child listed
    rcases List.mem_append.mp listed with above | inside
    · obtain ⟨data, holds, length⟩ := length_le_of_mem_forall₂ top above
      exact holds.bytesBelow (by rw [same] at length; omega)
    · obtain ⟨group, isNode, within⟩ := List.mem_flatten.mp inside
      obtain ⟨datas, all, bounded⟩ := inner group isNode
      obtain ⟨data, holds, length⟩ := length_le_of_mem_forall₂ all within
      exact holds.bytesBelow (by omega)
  · rw [← sameKey] at top
    rw [← same] at short ⊢
    exact downloads_of_holds top short

/-- A file of three bytes. -/
def smallJob : UploadJob :=
  ⟨"leaves", "text/plain", [1, 2, 3], symbolicKey 4, fun _ => zeroNonce, by decide⟩

theorem smallJob_uploads : smallJob.uploadInner (fun _ => .ok ()) [0] =
    .ok (⟨"leaves", "text/plain", [(symbolic.bcsHash (smallJob.leaf 0 : Fragment symbolic), 3)],
      symbolicKey 4⟩, []) := by
  rw [UploadJob.uploadInner]
  have collected : [0].mapM (smallJob.uploadChunk (P := symbolic) fun _ => .ok ()) =
      .ok [smallJob.result 0] := rfl
  rw [collected]
  simp only [List.mergeSort_singleton]
  rfl

/-- A small file is uploaded to a store which takes everything, and downloaded from it. -/
theorem upload_round_trip_smallJob :
    ∃ root : Attachment symbolic,
      smallJob.uploadInner (fun _ => .ok ()) [0] = .ok (root, []) ∧
        ∀ result, Downloads (serverOf (smallJob.fragments [])) root result →
          result = .saved [1, 2, 3] := by
  refine ⟨_, smallJob_uploads, ?_⟩
  refine (((upload_round_trip (fun key nonce plaintext =>
    symbolic_sealing.opens key nonce plaintext []) smallJob (fun _ => .ok ())
      (List.Perm.refl [0])).2 _ _ smallJob_uploads).2 (serverOf (smallJob.fragments [])) ?_).2.2
  intro frag listed _ position
  obtain rfl := List.mem_singleton.mp listed
  rfl

/-- What a download is answered by a server with this database. -/
def storedFragments (db : ServerDb P) : FragmentServer P := fun _ hash =>
  (db.downloadFrag hash).mapError fun _ => "server error"

/-- A server which keeps its promises is such a store: fragments of attachments are uploaded
without a time to live. -/
theorem keeps_of_kept {state : FragmentRun P} (kept : state.Kept) {answers : UploadAnswers P}
    {frags : List (Fragment P)}
    (owed : ∀ frag ∈ frags, answers frag = .ok () → (frag, none) ∈ state.owed) :
    Keeps answers (storedFragments state.db) frags := by
  intro frag listed taken position
  have endless : ¬FragmentRun.Passed state.clock none := by
    rintro ⟨moment, isDue, _⟩
    contradiction
  rw [storedFragments, kept frag none (owed frag listed taken) endless]
  rfl

end Nullspace
