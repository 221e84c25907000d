import Nullspace.Client.Download

/-!
# What a download leaves

A download compares the number of written bytes with the declared total, and nothing else.
`describes_iff_inPlace` says for which roots this is enough: every leaf has to stand where
the leaves before it end, as far as it is not written over by its own child.
-/

namespace Nullspace

open Nullspace.Base

variable {P : Primitives}

/-- The leaves of the root in their order. -/
def inOrder (writers : List (List (Write UInt8))) : Bytes :=
  writers.flatten.flatMap fun write => write.2

/-- Whatever a download saves is what the root describes. -/
def Describes (server : FragmentServer P) (root : Attachment P) : Prop :=
  ∀ content, Downloads server root (.saved content) → ∀ writers, Recursed server root writers →
    (∃ total, totalSize root.children = some total ∧ content.length = total.toNat) ∧
      content = inOrder writers

/-- The check at the end of a download goes through. -/
structure Passes (root : Attachment P) (writers : List (List (Write UInt8))) : Prop where
  short : sizeSum root.children < 2 ^ 63
  counted : (inOrder writers).length % 2 ^ 64 = sizeSum root.children

/-- The leaves fill the declared total, and each child leaves at each position which it writes
what the leaves in their order have there; where no child writes they have a zero. -/
structure InPlace (root : Attachment P) (writers : List (List (Write UInt8))) : Prop where
  fills : (inOrder writers).length = sizeSum root.children
  agrees : Agrees 0 (sizeSum root.children) writers (inOrder writers)

/-- The writes have as many bytes as their pieces in order. -/
theorem length_inOrder {writers : List (List (Write UInt8))} {order : List (Write UInt8)}
    (ordered : Buffered transferConcurrency writers [] order) :
    (order.map fun write => write.2.length).sum = (inOrder writers).length := by
  have perm := ordered.perm
  rw [List.nil_append] at perm
  rw [inOrder, List.length_flatMap]
  exact (perm.map fun write => write.2.length).sum_nat

/-- The writers can write one after the other. -/
theorem buffered_flatten (writers : List (List (Write UInt8))) :
    Buffered transferConcurrency writers [] writers.flatten := by
  have room : ([] : List (List (Write UInt8))).length < transferConcurrency := by decide
  have all := Buffered.drainAll writers room .done
  rwa [List.append_nil, List.append_nil] at all

/-- A root without children has nothing to write. -/
theorem inPlace_of_childless {server : FragmentServer P} {root : Attachment P}
    {writers : List (List (Write UInt8))} (childless : root.children = [])
    (fetched : Recursed server root writers) : InPlace root writers ∧ writers = [] := by
  obtain ⟨depth, fetched⟩ := fetched
  rw [childOffsets, childless] at fetched
  cases fetched
  have size : sizeSum root.children = 0 := by rw [childless, sizeSum_nil]
  refine ⟨⟨size.symm, ?_⟩, rfl⟩
  rw [size]
  exact ⟨rfl, fun _ listed => by contradiction, fun _ _ => rfl⟩

/-- What passes the check and is in place is saved as described, in every order. -/
theorem InPlace.content_eq {root : Attachment P} {writers : List (List (Write UInt8))}
    (inPlace : InPlace root writers) {order : List (Write UInt8)} {content : Bytes}
    (finished : Finished root writers order content) : content = inOrder writers := by
  rw [← finished.content]
  exact inPlace.agrees.overlay_eq finished.ordered

/-- What a root describes is what its downloads save exactly when its leaves are in place,
if they pass the check at all. -/
theorem describes_iff_inPlace (server : FragmentServer P) (root : Attachment P) :
    Describes server root ↔ ∀ writers, Recursed server root writers → Passes root writers →
      InPlace root writers := by
  constructor
  · intro describes writers fetched passes
    by_cases childless : root.children = []
    · exact (inPlace_of_childless childless fetched).1
    · have saves : ∀ order, Buffered transferConcurrency writers [] order →
          overlay 0 (List.replicate (sizeSum root.children) 0) order = inOrder writers ∧
            (inOrder writers).length = sizeSum root.children := by
        intro order ordered
        have finished : Finished root writers order
            (overlay 0 (List.replicate (sizeSum root.children) 0) order) :=
          ⟨childless, passes.short, ordered, length_inOrder ordered ▸ passes.counted, rfl⟩
        have saved := downloads_saved.mpr (.inr ⟨writers, order, fetched, finished⟩)
        obtain ⟨⟨total, sized, length⟩, content⟩ := describes _ saved writers fetched
        rw [content] at length
        exact ⟨content, length.trans (totalSize_eq_some.mp sized)⟩
      exact ⟨(saves _ (buffered_flatten writers)).2,
        agrees_of_overlay_eq (by decide) fun order ordered => (saves order ordered).1⟩
  · intro placed content saved writers fetched
    rcases downloads_saved.mp saved with ⟨childless, rfl⟩ | ⟨others, order, again, finished⟩
    · obtain ⟨_, rfl⟩ := inPlace_of_childless childless fetched
      rw [childless]
      exact ⟨⟨0, rfl, rfl⟩, rfl⟩
    · obtain rfl := fetched.unique again
      have counted := finished.counted
      rw [length_inOrder finished.ordered] at counted
      have inPlace := placed writers fetched ⟨finished.short, counted⟩
      have content := inPlace.content_eq finished
      have total : (UInt64.ofNat (sizeSum root.children)).toNat = sizeSum root.children :=
        UInt64.toNat_ofNat_of_lt' (Nat.lt_trans finished.short (by decide))
      refine ⟨⟨_, totalSize_eq_some.mpr total, ?_⟩, content⟩
      rw [content, inPlace.fills, total]

/-- The declared sizes are swapped. The sum is right, and the second leaf is written into the
first one or over by it. -/
theorem swappedSizes_breaks :
    Downloads (serverOf [symbolicLeaf [1, 2, 3], symbolicLeaf [4]]) (twoLeaves 1 3)
        (.saved [1, 4, 3, 0]) ∧
      Downloads (serverOf [symbolicLeaf [1, 2, 3], symbolicLeaf [4]]) (twoLeaves 1 3)
        (.saved [1, 2, 3, 0]) ∧
      ¬Describes (serverOf [symbolicLeaf [1, 2, 3], symbolicLeaf [4]]) (twoLeaves 1 3) := by
  have fetched : Recursed (serverOf [symbolicLeaf [1, 2, 3], symbolicLeaf [4]]) (twoLeaves 1 3)
      [[(0, [1, 2, 3])], [(1, [4])]] := ⟨1, rfl⟩
  have first : Downloads (serverOf [symbolicLeaf [1, 2, 3], symbolicLeaf [4]]) (twoLeaves 1 3)
      (.saved [1, 4, 3, 0]) :=
    downloads_saved.mpr (.inr ⟨_, _, fetched, by decide, by decide, buffered_flatten _, by decide,
      by decide⟩)
  have second : Downloads (serverOf [symbolicLeaf [1, 2, 3], symbolicLeaf [4]]) (twoLeaves 1 3)
      (.saved [1, 2, 3, 0]) :=
    downloads_saved.mpr (.inr ⟨_, _, fetched, by decide, by decide,
      Buffered.lastly (by decide) [] [(0, [1, 2, 3])] [[(1, [4])]], by decide, by decide⟩)
  refine ⟨first, second, fun describes => ?_⟩
  obtain ⟨_, content⟩ := describes _ first _ fetched
  revert content
  decide

end Nullspace
