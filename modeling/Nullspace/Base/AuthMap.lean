/-!
# Authenticated maps

A map from keys to values whose whole content is named by one root, kept in a store of
nodes which is shared by all the roots committed to it. A key which was never written
reads as the empty value. Reading and writing may find a node missing; `Readable` says
that no key does.

`Functional` says what reads return after writes, and is all that a writer needs.
`Canonical` says that the content alone decides roots and proofs, which is what two
writers need to agree. `Binding` says that proofs open a root at a key to one value only,
and is all that a client which sees nothing but roots and proofs needs. `Complete` says that
what is read at a root is proved there, which is what a server of proofs needs.
-/

namespace Nullspace.Base

/-- An implementation of authenticated maps. -/
structure AuthMap (Root Key Value : Type) where
  Store : Type
  Tree : Type
  Proof : Type
  empty : Store → Tree
  openTree : Store → Root → Tree
  get : Tree → Key → Option Value
  write : Tree → Key → Value → Option Tree
  commit : Store → Tree → Option (Store × Root)
  prove : Tree → Key → Option Proof
  check : Proof → Root → Key → Value → Bool

namespace AuthMap

variable {Root Key Value : Type} (map : AuthMap Root Key Value)

/-- Every key can be read. -/
def Readable (tree : map.Tree) : Prop := ∀ key, ∃ value, map.get tree key = some value

/-- Reads follow writes, and commits keep what the store already holds. -/
structure Functional (absent : Value) : Prop where
  get_empty : ∀ store key, map.get (map.empty store) key = some absent
  write_defined : ∀ tree key value, map.Readable tree → ∃ next, map.write tree key value = some next
  get_written : ∀ {tree key value next}, map.write tree key value = some next →
    map.get next key = some value
  get_other : ∀ {tree key value next other}, map.write tree key value = some next → other ≠ key →
    map.get next other = map.get tree other
  commit_defined : ∀ store tree, map.Readable tree →
    ∃ committed, map.commit store tree = some committed
  get_committed : ∀ {store tree store' root}, map.commit store tree = some (store', root) →
    ∀ key, map.get (map.openTree store' root) key = map.get tree key
  get_kept : ∀ {store tree store' root}, map.commit store tree = some (store', root) →
    ∀ {old key value}, map.get (map.openTree store old) key = some value →
      map.get (map.openTree store' old) key = some value

/-- Two trees read the same. -/
def SameContent (first second : map.Tree) : Prop :=
  ∀ key, map.get first key = map.get second key

/-- The content of a tree decides its root and its proofs, whatever store it is in. -/
structure Canonical : Prop where
  root : ∀ {store tree store' root other otherTree other' otherRoot},
    map.commit store tree = some (store', root) →
      map.commit other otherTree = some (other', otherRoot) →
        map.SameContent tree otherTree → root = otherRoot
  proof : ∀ {first second}, map.SameContent first second →
    ∀ key, map.prove first key = map.prove second key

/-- A root opens at a key to at most one value. -/
def Binding : Prop :=
  ∀ first second root key value value', map.check first root key value = true →
    map.check second root key value' = true → value = value'

/-- What is read at a root has a proof which is accepted there. -/
def Complete : Prop :=
  ∀ {store root key value}, map.get (map.openTree store root) key = some value →
    ∃ proof, map.prove (map.openTree store root) key = some proof ∧
      map.check proof root key value = true

variable {map}

theorem Functional.readable_empty {absent : Value} (functional : map.Functional absent)
    (store : map.Store) : map.Readable (map.empty store) :=
  fun key => ⟨absent, functional.get_empty store key⟩

/-- A tree stays readable when it is written. -/
theorem Functional.readable_write {absent : Value} (functional : map.Functional absent)
    {tree next : map.Tree} {key : Key} {value : Value} (readable : map.Readable tree)
    (written : map.write tree key value = some next) : map.Readable next := by
  intro other
  by_cases same : other = key
  · subst same
    exact ⟨value, functional.get_written written⟩
  · obtain ⟨old, read⟩ := readable other
    exact ⟨old, (functional.get_other written same).trans read⟩

end AuthMap
end Nullspace.Base
