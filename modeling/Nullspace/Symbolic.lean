import Mathlib.Data.List.Dedup
import Mathlib.Data.List.Lex
import Mathlib.Data.List.Sort
import Nullspace.Base.AuthMap
import Nullspace.Structs.Directory
import Nullspace.Structs.E2ee

/-!
# Symbolic primitives

An executable instance of `Primitives` in which every primitive is a free construction:
a hash is its tagged input, a signature is the signer in front of the message, a
ciphertext carries what decryption checks. It shows that what the results ask of the
primitives can be met, and lets a run be computed. The hash codes are not short and the
ciphertexts hide nothing; no result rests on either.
-/

namespace Nullspace

open Nullspace.Base

/-- The bytes behind a prefix. -/
def stripPrefix (expected : Bytes) : Bytes → Option Bytes
  | bytes => if bytes.take expected.length = expected then some (bytes.drop expected.length) else none

/-- The sum of all bytes. -/
def byteSum (bytes : Bytes) : UInt8 := bytes.foldl (· + ·) 0

/-- What authenticates a symbolic ciphertext. -/
def symbolicTag (key : AeadKey) (nonce : FixedBytes 24) (aad : Bytes) : Bytes :=
  key.bytes.1 ++ nonce.1 ++ Bcs.toBytes aad

/-- The shared secret of two symbolic keys, the same from both sides. -/
def symbolicShared (secret peer : UInt8) : FixedBytes 32 :=
  ⟨1 :: min secret peer :: max secret peer :: List.replicate 29 0, by simp⟩

@[reducible] def symbolic : Primitives where
  Hash := Bytes
  SigningPublic := UInt8
  SigningSecret := UInt8
  Signature := Bytes
  DhPublic := UInt8
  DhSecret := UInt8
  digest message := 0 :: message
  keyedDigest key message := 1 :: Bcs.toBytes key ++ message
  hashBytes hash := hash
  zeroHash := []
  publicKey secret := secret
  sign secret message := secret :: message
  verify signer signature message := decide (signature = signer :: message)
  dhPublicKey secret := secret
  x25519 := symbolicShared
  applyKeystream key nonce bytes := bytes.map fun byte => byte ^^^ byteSum key.1 ^^^ byteSum nonce.1
  aeadEncrypt key nonce plaintext aad := symbolicTag key nonce aad ++ plaintext
  aeadDecrypt key nonce ciphertext aad := stripPrefix (symbolicTag key nonce aad) ciphertext

/-- The symbolic hash keeps all of its input. -/
theorem symbolic_collisionFree : symbolic.CollisionFree where
  digest _ _ same := (List.cons.inj same).2
  neverZero message := List.cons_ne_nil 0 message

/-- A symbolic signature verifies under its own key. -/
theorem symbolic_signsCorrectly : symbolic.SignsCorrectly := by
  intro secret message
  exact decide_eq_true rfl

/-- A symbolic signature verifies under no other key. -/
theorem symbolic_signsExclusively : symbolic.SignsExclusively := by
  intro secret message other verified
  exact (List.cons.inj (of_decide_eq_true verified)).1.symm

/-- The first update of a name, which makes the signer an owner. -/
def firstUpdate (owner : UInt8) : DirectoryUpdate symbolic :=
  ⟨[], .addOwner owner,
    owner :: Bcs.toBytes (([] : Bytes), DirectoryUpdateInner.addOwner (P := symbolic) owner)⟩

def alice : UserName := ⟨"@alice", by decide⟩

def bobby : UserName := ⟨"@bobby", by decide⟩

def symbolicServer : ServerName := ⟨"~server_1", by decide⟩

/-- A root device, certified by itself. -/
def rootChain (device : UInt8) (expiry : Timestamp) : CertificateChain symbolic :=
  ⟨[], ⟨device, expiry, true, device :: Bcs.toBytes (device, expiry, true)⟩⟩

/-- The root devices which the directory names. -/
def symbolicDirectory (username : UserName) : Option (UserDescriptor symbolic) :=
  if username = alice then some ⟨symbolicServer, symbolic.bcsHash (1 : UInt8)⟩
  else if username = bobby then some ⟨symbolicServer, symbolic.bcsHash (2 : UInt8)⟩
  else none

def symbolicKey (byte : UInt8) : AeadKey := ⟨⟨List.replicate 32 byte, List.length_replicate⟩⟩

/-- The medium-term keys of Alice and Bobby. -/
def aliceMedium : UInt8 := 5

def bobbyMedium : UInt8 := 7

/-- An event in a blob, signed by a device. -/
def signedEvent (sender : UserName) (chain : CertificateChain symbolic) (device : UInt8)
    (event : Event symbolic) : DeviceSigned symbolic :=
  .signBlob ⟨Blob.v1MessageContent, Bcs.toBytes event⟩ sender chain device

/-- A signed payload behind headers for some medium-term keys. -/
def sealedFor (mediumPks : List UInt8) (kind : String) (signed : DeviceSigned symbolic) : Blob :=
  match HeaderEncrypted.encryptBytes (P := symbolic) 0 (symbolicKey 0) (Bcs.toBytes signed)
    mediumPks with
  | .ok encrypted => ⟨kind, Bcs.toBytes encrypted⟩
  | .error _ => ⟨kind, []⟩

/-- The form in which `serde_json` writes a management message. -/
def GroupManageMsg.compactJson : GroupManageMsg → String
  | .inviteSent username => "\x7b\"invite_sent\":\"" ++ username.str ++ "\"\x7d"
  | .inviteAccepted => "\"invite_accepted\""
  | .ban username => "\x7b\"ban\":\"" ++ username.str ++ "\"\x7d"
  | .unban username => "\x7b\"unban\":\"" ++ username.str ++ "\"\x7d"
  | .leave => "\"leave\""
  | .addAdmin username => "\x7b\"add_admin\":\"" ++ username.str ++ "\"\x7d"
  | .removeAdmin username => "\x7b\"remove_admin\":\"" ++ username.str ++ "\"\x7d"

/-- Reads what Alice may say about Bobby, in the form in which it is written. -/
def symbolicJson : JsonReader symbolic where
  attachment _ := none
  groupManage body :=
    [.inviteSent bobby, .inviteAccepted, .ban bobby, .unban bobby, .leave, .addAdmin bobby,
      .removeAdmin bobby].find? fun manage => decide (body = utf8 manage.compactJson)

/-- The value at a key; an absent key holds the empty value. -/
def contentAt (content : List (Bytes × Bytes)) (key : Bytes) : Bytes :=
  (content.lookup key).getD []

/-- Trees whose root spells out the whole content, so that they need no node store. -/
@[reducible] def symbolicSmt : AuthMap symbolic.Hash symbolic.Hash Bytes where
  Store := Unit
  Tree := Option (List (Bytes × Bytes))
  Proof := Unit
  empty _ := some []
  openTree _ root := Bcs.fromBytes root
  get tree key := tree.map fun content => contentAt content key
  write tree key value := tree.map fun content => some ((key, value) :: content)
  commit store tree := tree.map fun content => (store, Bcs.toBytes content)
  prove _ _ := some ()
  check _ root key value :=
    match Bcs.fromBytes (α := List (Bytes × Bytes)) root with
    | none => false
    | some content => decide (contentAt content key = value)

/-- The symbolic tree reads back what was written. -/
theorem symbolicSmt_functional : symbolicSmt.Functional [] where
  get_empty _ _ := rfl
  write_defined tree key value readable := by
    obtain ⟨_, read⟩ := readable key
    cases tree with
    | none => simp at read
    | some content => exact ⟨_, rfl⟩
  get_written := by
    intro tree key value next written
    cases tree with
    | none => simp at written
    | some content =>
        cases written
        simp [contentAt]
  get_other := by
    intro tree key value next other written apart
    cases tree with
    | none => simp at written
    | some content =>
        cases written
        have different : (other == key) = false := by simpa using apart
        simp [contentAt, List.lookup_cons, different]
  commit_defined store tree readable := by
    obtain ⟨_, read⟩ := readable []
    cases tree with
    | none => simp at read
    | some content => exact ⟨_, rfl⟩
  get_committed := by
    intro store tree store' root committed key
    cases tree with
    | none => simp at committed
    | some content =>
        cases committed
        simp
  get_kept := by
    intro _ _ _ _ _ _ _ _ read
    exact read

/-- A symbolic root determines what its proofs show. -/
theorem symbolicSmt_binding : symbolicSmt.Binding := by
  intro _ _ root key value value' first second
  dsimp only at first second
  cases decoded : Bcs.fromBytes (α := List (Bytes × Bytes)) root with
  | none => simp [decoded] at first
  | some content =>
      simp only [decoded, decide_eq_true_eq] at first second
      exact first.symm.trans second

/-- Every reading of a symbolic tree has a proof. -/
theorem symbolicSmt_complete : symbolicSmt.Complete := by
  intro _ root key value read
  refine ⟨(), rfl, ?_⟩
  obtain ⟨content, opened, held⟩ := Option.map_eq_some_iff.mp read
  dsimp only at opened ⊢
  rw [opened]
  exact decide_eq_true held

/-- Keys in the order of their bytes. -/
def keyLe (first second : Bytes) : Prop := first.map UInt8.toNat ≤ second.map UInt8.toNat

instance : DecidableRel keyLe := fun first second =>
  inferInstanceAs (Decidable (first.map UInt8.toNat ≤ second.map UInt8.toNat))

instance : IsTrans Bytes keyLe := ⟨fun _ _ _ before after => le_trans before after⟩

instance : Std.Total keyLe :=
  ⟨fun first second => le_total (first.map UInt8.toNat) (second.map UInt8.toNat)⟩

/-- Keys which come before each other are equal. -/
theorem keyLe_antisymm {first second : Bytes} (before : keyLe first second)
    (after : keyLe second first) : first = second :=
  List.map_injective_iff.mpr (fun _ _ => UInt8.toNat_inj.mp) (le_antisymm before after)

/-- The keys which hold something, in order. -/
def heldKeys (content : List (Bytes × Bytes)) : List Bytes :=
  ((content.map Prod.fst).dedup.filter fun key => decide (contentAt content key ≠ [])).insertionSort
    keyLe

/-- The content without what is shadowed or empty. -/
def normalContent (content : List (Bytes × Bytes)) : List (Bytes × Bytes) :=
  (heldKeys content).map fun key => (key, contentAt content key)

/-- The held keys are those with a value. -/
theorem mem_heldKeys {content : List (Bytes × Bytes)} {key : Bytes} :
    key ∈ heldKeys content ↔ contentAt content key ≠ [] := by
  rw [heldKeys, List.mem_insertionSort, List.mem_filter, List.mem_dedup, decide_eq_true_eq,
    and_iff_right_iff_imp]
  intro held
  by_contra absent
  have missing : content.lookup key = none := by
    rw [List.lookup_eq_none_iff]
    rintro ⟨other, value⟩ listed
    have apart : key ≠ other := by
      rintro rfl
      exact absent (List.mem_map.mpr ⟨_, listed, rfl⟩)
    simpa using apart
  exact held (by rw [contentAt, missing, Option.getD_none])

/-- Looking up in the list of a function's values gives the function on the listed keys. -/
theorem lookup_graph (keys : List Bytes) (value : Bytes → Bytes) (key : Bytes) :
    (keys.map fun key => (key, value key)).lookup key =
      if key ∈ keys then some (value key) else none := by
  induction keys with
  | nil => rfl
  | cons first rest ih =>
      rw [List.map_cons, List.lookup_cons]
      by_cases same : key = first
      · subst same
        simp
      · have different : (key == first) = false := by simpa using same
        simp [different, ih, same]

/-- The sorted content has the same value for every key. -/
theorem contentAt_normalContent (content : List (Bytes × Bytes)) (key : Bytes) :
    contentAt (normalContent content) key = contentAt content key := by
  rw [contentAt, normalContent, lookup_graph]
  by_cases held : key ∈ heldKeys content
  · rw [if_pos held, Option.getD_some]
  · rw [if_neg held, Option.getD_none]
    rw [mem_heldKeys, not_not] at held
    exact held.symm

theorem normalContent_congr {first second : List (Bytes × Bytes)}
    (same : ∀ key, contentAt first key = contentAt second key) :
    normalContent first = normalContent second := by
  have nodup : ∀ content : List (Bytes × Bytes), (heldKeys content).Nodup := fun content =>
    (List.perm_insertionSort keyLe _).nodup_iff.mpr ((List.nodup_dedup _).filter _)
  have perm : (heldKeys first).Perm (heldKeys second) := by
    refine (List.perm_ext_iff_of_nodup (nodup first) (nodup second)).mpr ?_
    intro key
    rw [mem_heldKeys, mem_heldKeys, same]
  have keys : heldKeys first = heldKeys second :=
    perm.eq_of_pairwise (fun _ _ _ _ => keyLe_antisymm) (List.pairwise_insertionSort keyLe _)
      (List.pairwise_insertionSort keyLe _)
  rw [normalContent, normalContent, keys]
  simp only [same]

/-- Trees whose root spells out the content in normal form. -/
@[reducible] def sortedSmt : AuthMap symbolic.Hash symbolic.Hash Bytes :=
  { symbolicSmt with
    commit := fun store tree => tree.map fun content => (store, Bcs.toBytes (normalContent content)) }

/-- The sorted tree reads back what was written. -/
theorem sortedSmt_functional : sortedSmt.Functional [] where
  get_empty := symbolicSmt_functional.get_empty
  write_defined := symbolicSmt_functional.write_defined
  get_written := symbolicSmt_functional.get_written
  get_other := symbolicSmt_functional.get_other
  commit_defined store tree readable := by
    obtain ⟨_, read⟩ := readable []
    cases tree with
    | none => simp at read
    | some content => exact ⟨_, rfl⟩
  get_committed := by
    intro store tree store' root committed key
    cases tree with
    | none => simp at committed
    | some content =>
        cases committed
        simp [contentAt_normalContent]
  get_kept := by
    intro _ _ _ _ _ _ _ _ read
    exact read

/-- The root of a sorted tree depends only on its values. -/
theorem sortedSmt_canonical : sortedSmt.Canonical where
  root := by
    intro store tree store' root other otherTree other' otherRoot committed otherCommitted same
    cases tree with
    | none => simp at committed
    | some content =>
        cases otherTree with
        | none => simp at otherCommitted
        | some otherContent =>
            cases committed
            cases otherCommitted
            refine congrArg Bcs.toBytes (normalContent_congr ?_)
            intro key
            exact Option.some.inj (same key)
  proof _ _ := rfl

end Nullspace
