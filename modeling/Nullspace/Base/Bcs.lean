import Mathlib.Algebra.Group.Int.Defs
import Mathlib.Algebra.Group.Nat.Defs

/-!
# Binary canonical serialization

BCS writes a value as a prefix code: a reader given the encoding in front of any suffix
takes exactly the encoding. A `Bcs` instance carries this law with its reader and
writer, so products, sequences and refinements inherit it by construction.

Lengths are ULEB128 in their shortest form, integers are little-endian, sequences and
strings carry their length, tuples and structures carry nothing but their fields. The
format's limits on sequence length and nesting depth are not modelled.
-/

namespace Nullspace.Base

abbrev Bytes := List UInt8

/-- A byte array whose size is part of its type. -/
abbrev FixedBytes (count : Nat) := { bytes : Bytes // bytes.length = count }

/-- Check the size of raw bytes. -/
def FixedBytes.ofBytes? (count : Nat) (bytes : Bytes) : Option (FixedBytes count) :=
  if length : bytes.length = count then some ⟨bytes, length⟩ else none

/-- The bytes of a fixed array make that array again. -/
@[simp] theorem FixedBytes.ofBytes?_val {count : Nat} (array : FixedBytes count) :
    FixedBytes.ofBytes? count array.1 = some array := by
  simp [FixedBytes.ofBytes?, array.2]

/-- A writer and a prefix reader which takes back exactly what was written. -/
class Bcs (α : Type) where
  put : α → Bytes
  get : Bytes → Option (α × Bytes)
  get_put : ∀ value rest, get (put value ++ rest) = some (value, rest)

namespace Bcs

variable {α β : Type}

/-- `bcs::to_bytes`. -/
def toBytes [Bcs α] (value : α) : Bytes := put value

/-- `bcs::from_bytes`: the whole input has to be one value. -/
def fromBytes [Bcs α] (bytes : Bytes) : Option α :=
  match get bytes with
  | some (value, []) => some value
  | _ => none

/-- Decoding what was encoded gives the value back, with no byte left over. -/
@[simp] theorem fromBytes_toBytes [Bcs α] (value : α) : fromBytes (toBytes value) = some value := by
  have read := get_put value []
  rw [List.append_nil] at read
  simp [fromBytes, toBytes, read]

/-- Two values with the same encoding are the same value. -/
theorem toBytes_injective [Bcs α] {first second : α} (same : toBytes first = toBytes second) :
    first = second := by
  have read := congrArg (fromBytes (α := α)) same
  simpa using read

@[simp] theorem toBytes_inj [Bcs α] {first second : α} :
    toBytes first = toBytes second ↔ first = second :=
  ⟨toBytes_injective, congrArg toBytes⟩

/-- Read and write `β` as the representation `α`. -/
abbrev iso [Bcs α] (pack : α → β) (unpack : β → α) (inverse : ∀ value, pack (unpack value) = value) :
    Bcs β where
  put value := put (unpack value)
  get bytes := (get bytes).map fun (value, rest) => (pack value, rest)
  get_put value rest := by simp [get_put, inverse]

/-- Read a representation and refuse it when it does not pass the check. -/
abbrev refine [Bcs α] (pack : α → Option β) (unpack : β → α)
    (inverse : ∀ value, pack (unpack value) = some value) : Bcs β where
  put value := put (unpack value)
  get bytes :=
    match get bytes with
    | some (value, rest) => (pack value).map fun packed => (packed, rest)
    | none => none
  get_put value rest := by simp [get_put, inverse]

instance : Bcs UInt8 where
  put byte := [byte]
  get
    | [] => none
    | byte :: rest => some (byte, rest)
  get_put _ _ := rfl

/-- The low `width` base-256 digits of a number, low digit first. -/
def leBytes : Nat → Nat → Bytes
  | 0, _ => []
  | width + 1, number => UInt8.ofNat (number % 256) :: leBytes width (number / 256)

def leValue : Bytes → Nat
  | [] => 0
  | byte :: bytes => byte.toNat + 256 * leValue bytes

/-- A little-endian number takes exactly its width. -/
@[simp] theorem leBytes_length (width number : Nat) : (leBytes width number).length = width := by
  induction width generalizing number with
  | zero => rfl
  | succ width ih => simp [leBytes, ih]

/-- A number below the range of its width is read back from its little-endian bytes. -/
theorem leValue_leBytes (width number : Nat) (bounded : number < 256 ^ width) :
    leValue (leBytes width number) = number := by
  induction width generalizing number with
  | zero => simp only [Nat.pow_zero] at bounded; simp [leBytes, leValue]; omega
  | succ width ih =>
      have high : number / 256 < 256 ^ width := by
        rw [Nat.pow_succ] at bounded
        exact Nat.div_lt_of_lt_mul (by omega)
      simp only [leBytes, leValue, ih _ high, UInt8.toNat_ofNat']
      omega

/-- Split off a fixed number of bytes. -/
def takeBytes (count : Nat) (bytes : Bytes) : Option (Bytes × Bytes) :=
  if count ≤ bytes.length then some (bytes.take count, bytes.drop count) else none

/-- A reader which takes as many bytes as were put gets those and leaves the rest. -/
theorem takeBytes_append {count : Nat} {bytes : Bytes} (length : bytes.length = count) (rest : Bytes) :
    takeBytes count (bytes ++ rest) = some (bytes, rest) := by
  subst length
  simp [takeBytes]

instance : Bcs UInt64 where
  put number := leBytes 8 number.toNat
  get bytes := (takeBytes 8 bytes).map fun (digits, rest) => (UInt64.ofNat (leValue digits), rest)
  get_put number rest := by
    have bounded : number.toNat < 256 ^ 8 := number.toNat_lt
    rw [takeBytes_append (leBytes_length 8 number.toNat) rest]
    simp [leValue_leBytes 8 number.toNat bounded]

instance : Bcs Bool where
  put
    | false => [0]
    | true => [1]
  get
    | 0 :: rest => some (false, rest)
    | 1 :: rest => some (true, rest)
    | _ => none
  get_put value rest := by cases value <;> rfl

/-- ULEB128 digits of a number; `fuel` bounds how many are written. -/
def putUlebAux : Nat → Nat → Bytes
  | 0, _ => []
  | fuel + 1, number =>
      if number < 128 then [UInt8.ofNat number]
      else UInt8.ofNat (number % 128 + 128) :: putUlebAux fuel (number / 128)

/-- A number has at most as many base-128 digits as its value, plus one for zero. -/
def putUleb (number : Nat) : Bytes := putUlebAux (number + 1) number

/-- Read a ULEB128 number, refusing a last digit of zero behind a continuation bit. -/
def getUleb : Bytes → Option (Nat × Bytes)
  | [] => none
  | digit :: rest =>
      if digit.toNat < 128 then some (digit.toNat, rest)
      else
        match getUleb rest with
        | some (0, _) => none
        | some (high, rest) => some (digit.toNat - 128 + 128 * high, rest)
        | none => none

/-- With enough fuel, a variable-length number is read back in front of any rest. -/
theorem getUleb_putUlebAux (fuel number : Nat) (enough : number < fuel) (rest : Bytes) :
    getUleb (putUlebAux fuel number ++ rest) = some (number, rest) := by
  induction fuel generalizing number with
  | zero => omega
  | succ fuel ih =>
      simp only [putUlebAux]
      split
      · rename_i small
        have digit : (UInt8.ofNat number).toNat = number := by
          rw [UInt8.toNat_ofNat']; omega
        simp [getUleb, digit, small]
      · rename_i large
        have digit : (UInt8.ofNat (number % 128 + 128)).toNat = number % 128 + 128 := by
          rw [UInt8.toNat_ofNat']; omega
        obtain ⟨high, positive⟩ : ∃ high, number / 128 = high + 1 := ⟨number / 128 - 1, by omega⟩
        have read := ih (number / 128) (by omega)
        rw [positive] at read
        simp only [List.cons_append, getUleb, digit, positive, read]
        rw [if_neg (by omega)]
        simp only [Option.some.injEq, Prod.mk.injEq, and_true]
        omega

/-- A variable-length number is read back in front of any rest. -/
theorem getUleb_putUleb (number : Nat) (rest : Bytes) :
    getUleb (putUleb number ++ rest) = some (number, rest) :=
  getUleb_putUlebAux (number + 1) number (by omega) rest

instance [Bcs α] [Bcs β] : Bcs (α × β) where
  put value := put value.1 ++ put value.2
  get bytes :=
    match get bytes with
    | none => none
    | some (first, rest) => (get rest).map fun (second, rest) => ((first, second), rest)
  get_put value rest := by simp [List.append_assoc, get_put]

instance [Bcs α] : Bcs (Option α) where
  put
    | none => [0]
    | some value => 1 :: put value
  get
    | 0 :: rest => some (none, rest)
    | 1 :: rest => (get rest).map fun (value, rest) => (some value, rest)
    | _ => none
  get_put value rest := by cases value <;> simp [get_put]

/-- Read a known number of items. -/
def getMany [Bcs α] : Nat → Bytes → Option (List α × Bytes)
  | 0, bytes => some ([], bytes)
  | count + 1, bytes =>
      match get bytes with
      | none => none
      | some (item, rest) => (getMany count rest).map fun (items, rest) => (item :: items, rest)

/-- Items written one after another are read back by their number. -/
theorem getMany_flatMap [Bcs α] (items : List α) (rest : Bytes) :
    getMany items.length (items.flatMap put ++ rest) = some (items, rest) := by
  induction items with
  | nil => rfl
  | cons item items ih => simp [getMany, List.append_assoc, get_put, ih]

instance [Bcs α] : Bcs (List α) where
  put items := putUleb items.length ++ items.flatMap put
  get bytes :=
    match getUleb bytes with
    | none => none
    | some (count, rest) => getMany count rest
  get_put items rest := by simp [List.append_assoc, getUleb_putUleb, getMany_flatMap]

/-- A string is its UTF-8 bytes; other bytes are refused. -/
instance : Bcs String :=
  refine (α := Bytes) (fun bytes => String.fromUTF8? ⟨bytes.toArray⟩)
    (fun string => string.toUTF8.data.toList) (by
      intro string
      simpa [String.fromUTF8?, String.fromUTF8] using string.isValidUTF8)

/-- An array is written as a tuple: its size is not repeated in the bytes. -/
instance (count : Nat) : Bcs (FixedBytes count) where
  put array := array.1
  get bytes :=
    match takeBytes count bytes with
    | none => none
    | some (front, rest) => (FixedBytes.ofBytes? count front).map fun array => (array, rest)
  get_put array rest := by simp [takeBytes_append array.2 rest]

/-- The encoding of a sequence always carries its length. -/
theorem toBytes_list_ne_nil [Bcs α] (items : List α) : toBytes items ≠ [] := by
  have lengthWritten : putUleb items.length ≠ [] := by
    simp only [putUleb, putUlebAux]
    split <;> simp
  simp [toBytes, put, lengthWritten]

end Bcs
end Nullspace.Base
