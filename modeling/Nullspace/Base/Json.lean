import Mathlib.Algebra.BigOperators.Group.List.Basic
import Mathlib.Algebra.GroupWithZero.Nat
import Nullspace.Base.Bcs

/-!
# Compact JSON text

JSON values as their text, in the form without blanks. A text is measured in UTF-8 bytes,
and the size lemmas tell the size of every form from the sizes of its parts.
-/

namespace Nullspace.Base.Json

/-- The size of a text in UTF-8 bytes. -/
def size (text : String) : Nat := text.utf8ByteSize

@[simp] theorem size_append (first second : String) :
    size (first ++ second) = size first + size second := String.utf8ByteSize_append

@[simp] theorem size_singleton (char : Char) : size (String.singleton char) = char.utf8Size :=
  String.utf8ByteSize_singleton

/-- Texts one after the other. -/
def concat : List String → String
  | [] => ""
  | text :: rest => text ++ concat rest

/-- Texts with commas between them. -/
def commaSeparated : List String → String
  | [] => ""
  | text :: rest => text ++ concat (rest.map fun other => "," ++ other)

def hexAlphabet : List Char := "0123456789abcdef".toList

def base64Alphabet : List Char :=
  "ABCDEFGHIJKLMNOPQRSTUVWXYZabcdefghijklmnopqrstuvwxyz0123456789-_".toList

/-- A digit of an alphabet. -/
def digit (alphabet : List Char) (value : Nat) : String :=
  String.singleton (alphabet[value]?.getD '0')

/-- A byte as two hexadecimal digits. -/
def hexByte (byte : UInt8) : String :=
  digit hexAlphabet (byte.toNat / 16) ++ digit hexAlphabet (byte.toNat % 16)

def hex (bytes : Bytes) : String := concat (bytes.map hexByte)

/-- URL-safe base64 without padding. -/
def base64 : Bytes → String
  | [] => ""
  | [first] =>
      digit base64Alphabet (first.toNat / 4) ++ digit base64Alphabet (first.toNat % 4 * 16)
  | [first, second] =>
      digit base64Alphabet (first.toNat / 4) ++
        digit base64Alphabet (first.toNat % 4 * 16 + second.toNat / 16) ++
          digit base64Alphabet (second.toNat % 16 * 4)
  | first :: second :: third :: rest =>
      digit base64Alphabet (first.toNat / 4) ++
        digit base64Alphabet (first.toNat % 4 * 16 + second.toNat / 16) ++
          digit base64Alphabet (second.toNat % 16 * 4 + third.toNat / 64) ++
            digit base64Alphabet (third.toNat % 64) ++ base64 rest

/-- A character inside a string: quotes, backslashes and control characters are escaped. -/
def escapeChar (char : Char) : String :=
  match char with
  | '"' => "\\\""
  | '\\' => "\\\\"
  | '\x08' => "\\b"
  | '\t' => "\\t"
  | '\n' => "\\n"
  | '\x0c' => "\\f"
  | '\r' => "\\r"
  | _ =>
      if char.toNat < 32 then "\\u00" ++ hexByte (UInt8.ofNat char.toNat)
      else String.singleton char

/-- The characters of a string, escaped. -/
def escape (text : String) : String := concat (text.toList.map escapeChar)

/-- A string of characters which need no escape. -/
def quoted (text : String) : String := "\"" ++ text ++ "\""

def string (text : String) : String := quoted (escape text)

def number (value : Nat) : String := value.repr

def null : String := "null"

def array (items : List String) : String := "[" ++ commaSeparated items ++ "]"

/-- A member of an object; its name is escaped already. -/
def member (field : String × String) : String := quoted field.1 ++ ":" ++ field.2

def object (fields : List (String × String)) : String :=
  "\x7b" ++ commaSeparated (fields.map member) ++ "\x7d"

/-! ## Sizes -/

/-- The size of a concatenation is the sum of the sizes. -/
@[simp] theorem size_concat (texts : List String) : size (concat texts) = (texts.map size).sum := by
  induction texts with
  | nil => rfl
  | cons text rest ih => simp [concat, ih]

/-- Each text takes its size, and a comma after the first. -/
@[simp] theorem size_commaSeparated (texts : List String) :
    size (commaSeparated texts) = (texts.map size).sum + (texts.length - 1) := by
  have commas : ∀ rest : List String,
      (rest.map (size ∘ fun other => "," ++ other)).sum = (rest.map size).sum + rest.length := by
    intro rest
    induction rest with
    | nil => rfl
    | cons text rest ih =>
        have comma : size "," = 1 := by decide
        simp only [List.map_cons, List.sum_cons, ih, Function.comp_apply,
          size_append, comma, List.length_cons]
        omega
  cases texts with
  | nil => rfl
  | cons text rest =>
      simp only [commaSeparated, size_append, size_concat, List.map_map, commas,
        List.map_cons, List.sum_cons, List.length_cons]
      omega

theorem size_digit {alphabet : List Char}
    (ascii : (alphabet.all fun char => char.utf8Size == 1) = true) (value : Nat) :
    size (digit alphabet value) = 1 := by
  rw [digit, size_singleton]
  cases found : alphabet[value]? with
  | none => rfl
  | some char => exact eq_of_beq (List.all_eq_true.mp ascii char (List.mem_of_getElem? found))

@[simp] theorem size_hexByte (byte : UInt8) : size (hexByte byte) = 2 := by
  have digits : ∀ value, size (digit hexAlphabet value) = 1 := size_digit rfl
  rw [hexByte, size_append, digits, digits]

/-- A hexadecimal text is twice as long as the bytes which it shows. -/
@[simp] theorem size_hex (bytes : Bytes) : size (hex bytes) = 2 * bytes.length := by
  have each : size ∘ hexByte = fun _ => 2 := funext size_hexByte
  rw [hex, size_concat, List.map_map, each, List.map_const', List.sum_replicate_nat, Nat.mul_comm]

/-- Four digits for three bytes, rounded up. -/
@[simp] theorem size_base64 (bytes : Bytes) : size (base64 bytes) = (4 * bytes.length + 2) / 3 := by
  have digits : ∀ value, size (digit base64Alphabet value) = 1 := size_digit rfl
  induction bytes using base64.induct with
  | case1 => rfl
  | case2 first => simp [base64, digits]
  | case3 first second => simp [base64, digits]
  | case4 first second third rest ih =>
      simp only [base64, size_append, digits, ih, List.length_cons]
      omega

/-- The bytes of an escaped character. -/
def escapedSize (char : Char) : Nat :=
  match char with
  | '"' | '\\' | '\x08' | '\t' | '\n' | '\x0c' | '\r' => 2
  | _ => if char.toNat < 32 then 6 else char.utf8Size

/-- The size of an escaped character. -/
theorem size_escapeChar (char : Char) : size (escapeChar char) = escapedSize char := by
  have unicode : size "\\u00" = 4 := by decide
  unfold escapeChar escapedSize
  split
  case h_8 =>
    split
    · rw [size_append, unicode, size_hexByte]
    · rw [size_singleton]
  all_goals decide

/-- The bytes of an escaped text. -/
def escapedLength (text : String) : Nat := (text.toList.map escapedSize).sum

/-- The size of an escaped text. -/
@[simp] theorem size_escape (text : String) : size (escape text) = escapedLength text := by
  rw [escape, size_concat, List.map_map, escapedLength]
  exact congrArg List.sum (List.map_congr_left fun char _ => size_escapeChar char)

@[simp] theorem size_quoted (text : String) : size (quoted text) = size text + 2 := by
  have quote : size "\"" = 1 := by decide
  simp only [quoted, size_append, quote]
  omega

/-- A string literal is its escaped text between two quotation marks. -/
@[simp] theorem size_string (text : String) : size (string text) = escapedLength text + 2 := by
  rw [string, size_quoted, size_escape]

@[simp] theorem size_null : size null = 4 := by decide

/-- An array has its items, a comma between any two, and two brackets. -/
@[simp] theorem size_array (items : List String) :
    size (array items) = (items.map size).sum + (items.length - 1) + 2 := by
  have first : size "[" = 1 := by decide
  have last : size "]" = 1 := by decide
  simp only [array, size_append, size_commaSeparated, first, last]
  omega

/-- A member of an object has a quoted name, a colon and a value. -/
theorem size_member (field : String × String) :
    size (member field) = size field.1 + 3 + size field.2 := by
  have colon : size ":" = 1 := by decide
  simp only [member, size_append, size_quoted, colon]

/-- An object has its members, a comma between any two, and two braces. -/
@[simp] theorem size_object (fields : List (String × String)) :
    size (object fields) =
      (fields.map fun field => size field.1 + 3 + size field.2).sum +
        (fields.length - 1) + 2 := by
  have first : size "\x7b" = 1 := by decide
  have last : size "\x7d" = 1 := by decide
  have members : size ∘ member = fun field => size field.1 + 3 + size field.2 :=
    funext size_member
  simp only [object, size_append, size_commaSeparated, first, last, List.map_map,
    members, List.length_map]
  omega

end Nullspace.Base.Json
