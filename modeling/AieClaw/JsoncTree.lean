import AieClaw.AddressTree
import AieClaw.JsNumber
import AieClaw.JsString

/-!
# JSONC value trees

The structural tree of a JSONC file. An object keeps its entries in document
order, also when two of them have the same key; reading a key finds the first.
-/

namespace Jsonc

open AddressTree

/-- An object entry with the line of its key. -/
structure JsoncEntry (Value : Type) where
  key : String
  value : Value
  line : ℕ

/-- A value with the line of its first token, where the parser knows it. -/
inductive JsoncValue where
  | object (entries : List (JsoncEntry JsoncValue)) (line : Option ℕ)
  | array (items : List JsoncValue) (line : Option ℕ)
  | string (value : String) (line : Option ℕ)
  | number (value : JsNumber) (line : Option ℕ)
  | boolean (value : Bool) (line : Option ℕ)
  | null (line : Option ℕ)

/-- The root of a file is missing when it is empty or did not parse. -/
structure JsoncAst where
  raw : String
  root : Option JsoncValue

/-- The conversions between numbers and text of the host: `Number(text)` and `String(number)`. -/
structure NumberText where
  read : String → JsNumber
  write : JsNumber → String

/-- Conversions that only know the decimal numerals of the natural numbers. -/
def decimalNumbers : NumberText where
  read := fun text =>
    if text ≠ "" ∧ text.toList.all Char.isDigit then .finite (Nat.ofDigitChars 10 text.toList 0)
    else .nan
  write
    | .finite value => toString value.num
    | _ => "NaN"

/-- One step down a tree. -/
inductive Step where
  | key (key : String)
  | index (index : ℕ)
  deriving DecidableEq

namespace JsoncValue

def line : JsoncValue → Option ℕ
  | .object _ line => line
  | .array _ line => line
  | .string _ line => line
  | .number _ line => line
  | .boolean _ line => line
  | .null line => line

/-- The first entry with a key. -/
def entryFor? (key : String) (entries : List (JsoncEntry JsoncValue)) :
    Option (JsoncEntry JsoncValue) :=
  entries.find? fun entry => entry.key = key

/-- The child that a step leads to. -/
def child? : JsoncValue → Step → Option JsoncValue
  | .object entries _, .key key => (entryFor? key entries).map JsoncEntry.value
  | .array items _, .index index => items[index]?
  | _, _ => none

theorem sizeOf_value_lt {entries : List (JsoncEntry JsoncValue)} {line : Option ℕ}
    {entry : JsoncEntry JsoncValue} (member : entry ∈ entries) :
    sizeOf entry.value < sizeOf (JsoncValue.object entries line) := by
  have inList := List.sizeOf_lt_of_mem member
  have inEntry : sizeOf entry.value < sizeOf entry := by
    cases entry
    simp
    omega
  simp only [JsoncValue.object.sizeOf_spec]
  omega

theorem sizeOf_item_lt {items : List JsoncValue} {line : Option ℕ} {item : JsoncValue}
    (member : item ∈ items) : sizeOf item < sizeOf (JsoncValue.array items line) := by
  have inList := List.sizeOf_lt_of_mem member
  simp only [JsoncValue.array.sizeOf_spec]
  omega

end JsoncValue

/-- The value at the end of a trail of keys and indices. -/
abbrev follow := AddressTree.follow JsoncValue.child?

end Jsonc
