import AieClaw.JsNumber

/-!
# JSON values

The values that the host language parses from JSON text. An object keeps its
members in order; reading a key finds its last member, as a later member of a
parsed object replaces an earlier one.
-/

inductive JsonValue where
  | null
  | bool (value : Bool)
  | number (value : JsNumber)
  | string (value : String)
  | array (items : List JsonValue)
  | object (members : List (String × JsonValue))

namespace JsonValue

/-- The member of an object under a key. -/
def member? (key : String) : JsonValue → Option JsonValue
  | .object members => (members.reverse.find? fun entry => entry.1 = key).map Prod.snd
  | _ => none

/-- The text of a string value. -/
def asString? : JsonValue → Option String
  | .string value => some value
  | _ => none

/-- The numeric value of a number; JSON text has no other numbers. -/
def asFinite? : JsonValue → Option ℚ
  | .number (.finite value) => some value
  | _ => none

/-- The values that count as true in a condition. -/
def isTruthy : JsonValue → Bool
  | .null => false
  | .bool value => value
  | .number value => value ≠ .finite 0 && value ≠ .nan
  | .string value => value ≠ ""
  | .array _ => true
  | .object _ => true

/-- The members of an object after an assignment to a key. -/
def setMember (key : String) (value : JsonValue) :
    List (String × JsonValue) → List (String × JsonValue)
  | [] => [(key, value)]
  | entry :: rest =>
    if entry.1 = key then (key, value) :: rest
    else entry :: setMember key value rest

/-- The operand `??` falls through: a missing value or `null`. -/
def isNullish : Option JsonValue → Bool
  | none => true
  | some .null => true
  | _ => false

/-- The first operand unless it is missing or `null`. -/
def orNullish (left right : Option JsonValue) : Option JsonValue :=
  if isNullish left then right else left

end JsonValue
