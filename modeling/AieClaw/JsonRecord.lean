import AieClaw.JsonValue
import AieClaw.OrderedMap
import Mathlib.Data.List.Induction

/-!
# Records of JSON members

An object that the program reads and writes by key is an ordered map of its
members. A value that was written as JSON text and parsed again is the same
value, except that a number that JSON text cannot hold comes back as `null`.
-/

namespace JsonValue

mutual

/-- What the text that `JSON.stringify` writes for a value parses to. -/
def stringified : JsonValue → JsonValue
  | .null => .null
  | .bool value => .bool value
  | .number value => if value.isFinite then .number value else .null
  | .string value => .string value
  | .array items => .array (stringifiedItems items)
  | .object members => .object (stringifiedMembers members)

def stringifiedItems : List JsonValue → List JsonValue
  | [] => []
  | value :: rest => stringified value :: stringifiedItems rest

def stringifiedMembers : List (String × JsonValue) → List (String × JsonValue)
  | [] => []
  | (key, value) :: rest => (key, stringified value) :: stringifiedMembers rest

end

theorem stringifiedItems_eq_map (items : List JsonValue) :
    stringifiedItems items = items.map stringified := by
  induction items with
  | nil => rfl
  | cons value rest inductionHypothesis =>
    rw [stringifiedItems, inductionHypothesis, List.map_cons]

variable (key : String) (members : List (String × JsonValue))

theorem stringifiedMembers_eq_map : stringifiedMembers members =
      members.map fun entry => (entry.1, stringified entry.2) := by
  induction members with
  | nil => rfl
  | cons entry rest inductionHypothesis =>
    rw [stringifiedMembers, inductionHypothesis, List.map_cons]

/-- The value is an object, not an array. -/
def isRecord : JsonValue → Bool
  | .object _ => true
  | _ => false

/-- The members of an object without those under a key. -/
def removeMember (key : String) (members : List (String × JsonValue)) : List (String × JsonValue) :=
  members.filter fun entry => entry.1 ≠ key

theorem member?_append_singleton (entry : String × JsonValue) :
    member? key (.object (members ++ [entry])) =
      if entry.1 = key then some entry.2
      else
        member? key (.object members) := by
  by_cases same : entry.1 = key
  · simp [member?, same]
  · simp [member?, same]

@[simp] theorem member?_removeMember : member? key (.object (removeMember key members)) = none := by
  simp [member?, removeMember, List.find?_eq_none]

theorem member?_stringified (value : JsonValue) :
    member? key (stringified value) = (member? key value).map stringified := by
  cases value with
  | object members =>
    simp [member?, stringified, stringifiedMembers_eq_map, ← List.map_reverse,
      List.find?_map, Function.comp_def, Option.map_map]
  | number value =>
    rw [stringified]
    split
    · rfl
    · rfl
  | _ => rfl

end JsonValue

/-- An object under its keys. -/
abbrev JsonRecord := OrderedMap String JsonValue

namespace JsonRecord

def ofMembers (members : List (String × JsonValue)) : JsonRecord :=
  members.foldl (fun record entry => record.set entry.1 entry.2) OrderedMap.empty

/-- The record that a value is, unless it is no object. -/
def ofJson? : JsonValue → Option JsonRecord
  | .object members => some (ofMembers members)
  | _ => none

variable (record : JsonRecord)

/-- The object of a record. -/
def toJson : JsonValue := .object record.entries

theorem get?_ofMembers (members : List (String × JsonValue)) (key : String) :
    (ofMembers members).get? key = JsonValue.member? key (.object members) := by
  induction members using List.reverseRecOn with
  | nil => rfl
  | append_singleton earlier entry inductionHypothesis =>
    have written : ofMembers (earlier ++ [entry]) = (ofMembers earlier).set entry.1 entry.2 := by
      simp [ofMembers]
    rw [written, OrderedMap.get?_set, JsonValue.member?_append_singleton, inductionHypothesis]
    simp only [eq_comm]

@[simp] theorem ofMembers_entries : ofMembers record.entries = record := by
  obtain ⟨entries, distinct⟩ := record
  induction entries using List.reverseRecOn with
  | nil => rfl
  | append_singleton earlier entry inductionHypothesis =>
    rw [List.map_append, List.map_singleton] at distinct
    obtain ⟨earlierDistinct, -, apart⟩ := List.nodup_append.mp distinct
    have absent : (ofMembers earlier).get? entry.1 = none := by
      rw [inductionHypothesis earlierDistinct, OrderedMap.get?_eq_none_iff]
      exact fun other member => apart other.1 (List.mem_map_of_mem member) entry.1 (by simp)
    apply OrderedMap.ext
    have written : ofMembers (earlier ++ [entry]) = (ofMembers earlier).set entry.1 entry.2 := by
      simp [ofMembers]
    rw [written, OrderedMap.entries_set_of_absent absent, inductionHypothesis earlierDistinct]

@[simp] theorem member?_toJson (key : String) :
    JsonValue.member? key (toJson record) = record.get? key := by
  have reversedDistinct : (record.entries.reverse.map Prod.fst).Nodup := by
    rw [List.map_reverse, List.nodup_reverse]
    exact record.distinctKeys
  let backwards : JsonRecord := ⟨record.entries.reverse, reversedDistinct⟩
  have reads : JsonValue.member? key (toJson record) = backwards.get? key := rfl
  rw [reads]
  apply Option.ext
  intro value
  rw [OrderedMap.get?_eq_some_iff, OrderedMap.get?_eq_some_iff]
  exact List.mem_reverse

theorem stringified_toJson : JsonValue.stringified (toJson record) =
      .object (JsonValue.stringifiedMembers record.entries) := by
  rw [toJson, JsonValue.stringified]

theorem get?_ofMembers_stringified (key : String) :
    (ofMembers (JsonValue.stringifiedMembers record.entries)).get? key =
      (record.get? key).map JsonValue.stringified := by
  rw [get?_ofMembers, ← stringified_toJson, JsonValue.member?_stringified, member?_toJson]

end JsonRecord
