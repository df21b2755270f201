import AieClaw.ConfigMergePatch
import AieClaw.JsString

/-!
# The configuration that a write persists

The change of the caller is applied to the source configuration. Includes that the
authored file holds are put back, paths that were set explicitly are filled in, and
authored parameters and the names of models are kept in order.
-/

namespace ConfigWrite

open JsonValue

def isNumericPathSegment (raw : String) : Bool := raw ≠ "" && raw.toList.all Char.isDigit

/-- The index that a numeric segment names. -/
def segmentIndex? (raw : String) : Option ℕ :=
  if isNumericPathSegment raw then raw.toNat? else none

/-- One step along a path; an array is read at an index. -/
def child? (value : JsonValue) (segment : String) : Option JsonValue :=
  match value with
  | .array items => (segmentIndex? segment).bind fun index => items[index]?
  | .object members => members.lookup segment
  | _ => none

def getPathValue (value : JsonValue) : List String → Option JsonValue
  | [] => some value
  | segment :: rest => (child? value segment).bind fun child => getPathValue child rest

/--
Set the value at a path whose parents are there. A parent that is missing stays
missing, which leaves its member undefined.
-/
def setPathValue (value : Option JsonValue) (path : List String) (nextValue : JsonValue) :
    Option JsonValue :=
  match path with
  | [] => some nextValue
  | head :: tail =>
    match value with
    | some (.array items) =>
      some (.array (((segmentIndex? head).elim items) fun index =>
        items.modify index fun item => (setPathValue (some item) tail nextValue).getD item))
    | some (.object members) =>
      some (.object ((setPathValue (members.lookup head) tail nextValue).elim
        (removeMember head members) fun child => setMember head child members))
    | other => other

/-- A list with its item at an index replaced; the gap in front is filled up. -/
def setItem (items : List JsonValue) (index : ℕ) (item : JsonValue) : List JsonValue :=
  (items ++ List.replicate (index + 1 - items.length) JsonValue.null).set index item

def setPathValueCreatingParents (value : Option JsonValue) (path : List String)
    (nextValue : JsonValue) : Option JsonValue :=
  match path with
  | [] => some nextValue
  | head :: tail =>
    match value, segmentIndex? head with
    | some (.array items), none => some (.array items)
    | some (.array items), some index =>
      some (.array ((setPathValueCreatingParents items[index]? tail nextValue).elim items
        (setItem items index)))
    | _, some index =>
      some (.array ((setPathValueCreatingParents none tail nextValue).elim [] (setItem [] index)))
    | other, none =>
      let members := (other.map membersOf).getD []
      some (.object
        ((setPathValueCreatingParents (members.lookup head) tail nextValue).elim members
          fun child => setMember head child members))

def deletePathValue (value : JsonValue) (path : List String) : JsonValue :=
  match path with
  | [] => value
  | head :: tail =>
    match value with
    | .object members =>
      (members.lookup head).elim value fun child =>
        if tail = [] then .object (removeMember head members)
        else .object (setMember head (deletePathValue child tail) members)
    | _ => value

def pathStartsWith (path start : List String) : Bool := start.isPrefixOf path

def pathsOverlap (path other : List String) : Bool :=
  pathStartsWith path other || pathStartsWith other path

def pathOverlapsAny (path : List String) (candidates : List (List String)) : Bool :=
  candidates.any (pathsOverlap path)

def includeKey : String := "$include"

def hasOwnIncludeKey (value : JsonValue) : Bool := (value.membersOf.lookup includeKey).isSome

mutual

def collectIncludeOwnedPaths : JsonValue → List String → List (List String)
  | .object members, path =>
    if (members.lookup includeKey).isSome then [path]
    else collectOfMembers members path
  | _, _ => []

def collectOfMembers : List (String × JsonValue) → List String → List (List String)
  | [], _ => []
  | (key, child) :: rest, path =>
    collectIncludeOwnedPaths child (path ++ [key]) ++ collectOfMembers rest path

end

def findOverlappingIncludeOwnedPath (rootAuthoredConfig : JsonValue) (path : List String) :
    Option (List String) :=
  (collectIncludeOwnedPaths rootAuthoredConfig []).find? (pathsOverlap path)

def isIncludeOwnedPath (rootAuthoredConfig : JsonValue) (path : List String) : Bool :=
  (collectIncludeOwnedPaths rootAuthoredConfig []).any (pathsOverlap path)

def patchTouchesPath (patch : JsonValue) : List String → Bool
  | [] => if patch.isRecord then !isEmptyRecord patch else true
  | head :: tail =>
    match patch with
    | .object members => (members.lookup head).elim false fun child => patchTouchesPath child tail
    | _ => true

def preserveUntouchedIncludes (patch rootAuthoredConfig : JsonValue) :
    JsonValue → List (List String) → Except WriteError JsonValue
  | persistedCandidate, [] => .ok persistedCandidate
  | persistedCandidate, includePath :: rest =>
    if patchTouchesPath patch includePath then .error (.includeOwned includePath)
    else
      preserveUntouchedIncludes patch rootAuthoredConfig
        (((getPathValue rootAuthoredConfig includePath).bind
          (setPathValue (some persistedCandidate) includePath)).getD persistedCandidate)
        rest

def hasPathValue (value : JsonValue) : List String → Bool
  | [] => true
  | head :: tail =>
    match value with
    | .array items =>
      ((segmentIndex? head).bind fun index => items[index]?).elim false fun item =>
        hasPathValue item tail
    | .object members =>
      !isBlockedObjectKey head &&
        (members.lookup head).elim false fun child => hasPathValue child tail
    | _ => false

mutual

/-- Fill in what the explicit value has and the current value lacks. -/
def mergeMissingExplicitValues : JsonValue → JsonValue → JsonValue
  | .object current, .object explicit => .object (mergeMissingMembers current explicit)
  | .array current, .array explicit => .array (mergeMissingItems current explicit)
  | current, _ => current

def mergeMissingMembers :
    List (String × JsonValue) → List (String × JsonValue) → List (String × JsonValue)
  | current, [] => current
  | current, (key, explicit) :: rest =>
    if isBlockedObjectKey key then mergeMissingMembers current rest
    else
      mergeMissingMembers
        (setMember key
          ((current.lookup key).elim explicit fun value =>
            mergeMissingExplicitValues value explicit)
          current)
        rest

def mergeMissingItems : List JsonValue → List JsonValue → List JsonValue
  | current, [] => current
  | [], explicit => explicit
  | value :: rest, explicit :: others =>
    mergeMissingExplicitValues value explicit :: mergeMissingItems rest others

end

/-- Write one path that was set explicitly. -/
def injectPath (valueSource next : JsonValue) (path : List String) : JsonValue :=
  (getPathValue valueSource path).elim next fun nextValue =>
    if hasPathValue next path then
      ((getPathValue next path).bind fun current =>
        setPathValue (some next) path (mergeMissingExplicitValues current nextValue)).getD next
    else (setPathValueCreatingParents (some next) path nextValue).getD next

/-- The key that only the prototype has, when a path ends at one: its value is a function. -/
def inheritedAt? (value : JsonValue) : List String → Option String
  | [] => none
  | [key] =>
    if value.isRecord && (value.membersOf.lookup key).isNone && key ∈ inheritedKeys then some key
    else none
  | segment :: rest => (child? value segment).bind fun child => inheritedAt? child rest

def injectExplicitlySetPaths (valueSource rootAuthoredConfig : JsonValue) :
    JsonValue → List (List String) → Except WriteError JsonValue
  | next, [] => .ok next
  | next, path :: rest =>
    if path = [] ∨ path.any isBlockedObjectKey then
      injectExplicitlySetPaths valueSource rootAuthoredConfig next rest
    else
      match findOverlappingIncludeOwnedPath rootAuthoredConfig path,
          inheritedAt? valueSource path with
      | some includePath, _ => .error (.includeOwned includePath)
      | none, some key =>
        -- A value that is there already needs no copy of the function.
        if hasPathValue next path then
          injectExplicitlySetPaths valueSource rootAuthoredConfig next rest
        else .error (.dataClone key)
      | none, none =>
        injectExplicitlySetPaths valueSource rootAuthoredConfig
          (injectPath valueSource next path) rest

def schemaKey : String := "$schema"

def readRootSchemaUri (value : JsonValue) : Option String :=
  (value.membersOf.lookup schemaKey).bind asString?

def preserveRootSchemaUri (rootAuthoredConfig nextConfig persistedCandidate : JsonValue) :
    JsonValue :=
  if (nextConfig.membersOf.lookup schemaKey).isSome then persistedCandidate
  else
    (readRootSchemaUri rootAuthoredConfig).elim persistedCandidate fun uri =>
      match persistedCandidate with
      | .object members => .object (setMember schemaKey (.string uri) members)
      | other => other

end ConfigWrite
