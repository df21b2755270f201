import AieClaw.ConfigPersist

/-!
# Unset paths

A write removes the paths that its caller names, and those that the program manages
itself. An object that is left empty goes with its last member.
-/

namespace ConfigWrite

open JsonValue

/-- What removing a path makes of a value. -/
inductive Unset where
  | unchanged
  | changed (value : JsonValue)
  /-- The object is left without members. -/
  | pruned

def unsetMembers (members : List (String × JsonValue)) : Unset :=
  if members.isEmpty then .pruned else .changed (.object members)

/-- What removing a path in an item makes of the list. -/
def Unset.inItem (items : List JsonValue) (index : ℕ) : Unset → Unset
  | .unchanged => .unchanged
  | .pruned => .changed (.array (items.eraseIdx index))
  | .changed value => .changed (.array (items.set index value))

/-- What removing a path in a member makes of the object. -/
def Unset.inMember (members : List (String × JsonValue)) (key : String) : Unset → Unset
  | .unchanged => .unchanged
  | .pruned => unsetMembers (removeMember key members)
  | .changed value => unsetMembers (setMember key value members)

def unsetPathForWriteAt : List String → JsonValue → Unset
  | [], _ => .unchanged
  | segment :: rest, .array items =>
    (segmentIndex? segment).elim .unchanged fun index =>
      (items[index]?).elim .unchanged fun child =>
        if rest.isEmpty then .changed (.array (items.eraseIdx index))
        else (unsetPathForWriteAt rest child).inItem items index
  | segment :: rest, .object members =>
    if isBlockedObjectKey segment then .unchanged
    else
      (members.lookup segment).elim .unchanged fun child =>
        if rest.isEmpty then unsetMembers (removeMember segment members)
        else (unsetPathForWriteAt rest child).inMember members segment
  | _ :: _, _ => .unchanged

/-- A root that is no object any more is not taken. -/
def unsetPathForWrite (root : JsonValue) (path : List String) : JsonValue :=
  match unsetPathForWriteAt path root with
  | .unchanged => root
  | .pruned => .object []
  | .changed value => if value.isRecord then value else root

def applyUnsetPathsForWrite (root : JsonValue) (unsetPaths : List (List String)) : JsonValue :=
  unsetPaths.foldl unsetPathForWrite root

def managedConfigUnsetPaths : List (List String) := [["plugins", "installs"]]

def addUnsetPath (paths : List (List String)) (path : List String) : List (List String) :=
  if path = [] ∨ path ∈ paths then paths else paths ++ [path]

def resolveManagedUnsetPathsForWrite (unsetPaths : List (List String)) : List (List String) :=
  unsetPaths.foldl addUnsetPath managedConfigUnsetPaths

end ConfigWrite
