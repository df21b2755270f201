import AieClaw.JsNumber
import AieClaw.OcPathFormat

/-!
# Resolving a path, whatever the kind of the file

The part of the resolver that every kind of file shares: patterns are refused,
a last slot that begins with `+` is an insertion, and every other path goes to
the resolver of the kind. Positional tokens are read against a container.
-/

namespace OcPathSyntax

section Positional

def posFirst : String := "$first"

def posLast : String := "$last"

def isPositionalSeg (seg : String) : Bool := seg = posFirst || seg = posLast

inductive PositionalContainer where
  | indexed (size : ℕ)
  | keyed (keys : List String)

/-- The index or the key that a positional token stands for. -/
def resolvePositionalSeg (seg : String) : PositionalContainer → Option String
  | .indexed 0 => none
  | .indexed (size + 1) =>
    if seg = posFirst then some "0"
    else if seg = posLast then some (toString size)
    else none
  | .keyed keys =>
    if seg = posFirst then keys.head?
    else if seg = posLast then keys.getLast?
    else none

end Positional

section Patterns

def wildcardSingle : String := "*"

def wildcardRecursive : String := "**"

/-- Whether a sub-segment can match more than one node. -/
def isPatternSub (sub : String) : Bool :=
  sub = wildcardSingle || sub = wildcardRecursive || isUnionSeg sub || isPredicateSeg sub

/-- Whether a slot of the path has a sub-segment that is a pattern. -/
def isPattern (path : OcPath) : Result Bool := go path.slots
where
  go : List String → Result Bool
    | [] => .ok false
    | slot :: rest => do
        let subs ← splitRespectingBrackets slot '.' slot
        if subs.any isPatternSub then .ok true
        else go rest

end Patterns

section Insertions

inductive InsertionMarker where
  | append
  | keyed (key : String)
  | indexed (digits : String)

structure InsertionInfo where
  parentPath : OcPath
  marker : InsertionMarker

def isDigits (text : String) : Bool := text ≠ "" && text.toList.all Char.isDigit

def insertionMarker (rest : String) : InsertionMarker :=
  if rest = "" then .append
  else if isDigits rest then .indexed rest
  else .keyed rest

/-- The path without its last slot. -/
def withoutLastSlot (path : OcPath) : OcPath :=
  match path.fieldSlot, path.itemSlot with
  | some _, _ => { path with fieldSlot := none }
  | none, some _ => { path with itemSlot := none }
  | none, none => { path with sectionSlot := none }

/-- The insertion that a path stands for: its last slot begins with `+`. -/
def detectInsertion (path : OcPath) : Option InsertionInfo :=
  match path.slots.getLast? with
  | none => none
  | some last =>
    if firstIs last '+' then
      some {
        parentPath := withoutLastSlot path
        marker := insertionMarker (String.ofList (last.toList.drop 1)) }
    else none

end Insertions

section Matches

inductive LeafType where
  | string
  | number
  | boolean
  | null
  deriving DecidableEq

inductive NodeDescriptor where
  | mdBlock
  | mdItem
  | jsoncObject
  | jsoncArray
  | jsonlLine
  deriving DecidableEq

inductive ContainerKind where
  | mdSection
  | mdFile
  | mdFrontmatter
  | jsoncObject
  | jsoncArray
  | jsonlFile
  deriving DecidableEq

/-- What a path resolves to, in the shape that all kinds share. -/
inductive OcMatch where
  | root (line : ℕ)
  | leaf (valueText : String) (leafType : LeafType) (line : ℕ)
  | node (descriptor : NodeDescriptor) (line : ℕ)
  | insertionPoint (container : ContainerKind) (line : ℕ)
  deriving DecidableEq

/--
`resolveOcPath`: the path is refused, an insertion, or resolved by the kind of
the file.
-/
def resolveWith (resolveInsertion : InsertionInfo → Result (Option OcMatch))
    (resolveKind : OcPath → Result (Option OcMatch)) (path : OcPath) : Result (Option OcMatch) := do
  let wildcard ← isPattern path
  if wildcard then
    let text ← formatOcPath path
    .error (.path
      ("resolveOcPath received a wildcard pattern; use findOcPaths instead: " ++ text)
      text "OC_PATH_WILDCARD_IN_RESOLVE")
  else
    match detectInsertion path with
    | some insertion => resolveInsertion insertion
    | none => resolveKind path

end Matches

end OcPathSyntax
