import AieClaw.JsoncTree
import AieClaw.OcPathUniversal

/-!
# Resolving a path in a JSONC tree

The slots of a path form one list of segments, which is followed from the root.
A segment is unquoted before it is read, so its spelling can also be that of a
positional token.
-/

namespace Jsonc

open OcPathSyntax

variable (numbers : NumberText)

/-- The container that a positional token is read against. -/
def positionalContainer : JsoncValue → Option PositionalContainer
  | .object entries _ => some (.keyed (entries.map JsoncEntry.key))
  | .array items _ => some (.indexed items.length)
  | _ => none

def positionalForJsonc (node : JsoncValue) (seg : String) : Option String :=
  (positionalContainer node).bind (resolvePositionalSeg seg)

/-- `Number(seg)` where it is an index below a size. -/
def indexOf (seg : String) (size : ℕ) : Option ℕ :=
  match numbers.read seg with
  | .finite value =>
    if value.den = 1 ∧ 0 ≤ value.num ∧ value.num.toNat < size then some value.num.toNat
    else none
  | _ => none

/-- The segment with a positional token replaced by what it stands for. -/
def concreteSeg (node : JsoncValue) (seg : String) : String :=
  if isPositionalSeg seg then (positionalForJsonc node seg).getD seg
  else seg

inductive ValueMatch where
  | value (node : JsoncValue) (path : List String)
  | objectEntry (node : JsoncEntry JsoncValue) (path : List String)

/-- The value that was found. -/
def ValueMatch.node : ValueMatch → JsoncValue
  | .value found _ => found
  | .objectEntry entry _ => entry.value

/-- The loop of `resolveJsoncValueOcPath`. -/
def resolveLoop :
    JsoncValue → Option (JsoncEntry JsoncValue) → List String → List String → Option ValueMatch
  | current, lastEntry, walked, [] =>
    match lastEntry with
    | some entry => some (.objectEntry entry walked)
    | none => some (.value current walked)
  | current, _, walked, seg :: rest =>
    if seg = "" then none
    else
      let concrete := concreteSeg current seg
      match current with
      | .object entries _ =>
        match JsoncValue.entryFor? concrete entries with
        | none => none
        | some entry => resolveLoop entry.value (some entry) (walked ++ [concrete]) rest
      | .array items _ =>
        match indexOf numbers concrete items.length with
        | none => none
        | some index =>
          match items[index]? with
          | none => none
          | some item => resolveLoop item none (walked ++ [concrete]) rest
      | _ => none

def resolveJsoncValueOcPath (root : JsoncValue) (segments : List String) : Option ValueMatch :=
  resolveLoop numbers root none [] segments

/-- The segments of the slots of a path. -/
def slotSegments : List String → Result (List String)
  | [] => .ok []
  | slot :: rest => do
      let subs ← splitRespectingBrackets slot '.' slot
      let others ← slotSegments rest
      .ok (subs ++ others)

inductive JsoncOcPathMatch where
  | root
  | found (found : ValueMatch)

def resolveJsoncOcPath (ast : JsoncAst) (path : OcPath) : Result (Option JsoncOcPathMatch) :=
  match ast.root with
  | none => .ok none
  | some root => do
      let subs ← slotSegments path.slots
      if subs = [] then .ok (some .root)
      else .ok ((resolveJsoncValueOcPath numbers root (subs.map unquoteSeg)).map .found)

def booleanText (value : Bool) : String := if value then "true" else "false"

def jsoncValueToMatch (value : JsoncValue) (line : ℕ) : OcMatch :=
  match value with
  | .object _ _ => .node .jsoncObject line
  | .array _ _ => .node .jsoncArray line
  | .string text _ => .leaf text .string line
  | .number number _ => .leaf (numbers.write number) .number line
  | .boolean flag _ => .leaf (booleanText flag) .boolean line
  | .null _ => .leaf "null" .null line

def resolveJsoncToUniversal (ast : JsoncAst) (path : OcPath) : Result (Option OcMatch) := do
  let found ← resolveJsoncOcPath numbers ast path
  .ok (found.map fun
    | .root => .root 1
    | .found (.objectEntry entry _) => jsoncValueToMatch numbers entry.value entry.line
    | .found (.value node _) => jsoncValueToMatch numbers node (node.line.getD 1))

def resolveJsoncInsertion (ast : JsoncAst) (info : InsertionInfo) : Result (Option OcMatch) := do
  let found ← resolveJsoncOcPath numbers ast info.parentPath
  .ok (found.bind fun
    | .root => ast.root.bind container
    | .found (.objectEntry entry _) => container entry.value
    | .found (.value node _) => container node)
where
  container : JsoncValue → Option OcMatch
    | .object _ line => some (.insertionPoint .jsoncObject (line.getD 1))
    | .array _ line => some (.insertionPoint .jsoncArray (line.getD 1))
    | _ => none

/-- `resolveOcPath` for a JSONC file. -/
def resolveOcPath (ast : JsoncAst) (path : OcPath) : Result (Option OcMatch) :=
  resolveWith (resolveJsoncInsertion numbers ast) (resolveJsoncToUniversal numbers ast) path

end Jsonc
