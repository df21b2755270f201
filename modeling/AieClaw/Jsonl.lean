import AieClaw.JsoncResolve

/-!
# JSONL files

A file has one JSON value a line; blank and malformed lines are kept. The first
slot of a path names a line, by number or by position among the values, and the
others lead down its value. The resolver and the editor each do both on their
own; the edited file is rendered again.
-/

namespace Jsonl

open OcPathSyntax Jsonc

inductive LineEnding where
  | crlf
  | lf
  deriving DecidableEq

def LineEnding.text : LineEnding → String
  | .crlf => "\r\n"
  | .lf => "\n"

inductive JsonlLine where
  | value (line : ℕ) (value : JsoncValue) (raw : String)
  | blank (line : ℕ) (raw : String)
  | malformed (line : ℕ) (raw : String)

def JsonlLine.line : JsonlLine → ℕ
  | .value line _ _ => line
  | .blank line _ => line
  | .malformed line _ => line

def JsonlLine.isValue : JsonlLine → Bool
  | .value _ _ _ => true
  | _ => false

structure JsonlAst where
  raw : String
  lines : List JsonlLine
  lineEnding : Option LineEnding

section Parsing

/-- The number of line feeds that follow a carriage return. -/
def crlfCount : List Char → ℕ
  | '\r' :: '\n' :: rest => crlfCount rest + 1
  | _ :: rest => crlfCount rest
  | [] => 0

/-- The text without a line ending at its end. -/
def dropLastEnding (text : List Char) : List Char :=
  match text.reverse with
  | '\n' :: '\r' :: rest => rest.reverse
  | '\n' :: rest => rest.reverse
  | _ => text

/-- Every line ending as a line feed. -/
def normalizeEndings : List Char → List Char
  | '\r' :: '\n' :: rest => '\n' :: normalizeEndings rest
  | character :: rest => character :: normalizeEndings rest
  | [] => []

def parseLine (parseJsonc : String → Option JsoncValue) (lineText : String)
    (lineNo : ℕ) : JsonlLine :=
  if JsString.trim lineText = "" then .blank lineNo lineText
  else
    match parseJsonc lineText with
    | none => .malformed lineNo lineText
    | some root => .value lineNo root lineText

/-- Parse a file, with the parser of a line as a parameter. -/
def parseJsonl (parseJsonc : String → Option JsoncValue) (raw : String) : JsonlAst :=
  let crlf := crlfCount raw.toList
  let body := normalizeEndings (dropLastEnding raw.toList)
  { raw := raw
    lines :=
      if body = [] then []
      else
        (JsString.split (String.ofList body) '\n').zipIdx.map fun part =>
          parseLine parseJsonc part.1 (part.2 + 1)
    lineEnding :=
      if 0 < crlf ∧ raw.toList.count '\n' ≤ crlf * 2 then some .crlf
      else some .lf }

end Parsing

variable (numbers : NumberText)

section Lines

/-- The number in a line address such as `L42`. -/
def lineTarget (addr : String) : Option JsNumber :=
  match addr.toList with
  | 'L' :: digits =>
    if digits ≠ [] ∧ digits.all Char.isDigit then some (numbers.read (String.ofList digits))
    else none
  | _ => none

def hasNumber (target : JsNumber) (entry : JsonlLine) : Bool := target = .finite entry.line

def pickLine (ast : JsonlAst) (addr : String) : Option JsonlLine :=
  if addr = posFirst then ast.lines.find? JsonlLine.isValue
  else if addr = posLast then ast.lines.reverse.find? JsonlLine.isValue
  else (lineTarget numbers addr).bind fun target => ast.lines.find? (hasNumber target)

/-- The editor's own search for the line of an address. -/
def pickLineIndex (ast : JsonlAst) (addr : String) : Option ℕ :=
  if addr = posFirst then ast.lines.findIdx? JsonlLine.isValue
  else if addr = posLast then
    (ast.lines.zipIdx.reverse.find? fun entry => entry.1.isValue).map Prod.snd
  else (lineTarget numbers addr).bind fun target => ast.lines.findIdx? (hasNumber target)

end Lines

section Resolving

inductive JsonlOcPathMatch where
  | root
  | line (node : JsonlLine)
  | found (found : ValueMatch) (line : ℕ)

def resolveJsonlOcPath (ast : JsonlAst) (path : OcPath) : Result (Option JsonlOcPathMatch) :=
  match path.sectionSlot with
  | none => .ok (some .root)
  | some head =>
    match pickLine numbers ast head with
    | none => .ok none
    | some lineEntry =>
      if path.itemSlot = none ∧ path.fieldSlot = none then .ok (some (.line lineEntry))
      else
        match lineEntry with
        | .value line value _ => do
            let subs ← slotSegments (path.itemSlot.toList ++ path.fieldSlot.toList)
            .ok ((resolveJsoncValueOcPath numbers value (subs.map unquoteSeg)).map (.found · line))
        | _ => .ok none

end Resolving

section Emitting

def renderValue (guardPath : String) (walked : List String) (value : JsoncValue) : Result String :=
  match value with
  | .object entries _ => do
      let parts ← entries.attach.mapM fun entry => do
        let rendered ← renderValue guardPath (walked ++ [entry.1.key]) entry.1.value
        .ok (JsString.stringify entry.1.key ++ ":" ++ rendered)
      .ok ("\x7b" ++ ",".intercalate parts ++ "\x7d")
  | .array items _ => do
      let parts ← items.attach.zipIdx.mapM fun item =>
        renderValue guardPath (walked ++ [toString item.2]) item.1.1
      .ok ("[" ++ ",".intercalate parts ++ "]")
  | .string text _ =>
    if JsString.includesText text redactedSentinel then
      .error (.sentinel (guardPath ++ "/" ++ "/".intercalate walked))
    else .ok (JsString.stringify text)
  | .number number _ => .ok (numbers.write number)
  | .boolean flag _ => .ok (booleanText flag)
  | .null _ => .ok "null"
termination_by sizeOf value
decreasing_by
  · exact JsoncValue.sizeOf_value_lt entry.2
  · exact JsoncValue.sizeOf_item_lt item.1.2

inductive EmitMode where
  | roundtrip
  | render
  deriving DecidableEq

structure JsonlEmitOptions where
  mode : EmitMode := .roundtrip
  fileNameForGuard : Option String := none
  acceptPreExistingSentinel : Bool := true

def guardPathFor (fileName : Option String) : String :=
  match fileName with
  | some name => if name = "" then "oc://" else "oc://" ++ name
  | none => "oc://"

def emitLine (guardPath : String) (acceptPreExisting : Bool) : JsonlLine → Result String
  | .value line value _ => renderValue numbers (guardPath ++ "/L" ++ toString line) [] value
  | .blank line raw => verbatim line raw
  | .malformed line raw => verbatim line raw
where
  verbatim (line : ℕ) (raw : String) : Result String :=
    if !acceptPreExisting && JsString.includesText raw redactedSentinel then
      .error (.sentinel (guardPath ++ "/L" ++ toString line))
    else .ok raw

def emitJsonl (ast : JsonlAst) (opts : JsonlEmitOptions) : Result String :=
  let guardPath := guardPathFor opts.fileNameForGuard
  match opts.mode with
  | .roundtrip =>
    if !opts.acceptPreExistingSentinel && JsString.includesText ast.raw redactedSentinel then
      .error (.sentinel (guardPath ++ "/[raw]"))
    else .ok ast.raw
  | .render => do
      let out ← ast.lines.mapM (emitLine numbers guardPath opts.acceptPreExistingSentinel)
      .ok ((ast.lineEnding.getD .lf).text.intercalate out)

end Emitting

section Editing

inductive JsonlEditFailure where
  | unresolved
  | notAValueLine
  deriving DecidableEq

inductive JsonlEditResult where
  | ok (ast : JsonlAst)
  | failed (reason : JsonlEditFailure)

/-- The segment with a positional token replaced, where it stands for one. -/
def positionedSeg (current : JsoncValue) (seg : String) : Option String :=
  if isPositionalSeg seg then positionalForJsonc current seg
  else some seg

/-- The value with the node at the segments replaced. -/
def replaceAt : JsoncValue → List String → JsoncValue → Option JsoncValue
  | _, [], newValue => some newValue
  | current, seg :: rest, newValue =>
    if seg = "" then none
    else
      match current with
      | .object entries line =>
        (positionedSeg current seg).bind fun segNorm =>
          (entries.findIdx? fun entry =>
              entry.key = unquoteSeg segNorm).bind fun index =>
            entries[index]?.bind fun child =>
              (replaceAt child.value rest newValue).map fun replaced =>
                .object (entries.set index { child with value := replaced }) line
      | .array items line =>
        (positionedSeg current seg).bind fun segNorm =>
          (indexOf numbers segNorm items.length).bind fun index =>
            items[index]?.bind fun child =>
              (replaceAt child rest newValue).map fun replaced =>
                .array (items.set index replaced) line
      | _ => none

/-- The file with a line replaced, rendered again. -/
def finalize (ast : JsonlAst) (lineIdx : ℕ) (newLine : JsonlLine)
    (fileName : String) : Result JsonlEditResult := do
  let next : JsonlAst :=
    { raw := ""
      lines := ast.lines.set lineIdx newLine
      lineEnding := ast.lineEnding }
  let rendered ← emitJsonl numbers next { mode := .render, fileNameForGuard := some fileName }
  .ok (.ok { next with raw := rendered })

def setJsonlOcPath (ast : JsonlAst) (path : OcPath) (newValue : JsoncValue) :
    Result JsonlEditResult :=
  match path.sectionSlot with
  | none => .ok (.failed .unresolved)
  | some head =>
    match pickLineIndex numbers ast head with
    | none => .ok (.failed .unresolved)
    | some lineIdx =>
      match ast.lines[lineIdx]? with
      | none => .ok (.failed .unresolved)
      | some (.value line value raw) =>
        if path.itemSlot = none ∧ path.fieldSlot = none then
          finalize numbers ast lineIdx (.value line newValue raw) path.file
        else do
          let segments ← slotSegments (path.itemSlot.toList ++ path.fieldSlot.toList)
          match replaceAt numbers value segments newValue with
          | none => .ok (.failed .unresolved)
          | some replaced => finalize numbers ast lineIdx (.value line replaced raw) path.file
      | some _ => .ok (.failed .notAValueLine)

end Editing

end Jsonl
