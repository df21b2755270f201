import AieClaw.JsString
import AieClaw.TopLevelSplit

/-!
# The `oc://` path syntax

Parsing and formatting of workspace addresses. A path names a file and up to
three slots below it; a slot is a list of sub-segments joined by dots. Quotes,
brackets and braces protect the separators inside of them.

Texts are read by character. Unicode normalization is a parameter.
-/

namespace OcPathSyntax

open TopLevelSplit JsString

def ocScheme : String := "oc://"

def maxPathLength : ℕ := 4096

def maxSubSegmentsPerSlot : ℕ := 64

def maxTraversalDepth : ℕ := 256

def redactedSentinel : String := "__OPENCLAW_REDACTED__"

/-- A parsed path. The slots nest: each one implies the one before it. -/
structure OcPath where
  file : String
  sectionSlot : Option String
  itemSlot : Option String
  fieldSlot : Option String
  session : Option String
  deriving DecidableEq

/-- What the functions of the syntax throw. -/
inductive OcError where
  | path (message input code : String)
  | sentinel (path : String)
  deriving DecidableEq

abbrev Result (α : Type) := Except OcError α

def failIf (condition : Bool) (message input code : String) : Result Unit :=
  if condition then .error (.path message input code)
  else .ok ()

section Characters

def isControlChar (character : Char) : Bool := character.toNat ≤ 0x1F || character.toNat == 0x7F

def hasControlChar (text : String) : Bool := text.toList.any isControlChar

/-- The characters `?`, `&` and `%`. -/
def isReserved (character : Char) : Bool := ['?', '&', '%'].contains character

/-- The characters that a slot value is quoted for. -/
def needsQuoteInSlot (character : Char) : Bool :=
  ['/', '.', '[', ']', '{', '}', '?', '&', '%'].contains character || isWhitespace character

/-- The characters that a file is quoted for. -/
def needsQuoteInFile (character : Char) : Bool :=
  ['/', '[', ']', '{', '}', '?', '&', '%', '"'].contains character || isWhitespace character

/-- The text with its control characters escaped. -/
def printable (text : String) : String :=
  String.ofList
    (text.toList.flatMap fun character =>
      if isControlChar character then
        '\\' :: 'x' :: (Nat.toDigits 16 character.toNat).leftpad 2 '0'
      else [character])

end Characters

section Scanning

/-- How many brackets and braces are open, and whether a quote is. -/
structure Depth where
  brackets : ℕ
  braces : ℕ
  inQuote : Bool
  deriving DecidableEq

def Depth.top : Depth where
  brackets := 0
  braces := 0
  inQuote := false

/-- The depth after a character outside of quotes; `none` when it is negative. -/
def Depth.enter (depth : Depth) (character : Char) : Option Depth :=
  match character with
  | '[' => some { depth with brackets := depth.brackets + 1 }
  | ']' =>
    if depth.brackets = 0 then none
    else some { depth with brackets := depth.brackets - 1 }
  | '{' => some { depth with braces := depth.braces + 1 }
  | '}' =>
    if depth.braces = 0 then none
    else some { depth with braces := depth.braces - 1 }
  | _ => some depth

/--
One turn of `scanBracketAware`: the depth after the character, and whether the
callback sees the character at the top.
-/
def scanStep (depth : Depth) (character : Char) : Option (Depth × Bool) :=
  if depth.inQuote then some ({ depth with inQuote := character ≠ '"' }, false)
  else if character = '"' then some ({ depth with inQuote := true }, false)
  else
    (depth.enter character).map fun entered =>
      (entered, entered.brackets == 0 && entered.braces == 0)

/-- The loop of `splitRespectingBrackets`, with its buffer and its output. -/
def splitLoop (delimiter : Char) :
    Depth → List Char → List String → List Char → Option (List String)
  | depth, buffer, out, [] =>
    if depth = Depth.top then some (out ++ [String.ofList buffer])
    else none
  | depth, buffer, out, character :: rest =>
    match scanStep depth character with
    | none => none
    | some (entered, atTop) =>
      if atTop && character == delimiter then
        splitLoop delimiter entered [] (out ++ [String.ofList buffer]) rest
      else splitLoop delimiter entered (buffer ++ [character]) out rest

def unbalanced (context : String) : OcError :=
  .path ("Unbalanced bracket/brace in oc:// path: " ++ context) context "OC_PATH_UNBALANCED"

/-- The pieces of a text between the delimiters outside of all regions. -/
def splitRespectingBrackets (text : String) (delimiter : Char) (context : String) :
    Result (List String) :=
  match splitLoop delimiter .top [] [] text.toList with
  | some pieces => .ok pieces
  | none => .error (unbalanced context)

/-- The loop of `indexOfTopLevel`, which stops at the first occurrence. -/
def indexLoop (wanted : Char) : Depth → ℕ → List Char → Option (Option ℕ)
  | depth, _, [] => if depth = Depth.top then some none else none
  | depth, index, character :: rest =>
    match scanStep depth character with
    | none => none
    | some (entered, atTop) =>
      if atTop && character == wanted then some (some index)
      else indexLoop wanted entered (index + 1) rest

def indexOfTopLevel (text : String) (wanted : Char) : Result (Option ℕ) :=
  match indexLoop wanted .top 0 text.toList with
  | some index => .ok index
  | none => .error (unbalanced text)

/-- The scan of `validateBrackets`, which only looks for an imbalance. -/
def balancedLoop : Depth → List Char → Bool
  | depth, [] => depth = Depth.top
  | depth, character :: rest =>
    match scanStep depth character with
    | none => false
    | some (entered, _) => balancedLoop entered rest

end Scanning

section Segments

variable (seg : String)

def firstIs (character : Char) : Bool := seg.toList.head? == some character

def lastIs (character : Char) : Bool := seg.toList.getLast? == some character

/-- `slice(1, -1)`: the text without its first and last character. -/
def inner : String := String.ofList (seg.toList.drop 1).dropLast

def isQuotedSeg : Bool :=
  2 ≤ length seg && firstIs seg '"' && lastIs seg '"'

def unquoteSeg : String := if isQuotedSeg seg then inner seg else seg

/-- The text in quotes where its spelling needs them. -/
def quoteSeg (value : String) : Result String :=
  if value = "" then .ok "\"\""
  else if includes value '"' || includes value '\\' then
    .error (.path
      ("Cannot quote value containing '\"' or '\\\\': " ++ printable value)
      value "OC_PATH_UNQUOTABLE")
  else if value.toList.any needsQuoteInSlot then .ok ("\"" ++ value ++ "\"")
  else .ok value

inductive PredicateOp where
  | eq
  | ne
  | lt
  | le
  | gt
  | ge
  deriving DecidableEq

def PredicateOp.text : PredicateOp → String
  | eq => "="
  | ne => "!="
  | lt => "<"
  | le => "<="
  | gt => ">"
  | ge => ">="

/-- The operators in the order in which they are tried. -/
def predicateOps : List PredicateOp := [.ne, .le, .ge, .lt, .gt, .eq]

structure PredicateSpec where
  key : String
  op : PredicateOp
  value : String
  deriving DecidableEq

/-- The predicate whose operator stands at a position, if its value is there. -/
def predicateAt (content : List Char) (index : ℕ) : Option PredicateSpec :=
  predicateOps.findSome? fun op =>
    let rest := content.drop index
    if op.text.toList.isPrefixOf rest && index + op.text.length < content.length then
      some {
        key := String.ofList (content.take index)
        op := op
        value := String.ofList (rest.drop op.text.length) }
    else none

def parsePredicateSeg : Option PredicateSpec :=
  if length seg < 4 || !firstIs seg '[' || !lastIs seg ']' then none
  else
    let content := (inner seg).toList
    ((List.range content.length).drop 1).findSome? (predicateAt content)

def isPredicateSeg : Bool :=
  !(length seg < 4 || !firstIs seg '[' || !lastIs seg ']') &&
    ['<', '>', '='].any (includes (inner seg))

def isUnionSeg : Bool :=
  2 ≤ length seg && firstIs seg '{' && lastIs seg '}'

def parseUnionSeg : Option (List String) :=
  if !isUnionSeg seg || inner seg = "" then none
  else
    let alternatives := split (inner seg) ','
    if alternatives.contains "" then none else some alternatives

end Segments

section Validation

def isAsciiLetter (character : Char) : Bool :=
  ('a' ≤ character && character ≤ 'z') || ('A' ≤ character && character ≤ 'Z')

/-- Whether the file begins like an absolute path. -/
def isAbsoluteFile (file : String) : Bool :=
  firstIs file '/' || firstIs file '\\' ||
    match file.toList with
    | drive :: ':' :: _ => isAsciiLetter drive
    | _ => false

/-- Whether `..` is one of the pieces between slashes of either kind. -/
def hasParentSegment (file : String) : Bool :=
  (file.toList.splitOnP fun character => character == '/' || character == '\\').contains ['.', '.']

def validateFileSlot (file contextInput : String) : Result Unit := do
  failIf (isAbsoluteFile file)
    ("Absolute file slot not allowed (oc:// paths are workspace-relative): " ++
      printable contextInput)
    contextInput "OC_PATH_ABSOLUTE_FILE"
  failIf (hasParentSegment file)
    ("Parent-directory segment ('..') not allowed in oc:// file slot: " ++ printable contextInput)
    contextInput "OC_PATH_PARENT_TRAVERSAL"
  failIf (hasControlChar file)
    ("Control character in oc:// file slot: " ++ printable contextInput)
    contextInput "OC_PATH_CONTROL_CHAR"

def validateSessionSlot (session contextInput : String) : Result Unit := do
  failIf (hasControlChar session)
    ("Control character in oc:// session query: " ++ printable contextInput)
    contextInput "OC_PATH_CONTROL_CHAR"
  failIf (session.toList.any isReserved)
    ("Reserved character (`?` / `&` / `%`) in oc:// session query: " ++ printable contextInput)
    contextInput "OC_PATH_RESERVED_CHAR"

def validateBrackets (seg input : String) : Result Unit :=
  failIf (!balancedLoop .top seg.toList)
    ("Unbalanced bracket/brace in segment \"" ++ seg ++ "\": " ++ printable input)
    input "OC_PATH_UNBALANCED"

/-- The checks of a bracket segment `[...]`. -/
def validateBracketSegment (sub input : String) : Result Unit := do
  failIf (inner sub = "")
    ("Empty bracket segment \"" ++ sub ++ "\": " ++ printable input)
    input "OC_PATH_MALFORMED_PREDICATE"
  failIf
    (['<', '>', '='].any (includes (inner sub)) &&
      match parsePredicateSeg sub with
      | none => true
      | some parsed => parsed.key = "" || parsed.value = "")
    ("Malformed predicate \"" ++ sub ++
      "\" — must be `[key<op>value]` with non-empty key and value: " ++
      printable input)
    input "OC_PATH_MALFORMED_PREDICATE"

/-- The checks of a union segment. -/
def validateUnionSegment (sub input : String) : Result Unit := do
  failIf (inner sub = "")
    ("Empty union \"" ++ sub ++ "\" — must contain at least one alternative: " ++ printable input)
    input "OC_PATH_MALFORMED_UNION"
  failIf ((split (inner sub) ',').contains "")
    ("Empty alternative in union \"" ++ sub ++ "\": " ++ printable input)
    input "OC_PATH_MALFORMED_UNION"

/-- The checks of a segment that is not quoted. -/
def validateUnquotedSegment (sub input : String) : Result Unit := do
  failIf
    (!firstIs sub '[' && !firstIs sub '{' && sub.toList.any isReserved)
    ("Reserved character (`?` / `&` / `%`) in oc:// segment \"" ++ sub ++ "\": " ++ printable input)
    input "OC_PATH_RESERVED_CHAR"
  failIf
    (!firstIs sub '[' && !firstIs sub '{' && (sub ≠ trim sub || sub.toList.any isWhitespace))
    ("Whitespace in oc:// segment \"" ++ sub ++ "\": " ++ printable input)
    input "OC_PATH_WHITESPACE"
  failIf (firstIs sub '[' != lastIs sub ']')
    ("Mismatched bracket in segment \"" ++ sub ++ "\": " ++ printable input)
    input "OC_PATH_MALFORMED_PREDICATE"
  if firstIs sub '[' && lastIs sub ']' then validateBracketSegment sub input
  failIf (firstIs sub '{' != lastIs sub '}')
    ("Mismatched brace in segment \"" ++ sub ++ "\": " ++ printable input)
    input "OC_PATH_MALFORMED_UNION"
  if firstIs sub '{' && lastIs sub '}' then validateUnionSegment sub input

def validateSubSegment (sub input : String) : Result Unit := do
  failIf (sub = "")
    ("Empty dotted sub-segment in oc:// path: " ++ printable input)
    input "OC_PATH_EMPTY_SUB_SEGMENT"
  failIf (hasControlChar sub)
    ("Control character in oc:// segment \"" ++ printable sub ++ "\": " ++ printable input)
    input "OC_PATH_CONTROL_CHAR"
  if isQuotedSeg sub then
    failIf
      (includes (inner sub) '"' || includes (inner sub) '\\')
      ("Quoted segment cannot contain '\"' or '\\\\': " ++ printable sub)
      input "OC_PATH_UNQUOTABLE"
  else validateUnquotedSegment sub input

end Validation

section Parsing

/-- The value of the first non-empty `session` parameter of the query. -/
def extractSession (queryPart input : String) : Result (Option String) :=
  if queryPart = "" then .ok none
  else go (split queryPart '&')
where
  go : List String → Result (Option String)
    | [] => .ok none
    | pair :: rest =>
      match pair.toList.span (· ≠ '=') with
      | (_, []) => go rest
      | (key, _ :: value) =>
        if String.ofList key = "session" && value ≠ [] then do
          validateSessionSlot (String.ofList value) input
          .ok (some (String.ofList value))
        else go rest

/-- The checks of one segment of the path and its sub-segments. -/
def validateSegment (input seg : String) : Result Unit := do
  validateBrackets seg input
  let subs ← splitRespectingBrackets seg '.' input
  failIf (maxSubSegmentsPerSlot < subs.length)
    ("Sub-segment count exceeds " ++ toString maxSubSegmentsPerSlot ++
      " in segment \"" ++ seg ++ "\": " ++ printable input)
    input "OC_PATH_TOO_DEEP"
  subs.forM fun sub => validateSubSegment sub input

/-- The text without a byte order mark in front. -/
def withoutBom (input : String) : String :=
  if startsWith input "\uFEFF" then String.ofList (input.toList.drop 1)
  else input

/-- The input without its byte order mark, normalized and checked. -/
def readNormalized (normalize : String → String) (input : String) : Result String := do
  failIf (maxPathLength < length input)
    ("oc:// path exceeds " ++ toString maxPathLength ++ " bytes (length: " ++
      toString (length input) ++ ")")
    (sliceStart input 80 ++ "…") "OC_PATH_TOO_LONG"
  let normalized := normalize (withoutBom input)
  failIf (maxPathLength < length normalized)
    ("oc:// path exceeds " ++ toString maxPathLength ++
      " bytes after NFC (length: " ++
      toString (length normalized) ++ ")")
    (sliceStart input 80 ++ "…") "OC_PATH_TOO_LONG"
  failIf (!startsWith normalized ocScheme)
    ("Missing oc:// scheme: " ++ printable input) input
    "OC_PATH_MISSING_SCHEME"
  failIf (hasControlChar normalized)
    ("Control character in oc:// path: " ++ printable input) input
    "OC_PATH_CONTROL_CHAR"
  .ok normalized

/-- The path part and the query of the text behind the scheme. -/
def splitQuery (afterScheme : String) : Result (String × String) := do
  let queryIndex ← indexOfTopLevel afterScheme '?'
  match queryIndex with
  | none => .ok (afterScheme, "")
  | some index =>
    .ok (String.ofList (afterScheme.toList.take index),
      String.ofList (afterScheme.toList.drop (index + 1)))

/-- The checked segments of the path part. -/
def readSegments (pathPart input : String) : Result (List String) := do
  failIf (pathPart = "") ("Empty oc:// path: " ++ printable input) input "OC_PATH_EMPTY"
  let segments ← splitRespectingBrackets pathPart '/' input
  segments.forM fun seg =>
    failIf (seg = "")
      ("Empty segment in oc:// path: " ++ printable input) input
      "OC_PATH_EMPTY_SEGMENT"
  failIf (4 < segments.length)
    ("Too many segments in oc:// path (max 4): " ++ printable input) input
    "OC_PATH_TOO_DEEP"
  segments.forM (validateSegment input)
  .ok segments

def parseOcPath (normalize : String → String) (input : String) : Result OcPath := do
  let normalized ← readNormalized normalize input
  let (pathPart, queryPart) ← splitQuery (String.ofList (normalized.toList.drop ocScheme.length))
  let segments ← readSegments pathPart input
  let file := unquoteSeg (segments.headD "")
  validateFileSlot file input
  let session ← extractSession queryPart input
  .ok {
    file := file
    sectionSlot := segments[1]?
    itemSlot := segments[2]?
    fieldSlot := segments[3]?
    session := session }

end Parsing

section Formatting

def formatSubSegment (sub : String) : Result String :=
  if isQuotedSeg sub then .ok sub
  else if firstIs sub '[' && lastIs sub ']' then .ok sub
  else if firstIs sub '{' && lastIs sub '}' then .ok sub
  else quoteSeg sub

def validateSubForFormat (file slotName sub : String) : Result Unit := do
  failIf (sub = "")
    ("Empty dotted sub-segment in OcPath." ++ slotName) file
    "OC_PATH_EMPTY_SUB_SEGMENT"
  failIf (hasControlChar sub)
    ("Control character in OcPath." ++ slotName ++ " sub-segment \"" ++ printable sub ++ "\"")
    file "OC_PATH_CONTROL_CHAR"

def formatSlot (file slot slotName : String) : Result String := do
  let subs ← splitRespectingBrackets slot '.' slot
  subs.forM (validateSubForFormat file slotName)
  let formatted ← subs.mapM formatSubSegment
  .ok (".".intercalate formatted)

/-- A slot as it is appended to the path, with its slash. -/
def formatOptionalSlot (file : String) (slot : Option String) (slotName : String) : Result String :=
  match slot with
  | none => .ok ""
  | some slot => do
      let formatted ← formatSlot file slot slotName
      .ok ("/" ++ formatted)

def formatFile (file : String) : Result String :=
  if file.toList.any needsQuoteInFile then quoteSeg file else .ok file

def formatSession (path : OcPath) : Result String :=
  match path.session with
  | none => .ok ""
  | some session => do
      validateSessionSlot session path.file
      .ok ("?session=" ++ session)

def formatOcPath (path : OcPath) : Result String := do
  failIf (path.file = "") "oc:// path requires a file" "" "OC_PATH_FILE_REQUIRED"
  validateFileSlot path.file path.file
  failIf (path.itemSlot.isSome && path.sectionSlot.isNone)
    "Structural nesting violation: item requires section" path.file
    "OC_PATH_NESTING"
  failIf (path.fieldSlot.isSome && path.itemSlot.isNone)
    "Structural nesting violation: field requires item" path.file
    "OC_PATH_NESTING"
  let file ← formatFile path.file
  let sectionText ← formatOptionalSlot path.file path.sectionSlot "section"
  let itemText ← formatOptionalSlot path.file path.itemSlot "item"
  let fieldText ← formatOptionalSlot path.file path.fieldSlot "field"
  let sessionText ← formatSession path
  let out := ocScheme ++ file ++ sectionText ++ itemText ++ fieldText ++ sessionText
  failIf (maxPathLength < length out)
    ("Formatted oc:// exceeds " ++ toString maxPathLength ++
      " bytes (length: " ++ toString (length out) ++ ")")
    (sliceStart out 80 ++ "…") "OC_PATH_TOO_LONG"
  if includesText out redactedSentinel then .error (.sentinel out)
  else .ok out

end Formatting

end OcPathSyntax
