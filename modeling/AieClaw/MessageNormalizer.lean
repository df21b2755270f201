import AieClaw.InboundMetadata
import AieClaw.JsonValue

/-!
# Normalising a message for display

The chat page turns every message that it receives into one shape. A message
whose content is a text is read line by line: a line that begins with a marker
of the transcript store becomes an item of its own, and the lines between two
markers become one text item.
-/

namespace MessageNormalizer

open JsString JsonValue

/-- What the host language provides to the chat page. -/
structure Host where
  /-- `JSON.parse`; `none` when it throws. -/
  parse : String → Option JsonValue
  /-- `String` of a value that is not a string. -/
  toText : JsonValue → String
  /-- `Date.now()`. -/
  now : JsNumber

inductive ItemType where
  | text
  | image
  | imageUrl
  | toolCall
  | toolResult
  | thinking
  | approvalRequested
  | approvalResolved
  | sopState
  | skillProgress
  | other (value : JsonValue)

namespace ItemType

def isText : ItemType → Bool
  | .text => true
  | _ => false

def isToolResult : ItemType → Bool
  | .toolResult => true
  | _ => false

def ofJson (value : Option JsonValue) : ItemType :=
  match value with
  | none => .text
  | some (.string "text") => .text
  | some (.string "image") => .image
  | some (.string "image_url") => .imageUrl
  | some (.string "tool_call") => .toolCall
  | some (.string "tool_result") => .toolResult
  | some (.string "thinking") => .thinking
  | some (.string "approval_requested") => .approvalRequested
  | some (.string "approval_resolved") => .approvalResolved
  | some (.string "sop_state") => .sopState
  | some (.string "skill_progress") => .skillProgress
  | some value => if value.isTruthy then .other value else .text

end ItemType

/-- One item of a normalised message; an item has no identity of its own. -/
structure MessageContentItem where
  type : ItemType
  text : Option JsonValue := none
  thinking : Option JsonValue := none
  name : Option JsonValue := none
  args : Option JsonValue := none
  isError : Option JsonValue := none

namespace MessageContentItem

def ofText (text : String) : MessageContentItem := { type := .text, text := some (.string text) }

def ofThinking (thinking : String) : MessageContentItem :=
  { type := .thinking, thinking := some (.string thinking) }

def ofToolCall (name : String) (args : Option JsonValue) : MessageContentItem :=
  { type := .toolCall, name := some (.string name), args }

def ofArgs (type : ItemType) (args : JsonValue) : MessageContentItem := { type, args := some args }

end MessageContentItem

inductive SubType where
  | executionFollowup
  deriving DecidableEq

structure NormalizedMessage where
  role : String
  content : List MessageContentItem
  timestamp : JsNumber
  id : Option String := none
  sessionKey : Option String := none
  senderLabel : Option String := none
  toolCallId : String := ""
  toolName : String := ""
  subType : Option SubType := none

open InboundMetadata (consume dayClasses clockClasses)

/-- The start of the time stamp of a line, up to the first digit of its zone. -/
def stampClasses : List (Char → Bool) :=
  [(· == '['), Char.isUpper, Char.isLower, Char.isLower,
    isWhitespace] ++
    dayClasses ++ [isWhitespace] ++ clockClasses ++
    [isWhitespace, (· == 'G'), (· == 'M'), (· == 'T'),
      fun sign => sign == '+' || sign == '-', Char.isDigit]

/-- Remove the time stamp of a line and the white space behind it. -/
def stripTimestamp (line : String) : String :=
  match consume stampClasses line.toList with
  | none => line
  | some rest =>
    let closed := (consume [(· == ']')] rest).or (consume [Char.isDigit, (· == ']')] rest)
    match closed with
    | none => line
    | some later => trimStart (String.ofList later)

/-- A text without line terminators. -/
def onOneLine (text : String) : Option String :=
  if text.toList.any isLineTerminator then none
  else some text

/-- The text behind a marker and one blank. -/
def markedText (marker line : String) : Option String :=
  (behind (marker ++ " ") line).bind onOneLine

/-- The text behind a marker and any white space. -/
def markedPayload (marker line : String) : Option String :=
  (behind marker line).bind fun rest => onOneLine (trimStart rest)

def bracketed (start line : String) : Option (String × String) :=
  (behind start line).bind fun rest =>
    let name := rest.toList.takeWhile (· ≠ ']')
    match rest.toList.dropWhile (· ≠ ']') with
    | [] => none
    | _ :: later =>
      if name = [] then none
      else some (String.ofList name, String.ofList later)

/-- White space, and a text that is not empty. -/
def spacedText (text : String) : Option String :=
  let body := trimStart text
  if body = text then none
  else if body ≠ "" then onOneLine body
  else if text.toList.length < 2 then none
  else onOneLine (String.ofList (text.toList.drop (text.toList.length - 1)))

section

variable (host : Host)

/-- Whether the text of a tool result reports an error. -/
def reportsError (text : String) : Bool :=
  match host.parse text with
  | some (.object members) =>
    let status := ((object members).member? "status").bind asString?
    status = some "error" || (((object members).member? "error").map isTruthy).getD false
  | _ => false

/-- The members that spreading a value into an object adds. -/
def spread : JsonValue → List (String × JsonValue)
  | .object members => members
  | .array items => items.zipIdx.map fun entry => (toString entry.2, entry.1)
  | .string text =>
    text.toList.zipIdx.map fun entry => (toString entry.2, .string (String.ofList [entry.1]))
  | _ => []

/-- The arguments that the text of a tool call has. -/
def readArgs (argsRaw : String) : Option JsonValue :=
  if argsRaw = "" then none
  else some ((host.parse argsRaw).getD (.string argsRaw))

def recordItem (item : JsonValue → MessageContentItem) (line payload : String) :
    MessageContentItem :=
  ((host.parse payload).map item).getD (.ofText line)

def thinkingItem (processedLine : String) : Option MessageContentItem :=
  (markedText "[thinking]" processedLine).map fun text =>
    .ofThinking (unescapeNewlines text)

def textBlockItem (processedLine : String) : Option MessageContentItem :=
  (markedText "[text]" processedLine).map fun text => .ofText (unescapeNewlines text)

def toolCallItem (processedLine : String) : Option MessageContentItem :=
  (bracketed "[tool_use:" processedLine).bind fun found =>
    (onOneLine (trimStart found.2)).map fun argsRaw =>
      .ofToolCall found.1 (readArgs host (trim argsRaw))

def toolResultItem (processedLine : String) : Option MessageContentItem :=
  (markedPayload "[tool_result]" processedLine).map fun payload =>
    let text := unescapeNewlines payload
    { type := .toolResult, text := some (.string text),
      isError := some (.bool (reportsError host text)) }

def approvalRequestedItem (line processedLine : String) : Option MessageContentItem :=
  (markedPayload "[approval:requested]" processedLine).map
    (recordItem host (.ofArgs .approvalRequested) line)

def approvalResolvedItem (line processedLine : String) : Option MessageContentItem :=
  (markedPayload "[approval:resolved]" processedLine).map
    (recordItem host (.ofArgs .approvalResolved) line)

/-- The record of a user's own decision names its source. -/
def userResolveItem (line processedLine : String) : Option MessageContentItem :=
  let item (data : JsonValue) : MessageContentItem :=
    .ofArgs .approvalResolved (.object (setMember "_source" (.string "user-resolve") (spread data)))
  (markedPayload "[approval:user-resolve]" processedLine).map (recordItem host item line)

def sopStateItem (line processedLine : String) : Option MessageContentItem :=
  (markedPayload "[sop:state]" processedLine).map (recordItem host (.ofArgs .sopState) line)

/-- Unlike the other markers, this one is looked for behind no time stamp. -/
def skillProgressItem (line : String) : Option MessageContentItem :=
  (markedPayload "[skill:progress]" line).map (recordItem host (.ofArgs .skillProgress) line)

def imageItem (processedLine : String) : Option MessageContentItem :=
  (bracketed "[image:" processedLine).bind fun found =>
    (spacedText found.2).map fun url =>
      .ofArgs .image (.object [("url", .string url), ("mimeType", .string found.1)])

/-- The item of a line that begins with a marker. -/
def markerItem (line : String) : Option MessageContentItem :=
  let processedLine := stripTimestamp line
  thinkingItem processedLine <|> textBlockItem processedLine <|>
    toolCallItem host processedLine <|> toolResultItem host processedLine <|>
    approvalRequestedItem host line processedLine <|>
    approvalResolvedItem host line processedLine <|>
    userResolveItem host line processedLine <|>
    sopStateItem host line processedLine <|> skillProgressItem host line <|>
    imageItem processedLine

end

def flushText (textLines : List String) : List MessageContentItem :=
  let text := trim ("\n".intercalate textLines)
  if text = "" then []
  else [.ofText text]

def itemsOfLines (host : Host) : List String → List String → List MessageContentItem
  | textLines, [] => flushText textLines
  | textLines, line :: rest =>
    match markerItem host line with
    | some item => flushText textLines ++ item :: itemsOfLines host [] rest
    | none => itemsOfLines host (textLines ++ [line]) rest

def isToolRole (role : String) : Bool := role = "tool" || role = "toolResult"

variable (host : Host)

/-- The items of a content that is a text. -/
def contentOfText (role text : String) : List MessageContentItem :=
  match itemsOfLines host [] (split text '\n') with
  | [] => [.ofText text]
  | [item] =>
    if isToolRole role && item.type.isText then [{ type := .toolResult, text := item.text }]
    else [item]
  | items => items

/-- The item that one element of a content array becomes. -/
def itemOfJson (role : String) (messageIsError : Option JsonValue)
    (item : JsonValue) : Option MessageContentItem :=
  match item with
  | .null => none
  | item =>
    let text := item.member? "text"
    let hasText := (text.map isTruthy).getD false
    let ownType := ItemType.ofJson (item.member? "type")
    let type :=
      if isToolRole role && ownType.isText && hasText then .toolResult
      else ownType
    let isError := orNullish (item.member? "isError") messageIsError
    let flagged := (isError.map isTruthy).getD false
    let written := (text.map fun value => value.asString?.getD (host.toText value)).getD ""
    some
      { type, text,
        thinking := item.member? "thinking",
        name := item.member? "name",
        args := orNullish (item.member? "args") (item.member? "arguments"),
        isError :=
          if !flagged && type.isToolResult && hasText && reportsError host written then
            some (.bool true)
          else isError }

/-- Whether an element of a content array is the result of a tool. -/
def isToolContent (item : JsonValue) : Bool :=
  let type := asciiLower (((item.member? "type").bind asString?).getD "")
  type = "toolresult" || type = "tool_result"

def asyncCompleted : String := "An async command the user already approved has completed"

def isIdCharacter (character : Char) : Bool :=
  ('a' ≤ character && character ≤ 'f') || character.isDigit || character == '-'

/-- The first identity that a text names. -/
def idMatch : List Char → Option String
  | [] => none
  | character :: rest =>
    let named := (character :: rest).drop 3 |>.takeWhile isIdCharacter
    if "id=".toList.isPrefixOf (character :: rest) && !named.isEmpty then
      some (String.ofList named)
    else idMatch rest

/-- The message with the tool that a followup of an execution names. -/
def tagFollowup (members : List (String × JsonValue)) (text : String) : List (String × JsonValue) :=
  let identified :=
    match idMatch text.toList with
    | some id => setMember "toolCallId" (.string id) members
    | none => members
  let hasName :=
    (((object identified).member? "toolName").map isTruthy).getD false
  if hasName then identified
  else setMember "toolName" (.string "exec") identified

/-- A string member, or the empty string. -/
def stringMember (key : String) (message : JsonValue) : String :=
  ((message.member? key).bind asString?).getD ""

/-- The label without the channel in brackets that ends it. -/
def withoutChannel (label : String) : String :=
  match label.toList.reverse with
  | ')' :: before =>
    let inside := (before.takeWhile (· ≠ ')')).reverse
    let earlier := (before.dropWhile (· ≠ ')')).reverse
    if inside.contains '(' then
      trim (String.ofList (earlier ++ inside.takeWhile (· ≠ '(')))
    else label
  | _ => label

def readSenderLabel (message : JsonValue) : Option String :=
  let rawSenderLabel := trim (stringMember "senderLabel" message)
  if rawSenderLabel = "" then none
  else some (orElse (withoutChannel rawSenderLabel) rawSenderLabel)

/-- A text item of a user turn without the metadata of the gateway. -/
def stripItem (item : MessageContentItem) : MessageContentItem :=
  match item.text with
  | some (.string text) =>
    if item.type.isText then
      { item with
        text := some (.string (InboundMetadata.stripInboundMetadata text)) }
    else item
  | _ => item

/-- The content of a message in a role; a null item throws. -/
def readContent (role : String) (message : JsonValue) :
    Option (List MessageContentItem) :=
  match message.member? "content" with
  | some (.string text) => some (contentOfText host role text)
  | some (.array items) => items.mapM (itemOfJson host role (message.member? "isError"))
  | _ =>
    some
      (match message.member? "text" with
      | some (.string text) => [.ofText text]
      | _ => [])

/-- The message that a value becomes once its followup is tagged. -/
def normalizeTagged (ownRole : String) (subType : Option SubType)
    (message : JsonValue) : Option NormalizedMessage :=
  let toolCallId := orElse (stringMember "toolCallId" message)
    (stringMember "tool_call_id" message)
  let toolName := orElse (stringMember "toolName" message)
    (stringMember "tool_name" message)
  let hasToolContent :=
    match message.member? "content" with
    | some (.array items) => items.any isToolContent
    | _ => false
  let role :=
    if toolCallId ≠ "" || hasToolContent || toolName ≠ "" then "toolResult"
    else ownRole
  (readContent host role message).map fun content =>
    { role,
      content :=
        if role = "user" || role = "User" then content.map stripItem
        else content,
      timestamp :=
        match message.member? "timestamp" with
        | some (.number timestamp) => timestamp
        | _ => host.now,
      id := (message.member? "id").bind asString?,
      sessionKey := (message.member? "sessionKey").bind asString?,
      senderLabel := readSenderLabel message,
      toolCallId, toolName, subType }

/-- Normalise a message that is not a string; `null` throws. -/
def normalizeValue (message : JsonValue) : Option NormalizedMessage :=
  match message with
  | .null => none
  | message =>
    let role := ((message.member? "role").bind asString?).getD "unknown"
    match message, message.member? "content" with
    | .object members, some (.string text) =>
      if role = "system" && includesText text asyncCompleted then
        normalizeTagged host role (some .executionFollowup) (.object (tagFollowup members text))
      else normalizeTagged host role none message
    | _, _ => normalizeTagged host role none message

/-- Normalise a message, of which a string may be the JSON text. -/
def normalizeMessage (message : JsonValue) : Option NormalizedMessage :=
  match message with
  | .string text =>
    let raw : NormalizedMessage :=
      { role := "unknown", content := [.ofText text], timestamp := host.now }
    match host.parse text with
    | some (.object members) => some ((normalizeValue host (.object members)).getD raw)
    | some (.array items) => some ((normalizeValue host (.array items)).getD raw)
    | _ => some raw
  | message => normalizeValue host message

end MessageNormalizer
