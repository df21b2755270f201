import AieClaw.JsString
import AieClaw.JsonValue

/-!
# The text of a transcript message

How the transcript store turns the content of a message, the result of a tool
and an approval record into the text that it stores. Writing and parsing JSON
text is left to the host.
-/

namespace SessionHistory

open JsonValue

/-- What the host language provides to the transcript store. -/
structure Host where
  /-- `JSON.stringify` without indentation. -/
  stringify : JsonValue → String
  /-- `JSON.stringify` with an indentation of two blanks. -/
  stringifyIndented : JsonValue → String
  /-- `JSON.parse`; `none` when it throws. -/
  parse : String → Option JsonValue
  numberToString : JsNumber → String
  /-- The result of each call of `crypto.randomUUID`. -/
  randomUUID : ℕ → String
  /-- The day of a time in milliseconds, as `yyyy-mm-dd`. -/
  toDateStr : ℚ → String

/-- A gateway message that repeats a user turn with metadata before it. -/
def isInboundMetaMessage (content : String) : Bool :=
  JsString.includesText content "Sender (untrusted metadata):" ||
    JsString.includesText content "Conversation info (untrusted metadata):"

/-- The operand unless it is missing, null or not a string. -/
def stringMember (key fallback : String) (value : JsonValue) : String :=
  ((value.member? key).bind asString?).getD fallback

/-- The line of a tool call: its name and its arguments, if it has any. -/
def toolUseLine (stringify : JsonValue → String) (name : String) (args : Option JsonValue) :
    String :=
  let written :=
    if isNullish args then ""
    else (args.map stringify).getD ""
  if written = "" then "[tool_use:" ++ name ++ "]"
  else "[tool_use:" ++ name ++ "] " ++ written

/-- The text of a content block that is not the result of a tool. -/
def blockLine (stringify : JsonValue → String) (block : JsonValue) : String :=
  match stringMember "type" "" block with
  | "text" =>
    match (block.member? "text").bind asString? with
    | some text => "[text] " ++ JsString.escapeNewlines text
    | none => ""
  | "thinking" =>
    match (block.member? "thinking").bind asString? with
    | some thinking => "[thinking] " ++ JsString.escapeNewlines thinking
    | none => ""
  | "toolCall" =>
    toolUseLine stringify (stringMember "name" "tool" block) (block.member? "arguments")
  | "tool_use" => toolUseLine stringify (stringMember "name" "tool" block) (block.member? "input")
  | _ => ""

mutual

/-- The text of a content value: a string, or the lines of its blocks. -/
def extractContent (stringify : JsonValue → String) : JsonValue → String
  | .string text => text
  | .array blocks => JsString.joinLines (extractBlocks stringify blocks)
  | _ => ""

def extractBlocks (stringify : JsonValue → String) : List JsonValue → List String
  | [] => []
  | block :: rest => extractBlock stringify block :: extractBlocks stringify rest

/-- A tool result holds a content value of its own. -/
def extractBlock (stringify : JsonValue → String) : JsonValue → String
  | .object members =>
    if stringMember "type" "" (.object members) = "tool_result" then
      (((extractMembers stringify members).reverse.find? fun entry =>
        entry.1 = "content").map Prod.snd).getD ""
    else blockLine stringify (.object members)
  | _ => ""

/-- The members of an object, with the text of each as a content value. -/
def extractMembers (stringify : JsonValue → String) :
    List (String × JsonValue) → List (String × String)
  | [] => []
  | (key, value) :: rest => (key, extractContent stringify value) :: extractMembers stringify rest

end

inductive Role where
  | user
  | assistant
  | tool
  | approval
  | system
  | progress
  | summary
  | agent
  deriving DecidableEq

/-- The role of a message; an unknown one counts as `user`. -/
def normaliseRole (raw : Option JsonValue) : Role :=
  match raw.bind asString? with
  | some "human" => .user
  | some "user" => .user
  | some "ai" => .assistant
  | some "assistant" => .assistant
  | some "tool" => .tool
  | some "toolResult" => .tool
  | some "tool_result" => .tool
  | some "approval" => .approval
  | some "system" => .system
  | some "progress" => .progress
  | some "agent" => .agent
  | _ => .user

/-- The longest result of a tool that is stored whole. -/
def toolOutputLimit : ℕ := 120000

def truncateResult (text : String) : String :=
  if toolOutputLimit < JsString.length text then
    JsString.sliceStart text toolOutputLimit ++ "\n…(truncated)"
  else text

/-- The texts of the text items of a tool result; a null item throws. -/
def textParts : List JsonValue → Option (List String)
  | [] => some []
  | .null :: _ => none
  | item :: rest =>
    let text :=
      if stringMember "type" "" item = "text" then (item.member? "text").bind asString?
      else none
    (textParts rest).map fun parts => text.toList ++ parts

/-- The text of a tool result of which no text member is known. -/
def formatContent (host : Host) (value : JsonValue) : Option String :=
  match value.member? "content" with
  | some (.array items) =>
    (textParts items).map fun parts =>
      if parts = [] then truncateResult (host.stringifyIndented value)
      else truncateResult ("\n".intercalate parts)
  | _ => some (truncateResult (host.stringifyIndented value))

/-- The text of a tool result, of which `none` is `undefined`. -/
def formatToolResult (host : Host) : Option JsonValue → Option String
  | none => some ""
  | some .null => some ""
  | some (.string text) => some (truncateResult text)
  | some (.number value) => some (host.numberToString value)
  | some (.bool value) => some (if value then "true" else "false")
  | some value =>
    match (value.member? "text").bind asString? with
    | some text => some (truncateResult text)
    | none => formatContent host value

def imageLines (mediaPaths mediaTypes : Option JsonValue) : List String :=
  match mediaPaths with
  | some (.array paths) =>
    (paths.zipIdx).filterMap fun entry =>
      match entry.1.asString? with
      | none => none
      | some path =>
        if path = "" then none
        else
          let mime :=
            match mediaTypes with
            | some (.array types) => ((types[entry.2]?).bind asString?).getD "image/png"
            | _ => "image/png"
          some ("[image:" ++ mime ++ "] " ++ path)
  | _ => []

/-- The content of a message with the lines of its images below it. -/
def withImages (content : String) (lines : List String) : String :=
  if lines = [] then content
  else if content = "" then "\n".intercalate lines
  else content ++ "\n" ++ "\n".intercalate lines

def approvalRequested : String := "[approval:requested]"

/-- What linking an approval record to a message ends in. -/
inductive Link where
  | throws
  | unchanged
  | linked (content : String)

/-- The time at which an approval was created. -/
def createdAtMs (parsed : JsonValue) : ℚ :=
  ((parsed.member? "createdAtMs").bind asFinite?).getD 0

/--
Link an approval record to the message that it led to, unless it is linked
already or not older than the message. Reading a member of `null` throws, and
so does assigning one to a string, a number or a truth value.
-/
def linkApproval (host : Host) (messageId : ℕ) (timestamp : ℚ) (content : String) : Link :=
  match host.parse (JsString.afterFirst content ' ') with
  | none => .throws
  | some .null => .throws
  | some parsed =>
    let isLinked := ((parsed.member? "triggeredByMsgId").map isTruthy).getD false
    if isLinked || timestamp ≤ createdAtMs parsed then .unchanged
    else
      match parsed with
      | .object members =>
        .linked (approvalRequested ++ " " ++
          host.stringify (.object
            (setMember "triggeredByMsgId" (.string (host.randomUUID messageId)) members)))
      | .array items => .linked (approvalRequested ++ " " ++ host.stringify (.array items))
      | _ => .throws

end SessionHistory
