import AieClaw.JsonValue
import AieClaw.OrderedMap
import AieClaw.SessionKeys

/-!
# Pairing tool calls with their results

Providers accept a transcript only when every turn of the assistant that makes
tool calls is followed at once by the results of these calls. The repair goes
through the messages turn by turn: a turn ends where the next one that makes
calls begins. It moves results behind their turn, makes up missing ones, and
drops those that belong to no call or to one that has a result already. When it
noticed nothing to repair, the messages are returned as they came.
-/

namespace ToolUse

open JsonValue

/-- A message, or whatever else a session file holds in its place. -/
abbrev AgentMessage := JsonValue

structure ToolCallLike where
  id : String
  name : Option String

inductive ErroredAssistantResultPolicy where
  | preserve
  | drop
  deriving DecidableEq

structure ToolUseResultPairingOptions where
  erroredAssistantResultPolicy : Option ErroredAssistantResultPolicy
  missingToolResultText : Option String

section

variable (message : AgentMessage)

/-- The role of a message. -/
def role? : Option String :=
  (member? "role" message).bind asString?

def isToolResult : Bool := role? message == some "toolResult"

/-- A text that is not empty. -/
def nonEmptyText? (member : Option JsonValue) : Option String :=
  (member.bind asString?).filter (· ≠ "")

/-- The call that a block of content is. -/
def toolCallOfBlock? (block : JsonValue) : Option ToolCallLike :=
  match nonEmptyText? (member? "id" block), member? "type" block with
  | some id, some (.string type) =>
    if type ∈ ["toolCall", "toolUse", "functionCall"] then
      some
        { id := id
          name := (member? "name" block).bind asString? }
    else none
  | _, _ => none

def extractToolCallsFromAssistant : List ToolCallLike :=
  match member? "content" message with
  | some (.array content) => content.filterMap toolCallOfBlock?
  | _ => []

def extractToolResultId : Option String :=
  (nonEmptyText? (member? "toolCallId" message)).orElse fun _ =>
    nonEmptyText? (member? "toolUseId" message)

def assistantHasToolCalls : Bool :=
  role? message == some "assistant" && !(extractToolCallsFromAssistant message).isEmpty

/-- The message with another tool name. -/
def withToolName (name : String) : AgentMessage :=
  match message with
  | .object members => .object (setMember "toolName" (.string name) members)
  | other => other

/-- `normalizeToolResultName`, without a value where the message stays. -/
def normalizedToolResult? (fallbackName : Option String) :
    Option AgentMessage :=
  let rawToolName := (member? "toolName" message).bind asString?
  match rawToolName.bind SessionKeys.normalizeOptionalString with
  | some normalizedToolName =>
    if rawToolName = some normalizedToolName then none
    else some (withToolName message normalizedToolName)
  | none =>
    match fallbackName.bind SessionKeys.normalizeOptionalString with
    | some normalizedFallback => some (withToolName message normalizedFallback)
    | none =>
      if rawToolName.isSome then some (withToolName message "unknown")
      else none

end

def makeMissingToolResult (now : ℚ) (toolCallId : String) (toolName text : Option String) :
    AgentMessage :=
  .object
    [("role", .string "toolResult"), ("toolCallId", .string toolCallId),
      ("toolName", .string (toolName.getD "unknown")),
      ("content",
        .array
          [.object
            [("type", .string "text"),
              ("text",
                .string
                  (text.getD
                    "[openclaw] missing tool result in session history; inserted synthetic error result for transcript repair."))]]),
      ("isError", .bool true), ("timestamp", .number (.finite now))]

/--
A turn of the assistant that makes tool calls, with the messages up to the next
such turn.
-/
structure Turn where
  assistant : AgentMessage
  body : List AgentMessage

/-- The messages before the first turn, and the turns. -/
def splitTurns : List AgentMessage → List AgentMessage × List Turn
  | [] => ([], [])
  | message :: rest =>
    let (leading, turns) := splitTurns rest
    if assistantHasToolCalls message then ([], { assistant := message, body := leading } :: turns)
    else (message :: leading, turns)

def Turn.toolCalls (turn : Turn) : List ToolCallLike :=
  extractToolCallsFromAssistant turn.assistant

/-- The turn ended in an error or was aborted. -/
def Turn.errored (turn : Turn) : Bool :=
  match (member? "stopReason" turn.assistant).bind asString? with
  | some stopReason => stopReason == "error" || stopReason == "aborted"
  | none => false

/-- `toolCallNamesById`: a later call of the same id replaces the name. -/
def toolCallNamesById (toolCalls : List ToolCallLike) : OrderedMap String String :=
  toolCalls.foldl
    (fun names toolCall =>
      match toolCall.name with
      | some name => names.set toolCall.id name
      | none => names)
    .empty

/-- What is found behind a turn. -/
structure SpanScan where
  spanResultsById : OrderedMap String AgentMessage
  remainder : List AgentMessage
  droppedDuplicateCount : ℕ
  droppedOrphanCount : ℕ
  changed : Bool

def SpanScan.empty : SpanScan :=
  { spanResultsById := .empty
    remainder := []
    droppedDuplicateCount := 0
    droppedOrphanCount := 0
    changed := false }

/-- One message behind a turn. -/
def scanMessage (toolCalls : List ToolCallLike) (seenToolResultIds : List String)
    (scan : SpanScan) (next : AgentMessage) : SpanScan :=
  if isToolResult next then
    match extractToolResultId next with
    | some id =>
      if id ∈ toolCalls.map ToolCallLike.id then
        if id ∈ seenToolResultIds then
          { scan with
            droppedDuplicateCount := scan.droppedDuplicateCount + 1
            changed := true }
        else
          let normalized? := normalizedToolResult? next ((toolCallNamesById toolCalls).get? id)
          { scan with
            changed := scan.changed || normalized?.isSome
            -- A second result of the span is passed over without a mark.
            spanResultsById :=
              if scan.spanResultsById.has id then scan.spanResultsById
              else scan.spanResultsById.set id (normalized?.getD next) }
      else
        { scan with
          droppedOrphanCount := scan.droppedOrphanCount + 1
          changed := true }
    | none =>
      { scan with
        droppedOrphanCount := scan.droppedOrphanCount + 1
        changed := true }
  else { scan with remainder := scan.remainder ++ [next] }

def Turn.scan (turn : Turn) (seenToolResultIds : List String) : SpanScan :=
  turn.body.foldl (scanMessage turn.toolCalls seenToolResultIds) .empty

structure RepairState where
  out : List AgentMessage
  added : List AgentMessage
  seenToolResultIds : List String
  droppedDuplicateCount : ℕ
  droppedOrphanCount : ℕ
  moved : Bool
  changed : Bool

def pushToolResult (state : RepairState) (message : AgentMessage) : RepairState :=
  match extractToolResultId message with
  | some id =>
    if id ∈ state.seenToolResultIds then
      { state with
        droppedDuplicateCount := state.droppedDuplicateCount + 1
        changed := true }
    else
      { state with
        seenToolResultIds := state.seenToolResultIds ++ [id]
        out := state.out ++ [message] }
  | none => { state with out := state.out ++ [message] }

/-- A message before the first turn. -/
def repairLeading (state : RepairState) (message : AgentMessage) : RepairState :=
  if isToolResult message then
    { state with
      droppedOrphanCount := state.droppedOrphanCount + 1
      changed := true }
  else { state with out := state.out ++ [message] }

variable (options : ToolUseResultPairingOptions)

/-- The result of a call of a turn that ended well. -/
def answerCall (now : ℚ)
    (spanResultsById : OrderedMap String AgentMessage) (state : RepairState) (call : ToolCallLike) :
    RepairState :=
  match spanResultsById.get? call.id with
  | some existing => pushToolResult state existing
  | none =>
    let missing := makeMissingToolResult now call.id call.name options.missingToolResultText
    pushToolResult { state with added := state.added ++ [missing], changed := true } missing

/-- The result of a call of a turn that did not end well. -/
def keepResult (spanResultsById : OrderedMap String AgentMessage) (state : RepairState)
    (call : ToolCallLike) : RepairState :=
  match spanResultsById.get? call.id with
  | some result => pushToolResult state result
  | none => state

def repairTurn (now : ℚ) (state : RepairState)
    (turn : Turn) : RepairState :=
  let scan := turn.scan state.seenToolResultIds
  let state :=
    { state with
      droppedDuplicateCount := state.droppedDuplicateCount + scan.droppedDuplicateCount
      droppedOrphanCount := state.droppedOrphanCount + scan.droppedOrphanCount
      changed := state.changed || scan.changed }
  let answered :=
    if turn.errored then
      if options.erroredAssistantResultPolicy = some .drop then { state with changed := true }
      else
        turn.toolCalls.foldl (keepResult scan.spanResultsById)
          { state with out := state.out ++ [turn.assistant] }
    else
      let displaced := !scan.spanResultsById.entries.isEmpty && !scan.remainder.isEmpty
      turn.toolCalls.foldl (answerCall options now scan.spanResultsById)
        { state with
          out := state.out ++ [turn.assistant]
          moved := state.moved || displaced
          changed := state.changed || displaced }
  { answered with out := answered.out ++ scan.remainder }

structure ToolUseRepairReport where
  messages : List AgentMessage
  added : List AgentMessage
  droppedDuplicateCount : ℕ
  droppedOrphanCount : ℕ
  moved : Bool

/-- The state after the last message. -/
def repairState (now : ℚ) (messages : List AgentMessage) :
    RepairState :=
  let (leading, turns) := splitTurns messages
  let start :=
    leading.foldl repairLeading
      { out := []
        added := []
        seenToolResultIds := []
        droppedDuplicateCount := 0
        droppedOrphanCount := 0
        moved := false
        changed := false }
  turns.foldl (repairTurn options now) start

def repairToolUseResultPairing (now : ℚ)
    (messages : List AgentMessage) : ToolUseRepairReport :=
  let state := repairState options now messages
  let changedOrMoved := state.changed || state.moved
  { messages := if changedOrMoved then state.out else messages
    added := state.added
    droppedDuplicateCount := state.droppedDuplicateCount
    droppedOrphanCount := state.droppedOrphanCount
    moved := changedOrMoved }

end ToolUse
