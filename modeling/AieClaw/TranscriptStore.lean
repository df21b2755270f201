import AieClaw.OrderedGroups
import AieClaw.SessionKeys
import AieClaw.TransitionSystem
import AieClaw.TranscriptContent
import Mathlib.Data.List.MinMax

/-!
# The transcript store

The write buffer of session transcripts, the state that it keeps for every
session in memory, and the two tables of the message database. A flush takes
the whole buffer and writes it in one transaction. Whether the statements of
that transaction succeed is up to the database.
-/

namespace SessionHistory

open SessionKeys TransitionSystem

structure SenderContext where
  userId : Option String
  tenantId : Option String

/-- A row of `session_messages`; tool fields are stored as they arrived. -/
structure StoredMessage where
  id : ℕ
  sessionUuid : String
  sessionKey : String
  sessionId : String
  userId : Option String
  tenantId : Option String
  role : Role
  content : String
  timestamp : ℚ
  seq : ℤ
  archivedDate : Option String
  toolCallId : Option JsonValue
  toolName : Option JsonValue
  parentSessionUuid : Option String
  sourceAgentId : Option JsonValue

/-- A row of `session_msg_statistic`, stored under its session uuid. -/
structure Statistic where
  sessionKey : String
  sessionId : String
  firstMsgAt : ℚ
  lastMsgAt : ℚ
  msgCount : ℕ
  lastSeq : ℤ
  parentSessionUuid : Option String

structure MessageDb where
  rows : List StoredMessage
  statistics : OrderedMap String Statistic

/-- What the store keeps in memory for a session. -/
structure SessionState where
  sender : SenderContext
  sessionKey : String
  sessionId : String
  lastSeq : ℤ
  firstMsgAt : ℚ
  lastMsgAt : ℚ
  msgCount : ℕ
  parentSessionUuid : Option String

structure PendingToolCall where
  sessionKey : String
  name : String
  callContent : String
  timestamp : ℚ

structure PendingAgentMark where
  sourceAgentId : String
  sourceSessionKey : String
  messageFingerprint : String
  markedAt : ℚ

/-- `accepted` lists every message that was pushed, as it was pushed. -/
structure TranscriptStore where
  maxBufferSize : ℕ
  db : MessageDb
  sessionStates : OrderedMap String SessionState
  activeSessionIds : OrderedMap String String
  buffer : List StoredMessage
  pendingToolCalls : OrderedMap String PendingToolCall
  storedRunIds : List String
  pendingAgentMarks : OrderedMap String (List PendingAgentMark)
  nextId : ℕ
  accepted : List StoredMessage

/-- Agent marks expire after 30 seconds. -/
def agentMarkTtlMs : ℚ := 30000

def defaultSessionState (sessionKey sessionId : String) : SessionState where
  sender := { userId := none, tenantId := none }
  sessionKey := sessionKey
  sessionId := sessionId
  lastSeq := 0
  firstMsgAt := 0
  lastMsgAt := 0
  msgCount := 0
  parentSessionUuid := none

/-- How the transaction of a flush ends. -/
inductive Outcome where
  | committed
  /-- Preparing a statement or `BEGIN` throws. -/
  | beginFails
  /-- A statement or `COMMIT` throws, and `ROLLBACK` succeeds. -/
  | rolledBack
  /-- A statement or `COMMIT` throws, and so does `ROLLBACK`. -/
  | rollbackFails
  deriving DecidableEq

/-- What one call reads from its surroundings. -/
structure Turn where
  now : ℚ
  /-- A statement of the back-fill throws. -/
  backfillFails : Bool
  outcome : Outcome

/-- A message before it has an id and a number. -/
structure Draft where
  sessionUuid : String
  sessionKey : String
  sessionId : String
  parentSessionUuid : Option String
  role : Role
  content : String
  timestamp : ℚ
  toolCallId : Option JsonValue
  toolName : Option JsonValue
  sourceAgentId : Option JsonValue

structure PushParams where
  sessionKey : String
  sessionId : Option String
  role : Role
  content : String
  timestamp : ℚ
  toolCallId : Option String
  toolName : Option String
  parentSessionKey : Option String
  sourceAgentId : Option String

structure SessionTranscriptUpdate where
  sessionKey : Option String
  message : Option JsonValue
  parentSessionKey : Option String

inductive ToolPhase where
  | start
  | result
  | other
  deriving DecidableEq

/-- The parameters of `recordToolEvent`; `none` is an `undefined` value. -/
structure ToolEvent where
  sessionKey : String
  toolCallId : String
  name : String
  phase : ToolPhase
  args : Option JsonValue
  result : Option JsonValue
  timestamp : ℚ

inductive ApprovalType where
  | requested
  | resolved
  | userResolve
  deriving DecidableEq

def ApprovalType.name : ApprovalType → String
  | .requested => "requested"
  | .resolved => "resolved"
  | .userResolve => "user-resolve"

inductive ProgressType where
  | sopState
  | skillProgress
  deriving DecidableEq

def ProgressType.name : ProgressType → String
  | .sopState => "sop:state"
  | .skillProgress => "skill:progress"

namespace TranscriptStore

/-- A store over a database, before it has loaded the session states. -/
def unloaded (maxBufferSize : ℕ) (db : MessageDb) : TranscriptStore where
  maxBufferSize := maxBufferSize
  db := db
  sessionStates := .empty
  activeSessionIds := .empty
  buffer := []
  pendingToolCalls := .empty
  storedRunIds := []
  pendingAgentMarks := .empty
  nextId := 0
  accepted := []

/-- The state of a session by its statistic row. -/
def stateOfStatistic (row : Statistic) : SessionState where
  sender := { userId := none, tenantId := none }
  sessionKey := row.sessionKey
  sessionId := row.sessionId
  lastSeq := row.lastSeq
  firstMsgAt := row.firstMsgAt
  lastMsgAt := row.lastMsgAt
  msgCount := row.msgCount
  parentSessionUuid := row.parentSessionUuid

/--
One row of `loadSessionStates`. The time that the row is compared with is that
of the state set just before, so only a key without a session id gets one.
-/
def loadStatistic (store : TranscriptStore) (entry : String × Statistic) : TranscriptStore :=
  let states := store.sessionStates.set entry.1 (stateOfStatistic entry.2)
  let current := (store.activeSessionIds.get? entry.2.sessionKey).getD ""
  let lastMsgAt := ((states.get? entry.1).map SessionState.lastMsgAt).getD 0
  { store with
    sessionStates := states
    activeSessionIds :=
      if current = "" || lastMsgAt < entry.2.lastMsgAt then
        store.activeSessionIds.set entry.2.sessionKey entry.2.sessionId
      else store.activeSessionIds }

def loadSessionStates (store : TranscriptStore) : TranscriptStore :=
  store.db.statistics.entries.foldl loadStatistic store

/-- `getOrInitState`, of which `parent` is the optional last argument. -/
def getOrInitState (sessionUuid sessionKey sessionId : String)
    (parent : Option (Option String)) (store : TranscriptStore) : SessionState × TranscriptStore :=
  let state :=
    match store.sessionStates.get? sessionUuid with
    | none =>
      { defaultSessionState sessionKey sessionId with
        parentSessionUuid := parent.getD none }
    | some state =>
      { state with
        parentSessionUuid := state.parentSessionUuid <|> parent.getD none }
  (state, { store with
    sessionStates := store.sessionStates.set sessionUuid state
    activeSessionIds := store.activeSessionIds.set sessionKey sessionId })

def recordSenderContext (sessionUuid sessionKey sessionId : String) (ctx : SenderContext)
    (store : TranscriptStore) : TranscriptStore :=
  let (_, touched) := store.getOrInitState sessionUuid sessionKey sessionId none
  { touched with
    sessionStates := touched.sessionStates.modify sessionUuid fun state =>
      { state with sender := ctx } }

def markNextMessageAsAgent
    (targetSessionKey sourceAgentId sourceSessionKey message : String) (now : ℚ)
    (store : TranscriptStore) : TranscriptStore :=
  let queue := (store.pendingAgentMarks.get? targetSessionKey).getD []
  { store with
    pendingAgentMarks := store.pendingAgentMarks.set targetSessionKey
      (queue ++ [{
        sourceAgentId := sourceAgentId
        sourceSessionKey := sourceSessionKey
        messageFingerprint := JsString.sliceStart message 100
        markedAt := now }]) }

def stored (draft : Draft) (id : ℕ) (state : SessionState) : StoredMessage where
  id := id
  sessionUuid := draft.sessionUuid
  sessionKey := draft.sessionKey
  sessionId := draft.sessionId
  userId := state.sender.userId
  tenantId := state.sender.tenantId
  role := draft.role
  content := draft.content
  timestamp := draft.timestamp
  seq := state.lastSeq + 1
  archivedDate := none
  toolCallId := draft.toolCallId
  toolName := draft.toolName
  parentSessionUuid := state.parentSessionUuid
  sourceAgentId := draft.sourceAgentId

/-- The session of the draft counts one more, and the message is buffered. -/
def accept (draft : Draft) (store : TranscriptStore) : TranscriptStore :=
  let (state, touched) :=
    store.getOrInitState draft.sessionUuid draft.sessionKey draft.sessionId
      (some draft.parentSessionUuid)
  let message := stored draft store.nextId state
  { touched with
    sessionStates := touched.sessionStates.set draft.sessionUuid
      { state with lastSeq := message.seq }
    buffer := touched.buffer ++ [message]
    nextId := touched.nextId + 1
    accepted := touched.accepted ++ [message] }

/-- The session uuid of a parent key, if there is one. -/
def parentUuid (parentSessionKey : Option String) : Option String :=
  (parentSessionKey.filter (· ≠ "")).map extractUuidFromKey

/-- `pushToBuffer` up to the check of the buffer's length. -/
def pushToBuffer (params : PushParams) (store : TranscriptStore) : TranscriptStore :=
  let sessionId :=
    (params.sessionId.filter (· ≠ "")).getD
      ((store.activeSessionIds.get? params.sessionKey).getD params.sessionKey)
  store.accept {
    sessionUuid := extractUuidFromKey params.sessionKey
    sessionKey := params.sessionKey
    sessionId := sessionId
    parentSessionUuid := parentUuid params.parentSessionKey
    role := params.role
    content := params.content
    timestamp := params.timestamp
    toolCallId := params.toolCallId.map JsonValue.string
    toolName := params.toolName.map JsonValue.string
    sourceAgentId := params.sourceAgentId.map JsonValue.string }

/-- A push that names nothing but the key, the role, the text and the time. -/
def plainPush (sessionKey : String) (role : Role) (content : String) (timestamp : ℚ) :
    PushParams where
  sessionKey := sessionKey
  sessionId := none
  role := role
  content := content
  timestamp := timestamp
  toolCallId := none
  toolName := none
  parentSessionKey := none
  sourceAgentId := none

/-- The message of a tool result, given the call that was pending. -/
def toolResultPush (event : ToolEvent) (pending : Option PendingToolCall) (now : ℚ)
    (resultStr : String) : PushParams where
  sessionKey := (pending.map PendingToolCall.sessionKey).getD event.sessionKey
  sessionId := none
  role := .tool
  content := "[tool_result] " ++ JsString.escapeNewlines resultStr
  timestamp :=
    if event.timestamp = 0 then (pending.map PendingToolCall.timestamp).getD now
    else event.timestamp
  toolCallId := some event.toolCallId
  toolName := some ((pending.map PendingToolCall.name).getD event.name)
  parentSessionKey := none
  sourceAgentId := none

def recordToolEvent (host : Host) (event : ToolEvent) (now : ℚ) (store : TranscriptStore) :
    TranscriptStore :=
  match event.phase with
  | .start =>
    { store with
      pendingToolCalls := store.pendingToolCalls.set event.toolCallId {
        sessionKey := event.sessionKey
        name := event.name
        callContent := toolUseLine host.stringify event.name event.args
        timestamp := event.timestamp } }
  | .result =>
    let pending := store.pendingToolCalls.get? event.toolCallId
    let cleaned := { store with
      pendingToolCalls := store.pendingToolCalls.delete event.toolCallId }
    match formatToolResult host event.result with
    | none => cleaned
    | some resultStr =>
      if resultStr = "" then cleaned
      else cleaned.pushToBuffer (toolResultPush event pending now resultStr)
  | .other => store

def recordApprovalEvent (host : Host) (sessionKey : String) (type : ApprovalType)
    (payload : JsonValue) (timestamp : ℚ) (store : TranscriptStore) : TranscriptStore :=
  store.pushToBuffer (plainPush sessionKey .approval
    ("[approval:" ++ type.name ++ "] " ++ host.stringify payload) timestamp)

def recordProgressEvent (host : Host) (sessionKey : String) (type : ProgressType)
    (payload : JsonValue) (timestamp : ℚ) (store : TranscriptStore) : TranscriptStore :=
  store.pushToBuffer (plainPush sessionKey .progress
    ("[" ++ type.name ++ "] " ++ host.stringify payload) timestamp)

/-- The run ids that remain known when one is added: the last 500. -/
def rememberRunId (runIds : List String) (runId : String) : List String :=
  let added := runIds ++ [runId]
  if 500 < added.length then added.tail else added

def recordAssistantFinal (sessionKey runId text : String) (timestamp : ℚ)
    (store : TranscriptStore) : TranscriptStore :=
  if JsString.trim text = "" then store
  else if runId ∈ store.storedRunIds then store
  else
    { store with
      storedRunIds := rememberRunId store.storedRunIds runId }.pushToBuffer
        (plainPush sessionKey .assistant text timestamp)

/-- The role, source and marks after a message has looked for its mark. -/
def consumeMark (now : ℚ) (content : String) (sourceAgentId : Option JsonValue)
    (queue : List PendingAgentMark) : Role × Option JsonValue × List PendingAgentMark :=
  let fresh := queue.dropWhile fun mark => agentMarkTtlMs < now - mark.markedAt
  match fresh.findIdx? fun mark =>
      JsString.includesText content mark.messageFingerprint with
  | none => (.user, sourceAgentId, fresh)
  | some index =>
    match fresh[index]? with
    | none => (.user, sourceAgentId, fresh)
    | some mark => (.agent, some (.string mark.sourceAgentId), fresh.eraseIdx index)

/-- Whether a user message comes from an agent; empty queues are deleted. -/
def detectAgent (now : ℚ) (sessionKey content : String) (role : Role)
    (sourceAgentId : Option JsonValue) (store : TranscriptStore) :
    Role × Option JsonValue × TranscriptStore :=
  match role, store.pendingAgentMarks.get? sessionKey with
  | .user, some (first :: later) =>
    let (finalRole, source, queue) := consumeMark now content sourceAgentId (first :: later)
    (finalRole, source, { store with
      pendingAgentMarks :=
        if queue = [] then store.pendingAgentMarks.delete sessionKey
        else store.pendingAgentMarks.set sessionKey queue })
  | _, _ => (role, sourceAgentId, store)

/-- An approval request of a session, as the database query finds it. -/
def isStoredRequest (sessionKey : String) (row : StoredMessage) : Bool :=
  row.sessionKey = sessionKey && row.role = .approval &&
    JsString.startsWith (JsString.asciiLower row.content) approvalRequested

def isBufferedRequest (sessionKey : String) (entry : StoredMessage) : Bool :=
  entry.sessionKey = sessionKey && entry.role = .approval &&
    JsString.startsWith entry.content approvalRequested

def linkNewest (host : Host) (messageId : ℕ) (timestamp : ℚ) (sessionKey : String) :
    List StoredMessage → List StoredMessage
  | [] => []
  | entry :: older =>
    if isBufferedRequest sessionKey entry then
      match linkApproval host messageId timestamp entry.content with
      | .linked content => { entry with content := content } :: older
      | _ => entry :: older
    else entry :: linkNewest host messageId timestamp sessionKey older

section

variable (host : Host)

/-- The second step of the back-fill, over all but the last entry. -/
def linkBuffered (messageId : ℕ) (timestamp : ℚ) (sessionKey : String)
    (store : TranscriptStore) : TranscriptStore :=
  match store.buffer.reverse with
  | [] => store
  | last :: older =>
    { store with
      buffer := (last :: linkNewest host messageId timestamp sessionKey older).reverse }

/-- Write the content of the row that has an id. -/
def setContent (db : MessageDb) (id : ℕ) (content : String) : MessageDb :=
  { db with
    rows := db.rows.map fun row => if row.id = id then { row with content := content } else row }

/--
Link the latest approval request of the session to the message, in the
database or else in the buffer. Of requests with equal times the first row is
the latest.
-/
def backfill (fails : Bool) (messageId : ℕ) (timestamp : ℚ)
    (sessionKey : String) (store : TranscriptStore) : TranscriptStore :=
  if fails then store
  else
    match (store.db.rows.filter (isStoredRequest sessionKey)).argmax StoredMessage.timestamp with
    | none => store.linkBuffered host messageId timestamp sessionKey
    | some row =>
      match linkApproval host messageId timestamp row.content with
      | .throws => store
      | .unchanged => store.linkBuffered host messageId timestamp sessionKey
      | .linked content => { store with db := setContent store.db row.id content }

/-- A member of the message unless it is missing or null. -/
def presentMember (key : String) (message : JsonValue) : Option JsonValue :=
  (message.member? key).filter fun value => !JsonValue.isNullish (some value)

def draftOf (update : SessionTranscriptUpdate) (sessionKey content : String) (timestamp : ℚ)
    (message : JsonValue) (role : Role) (sourceAgentId : Option JsonValue) : Draft where
  sessionUuid := extractUuidFromKey sessionKey
  sessionKey := sessionKey
  sessionId :=
    (((message.member? "sessionId").bind JsonValue.asString?).filter (· ≠ "")).getD sessionKey
  parentSessionUuid := parentUuid update.parentSessionKey
  role := role
  content := content
  timestamp := timestamp
  toolCallId := presentMember "toolCallId" message <|> presentMember "tool_call_id" message
  toolName := presentMember "toolName" message <|> presentMember "tool_name" message
  sourceAgentId := sourceAgentId

/-- Whether the content of a message is an array. -/
def hasArrayContent (message : JsonValue) : Bool :=
  match message.member? "content" with
  | some (.array _) => true
  | _ => false

/-- The content of a message: its text, and the images below it. -/
def messageContent (message : JsonValue) : String :=
  withImages
    (((message.member? "content").map (extractContent host.stringify)).getD "")
    (imageLines (message.member? "MediaPaths") (message.member? "MediaTypes"))

/-- `handleUpdate` for a message of a session, up to the length check. -/
def handleMessage (turn : Turn) (update : SessionTranscriptUpdate)
    (sessionKey : String) (message : JsonValue) (store : TranscriptStore) : TranscriptStore :=
  let content := messageContent host message
  let timestamp := ((message.member? "timestamp").bind JsonValue.asFinite?).getD turn.now
  let role := normaliseRole (message.member? "role")
  if role = .user && (isInboundMetaMessage content || hasArrayContent message)
  then store
  else
    let (finalRole, sourceAgentId, marked) :=
      store.detectAgent turn.now sessionKey content role (presentMember "sourceAgentId" message)
    let accepted :=
      marked.accept (draftOf update sessionKey content timestamp message finalRole sourceAgentId)
    if role = .assistant then
      accepted.backfill host turn.backfillFails store.nextId timestamp sessionKey
    else accepted

/-- `handleUpdate` up to the check of the buffer's length. -/
def handleUpdate (turn : Turn) (update : SessionTranscriptUpdate)
    (store : TranscriptStore) : TranscriptStore :=
  match update.message with
  | none => store
  | some .null => store
  | some message =>
    let sessionKey := update.sessionKey.getD ""
    if sessionKey = "" then store
    else store.handleMessage host turn update sessionKey message

/-- The newest of the rows of a session that are not archived. -/
def latestActive (db : MessageDb) (sessionUuid : String) : Option ℚ :=
  ((db.rows.filter fun row =>
    row.sessionUuid = sessionUuid && row.archivedDate = none).map StoredMessage.timestamp).max?

/-- The date under which the active rows of a session are archived. -/
def checkArchiveDate (toDateStr : ℚ → String)
    (sessionStates : OrderedMap String SessionState) (db : MessageDb)
    (sessionUuid newMsgDate : String) : Option String :=
  let candidateTs := ((sessionStates.get? sessionUuid).map SessionState.lastMsgAt).getD 0
  if 0 < candidateTs && toDateStr candidateTs = newMsgDate then none
  else ((latestActive db sessionUuid).map toDateStr).filter (· ≠ newMsgDate)

/-- The first operand of a loop over a group, which is never empty. -/
def reduceTimes (choose : ℚ → ℚ → ℚ) : List StoredMessage → ℚ
  | [] => 0
  | first :: rest => rest.foldl (fun best message => choose best message.timestamp) first.timestamp

def smaller (least next : ℚ) : ℚ := if next < least then next else least

def larger (most next : ℚ) : ℚ := if most < next then next else most

def reduceSeqs : List StoredMessage → ℤ
  | [] => 0
  | first :: rest =>
    rest.foldl
      (fun most message => if most < message.seq then message.seq else most)
      first.seq

/-- Archive the active rows of a session if its day has changed. -/
def archiveGroup (toDateStr : ℚ → String) (sessionStates : OrderedMap String SessionState)
    (db : MessageDb) (entry : String × List StoredMessage) : MessageDb :=
  match checkArchiveDate toDateStr sessionStates db entry.1
      (toDateStr (reduceTimes smaller entry.2)) with
  | none => db
  | some date =>
    { db with
      rows := db.rows.map fun row =>
        if row.sessionUuid = entry.1 && row.archivedDate = none then
          { row with archivedDate := some date }
        else row }

/-- The values that a group inserts into the statistics. -/
def excluded (group : List StoredMessage) : Option Statistic :=
  group.getLast?.map fun last => {
    sessionKey := last.sessionKey
    sessionId := last.sessionId
    firstMsgAt := reduceTimes smaller group
    lastMsgAt := reduceTimes larger group
    msgCount := group.length
    lastSeq := reduceSeqs group
    parentSessionUuid := last.parentSessionUuid }

/-- The row after `ON CONFLICT(sessionUuid) DO UPDATE`. -/
def updated (existing inserted : Statistic) : Statistic where
  sessionKey := inserted.sessionKey
  sessionId := inserted.sessionId
  firstMsgAt := min existing.firstMsgAt inserted.firstMsgAt
  lastMsgAt := max existing.lastMsgAt inserted.lastMsgAt
  msgCount := existing.msgCount + inserted.msgCount
  lastSeq := max existing.lastSeq inserted.lastSeq
  parentSessionUuid := existing.parentSessionUuid <|> inserted.parentSessionUuid

/-- Upsert the statistic row of a group. -/
def upsertStatistic (statistics : OrderedMap String Statistic)
    (entry : String × List StoredMessage) : OrderedMap String Statistic :=
  match excluded entry.2 with
  | none => statistics
  | some inserted =>
    match statistics.get? entry.1 with
    | none => statistics.set entry.1 inserted
    | some existing => statistics.set entry.1 (updated existing inserted)

/-- The database after the statements of the transaction. -/
def writeBatch (toDateStr : ℚ → String) (sessionStates : OrderedMap String SessionState)
    (msgs : List StoredMessage) (byUuid : OrderedMap String (List StoredMessage)) (db : MessageDb) :
    MessageDb :=
  let archived := byUuid.entries.foldl (archiveGroup toDateStr sessionStates) db
  { rows := archived.rows ++ msgs
    statistics := byUuid.entries.foldl upsertStatistic archived.statistics }

/-- The session states follow a message of a committed batch. -/
def countCommitted (store : TranscriptStore) (message : StoredMessage) : TranscriptStore :=
  let (state, touched) :=
    store.getOrInitState message.sessionUuid message.sessionKey message.sessionId none
  { touched with
    sessionStates := touched.sessionStates.set message.sessionUuid {
      state with
      firstMsgAt :=
        if state.firstMsgAt = 0 then message.timestamp
        else min state.firstMsgAt message.timestamp
      lastMsgAt := max state.lastMsgAt message.timestamp
      msgCount := state.msgCount + 1 } }

/-- Take the numbers of a group back from its session. -/
def rewindGroup (sessionStates : OrderedMap String SessionState)
    (entry : String × List StoredMessage) : OrderedMap String SessionState :=
  sessionStates.modify entry.1 fun state =>
    { state with lastSeq := state.lastSeq - entry.2.length }

/-- `persistBatch`, with the exception that it throws caught by `flush`. -/
def persistBatch (outcome : Outcome) (msgs : List StoredMessage)
    (store : TranscriptStore) : TranscriptStore :=
  let byUuid := OrderedMap.groupBy StoredMessage.sessionUuid msgs
  match outcome with
  | .beginFails => store
  | .rolledBack =>
    { store with
      sessionStates := byUuid.entries.foldl rewindGroup store.sessionStates }
  | .rollbackFails => store
  | .committed =>
    msgs.foldl countCommitted { store with
      db := writeBatch host.toDateStr store.sessionStates msgs byUuid store.db }

def flush (outcome : Outcome) (store : TranscriptStore) : TranscriptStore :=
  if store.buffer = [] then store
  else { store with buffer := [] }.persistBatch host outcome store.buffer

end

/-- A new store over the same database, after this one was stopped. -/
def reopened (store : TranscriptStore) : TranscriptStore :=
  loadSessionStates { unloaded store.maxBufferSize store.db with
    nextId := store.nextId
    accepted := store.accepted }

/-- The first store over a database without tables. -/
def initial (maxBufferSize : ℕ) : TranscriptStore :=
  loadSessionStates (unloaded maxBufferSize { rows := [], statistics := .empty })

end TranscriptStore

inductive TranscriptAction where
  | recordSenderContext
      (sessionUuid sessionKey sessionId : String) (ctx : SenderContext)
  | markNextMessageAsAgent (targetSessionKey sourceAgentId sourceSessionKey message : String)
  | recordToolEvent (event : ToolEvent)
  | recordApprovalEvent
      (sessionKey : String) (type : ApprovalType) (payload : JsonValue) (timestamp : ℚ)
  | recordProgressEvent
      (sessionKey : String) (type : ProgressType) (payload : JsonValue) (timestamp : ℚ)
  | recordAssistantFinal
      (sessionKey runId text : String) (timestamp : ℚ)
  | handleUpdate (update : SessionTranscriptUpdate)
  /-- The flush timer. -/
  | flush
  /-- `stop`, and a new store over the same database. -/
  | reopen

namespace TranscriptStore

/-- What an action does before it flushes. -/
def record (host : Host) (turn : Turn) (store : TranscriptStore) :
    TranscriptAction → TranscriptStore
  | .recordSenderContext sessionUuid sessionKey sessionId ctx =>
    store.recordSenderContext sessionUuid sessionKey sessionId ctx
  | .markNextMessageAsAgent targetSessionKey sourceAgentId sourceSessionKey message =>
    store.markNextMessageAsAgent targetSessionKey sourceAgentId sourceSessionKey message turn.now
  | .recordToolEvent event => store.recordToolEvent host event turn.now
  | .recordApprovalEvent sessionKey type payload timestamp =>
    store.recordApprovalEvent host sessionKey type payload timestamp
  | .recordProgressEvent sessionKey type payload timestamp =>
    store.recordProgressEvent host sessionKey type payload timestamp
  | .recordAssistantFinal sessionKey runId text timestamp =>
    store.recordAssistantFinal sessionKey runId text timestamp
  | .handleUpdate update => store.handleUpdate host turn update
  | .flush => store
  | .reopen => store

/-- Whether an action that has recorded goes on to flush. -/
def flushes (before recorded : TranscriptStore) : TranscriptAction → Bool
  | .flush => true
  | .reopen => true
  | _ => before.nextId < recorded.nextId && recorded.maxBufferSize ≤ recorded.buffer.length

def perform (host : Host) (turn : Turn) (store : TranscriptStore) (action : TranscriptAction) :
    TranscriptStore :=
  let recorded := store.record host turn action
  let flushed :=
    if store.flushes recorded action then recorded.flush host turn.outcome
    else recorded
  match action with
  | .reopen => flushed.reopened
  | _ => flushed

end TranscriptStore

def TranscriptStep (host : Host) : StepRelation TranscriptStore (Turn × TranscriptAction) :=
  fun source taken target => target = source.perform host taken.1 taken.2

/-- A store over an empty database. -/
def IsInitial (store : TranscriptStore) : Prop := ∃ maxBufferSize, store = .initial maxBufferSize

end SessionHistory
