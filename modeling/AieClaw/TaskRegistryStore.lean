import AieClaw.JsonValue
import AieClaw.OrderedMap
import AieClaw.TaskRecord

/-!
# The tables of the task registry

A task is stored as one row, a delivery state as another; both tables have the
identity of the task as their key. A missing member is stored as `null`, and an
empty text is read back as missing.
-/

namespace Tasks

/-- What the host and the channels provide to the task registry. -/
structure TaskHost where
  /-- Whether the n-th write to the store of the tasks succeeds. -/
  taskStore : ℕ → Bool
  /-- Whether the n-th write to the store of the flows succeeds. -/
  flowStore : ℕ → Bool
  /-- `JSON.stringify`. -/
  stringify : JsonValue → String
  /-- `JSON.parse`; `none` when it throws. -/
  parse : String → Option JsonValue
  /-- A delivery context by the rules of the channels; `none` when it is void. -/
  normalizeDeliveryContext : DeliveryContext → Option DeliveryContext
  /-- The agent that a session key names. -/
  parseAgentSessionKey : String → Option String
  isDeliverableMessageChannel : String → Bool
  shouldRouteCompletionThroughRequesterSession : Option String → Bool
  /-- A text made safe to show, in the context of an error or not. -/
  sanitizeTaskStatusText : Option String → Bool → String
  formatTaskStatusTitleText : String → String

/-- The columns of a task; a nullable column is an option. -/
structure TaskRegistryRow where
  runtime : TaskRuntime
  taskKind : Option String
  sourceId : Option String
  requesterSessionKey : Option String
  ownerKey : String
  scopeKind : TaskScopeKind
  childSessionKey : Option String
  parentFlowId : Option String
  parentTaskId : Option String
  agentId : Option String
  runId : Option String
  label : Option String
  task : String
  status : TaskStatus
  deliveryStatus : TaskDeliveryStatus
  notifyPolicy : TaskNotifyPolicy
  createdAt : ℚ
  startedAt : Option ℚ
  endedAt : Option ℚ
  lastEventAt : Option ℚ
  cleanupAfter : Option ℚ
  error : Option String
  progressSummary : Option String
  terminalSummary : Option String
  terminalOutcome : Option TaskTerminalOutcome

structure TaskDeliveryStateRow where
  requesterOriginJson : Option String
  lastNotifiedEventAt : Option ℚ

/-- A column of text as a member: an empty text is missing. -/
def columnText (column : Option String) : Option String := column.filter (· ≠ "")

def rowToTaskRecord (taskId : String) (row : TaskRegistryRow) : TaskRecord where
  taskId := taskId
  runtime := row.runtime
  taskKind := columnText row.taskKind
  sourceId := columnText row.sourceId
  requesterSessionKey :=
    if row.scopeKind = .system then ""
    else JsString.orElse (JsString.trim (row.requesterSessionKey.getD "")) row.ownerKey
  ownerKey := row.ownerKey
  scopeKind := row.scopeKind
  childSessionKey := columnText row.childSessionKey
  parentFlowId := columnText row.parentFlowId
  parentTaskId := columnText row.parentTaskId
  agentId := columnText row.agentId
  runId := columnText row.runId
  label := columnText row.label
  task := row.task
  status := row.status
  deliveryStatus := row.deliveryStatus
  notifyPolicy := row.notifyPolicy
  createdAt := row.createdAt
  startedAt := row.startedAt
  endedAt := row.endedAt
  lastEventAt := row.lastEventAt
  cleanupAfter := row.cleanupAfter
  error := columnText row.error
  progressSummary := columnText row.progressSummary
  terminalSummary := columnText row.terminalSummary
  terminalOutcome := row.terminalOutcome

def bindTaskRecordBase (record : TaskRecord) : TaskRegistryRow where
  runtime := record.runtime
  taskKind := record.taskKind
  sourceId := record.sourceId
  requesterSessionKey :=
    some (if record.scopeKind = .system then "" else record.requesterSessionKey)
  ownerKey := record.ownerKey
  scopeKind := record.scopeKind
  childSessionKey := record.childSessionKey
  parentFlowId := record.parentFlowId
  parentTaskId := record.parentTaskId
  agentId := record.agentId
  runId := record.runId
  label := record.label
  task := record.task
  status := record.status
  deliveryStatus := record.deliveryStatus
  notifyPolicy := record.notifyPolicy
  createdAt := record.createdAt
  startedAt := record.startedAt
  endedAt := record.endedAt
  lastEventAt := record.lastEventAt
  cleanupAfter := record.cleanupAfter
  error := record.error
  progressSummary := record.progressSummary
  terminalSummary := record.terminalSummary
  terminalOutcome := record.terminalOutcome

def RouteThreadId.toJson : RouteThreadId → JsonValue
  | .text value => .string value
  | .number value => .number (.finite value)

/-- The members that a delivery context has, as JSON. -/
def DeliveryContext.toJson (context : DeliveryContext) : JsonValue :=
  .object
    ([("channel", context.channel.map .string),
      ("to", context.recipient.map .string),
      ("accountId", context.accountId.map .string),
      ("threadId", context.threadId.map RouteThreadId.toJson)].filterMap
        fun member => member.2.map fun value => (member.1, value))

def RouteThreadId.ofJson : JsonValue → Option RouteThreadId
  | .string value => some (.text value)
  | .number (.finite value) => some (.number value)
  | _ => none

/-- The members of a context that a JSON value has. -/
def DeliveryContext.ofJson (parsed : JsonValue) : DeliveryContext where
  channel := (parsed.member? "channel").bind JsonValue.asString?
  recipient := (parsed.member? "to").bind JsonValue.asString?
  accountId := (parsed.member? "accountId").bind JsonValue.asString?
  threadId := (parsed.member? "threadId").bind RouteThreadId.ofJson

theorem DeliveryContext.ofJson_toJson (context : DeliveryContext) :
    DeliveryContext.ofJson context.toJson = context := by
  rcases context with ⟨channel, recipient, accountId, threadId⟩
  have thread (value : RouteThreadId) : RouteThreadId.ofJson value.toJson = some value := by
    cases value <;> rfl
  cases channel <;> cases recipient <;> cases accountId <;> cases threadId <;>
    simp [ofJson, toJson, JsonValue.member?, JsonValue.asString?, thread]

/-- The context that a JSON text holds, by the rules of the channels. -/
def parseDeliveryContextJson (host : TaskHost) (raw : Option String) : Option DeliveryContext :=
  match raw with
  | none => none
  | some text =>
    if JsString.trim text = "" then none
    else
      match host.parse text with
      | some (.object members) => host.normalizeDeliveryContext (.ofJson (.object members))
      | _ => none

def rowToTaskDeliveryState (host : TaskHost) (taskId : String) (row : TaskDeliveryStateRow) :
    TaskDeliveryState where
  taskId := taskId
  requesterOrigin := parseDeliveryContextJson host row.requesterOriginJson
  lastNotifiedEventAt := row.lastNotifiedEventAt

def bindTaskDeliveryState (host : TaskHost) (state : TaskDeliveryState) : TaskDeliveryStateRow where
  requesterOriginJson := state.requesterOrigin.map fun origin => host.stringify origin.toJson
  lastNotifiedEventAt := state.lastNotifiedEventAt

/-- The two tables, each with the identity of a task as its key. -/
structure TaskStore where
  taskRuns : OrderedMap String TaskRegistryRow
  deliveryStates : OrderedMap String TaskDeliveryStateRow

namespace TaskStore

def empty : TaskStore where
  taskRuns := OrderedMap.empty
  deliveryStates := OrderedMap.empty

/-- Write a task and its delivery state, or the lack of one, as one. -/
def upsertTaskWithDeliveryState (host : TaskHost) (store : TaskStore) (task : TaskRecord)
    (deliveryState : Option TaskDeliveryState) : TaskStore where
  taskRuns := store.taskRuns.set task.taskId (bindTaskRecordBase task)
  deliveryStates :=
    match deliveryState with
    | some state => store.deliveryStates.set state.taskId (bindTaskDeliveryState host state)
    | none => store.deliveryStates.delete task.taskId

def upsertDeliveryState (host : TaskHost) (store : TaskStore) (state : TaskDeliveryState) :
    TaskStore :=
  { store with
    deliveryStates := store.deliveryStates.set state.taskId (bindTaskDeliveryState host state) }

def deleteTaskWithDeliveryState (store : TaskStore) (taskId : String) : TaskStore where
  taskRuns := store.taskRuns.delete taskId
  deliveryStates := store.deliveryStates.delete taskId

def deleteDeliveryState (store : TaskStore) (taskId : String) : TaskStore :=
  { store with deliveryStates := store.deliveryStates.delete taskId }

end TaskStore

end Tasks
