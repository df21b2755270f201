import AieClaw.SystemRunBinding

/-!
# The approvals that a gateway holds

Requests of approvals are kept under their ids until a grace period after they were
resolved. An entry is an object of its own: an id may be used again when its entry is
gone. An entry also keeps what its record forgets: the environment it was requested for,
how it was resolved, and the parameters that were forwarded on its strength.
-/

namespace SystemRunApprovals

inductive ExecApprovalDecision where
  | allowOnce
  | allowAlways
  | deny
  deriving DecidableEq

structure ExecApprovalRequestPayload where
  host : Option String
  nodeId : Option String
  systemRunBinding : Option SystemRunApprovalBinding
  systemRunPlan : Option SystemRunApprovalPlan
  agentId : Option String
  sessionKey : Option String
  turnSourceChannel : Option String
  turnSourceTo : Option String
  turnSourceAccountId : Option String
  turnSourceThreadId : Option JsonValue

structure ExecApprovalRecord where
  id : String
  request : ExecApprovalRequestPayload
  createdAtMs : ℚ
  expiresAtMs : ℚ
  requestedByConnId : Option String := none
  requestedByDeviceId : Option String := none
  requestedByClientId : Option String := none
  requestedByDeviceTokenAuth : Bool := false
  resolvedAtMs : Option ℚ := none
  decision : Option ExecApprovalDecision := none
  consumedDecision : Option ExecApprovalDecision := none
  resolvedBy : Option String := none

/-- How an entry stopped pending. -/
inductive Outcome where
  | decided (decision : ExecApprovalDecision) (resolvedBy : Option String)
  | expired (resolvedBy : Option String)
  deriving DecidableEq

structure PendingEntry where
  record : ExecApprovalRecord
  env : Option JsonValue
  outcomes : List Outcome := []
  forwards : List JsonValue := []

/-- A decision to allow once is taken, and only the record of the taking stays. -/
def PendingEntry.consume (entry : PendingEntry) : PendingEntry :=
  { entry with
    record := { entry.record with consumedDecision := entry.record.decision, decision := none } }

/-- The entries ever made, the map from ids to them, and the clean-ups still to come. -/
structure ExecApprovalManager where
  entries : List PendingEntry
  pending : OrderedMap String ℕ
  cleanups : List (String × ℕ)

structure ApprovalClient where
  connId : Option String
  isDeviceTokenAuth : Bool
  scopes : List String
  clientId : Option String
  mode : Option String
  deviceId : Option String

namespace ExecApprovalManager

def initial : ExecApprovalManager where
  entries := []
  pending := .empty
  cleanups := []

variable (manager : ExecApprovalManager)

/-- The entry that stands under an id, and its place. -/
def storedEntry (recordId : String) : Option (ℕ × PendingEntry) :=
  (manager.pending.get? recordId).bind fun index =>
    manager.entries[index]?.map fun entry => (index, entry)

def getSnapshot (recordId : String) : Option ExecApprovalRecord :=
  (manager.storedEntry recordId).map fun found => found.2.record

def modifyEntry (index : ℕ) (change : PendingEntry → PendingEntry) :
    ExecApprovalManager :=
  { manager with entries := manager.entries.modify index change }

/-- Register a record; a pending one under its id stays, a resolved one is an error. -/
def register (record : ExecApprovalRecord)
    (env : Option JsonValue) : Option ExecApprovalManager :=
  match manager.storedEntry record.id with
  | some (_, existing) => if existing.record.resolvedAtMs.isNone then some manager else none
  | none =>
    some
      { manager with
        entries := manager.entries ++ [{ record, env }]
        pending := manager.pending.set record.id manager.entries.length }

/-- Let a pending entry stop pending and schedule its clean-up. -/
def finish (recordId : String)
    (change : ExecApprovalRecord → ExecApprovalRecord) (outcome : Outcome) : ExecApprovalManager :=
  match manager.storedEntry recordId with
  | none => manager
  | some (index, entry) =>
    if entry.record.resolvedAtMs.isSome then manager
    else
      { manager.modifyEntry index fun entry =>
          { entry with
            record := change entry.record
            outcomes := entry.outcomes ++ [outcome] } with
        cleanups := manager.cleanups ++ [(recordId, index)] }

def resolve (recordId : String)
    (decision : ExecApprovalDecision) (resolvedBy : Option String) (now : ℚ) :
    ExecApprovalManager :=
  manager.finish recordId
    (fun record => { record with resolvedAtMs := some now, decision := some decision, resolvedBy })
    (.decided decision resolvedBy)

def expire (recordId : String) (resolvedBy : Option String)
    (now : ℚ) : ExecApprovalManager :=
  manager.finish recordId
    (fun record => { record with resolvedAtMs := some now, decision := none, resolvedBy })
    (.expired resolvedBy)

/-- A clean-up removes its entry unless the id stands for another one by now. -/
def cleanup (recordId : String) (index : ℕ) :
    Option ExecApprovalManager :=
  if (recordId, index) ∈ manager.cleanups then
    some
      { manager with
        cleanups := manager.cleanups.erase (recordId, index)
        pending :=
          if manager.pending.get? recordId = some index then manager.pending.delete recordId
          else manager.pending }
  else none

/-- Whether an allow-once decision was there to take, and the manager afterwards. -/
def consumeAllowOnce (recordId : String) :
    Bool × ExecApprovalManager :=
  match manager.storedEntry recordId with
  | none => (false, manager)
  | some (index, entry) =>
    if entry.record.decision ≠ some .allowOnce then (false, manager)
    else (true, manager.modifyEntry index PendingEntry.consume)

end ExecApprovalManager

structure ExecApprovalRequestParams where
  id : Option String := none
  command : Option String := none
  commandArgv : List String := []
  env : Option JsonValue := none
  cwd : Option String := none
  systemRunPlan : Option JsonValue := none
  nodeId : Option String := none
  host : Option String := none
  agentId : Option String := none
  sessionKey : Option String := none
  turnSourceChannel : Option String := none
  turnSourceTo : Option String := none
  turnSourceAccountId : Option String := none
  turnSourceThreadId : Option JsonValue := none
  timeoutMs : Option ℚ := none

def defaultExecApprovalTimeoutMs : ℚ := 1800000

def reservedPluginApprovalIdPrefix : String := "plugin:"

/-- The record of a request that passed its checks. -/
def approvalRecord (host : SystemRunHost) (params : ExecApprovalRequestParams)
    (client : Option ApprovalClient) (context : ApprovalRequestContext)
    (recordId hostName nodeId : String) (now : ℚ) : ExecApprovalRecord where
  id := recordId
  request :=
    { host := if hostName = "" then none else some hostName
      nodeId := if hostName = "node" then some nodeId else none
      systemRunBinding :=
        if hostName = "node" then
          some
            (buildSystemRunApprovalBinding host (context.commandArgv.getD []) context.cwd
              context.agentId context.sessionKey params.env).1
        else none
      systemRunPlan := context.plan
      agentId := context.agentId
      sessionKey := context.sessionKey
      turnSourceChannel := params.turnSourceChannel.bind SessionKeys.normalizeOptionalString
      turnSourceTo := params.turnSourceTo.bind SessionKeys.normalizeOptionalString
      turnSourceAccountId := params.turnSourceAccountId.bind SessionKeys.normalizeOptionalString
      turnSourceThreadId := params.turnSourceThreadId }
  createdAtMs := now
  expiresAtMs := now + params.timeoutMs.getD defaultExecApprovalTimeoutMs
  requestedByConnId := client.bind ApprovalClient.connId
  requestedByDeviceId := client.bind ApprovalClient.deviceId
  requestedByClientId := client.bind ApprovalClient.clientId
  requestedByDeviceTokenAuth := client.any ApprovalClient.isDeviceTokenAuth

/-- `exec.approval.request`: the error, or the manager with the record registered. -/
def execApprovalRequest (host : SystemRunHost) (manager : ExecApprovalManager)
    (params : ExecApprovalRequestParams) (client : Option ApprovalClient) (now : ℚ)
    (randomUuid : String) : Except String ExecApprovalManager :=
  let explicitId := params.id.bind SessionKeys.normalizeOptionalString
  let hostName := (params.host.bind SessionKeys.normalizeOptionalString).getD ""
  let nodeId := (params.nodeId.bind SessionKeys.normalizeOptionalString).getD ""
  let context :=
    resolveSystemRunApprovalRequestContext host hostName params.command params.commandArgv
      params.systemRunPlan params.cwd params.agentId params.sessionKey
  if hostName = "node" ∧ nodeId = "" then .error "nodeId is required for host=node"
  else if hostName = "node" ∧ context.plan.isNone then
    .error "systemRunPlan is required for host=node"
  else if JsString.trim context.commandText = "" then .error "command is required"
  else if explicitId.any fun id => JsString.startsWith id reservedPluginApprovalIdPrefix then
    .error ("approval ids starting with " ++ reservedPluginApprovalIdPrefix ++ " are reserved")
  else if hostName = "node" ∧ context.commandArgv.getD [] = [] then
    .error "commandArgv is required for host=node"
  else if host.commandExceedsDisplay context.commandText then
    .error "command exceeds exec approval display limit"
  else if (explicitId.bind manager.getSnapshot).isSome then .error "approval id already pending"
  else
    let record :=
      approvalRecord host params client context (explicitId.getD randomUuid) hostName nodeId now
    match manager.register record params.env with
    | some registered => .ok registered
    | none =>
      .error ("registration failed: Error: approval id '" ++ record.id ++ "' already resolved")

end SystemRunApprovals
