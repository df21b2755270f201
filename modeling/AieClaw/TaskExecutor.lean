import AieClaw.TaskFlowRevisions
import AieClaw.TaskRegistryRuns

/-!
# Tasks inside flows

The executor starts tasks inside managed flows and cancels flows. Cancelling
first marks the flow, then cancels its active tasks one by one, each of which
may wait for the control of a session, and ends the flow once none is active.
-/

namespace Tasks

open TransitionSystem Registry FlowRegistry

/-- The name of a status, as texts have it. -/
def TaskFlowStatus.name : TaskFlowStatus → String
  | .queued => "queued"
  | .running => "running"
  | .waiting => "waiting"
  | .blocked => "blocked"
  | .succeeded => "succeeded"
  | .failed => "failed"
  | .cancelled => "cancelled"
  | .lost => "lost"

structure RunTaskInFlowParams where
  runtime : TaskRuntime
  sourceId : Option String := none
  childSessionKey : Option String := none
  parentTaskId : Option String := none
  agentId : Option String := none
  runId : Option String := none
  label : Option String := none
  task : String
  preferMetadata : Bool := false
  notifyPolicy : Option TaskNotifyPolicy := none
  deliveryStatus : Option TaskDeliveryStatus := none
  /-- Whether the task starts as running; it is queued otherwise. -/
  running : Bool := false
  startedAt : Option ℚ := none
  lastEventAt : Option ℚ := none
  progressSummary : Option String := none

/-- The request for a task inside a flow; a queued one has no times yet. -/
def RunTaskInFlowParams.createParams (params : RunTaskInFlowParams) (flow : TaskFlowRecord) :
    CreateTaskParams where
  runtime := params.runtime
  sourceId := params.sourceId
  ownerKey := some flow.ownerKey
  scopeKind := some .session
  requesterOrigin := flow.requesterOrigin
  parentFlowId := some flow.flowId
  childSessionKey := params.childSessionKey
  parentTaskId := params.parentTaskId
  agentId := params.agentId
  runId := params.runId
  label := params.label
  task := params.task
  preferMetadata := params.preferMetadata
  notifyPolicy := params.notifyPolicy
  deliveryStatus := some (params.deliveryStatus.getD .pending)
  status := some (if params.running then .running else .queued)
  startedAt := if params.running then params.startedAt else none
  lastEventAt := if params.running then params.lastEventAt else none
  progressSummary := if params.running then params.progressSummary else none

inductive RunTaskInFlowResult where
  | notFound
  | refused (reason : String) (flow : Option TaskFlowRecord)
  | created (flow : TaskFlowRecord) (task : TaskRecord)

structure CancelFlowResult where
  found : Bool
  cancelled : Bool
  reason : Option String := none
  flow : Option TaskFlowRecord := none
  tasks : List TaskRecord := []

/-- How far the first part of cancelling a flow comes. -/
inductive CancelFlowStart where
  | done (result : CancelFlowResult)
  | threw (error : FlowError)
  | cancels (flow : TaskFlowRecord) (active : List TaskRecord)

namespace Registry

def mapRunTaskInFlowCreateError (registry : Registry) (flowId : String) (error : TaskError) :
    Except TaskError RunTaskInFlowResult :=
  let flow := registry.flowRegistry.getTaskFlowById flowId
  match error with
  | .parentFlowLink .cancelRequested _ _ =>
    .ok (.refused "Flow cancellation has already been requested." flow)
  | .parentFlowLink .terminal _ status =>
    let name :=
      (((flow.map TaskFlowRecord.status).or status).map TaskFlowStatus.name).getD "terminal"
    .ok (.refused ("Flow is already " ++ name ++ ".") flow)
  | .parentFlowLink .parentFlowNotFound _ _ => .ok .notFound
  | other => .error other

/-- Start a task inside a managed flow that still takes tasks. -/
def runTaskInFlow (host : TaskHost) (now : ℚ) (taskId flowId : String)
    (params : RunTaskInFlowParams) (registry : Registry) : TaskResult RunTaskInFlowResult :=
  match registry.flowRegistry.getTaskFlowById flowId with
  | none => (.ok .notFound, registry)
  | some flow =>
    if flow.syncMode ≠ .managed then
      (.ok (.refused "Flow does not accept managed child tasks." flow), registry)
    else if flow.cancelRequestedAt.isSome then
      (.ok (.refused "Flow cancellation has already been requested." flow), registry)
    else if flow.status.isTerminal then
      (.ok (.refused ("Flow is already " ++ flow.status.name ++ ".") flow), registry)
    else
      let created := registry.createTaskRecord host now taskId (params.createParams flow)
      (match created.1 with
        | .ok task =>
          .ok (.created ((created.2.flowRegistry.getTaskFlowById flow.flowId).getD flow) task)
        | .error error => created.2.mapRunTaskInFlowCreateError flow.flowId error,
        created.2)

/-- The tasks of a flow that are active. -/
def activeTasksForFlowId (registry : Registry) (flowId : String) : List TaskRecord :=
  (registry.listTasksForFlowId flowId).filter (·.status.isActive)

/-- What a caller is told when the flow was changed by another. -/
def changedWhileCancelled (registry : Registry) (flowId : String)
    (update : TaskFlowUpdateResult) : CancelFlowResult :=
  let current := registry.flowRegistry.getTaskFlowById flowId
  let tasks := registry.listTasksForFlowId flowId
  match update with
  | .revisionConflict known =>
    { found := true, cancelled := false
      reason := some "Flow changed while cancellation was in progress."
      flow := some known, tasks }
  | _ =>
    { found := true, cancelled := false, reason := some "Flow not found."
      flow := current, tasks }

/-- The last part of `cancelFlowById`: end the flow unless a task is active. -/
def endFlowCancel (host : TaskHost) (now : ℚ) (requested : TaskFlowRecord) (registry : Registry) :
    Except FlowError CancelFlowResult × Registry :=
  let flowId := requested.flowId
  let tasks := registry.listTasksForFlowId flowId
  let flow := (registry.flowRegistry.getTaskFlowById flowId).getD requested
  if tasks.any (·.status.isActive) then
    (.ok
        { found := true, cancelled := false
          reason := some "One or more child tasks are still active."
          flow := some flow, tasks },
      registry)
  else if flow.status.isTerminal then
    (.ok
        { found := true
          cancelled := flow.status = .cancelled
          reason :=
            if flow.status = .cancelled then none
            else some ("Flow is already " ++ flow.status.name ++ ".")
          flow := some flow, tasks },
      registry)
  else
    let ended :=
      updateFlowRecordByIdExpectedRevision host.flowStore now
        flow.flowId flow.revision (cancelledFlowPatch now) registry.flowRegistry
    let registry := { registry with flowRegistry := ended.2 }
    (ended.1.map fun update =>
        match update with
        | .applied flow => { found := true, cancelled := true, flow := some flow, tasks }
        | other => registry.changedWhileCancelled flow.flowId other,
      registry)

def cancelActiveTasks (host : TaskHost) (now : ℚ) (requested : TaskFlowRecord)
    (registry : Registry) : CancelFlowStart × Registry :=
  let active := registry.activeTasksForFlowId requested.flowId
  if active = [] then
    let ended := registry.endFlowCancel host now requested
    (match ended.1 with
      | .ok result => .done result
      | .error error => .threw error,
      ended.2)
  else (.cancels requested active, registry)

/--
The first part of `cancelFlowById`: mark the flow and begin to cancel its active
tasks. Nothing is waited for where none is active.
-/
def beginFlowCancel (host : TaskHost) (now : ℚ) (flowId : String) (registry : Registry) :
    CancelFlowStart × Registry :=
  match registry.flowRegistry.getTaskFlowById flowId with
  | none =>
    (.done
        { found := false, cancelled := false
          reason := some "Flow not found." },
      registry)
  | some flow =>
    if flow.status.isTerminal then
      (.done
          { found := true, cancelled := false
            reason := some ("Flow is already " ++ flow.status.name ++ ".")
            flow := some flow
            tasks := registry.listTasksForFlowId flow.flowId },
        registry)
    else if flow.cancelRequestedAt.isSome then registry.cancelActiveTasks host now flow
    else
      let marked :=
        performFlowOperation host.flowStore now flow.flowId
          flow.revision (.requestFlowCancel {}) registry.flowRegistry
      let later := { registry with flowRegistry := marked.2 }
      match marked.1 with
      | .ok (.applied requested) => later.cancelActiveTasks host now requested
      | .ok other => (.done (later.changedWhileCancelled flow.flowId other), later)
      | .error error => (.threw error, later)

end Registry

/-- An operation on tasks or on flows. -/
inductive FlowStepOperation where
  | task (operation : TaskOperation)
  | flow
      (flowId : String) (expectedRevision : ℕ) (operation : FlowOperation)
  | createManaged
      (flowId : String) (params : CreateFlowRecordParams)
  | runTask (taskId flowId : String) (params : RunTaskInFlowParams)
  | beginFlowCancel (flowId : String)
  | endFlowCancel (requested : TaskFlowRecord)

structure FlowAction where
  now : ℚ
  operation : FlowStepOperation

/-- What an operation on tasks or on flows leaves. -/
def FlowStepOperation.perform (host : TaskHost) (now : ℚ) (registry : Registry) :
    FlowStepOperation → Registry
  | .task operation => (operation.perform host now registry).2
  | .flow flowId expectedRevision operation =>
    { registry with
      flowRegistry :=
        (performFlowOperation host.flowStore now flowId
          expectedRevision operation registry.flowRegistry).2 }
  | .createManaged flowId params =>
    { registry with
      flowRegistry :=
        (createFlowRecord host.flowStore now flowId
          { params with syncMode := some .managed }
          registry.flowRegistry).2 }
  | .runTask taskId flowId params => (registry.runTaskInFlow host now taskId flowId params).2
  | .beginFlowCancel flowId => (registry.beginFlowCancel host now flowId).2
  | .endFlowCancel requested => (registry.endFlowCancel host now requested).2

/-- New identities are unused, and only what is waited for answers. -/
def FlowStepOperation.Enabled (registry : Registry) : FlowStepOperation → Prop
  | .task operation => operation.Enabled registry
  | .createManaged flowId _ => registry.flowRegistry.getTaskFlowById flowId = none
  | .runTask taskId _ _ => registry.tasks.get? taskId = none
  | _ => True

/-- One operation on tasks or on flows. -/
def FlowStep (host : TaskHost) : StepRelation Registry FlowAction :=
  fun source action target =>
    action.operation.Enabled source ∧ target = action.operation.perform host action.now source

end Tasks
