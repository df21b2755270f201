import AieClaw.TaskRegistryDelivery

/-!
# Updates of tasks

Tasks are updated by the run that they belong to, by the events of their agent,
and by their identity. An update by run goes to every task of the run in turn
and stops at the first one whose write throws.
-/

namespace Tasks

/-- What selects the tasks of a run. -/
structure RunScope where
  runId : String
  runtime : Option TaskRuntime := none
  sessionKey : Option String := none

/-- What an update by run asks for; `some none` is an explicit `null`. -/
structure RunUpdate where
  status : Option TaskStatus := none
  startedAt : Option ℚ := none
  endedAt : Option ℚ := none
  lastEventAt : Option ℚ := none
  error : Option String := none
  progressSummary : Option (Option String) := none
  terminalSummary : Option (Option String) := none
  terminalOutcome : Option (Option TaskTerminalOutcome) := none
  eventSummary : Option String := none

namespace RunUpdate

def nextStatus (update : RunUpdate) (current : TaskRecord) : TaskStatus :=
  update.status.getD current.status

/-- Whether the update may write its status, if it has one, over a task's. -/
def applies (update : RunUpdate) (current : TaskRecord) : Bool :=
  update.status.isNone ||
    shouldApplyRunScopedStatusUpdate current.status (update.nextStatus current)

def patch (update : RunUpdate) (current : TaskRecord) : TaskPatch where
  status := update.status
  startedAt := update.startedAt.map some
  endedAt := update.endedAt.map some
  lastEventAt := update.lastEventAt.map some
  error := update.error.map some
  progressSummary := update.progressSummary.map normalizeTaskSummary
  terminalSummary := update.terminalSummary.map normalizeTaskSummary
  terminalOutcome :=
    update.terminalOutcome.map (resolveTaskTerminalOutcome (update.nextStatus current))

/-- The event that an update is to a task, if it is one. -/
def event (now : ℚ) (update : RunUpdate) (current : TaskRecord) : Option TaskEventRecord :=
  let changed := update.status.isSome && update.status ≠ some current.status
  let summary :=
    match normalizeTaskSummary update.eventSummary with
    | some summary => some summary
    | none =>
      match update.nextStatus current with
      | .failed => normalizeTaskSummary (update.error.or current.error)
      | .succeeded => normalizeTaskSummary (update.terminalSummary.join.or current.terminalSummary)
      | _ => none
  if changed || (normalizeTaskSummary update.eventSummary).isSome then
    some
      { at_ := (update.lastEventAt.or update.endedAt).getD now
        kind :=
          if changed then .status (update.nextStatus current)
          else .progress
        summary }
  else none

end RunUpdate

/-- The stream that an agent event belongs to. -/
inductive AgentEventStream where
  | lifecycle
  | error
  | other
  deriving DecidableEq

/-- An event of an agent; a member of its data is read by its type. -/
structure AgentEvent where
  runId : String
  sessionKey : Option String := none
  stream : AgentEventStream
  ts : ℚ
  phase : Option String := none
  startedAt : Option ℚ := none
  endedAt : Option ℚ := none
  aborted : Bool := false
  error : Option String := none

namespace AgentEvent

/-- The time of an event; zero counts as none. -/
def time (now : ℚ) (event : AgentEvent) : ℚ := if event.ts = 0 then now else event.ts

/-- The status that an event gives to a running task. -/
def status (event : AgentEvent) : Option TaskStatus :=
  if event.stream ≠ .lifecycle then none
  else
    match event.phase with
    | some "start" => some .running
    | some "end" => some (if event.aborted then .timedOut else .succeeded)
    | some "error" => some .failed
    | _ => none

def patch (now : ℚ) (event : AgentEvent) (current : TaskRecord) : TaskPatch :=
  let ends := event.stream = .lifecycle ∧ (event.phase = some "end" ∨ event.phase = some "error")
  let fails := (event.stream = .lifecycle ∧ event.phase = some "error") ∨ event.stream = .error
  { lastEventAt := some (some (event.time now))
    startedAt :=
      if event.stream = .lifecycle then
        ((event.startedAt.or current.startedAt).filter (· ≠ 0)).map some
      else none
    status := event.status
    endedAt :=
      if ends then some (some (event.endedAt.getD (event.time now)))
      else none
    error := if fails then some (event.error.or current.error) else none }

/-- The change of state that an event is to a task, if it is one. -/
def change (now : ℚ) (event : AgentEvent) (current : TaskRecord) : Option TaskEventRecord :=
  match event.status with
  | none => none
  | some status =>
    if status = current.status then none
    else
      some
        { at_ := event.time now
          kind := .status status
          summary :=
            normalizeTaskSummary
              (match status with
              | .failed => event.error.or current.error
              | .succeeded => current.terminalSummary
              | _ => none) }

end AgentEvent

namespace Registry

/-- The tasks of a run; without a session key they must share one scope. -/
def getTasksByRunScope (registry : Registry) (scope : RunScope) : List TaskRecord :=
  let ofRuntime := (registry.getTasksByRunId scope.runId).filter fun task =>
    scope.runtime.isNone || scope.runtime = some task.runtime
  match trimmedMember scope.sessionKey with
  | some sessionKey =>
    let childMatches := ofRuntime.filter fun task =>
      trimmedMember task.childSessionKey = some sessionKey
    if childMatches ≠ [] then childMatches
    else
      ofRuntime.filter fun task =>
        task.scopeKind = .session &&
          SessionKeys.normalizeOptionalString task.ownerKey = some sessionKey
  | none =>
    match ofRuntime with
    | [] => []
    | first :: rest => if rest.all (sharesRunScope first) then first :: rest else []

/-- Perform an operation for each task, up to the first one that throws. -/
def forEachTask (perform : TaskRecord → Registry → TaskResult (Option TaskRecord)) :
    List TaskRecord → Registry → TaskResult (List TaskRecord)
  | [], registry => (.ok [], registry)
  | task :: rest, registry =>
    match perform task registry with
    | (.error error, failed) => (.error error, failed)
    | (.ok updated, next) =>
      let later := forEachTask perform rest next
      (later.1.map (updated.toList ++ ·), later.2)

section

variable (host : TaskHost)

/-- Update a task and begin to tell its owner. -/
def updateAndTell (now : ℚ) (taskId : String) (patch : TaskPatch)
    (event : Option TaskEventRecord) (registry : Registry) : TaskResult (Option TaskRecord) :=
  match registry.updateTask host now taskId patch with
  | (.ok (some task), updated) =>
    (.ok (some task),
      (updated.maybeDeliverTaskStateChangeUpdate host now taskId
        event).maybeDeliverTaskTerminalUpdate host now taskId)
  | other => other

/-- Update the tasks of a run as far as their statuses allow. -/
def updateTaskStateByRunId (now : ℚ) (scope : RunScope)
    (update : RunUpdate) (registry : Registry) : TaskResult (List TaskRecord) :=
  forEachTask
    (fun current registry =>
      if update.applies current then
        registry.updateAndTell host now current.taskId (update.patch current)
          (update.event now current)
      else (.ok none, registry))
    (registry.getTasksByRunScope scope) registry

structure RunningParams where
  startedAt : Option ℚ := none
  lastEventAt : Option ℚ := none
  progressSummary : Option (Option String) := none
  eventSummary : Option String := none

def markTaskRunningByRunId (now : ℚ) (scope : RunScope) (params : RunningParams) :
    Registry → TaskResult (List TaskRecord) :=
  updateTaskStateByRunId host now scope
    { status := some .running
      startedAt := params.startedAt
      lastEventAt := params.lastEventAt
      progressSummary := params.progressSummary
      eventSummary := params.eventSummary }

structure ProgressParams where
  lastEventAt : Option ℚ := none
  progressSummary : Option (Option String) := none
  eventSummary : Option String := none

def recordTaskProgressByRunId (now : ℚ) (scope : RunScope)
    (params : ProgressParams) : Registry → TaskResult (List TaskRecord) :=
  updateTaskStateByRunId host now scope
    { lastEventAt := params.lastEventAt
      progressSummary := params.progressSummary
      eventSummary := params.eventSummary }

/-- A status that a run can be finalized with. -/
inductive FinalStatus where
  | succeeded
  | failed
  | timedOut
  | cancelled
  deriving DecidableEq

def FinalStatus.toStatus : FinalStatus → TaskStatus
  | .succeeded => .succeeded
  | .failed => .failed
  | .timedOut => .timedOut
  | .cancelled => .cancelled

structure FinalizeParams where
  status : FinalStatus
  startedAt : Option ℚ := none
  endedAt : ℚ
  lastEventAt : Option ℚ := none
  error : Option String := none
  progressSummary : Option (Option String) := none
  terminalSummary : Option (Option String) := none
  terminalOutcome : Option (Option TaskTerminalOutcome) := none

def finalizeTaskRunByRunId (now : ℚ) (scope : RunScope)
    (params : FinalizeParams) : Registry → TaskResult (List TaskRecord) :=
  updateTaskStateByRunId host now scope
    { status := some params.status.toStatus
      startedAt := params.startedAt
      endedAt := some params.endedAt
      lastEventAt := params.lastEventAt
      error := params.error
      progressSummary := params.progressSummary
      terminalSummary := params.terminalSummary
      terminalOutcome := params.terminalOutcome }

/-- The listener of agent events; a task that ended is left alone. -/
def handleAgentEvent (now : ℚ) (event : AgentEvent) (registry : Registry) :
    TaskResult (List TaskRecord) :=
  forEachTask
    (fun current registry =>
      if current.status.isTerminal then (.ok none, registry)
      else
        registry.updateAndTell host now current.taskId (event.patch now current)
          (event.change now current))
    (registry.getTasksByRunScope { runId := event.runId, sessionKey := event.sessionKey })
    registry

/-- Set the delivery status of every task of a run. -/
def setTaskRunDeliveryStatusByRunId (now : ℚ) (scope : RunScope)
    (deliveryStatus : TaskDeliveryStatus) (error : Option String) (registry : Registry) :
    TaskResult (List TaskRecord) :=
  forEachTask
    (fun current registry =>
      registry.updateTask host now current.taskId
        { deliveryStatus := some deliveryStatus, error := error.map some })
    (registry.getTasksByRunScope scope) registry

/-- An update of one task by its identity. -/
inductive UpdateById where
  | progress (progressSummary : Option (Option String)) (lastEventAt : Option ℚ)
  | timing (startedAt endedAt lastEventAt : Option ℚ)
  | cleanupAfter (cleanupAfter : ℚ)
  | terminal
      (status : FinalStatus) (endedAt : ℚ) (lastEventAt : Option ℚ) (error : Option String)
      (terminalSummary : Option (Option String))
      (terminalOutcome : Option (Option TaskTerminalOutcome))
  | lost
      (endedAt : ℚ) (lastEventAt : Option ℚ) (error : Option String) (cleanupAfter : Option ℚ)
  | notifyPolicy (notifyPolicy : TaskNotifyPolicy)

/--
The patches of `setTaskProgressById`, `setTaskTimingById`,
`setTaskCleanupAfterById`, `markTaskTerminalById`, `markTaskLostById` and
`updateTaskNotifyPolicyById`.
-/
def UpdateById.patch (now : ℚ) : UpdateById → TaskPatch
  | .progress progressSummary lastEventAt =>
    { progressSummary := progressSummary.map normalizeTaskSummary
      lastEventAt := lastEventAt.map some }
  | .timing startedAt endedAt lastEventAt =>
    { startedAt := startedAt.map some
      endedAt := endedAt.map some
      lastEventAt := lastEventAt.map some }
  | .cleanupAfter time => { cleanupAfter := some (some time) }
  | .terminal status endedAt lastEventAt error summary outcome =>
    { status := some status.toStatus
      endedAt := some (some endedAt)
      lastEventAt := some (some (lastEventAt.getD endedAt))
      error := error.map some
      terminalSummary := summary.map normalizeTaskSummary
      terminalOutcome := outcome.map (resolveTaskTerminalOutcome status.toStatus) }
  | .lost endedAt lastEventAt error time =>
    { status := some .lost
      endedAt := some (some endedAt)
      lastEventAt := some (some (lastEventAt.getD endedAt))
      error := error.map some
      cleanupAfter := time.map some }
  | .notifyPolicy policy => { notifyPolicy := some policy, lastEventAt := some (some now) }

def updateTaskById (now : ℚ) (taskId : String) (update : UpdateById)
    (registry : Registry) : TaskResult (Option TaskRecord) :=
  registry.updateTask host now taskId (update.patch now)

end

def assertParentFlowLinkAllowed (registry : Registry) (ownerKey : String)
    (scopeKind : TaskScopeKind) (parentFlowId : Option String) : Except TaskError Unit :=
  match trimmedMember parentFlowId with
  | none => .ok ()
  | some flowId =>
    if scopeKind ≠ .session then .error (.parentFlowLink .scopeKindNotSession flowId none)
    else
      match registry.flowRegistry.getTaskFlowById flowId with
      | none => .error (.parentFlowLink .parentFlowNotFound flowId none)
      | some flow =>
        if SessionKeys.normalizeOptionalString flow.ownerKey ≠
            SessionKeys.normalizeOptionalString ownerKey then
          .error (.parentFlowLink .ownerKeyMismatch flowId none)
        else if flow.cancelRequestedAt.isSome then
          .error (.parentFlowLink .cancelRequested flowId (some flow.status))
        else if flow.status.isTerminal then
          .error (.parentFlowLink .terminal flowId (some flow.status))
        else .ok ()

variable {taskId : String}

theorem assertParentFlowLinkAllowed_trimmedMember (registry : Registry) (ownerKey : String)
    (scopeKind : TaskScopeKind) (parentFlowId : Option String) :
    registry.assertParentFlowLinkAllowed ownerKey scopeKind (trimmedMember parentFlowId) =
      registry.assertParentFlowLinkAllowed ownerKey scopeKind
        parentFlowId := by
  unfold assertParentFlowLinkAllowed
  cases isKey : trimmedMember parentFlowId with
  | none => rfl
  | some flowId => rw [trimmedMember_of_eq_some isKey]

/-- Link a task that has no flow to one. -/
def linkTaskToFlowById (host : TaskHost) (now : ℚ) (taskId flowId : String) (registry : Registry) :
    TaskResult (Option TaskRecord) :=
  match SessionKeys.normalizeOptionalString flowId, registry.tasks.get? taskId with
  | some flowId, some current =>
    if (trimmedMember current.parentFlowId).isSome then (.ok (some current), registry)
    else
      match registry.assertParentFlowLinkAllowed current.ownerKey
          current.scopeKind (some flowId) with
      | .error error => (.error error, registry)
      | .ok _ => registry.updateTask host now taskId { parentFlowId := some (some flowId) }
  | _, _ => (.ok none, registry)

/-- Forget a task, then delete it from the store. -/
def deleteTaskRecordById (host : TaskHost) (taskId : String) (registry : Registry) :
    TaskResult Bool :=
  match registry.tasks.get? taskId with
  | none => (.ok false, registry)
  | some current =>
    let tasks := registry.tasks.delete taskId
    let without :=
      { registry with
        tasks
        taskDeliveryStates := registry.taskDeliveryStates.delete taskId
        taskIdsByRunId := rebuildIndex TaskRecord.runKeys tasks
        taskIdsByOwnerKey := registry.taskIdsByOwnerKey.deleteKeys current.ownerKeys taskId
        taskIdsByParentFlowId := registry.taskIdsByParentFlowId.deleteKeys current.flowKeys taskId
        taskIdsByRelatedSessionKey :=
          registry.taskIdsByRelatedSessionKey.deleteKeys current.relatedSessionKeys taskId }
    let taskDeleted := without.persistTaskDelete host taskId
    if taskDeleted.1 then
      let stateDeleted := taskDeleted.2.persistTaskDeliveryStateDelete host taskId
      if stateDeleted.1 then (.ok true, stateDeleted.2)
      else (.error .storeFailed, stateDeleted.2)
    else (.error .storeFailed, taskDeleted.2)

theorem deleteTaskRecordById_of_none {host : TaskHost} {registry : Registry}
    (unknown : registry.tasks.get? taskId = none) :
    registry.deleteTaskRecordById host taskId = (.ok false, registry) := by
  rw [deleteTaskRecordById, unknown]

theorem deleteTaskRecordById_of_some (host : TaskHost) {registry : Registry}
    {current : TaskRecord} (known : registry.tasks.get? taskId = some current) :
    ∃ store writes, registry.writes < writes ∧
        (registry.deleteTaskRecordById host taskId).2 = { registry with
            tasks := registry.tasks.delete taskId
            taskDeliveryStates := registry.taskDeliveryStates.delete taskId
            taskIdsByRunId := rebuildIndex TaskRecord.runKeys (registry.tasks.delete taskId)
            taskIdsByOwnerKey := registry.taskIdsByOwnerKey.deleteKeys current.ownerKeys taskId
            taskIdsByParentFlowId :=
              registry.taskIdsByParentFlowId.deleteKeys current.flowKeys taskId
            taskIdsByRelatedSessionKey :=
              registry.taskIdsByRelatedSessionKey.deleteKeys current.relatedSessionKeys taskId
            store, writes } := by
  rw [deleteTaskRecordById, known]
  simp only [persistTaskDelete, persistTaskDeliveryStateDelete, persist]
  split_ifs
  · exact ⟨_, _, by omega, rfl⟩
  · exact ⟨_, _, by omega, rfl⟩
  · exact ⟨_, _, by omega, rfl⟩

theorem tasks_deleteTaskRecordById (host : TaskHost) (registry : Registry) (taskId : String) :
    (registry.deleteTaskRecordById host taskId).2.tasks = registry.tasks ∨
      (registry.deleteTaskRecordById host taskId).2.tasks = registry.tasks.delete taskId := by
  cases known : registry.tasks.get? taskId with
  | none =>
    rw [deleteTaskRecordById_of_none known]
    exact Or.inl rfl
  | some current =>
    obtain ⟨_, _, -, deleted⟩ := deleteTaskRecordById_of_some host known
    rw [deleted]
    exact Or.inr rfl

def isListedBefore (left right : String × TaskRegistryRow) : Prop :=
  left.2.createdAt < right.2.createdAt ∨ (left.2.createdAt = right.2.createdAt ∧ left.1 ≤ right.1)

instance : DecidableRel isListedBefore := fun left right =>
  inferInstanceAs (Decidable (left.2.createdAt < right.2.createdAt ∨
    (left.2.createdAt = right.2.createdAt ∧ left.1 ≤ right.1)))

instance : DecidableRel fun left right : String × TaskDeliveryStateRow => left.1 ≤ right.1 :=
  fun left right => inferInstanceAs (Decidable (left.1 ≤ right.1))

/-- The tasks of a store, with their times in order. -/
def restoredTasks (store : TaskStore) : OrderedMap String TaskRecord :=
  (store.taskRuns.sort isListedBefore).mapEntries fun taskId row =>
    normalizeTaskTimestamps (rowToTaskRecord taskId row)

theorem taskId_of_restoredTasks {store : TaskStore} {task : TaskRecord}
    (known : (restoredTasks store).get? taskId = some task) : task.taskId = taskId := by
  rw [restoredTasks, OrderedMap.get?_mapEntries] at known
  obtain ⟨row, -, rfl⟩ := Option.map_eq_some_iff.mp known
  rfl

theorem timesOrdered_of_restoredTasks {store : TaskStore}
    {task : TaskRecord} (known : (restoredTasks store).get? taskId = some task) :
    task.TimesOrdered := by
  rw [restoredTasks, OrderedMap.get?_mapEntries] at known
  obtain ⟨row, -, rfl⟩ := Option.map_eq_some_iff.mp known
  exact timesOrdered_normalizeTaskTimestamps _

def restoredDeliveryStates (host : TaskHost) (store : TaskStore) :
    OrderedMap String TaskDeliveryState :=
  (store.deliveryStates.sort fun left right => left.1 ≤ right.1).mapEntries
    (rowToTaskDeliveryState host)

/-- Forget everything and read the store again. -/
def reloadTaskRegistryFromStore (host : TaskHost) (registry : Registry) : Registry :=
  let tasks := restoredTasks registry.store
  { registry with
    tasks
    taskDeliveryStates := restoredDeliveryStates host registry.store
    taskIdsByRunId := rebuildIndex TaskRecord.runKeys tasks
    taskIdsByOwnerKey := rebuildIndex TaskRecord.ownerKeys tasks
    taskIdsByParentFlowId := rebuildIndex TaskRecord.flowKeys tasks
    taskIdsByRelatedSessionKey := rebuildIndex TaskRecord.relatedSessionKeys tasks
    tasksWithPendingDelivery := [] }

end Registry

end Tasks
