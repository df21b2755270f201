import AieClaw.TaskRegistryUpdates

/-!
# Creating and cancelling tasks

Creating a task that exists already, in the same run and scope, merges into it.
Cancelling a task first asks the control of its session to stop it; the task is
marked as cancelled when the control has answered.
-/

namespace Tasks

/-- What a caller says about a new task; `some none` is an explicit `null`. -/
structure CreateTaskParams where
  runtime : TaskRuntime
  taskKind : Option String := none
  sourceId : Option String := none
  requesterSessionKey : Option String := none
  ownerKey : Option String := none
  scopeKind : Option TaskScopeKind := none
  requesterOrigin : Option DeliveryContext := none
  childSessionKey : Option String := none
  parentFlowId : Option String := none
  parentTaskId : Option String := none
  agentId : Option String := none
  runId : Option String := none
  label : Option String := none
  task : String
  preferMetadata : Bool := false
  status : Option TaskStatus := none
  deliveryStatus : Option TaskDeliveryStatus := none
  notifyPolicy : Option TaskNotifyPolicy := none
  startedAt : Option ℚ := none
  lastEventAt : Option ℚ := none
  cleanupAfter : Option ℚ := none
  progressSummary : Option String := none
  terminalSummary : Option String := none
  terminalOutcome : Option TaskTerminalOutcome := none

/-- An optional text without the white space around it, or no text. -/
def trimmedOrEmpty (value : Option String) : String := JsString.trim (value.getD "")

def ensureDeliveryStatus (ownerKey : String) (scopeKind : TaskScopeKind) : TaskDeliveryStatus :=
  if scopeKind = .system then .notApplicable
  else if JsString.trim ownerKey ≠ "" then .pending
  else .parentMissing

def ensureNotifyPolicy (notifyPolicy : Option TaskNotifyPolicy)
    (deliveryStatus : Option TaskDeliveryStatus) (ownerKey : String) (scopeKind : TaskScopeKind) :
    TaskNotifyPolicy :=
  match notifyPolicy with
  | some policy => policy
  | none =>
    let deliveryStatus := deliveryStatus.getD (ensureDeliveryStatus ownerKey scopeKind)
    if deliveryStatus = .notApplicable then .silent else .doneOnly

namespace CreateTaskParams

def resolvedRequesterSessionKey (params : CreateTaskParams) : String :=
  let requester := trimmedOrEmpty params.requesterSessionKey
  if requester ≠ "" then requester
  else if params.scopeKind = some .system then ""
  else trimmedOrEmpty params.ownerKey

def resolvedScopeKind (params : CreateTaskParams) : TaskScopeKind :=
  params.scopeKind.getD (if params.resolvedRequesterSessionKey ≠ "" then .session else .system)

def resolvedOwnerKey (params : CreateTaskParams) : String :=
  JsString.orElse (trimmedOrEmpty params.ownerKey)
    (JsString.trim params.resolvedRequesterSessionKey)

def resolvedAgentId (host : TaskHost) (params : CreateTaskParams) : Option String :=
  ((trimmedMember params.agentId).or
    (host.parseAgentSessionKey params.resolvedOwnerKey)).or
    (host.parseAgentSessionKey params.resolvedRequesterSessionKey)

/-- The record of a task that did not exist. -/
def newRecord (host : TaskHost) (now : ℚ) (taskId : String) (params : CreateTaskParams) :
    TaskRecord :=
  let ownerKey := params.resolvedOwnerKey
  let scopeKind := params.resolvedScopeKind
  let status := params.status.getD .queued
  let deliveryStatus := params.deliveryStatus.getD (ensureDeliveryStatus ownerKey scopeKind)
  let record :=
    normalizeTaskTimestamps
      { taskId
        runtime := params.runtime
        taskKind := trimmedMember params.taskKind
        sourceId := trimmedMember params.sourceId
        requesterSessionKey := params.resolvedRequesterSessionKey
        ownerKey
        scopeKind
        childSessionKey := params.childSessionKey
        parentFlowId := trimmedMember params.parentFlowId
        parentTaskId := trimmedMember params.parentTaskId
        agentId := params.resolvedAgentId host
        runId := trimmedMember params.runId
        label := trimmedMember params.label
        task := params.task
        status
        deliveryStatus
        notifyPolicy :=
          ensureNotifyPolicy params.notifyPolicy (some deliveryStatus) ownerKey scopeKind
        createdAt := now
        startedAt := params.startedAt
        lastEventAt := some ((params.lastEventAt.or params.startedAt).getD now)
        cleanupAfter := params.cleanupAfter
        progressSummary := normalizeTaskSummary params.progressSummary
        terminalSummary := normalizeTaskSummary params.terminalSummary
        terminalOutcome := resolveTaskTerminalOutcome status params.terminalOutcome }
  Registry.withCleanupAfter record.createdAt record

variable (host : TaskHost) (now : ℚ) (taskId : String) (params : CreateTaskParams)

@[simp] theorem taskId_newRecord : (params.newRecord host now taskId).taskId = taskId := by
  rw [newRecord, Registry.taskId_withCleanupAfter, normalizeTaskTimestamps]

theorem ownerKey_newRecord :
    (params.newRecord host now taskId).ownerKey = params.resolvedOwnerKey := by
  rw [newRecord, Registry.ownerKey_withCleanupAfter, normalizeTaskTimestamps]

theorem scopeKind_newRecord : (params.newRecord host now taskId).scopeKind =
      params.resolvedScopeKind := by
  rw [newRecord, Registry.scopeKind_withCleanupAfter, normalizeTaskTimestamps]

theorem parentFlowId_newRecord : (params.newRecord host now taskId).parentFlowId =
      trimmedMember params.parentFlowId := by
  rw [newRecord, Registry.parentFlowId_withCleanupAfter, normalizeTaskTimestamps]

theorem status_newRecord :
    (params.newRecord host now taskId).status = params.status.getD .queued := by
  rw [newRecord, Registry.status_withCleanupAfter, normalizeTaskTimestamps]

theorem deliveryStatus_newRecord : (params.newRecord host now taskId).deliveryStatus =
      params.deliveryStatus.getD (ensureDeliveryStatus params.resolvedOwnerKey
          params.resolvedScopeKind) := by
  rw [newRecord]
  obtain ⟨_, kept⟩ := Registry.withCleanupAfter_eq _ _
  rw [kept, normalizeTaskTimestamps]

theorem timesOrdered_newRecord : (params.newRecord host now taskId).TimesOrdered :=
  Registry.timesOrdered_withCleanupAfter (timesOrdered_normalizeTaskTimestamps _)

/-- Whether a task is in the scope that a caller names. -/
def matchesScope (params : CreateTaskParams) (task : TaskRecord) : Bool :=
  task.runtime = params.runtime && task.scopeKind = params.resolvedScopeKind &&
    SessionKeys.normalizeOptionalString task.ownerKey =
      SessionKeys.normalizeOptionalString params.resolvedOwnerKey &&
    trimmedMember task.childSessionKey = trimmedMember params.childSessionKey &&
    trimmedMember task.parentFlowId = trimmedMember params.parentFlowId

def matchesText (params : CreateTaskParams) (task : TaskRecord) : Bool :=
  trimmedMember task.label = trimmedMember params.label &&
    SessionKeys.normalizeOptionalString task.task = SessionKeys.normalizeOptionalString params.task

/-- A member that is given and that the task does not have yet. -/
def missing (given current : Option String) : Option (Option String) :=
  if (trimmedMember current).isNone then (trimmedMember given).map some
  else none

/-- The label and the text that merging into a task writes. -/
def metadataPatch (params : CreateTaskParams) (existing : TaskRecord) :
    Option (Option String) × Option String :=
  if params.preferMetadata then
    let nextLabel := trimmedMember params.label
    let nextTask := SessionKeys.normalizeOptionalString params.task
    (if nextLabel ≠ trimmedMember existing.label then nextLabel.map some
      else none,
      if nextTask ≠ SessionKeys.normalizeOptionalString existing.task then nextTask
      else none)
  else (missing params.label existing.label, none)

/-- The patch that merging into a task makes. -/
def mergePatch (host : TaskHost) (params : CreateTaskParams) (existing : TaskRecord) : TaskPatch :=
  let metadata := params.metadataPatch existing
  let notifyPolicy :=
    ensureNotifyPolicy params.notifyPolicy params.deliveryStatus
      existing.ownerKey existing.scopeKind
  { sourceId := missing params.sourceId existing.sourceId
    taskKind := missing params.taskKind existing.taskKind
    parentFlowId := missing params.parentFlowId existing.parentFlowId
    parentTaskId := missing params.parentTaskId existing.parentTaskId
    agentId := missing (params.resolvedAgentId host) existing.agentId
    label := metadata.1
    task := metadata.2
    deliveryStatus :=
      if params.deliveryStatus = some .pending ∧ existing.deliveryStatus ≠ .delivered then
        some .pending
      else none
    notifyPolicy :=
      if notifyPolicy ≠ existing.notifyPolicy ∧ existing.notifyPolicy = .silent then
        some notifyPolicy
      else none }

end CreateTaskParams

namespace Registry

/-- The task that a request to create one is merged into. -/
def findExistingTaskForCreate (registry : Registry) (params : CreateTaskParams) :
    Option TaskRecord :=
  match trimmedMember params.runId with
  | none => none
  | some runId =>
    let runScopeMatches := (registry.getTasksByRunId runId).filter params.matchesScope
    match runScopeMatches.find? params.matchesText with
    | some exact => some exact
    | none =>
      if params.runtime ≠ .acp then none
      else pickPreferredRunIdTask runScopeMatches

section

variable (host : TaskHost)

/-- Merge a request into a task that exists. -/
def mergeExistingTaskForCreate (now : ℚ) (existing : TaskRecord)
    (params : CreateTaskParams) (registry : Registry) : TaskResult TaskRecord :=
  let current := registry.taskDeliveryStates.get? existing.taskId
  let requesterOrigin := params.requesterOrigin.bind host.normalizeDeliveryContext
  let stated :=
    if requesterOrigin.isSome && (current.bind (·.requesterOrigin)).isNone then
      registry.upsertTaskDeliveryState host
        { taskId := existing.taskId, requesterOrigin
          lastNotifiedEventAt := current.bind (·.lastNotifiedEventAt) }
    else (.ok (), registry)
  match stated with
  | (.error error, failed) => (.error error, failed)
  | (.ok _, registry) =>
    let linked :=
      if (CreateTaskParams.missing params.parentFlowId
          existing.parentFlowId).isSome then
        registry.assertParentFlowLinkAllowed existing.ownerKey
          existing.scopeKind params.parentFlowId
      else .ok ()
    match linked with
    | .error error => (.error error, registry)
    | .ok _ =>
      let patch := params.mergePatch host existing
      if patch = {} then (.ok existing, registry)
      else
        let updated := registry.updateTask host now existing.taskId patch
        (updated.1.map (·.getD existing), updated.2)

/-- The delivery state that a new task begins with. -/
def newDeliveryState (taskId : String)
    (requesterOrigin : Option DeliveryContext) : TaskDeliveryState where
  taskId := taskId
  requesterOrigin := requesterOrigin.bind host.normalizeDeliveryContext

/-- Put a new task into the indexes. -/
def indexTask (record : TaskRecord) (registry : Registry) : Registry :=
  { registry with
    taskIdsByRunId := registry.taskIdsByRunId.addKeys record.runKeys record.taskId
    taskIdsByOwnerKey := registry.taskIdsByOwnerKey.addKeys record.ownerKeys record.taskId
    taskIdsByParentFlowId := registry.taskIdsByParentFlowId.addKeys record.flowKeys record.taskId
    taskIdsByRelatedSessionKey :=
      registry.taskIdsByRelatedSessionKey.addKeys record.relatedSessionKeys record.taskId }

/-- Put a new task into memory, and its delivery state where it says something. -/
def stateTask (record : TaskRecord)
    (requesterOrigin : Option DeliveryContext) (registry : Registry) : TaskResult Unit :=
  { registry with
    tasks := registry.tasks.set record.taskId record
  }.upsertTaskDeliveryState host (newDeliveryState host record.taskId requesterOrigin)

/-- Put a new task into memory, into the indexes and into the store. -/
def placeTask (now : ℚ) (record : TaskRecord)
    (requesterOrigin : Option DeliveryContext) (registry : Registry) : TaskResult TaskRecord :=
  match registry.stateTask host record requesterOrigin with
  | (.error error, failed) => (.error error, failed)
  | (.ok _, stated) =>
    let persisted := (stated.indexTask record).persistTaskUpsert host record
    if persisted.1 then (.ok record, persisted.2.syncFlow host now record)
    else (.error .storeFailed, persisted.2)

/-- Place a new task; the owner of one that ended already is told. -/
def insertTask (now : ℚ) (record : TaskRecord)
    (requesterOrigin : Option DeliveryContext) (registry : Registry) : TaskResult TaskRecord :=
  match registry.placeTask host now record requesterOrigin with
  | (.error error, failed) => (.error error, failed)
  | (.ok record, placed) =>
    (.ok record,
      if record.status.isTerminal then placed.maybeDeliverTaskTerminalUpdate host now record.taskId
      else placed)

theorem tasks_placeTask (now : ℚ) (record : TaskRecord)
    (requesterOrigin : Option DeliveryContext) (registry : Registry) :
    (registry.placeTask host now record requesterOrigin).2.tasks =
      registry.tasks.set record.taskId record := by
  have kept : (registry.stateTask host record requesterOrigin).2.tasks =
      registry.tasks.set record.taskId record :=
    tasks_upsertTaskDeliveryState _
  unfold placeTask
  cases stating : registry.stateTask host record requesterOrigin with
  | mk outcome stated =>
    rw [stating] at kept
    cases outcome with
    | error error => exact kept
    | ok _ =>
      simp only
      split_ifs
      · exact kept
      · exact kept

def RecordsDelivery (registry : Registry) (taskId : String)
    (requesterOrigin : Option DeliveryContext) : Prop :=
  registry.isVoidDelivery host (newDeliveryState host taskId requesterOrigin) = true ∨
    host.taskStore registry.writes = true

end

theorem placeTask_of_recordsDelivery {host : TaskHost} (now : ℚ) {record : TaskRecord}
    {requesterOrigin : Option DeliveryContext} {registry : Registry}
    (records : registry.RecordsDelivery host record.taskId requesterOrigin) : ∃ flowRegistry,
      (registry.placeTask host now record requesterOrigin).2 =
        { (((registry.stateTask host record requesterOrigin).2.indexTask
            record).persistTaskUpsert host record).2 with
          flowRegistry } := by
  unfold placeTask
  cases stating : registry.stateTask host record requesterOrigin with
  | mk outcome stated =>
    cases outcome with
    | error error =>
      have threw := upsertTaskDeliveryState_error (congrArg Prod.fst stating)
      rcases records with isVoid | stored
      · exact Bool.noConfusion (isVoid.symm.trans threw.1)
      · exact Bool.noConfusion (stored.symm.trans threw.2.1)
    | ok _ =>
      simp only
      generalize (stated.indexTask record).persistTaskUpsert host record = persisted
      split_ifs
      · exact ⟨_, rfl⟩
      · exact ⟨_, rfl⟩

/-- Create a task under a new identity, or merge into one that exists. -/
def createTaskRecord (host : TaskHost) (now : ℚ) (taskId : String)
    (params : CreateTaskParams) (registry : Registry) : TaskResult TaskRecord :=
  if params.resolvedOwnerKey = "" ∧ params.resolvedScopeKind ≠ .system then
    (.error .ownerKeyRequired, registry)
  else
    match registry.assertParentFlowLinkAllowed params.resolvedOwnerKey
        params.resolvedScopeKind params.parentFlowId with
    | .error error => (.error error, registry)
    | .ok _ =>
      match registry.findExistingTaskForCreate params with
      | some existing => registry.mergeExistingTaskForCreate host now existing params
      | none =>
        registry.insertTask host now (params.newRecord host now taskId) params.requesterOrigin

def isChildlessCodexNativeSubagentTask (task : TaskRecord) : Bool :=
  task.runtime = .subagent && task.taskKind = some "codex-native" &&
    (trimmedMember task.childSessionKey).isNone &&
    [task.sourceId, task.runId].any fun candidate =>
      JsString.startsWith (trimmedOrEmpty candidate) "codex-thread:"

/-- What a caller of `cancelTaskById` is told. -/
inductive CancelResult where
  | notFound
  | refused (reason : String) (task : TaskRecord)
  | cancelled (task : TaskRecord)

/-- The reason that a task is cancelled for. -/
def cancelReason (reason : Option String) : String :=
  JsString.orElse (trimmedOrEmpty reason) "Cancelled by operator."

/-- The patch that marks a task as cancelled. -/
def cancelPatch (now : ℚ) (reason : Option String) : TaskPatch where
  status := some .cancelled
  endedAt := some (some now)
  lastEventAt := some (some now)
  error := some (some (cancelReason reason))

/-- Mark a task as cancelled and begin to tell its owner. -/
def markCancelled (host : TaskHost) (now : ℚ) (task : TaskRecord) (reason : Option String)
    (registry : Registry) : CancelResult × Registry :=
  match registry.updateTask host now task.taskId (cancelPatch now reason) with
  | (.error _, failed) => (.refused "The store failed." task, failed)
  | (.ok none, unchanged) => (.cancelled task, unchanged)
  | (.ok (some updated), marked) =>
    (.cancelled updated, marked.maybeDeliverTaskTerminalUpdate host now task.taskId)

/--
Ask to cancel a task. The result is missing while the control of the session of
the task has not answered.
-/
def cancelTaskById (host : TaskHost) (now : ℚ) (taskId : String) (reason : Option String)
    (registry : Registry) : Option CancelResult × Registry :=
  match registry.tasks.get? (JsString.trim taskId) with
  | none => (some .notFound, registry)
  | some task =>
    if task.status.isTerminal then (some (.refused "Task is already terminal." task), registry)
    else
      let finished :=
        let marked := registry.markCancelled host now task reason
        (some marked.1, marked.2)
      if task.runtime = .cli then finished
      else
        match trimmedMember task.childSessionKey with
        | none =>
          if isChildlessCodexNativeSubagentTask task then finished
          else (some (.refused "Task has no cancellable child session." task), registry)
        | some childSessionKey =>
          if task.runtime = .acp ∨ task.runtime = .subagent then
            (none,
              { registry with
                cancels := registry.cancels ++ [{ task, childSessionKey, reason }] })
          else (some (.refused "Task runtime does not support cancellation yet." task), registry)

/-- What the control of a session answers to a request to stop it. -/
inductive ControlAnswer where
  | stopped
  | notRunning
  | notFound
  | failed (message : String)

def settleCancel (host : TaskHost) (now : ℚ) (cancel : PendingCancel)
    (answer : ControlAnswer) (registry : Registry) : CancelResult × Registry :=
  let waiting := { registry with cancels := registry.cancels.erase cancel }
  match answer with
  | .stopped => waiting.markCancelled host now cancel.task cancel.reason
  | .notRunning => (.refused "Subagent was not running." cancel.task, waiting)
  | .notFound => (.refused "Subagent task not found." cancel.task, waiting)
  | .failed message => (.refused message cancel.task, waiting)

end Registry

end Tasks
