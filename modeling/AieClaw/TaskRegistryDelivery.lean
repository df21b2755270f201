import AieClaw.TaskRegistry

/-!
# Telling the owner of a task

When a task ends, its owner is told once: by a message to the channel that the
task was asked for from, or by an event in the session of the owner. A delivery
writes its message before it hands it over, and marks the task when the channel
has answered; anything can happen to the task in between.
-/

namespace Tasks

section Messages

variable (host : TaskHost)

def resolveTaskDisplayTitle (task : TaskRecord) : String :=
  let label := JsString.trim (task.label.getD "")
  let fallback :=
    match task.runtime with
    | .acp => "ACP background task"
    | .subagent => "Subagent task"
    | _ => JsString.orElse (JsString.trim task.task) "Background task"
  host.formatTaskStatusTitleText (JsString.orElse label fallback)

def resolveTaskRunLabel (task : TaskRecord) : String :=
  match task.runId with
  | none => ""
  | some "" => ""
  | some runId => " (run " ++ JsString.sliceStart runId 8 ++ ")"

/-- A sentence about a task, and a second one unless it is empty. -/
def taskSentence (opening : String) (task : TaskRecord) (more : String) : String :=
  let sentence := opening ++ resolveTaskDisplayTitle host task ++ resolveTaskRunLabel task ++ "."
  if more = "" then sentence
  else sentence ++ " " ++ more

/-- The error of a task or, without one, the summary of its end. -/
def failureText (task : TaskRecord) : String :=
  JsString.orElse (host.sanitizeTaskStatusText task.error true)
    (host.sanitizeTaskStatusText task.terminalSummary true)

def formatTaskTerminalMessage (task : TaskRecord) (toParent : Bool) : String :=
  let isBlocked := task.terminalOutcome = some .blocked
  let summary :=
    host.sanitizeTaskStatusText task.terminalSummary (task.status ≠ .succeeded || isBlocked)
  match task.status with
  | .succeeded =>
    if isBlocked then taskSentence host "Background task blocked: " task summary
    else if toParent then
      let reviewNext := "Next: parent will review/verify before calling it done."
      taskSentence host "Background task ready for review: " task
        (if summary = "" then reviewNext else summary ++ " " ++ reviewNext)
    else taskSentence host "Background task done: " task summary
  | .timedOut => taskSentence host "Background task timed out: " task ""
  | .lost =>
    taskSentence host "Background task lost: " task
      (JsString.orElse (failureText host task) "Backing session disappeared.")
  | .cancelled => taskSentence host "Background task cancelled: " task ""
  | _ => taskSentence host "Background task failed: " task (failureText host task)

/-- The message about a change of state, if the change is worth one. -/
def formatTaskStateChangeMessage (task : TaskRecord) (event : TaskEventRecord) : Option String :=
  match event.kind with
  | .status .running =>
    some ("Background task started: " ++ resolveTaskDisplayTitle host task ++ ".")
  | .progress =>
    let summary := host.sanitizeTaskStatusText event.summary false
    if summary = "" then none
    else some ("Background task update: " ++ resolveTaskDisplayTitle host task ++ ". " ++ summary)
  | _ => none

end Messages

def shouldUseParentReviewTaskTerminalMessage (task : TaskRecord) : Bool :=
  task.runtime = .acp && task.status = .succeeded &&
    task.terminalOutcome ≠ some .blocked &&
    (trimmedMember task.childSessionKey).isSome

def shouldAutoDeliverTaskTerminalUpdate (task : TaskRecord) : Bool :=
  if task.notifyPolicy = .silent then false
  else if task.runtime = .subagent ∧ task.status ≠ .cancelled then false
  else if !task.status.isTerminal then false
  else task.deliveryStatus = .pending

def shouldAutoDeliverTaskStateChange (task : TaskRecord) : Bool :=
  task.notifyPolicy = .stateChanges && task.deliveryStatus = .pending && !task.status.isTerminal

def shouldSuppressDuplicateTerminalDelivery (task : TaskRecord) (preferredTaskId : Option String) :
    Bool :=
  if task.runtime ≠ .acp ∨ (trimmedMember task.runId).isNone then false
  else
    match preferredTaskId with
    | none => false
    | some "" => false
    | some preferred => preferred ≠ task.taskId

/-- Whether two tasks run in the same scope. -/
def sharesRunScope (task candidate : TaskRecord) : Bool :=
  candidate.runtime = task.runtime && candidate.scopeKind = task.scopeKind &&
    SessionKeys.normalizeOptionalString candidate.ownerKey =
      SessionKeys.normalizeOptionalString task.ownerKey &&
    trimmedMember candidate.childSessionKey = trimmedMember task.childSessionKey

def taskLookupPriority (task : TaskRecord) : ℕ := if task.runtime = .cli then 1 else 0

/-- Whether a task stands before another when a run is looked up. -/
def isPreferred (candidate best : TaskRecord) : Bool :=
  taskLookupPriority candidate < taskLookupPriority best ||
    (taskLookupPriority candidate = taskLookupPriority best && candidate.createdAt < best.createdAt)

/-- The first of the tasks that no other one stands before. -/
def pickPreferredRunIdTask : List TaskRecord → Option TaskRecord
  | [] => none
  | task :: rest =>
    some
      (rest.foldl
        (fun best candidate => if isPreferred candidate best then candidate else best)
        task)

structure TaskDeliveryOwner where
  sessionKey : Option String := none
  requesterOrigin : Option DeliveryContext := none
  flowId : Option String := none

namespace Registry

def getPeerTasksForDelivery (registry : Registry) (task : TaskRecord) : List TaskRecord :=
  match trimmedMember task.runId with
  | none => []
  | some runId => (registry.getTasksByRunId runId).filter (sharesRunScope task)

/-- The flow whose owner also owns a task. -/
def getLinkedFlowForDelivery (registry : Registry) (task : TaskRecord) : Option TaskFlowRecord :=
  match trimmedMember task.parentFlowId with
  | none => none
  | some flowId =>
    if task.scopeKind ≠ .session then none
    else
      (registry.flowRegistry.getTaskFlowById flowId).filter fun flow =>
        SessionKeys.normalizeOptionalString flow.ownerKey =
          SessionKeys.normalizeOptionalString task.ownerKey

variable (host : TaskHost)

def resolveTaskDeliveryOwner (registry : Registry) (task : TaskRecord) :
    TaskDeliveryOwner :=
  let own := (registry.taskDeliveryStates.get? task.taskId).bind TaskDeliveryState.requesterOrigin
  match registry.getLinkedFlowForDelivery task with
  | some flow =>
    { sessionKey := some (JsString.trim flow.ownerKey)
      requesterOrigin := (flow.requesterOrigin.or own).bind host.normalizeDeliveryContext
      flowId := some flow.flowId }
  | none =>
    if task.scopeKind ≠ .session then {}
    else
      { sessionKey := some (JsString.trim task.ownerKey)
        requesterOrigin := own.bind host.normalizeDeliveryContext }

/-- The session that owns a task, unless it has no key. -/
def ownerSessionKey (registry : Registry) (task : TaskRecord) : Option String :=
  trimmedMember (registry.resolveTaskDeliveryOwner host task).sessionKey

def canDeliverTaskToRequesterOrigin (registry : Registry) (task : TaskRecord) :
    Bool :=
  let owner := registry.resolveTaskDeliveryOwner host task
  if host.shouldRouteCompletionThroughRequesterSession owner.sessionKey then false
  else
    let channel := trimmedMember (owner.requesterOrigin.bind (·.channel))
    let recipient := trimmedMember (owner.requesterOrigin.bind (·.recipient))
    recipient.isSome && (channel.map host.isDeliverableMessageChannel).getD false

def resolveMissingOwnerDeliveryStatus (task : TaskRecord) : TaskDeliveryStatus :=
  if task.scopeKind = .system then .notApplicable else .parentMissing

/-- Mark how far the delivery of a task is. -/
def markDelivery (now : ℚ) (taskId : String)
    (deliveryStatus : TaskDeliveryStatus) (registry : Registry) : TaskResult (Option TaskRecord) :=
  registry.updateTask host now taskId
    { deliveryStatus := some deliveryStatus, lastEventAt := some (some now) }

/-- Mark a delivery, or its failure when the first mark throws. -/
def markDeliveryOrFailed (now : ℚ) (taskId : String)
    (deliveryStatus : TaskDeliveryStatus) (registry : Registry) : TaskResult (Option TaskRecord) :=
  match registry.markDelivery host now taskId deliveryStatus with
  | (.ok task, marked) => (.ok task, marked)
  | (.error _, marked) => marked.markDelivery host now taskId .failed

/-- The delivery of a task is no longer pending. -/
def endDelivery (taskId : String) (registry : Registry) : Registry :=
  { registry with
    tasksWithPendingDelivery := registry.tasksWithPendingDelivery.filter (· ≠ taskId) }

/-- What a delivery that has begun does before it hands over a message. -/
def deliverTerminalUpdate (now : ℚ) (latest : TaskRecord) (registry : Registry) :
    Registry :=
  let taskId := latest.taskId
  let preferred :=
    if (latest.runId.getD "") = "" then none
    else pickPreferredRunIdTask (registry.getPeerTasksForDelivery latest)
  let review := shouldUseParentReviewTaskTerminalMessage latest
  let canDeliverDirect := registry.canDeliverTaskToRequesterOrigin host latest
  if shouldSuppressDuplicateTerminalDelivery latest (preferred.map TaskRecord.taskId) then
    (registry.markDelivery host now taskId .notApplicable).2.endDelivery taskId
  else if (registry.ownerSessionKey host latest).isNone then
    (registry.markDelivery host now taskId
      (resolveMissingOwnerDeliveryStatus latest)).2.endDelivery taskId
  else if review || !canDeliverDirect then
    (registry.markDeliveryOrFailed host now taskId
      (if review && canDeliverDirect then .pending
      else .sessionQueued)).2.endDelivery taskId
  else
    let delivery : TerminalDelivery :=
      { taskId
        latest
        directEventText := formatTaskTerminalMessage host latest false
        sessionEventText := formatTaskTerminalMessage host latest review }
    { registry with deliveries := registry.deliveries ++ [delivery] }

/--
Begin to tell the owner of a task about its end. A task whose delivery is
pending already is left to that delivery.
-/
def maybeDeliverTaskTerminalUpdate (now : ℚ) (taskId : String)
    (registry : Registry) : Registry :=
  match registry.tasks.get? taskId with
  | none => registry
  | some current =>
    if !shouldAutoDeliverTaskTerminalUpdate current then registry
    else if taskId ∈ registry.tasksWithPendingDelivery then registry
    else
      { registry with
        tasksWithPendingDelivery := registry.tasksWithPendingDelivery ++ [taskId]
      }.deliverTerminalUpdate host now current

/-- The channel accepts or rejects the message of a delivery. -/
def settleTerminalDelivery (now : ℚ) (delivery : TerminalDelivery)
    (accepted : Bool) (registry : Registry) : Registry :=
  let waiting := { registry with deliveries := registry.deliveries.erase delivery }
  if accepted then
    let announcement : Announcement :=
      { taskId := delivery.taskId
        status := delivery.latest.status
        content := delivery.directEventText }
    let told := { waiting with announced := waiting.announced ++ [announcement] }
    (told.markDeliveryOrFailed host now delivery.taskId .delivered).2.endDelivery delivery.taskId
  else (waiting.markDelivery host now delivery.taskId .failed).2.endDelivery delivery.taskId

/-- Note that the owner was told about an event. -/
def noteStateChange (now : ℚ) (taskId : String)
    (requesterOrigin : Option DeliveryContext) (latestEvent : TaskEventRecord)
    (registry : Registry) : Registry :=
  match registry.upsertTaskDeliveryState host
      { taskId, requesterOrigin
        lastNotifiedEventAt := some latestEvent.at_ } with
  | (.ok _, noted) => (noted.updateTask host now taskId { lastEventAt := some (some now) }).2
  | (.error _, noted) => noted

/-- Begin to tell the owner of a task about an event of its run. -/
def maybeDeliverTaskStateChangeUpdate (now : ℚ) (taskId : String)
    (latestEvent : Option TaskEventRecord) (registry : Registry) : Registry :=
  match registry.tasks.get? taskId, latestEvent with
  | some current, some event =>
    let deliveryState := registry.taskDeliveryStates.get? taskId
    let requesterOrigin := deliveryState.bind (·.requesterOrigin)
    let lastNotifiedEventAt := (deliveryState.bind (·.lastNotifiedEventAt)).getD 0
    if !shouldAutoDeliverTaskStateChange current ||
        event.at_ ≤ lastNotifiedEventAt ||
        (formatTaskStateChangeMessage host current event).isNone then
      registry
    else if (registry.ownerSessionKey host current).isNone then
      (registry.markDelivery host now taskId (resolveMissingOwnerDeliveryStatus current)).2
    else if !registry.canDeliverTaskToRequesterOrigin host current then
      registry.noteStateChange host now taskId requesterOrigin event
    else
      { registry with
        stateChanges :=
          registry.stateChanges ++ [{ taskId, latestEvent := event, requesterOrigin }] }
  | _, _ => registry

/-- The channel accepts or rejects the message about an event. -/
def settleStateChangeDelivery (now : ℚ) (delivery : StateChangeDelivery)
    (accepted : Bool) (registry : Registry) : Registry :=
  let waiting := { registry with stateChanges := registry.stateChanges.erase delivery }
  if accepted then
    waiting.noteStateChange host now delivery.taskId delivery.requesterOrigin delivery.latestEvent
  else waiting

end Registry

end Tasks
