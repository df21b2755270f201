import AieClaw.JsonValue
import AieClaw.OrderedMap
import AieClaw.TaskRecord

/-!
# Task flows

A flow groups tasks under one owner. A managed flow is changed by its
controller, who names the revision that it read; a mirrored flow follows its
only task. The registry keeps every flow in memory and writes it to a store.
-/

namespace Tasks

inductive TaskFlowSyncMode where
  | taskMirrored
  | managed
  deriving DecidableEq

inductive TaskFlowStatus where
  | queued
  | running
  | waiting
  | blocked
  | succeeded
  | failed
  | cancelled
  | lost
  deriving DecidableEq

namespace TaskFlowStatus

def isTerminal : TaskFlowStatus → Bool
  | .succeeded | .failed | .cancelled | .lost => true
  | _ => false

/-- The statuses at which a mirrored flow ends. -/
def isMirroredEnd : TaskFlowStatus → Bool
  | .succeeded | .blocked | .failed | .cancelled | .lost => true
  | _ => false

end TaskFlowStatus

structure TaskFlowRecord where
  flowId : String
  syncMode : TaskFlowSyncMode
  ownerKey : String
  requesterOrigin : Option DeliveryContext := none
  controllerId : Option String := none
  revision : ℕ
  status : TaskFlowStatus
  notifyPolicy : TaskNotifyPolicy
  goal : String
  currentStep : Option String := none
  blockedTaskId : Option String := none
  blockedSummary : Option String := none
  stateJson : Option JsonValue := none
  waitJson : Option JsonValue := none
  cancelRequestedAt : Option ℚ := none
  createdAt : ℚ
  updatedAt : ℚ
  endedAt : Option ℚ := none

/--
A change of a flow. A member that is left alone is `none`; where `null` clears
a member, clearing is `some none`.
-/
structure FlowRecordPatch where
  status : Option TaskFlowStatus := none
  notifyPolicy : Option TaskNotifyPolicy := none
  goal : Option String := none
  currentStep : Option (Option String) := none
  blockedTaskId : Option (Option String) := none
  blockedSummary : Option (Option String) := none
  controllerId : Option (Option String) := none
  stateJson : Option JsonValue := none
  waitJson : Option JsonValue := none
  cancelRequestedAt : Option (Option ℚ) := none
  updatedAt : Option ℚ := none
  endedAt : Option (Option ℚ) := none

inductive FlowError where
  | ownerKeyRequired
  | controllerIdRequired
  | storeFailed
  deriving DecidableEq

/-- The text of the error that a caller sees. -/
def FlowError.message : FlowError → Option String
  | .ownerKeyRequired => some "Flow ownerKey is required."
  | .controllerIdRequired => some "Managed flow controllerId is required."
  | .storeFailed => none

/-- The flows in memory and the number of writes that the store was asked for. -/
structure FlowRegistry where
  flows : OrderedMap String TaskFlowRecord
  writes : ℕ

namespace FlowRegistry

def empty : FlowRegistry where
  flows := OrderedMap.empty
  writes := 0

/-- The outcome of an operation and the registry that it leaves. -/
abbrev Result (Value : Type) := Except FlowError Value × FlowRegistry

def getTaskFlowById (registry : FlowRegistry) (flowId : String) : Option TaskFlowRecord :=
  registry.flows.get? flowId

def assertControllerId (controllerId : Option String) : Except FlowError String :=
  match trimmedMember controllerId with
  | some normalized => .ok normalized
  | none => .error .controllerIdRequired

def assertFlowOwnerKey (ownerKey : String) : Except FlowError String :=
  match SessionKeys.normalizeOptionalString ownerKey with
  | some normalized => .ok normalized
  | none => .error .ownerKeyRequired

/--
A stored flow as it is kept in memory; a managed flow without a controller gets
one.
-/
def normalizeRestoredFlowRecord (record : TaskFlowRecord) : Except FlowError TaskFlowRecord :=
  (assertFlowOwnerKey record.ownerKey).map fun ownerKey =>
    { record with
      ownerKey
      controllerId :=
        if record.syncMode = .managed then
          some ((trimmedMember record.controllerId).getD "core/legacy-restored")
        else record.controllerId
      currentStep := trimmedMember record.currentStep
      blockedTaskId := trimmedMember record.blockedTaskId
      blockedSummary := trimmedMember record.blockedSummary }

/-- Read stored flows into memory, up to the first one that is not valid. -/
def restoreFlows : List TaskFlowRecord →
    OrderedMap String TaskFlowRecord →
    Except FlowError (OrderedMap String TaskFlowRecord)
  | [], known => .ok known
  | stored :: rest, known =>
    match normalizeRestoredFlowRecord stored with
    | .ok record => restoreFlows rest (known.set stored.flowId record)
    | .error error => .error error

/-- The registry that has just read its store; one bad flow leaves none. -/
def restored (flows : List TaskFlowRecord) : FlowRegistry :=
  match restoreFlows flows OrderedMap.empty with
  | .ok known => { flows := known, writes := 0 }
  | .error _ => empty

theorem restored_invariant (holds : OrderedMap String TaskFlowRecord → Prop)
    (initially : holds OrderedMap.empty) (kept : ∀ known stored record,
        normalizeRestoredFlowRecord stored = .ok record →
        holds known →
        holds (known.set stored.flowId record)) (flows : List TaskFlowRecord) :
    holds (restored flows).flows := by
  have read (flows : List TaskFlowRecord) : ∀ known, holds known →
        ∀ result, restoreFlows flows known = .ok result → holds result := by
    induction flows with
    | nil =>
      intro known holdsKnown result isResult
      obtain rfl := Except.ok.inj isResult
      exact holdsKnown
    | cons stored rest inductionHypothesis =>
      intro known holdsKnown result isResult
      rw [restoreFlows] at isResult
      cases normalized : normalizeRestoredFlowRecord stored with
      | error error => simp [normalized] at isResult
      | ok record =>
        rw [normalized] at isResult
        exact inductionHypothesis _ (kept known stored record normalized holdsKnown) result isResult
  unfold restored
  split
  next known isRead => exact read flows OrderedMap.empty initially known isRead
  · exact initially

/-- A string member after a patch. -/
def patchedMember (current : Option String) (patch : Option (Option String)) : Option String :=
  match patch with
  | none => current
  | some value => trimmedMember value

/-- The flow after a patch, one revision later. -/
def applyFlowPatch (now : ℚ) (current : TaskFlowRecord) (patch : FlowRecordPatch) :
    Except FlowError TaskFlowRecord :=
  let controllerId := patchedMember current.controllerId patch.controllerId
  let next : TaskFlowRecord :=
    { current with
      status := patch.status.getD current.status
      notifyPolicy := patch.notifyPolicy.getD current.notifyPolicy
      goal := JsString.orElse (patch.goal.getD "") current.goal
      controllerId
      currentStep := patchedMember current.currentStep patch.currentStep
      blockedTaskId := patchedMember current.blockedTaskId patch.blockedTaskId
      blockedSummary := patchedMember current.blockedSummary patch.blockedSummary
      stateJson := patch.stateJson.or current.stateJson
      waitJson := patch.waitJson.or current.waitJson
      cancelRequestedAt := patch.cancelRequestedAt.getD current.cancelRequestedAt
      revision := current.revision + 1
      updatedAt := patch.updatedAt.getD now
      endedAt := patch.endedAt.getD current.endedAt }
  if current.syncMode = .managed then (assertControllerId controllerId).map fun _ => next
  else .ok next

variable (store : ℕ → Bool)

/-- Put a flow into memory, then into the store; `store n` is the n-th write. -/
def writeFlowRecord (next : TaskFlowRecord) (registry : FlowRegistry) :
    Result TaskFlowRecord :=
  let written : FlowRegistry :=
    { flows := registry.flows.set next.flowId next
      writes := registry.writes + 1 }
  if store registry.writes then (.ok next, written)
  else (.error .storeFailed, written)

/-- Patch a flow that is in memory and write it. -/
def patchFlow (now : ℚ) (current : TaskFlowRecord)
    (patch : FlowRecordPatch) (registry : FlowRegistry) : Result TaskFlowRecord :=
  match applyFlowPatch now current patch with
  | .ok next => writeFlowRecord store next registry
  | .error error => (.error error, registry)

def updateFlowRecordByIdUnchecked (now : ℚ) (flowId : String)
    (patch : FlowRecordPatch) (registry : FlowRegistry) : Result (Option TaskFlowRecord) :=
  match registry.flows.get? flowId with
  | none => (.ok none, registry)
  | some current =>
    let result := patchFlow store now current patch registry
    (result.1.map some, result.2)

inductive TaskFlowUpdateResult where
  | applied (flow : TaskFlowRecord)
  | notFound
  | revisionConflict (current : TaskFlowRecord)

/-- Patch a flow if it is still at the revision that the caller read. -/
def updateFlowRecordByIdExpectedRevision (now : ℚ) (flowId : String)
    (expectedRevision : ℕ) (patch : FlowRecordPatch) (registry : FlowRegistry) :
    Result TaskFlowUpdateResult :=
  match registry.flows.get? flowId with
  | none => (.ok .notFound, registry)
  | some current =>
    if current.revision ≠ expectedRevision then (.ok (.revisionConflict current), registry)
    else
      let result := patchFlow store now current patch registry
      (result.1.map .applied, result.2)

structure FlowWaitingParams where
  currentStep : Option (Option String) := none
  stateJson : Option JsonValue := none
  waitJson : Option JsonValue := none
  blockedTaskId : Option (Option String) := none
  blockedSummary : Option (Option String) := none
  updatedAt : Option ℚ := none

/-- The patch of `setFlowWaiting`. -/
def FlowWaitingParams.patch (params : FlowWaitingParams) : FlowRecordPatch where
  status :=
    if (trimmedMember params.blockedTaskId.join).isSome ||
        (trimmedMember params.blockedSummary.join).isSome then
      some .blocked
    else some .waiting
  currentStep := params.currentStep
  stateJson := params.stateJson
  waitJson := params.waitJson
  blockedTaskId := params.blockedTaskId
  blockedSummary := params.blockedSummary
  endedAt := some none
  updatedAt := params.updatedAt

inductive ResumedStatus where
  | queued
  | running
  deriving DecidableEq

def ResumedStatus.toFlowStatus : ResumedStatus → TaskFlowStatus
  | .queued => .queued
  | .running => .running

structure FlowResumeParams where
  status : Option ResumedStatus := none
  currentStep : Option (Option String) := none
  stateJson : Option JsonValue := none
  updatedAt : Option ℚ := none

/-- The patch of `resumeFlow`. -/
def FlowResumeParams.patch (params : FlowResumeParams) : FlowRecordPatch where
  status := some ((params.status.map ResumedStatus.toFlowStatus).getD .queued)
  currentStep := params.currentStep
  stateJson := params.stateJson
  waitJson := some .null
  blockedTaskId := some none
  blockedSummary := some none
  endedAt := some none
  updatedAt := params.updatedAt

structure FlowFinishParams where
  currentStep : Option (Option String) := none
  stateJson : Option JsonValue := none
  updatedAt : Option ℚ := none
  endedAt : Option ℚ := none

/-- The patch of `finishFlow`. -/
def FlowFinishParams.patch (now : ℚ) (params : FlowFinishParams) : FlowRecordPatch :=
  let endedAt := (params.endedAt.or params.updatedAt).getD now
  { status := some .succeeded
    currentStep := params.currentStep
    stateJson := params.stateJson
    waitJson := some .null
    blockedTaskId := some none
    blockedSummary := some none
    endedAt := some (some endedAt)
    updatedAt := some (params.updatedAt.getD endedAt) }

structure FlowFailParams where
  currentStep : Option (Option String) := none
  stateJson : Option JsonValue := none
  blockedTaskId : Option (Option String) := none
  blockedSummary : Option (Option String) := none
  updatedAt : Option ℚ := none
  endedAt : Option ℚ := none

/-- The patch of `failFlow`. -/
def FlowFailParams.patch (now : ℚ) (params : FlowFailParams) : FlowRecordPatch :=
  let endedAt := (params.endedAt.or params.updatedAt).getD now
  { status := some .failed
    currentStep := params.currentStep
    stateJson := params.stateJson
    waitJson := some .null
    blockedTaskId := params.blockedTaskId
    blockedSummary := params.blockedSummary
    endedAt := some (some endedAt)
    updatedAt := some (params.updatedAt.getD endedAt) }

structure FlowCancelParams where
  cancelRequestedAt : Option ℚ := none
  updatedAt : Option ℚ := none

/-- The patch of `requestFlowCancel`. -/
def FlowCancelParams.patch (now : ℚ) (params : FlowCancelParams) : FlowRecordPatch where
  cancelRequestedAt := some (some ((params.cancelRequestedAt.or params.updatedAt).getD now))
  updatedAt := params.updatedAt

/-- An operation that names the revision which its caller read. -/
inductive FlowOperation where
  | setFlowWaiting (params : FlowWaitingParams)
  | resumeFlow (params : FlowResumeParams)
  | finishFlow (params : FlowFinishParams)
  | failFlow (params : FlowFailParams)
  | requestFlowCancel (params : FlowCancelParams)
  | updateFlowRecord (patch : FlowRecordPatch)

def FlowOperation.patch (now : ℚ) : FlowOperation → FlowRecordPatch
  | .setFlowWaiting params => params.patch
  | .resumeFlow params => params.patch
  | .finishFlow params => params.patch now
  | .failFlow params => params.patch now
  | .requestFlowCancel params => params.patch now
  | .updateFlowRecord patch => patch

/-- Run an operation on a flow at the revision that its caller read. -/
def performFlowOperation (now : ℚ) (flowId : String)
    (expectedRevision : ℕ) (operation : FlowOperation) (registry : FlowRegistry) :
    Result TaskFlowUpdateResult :=
  updateFlowRecordByIdExpectedRevision store now flowId expectedRevision
    (operation.patch now) registry

structure CreateFlowRecordParams where
  ownerKey : String
  requesterOrigin : Option DeliveryContext := none
  status : Option TaskFlowStatus := none
  notifyPolicy : Option TaskNotifyPolicy := none
  goal : String
  currentStep : Option String := none
  blockedTaskId : Option String := none
  blockedSummary : Option String := none
  stateJson : Option JsonValue := none
  waitJson : Option JsonValue := none
  cancelRequestedAt : Option ℚ := none
  createdAt : Option ℚ := none
  updatedAt : Option ℚ := none
  endedAt : Option ℚ := none
  syncMode : Option TaskFlowSyncMode := none
  controllerId : Option String := none
  revision : Option ℕ := none

def buildFlowRecord (now : ℚ) (flowId : String) (params : CreateFlowRecordParams) :
    Except FlowError TaskFlowRecord :=
  let createdAt := params.createdAt.getD now
  let syncMode := params.syncMode.getD .managed
  let controllerId : Except FlowError (Option String) :=
    if syncMode = .managed then (assertControllerId params.controllerId).map some
    else .ok none
  controllerId.bind fun controllerId =>
    (assertFlowOwnerKey params.ownerKey).map fun ownerKey =>
      { flowId, syncMode, ownerKey
        requesterOrigin := params.requesterOrigin
        controllerId
        revision := params.revision.getD 0
        status := params.status.getD .queued
        notifyPolicy := params.notifyPolicy.getD .doneOnly
        goal := params.goal
        currentStep := trimmedMember params.currentStep
        blockedTaskId := trimmedMember params.blockedTaskId
        blockedSummary := trimmedMember params.blockedSummary
        stateJson := params.stateJson
        waitJson := params.waitJson
        cancelRequestedAt := params.cancelRequestedAt
        createdAt
        updatedAt := params.updatedAt.getD createdAt
        endedAt := params.endedAt }

/-- Create a flow under a new identity. -/
def createFlowRecord (now : ℚ) (flowId : String)
    (params : CreateFlowRecordParams) (registry : FlowRegistry) : Result TaskFlowRecord :=
  match buildFlowRecord now flowId params with
  | .ok record => writeFlowRecord store record registry
  | .error error => (.error error, registry)

def deriveTaskFlowStatusFromTask (task : TaskRecord) : TaskFlowStatus :=
  match task.status with
  | .queued => .queued
  | .running => .running
  | .succeeded => if task.terminalOutcome = some .blocked then .blocked else .succeeded
  | .cancelled => .cancelled
  | .lost => .lost
  | _ => .failed

def resolveFlowBlockedSummary (task : TaskRecord) : Option String :=
  if task.status = .succeeded ∧ task.terminalOutcome = some .blocked then
    (trimmedMember task.terminalSummary).or (trimmedMember task.progressSummary)
  else none

/-- When a mirrored flow was updated and, at its end, when it ended. -/
def resolveTaskMirroredFlowTiming (createdAt : ℚ) (task : TaskRecord) (isEnd : Bool) :
    ℚ × Option ℚ :=
  if isEnd then
    let endedAt := (task.endedAt.or task.lastEventAt).getD createdAt
    (endedAt, some endedAt)
  else (task.lastEventAt.getD createdAt, none)

/-- The goal that a task gives to its flow. -/
def goalOfTask (task : TaskRecord) : String :=
  (trimmedMember task.label).getD (JsString.orElse (JsString.trim task.task) "Background task")

/-- Bring a mirrored flow up to date with its task. -/
def syncFlowFromTask (now : ℚ) (task : TaskRecord) (registry : FlowRegistry) :
    Result (Option TaskFlowRecord) :=
  match trimmedMember task.parentFlowId with
  | none => (.ok none, registry)
  | some flowId =>
    match registry.getTaskFlowById flowId with
    | none => (.ok none, registry)
    | some flow =>
      if flow.syncMode ≠ .taskMirrored then (.ok (some flow), registry)
      else
        let status := deriveTaskFlowStatusFromTask task
        let isEnd := status.isMirroredEnd
        let timing := resolveTaskMirroredFlowTiming flow.createdAt task isEnd
        updateFlowRecordByIdUnchecked store now flowId
          { status := some status
            notifyPolicy := some task.notifyPolicy
            goal := some (goalOfTask task)
            blockedTaskId :=
              some (if status = .blocked then SessionKeys.normalizeOptionalString task.taskId
              else none)
            blockedSummary :=
              some (if status = .blocked then resolveFlowBlockedSummary task
              else none)
            waitJson := some .null
            updatedAt := some timing.1
            endedAt := some (if isEnd then timing.2 else none) }
          registry

def createTaskFlowForTask (now : ℚ) (flowId : String) (task : TaskRecord)
    (requesterOrigin : Option DeliveryContext) (registry : FlowRegistry) : Result TaskFlowRecord :=
  let status := deriveTaskFlowStatusFromTask task
  let timing := resolveTaskMirroredFlowTiming task.createdAt task status.isMirroredEnd
  createFlowRecord store now flowId
    { syncMode := some .taskMirrored
      ownerKey := task.ownerKey
      requesterOrigin
      status := some status
      notifyPolicy := some task.notifyPolicy
      goal := goalOfTask task
      blockedTaskId :=
        if status = .blocked then SessionKeys.normalizeOptionalString task.taskId
        else none
      blockedSummary := resolveFlowBlockedSummary task
      createdAt := some task.createdAt
      updatedAt := some timing.1
      endedAt := timing.2 }
    registry

/-- Forget a flow, then delete it from the store. -/
def deleteTaskFlowRecordById (flowId : String) (registry : FlowRegistry) :
    Result Bool :=
  match registry.flows.get? flowId with
  | none => (.ok false, registry)
  | some _ =>
    let without : FlowRegistry :=
      { flows := registry.flows.delete flowId
        writes := registry.writes + 1 }
    if store registry.writes then (.ok true, without)
    else (.error .storeFailed, without)

end FlowRegistry

end Tasks
