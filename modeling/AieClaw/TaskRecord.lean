import AieClaw.SessionKeys
import Mathlib.Algebra.Order.Field.Rat

/-!
# Task records

A task is one run of background work: what it is about, who owns it, how far it
is and whether its owner was told. This module has the record, the patches that
change it and the rules that every change of a record goes through.
-/

namespace Tasks

inductive TaskRuntime where
  | subagent
  | acp
  | cli
  | cron
  deriving DecidableEq

inductive TaskStatus where
  | queued
  | running
  | succeeded
  | failed
  | timedOut
  | cancelled
  | lost
  deriving DecidableEq

inductive TaskDeliveryStatus where
  | pending
  | delivered
  | sessionQueued
  | failed
  | parentMissing
  | notApplicable
  deriving DecidableEq

inductive TaskNotifyPolicy where
  | doneOnly
  | stateChanges
  | silent
  deriving DecidableEq

inductive TaskTerminalOutcome where
  | succeeded
  | blocked
  deriving DecidableEq

inductive TaskScopeKind where
  | session
  | system
  deriving DecidableEq

/-- A thread of a channel, by its name or its number. -/
inductive RouteThreadId where
  | text (value : String)
  | number (value : ℚ)
  deriving DecidableEq

/-- Where the answers to a requester go. -/
structure DeliveryContext where
  channel : Option String := none
  recipient : Option String := none
  accountId : Option String := none
  threadId : Option RouteThreadId := none
  deriving DecidableEq

structure TaskDeliveryState where
  taskId : String
  requesterOrigin : Option DeliveryContext := none
  lastNotifiedEventAt : Option ℚ := none

structure TaskRecord where
  taskId : String
  runtime : TaskRuntime
  taskKind : Option String := none
  sourceId : Option String := none
  requesterSessionKey : String
  ownerKey : String
  scopeKind : TaskScopeKind
  childSessionKey : Option String := none
  parentFlowId : Option String := none
  parentTaskId : Option String := none
  agentId : Option String := none
  runId : Option String := none
  label : Option String := none
  task : String
  status : TaskStatus
  deliveryStatus : TaskDeliveryStatus
  notifyPolicy : TaskNotifyPolicy
  createdAt : ℚ
  startedAt : Option ℚ := none
  endedAt : Option ℚ := none
  lastEventAt : Option ℚ := none
  cleanupAfter : Option ℚ := none
  error : Option String := none
  progressSummary : Option String := none
  terminalSummary : Option String := none
  terminalOutcome : Option TaskTerminalOutcome := none
  deriving DecidableEq

/--
The members of a record that some operation writes. A member that is not
patched is `none`; one that is patched with `undefined` is `some none`.
-/
structure TaskPatch where
  taskKind : Option (Option String) := none
  sourceId : Option (Option String) := none
  parentFlowId : Option (Option String) := none
  parentTaskId : Option (Option String) := none
  agentId : Option (Option String) := none
  label : Option (Option String) := none
  task : Option String := none
  status : Option TaskStatus := none
  deliveryStatus : Option TaskDeliveryStatus := none
  notifyPolicy : Option TaskNotifyPolicy := none
  startedAt : Option (Option ℚ) := none
  endedAt : Option (Option ℚ) := none
  lastEventAt : Option (Option ℚ) := none
  cleanupAfter : Option (Option ℚ) := none
  error : Option (Option String) := none
  progressSummary : Option (Option String) := none
  terminalSummary : Option (Option String) := none
  terminalOutcome : Option (Option TaskTerminalOutcome) := none
  deriving DecidableEq

/-- The record with the patched members in place of its own. -/
def TaskRecord.patched (current : TaskRecord) (patch : TaskPatch) : TaskRecord :=
  { current with
    taskKind := patch.taskKind.getD current.taskKind
    sourceId := patch.sourceId.getD current.sourceId
    parentFlowId := patch.parentFlowId.getD current.parentFlowId
    parentTaskId := patch.parentTaskId.getD current.parentTaskId
    agentId := patch.agentId.getD current.agentId
    label := patch.label.getD current.label
    task := patch.task.getD current.task
    status := patch.status.getD current.status
    deliveryStatus := patch.deliveryStatus.getD current.deliveryStatus
    notifyPolicy := patch.notifyPolicy.getD current.notifyPolicy
    startedAt := patch.startedAt.getD current.startedAt
    endedAt := patch.endedAt.getD current.endedAt
    lastEventAt := patch.lastEventAt.getD current.lastEventAt
    cleanupAfter := patch.cleanupAfter.getD current.cleanupAfter
    error := patch.error.getD current.error
    progressSummary := patch.progressSummary.getD current.progressSummary
    terminalSummary := patch.terminalSummary.getD current.terminalSummary
    terminalOutcome := patch.terminalOutcome.getD current.terminalOutcome }

/-- A member without the white space around it; a blank one is missing. -/
def trimmedMember (value : Option String) : Option String :=
  value.bind SessionKeys.normalizeOptionalString

theorem trimmedMember_of_eq_some {value : Option String} {key : String}
    (trimmed : trimmedMember value = some key) : trimmedMember (some key) = some key := by
  obtain ⟨text, -, normalized⟩ := Option.bind_eq_some_iff.mp trimmed
  exact SessionKeys.normalizeOptionalString_of_eq_some normalized

theorem trimmedMember_congr {left right : Option String}
    (same : left.map JsString.trim = right.map JsString.trim) :
    trimmedMember left = trimmedMember right := by
  have viaTrim (value : Option String) : trimmedMember value =
        (value.map JsString.trim).bind fun trimmed =>
          if trimmed = "" then none else some trimmed := by
    cases value <;> rfl
  rw [viaTrim, viaTrim, same]

/-- A summary on one line; a blank one is missing. -/
def normalizeTaskSummary (value : Option String) : Option String :=
  value.bind fun summary =>
    SessionKeys.normalizeOptionalString (JsString.collapseWhitespace summary)

def TaskStatus.isTerminal : TaskStatus → Bool
  | .succeeded | .failed | .timedOut | .cancelled | .lost => true
  | .queued | .running => false

def TaskStatus.isActive : TaskStatus → Bool
  | .queued | .running => true
  | _ => false

/-- Whether an update by run may write a status over another. -/
def shouldApplyRunScopedStatusUpdate (currentStatus nextStatus : TaskStatus) : Bool :=
  if currentStatus = nextStatus then true
  else if !currentStatus.isTerminal then true
  else if !nextStatus.isTerminal then false
  else currentStatus = .succeeded && nextStatus ≠ .lost

def resolveTaskTerminalOutcome (status : TaskStatus)
    (terminalOutcome : Option TaskTerminalOutcome) : Option TaskTerminalOutcome :=
  match terminalOutcome with
  | some outcome => some outcome
  | none => if status = .succeeded then some .succeeded else none

/-- A time, or one that is recorded and earlier. -/
def earlierOf (createdAt : ℚ) (candidate : Option ℚ) : ℚ :=
  match candidate with
  | some time => if time < createdAt then time else createdAt
  | none => createdAt

/-- The earliest of the times that a record has. -/
def TaskRecord.earliest (task : TaskRecord) : ℚ :=
  [task.startedAt, task.lastEventAt, task.endedAt].foldl earlierOf task.createdAt

/-- The record with its creation before, and its end after, its start. -/
def normalizeTaskTimestamps (task : TaskRecord) : TaskRecord :=
  let createdAt := task.earliest
  let startedAt := task.startedAt.map fun time => max time createdAt
  let start := startedAt.getD createdAt
  { task with
    createdAt
    startedAt
    lastEventAt := task.lastEventAt.map fun time => max time start
    endedAt := task.endedAt.map fun time => max time start }

/-- The times of a record stand in the order of its life. -/
structure TaskRecord.TimesOrdered (task : TaskRecord) : Prop where
  started : ∀ time ∈ task.startedAt, task.createdAt ≤ time
  ended : ∀ time ∈ task.endedAt, task.createdAt ≤ time
  endedAfterStart : ∀ start ∈ task.startedAt, ∀ time ∈ task.endedAt, start ≤ time
  noted : ∀ time ∈ task.lastEventAt, task.createdAt ≤ time
  notedAfterStart : ∀ start ∈ task.startedAt, ∀ time ∈ task.lastEventAt, start ≤ time

private theorem createdAt_le_start (task : TaskRecord) : (normalizeTaskTimestamps task).createdAt ≤
      (normalizeTaskTimestamps task).startedAt.getD (normalizeTaskTimestamps task).createdAt := by
  simp only [normalizeTaskTimestamps]
  cases task.startedAt with
  | none => exact le_refl _
  | some time => exact le_max_right _ _

theorem timesOrdered_normalizeTaskTimestamps (task : TaskRecord) :
    (normalizeTaskTimestamps task).TimesOrdered := by
  have created := createdAt_le_start task
  have behind {recorded : Option ℚ} {start time : ℚ}
      (member : time ∈ recorded.map fun time => max time start) : start ≤ time := by
    obtain ⟨known, -, rfl⟩ := Option.mem_map.mp member
    exact le_max_right _ _
  have behindStart {recorded : Option ℚ} {start time : ℚ}
      (isStart : start ∈ (normalizeTaskTimestamps task).startedAt)
    (member :
      time ∈ recorded.map fun time => max time ((normalizeTaskTimestamps task).startedAt.getD
            (normalizeTaskTimestamps task).createdAt)) : start ≤ time := by
    have known : (normalizeTaskTimestamps task).startedAt = some start := isStart
    rw [known, Option.getD_some] at member
    exact behind member
  constructor
  · intro time member
    exact behind member
  · intro time member
    exact created.trans (behind member)
  · intro start isStart time member
    exact behindStart isStart member
  · intro time member
    exact created.trans (behind member)
  · intro start isStart time member
    exact behindStart isStart member

/-- Times that are in order are left alone. -/
theorem normalizeTaskTimestamps_of_timesOrdered {task : TaskRecord} (ordered : task.TimesOrdered) :
    normalizeTaskTimestamps task = task := by
  have kept {recorded : Option ℚ} {bound : ℚ} (above : ∀ time ∈ recorded, bound ≤ time) :
      recorded.map (fun time => max time bound) = recorded := by
    cases recorded with
    | none => rfl
    | some time => rw [Option.map_some, max_eq_left (above time rfl)]
  have floor {recorded : Option ℚ} {bound : ℚ} (above : ∀ time ∈ recorded, bound ≤ time) :
      earlierOf bound recorded = bound := by
    cases recorded with
    | none => rfl
    | some time => exact if_neg (not_lt.mpr (above time rfl))
  have earliest : task.earliest = task.createdAt := by
    simp [TaskRecord.earliest, floor ordered.started, floor ordered.noted, floor ordered.ended]
  have bound : task.startedAt.getD task.createdAt = task.createdAt ∨
        ∃ start, task.startedAt = some start := by
    cases task.startedAt with
    | none => exact Or.inl rfl
    | some start => exact Or.inr ⟨start, rfl⟩
  have endedBehind : ∀ time ∈ task.endedAt, task.startedAt.getD task.createdAt ≤ time := by
    intro time member
    rcases bound with missing | ⟨start, known⟩
    · rw [missing]
      exact ordered.ended time member
    · rw [known]
      exact ordered.endedAfterStart start known time member
  have notedBehind : ∀ time ∈ task.lastEventAt, task.startedAt.getD task.createdAt ≤ time := by
    intro time member
    rcases bound with missing | ⟨start, known⟩
    · rw [missing]
      exact ordered.noted time member
    · rw [known]
      exact ordered.notedAfterStart start known time member
  simp only [normalizeTaskTimestamps, earliest, kept ordered.started,
    kept endedBehind, kept notedBehind]

end Tasks
