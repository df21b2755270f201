import AieClaw.InvertedIndex
import AieClaw.TaskFlowRegistry
import AieClaw.TaskRegistryStore

/-!
# The task registry

The registry keeps every task and its delivery state in memory, with four
indexes from keys to tasks, and writes each change to a store after making it.
A write can fail; the operation then throws, and the change stays in memory.
-/

namespace Tasks

/-- How long a task is kept after its end. -/
def defaultTaskRetentionMs : ℚ := 7 * 24 * 60 * 60000

inductive ParentFlowLinkErrorCode where
  | scopeKindNotSession
  | parentFlowNotFound
  | ownerKeyMismatch
  | cancelRequested
  | terminal
  deriving DecidableEq

inductive TaskError where
  | ownerKeyRequired
  | parentFlowLink
      (code : ParentFlowLinkErrorCode) (flowId : String) (status : Option TaskFlowStatus)
  | storeFailed

/-- A delivery whose message was handed to the channel and is not settled. -/
structure TerminalDelivery where
  taskId : String
  /-- The task when the message was written. -/
  latest : TaskRecord
  directEventText : String
  sessionEventText : String
  deriving DecidableEq

inductive TaskEventKind where
  | status (status : TaskStatus)
  | progress
  deriving DecidableEq

structure TaskEventRecord where
  at_ : ℚ
  kind : TaskEventKind
  summary : Option String := none
  deriving DecidableEq

/-- A message about a change of state that is not settled. -/
structure StateChangeDelivery where
  taskId : String
  latestEvent : TaskEventRecord
  requesterOrigin : Option DeliveryContext
  deriving DecidableEq

/-- A message about the end of a task that a channel accepted. -/
structure Announcement where
  taskId : String
  status : TaskStatus
  content : String

/-- A cancellation that waits for the control of its session to answer. -/
structure PendingCancel where
  task : TaskRecord
  childSessionKey : String
  reason : Option String
  deriving DecidableEq

/-- The registry, what it waits for, and what it announced. -/
structure Registry where
  tasks : OrderedMap String TaskRecord
  taskDeliveryStates : OrderedMap String TaskDeliveryState
  taskIdsByRunId : InvertedIndex String String
  taskIdsByOwnerKey : InvertedIndex String String
  taskIdsByParentFlowId : InvertedIndex String String
  taskIdsByRelatedSessionKey : InvertedIndex String String
  tasksWithPendingDelivery : List String
  store : TaskStore
  writes : ℕ
  flowRegistry : FlowRegistry
  deliveries : List TerminalDelivery
  stateChanges : List StateChangeDelivery
  announced : List Announcement
  cancels : List PendingCancel

/-- The outcome of an operation and the registry that it leaves. -/
abbrev TaskResult (Value : Type) := Except TaskError Value × Registry

def TaskRecord.runKeys (task : TaskRecord) : List String := (trimmedMember task.runId).toList

def TaskRecord.ownerKeys (task : TaskRecord) : List String :=
  (SessionKeys.normalizeOptionalString task.ownerKey).toList

def TaskRecord.flowKeys (task : TaskRecord) : List String :=
  (trimmedMember task.parentFlowId).toList

/-- The keys of the sessions that own a task or run it. -/
def TaskRecord.relatedSessionKeys (task : TaskRecord) : List String :=
  ((SessionKeys.normalizeOptionalString task.ownerKey).toList ++
    (trimmedMember task.childSessionKey).toList).dedup

/-- The index of the tasks under the keys that each of them has. -/
def rebuildIndex (keys : TaskRecord → List String) (tasks : OrderedMap String TaskRecord) :
    InvertedIndex String String :=
  InvertedIndex.build (tasks.entries.map fun entry => (entry.1, keys entry.2))

namespace Registry

/-- The tasks that an index has under a key, in the order of the index. -/
def tasksUnder (registry : Registry) (index : InvertedIndex String String) (key : String) :
    List TaskRecord :=
  (InvertedIndex.members index key).filterMap registry.tasks.get?

/-- Whether a task is listed before another, each with its place. -/
def isNewerFirst (left right : TaskRecord × ℕ) : Prop :=
  right.1.createdAt < left.1.createdAt ∨ (right.1.createdAt = left.1.createdAt ∧ right.2 ≤ left.2)

instance : DecidableRel isNewerFirst := fun left right =>
  inferInstanceAs (Decidable (right.1.createdAt < left.1.createdAt ∨
    (right.1.createdAt = left.1.createdAt ∧ right.2 ≤ left.2)))

/-- The tasks that an index has under a key, the newest first. -/
def listTasksFromIndex (registry : Registry) (index : InvertedIndex String String) (key : String) :
    List TaskRecord :=
  ((registry.tasksUnder index key).zipIdx.insertionSort isNewerFirst).map Prod.fst

theorem mem_listTasksFromIndex {registry : Registry} {index : InvertedIndex String String}
    {key : String} {task : TaskRecord} : task ∈ registry.listTasksFromIndex index key ↔
      ∃ id ∈ InvertedIndex.members index key, registry.tasks.get? id = some task := by
  have sorted := List.perm_insertionSort isNewerFirst (registry.tasksUnder index key).zipIdx
  have listed : ((registry.tasksUnder index key).zipIdx).map Prod.fst =
        registry.tasksUnder index key :=
    List.zipIdx_map_fst _ _
  rw [listTasksFromIndex, (sorted.map Prod.fst).mem_iff, listed, tasksUnder, List.mem_filterMap]

def getTasksByRunId (registry : Registry) (runId : String) : List TaskRecord :=
  registry.tasksUnder registry.taskIdsByRunId (JsString.trim runId)

def listTasksForFlowId (registry : Registry) (flowId : String) : List TaskRecord :=
  registry.listTasksFromIndex registry.taskIdsByParentFlowId (JsString.trim flowId)

section

variable (host : TaskHost)

/-- Change the store; `false` when the write throws. -/
def persist (change : TaskStore → TaskStore) (registry : Registry) :
    Bool × Registry :=
  let stored := host.taskStore registry.writes
  (stored,
    { registry with
      store := if stored then change registry.store else registry.store
      writes := registry.writes + 1 })

def persistTaskUpsert (task : TaskRecord) (registry : Registry) :
    Bool × Registry :=
  registry.persist host fun store =>
    store.upsertTaskWithDeliveryState host task (registry.taskDeliveryStates.get? task.taskId)

def persistTaskDeliveryStateUpsert (state : TaskDeliveryState)
    (registry : Registry) : Bool × Registry :=
  registry.persist host fun store => store.upsertDeliveryState host state

def persistTaskDelete (taskId : String) (registry : Registry) : Bool × Registry :=
  registry.persist host fun store => store.deleteTaskWithDeliveryState taskId

def persistTaskDeliveryStateDelete (taskId : String) (registry : Registry) :
    Bool × Registry :=
  registry.persist host fun store => store.deleteDeliveryState taskId

/-- The patch that ends a cancelled flow. -/
def cancelledFlowPatch (endedAt : ℚ) : FlowRecordPatch where
  status := some .cancelled
  blockedTaskId := some none
  blockedSummary := some none
  waitJson := some .null
  endedAt := some (some endedAt)
  updatedAt := some endedAt

/--
End a managed flow whose cancellation was requested, once none of its tasks is
active. Nothing runs between reading the flow and patching it, so its revision
is the expected one and the patch is not tried again.
-/
def syncManagedFlowCancellationFromTask (now : ℚ) (task : TaskRecord)
    (registry : Registry) : Registry :=
  match trimmedMember task.parentFlowId with
  | none => registry
  | some flowId =>
    match registry.flowRegistry.getTaskFlowById flowId with
    | none => registry
    | some flow =>
      if flow.syncMode ≠ .managed || flow.cancelRequestedAt.isNone ||
          flow.status.isTerminal then
        registry
      else if (registry.listTasksForFlowId flowId).any (·.status.isActive) then registry
      else
        let endedAt := (task.endedAt.or task.lastEventAt).getD now
        { registry with
          flowRegistry :=
            (FlowRegistry.updateFlowRecordByIdExpectedRevision
              host.flowStore now flowId flow.revision
              (cancelledFlowPatch endedAt) registry.flowRegistry).2 }

/-- Bring the flow of a task up to date; an error is only logged. -/
def syncFlow (now : ℚ) (task : TaskRecord) (registry : Registry) : Registry :=
  { registry with
    flowRegistry :=
      (FlowRegistry.syncFlowFromTask host.flowStore now task registry.flowRegistry).2 }

/-- The time at which a task that ended may be removed. -/
def withCleanupAfter (fallback : ℚ) (task : TaskRecord) : TaskRecord :=
  if task.status.isTerminal && task.cleanupAfter.isNone then
    { task with
      cleanupAfter :=
        some ((task.endedAt.or task.lastEventAt).getD fallback + defaultTaskRetentionMs) }
  else task

/-- The record that a patch makes of a task. -/
def nextTask (now : ℚ) (current : TaskRecord) (patch : TaskPatch) : TaskRecord :=
  withCleanupAfter now (normalizeTaskTimestamps (current.patched patch))

def replaceTask (taskId : String) (current next : TaskRecord) (registry : Registry) : Registry :=
  let sessionIndexChanged :=
    SessionKeys.normalizeOptionalString current.ownerKey ≠
        SessionKeys.normalizeOptionalString next.ownerKey ∨
      trimmedMember current.childSessionKey ≠ trimmedMember next.childSessionKey
  let parentFlowIndexChanged :=
    current.parentFlowId.map JsString.trim ≠ next.parentFlowId.map JsString.trim
  let moved (keys : TaskRecord → List String)
      (index : InvertedIndex String String) : InvertedIndex String String :=
    (index.deleteKeys (keys current) taskId).addKeys (keys next) taskId
  { registry with
    tasks := registry.tasks.set taskId next
    taskIdsByOwnerKey :=
      if sessionIndexChanged then moved TaskRecord.ownerKeys registry.taskIdsByOwnerKey
      else registry.taskIdsByOwnerKey
    taskIdsByRelatedSessionKey :=
      if sessionIndexChanged then
        moved TaskRecord.relatedSessionKeys registry.taskIdsByRelatedSessionKey
      else registry.taskIdsByRelatedSessionKey
    taskIdsByParentFlowId :=
      if parentFlowIndexChanged then moved TaskRecord.flowKeys registry.taskIdsByParentFlowId
      else registry.taskIdsByParentFlowId }

/--
Change a task in memory, write it, and bring its flow up to date. No caller
patches the run of a task, so the index of the runs stays as it is.
-/
def updateTask (now : ℚ) (taskId : String) (patch : TaskPatch)
    (registry : Registry) : TaskResult (Option TaskRecord) :=
  match registry.tasks.get? taskId with
  | none => (.ok none, registry)
  | some current =>
    let next := nextTask now current patch
    let persisted := (registry.replaceTask taskId current next).persistTaskUpsert host next
    if persisted.1 then
      (.ok (some next),
        (persisted.2.syncFlow host now next).syncManagedFlowCancellationFromTask host now next)
    else (.error .storeFailed, persisted.2)

/-- The delivery state that a request for one asks for. -/
def nextDeliveryState (state : TaskDeliveryState) : TaskDeliveryState :=
  { state with
    requesterOrigin := state.requesterOrigin.bind host.normalizeDeliveryContext }

def isVoidDelivery (registry : Registry) (state : TaskDeliveryState) : Bool :=
  let next := nextDeliveryState host state
  next.requesterOrigin.isNone && next.lastNotifiedEventAt.isNone &&
    (registry.taskDeliveryStates.get? state.taskId).isNone

/-- Put a delivery state into memory and write it, unless it says nothing. -/
def upsertTaskDeliveryState (state : TaskDeliveryState) (registry : Registry) :
    TaskResult Unit :=
  if registry.isVoidDelivery host state then (.ok (), registry)
  else
    let next := nextDeliveryState host state
    let persisted :=
      { registry with
        taskDeliveryStates := registry.taskDeliveryStates.set state.taskId next
      }.persistTaskDeliveryStateUpsert host next
    if persisted.1 then (.ok (), persisted.2)
    else (.error .storeFailed, persisted.2)

end

section Specs

variable {host : TaskHost} {now : ℚ} {registry : Registry} {taskId : String}

theorem writes_persistTaskUpsert (host : TaskHost) (task : TaskRecord) (registry : Registry) :
    (registry.persistTaskUpsert host task).2.writes = registry.writes + 1 :=
  rfl

section

variable (fallback : ℚ)
include fallback

section

variable (task : TaskRecord)
include task

theorem withCleanupAfter_eq : ∃ cleanupAfter,
      withCleanupAfter fallback task = { task with cleanupAfter } := by
  unfold withCleanupAfter
  split_ifs
  · exact ⟨_, rfl⟩
  · exact ⟨_, rfl⟩

@[simp] theorem taskId_withCleanupAfter :
    (withCleanupAfter fallback task).taskId = task.taskId := by
  obtain ⟨_, kept⟩ := withCleanupAfter_eq fallback task
  rw [kept]

@[simp] theorem status_withCleanupAfter :
    (withCleanupAfter fallback task).status = task.status := by
  obtain ⟨_, kept⟩ := withCleanupAfter_eq fallback task
  rw [kept]

@[simp] theorem ownerKey_withCleanupAfter :
    (withCleanupAfter fallback task).ownerKey = task.ownerKey := by
  obtain ⟨_, kept⟩ := withCleanupAfter_eq fallback task
  rw [kept]

@[simp] theorem scopeKind_withCleanupAfter :
    (withCleanupAfter fallback task).scopeKind = task.scopeKind := by
  obtain ⟨_, kept⟩ := withCleanupAfter_eq fallback task
  rw [kept]

@[simp] theorem parentFlowId_withCleanupAfter :
    (withCleanupAfter fallback task).parentFlowId = task.parentFlowId := by
  obtain ⟨_, kept⟩ := withCleanupAfter_eq fallback task
  rw [kept]

end

end

theorem timesOrdered_withCleanupAfter {fallback : ℚ} {task : TaskRecord}
    (ordered : task.TimesOrdered) : (withCleanupAfter fallback task).TimesOrdered := by
  obtain ⟨_, kept⟩ := withCleanupAfter_eq fallback task
  rw [kept]
  exact ⟨ordered.started, ordered.ended, ordered.endedAfterStart,
    ordered.noted, ordered.notedAfterStart⟩

section

variable (current : TaskRecord)
include current

section

variable (patch : TaskPatch)
include patch

theorem timesOrdered_nextTask : (nextTask now current patch).TimesOrdered :=
  timesOrdered_withCleanupAfter (timesOrdered_normalizeTaskTimestamps _)

@[simp] theorem taskId_nextTask : (nextTask now current patch).taskId = current.taskId := by
  rw [nextTask, taskId_withCleanupAfter]
  rfl

@[simp] theorem runId_nextTask : (nextTask now current patch).runId = current.runId := by
  obtain ⟨_, kept⟩ := withCleanupAfter_eq now (normalizeTaskTimestamps (current.patched patch))
  rw [nextTask, kept, normalizeTaskTimestamps, TaskRecord.patched]

@[simp] theorem status_nextTask :
    (nextTask now current patch).status = patch.status.getD current.status := by
  rw [nextTask, status_withCleanupAfter]
  rfl

@[simp] theorem parentFlowId_nextTask :
    (nextTask now current patch).parentFlowId = patch.parentFlowId.getD current.parentFlowId := by
  rw [nextTask, parentFlowId_withCleanupAfter]
  rfl

@[simp] theorem deliveryStatus_nextTask : (nextTask now current patch).deliveryStatus =
      patch.deliveryStatus.getD current.deliveryStatus := by
  obtain ⟨_, kept⟩ := withCleanupAfter_eq now (normalizeTaskTimestamps (current.patched patch))
  rw [nextTask, kept, normalizeTaskTimestamps, TaskRecord.patched]

end

end

theorem syncManagedFlowCancellationFromTask_eq (task : TaskRecord) :
    registry.syncManagedFlowCancellationFromTask host now task = { registry with
        flowRegistry :=
          (registry.syncManagedFlowCancellationFromTask host now task).flowRegistry } := by
  unfold syncManagedFlowCancellationFromTask
  split
  · rfl
  · split
    · rfl
    · split_ifs
      · rfl
      · rfl
      · rfl

theorem updateTask_of_none (unknown : registry.tasks.get? taskId = none)
    (patch : TaskPatch) : registry.updateTask host now taskId patch = (.ok none, registry) := by
  rw [updateTask, unknown]

theorem updateTask_of_some (host : TaskHost) (now : ℚ)
    {current : TaskRecord} (known : registry.tasks.get? taskId = some current) (patch : TaskPatch) :
    ∃ flowRegistry, (registry.updateTask host now taskId patch).2 =
        { ((registry.replaceTask taskId current (nextTask now current patch)).persistTaskUpsert host
              (nextTask now current patch)).2 with
          flowRegistry } := by
  rw [updateTask, known]
  simp only
  generalize (registry.replaceTask taskId current
    (nextTask now current patch)).persistTaskUpsert host (nextTask now current patch) = persisted
  split_ifs
  · rw [syncManagedFlowCancellationFromTask_eq]
    exact ⟨_, rfl⟩
  · exact ⟨_, rfl⟩

theorem tasks_updateTask {current : TaskRecord}
    (known : registry.tasks.get? taskId = some current) (patch : TaskPatch) :
    (registry.updateTask host now taskId patch).2.tasks =
      registry.tasks.set taskId (nextTask now current patch) := by
  obtain ⟨flowRegistry, updated⟩ := updateTask_of_some host now known patch
  rw [updated]
  rfl

theorem updateTask_error {patch : TaskPatch} {error : TaskError}
    (thrown : (registry.updateTask host now taskId patch).1 = .error error) :
    host.taskStore registry.writes = false ∧
      (registry.updateTask host now taskId patch).2.writes = registry.writes + 1 := by
  unfold updateTask at thrown ⊢
  split at thrown
  · simp at thrown
  · simp only at thrown ⊢
    split_ifs at thrown ⊢ with stored
    exact ⟨by simpa [persistTaskUpsert, persist, replaceTask] using stored, rfl⟩

theorem upsertTaskDeliveryState_eq (host : TaskHost) (registry : Registry)
    (state : TaskDeliveryState) : ∃ taskDeliveryStates store writes, registry.writes ≤ writes ∧
        (registry.upsertTaskDeliveryState host state).2 =
          { registry with taskDeliveryStates, store, writes } := by
  unfold upsertTaskDeliveryState
  simp only
  split_ifs
  · exact ⟨_, _, _, le_refl _, rfl⟩
  · exact ⟨_, _, _, Nat.le_succ _, rfl⟩
  · exact ⟨_, _, _, Nat.le_succ _, rfl⟩

theorem upsertTaskDeliveryState_error {state : TaskDeliveryState} {error : TaskError}
    (thrown : (registry.upsertTaskDeliveryState host state).1 = .error error) :
    registry.isVoidDelivery host state = false ∧
      host.taskStore registry.writes = false ∧
      (registry.upsertTaskDeliveryState host state).2.writes = registry.writes + 1 := by
  unfold upsertTaskDeliveryState at thrown ⊢
  split at thrown
  · simp at thrown
  next stated =>
    extract_lets next persisted at thrown
    split at thrown
    · simp at thrown
    next lost =>
      rw [if_neg stated]
      simp only
      rw [if_neg lost]
      refine ⟨by simpa using stated, ?_, rfl⟩
      simpa [persisted, persistTaskDeliveryStateUpsert, persist] using lost

theorem tasks_upsertTaskDeliveryState (state : TaskDeliveryState) :
    (registry.upsertTaskDeliveryState host state).2.tasks = registry.tasks := by
  obtain ⟨_, _, _, -, stated⟩ := upsertTaskDeliveryState_eq host registry state
  rw [stated]

end Specs

end Registry

end Tasks
