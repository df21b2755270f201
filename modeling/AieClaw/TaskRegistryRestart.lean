import AieClaw.TaskRegistryIndexes

/-!
# Restarting

After a restart the registry is what its store reads back as. As long as every
write succeeds, that is what was in memory, up to the texts that the columns do
not keep: an empty optional text comes back as missing, and the requester of a
task of the system scope comes back empty.
-/

namespace Tasks

open TransitionSystem Registry OrderedMap InvertedIndex Option

/-- What the registry relies on in the encoding of the contexts it stores. -/
structure TaskHost.ReadsBack (host : TaskHost) : Prop where
  /-- A normal context is its own normal form. -/
  normalized :
    ∀ context normal, host.normalizeDeliveryContext context = some normal →
      host.normalizeDeliveryContext normal = some normal
  /-- The text of a normal context parses back. -/
  parsed :
    ∀ context, host.normalizeDeliveryContext context = some context →
      host.parse (host.stringify context.toJson) = some context.toJson
  /-- The text of a normal context is not blank. -/
  written :
    ∀ context, host.normalizeDeliveryContext context = some context →
      JsString.trim (host.stringify context.toJson) ≠ ""

/-- The requester that the row of a task reads back as. -/
def TaskRecord.storedRequester (task : TaskRecord) : String :=
  if task.scopeKind = .system then ""
  else JsString.orElse (JsString.trim task.requesterSessionKey) task.ownerKey

/--
A task that comes back from the store: as it was, but for optional texts that
were empty and for the requester.
-/
structure ComesBackAs (memory restored : TaskRecord) : Prop where
  requester :
    restored.requesterSessionKey = memory.requesterSessionKey ∨
      restored.requesterSessionKey = memory.storedRequester
  members :
    restored =
      { memory with
        requesterSessionKey := restored.requesterSessionKey
        taskKind := columnText memory.taskKind
        sourceId := columnText memory.sourceId
        childSessionKey := columnText memory.childSessionKey
        parentFlowId := columnText memory.parentFlowId
        parentTaskId := columnText memory.parentTaskId
        agentId := columnText memory.agentId
        runId := columnText memory.runId
        label := columnText memory.label
        error := columnText memory.error
        progressSummary := columnText memory.progressSummary
        terminalSummary := columnText memory.terminalSummary }

@[simp] theorem columnText_columnText (column : Option String) :
    columnText (columnText column) = columnText column := by
  simp [columnText, filter_filter]

@[simp] theorem trimmedMember_columnText (column : Option String) :
    trimmedMember (columnText column) = trimmedMember column := by
  cases column with
  | none => rfl
  | some text =>
    by_cases empty : text = ""
    · subst empty
      rfl
    · simp [columnText, Option.filter, empty]

theorem timesOrdered_rowToTaskRecord {task : TaskRecord} (ordered : task.TimesOrdered) :
    (rowToTaskRecord task.taskId (bindTaskRecordBase task)).TimesOrdered :=
  ⟨ordered.started, ordered.ended, ordered.endedAfterStart, ordered.noted, ordered.notedAfterStart⟩

theorem comesBackAs_written {task : TaskRecord} (ordered : task.TimesOrdered) : ComesBackAs task
      (normalizeTaskTimestamps (rowToTaskRecord task.taskId (bindTaskRecordBase task))) := by
  rw [normalizeTaskTimestamps_of_timesOrdered (timesOrdered_rowToTaskRecord ordered)]
  constructor
  · right
    simp only [rowToTaskRecord, bindTaskRecordBase, TaskRecord.storedRequester]
    split_ifs
    · rfl
    · rfl
  · rfl

theorem comesBackAs_restored {store : TaskStore} {taskId : String} {task : TaskRecord}
    (known : (restoredTasks store).get? taskId = some task) : ComesBackAs task task := by
  rw [restoredTasks, get?_mapEntries] at known
  obtain ⟨row, -, rfl⟩ := map_eq_some_iff.mp known
  constructor
  · exact Or.inl rfl
  · simp [normalizeTaskTimestamps, rowToTaskRecord, TaskRecord.earliest]

/-- The tasks in memory and what the rows of a store read back as. -/
def TasksStored (registry : Registry) : Prop :=
  ∀ taskId,
    Option.Rel ComesBackAs (registry.tasks.get? taskId) ((restoredTasks registry.store).get? taskId)

/-- A delivery state is under its own identity, with a normal context. -/
def StateNormal (host : TaskHost) (taskId : String) (state : TaskDeliveryState) : Prop :=
  state.taskId = taskId ∧
    ∀ origin ∈ state.requesterOrigin, host.normalizeDeliveryContext origin = some origin

def StatesNormal (host : TaskHost) (registry : Registry) : Prop :=
  ∀ taskId state, registry.taskDeliveryStates.get? taskId = some state →
    StateNormal host taskId state

def StatesStored (host : TaskHost) (registry : Registry) : Prop :=
  ∀ taskId,
    (registry.store.deliveryStates.get? taskId).map (rowToTaskDeliveryState host taskId) =
      registry.taskDeliveryStates.get? taskId

section DeliveryStates

variable {host : TaskHost}

section

variable (readsBack : host.ReadsBack)
include readsBack

theorem parseDeliveryContextJson_written {origin : Option DeliveryContext}
    (isNormal : ∀ context ∈ origin, host.normalizeDeliveryContext context = some context) :
    parseDeliveryContextJson host (origin.map fun context => host.stringify context.toJson) =
      origin := by
  cases origin with
  | none => rfl
  | some context =>
    have normal := isNormal context rfl
    rw [map_some, parseDeliveryContextJson, if_neg (readsBack.written context normal),
      readsBack.parsed context normal]
    have members := DeliveryContext.ofJson_toJson context
    rw [DeliveryContext.toJson] at members ⊢
    simp only [members]
    exact normal

theorem rowToTaskDeliveryState_written {taskId : String}
    {state : TaskDeliveryState} (isNormal : StateNormal host taskId state) :
    rowToTaskDeliveryState host taskId (bindTaskDeliveryState host state) =
      state := by
  obtain ⟨rfl, normalOrigin⟩ := isNormal
  rw [rowToTaskDeliveryState, bindTaskDeliveryState]
  simp only
  rw [parseDeliveryContextJson_written readsBack normalOrigin]

theorem stateNormal_rowToTaskDeliveryState (taskId : String) (row : TaskDeliveryStateRow) :
    StateNormal host taskId (rowToTaskDeliveryState host taskId row) := by
  refine ⟨rfl, ?_⟩
  intro origin isOrigin
  have parsed : parseDeliveryContextJson host row.requesterOriginJson = some origin := isOrigin
  unfold parseDeliveryContextJson at parsed
  split at parsed
  · simp at parsed
  · split_ifs at parsed
    split at parsed
    · exact readsBack.normalized _ _ parsed
    · simp at parsed

theorem stateNormal_nextDeliveryState (state : TaskDeliveryState) :
    StateNormal host state.taskId (nextDeliveryState host state) := by
  refine ⟨rfl, ?_⟩
  intro origin isOrigin
  obtain ⟨context, -, normal⟩ := bind_eq_some_iff.mp isOrigin
  exact readsBack.normalized context origin normal

end

end DeliveryStates

/-- What the store and the memory of a registry have in common. -/
structure InStep (host : TaskHost) (registry : Registry) : Prop where
  keyed : registry.Keyed
  timesOrdered : registry.TimesOrdered
  indexesExact : registry.IndexesExact
  statesNormal : StatesNormal host registry
  tasksStored : TasksStored registry
  statesStored : StatesStored host registry

section OneChange

variable {host : TaskHost} {registry later : Registry}

theorem statesStored_upsertTaskWithDeliveryState (readsBack : host.ReadsBack)
    (normal : StatesNormal host registry) (stored : StatesStored host registry)
    (task : TaskRecord) (taskId : String) : ((registry.store.upsertTaskWithDeliveryState host task
          (registry.taskDeliveryStates.get? task.taskId)).deliveryStates.get?
        taskId).map (rowToTaskDeliveryState host taskId) =
      registry.taskDeliveryStates.get? taskId := by
  unfold TaskStore.upsertTaskWithDeliveryState
  cases known : registry.taskDeliveryStates.get? task.taskId with
  | none =>
    simp only [get?_delete]
    split_ifs with same
    · rw [same, known]
      rfl
    · exact stored taskId
  | some state =>
    have isNormal := normal task.taskId state known
    simp only [get?_set, isNormal.1]
    split_ifs with same
    · subst same
      rw [map_some, rowToTaskDeliveryState_written readsBack isNormal, known]
    · exact stored taskId

theorem tasksStored_set {task : TaskRecord} (stored : TasksStored registry)
    (store : TaskStore) (ordered : task.TimesOrdered)
    (rows : store.taskRuns = registry.store.taskRuns.set task.taskId (bindTaskRecordBase task))
    (taskId : String) : Option.Rel ComesBackAs ((registry.tasks.set task.taskId task).get? taskId)
      ((restoredTasks store).get? taskId) := by
  have storedHere := stored taskId
  rw [restoredTasks, get?_mapEntries, get?_sort] at storedHere ⊢
  rw [rows, get?_set, get?_set]
  split_ifs with same
  · subst same
    exact .some (comesBackAs_written ordered)
  · exact storedHere

theorem tasksStored_of_taskRuns {store : TaskStore}
    (rows : store.taskRuns = registry.store.taskRuns) (stored : TasksStored registry)
    (taskId : String) : Option.Rel ComesBackAs (registry.tasks.get? taskId)
      ((restoredTasks store).get? taskId) := by
  have storedHere := stored taskId
  rw [restoredTasks, get?_mapEntries, get?_sort] at storedHere ⊢
  rw [rows]
  exact storedHere

theorem taskStore_of_not_writeFailed (succeeds : ¬WriteFailed host registry later)
    (writes : registry.writes < later.writes) : host.taskStore registry.writes = true := by
  by_contra lost
  exact succeeds ⟨registry.writes, le_refl _, writes, by simpa using lost⟩

theorem inStep_updateTask (readsBack : host.ReadsBack) (inStep : InStep host registry)
    (now : ℚ) (taskId : String) (patch : TaskPatch) (links : LinksAllowed registry taskId patch)
    (succeeds : ¬WriteFailed host registry (registry.updateTask host now taskId patch).2) :
    InStep host (registry.updateTask host now taskId patch).2 := by
  have effect : Effect host lawful registry (registry.updateTask host now taskId patch).2 :=
    .update now taskId patch links
  have keyed := effect.keyed inStep.keyed
  have timesOrdered := effect.timesOrdered inStep.timesOrdered
  have indexesExact : (registry.updateTask host now taskId patch).2.IndexesExact :=
    indexesExact_updateTask inStep.indexesExact now taskId patch
  cases known : registry.tasks.get? taskId with
  | none =>
    rw [updateTask_of_none known]
    exact inStep
  | some current =>
    obtain ⟨flowRegistry, updated⟩ := updateTask_of_some host now known patch
    have stored : host.taskStore registry.writes = true := by
      apply taskStore_of_not_writeFailed succeeds
      rw [updated]
      exact Nat.lt_succ_self _
    have sameId : current.taskId = taskId := inStep.keyed taskId current known
    refine ⟨keyed, timesOrdered, indexesExact, ?_, ?_, ?_⟩
    · rw [updated]
      exact inStep.statesNormal
    · intro other
      rw [updated]
      have result := tasksStored_set inStep.tasksStored
        (registry.store.upsertTaskWithDeliveryState host (nextTask now current patch)
          (registry.taskDeliveryStates.get? (nextTask now current patch).taskId))
        (timesOrdered_nextTask current patch) rfl other
      simpa [persistTaskUpsert, persist, replaceTask, stored, sameId] using result
    · intro other
      rw [updated]
      have result := statesStored_upsertTaskWithDeliveryState readsBack
        inStep.statesNormal inStep.statesStored (nextTask now current patch) other
      simpa [persistTaskUpsert, persist, replaceTask, stored] using result

/-- The states after one of them was put into memory and into the store. -/
theorem statesStored_upsertTaskDeliveryState (readsBack : host.ReadsBack)
    (registry : Registry) (normal : StatesNormal host registry)
    (stored : StatesStored host registry) (state : TaskDeliveryState)
    (succeeds : ¬WriteFailed host registry (registry.upsertTaskDeliveryState host state).2) :
    StatesNormal host (registry.upsertTaskDeliveryState host state).2 ∧
      StatesStored host (registry.upsertTaskDeliveryState host state).2 ∧
      (registry.upsertTaskDeliveryState host state).2.store.taskRuns =
        registry.store.taskRuns := by
  have isNormal := stateNormal_nextDeliveryState readsBack state
  unfold upsertTaskDeliveryState at succeeds ⊢
  split
  · exact ⟨normal, stored, rfl⟩
  next written =>
    rw [if_neg written] at succeeds
    simp only [persistTaskDeliveryStateUpsert, persist] at succeeds ⊢
    have works : host.taskStore registry.writes = true := by
      apply taskStore_of_not_writeFailed succeeds
      split_ifs
      · exact Nat.lt_succ_self _
      · exact Nat.lt_succ_self _
    simp only [works, if_true]
    refine ⟨?_, ?_, rfl⟩
    · intro taskId known isKnown
      simp only [get?_set] at isKnown
      split_ifs at isKnown with same
      · rw [same, ← Option.some.inj isKnown]
        exact isNormal
      · exact normal taskId known isKnown
    · intro taskId
      simp only [TaskStore.upsertDeliveryState, get?_set, isNormal.1]
      split_ifs with same
      · rw [same, map_some, rowToTaskDeliveryState_written readsBack isNormal]
      · exact stored taskId

theorem recordsDelivery_of_not_writeFailed {record : TaskRecord}
    {requesterOrigin : Option DeliveryContext} (now : ℚ)
    (succeeds : ¬WriteFailed host registry (registry.placeTask host now record requesterOrigin).2) :
    registry.RecordsDelivery host record.taskId requesterOrigin := by
  by_contra unrecorded
  simp only [RecordsDelivery, not_or] at unrecorded
  obtain ⟨written, lost⟩ := unrecorded
  have threw : (registry.stateTask host record requesterOrigin) = (.error .storeFailed,
        (registry.stateTask host record requesterOrigin).2) := by
    have sameVoid : isVoidDelivery host
            { registry with tasks := registry.tasks.set record.taskId record }
            (newDeliveryState host record.taskId requesterOrigin) =
          registry.isVoidDelivery host (newDeliveryState host record.taskId requesterOrigin) :=
      rfl
    simp only [stateTask, upsertTaskDeliveryState, sameVoid, if_neg written,
      persistTaskDeliveryStateUpsert, persist, if_neg lost]
  apply succeeds
  have failed : (registry.placeTask host now record requesterOrigin).1 = .error .storeFailed := by
    rw [placeTask, threw]
  exact throwsOnFailure_placeTask _ _ _ _ failed

theorem inStep_placeTask (readsBack : host.ReadsBack) (inStep : InStep host registry)
    (now : ℚ) (record : TaskRecord) (requesterOrigin : Option DeliveryContext)
    (isNew : registry.tasks.get? record.taskId = none) (isNormal : record.TimesOrdered)
    (isAllowed : lawful.place registry record requesterOrigin)
    (succeeds : ¬WriteFailed host registry (registry.placeTask host now record requesterOrigin).2) :
    InStep host (registry.placeTask host now record requesterOrigin).2 := by
  have effect : Effect host lawful registry
      (registry.placeTask host now record requesterOrigin).2 :=
    .place now record requesterOrigin isNew isNormal isAllowed
  have keyed := effect.keyed inStep.keyed
  have timesOrdered := effect.timesOrdered inStep.timesOrdered
  have records := recordsDelivery_of_not_writeFailed now succeeds
  have indexesExact := indexesExact_placeTask inStep.indexesExact now isNew records
  obtain ⟨flowRegistry, placed⟩ := placeTask_of_recordsDelivery now records
  have grows : registry.writes ≤ (registry.stateTask host record requesterOrigin).2.writes :=
    writes_le_upsertTaskDeliveryState host
      { registry with tasks := registry.tasks.set record.taskId record } _
  have sameTasks : (registry.stateTask host record requesterOrigin).2.tasks =
      registry.tasks.set record.taskId record :=
    tasks_upsertTaskDeliveryState _
  have growsLater : (registry.stateTask host record requesterOrigin).2.writes <
      (registry.placeTask host now record requesterOrigin).2.writes := by
    rw [placed]
    exact Nat.lt_succ_self _
  obtain ⟨statesNormal, statesStored, sameRows⟩ :
      StatesNormal host (registry.stateTask host record requesterOrigin).2 ∧
        StatesStored host (registry.stateTask host record requesterOrigin).2 ∧
        (registry.stateTask host record requesterOrigin).2.store.taskRuns =
          registry.store.taskRuns :=
    statesStored_upsertTaskDeliveryState readsBack
      { registry with tasks := registry.tasks.set record.taskId record }
      inStep.statesNormal inStep.statesStored
      (newDeliveryState host record.taskId requesterOrigin)
      fun failed => succeeds (WriteFailed.after failed growsLater.le)
  have works : host.taskStore (registry.stateTask host record requesterOrigin).2.writes = true :=
    taskStore_of_not_writeFailed (fun failed => succeeds (failed.before grows)) growsLater
  refine ⟨keyed, timesOrdered, indexesExact, ?_, ?_, ?_⟩
  · rw [placed]
    exact statesNormal
  · intro taskId
    have result := tasksStored_set inStep.tasksStored
      ((registry.stateTask host record requesterOrigin).2.store
        |>.upsertTaskWithDeliveryState host record
          ((registry.stateTask host record
            requesterOrigin).2.taskDeliveryStates.get? record.taskId))
      isNormal (congrArg (set · _ _) sameRows) taskId
    rw [placed]
    simpa [persistTaskUpsert, persist, indexTask, works, sameTasks] using result
  · intro taskId
    have result := statesStored_upsertTaskWithDeliveryState readsBack
      statesNormal statesStored record taskId
    rw [placed]
    simpa [persistTaskUpsert, persist, indexTask, works] using result

theorem inStep_deleteTaskRecordById (inStep : InStep host registry) (taskId : String)
    (succeeds : ¬WriteFailed host registry (registry.deleteTaskRecordById host taskId).2) :
    InStep host (registry.deleteTaskRecordById host taskId).2 := by
  have effect : Effect host lawful registry (registry.deleteTaskRecordById host taskId).2 :=
    .delete taskId trivial
  have keyed := effect.keyed inStep.keyed
  have timesOrdered := effect.timesOrdered inStep.timesOrdered
  have indexesExact : (registry.deleteTaskRecordById host taskId).2.IndexesExact :=
    indexesExact_deleteTaskRecordById inStep.indexesExact taskId
  cases known : registry.tasks.get? taskId with
  | none =>
    rw [deleteTaskRecordById_of_none known]
    exact inStep
  | some current =>
    obtain ⟨_, _, -, deleted⟩ := deleteTaskRecordById_of_some host known
    have sameStore : (registry.deleteTaskRecordById host taskId).2.store =
        (registry.store.deleteTaskWithDeliveryState taskId).deleteDeliveryState taskId :=
      store_deleteTaskRecordById known succeeds
    refine ⟨keyed, timesOrdered, indexesExact, ?_, ?_, ?_⟩
    · intro other state isKnown
      rw [deleted] at isKnown
      simp only [get?_delete] at isKnown
      split_ifs at isKnown
      exact inStep.statesNormal other state isKnown
    · intro other
      have stored := inStep.tasksStored other
      rw [restoredTasks, get?_mapEntries, get?_sort] at stored ⊢
      rw [sameStore, deleted]
      simp only [TaskStore.deleteTaskWithDeliveryState, TaskStore.deleteDeliveryState, get?_delete]
      split_ifs
      · exact .none
      · exact stored
    · intro other
      have stored := inStep.statesStored other
      rw [sameStore, deleted]
      simp only [TaskStore.deleteTaskWithDeliveryState, TaskStore.deleteDeliveryState, get?_delete]
      split_ifs
      · rfl
      · exact stored

theorem inStep_reload (readsBack : host.ReadsBack) (registry : Registry) :
    InStep host (registry.reloadTaskRegistryFromStore host) where
  keyed _ _ known := taskId_of_restoredTasks known
  timesOrdered _ _ known := timesOrdered_of_restoredTasks known
  indexesExact := indexesExact_reload host registry
  statesNormal taskId state known := by
    have restored : (restoredDeliveryStates host registry.store).get? taskId = some state := known
    rw [restoredDeliveryStates, get?_mapEntries] at restored
    obtain ⟨row, -, rfl⟩ := map_eq_some_iff.mp restored
    exact stateNormal_rowToTaskDeliveryState readsBack taskId row
  tasksStored taskId := by
    have restored : Option.Rel ComesBackAs ((restoredTasks registry.store).get? taskId)
          ((restoredTasks registry.store).get? taskId) := by
      cases known : (restoredTasks registry.store).get? taskId with
      | none => exact .none
      | some task => exact .some (comesBackAs_restored known)
    exact restored
  statesStored taskId := by
    have restored :
        (registry.store.deliveryStates.get? taskId).map (rowToTaskDeliveryState host taskId) =
          (restoredDeliveryStates host registry.store).get? taskId := by
      rw [restoredDeliveryStates, get?_mapEntries, get?_sort]
    exact restored

theorem inStep_waits (inStep : InStep host registry) (same : SameRecords registry later) :
    InStep host later := by
  have effect : Effect host (recording host) registry later := .waits same
  refine ⟨effect.keyed inStep.keyed, effect.timesOrdered inStep.timesOrdered,
    effect.indexesExact inStep.indexesExact, ?_, ?_, ?_⟩
  · intro taskId state known
    rw [same.taskDeliveryStates] at known
    exact inStep.statesNormal taskId state known
  · intro taskId
    rw [same.tasks, same.store]
    exact inStep.tasksStored taskId
  · intro taskId
    rw [same.taskDeliveryStates, same.store]
    exact inStep.statesStored taskId

theorem Effect.inStep (readsBack : host.ReadsBack) (effect : Effect host lawful registry later)
    (succeeds : ¬WriteFailed host registry later) (inStep : InStep host registry) :
    InStep host later := by
  cases effect with
  | update now taskId patch links =>
    exact inStep_updateTask readsBack inStep now taskId patch links succeeds
  | place now record requesterOrigin isNew isNormal isAllowed =>
    exact inStep_placeTask readsBack inStep now record requesterOrigin isNew
      isNormal isAllowed succeeds
  | delete taskId isAllowed => exact inStep_deleteTaskRecordById inStep taskId succeeds
  | reload isAllowed => exact inStep_reload readsBack registry
  | stateDelivery state =>
    obtain ⟨statesNormal, statesStored, sameRows⟩ :=
      statesStored_upsertTaskDeliveryState readsBack registry
        inStep.statesNormal inStep.statesStored state succeeds
    have effect : Effect host (recording host) registry
        (registry.upsertTaskDeliveryState host state).2 :=
      .stateDelivery state
    refine ⟨effect.keyed inStep.keyed, effect.timesOrdered inStep.timesOrdered,
      effect.indexesExact inStep.indexesExact, statesNormal, ?_, statesStored⟩
    intro taskId
    rw [tasks_upsertTaskDeliveryState]
    exact tasksStored_of_taskRuns sameRows inStep.tasksStored taskId
  | waits same => exact inStep_waits inStep same

theorem Effects.inStep (readsBack : host.ReadsBack) (effects : Effects host lawful registry later)
    (succeeds : ¬WriteFailed host registry later) (inStep : InStep host registry) :
    InStep host later := by
  induction effects with
  | refl => exact inStep
  | @tail middle last earlier effect inductionHypothesis =>
    have grows : registry.writes ≤ middle.writes := Effects.writes_le earlier
    refine effect.inStep readsBack (fun failed => succeeds (failed.before grows)) ?_
    exact inductionHypothesis fun failed => succeeds (failed.after effect.writes_le)

end OneChange

/-- The steps all of whose writes to the store of the tasks succeed. -/
def StoringStep (host : TaskHost) : StepRelation Registry TaskAction :=
  Restricted (TaskStep host) fun source action =>
    ¬WriteFailed host source (action.operation.perform host action.now source).2

/-- What a restart keeps of a registry. -/
structure SameAfterRestart (before after : Registry) : Prop where
  tasks : ∀ taskId, Option.Rel ComesBackAs (before.tasks.get? taskId) (after.tasks.get? taskId)
  taskDeliveryStates :
    ∀ taskId, after.taskDeliveryStates.get? taskId = before.taskDeliveryStates.get? taskId
  runs :
    ∀ key taskId,
      taskId ∈ members after.taskIdsByRunId key ↔ taskId ∈ members before.taskIdsByRunId key
  owners :
    ∀ key taskId,
      taskId ∈ members after.taskIdsByOwnerKey key ↔ taskId ∈ members before.taskIdsByOwnerKey key
  flows :
    ∀ key taskId,
      taskId ∈ members after.taskIdsByParentFlowId key ↔
        taskId ∈ members before.taskIdsByParentFlowId key
  sessions :
    ∀ key taskId,
      taskId ∈ members after.taskIdsByRelatedSessionKey key ↔
        taskId ∈ members before.taskIdsByRelatedSessionKey key

/-- A task comes back under the keys that it had. -/
structure SameKeys (memory restored : TaskRecord) : Prop where
  runs : restored.runKeys = memory.runKeys
  owners : restored.ownerKeys = memory.ownerKeys
  flows : restored.flowKeys = memory.flowKeys
  sessions : restored.relatedSessionKeys = memory.relatedSessionKeys

theorem ComesBackAs.sameKeys {memory restored : TaskRecord}
    (comesBack : ComesBackAs memory restored) : SameKeys memory restored := by
  have run : restored.runId = columnText memory.runId :=
    congrArg TaskRecord.runId comesBack.members
  have owner : restored.ownerKey = memory.ownerKey := by
    rw [comesBack.members]
  have flow : restored.parentFlowId = columnText memory.parentFlowId :=
    congrArg TaskRecord.parentFlowId comesBack.members
  have child : restored.childSessionKey = columnText memory.childSessionKey :=
    congrArg TaskRecord.childSessionKey comesBack.members
  constructor
  · simp [TaskRecord.runKeys, run]
  · simp [TaskRecord.ownerKeys, owner]
  · simp [TaskRecord.flowKeys, flow]
  · simp [TaskRecord.relatedSessionKeys, owner, child]

theorem mem_members_iff_of_comesBack {keys : TaskRecord → List String}
    {before after : OrderedMap String TaskRecord}
    {index other : InvertedIndex String String} (exact_ : ExactFor keys before index)
    (otherExact : ExactFor keys after other)
    (comesBack : ∀ taskId, Option.Rel ComesBackAs (before.get? taskId) (after.get? taskId))
    (same : ∀ memory restored, ComesBackAs memory restored → keys restored = keys memory)
    (key taskId : String) : taskId ∈ members other key ↔ taskId ∈ members index key := by
  rw [exact_.mem_iff, otherExact.mem_iff, Carries, Carries]
  have back := comesBack taskId
  cases memoryIs : before.get? taskId with
  | none =>
    rw [memoryIs] at back
    cases restoredIs : after.get? taskId with
    | none => simp
    | some restored =>
      rw [restoredIs] at back
      cases back
  | some memory =>
    rw [memoryIs] at back
    cases restoredIs : after.get? taskId with
    | none =>
      rw [restoredIs] at back
      cases back
    | some restored =>
      rw [restoredIs] at back
      cases back with
      | some comes => simp [same memory restored comes]

section Runs

variable {host : TaskHost} {registry : Registry}

theorem inStep_of_reachable (readsBack : host.ReadsBack)
    (reachable : Reachable (StoringStep host) (IsStarted host) registry) :
    InStep host registry := by
  have initially : ∀ ⦃start⦄, IsStarted host start → InStep host start := by
    rintro _ ⟨store, flowRegistry, rfl⟩
    exact inStep_reload readsBack _
  have preserved : Preserves (StoringStep host) (InStep host) := by
    rintro source action target ⟨succeeds, enabled, rfl⟩ inStep
    have effects : Effects host lawful source (action.operation.perform host action.now source).2 :=
      effects_lawful inStep.keyed action.now enabled
    exact effects.inStep readsBack succeeds inStep
  exact reachable.invariant initially preserved

/--
After any operations whose writes succeed, reading the store again yields the
tasks that were in memory, but for empty texts and the stored requester, the
same delivery states, and the same tasks under every key of the four indexes.
-/
theorem sameAfterRestart_of_reachable (readsBack : host.ReadsBack)
    (reachable : Reachable (StoringStep host) (IsStarted host) registry) :
    SameAfterRestart registry (registry.reloadTaskRegistryFromStore host) := by
  have inStep := inStep_of_reachable readsBack reachable
  have indexes := indexesExact_reload host registry
  have tasks : ∀ taskId, Option.Rel ComesBackAs (registry.tasks.get? taskId)
          ((registry.reloadTaskRegistryFromStore host).tasks.get? taskId) :=
    inStep.tasksStored
  constructor
  · exact tasks
  · intro taskId
    have stored := inStep.statesStored taskId
    rw [← stored, reloadTaskRegistryFromStore]
    simp only
    rw [restoredDeliveryStates, get?_mapEntries, get?_sort]
  · exact mem_members_iff_of_comesBack inStep.indexesExact.runs indexes.runs
      tasks fun _ _ comes => comes.sameKeys.runs
  · exact mem_members_iff_of_comesBack inStep.indexesExact.owners indexes.owners
      tasks fun _ _ comes => comes.sameKeys.owners
  · exact mem_members_iff_of_comesBack inStep.indexesExact.flows indexes.flows
      tasks fun _ _ comes => comes.sameKeys.flows
  · exact mem_members_iff_of_comesBack inStep.indexesExact.sessions
      indexes.sessions tasks fun _ _ comes => comes.sameKeys.sessions

end Runs

private def slackOrigin : DeliveryContext where
  channel := some "slack"
  recipient := some "C1"

private def slackText : String := "\x7b\"channel\":\"slack\",\"to\":\"C1\"\x7d"

/-- A host that knows one context and its JSON text. -/
private def slackHost : TaskHost :=
  { TaskHost.plain with
    normalizeDeliveryContext := fun context => if context = slackOrigin then some context else none
    stringify := fun _ => slackText
    parse := fun text => if text = slackText then some slackOrigin.toJson else none }

private theorem readsBack_slackHost : slackHost.ReadsBack where
  normalized context normal normalizes := by
    simp only [slackHost] at normalizes ⊢
    split_ifs at normalizes with isSlack
    cases normalizes
    rw [if_pos isSlack]
  parsed context normal := by
    simp only [slackHost] at normal ⊢
    split_ifs at normal with isSlack
    rw [if_true, isSlack]
  written context normal := by
    simp only [slackHost]
    decide +kernel

private theorem not_writeFailed_slackHost (source target : Registry) :
    ¬WriteFailed slackHost source target := by
  rintro ⟨_, _, _, lost⟩
  simp [slackHost, TaskHost.plain] at lost

/-- A task of the system scope that a session asked for. -/
private def systemTask : CreateTaskParams where
  runtime := .cron
  scopeKind := some .system
  ownerKey := some "system:cron:1"
  requesterSessionKey := some "agent:main:main"
  runId := some "run-1"
  task := "Report"
  requesterOrigin := some slackOrigin

private def createSystemTask : TaskAction := ⟨1, .create "task-1" systemTask⟩

private theorem created_systemTask : ∃ registry : Registry,
      Reachable (StoringStep slackHost) (IsStarted slackHost) registry ∧
        (registry.tasks.get? "task-1").map TaskRecord.requesterSessionKey = some "agent:main:main" ∧
        ((registry.reloadTaskRegistryFromStore slackHost).tasks.get?
            "task-1").map TaskRecord.requesterSessionKey = some "" := by
  have executed : (execute slackHost (fun _ _ => true) [createSystemTask]
          (started slackHost TaskStore.empty FlowRegistry.empty)).map (fun registry =>
          ((registry.tasks.get? "task-1").map TaskRecord.requesterSessionKey,
            ((registry.reloadTaskRegistryFromStore slackHost).tasks.get?
              "task-1").map TaskRecord.requesterSessionKey)) =
        some (some "agent:main:main", some "") := by
    decide +kernel
  obtain ⟨registry, created, seen⟩ := map_eq_some_iff.mp executed
  obtain ⟨before, after⟩ := Prod.mk.inj seen
  exact ⟨registry, ⟨_, _, ⟨_, _, rfl⟩, (run_of_execute created).mono fun _ _ _ taken =>
      ⟨not_writeFailed_slackHost _ _, taken.2⟩⟩,
    before, after⟩

theorem sameAfterRestart_systemTask :
    ∃ registry : Registry,
      (registry.tasks.get? "task-1").isSome = true ∧
        SameAfterRestart registry (registry.reloadTaskRegistryFromStore slackHost) := by
  obtain ⟨registry, reachable, before, -⟩ := created_systemTask
  refine ⟨registry, ?_, sameAfterRestart_of_reachable readsBack_slackHost reachable⟩
  obtain ⟨task, known, -⟩ := map_eq_some_iff.mp before
  rw [known]
  rfl

/-- The session that asked for a task of the system is not restored. -/
theorem not_sameTasks_after_restart :
    ¬∀ (host : TaskHost) (registry : Registry),
      host.ReadsBack →
      Reachable (StoringStep host) (IsStarted host) registry →
      ∀ taskId,
        (registry.reloadTaskRegistryFromStore host).tasks.get? taskId =
          registry.tasks.get? taskId := by
  intro same
  obtain ⟨registry, reachable, before, after⟩ := created_systemTask
  rw [same slackHost registry readsBack_slackHost reachable "task-1", before] at after
  simp at after

end Tasks
