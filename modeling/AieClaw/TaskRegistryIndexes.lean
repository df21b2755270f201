import AieClaw.TaskRegistryChanges
import Mathlib.Data.List.Dedup

/-!
# Indexes, times and failed operations

The four indexes follow the tasks: one is rebuilt, three are patched where a key
changed. They are exact as long as a new task gets past the write of its
delivery state, which stands between its place in memory and its place in the
indexes. The times of a task are always in order, and an operation that throws
for any other reason than a failed write changes nothing.
-/

namespace Tasks

open TransitionSystem Registry Option

/-- Whether a task carries a key. -/
def Carries (keys : TaskRecord → List String) (tasks : OrderedMap String TaskRecord)
    (taskId key : String) : Prop :=
  ∃ task, tasks.get? taskId = some task ∧ key ∈ keys task

/-- An index has under each key the tasks that carry it. -/
abbrev ExactFor (keys : TaskRecord → List String) (tasks : OrderedMap String TaskRecord)
    (index : InvertedIndex String String) : Prop :=
  InvertedIndex.Exact index (Carries keys tasks)

section OneIndex

variable {keys : TaskRecord → List String} {tasks : OrderedMap String TaskRecord}
  {index : InvertedIndex String String} {taskId : String} {current : TaskRecord}

theorem carries_set_self {task : TaskRecord} {key : String} :
    Carries keys (tasks.set taskId task) taskId key ↔ key ∈ keys task := by
  simp [Carries]

theorem carries_set_of_ne {task : TaskRecord} {other key : String} (differs : other ≠ taskId) :
    Carries keys (tasks.set taskId task) other key ↔ Carries keys tasks other key := by
  rw [Carries, Carries, OrderedMap.get?_set_of_ne differs]

section

variable (exact_ : ExactFor keys tasks index)
include exact_

theorem exactFor_replaced (known : tasks.get? taskId = some current) (next : TaskRecord) :
    ExactFor keys (tasks.set taskId next)
      ((index.deleteKeys (keys current) taskId).addKeys (keys next) taskId) := by
  apply exact_.moveKeys
  · intro key
    simp [Carries, known]
  · intro key
    exact carries_set_self
  · intro other key differs
    exact (carries_set_of_ne differs).symm

theorem exactFor_sameKeys {next : TaskRecord}
    (known : tasks.get? taskId = some current) (same : keys next = keys current) :
    ExactFor keys (tasks.set taskId next) index := by
  refine exact_.congr fun other key => ?_
  by_cases isSelf : other = taskId
  · subst isSelf
    rw [carries_set_self, same]
    simp [Carries, known]
  · exact (carries_set_of_ne isSelf).symm

theorem exactFor_placed
    (isNew : tasks.get? taskId = none) (task : TaskRecord) : ExactFor keys (tasks.set taskId task)
      (index.addKeys (keys task) taskId) := by
  refine (exact_.addKeys (keys task) taskId).congr fun other key => ?_
  by_cases isSelf : other = taskId
  · subst isSelf
    rw [carries_set_self]
    simp [Carries, isNew]
  · rw [carries_set_of_ne isSelf]
    simp [isSelf]

theorem exactFor_deleted
    (known : tasks.get? taskId = some current) : ExactFor keys (tasks.delete taskId)
      (index.deleteKeys (keys current) taskId) := by
  refine (exact_.deleteKeys (keys current) taskId).congr fun other key => ?_
  rw [Carries, Carries, OrderedMap.get?_delete]
  by_cases isSelf : other = taskId
  · subst isSelf
    simp [known]
  · simp [isSelf]

end

theorem exactFor_rebuilt (keys : TaskRecord → List String) (tasks : OrderedMap String TaskRecord) :
    ExactFor keys tasks (rebuildIndex keys tasks) := by
  refine (InvertedIndex.Exact.build _).congr fun id key => ?_
  simp only [List.mem_map, Carries, OrderedMap.get?_eq_some_iff]
  constructor
  · rintro ⟨_, ⟨⟨taskId, task⟩, member, rfl⟩, rfl, isKey⟩
    exact ⟨task, member, isKey⟩
  · rintro ⟨task, member, isKey⟩
    exact ⟨_, ⟨(id, task), member, rfl⟩, rfl, isKey⟩

end OneIndex

/-- The four indexes have under each key the tasks that carry it. -/
structure Registry.IndexesExact (registry : Registry) : Prop where
  runs : ExactFor TaskRecord.runKeys registry.tasks registry.taskIdsByRunId
  owners : ExactFor TaskRecord.ownerKeys registry.tasks registry.taskIdsByOwnerKey
  flows : ExactFor TaskRecord.flowKeys registry.tasks registry.taskIdsByParentFlowId
  sessions :
    ExactFor TaskRecord.relatedSessionKeys registry.tasks registry.taskIdsByRelatedSessionKey

/-- What a chain may do for the indexes to stay exact. -/
def recording (host : TaskHost) : Allowed where
  update := LinksAllowed
  place registry record requesterOrigin :=
    registry.RecordsDelivery host record.taskId requesterOrigin
  delete _ _ := True
  reload _ := True

section FourIndexes

variable {host : TaskHost} {registry later : Registry}

theorem indexesExact_replaceTask {taskId : String} {current next : TaskRecord}
    (exact_ : registry.IndexesExact) (known : registry.tasks.get? taskId = some current)
    (sameRun : next.runId = current.runId) :
    (registry.replaceTask taskId current next).IndexesExact where
  runs := exactFor_sameKeys exact_.runs known (by simp [TaskRecord.runKeys, sameRun])
  owners := by
    simp only [replaceTask]
    split_ifs with changed
    · exact exactFor_replaced exact_.owners known next
    · apply exactFor_sameKeys exact_.owners known
      simp only [not_or, not_not] at changed
      simp [TaskRecord.ownerKeys, changed.1]
  flows := by
    simp only [replaceTask]
    split_ifs with changed
    · exact exactFor_replaced exact_.flows known next
    · apply exactFor_sameKeys exact_.flows known
      rw [TaskRecord.flowKeys, TaskRecord.flowKeys, trimmedMember_congr (not_not.mp changed)]
  sessions := by
    simp only [replaceTask]
    split_ifs with changed
    · exact exactFor_replaced exact_.sessions known next
    · apply exactFor_sameKeys exact_.sessions known
      simp only [not_or, not_not] at changed
      simp [TaskRecord.relatedSessionKeys, changed.1, changed.2]

theorem indexesExact_reload (host : TaskHost) (registry : Registry) :
    (registry.reloadTaskRegistryFromStore host).IndexesExact := by
  have rebuilt (keys : TaskRecord → List String) : ExactFor keys (restoredTasks registry.store)
        (rebuildIndex keys (restoredTasks registry.store)) :=
    exactFor_rebuilt keys _
  unfold reloadTaskRegistryFromStore
  exact ⟨rebuilt _, rebuilt _, rebuilt _, rebuilt _⟩

section

variable (exact_ : registry.IndexesExact)
include exact_

theorem indexesExact_updateTask (now : ℚ) (taskId : String)
    (patch : TaskPatch) : (registry.updateTask host now taskId patch).2.IndexesExact := by
  cases known : registry.tasks.get? taskId with
  | none =>
    rw [updateTask_of_none known]
    exact exact_
  | some current =>
    obtain ⟨flowRegistry, updated⟩ := updateTask_of_some host now known patch
    have replaced : (registry.replaceTask taskId current
        (nextTask now current patch)).IndexesExact :=
      indexesExact_replaceTask exact_ known (runId_nextTask current patch)
    rw [updated]
    constructor <;> simp only [persistTaskUpsert, persist]
    · exact replaced.runs
    · exact replaced.owners
    · exact replaced.flows
    · exact replaced.sessions

theorem indexesExact_placeTask {record : TaskRecord}
    {requesterOrigin : Option DeliveryContext} (now : ℚ)
    (isNew : registry.tasks.get? record.taskId = none)
    (records : registry.RecordsDelivery host record.taskId requesterOrigin) :
    (registry.placeTask host now record requesterOrigin).2.IndexesExact := by
  obtain ⟨flowRegistry, placed⟩ := placeTask_of_recordsDelivery now records
  obtain ⟨_, _, _, -, stated⟩ := upsertTaskDeliveryState_eq host
    { registry with tasks := registry.tasks.set record.taskId record }
    (newDeliveryState host record.taskId requesterOrigin)
  have runs := exactFor_placed exact_.runs isNew record
  have owners := exactFor_placed exact_.owners isNew record
  have flows := exactFor_placed exact_.flows isNew record
  have sessions := exactFor_placed exact_.sessions isNew record
  rw [placed, stateTask, stated]
  constructor <;> simp only [persistTaskUpsert, persist, indexTask]
  · exact runs
  · exact owners
  · exact flows
  · exact sessions

theorem indexesExact_deleteTaskRecordById (taskId : String) :
    (registry.deleteTaskRecordById host taskId).2.IndexesExact := by
  cases known : registry.tasks.get? taskId with
  | none =>
    rw [deleteTaskRecordById_of_none known]
    exact exact_
  | some current =>
    obtain ⟨_, _, -, deleted⟩ := deleteTaskRecordById_of_some host known
    have runs := exactFor_rebuilt TaskRecord.runKeys (registry.tasks.delete taskId)
    have owners := exactFor_deleted exact_.owners known
    have flows := exactFor_deleted exact_.flows known
    have sessions := exactFor_deleted exact_.sessions known
    rw [deleted]
    constructor <;> simp only
    · exact runs
    · exact owners
    · exact flows
    · exact sessions

theorem indexesExact_upsertTaskDeliveryState
    (state : TaskDeliveryState) : (registry.upsertTaskDeliveryState host state).2.IndexesExact := by
  obtain ⟨_, _, _, -, stated⟩ := upsertTaskDeliveryState_eq host registry state
  rw [stated]
  exact ⟨exact_.runs, exact_.owners, exact_.flows, exact_.sessions⟩

end

theorem Effect.indexesExact (effect : Effect host (recording host) registry later)
    (exact_ : registry.IndexesExact) : later.IndexesExact := by
  cases effect with
  | update now taskId patch _ => exact indexesExact_updateTask exact_ now taskId patch
  | place now record requesterOrigin isNew _ records =>
    exact indexesExact_placeTask exact_ now isNew records
  | delete taskId _ => exact indexesExact_deleteTaskRecordById exact_ taskId
  | reload _ => exact indexesExact_reload host registry
  | stateDelivery state => exact indexesExact_upsertTaskDeliveryState exact_ state
  | waits same =>
    refine ⟨?_, ?_, ?_, ?_⟩
    · rw [same.tasks, same.taskIdsByRunId]
      exact exact_.runs
    · rw [same.tasks, same.taskIdsByOwnerKey]
      exact exact_.owners
    · rw [same.tasks, same.taskIdsByParentFlowId]
      exact exact_.flows
    · rw [same.tasks, same.taskIdsByRelatedSessionKey]
      exact exact_.sessions

end FourIndexes

/-- A text that an index has as a key. -/
def IsKey (key : String) : Prop := key ≠ "" ∧ JsString.trim key = key

/-- Every key of the four indexes is trimmed and not empty. -/
structure Registry.KeysTrimmed (registry : Registry) : Prop where
  runs : ∀ key ids, registry.taskIdsByRunId.get? key = some ids → IsKey key
  owners : ∀ key ids, registry.taskIdsByOwnerKey.get? key = some ids → IsKey key
  flows : ∀ key ids, registry.taskIdsByParentFlowId.get? key = some ids → IsKey key
  sessions : ∀ key ids, registry.taskIdsByRelatedSessionKey.get? key = some ids → IsKey key

theorem isKey_of_normalizeOptionalString {value key : String}
    (normalized : SessionKeys.normalizeOptionalString value = some key) : IsKey key := by
  obtain ⟨rfl, nonempty⟩ := SessionKeys.normalizeOptionalString_eq_some_iff.mp normalized
  exact ⟨nonempty, JsString.trim_trim value⟩

theorem isKey_of_trimmedMember {value : Option String} {key : String}
    (trimmed : trimmedMember value = some key) : IsKey key := by
  obtain ⟨text, -, normalized⟩ := bind_eq_some_iff.mp trimmed
  exact isKey_of_normalizeOptionalString normalized

theorem isKey_of_exactFor {keys : TaskRecord → List String}
    {tasks : OrderedMap String TaskRecord} {index : InvertedIndex String String}
    (exact_ : ExactFor keys tasks index) (areKeys : ∀ task, ∀ key ∈ keys task, IsKey key)
    (key : String) (ids : List String) (found : index.get? key = some ids) : IsKey key := by
  obtain ⟨taskId, listed⟩ := List.exists_mem_of_ne_nil ids (exact_.nonempty key ids found)
  have isMember : taskId ∈ InvertedIndex.members index key := by
    rw [InvertedIndex.members, found]
    exact listed
  obtain ⟨task, -, carried⟩ := (exact_.mem_iff key taskId).mp isMember
  exact areKeys task key carried

theorem Registry.IndexesExact.keysTrimmed {registry : Registry} (exact_ : registry.IndexesExact) :
    registry.KeysTrimmed where
  runs := isKey_of_exactFor exact_.runs fun _ _ carried =>
    isKey_of_trimmedMember (mem_toList.mp carried)
  owners := isKey_of_exactFor exact_.owners fun _ _ carried =>
    isKey_of_normalizeOptionalString (mem_toList.mp carried)
  flows := isKey_of_exactFor exact_.flows fun _ _ carried =>
    isKey_of_trimmedMember (mem_toList.mp carried)
  sessions := isKey_of_exactFor exact_.sessions fun _ _ carried => by
    rw [TaskRecord.relatedSessionKeys, List.mem_dedup, List.mem_append] at carried
    rcases carried with ofOwner | ofChild
    · exact isKey_of_normalizeOptionalString (mem_toList.mp ofOwner)
    · exact isKey_of_trimmedMember (mem_toList.mp ofChild)

/-- Every task has its times in order. -/
def Registry.TimesOrdered (registry : Registry) : Prop :=
  ∀ taskId task, registry.tasks.get? taskId = some task → task.TimesOrdered

theorem Effect.timesOrdered {host : TaskHost} {allowed : Allowed}
    {registry later : Registry} (effect : Effect host allowed registry later)
    (ordered : registry.TimesOrdered) : later.TimesOrdered := by
  have change := effect.tasksChange
  intro taskId task known
  generalize later.tasks = tasks at change known
  cases change with
  | kept => exact ordered taskId task known
  | updated now patch before isAllowed =>
    rw [OrderedMap.get?_set] at known
    split_ifs at known
    · cases known
      exact timesOrdered_nextTask _ patch
    · exact ordered taskId task known
  | placed isNew isNormal isAllowed =>
    rw [OrderedMap.get?_set] at known
    split_ifs at known
    · cases known
      exact isNormal
    · exact ordered taskId task known
  | deleted gone isAllowed =>
    rw [OrderedMap.get?_delete] at known
    split_ifs at known
    exact ordered taskId task known
  | reloaded isAllowed => exact timesOrdered_of_restoredTasks known

/-- What lookups read: the tasks, their delivery states and the indexes. -/
structure SameMemory (left right : Registry) : Prop where
  tasks : right.tasks = left.tasks
  taskDeliveryStates : right.taskDeliveryStates = left.taskDeliveryStates
  taskIdsByRunId : right.taskIdsByRunId = left.taskIdsByRunId
  taskIdsByOwnerKey : right.taskIdsByOwnerKey = left.taskIdsByOwnerKey
  taskIdsByParentFlowId : right.taskIdsByParentFlowId = left.taskIdsByParentFlowId
  taskIdsByRelatedSessionKey : right.taskIdsByRelatedSessionKey = left.taskIdsByRelatedSessionKey

theorem SameMemory.refl (registry : Registry) : SameMemory registry registry :=
  ⟨rfl, rfl, rfl, rfl, rfl, rfl⟩

/-- A write to the store of the tasks failed between two registries. -/
def WriteFailed (host : TaskHost) (source target : Registry) : Prop :=
  ∃ write, source.writes ≤ write ∧ write < target.writes ∧ host.taskStore write = false

def ThrowsOnFailure (host : TaskHost) (registry : Registry) {Value : Type}
    (result : TaskResult Value) : Prop :=
  ∀ error, result.1 = .error error → WriteFailed host registry result.2

section Throwing

variable {host : TaskHost} {allowed : Allowed} {registry later : Registry}

theorem writes_le_upsertTaskDeliveryState (host : TaskHost) (registry : Registry)
    (state : TaskDeliveryState) : registry.writes ≤
      (registry.upsertTaskDeliveryState host state).2.writes := by
  obtain ⟨_, _, _, grows, stated⟩ := upsertTaskDeliveryState_eq host registry state
  rw [stated]
  exact grows

theorem writes_le_placeTask (now : ℚ) (record : TaskRecord)
    (requesterOrigin : Option DeliveryContext) : registry.writes ≤
      (registry.placeTask host now record requesterOrigin).2.writes := by
  have grows : registry.writes ≤ (registry.stateTask host record requesterOrigin).2.writes :=
    writes_le_upsertTaskDeliveryState host
      { registry with tasks := registry.tasks.set record.taskId record } _
  unfold placeTask
  cases stating : registry.stateTask host record requesterOrigin with
  | mk outcome stated =>
    rw [stating] at grows
    cases outcome with
    | error error => exact grows
    | ok _ =>
      simp only
      have written := writes_persistTaskUpsert host record (stated.indexTask record)
      generalize (stated.indexTask record).persistTaskUpsert host record = persisted at written
      split_ifs
      · exact grows.trans (written ▸ Nat.le_succ _)
      · exact grows.trans (written ▸ Nat.le_succ _)

theorem Effect.writes_le (effect : Effect host allowed registry later) :
    registry.writes ≤ later.writes := by
  cases effect with
  | update now taskId patch isAllowed =>
    cases known : registry.tasks.get? taskId with
    | none => rw [updateTask_of_none known]
    | some current =>
      obtain ⟨flowRegistry, updated⟩ := updateTask_of_some host now known patch
      rw [updated]
      exact Nat.le_succ _
  | place now record requesterOrigin isNew isNormal isAllowed =>
    exact writes_le_placeTask now record requesterOrigin
  | delete taskId isAllowed =>
    cases known : registry.tasks.get? taskId with
    | none => rw [deleteTaskRecordById_of_none known]
    | some current =>
      obtain ⟨_, _, grows, deleted⟩ := deleteTaskRecordById_of_some host known
      rw [deleted]
      exact grows.le
  | reload isAllowed => exact le_refl _
  | stateDelivery state => exact writes_le_upsertTaskDeliveryState host registry state
  | waits same => exact same.writes.ge

theorem Effects.writes_le (effects : Effects host allowed registry later) :
    registry.writes ≤ later.writes := by
  induction effects with
  | refl => exact le_refl _
  | tail earlier last inductionHypothesis => exact inductionHypothesis.trans last.writes_le

theorem error_of_map_error {Value Result : Type} {outcome : Except TaskError Value}
    {change : Value → Result} {error : TaskError} (mapped : outcome.map change = .error error) :
    outcome = .error error := by
  cases outcome with
  | ok value => simp [Except.map] at mapped
  | error thrown => simpa [Except.map] using mapped

theorem WriteFailed.before {last : Registry} (failed : WriteFailed host later last)
    (grows : registry.writes ≤ later.writes) : WriteFailed host registry last := by
  obtain ⟨write, fromStart, beforeEnd, lost⟩ := failed
  exact ⟨write, grows.trans fromStart, beforeEnd, lost⟩

theorem WriteFailed.after {last : Registry} (failed : WriteFailed host registry later)
    (grows : later.writes ≤ last.writes) : WriteFailed host registry last := by
  obtain ⟨write, fromStart, beforeEnd, lost⟩ := failed
  exact ⟨write, fromStart, beforeEnd.trans_le grows, lost⟩

theorem ThrowsOnFailure.of_thrown {Value : Type} {result : TaskResult Value} {error : TaskError}
    (throws : ThrowsOnFailure host registry result) (threw : (thrown result).1 = some error) :
    WriteFailed host registry (thrown result).2 := by
  rw [thrown_snd]
  exact throws error (error_of_thrown threw)

section

variable (now : ℚ)

theorem throwsOnFailure_updateTask (taskId : String) (patch : TaskPatch) :
    ThrowsOnFailure host registry (registry.updateTask host now taskId patch) := by
  intro error threw
  obtain ⟨lost, grows⟩ := updateTask_error threw
  exact ⟨registry.writes, le_refl _, by omega, lost⟩

theorem throwsOnFailure_upsertTaskDeliveryState (state : TaskDeliveryState) :
    ThrowsOnFailure host registry (registry.upsertTaskDeliveryState host state) := by
  intro error threw
  obtain ⟨-, lost, grows⟩ := upsertTaskDeliveryState_error threw
  exact ⟨registry.writes, le_refl _, by omega, lost⟩

theorem throwsOnFailure_updateAndTell (taskId : String) (patch : TaskPatch)
    (event : Option TaskEventRecord) :
    ThrowsOnFailure host registry (registry.updateAndTell host now taskId patch event) := by
  intro error threw
  unfold updateAndTell at threw ⊢
  split at threw
  · simp at threw
  · exact throwsOnFailure_updateTask _ _ _ _ threw

theorem throwsOnFailure_forEachTask
    {perform : TaskRecord → Registry → TaskResult (Option TaskRecord)} (tasks : List TaskRecord)
    (grows : ∀ task registry, registry.writes ≤ (perform task registry).2.writes)
    (fails : ∀ task registry, ThrowsOnFailure host registry (perform task registry)) :
    ThrowsOnFailure host registry (forEachTask perform tasks registry) := by
  intro error threw
  induction tasks generalizing registry error with
  | nil => simp [forEachTask] at threw
  | cons task rest inductionHypothesis =>
    rw [forEachTask] at threw ⊢
    have growsHere := grows task registry
    have failsHere := fails task registry
    cases performing : perform task registry with
    | mk outcome next =>
      rw [performing] at threw growsHere failsHere
      cases outcome with
      | error thrown => exact failsHere thrown rfl
      | ok updated =>
        have threwLater := error_of_map_error threw
        exact (inductionHypothesis _ threwLater).before growsHere

theorem throwsOnFailure_placeTask (record : TaskRecord)
    (requesterOrigin : Option DeliveryContext) :
    ThrowsOnFailure host registry (registry.placeTask host now record requesterOrigin) := by
  intro error threw
  have grows : registry.writes ≤ (registry.stateTask host record requesterOrigin).2.writes :=
    writes_le_upsertTaskDeliveryState host
      { registry with tasks := registry.tasks.set record.taskId record } _
  have fails : ThrowsOnFailure host registry (registry.stateTask host record requesterOrigin) :=
    fun error threw => throwsOnFailure_upsertTaskDeliveryState _ error threw
  unfold placeTask at threw ⊢
  cases stating : registry.stateTask host record requesterOrigin with
  | mk outcome stated =>
    rw [stating] at threw grows fails
    cases outcome with
    | error error => exact fails error rfl
    | ok _ =>
      simp only at threw grows ⊢
      split at threw
      · simp at threw
      next lost =>
        rw [if_neg lost]
        refine ⟨stated.writes, grows, ?_, ?_⟩
        · rw [writes_persistTaskUpsert]
          exact Nat.lt_succ_self _
        · simpa [persistTaskUpsert, persist, indexTask] using lost

theorem throwsOnFailure_insertTask (record : TaskRecord)
    (requesterOrigin : Option DeliveryContext) :
    ThrowsOnFailure host registry (registry.insertTask host now record requesterOrigin) := by
  intro error threw
  have failed : ThrowsOnFailure host registry
      (registry.placeTask host now record requesterOrigin) :=
    throwsOnFailure_placeTask now record requesterOrigin
  unfold insertTask at threw ⊢
  cases placing : registry.placeTask host now record requesterOrigin with
  | mk outcome placed =>
    rw [placing] at threw failed
    cases outcome with
    | error thrown => exact failed thrown rfl
    | ok record => simp at threw

theorem assertParentFlowLinkAllowed_congr {ownerKey otherKey : String}
    (scopeKind : TaskScopeKind) (parentFlowId : Option String)
    (sameFlows : later.flowRegistry = registry.flowRegistry)
    (sameOwner :
      SessionKeys.normalizeOptionalString ownerKey = SessionKeys.normalizeOptionalString otherKey) :
    later.assertParentFlowLinkAllowed ownerKey scopeKind parentFlowId =
      registry.assertParentFlowLinkAllowed otherKey scopeKind parentFlowId := by
  unfold assertParentFlowLinkAllowed
  rw [sameFlows, sameOwner]

/-- Merging does not find a flow closed that creating found open. -/
theorem throwsOnFailure_mergeExistingTaskForCreate {existing : TaskRecord}
    {params : CreateTaskParams} (matched : params.matchesScope existing = true)
    (granted : registry.assertParentFlowLinkAllowed params.resolvedOwnerKey
          params.resolvedScopeKind params.parentFlowId = .ok ()) : ThrowsOnFailure host registry
      (registry.mergeExistingTaskForCreate host now existing params) := by
  intro error threw
  simp only [CreateTaskParams.matchesScope, Bool.and_eq_true, decide_eq_true_eq] at matched
  obtain ⟨⟨⟨⟨-, sameScope⟩, sameOwner⟩, -⟩, -⟩ := matched
  unfold mergeExistingTaskForCreate at threw ⊢
  extract_lets current requesterOrigin stated at threw
  extract_lets
  have first : registry.writes ≤ stated.2.writes ∧ stated.2.flowRegistry = registry.flowRegistry ∧
        ThrowsOnFailure host registry stated := by
    simp only [stated]
    split_ifs
    · refine ⟨writes_le_upsertTaskDeliveryState host registry _, ?_,
        throwsOnFailure_upsertTaskDeliveryState _⟩
      obtain ⟨_, _, _, -, kept⟩ := upsertTaskDeliveryState_eq host registry _
      rw [kept]
    · exact ⟨le_refl _, rfl, by simp [ThrowsOnFailure]⟩
  cases stating : stated with
  | mk outcome noted =>
    rw [stating] at threw first
    obtain ⟨grows, sameFlows, fails⟩ := first
    cases outcome with
    | error error => exact fails error rfl
    | ok _ =>
      have grantedThere : noted.assertParentFlowLinkAllowed existing.ownerKey
              existing.scopeKind params.parentFlowId = .ok () := by
        rw [assertParentFlowLinkAllowed_congr _ _ sameFlows sameOwner, sameScope]
        exact granted
      simp only [grantedThere, ite_self] at threw ⊢
      split_ifs at threw ⊢
      exact (throwsOnFailure_updateTask _ _ _ _ (error_of_map_error threw)).before grows

theorem writes_le_updateTask (taskId : String) (patch : TaskPatch)
    (keepsFlow : patch.parentFlowId = none) :
    registry.writes ≤ (registry.updateTask host now taskId patch).2.writes := by
  have effects : Effects host lawful registry (registry.updateTask host now taskId patch).2 :=
    effects_freeUpdate free_lawful now taskId patch keepsFlow
  exact effects.writes_le

theorem writes_le_updateAndTell (taskId : String) (patch : TaskPatch)
    (event : Option TaskEventRecord) (keepsFlow : patch.parentFlowId = none) : registry.writes ≤
      (registry.updateAndTell host now taskId patch event).2.writes := by
  have effects : Effects host lawful registry
      (registry.updateAndTell host now taskId patch event).2 :=
    (changes_updateAndTell (free_lawful.careful.marks _) now taskId patch event
      (linksAllowed_of_eq_none keepsFlow)).effects
      (free_lawful.careful.marks _)
  exact effects.writes_le

theorem throwsOnFailure_updateTaskStateByRunId (scope : RunScope) (update : RunUpdate) :
    ThrowsOnFailure host registry (registry.updateTaskStateByRunId host now scope update) := by
  refine throwsOnFailure_forEachTask _ ?_ ?_
  · intro task registry
    split_ifs
    · exact writes_le_updateAndTell now _ _ _ rfl
    · exact le_refl _
  · intro task registry error threw
    split_ifs at threw ⊢
    exact throwsOnFailure_updateAndTell _ _ _ _ _ threw

theorem throwsOnFailure_handleAgentEvent (event : AgentEvent) :
    ThrowsOnFailure host registry (registry.handleAgentEvent host now event) := by
  refine throwsOnFailure_forEachTask _ ?_ ?_
  · intro task registry
    split_ifs
    · exact le_refl _
    · exact writes_le_updateAndTell now _ _ _ rfl
  · intro task registry error threw
    split_ifs at threw ⊢
    exact throwsOnFailure_updateAndTell _ _ _ _ _ threw

end

theorem throwsOnFailure_deleteTaskRecordById (taskId : String) :
    ThrowsOnFailure host registry (registry.deleteTaskRecordById host taskId) := by
  intro error threw
  unfold deleteTaskRecordById at threw ⊢
  split at threw
  · simp at threw
  · simp only [persistTaskDelete, persistTaskDeliveryStateDelete, persist] at threw ⊢
    split_ifs at threw with deleted cleared
    · simp only [deleted, cleared, if_true]
      exact ⟨registry.writes + 1, by simp, by simp, by simpa using cleared⟩
    · simp only [deleted]
      exact ⟨registry.writes, le_refl _, by simp, by simpa using deleted⟩

theorem store_deleteTaskRecordById {taskId : String} {current : TaskRecord}
    (known : registry.tasks.get? taskId = some current)
    (succeeds : ¬WriteFailed host registry (registry.deleteTaskRecordById host taskId).2) :
    (registry.deleteTaskRecordById host taskId).2.store =
      (registry.store.deleteTaskWithDeliveryState taskId).deleteDeliveryState
        taskId := by
  have returned : ∀ error, (registry.deleteTaskRecordById host taskId).1 ≠ .error error :=
    fun error threw => succeeds (throwsOnFailure_deleteTaskRecordById taskId error threw)
  simp only [deleteTaskRecordById, known, persistTaskDelete,
    persistTaskDeliveryStateDelete, persist] at returned ⊢
  cases deleted : host.taskStore registry.writes with
  | false => simp [deleted] at returned
  | true =>
    cases cleared : host.taskStore (registry.writes + 1) with
    | false => simp [deleted, cleared] at returned
    | true => simp

/-- An operation that throws changed nothing, or one of its writes failed. -/
theorem unchanged_or_writeFailed {now : ℚ} {operation : TaskOperation} {error : TaskError}
    (keyed : registry.Keyed) (threw : (operation.perform host now registry).1 = some error) :
    (operation.perform host now registry).2 = registry ∨
      WriteFailed host registry (operation.perform host now registry).2 := by
  cases operation with
  | markRunning scope params =>
    exact Or.inr ((throwsOnFailure_updateTaskStateByRunId now scope _).of_thrown threw)
  | recordProgress scope params =>
    exact Or.inr ((throwsOnFailure_updateTaskStateByRunId now scope _).of_thrown threw)
  | finalize scope params =>
    exact Or.inr ((throwsOnFailure_updateTaskStateByRunId now scope _).of_thrown threw)
  | agentEvent event => exact Or.inr ((throwsOnFailure_handleAgentEvent now event).of_thrown threw)
  | setDeliveryStatus scope deliveryStatus message =>
    have throws : ThrowsOnFailure host registry
        (registry.setTaskRunDeliveryStatusByRunId host now scope deliveryStatus message) :=
      throwsOnFailure_forEachTask _ (fun _ _ => writes_le_updateTask now _ _ rfl)
        fun _ _ => throwsOnFailure_updateTask _ _ _
    exact Or.inr (throws.of_thrown threw)
  | updateById taskId update =>
    exact Or.inr ((throwsOnFailure_updateTask now taskId _).of_thrown threw)
  | create taskId params =>
    rw [TaskOperation.perform, thrown_snd]
    have failed := error_of_thrown threw
    unfold createTaskRecord at failed ⊢
    split_ifs at failed ⊢
    · exact Or.inl rfl
    · split at failed
      · exact Or.inl rfl
      next granted =>
        split at failed
        next existing found =>
          exact Or.inr (throwsOnFailure_mergeExistingTaskForCreate now
            (known_findExistingTaskForCreate keyed found).2 granted _ failed)
        · exact Or.inr (throwsOnFailure_insertTask _ _ _ _ failed)
  | linkToFlow taskId flowId =>
    rw [TaskOperation.perform, thrown_snd]
    have failed := error_of_thrown threw
    unfold linkTaskToFlowById at failed ⊢
    split at failed
    · split_ifs at failed ⊢
      split at failed
      · exact Or.inl rfl
      · exact Or.inr (throwsOnFailure_updateTask _ _ _ _ failed)
    · simp at failed
  | delete taskId => exact Or.inr ((throwsOnFailure_deleteTaskRecordById taskId).of_thrown threw)
  | reload => simp [TaskOperation.perform] at threw
  | cancel taskId reason => simp [TaskOperation.perform] at threw
  | settleCancel pending answer => simp [TaskOperation.perform] at threw
  | deliver taskId => simp [TaskOperation.perform] at threw
  | settleDelivery delivery accepted => simp [TaskOperation.perform] at threw
  | settleStateChange delivery accepted => simp [TaskOperation.perform] at threw

end Throwing

/-- The steps at which the delivery state of a new task is recorded. -/
def RecordingStep (host : TaskHost) : StepRelation Registry TaskAction :=
  Restricted (TaskStep host) fun source action =>
    ∀ taskId params, action.operation = .create taskId params →
      source.findExistingTaskForCreate params = none →
      source.RecordsDelivery host taskId params.requesterOrigin

section Runs

variable {host : TaskHost} {registry : Registry}

theorem free_recording : (recording host).Free := fun _ _ _ links => links

theorem indexesExact_step {action : TaskAction} {target : Registry}
    (taken : RecordingStep host registry action target) (keyed : registry.Keyed)
    (exact_ : registry.IndexesExact) : target.IndexesExact := by
  obtain ⟨records, enabled, rfl⟩ := taken
  have effects : Effects host (recording host) registry
      (action.operation.perform host action.now registry).2 := by
    apply effects_perform free_recording keyed action.now enabled
    · intro taskId params isCreate _ notFound
      simp only [recording, CreateTaskParams.taskId_newRecord]
      exact records taskId params isCreate notFound
    · exact fun _ _ => trivial
    · exact fun _ => trivial
  exact effects.invariant (fun _ _ effect => effect.indexesExact) exact_

theorem indexesExact_of_reachable
    (reachable : Reachable (RecordingStep host) (IsStarted host) registry) :
    registry.IndexesExact := by
  have initially : ∀ ⦃start⦄, IsStarted host start → start.Keyed ∧ start.IndexesExact := by
    rintro _ ⟨store, flowRegistry, rfl⟩
    exact ⟨keyed_started store flowRegistry, indexesExact_reload host _⟩
  have preserved : Preserves (RecordingStep host) fun registry =>
        registry.Keyed ∧ registry.IndexesExact := by
    rintro source action target taken ⟨keyed, exact_⟩
    exact ⟨keyed_step taken.2 keyed, indexesExact_step taken keyed exact_⟩
  exact (reachable.invariant initially preserved).2

theorem timesOrdered_of_reachable
    (reachable : Reachable (TaskStep host) (IsStarted host) registry) : registry.TimesOrdered := by
  have initially : ∀ ⦃start⦄, IsStarted host start → start.Keyed ∧ start.TimesOrdered := by
    rintro _ ⟨store, flowRegistry, rfl⟩
    exact ⟨keyed_started store flowRegistry, fun _ _ known => timesOrdered_of_restoredTasks known⟩
  have preserved : Preserves (TaskStep host) fun registry =>
        registry.Keyed ∧ registry.TimesOrdered := by
    rintro source action target taken ⟨keyed, ordered⟩
    refine ⟨keyed_step taken keyed, ?_⟩
    obtain ⟨enabled, rfl⟩ := taken
    have effects : Effects host lawful source (action.operation.perform host action.now source).2 :=
      effects_lawful keyed action.now enabled
    exact effects.invariant (fun _ _ effect => effect.timesOrdered) ordered
  exact (reachable.invariant initially preserved).2

/--
Where the delivery state of every new task is recorded, the four indexes are
exact with trimmed keys, the times are in order, and an operation that throws
without a failed write leaves the tasks, delivery states and indexes alone.
-/
theorem consistent_of_reachable
    (reachable : Reachable (RecordingStep host) (IsStarted host) registry) :
    registry.IndexesExact ∧ registry.KeysTrimmed ∧ registry.TimesOrdered ∧
      ∀ action target error, TaskStep host registry action target →
        (action.operation.perform host action.now registry).1 = some error →
        ¬WriteFailed host registry target →
        SameMemory registry target := by
  have exact_ := indexesExact_of_reachable reachable
  obtain ⟨start, actions, isStart, run⟩ := reachable
  have reached : Reachable (TaskStep host) (IsStarted host) registry :=
    ⟨start, actions, isStart, run.of_restricted⟩
  refine ⟨exact_, exact_.keysTrimmed, timesOrdered_of_reachable reached, ?_⟩
  rintro action target error ⟨enabled, rfl⟩ threw succeeded
  rcases unchanged_or_writeFailed (keyed_of_reachable reached) threw with unchanged | failed
  · rw [unchanged]
    exact SameMemory.refl registry
  · exact absurd failed succeeded

end Runs

/-- A task of a run with a channel to answer to. -/
private def channelTask : CreateTaskParams where
  runtime := .cli
  ownerKey := some "agent:main"
  runId := some "run-1"
  task := "Build"
  requesterOrigin := some { channel := some "slack", recipient := some "C1" }

private def failingHost : TaskHost := { TaskHost.plain with taskStore := fun _ => false }

private def createTask : TaskAction := ⟨1, .create "task-1" channelTask⟩

private def sameRun (task : String) : CreateTaskParams :=
  { channelTask with runId := some " run-2 ", task, requesterOrigin := none }

/-- Three tasks of two runs; one ends, one is deleted, and a restart reads the others again. -/
private def deletesOne : List TaskAction :=
  [createTask, ⟨2, .create "task-2" (sameRun "Test")⟩, ⟨3, .create "task-3" (sameRun "Ship")⟩,
    ⟨4, .markRunning { runId := "run-1" } {}⟩,
    ⟨5, .finalize { runId := "run-1" } { status := .succeeded, endedAt := 5 }⟩,
    ⟨6, .delete "task-2"⟩, ⟨7, .reload⟩]

/-- With a store that works, the tasks that are left are found by their runs. -/
theorem consistent_of_reachable_deletesOne :
    ∃ registry : Registry,
      (registry.getTasksByRunId "run-1").map TaskRecord.taskId = ["task-1"] ∧
        (registry.getTasksByRunId "run-2").map TaskRecord.taskId = ["task-3"] ∧
        registry.IndexesExact ∧ registry.KeysTrimmed ∧ registry.TimesOrdered := by
  have executed : (execute .plain (fun _ _ => true) deletesOne
          (started .plain TaskStore.empty FlowRegistry.empty)).map (fun registry =>
          ((registry.getTasksByRunId "run-1").map TaskRecord.taskId,
            (registry.getTasksByRunId "run-2").map TaskRecord.taskId)) =
        some (["task-1"], ["task-3"]) := by
    decide +kernel
  obtain ⟨registry, performed, found⟩ := map_eq_some_iff.mp executed
  obtain ⟨ended, left⟩ := Prod.mk.inj found
  have run := run_of_execute performed
  have reachable : Reachable (RecordingStep .plain) (IsStarted .plain) registry :=
    ⟨_, _, ⟨_, _, rfl⟩, run.mono fun _ _ _ taken => ⟨fun _ _ _ _ => Or.inr rfl, taken.2⟩⟩
  have consistent := consistent_of_reachable reachable
  exact ⟨registry, ended, left, consistent.1, consistent.2.1, consistent.2.2.1⟩

/-- A task whose delivery state cannot be written stays, and no index has it. -/
theorem not_consistent :
    ¬∀ (host : TaskHost) (registry : Registry),
      Reachable (TaskStep host) (IsStarted host) registry →
      registry.IndexesExact ∧ registry.TimesOrdered ∧
        ∀ action target error, TaskStep host registry action target →
          (action.operation.perform host action.now registry).1 = some error →
          SameMemory registry target := by
  intro consistent
  have executed : (execute failingHost (fun _ _ => true) [createTask]
          (started failingHost TaskStore.empty FlowRegistry.empty)).map (fun registry =>
          ((registry.tasks.get? "task-1").map TaskRecord.runKeys,
            InvertedIndex.members registry.taskIdsByRunId "run-1")) =
        some (some ["run-1"], []) := by
    decide +kernel
  obtain ⟨registry, created, seen⟩ := map_eq_some_iff.mp executed
  obtain ⟨stays, lost⟩ := Prod.mk.inj seen
  have reachable : Reachable (TaskStep failingHost) (IsStarted failingHost) registry :=
    ⟨_, _, ⟨_, _, rfl⟩, (run_of_execute created).of_restricted⟩
  obtain ⟨task, known, keys⟩ := map_eq_some_iff.mp stays
  have listed :=
    ((consistent failingHost registry reachable).1.runs.mem_iff "run-1"
      "task-1").mpr ⟨task, known, by simp [keys]⟩
  rw [lost] at listed
  simp at listed

end Tasks
