import AieClaw.TaskRegistryRuns

/-!
# What the operations are made of

Every operation changes the registry in a few ways only: it updates, places or
deletes a task, it states a delivery, it reloads the store, or it changes what
is waited for. A chain of such changes is described together with what it may
do, so that an invariant of the single changes is one of the operations.
-/

namespace Tasks

open TransitionSystem Registry List

/-- What a chain of changes may do in which registry. -/
structure Allowed where
  update (registry : Registry) (taskId : String) (patch : TaskPatch) : Prop
  place
    (registry : Registry) (record : TaskRecord) (requesterOrigin : Option DeliveryContext) : Prop
  delete (registry : Registry) (taskId : String) : Prop
  reload (registry : Registry) : Prop

/-- The registries that agree in all but what is waited for. -/
structure SameRecords (left right : Registry) : Prop where
  tasks : right.tasks = left.tasks
  taskDeliveryStates : right.taskDeliveryStates = left.taskDeliveryStates
  taskIdsByRunId : right.taskIdsByRunId = left.taskIdsByRunId
  taskIdsByOwnerKey : right.taskIdsByOwnerKey = left.taskIdsByOwnerKey
  taskIdsByParentFlowId : right.taskIdsByParentFlowId = left.taskIdsByParentFlowId
  taskIdsByRelatedSessionKey : right.taskIdsByRelatedSessionKey = left.taskIdsByRelatedSessionKey
  store : right.store = left.store
  writes : right.writes = left.writes
  flowRegistry : right.flowRegistry = left.flowRegistry

/-- One change of a registry. -/
inductive Effect (host : TaskHost) (allowed : Allowed) : Registry → Registry → Prop where
  | update
      {registry : Registry} (now : ℚ) (taskId : String) (patch : TaskPatch)
      (isAllowed : allowed.update registry taskId patch) :
      Effect host allowed registry (registry.updateTask host now taskId patch).2
  | place
      {registry : Registry} (now : ℚ) (record : TaskRecord)
      (requesterOrigin : Option DeliveryContext) (isNew : registry.tasks.get? record.taskId = none)
      (isNormal : record.TimesOrdered) (isAllowed : allowed.place registry record requesterOrigin) :
      Effect host allowed registry (registry.placeTask host now record requesterOrigin).2
  | delete
      {registry : Registry} (taskId : String) (isAllowed : allowed.delete registry taskId) :
      Effect host allowed registry (registry.deleteTaskRecordById host taskId).2
  | reload
      {registry : Registry} (isAllowed : allowed.reload registry) :
      Effect host allowed registry (registry.reloadTaskRegistryFromStore host)
  | stateDelivery
      {registry : Registry} (state : TaskDeliveryState) :
      Effect host allowed registry (registry.upsertTaskDeliveryState host state).2
  | waits
      {registry later : Registry} (same : SameRecords registry later) :
      Effect host allowed registry later

/-- A chain of changes of a registry. -/
abbrev Effects (host : TaskHost) (allowed : Allowed) : Registry → Registry → Prop :=
  Relation.ReflTransGen (Effect host allowed)

/-- What one change does to the tasks. -/
inductive TasksChange (allowed : Allowed) (registry : Registry) :
    OrderedMap String TaskRecord → Prop where
  | kept : TasksChange allowed registry registry.tasks
  | updated
      (now : ℚ) {taskId : String} {current : TaskRecord} (patch : TaskPatch)
      (known : registry.tasks.get? taskId = some current)
      (isAllowed : allowed.update registry taskId patch) :
      TasksChange allowed registry (registry.tasks.set taskId (nextTask now current patch))
  | placed
      {record : TaskRecord} {requesterOrigin : Option DeliveryContext}
      (isNew : registry.tasks.get? record.taskId = none) (isNormal : record.TimesOrdered)
      (isAllowed : allowed.place registry record requesterOrigin) :
      TasksChange allowed registry (registry.tasks.set record.taskId record)
  | deleted
      (taskId : String) (isAllowed : allowed.delete registry taskId) :
      TasksChange allowed registry (registry.tasks.delete taskId)
  | reloaded
      (isAllowed : allowed.reload registry) :
      TasksChange allowed registry (restoredTasks registry.store)

variable {host : TaskHost} {allowed : Allowed} {registry later : Registry}

theorem Effect.tasksChange
    (effect : Effect host allowed registry later) : TasksChange allowed registry later.tasks := by
  cases effect with
  | update now taskId patch isAllowed =>
    cases known : registry.tasks.get? taskId with
    | none =>
      rw [updateTask_of_none known]
      exact .kept
    | some current =>
      rw [tasks_updateTask known]
      exact .updated now patch known isAllowed
  | place now record requesterOrigin isNew isNormal isAllowed =>
    rw [tasks_placeTask]
    exact .placed isNew isNormal isAllowed
  | delete taskId isAllowed =>
    rcases tasks_deleteTaskRecordById host registry taskId with kept | deleted
    · rw [kept]
      exact .kept
    · rw [deleted]
      exact .deleted taskId isAllowed
  | reload isAllowed => exact .reloaded isAllowed
  | stateDelivery state =>
    rw [tasks_upsertTaskDeliveryState]
    exact .kept
  | waits same =>
    rw [same.tasks]
    exact .kept

/-- Whether a patch links a task to a flow only if both allow it. -/
def LinksAllowed (registry : Registry) (taskId : String) (patch : TaskPatch) : Prop :=
  ∀ flowId, patch.parentFlowId = some flowId →
    ∃ current,
      registry.tasks.get? taskId = some current ∧
        trimmedMember current.parentFlowId = none ∧
        registry.assertParentFlowLinkAllowed current.ownerKey current.scopeKind flowId = .ok ()

theorem linksAllowed_of_eq_none {taskId : String} {patch : TaskPatch}
    (keepsFlow : patch.parentFlowId = none) : LinksAllowed registry taskId patch := by
  intro flowId linked
  simp [keepsFlow] at linked

theorem linksAllowed_mergePatch (host : TaskHost)
    {existing : TaskRecord} {params : CreateTaskParams}
    (known : registry.tasks.get? existing.taskId = some existing)
    (linked : (if (CreateTaskParams.missing params.parentFlowId existing.parentFlowId).isSome then
        registry.assertParentFlowLinkAllowed existing.ownerKey
          existing.scopeKind params.parentFlowId
      else .ok ()) = .ok ()) :
    LinksAllowed registry existing.taskId (params.mergePatch host existing) := by
  intro flowId patched
  have given : CreateTaskParams.missing params.parentFlowId existing.parentFlowId = some flowId :=
    patched
  rw [given, Option.isSome_some, if_pos rfl] at linked
  unfold CreateTaskParams.missing at given
  split_ifs at given with unlinked
  obtain ⟨flowKey, isKey, rfl⟩ := Option.map_eq_some_iff.mp given
  refine ⟨existing, known, Option.isNone_iff_eq_none.mp unlinked, ?_⟩
  unfold assertParentFlowLinkAllowed at linked ⊢
  rw [isKey] at linked
  rw [trimmedMember_of_eq_some isKey]
  exact linked

def Allowed.Careful (allowed : Allowed) : Prop :=
  ∀ registry taskId patch, patch.status = none →
    LinksAllowed registry taskId patch → allowed.update registry taskId patch

/--
Whether all is allowed that keeps the statuses and links as flows allow, and
that marks deliveries in some ways only.
-/
def Allowed.Marks (allowed : Allowed) (statuses : TaskDeliveryStatus → Prop) : Prop :=
  ∀ registry taskId patch, patch.status = none →
    LinksAllowed registry taskId patch →
    (∀ deliveryStatus, patch.deliveryStatus = some deliveryStatus → statuses deliveryStatus) →
    allowed.update registry taskId patch

theorem Allowed.Careful.marks (careful : allowed.Careful) (statuses : TaskDeliveryStatus → Prop) :
    allowed.Marks statuses :=
  fun registry taskId patch keepsStatus links _ => careful registry taskId patch keepsStatus links

theorem Allowed.Marks.mono {statuses fewer : TaskDeliveryStatus → Prop}
    (marks : allowed.Marks statuses)
    (areFewer : ∀ deliveryStatus, fewer deliveryStatus → statuses deliveryStatus) :
    allowed.Marks fewer :=
  fun registry taskId patch keepsStatus links isMark =>
    marks registry taskId patch keepsStatus links
      fun deliveryStatus patched => areFewer _ (isMark deliveryStatus patched)

/-- Every task is kept under its own identity. -/
def Registry.Keyed (registry : Registry) : Prop :=
  ∀ taskId task, registry.tasks.get? taskId = some task → task.taskId = taskId

theorem Effect.keyed (effect : Effect host allowed registry later) (keyed : registry.Keyed) :
    later.Keyed := by
  have change := effect.tasksChange
  intro taskId task known
  generalize later.tasks = tasks at change known
  cases change with
  | kept => exact keyed taskId task known
  | updated now patch before isAllowed =>
    rw [OrderedMap.get?_set] at known
    split_ifs at known with same
    · cases known
      rw [taskId_nextTask, keyed _ _ before, same]
    · exact keyed taskId task known
  | placed isNew isNormal isAllowed =>
    rw [OrderedMap.get?_set] at known
    split_ifs at known with same
    · cases known
      exact same.symm
    · exact keyed taskId task known
  | deleted gone isAllowed =>
    rw [OrderedMap.get?_delete] at known
    split_ifs at known
    exact keyed taskId task known
  | reloaded isAllowed => exact taskId_of_restoredTasks known

theorem Effects.invariant {holds : Registry → Prop}
    (kept : ∀ ⦃registry later⦄, Effect host allowed registry later → holds registry → holds later)
    (effects : Effects host allowed registry later) (initially : holds registry) : holds later := by
  induction effects with
  | refl => exact initially
  | tail earlier last inductionHypothesis => exact kept last inductionHypothesis

section Lookups

variable {registry : Registry} {task : TaskRecord}

theorem known_of_mem_getTasksByRunId {runId : String} (keyed : registry.Keyed)
    (listed : task ∈ registry.getTasksByRunId runId) :
    registry.tasks.get? task.taskId = some task := by
  obtain ⟨taskId, -, known⟩ := mem_filterMap.mp listed
  rw [keyed taskId task known]
  exact known

theorem known_of_mem_getTasksByRunScope {scope : RunScope} (keyed : registry.Keyed)
    (listed : task ∈ registry.getTasksByRunScope scope) :
    registry.tasks.get? task.taskId = some task := by
  suffices task ∈ registry.getTasksByRunId scope.runId from known_of_mem_getTasksByRunId keyed this
  unfold getTasksByRunScope at listed
  extract_lets ofRuntime at listed
  have ofRun (member : task ∈ ofRuntime) : task ∈ registry.getTasksByRunId scope.runId :=
    (mem_filter.mp member).1
  clear_value ofRuntime
  split at listed
  · simp only at listed
    split_ifs at listed
    · exact ofRun (mem_filter.mp listed).1
    · exact ofRun (mem_filter.mp listed).1
  · cases ofRuntime with
    | nil => simp at listed
    | cons first rest =>
      simp only at listed
      split_ifs at listed
      · exact ofRun listed
      · simp at listed

theorem mem_of_pickPreferredRunIdTask {tasks : List TaskRecord}
    (picked : pickPreferredRunIdTask tasks = some task) : task ∈ tasks := by
  have among (best : TaskRecord) (rest : List TaskRecord) : rest.foldl
          (fun best candidate => if isPreferred candidate best then candidate else best)
          best ∈ best :: rest := by
    induction rest generalizing best with
    | nil => exact .head _
    | cons candidate rest inductionHypothesis =>
      rw [foldl_cons]
      split_ifs
      · exact .tail _ (inductionHypothesis candidate)
      · rcases mem_cons.mp (inductionHypothesis best) with isBest | later
        · rw [isBest]
          exact .head _
        · exact .tail _ (.tail _ later)
  cases tasks with
  | nil => simp [pickPreferredRunIdTask] at picked
  | cons first rest =>
    cases picked
    exact among first rest

theorem known_findExistingTaskForCreate {params : CreateTaskParams} (keyed : registry.Keyed)
    (found : registry.findExistingTaskForCreate params = some task) :
    registry.tasks.get? task.taskId = some task ∧ params.matchesScope task = true := by
  unfold findExistingTaskForCreate at found
  split at found
  · simp at found
  next runId isKey =>
    extract_lets runScopeMatches at found
    have matched (member : task ∈ runScopeMatches) :
        registry.tasks.get? task.taskId = some task ∧ params.matchesScope task = true :=
      ⟨known_of_mem_getTasksByRunId keyed (mem_filter.mp member).1, (mem_filter.mp member).2⟩
    split at found
    next exact_ isExact =>
      cases found
      exact matched (mem_of_find?_eq_some isExact)
    · split_ifs at found
      exact matched (mem_of_pickPreferredRunIdTask found)

end Lookups

section Chains

variable {host : TaskHost} {allowed : Allowed} {registry : Registry}
  {statuses : TaskDeliveryStatus → Prop} {deliveryStatus : TaskDeliveryStatus}

theorem effects_updateTask (now : ℚ) (taskId : String) (patch : TaskPatch)
    (isAllowed : allowed.update registry taskId patch) :
    Effects host allowed registry (registry.updateTask host now taskId patch).2 :=
  .single (.update now taskId patch isAllowed)

theorem effects_of_sameRecords {later : Registry} (same : SameRecords registry later) :
    Effects host allowed registry later :=
  .single (.waits same)

theorem effects_markDelivery (marks : allowed.Marks statuses) (now : ℚ) (taskId : String)
    (isMark : statuses deliveryStatus) :
    Effects host allowed registry (registry.markDelivery host now taskId deliveryStatus).2 := by
  apply effects_updateTask now taskId
  apply marks _ _ _ rfl (linksAllowed_of_eq_none rfl)
  intro marked isMarked
  cases isMarked
  exact isMark

theorem Registry.markDeliveryOrFailed_cases (registry : Registry) (now : ℚ) (taskId : String)
    (deliveryStatus : TaskDeliveryStatus) :
    (registry.markDeliveryOrFailed host now taskId deliveryStatus).2 =
        (registry.markDelivery host now taskId deliveryStatus).2 ∨
      (registry.markDeliveryOrFailed host now taskId deliveryStatus).2 =
        ((registry.markDelivery host now taskId deliveryStatus).2.markDelivery host now taskId
          .failed).2 := by
  unfold markDeliveryOrFailed
  split
  next marked => exact Or.inl (by rw [marked])
  next marked => exact Or.inr (by rw [marked])

theorem effects_markDeliveryOrFailed (marks : allowed.Marks statuses) (now : ℚ) (taskId : String)
    (isMark : statuses deliveryStatus) (isFailed : statuses .failed) : Effects host allowed registry
      (registry.markDeliveryOrFailed host now taskId deliveryStatus).2 := by
  have first : Effects host allowed registry
      (registry.markDelivery host now taskId deliveryStatus).2 :=
    effects_markDelivery marks now taskId isMark
  rcases registry.markDeliveryOrFailed_cases now taskId deliveryStatus with marked | failed
  · rw [marked]
    exact first
  · rw [failed]
    exact first.trans (effects_markDelivery marks now taskId isFailed)

theorem effects_endDelivery (taskId : String) :
    Effects host allowed registry (registry.endDelivery taskId) :=
  effects_of_sameRecords ⟨rfl, rfl, rfl, rfl, rfl, rfl, rfl, rfl, rfl⟩

/-- The marks of a task whose owner cannot be told. -/
def MissesOwner (deliveryStatus : TaskDeliveryStatus) : Prop :=
  deliveryStatus = .notApplicable ∨ deliveryStatus = .parentMissing

theorem MissesOwner.ne_delivered
    (misses : MissesOwner deliveryStatus) : deliveryStatus ≠ .delivered := by
  rcases misses with rfl | rfl
  · simp
  · simp

theorem missesOwner_resolveMissingOwnerDeliveryStatus (task : TaskRecord) :
    MissesOwner (resolveMissingOwnerDeliveryStatus task) := by
  unfold resolveMissingOwnerDeliveryStatus
  split_ifs
  · exact Or.inl rfl
  · exact Or.inr rfl

theorem effects_deliverTerminalUpdate (marks : allowed.Marks (· ≠ .delivered)) (now : ℚ)
    (latest : TaskRecord) : Effects host allowed registry
      (registry.deliverTerminalUpdate host now latest) := by
  unfold deliverTerminalUpdate
  extract_lets taskId preferred review canDeliverDirect delivery
  split_ifs
  · exact (effects_markDelivery marks now _ (by simp)).trans (effects_endDelivery _)
  · refine (effects_markDelivery marks now _ ?_).trans (effects_endDelivery _)
    exact (missesOwner_resolveMissingOwnerDeliveryStatus latest).ne_delivered
  · exact (effects_markDeliveryOrFailed marks now _ (by simp) (by simp)).trans
      (effects_endDelivery _)
  · exact (effects_markDeliveryOrFailed marks now _ (by simp) (by simp)).trans
      (effects_endDelivery _)
  · exact effects_of_sameRecords ⟨rfl, rfl, rfl, rfl, rfl, rfl, rfl, rfl, rfl⟩

theorem effects_maybeDeliverTaskTerminalUpdate (marks : allowed.Marks (· ≠ .delivered))
    (now : ℚ) (taskId : String) : Effects host allowed registry
      (registry.maybeDeliverTaskTerminalUpdate host now taskId) := by
  unfold maybeDeliverTaskTerminalUpdate
  split
  · exact .refl
  · split_ifs
    · exact .refl
    · exact .refl
    · refine .trans ?_ (effects_deliverTerminalUpdate marks now _)
      exact effects_of_sameRecords ⟨rfl, rfl, rfl, rfl, rfl, rfl, rfl, rfl, rfl⟩

theorem effects_settleTerminalDelivery (careful : allowed.Careful) (now : ℚ)
    (delivery : TerminalDelivery) (accepted : Bool) : Effects host allowed registry
      (registry.settleTerminalDelivery host now delivery accepted) := by
  have marks : allowed.Marks fun _ => True := careful.marks _
  unfold settleTerminalDelivery
  extract_lets waiting announcement told
  split_ifs
  · refine .trans ?_ (effects_endDelivery _)
    refine .trans ?_ (effects_markDeliveryOrFailed marks now _ trivial trivial)
    exact effects_of_sameRecords ⟨rfl, rfl, rfl, rfl, rfl, rfl, rfl, rfl, rfl⟩
  · refine .trans ?_ (effects_endDelivery _)
    refine .trans ?_ (effects_markDelivery marks now _ trivial)
    exact effects_of_sameRecords ⟨rfl, rfl, rfl, rfl, rfl, rfl, rfl, rfl, rfl⟩

end Chains

end Tasks
