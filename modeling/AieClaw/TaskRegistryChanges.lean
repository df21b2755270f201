import AieClaw.TaskRegistryEffects

/-!
# What the operations change and tell

But for reloading, deleting and the answers of channels, an operation changes
records or what is waited for, and begins to tell the owners of tasks. A chain
that keeps the two apart leaves alone which deliveries are begun and announced
wherever it tells nobody.
-/

namespace Tasks

open TransitionSystem Registry

/-- The registries in which the same deliveries were begun and announced. -/
structure SameDeliveries (left right : Registry) : Prop where
  tasksWithPendingDelivery : right.tasksWithPendingDelivery = left.tasksWithPendingDelivery
  deliveries : right.deliveries = left.deliveries
  announced : right.announced = left.announced

/-- One change that tells nobody, or the beginning of a delivery. -/
inductive Change (host : TaskHost) (allowed : Allowed) : Registry → Registry → Prop where
  | effect
      {registry later : Registry} (effect : Effect host allowed registry later)
      (same : SameDeliveries registry later) : Change host allowed registry later
  | tell
      {registry : Registry} (now : ℚ) (taskId : String) :
      Change host allowed registry (registry.maybeDeliverTaskTerminalUpdate host now taskId)

/-- A chain of changes and of beginnings of deliveries. -/
abbrev Changes (host : TaskHost) (allowed : Allowed) : Registry → Registry → Prop :=
  Relation.ReflTransGen (Change host allowed)

theorem SameDeliveries.refl (registry : Registry) : SameDeliveries registry registry :=
  ⟨rfl, rfl, rfl⟩

section SameDeliveries

variable {host : TaskHost} {registry : Registry}

theorem sameDeliveries_updateTask (now : ℚ) (taskId : String) (patch : TaskPatch) :
    SameDeliveries registry (registry.updateTask host now taskId patch).2 := by
  cases known : registry.tasks.get? taskId with
  | none =>
    rw [updateTask_of_none known]
    exact .refl registry
  | some current =>
    obtain ⟨_, updated⟩ := updateTask_of_some host now known patch
    rw [updated]
    exact ⟨rfl, rfl, rfl⟩

theorem sameDeliveries_upsertTaskDeliveryState (registry : Registry) (state : TaskDeliveryState) :
    SameDeliveries registry (registry.upsertTaskDeliveryState host state).2 := by
  obtain ⟨_, _, _, -, stated⟩ := upsertTaskDeliveryState_eq host registry state
  rw [stated]
  exact ⟨rfl, rfl, rfl⟩

theorem sameDeliveries_placeTask (now : ℚ) (record : TaskRecord)
    (requesterOrigin : Option DeliveryContext) : SameDeliveries registry
      (registry.placeTask host now record requesterOrigin).2 := by
  have first : SameDeliveries registry (registry.stateTask host record requesterOrigin).2 := by
    obtain ⟨pending, deliveries, announced⟩ : SameDeliveries
          { registry with tasks := registry.tasks.set record.taskId record }
          (registry.stateTask host record requesterOrigin).2 :=
      sameDeliveries_upsertTaskDeliveryState _ _
    exact ⟨pending, deliveries, announced⟩
  unfold placeTask
  cases stating : registry.stateTask host record requesterOrigin with
  | mk outcome stated =>
    rw [stating] at first
    cases outcome with
    | error error => exact first
    | ok _ =>
      simp only
      split_ifs
      · exact ⟨first.tasksWithPendingDelivery, first.deliveries, first.announced⟩
      · exact ⟨first.tasksWithPendingDelivery, first.deliveries, first.announced⟩

end SameDeliveries

theorem Changes.effects {host : TaskHost} {allowed : Allowed} {registry later : Registry}
    (marks : allowed.Marks (· ≠ .delivered)) (changes : Changes host allowed registry later) :
    Effects host allowed registry later := by
  induction changes with
  | refl => exact .refl
  | tail earlier last inductionHypothesis =>
    cases last with
    | effect effect same => exact inductionHypothesis.tail effect
    | tell now taskId =>
      exact inductionHypothesis.trans (effects_maybeDeliverTaskTerminalUpdate marks now taskId)

section Chains

variable {host : TaskHost} {allowed : Allowed} {registry : Registry}

theorem changes_updateTask (now : ℚ) (taskId : String) (patch : TaskPatch)
    (isAllowed : allowed.update registry taskId patch) :
    Changes host allowed registry (registry.updateTask host now taskId patch).2 :=
  .single (.effect (.update now taskId patch isAllowed)
    (sameDeliveries_updateTask now taskId patch))

theorem changes_keptUpdate (marks : allowed.Marks MissesOwner) (now : ℚ) (taskId : String)
    (patch : TaskPatch) (keepsStatus : patch.status = none)
    (keepsFlow : patch.parentFlowId = none) (keepsDelivery : patch.deliveryStatus = none) :
    Changes host allowed registry (registry.updateTask host now taskId patch).2 := by
  apply changes_updateTask now taskId patch
  apply marks _ _ _ keepsStatus (linksAllowed_of_eq_none keepsFlow)
  simp [keepsDelivery]

theorem changes_of_sameRecords {later : Registry} (records : SameRecords registry later)
    (deliveries : SameDeliveries registry later) : Changes host allowed registry later :=
  .single (.effect (.waits records) deliveries)

theorem changes_tell (now : ℚ) (taskId : String) :
    Changes host allowed registry (registry.maybeDeliverTaskTerminalUpdate host now taskId) :=
  .single (.tell now taskId)

theorem changes_upsertTaskDeliveryState (state : TaskDeliveryState) :
    Changes host allowed registry (registry.upsertTaskDeliveryState host state).2 :=
  .single (.effect (.stateDelivery state) (sameDeliveries_upsertTaskDeliveryState registry state))

section

variable (marks : allowed.Marks MissesOwner)
include marks

theorem changes_missedOwner (now : ℚ) (taskId : String)
    (task : TaskRecord) : Changes host allowed registry (registry.markDelivery host now taskId
        (resolveMissingOwnerDeliveryStatus task)).2 := by
  apply changes_updateTask now taskId
  apply marks _ _ _ rfl (linksAllowed_of_eq_none rfl)
  intro marked isMarked
  cases isMarked
  exact missesOwner_resolveMissingOwnerDeliveryStatus task

theorem changes_noteStateChange (now : ℚ)
    (taskId : String) (requesterOrigin : Option DeliveryContext) (latestEvent : TaskEventRecord) :
    Changes host allowed registry (registry.noteStateChange host now taskId requesterOrigin
        latestEvent) := by
  have first : Changes host allowed registry (registry.upsertTaskDeliveryState host
        { taskId, requesterOrigin
          lastNotifiedEventAt := some latestEvent.at_ }).2 :=
    changes_upsertTaskDeliveryState _
  unfold noteStateChange
  cases stating : registry.upsertTaskDeliveryState host
      { taskId, requesterOrigin
        lastNotifiedEventAt := some latestEvent.at_ } with
  | mk outcome noted =>
    rw [stating] at first
    cases outcome with
    | ok _ => exact first.trans (changes_keptUpdate marks now taskId _ rfl rfl rfl)
    | error error => exact first

theorem changes_maybeDeliverTaskStateChangeUpdate
    (now : ℚ) (taskId : String) (latestEvent : Option TaskEventRecord) :
    Changes host allowed registry (registry.maybeDeliverTaskStateChangeUpdate host now taskId
        latestEvent) := by
  unfold maybeDeliverTaskStateChangeUpdate
  split
  · simp only
    split_ifs
    · exact .refl
    · exact changes_missedOwner marks now _ _
    · exact changes_noteStateChange marks now _ _ _
    · exact changes_of_sameRecords ⟨rfl, rfl, rfl, rfl, rfl, rfl, rfl, rfl, rfl⟩ ⟨rfl, rfl, rfl⟩
  · exact .refl

theorem changes_settleStateChangeDelivery (now : ℚ)
    (delivery : StateChangeDelivery) (accepted : Bool) : Changes host allowed registry
      (registry.settleStateChangeDelivery host now delivery accepted) := by
  have waiting : Changes host allowed registry
      { registry with stateChanges := registry.stateChanges.erase delivery } :=
    changes_of_sameRecords ⟨rfl, rfl, rfl, rfl, rfl, rfl, rfl, rfl, rfl⟩ ⟨rfl, rfl, rfl⟩
  unfold settleStateChangeDelivery
  cases accepted with
  | true => exact waiting.trans (changes_noteStateChange marks now _ _ _)
  | false => exact waiting

theorem changes_tellAfterUpdate (now : ℚ)
    (taskId : String) (patch : TaskPatch) (event : Option TaskEventRecord) : Changes host allowed
      (registry.updateTask host now taskId patch).2
      (registry.updateAndTell host now taskId patch event).2 := by
  unfold updateAndTell
  cases updating : registry.updateTask host now taskId patch with
  | mk outcome updated =>
    rcases outcome with error | task
    · exact .refl
    · cases task with
      | none => exact .refl
      | some task =>
        exact .trans (changes_maybeDeliverTaskStateChangeUpdate marks now taskId event)
          (changes_tell now taskId)

theorem changes_updateAndTell (now : ℚ)
    (taskId : String) (patch : TaskPatch) (event : Option TaskEventRecord)
    (isAllowed : allowed.update registry taskId patch) :
    Changes host allowed registry (registry.updateAndTell host now taskId patch event).2 :=
  (changes_updateTask now taskId patch isAllowed).trans
    (changes_tellAfterUpdate marks now taskId patch event)

end

/--
A loop over tasks is a chain when each turn is one, given what holds before it
and still holds after it.
-/
theorem changes_forEachTask {perform : TaskRecord → Registry → TaskResult (Option TaskRecord)}
    (holds : Registry → Prop) {tasks : List TaskRecord}
    (turn : ∀ task ∈ tasks, ∀ registry, holds registry →
        Changes host allowed registry (perform task registry).2 ∧ holds (perform task registry).2)
    (initially : holds registry) :
    Changes host allowed registry (forEachTask perform tasks registry).2 := by
  induction tasks generalizing registry with
  | nil => exact .refl
  | cons task rest inductionHypothesis =>
    obtain ⟨first, kept⟩ := turn task List.mem_cons_self registry initially
    rw [forEachTask]
    cases performing : perform task registry with
    | mk outcome next =>
      rw [performing] at first kept
      cases outcome with
      | error error => exact first
      | ok updated =>
        exact first.trans (inductionHypothesis
          (fun other member => turn other (.tail task member)) kept)

theorem changes_tellAfterCancel (now : ℚ) (task : TaskRecord) (reason : Option String) :
    Changes host allowed (registry.updateTask host now task.taskId (cancelPatch now reason)).2
      (registry.markCancelled host now task reason).2 := by
  unfold markCancelled
  cases updating : registry.updateTask host now task.taskId (cancelPatch now reason) with
  | mk outcome marked =>
    rcases outcome with error | updated
    · exact .refl
    · cases updated with
      | none => exact .refl
      | some updated => exact changes_tell now task.taskId

theorem changes_markCancelled (now : ℚ) (task : TaskRecord) (reason : Option String)
    (isAllowed : allowed.update registry task.taskId (cancelPatch now reason)) :
    Changes host allowed registry (registry.markCancelled host now task reason).2 :=
  (changes_updateTask now task.taskId _ isAllowed).trans (changes_tellAfterCancel now task reason)

/--
Whether a request may be merged into a task, wherever the tasks and the
deliveries are as they are now.
-/
def Allowed.Merges (allowed : Allowed) (host : TaskHost) (registry : Registry)
    (params : CreateTaskParams) (existing : TaskRecord) : Prop :=
  ∀ later : Registry, later.tasks = registry.tasks →
    SameDeliveries registry later →
    LinksAllowed later existing.taskId (params.mergePatch host existing) →
    allowed.update later existing.taskId (params.mergePatch host existing)

theorem Allowed.Careful.merges {allowed : Allowed} (careful : allowed.Careful)
    (host : TaskHost) (registry : Registry) (params : CreateTaskParams) (existing : TaskRecord) :
    allowed.Merges host registry params existing :=
  fun later _ _ links => careful later existing.taskId _ rfl links

theorem changes_mergeExistingTaskForCreate (now : ℚ) (existing : TaskRecord)
    (params : CreateTaskParams) (known : registry.tasks.get? existing.taskId = some existing)
    (merges : allowed.Merges host registry params existing) : Changes host allowed registry
      (registry.mergeExistingTaskForCreate host now existing params).2 := by
  unfold mergeExistingTaskForCreate
  extract_lets current requesterOrigin stated
  have first : Changes host allowed registry stated.2 ∧ stated.2.tasks = registry.tasks ∧
        SameDeliveries registry stated.2 := by
    simp only [stated]
    split_ifs
    · exact ⟨changes_upsertTaskDeliveryState _, tasks_upsertTaskDeliveryState _,
        sameDeliveries_upsertTaskDeliveryState _ _⟩
    · exact ⟨.refl, rfl, .refl registry⟩
  cases stating : stated with
  | mk outcome noted =>
    rw [stating] at first
    obtain ⟨changes, sameTasks, same⟩ := first
    have knownThere : noted.tasks.get? existing.taskId = some existing := by
      rw [sameTasks]
      exact known
    cases outcome with
    | error error => exact changes
    | ok _ =>
      simp only
      split
      · exact changes
      next linked =>
        split_ifs with untouched
        · exact changes
        · refine changes.trans (changes_updateTask now _ _ ?_)
          apply merges noted sameTasks same
          exact linksAllowed_mergePatch host knownThere linked

theorem changes_linkTaskToFlowById (marks : allowed.Marks MissesOwner) (now : ℚ)
    (taskId flowId : String) : Changes host allowed registry
      (registry.linkTaskToFlowById host now taskId flowId).2 := by
  unfold linkTaskToFlowById
  split
  next flowKey current isKey known =>
    split_ifs with linked
    · exact .refl
    · split
      · exact .refl
      next granted =>
        apply changes_updateTask now
        refine marks _ _ _ rfl ?_ (by simp)
        intro flowId patched
        obtain rfl : some flowKey = flowId := Option.some.inj patched
        exact ⟨current, known, by simpa using linked, granted⟩
  · exact .refl

theorem changes_insertTask (now : ℚ) (record : TaskRecord)
    (requesterOrigin : Option DeliveryContext)
    (isNew : registry.tasks.get? record.taskId = none) (isNormal : record.TimesOrdered)
    (isAllowed : allowed.place registry record requesterOrigin) : Changes host allowed registry
      (registry.insertTask host now record requesterOrigin).2 := by
  have first : Changes host allowed registry
      (registry.placeTask host now record requesterOrigin).2 :=
    .single (.effect
      (.place now record requesterOrigin isNew isNormal isAllowed)
      (sameDeliveries_placeTask now record requesterOrigin))
  unfold insertTask
  cases placing : registry.placeTask host now record requesterOrigin with
  | mk outcome placed =>
    rw [placing] at first
    cases outcome with
    | error error => exact first
    | ok placedRecord =>
      simp only
      split_ifs
      · exact first.trans (changes_tell now _)
      · exact first

theorem changes_createTaskRecord (keyed : registry.Keyed) (now : ℚ) (taskId : String)
    (params : CreateTaskParams) (isNew : registry.tasks.get? taskId = none)
    (isAllowed : registry.assertParentFlowLinkAllowed params.resolvedOwnerKey
          params.resolvedScopeKind params.parentFlowId = .ok () →
        registry.findExistingTaskForCreate params = none →
        allowed.place registry (params.newRecord host now taskId) params.requesterOrigin)
    (merges : ∀ existing, registry.findExistingTaskForCreate params = some existing →
        allowed.Merges host registry params existing) : Changes host allowed registry
      (registry.createTaskRecord host now taskId params).2 := by
  unfold createTaskRecord
  split_ifs
  · exact .refl
  · split
    · exact .refl
    next granted =>
      split
      next existing found =>
        exact changes_mergeExistingTaskForCreate now existing params
          (known_findExistingTaskForCreate keyed found).1 (merges existing found)
      next notFound =>
        apply changes_insertTask now
        · rw [CreateTaskParams.taskId_newRecord]
          exact isNew
        · exact CreateTaskParams.timesOrdered_newRecord host now taskId params
        · exact isAllowed granted notFound

def TaskRecord.isCancelledAtOnce (task : TaskRecord) : Bool :=
  task.runtime = .cli ||
    ((trimmedMember task.childSessionKey).isNone && isChildlessCodexNativeSubagentTask task)

theorem changes_cancelTaskById (now : ℚ) (taskId : String) (reason : Option String)
    (isAllowed : ∀ task, registry.tasks.get? (JsString.trim taskId) = some task →
        task.status.isTerminal = false → task.isCancelledAtOnce = true →
        allowed.update registry task.taskId (cancelPatch now reason)) :
    Changes host allowed registry (registry.cancelTaskById host now taskId reason).2 := by
  unfold cancelTaskById
  split
  · exact .refl
  next task found =>
    split
    · exact .refl
    next ended =>
      have marked (atOnce : task.isCancelledAtOnce = true) :
          Changes host allowed registry (registry.markCancelled host now task reason).2 :=
        changes_markCancelled now task reason (isAllowed task found (by simpa using ended) atOnce)
      extract_lets finished
      split
      next isCli => exact marked (by simp [TaskRecord.isCancelledAtOnce, isCli])
      · split
        next childless =>
          split
          next isNative =>
            exact marked (by
              simp [TaskRecord.isCancelledAtOnce, childless, isNative])
          · exact .refl
        · split
          · exact changes_of_sameRecords
              ⟨rfl, rfl, rfl, rfl, rfl, rfl, rfl, rfl, rfl⟩ ⟨rfl, rfl, rfl⟩
          · exact .refl

theorem changes_settleCancel (now : ℚ) (pending : PendingCancel) (answer : ControlAnswer)
    (isAllowed : answer = .stopped →
        ∀ later : Registry, SameRecords registry later →
          allowed.update later pending.task.taskId (cancelPatch now pending.reason)) :
    Changes host allowed registry (registry.settleCancel host now pending answer).2 := by
  have same : SameRecords registry { registry with cancels := registry.cancels.erase pending } :=
    ⟨rfl, rfl, rfl, rfl, rfl, rfl, rfl, rfl, rfl⟩
  have waiting : Changes host allowed registry
      { registry with cancels := registry.cancels.erase pending } :=
    changes_of_sameRecords same ⟨rfl, rfl, rfl⟩
  unfold settleCancel
  cases answer with
  | stopped => exact waiting.trans (changes_markCancelled now _ _ (isAllowed rfl _ same))
  | notRunning => exact waiting
  | notFound => exact waiting
  | failed message => exact waiting

end Chains

def Allowed.Free (allowed : Allowed) : Prop :=
  ∀ registry taskId patch, LinksAllowed registry taskId patch → allowed.update registry taskId patch

theorem Allowed.Free.careful {allowed : Allowed} (free : allowed.Free) : allowed.Careful :=
  fun registry taskId patch _ links => free registry taskId patch links

/-- What every operation keeps to: a task is linked only as its flow allows. -/
def lawful : Allowed where
  update := LinksAllowed
  place registry record _ :=
    registry.assertParentFlowLinkAllowed record.ownerKey record.scopeKind record.parentFlowId =
      .ok ()
  delete _ _ := True
  reload _ := True

theorem free_lawful : lawful.Free := fun _ _ _ links => links

section Operations

variable {host : TaskHost} {allowed : Allowed} {registry : Registry} {operation : TaskOperation}

theorem effects_freeUpdate (free : allowed.Free) (now : ℚ) (taskId : String)
    (patch : TaskPatch) (keepsFlow : patch.parentFlowId = none) :
    Effects host allowed registry (registry.updateTask host now taskId patch).2 :=
  effects_updateTask now taskId patch (free _ _ _ (linksAllowed_of_eq_none keepsFlow))

theorem changes_forEachTask_of_forall
    {perform : TaskRecord → Registry → TaskResult (Option TaskRecord)} (tasks : List TaskRecord)
    (turn : ∀ task registry, Changes host allowed registry (perform task registry).2) :
    Changes host allowed registry (forEachTask perform tasks registry).2 :=
  changes_forEachTask (fun _ => True)
    (fun task _ registry _ => ⟨turn task registry, trivial⟩) trivial

theorem changes_allowedUpdateByRunId (marks : allowed.Marks MissesOwner) (now : ℚ)
    (scope : RunScope) (update : RunUpdate)
    (isAllowed :
      ∀ registry current, allowed.update registry current.taskId (update.patch current)) :
    Changes host allowed registry (registry.updateTaskStateByRunId host now scope update).2 := by
  apply changes_forEachTask_of_forall
  intro current registry
  split_ifs
  · exact changes_updateAndTell marks now _ _ _ (isAllowed registry current)
  · exact .refl

theorem changes_updateTaskStateByRunId (free : allowed.Free) (now : ℚ) (scope : RunScope)
    (update : RunUpdate) :
    Changes host allowed registry (registry.updateTaskStateByRunId host now scope update).2 :=
  changes_allowedUpdateByRunId (free.careful.marks _) now scope update
    fun _ _ => free _ _ _ (linksAllowed_of_eq_none rfl)

theorem changes_allowedAgentEvent (marks : allowed.Marks MissesOwner) (now : ℚ) (event : AgentEvent)
    (isAllowed :
      ∀ registry current, allowed.update registry current.taskId (event.patch now current)) :
    Changes host allowed registry (registry.handleAgentEvent host now event).2 := by
  apply changes_forEachTask_of_forall
  intro current registry
  split_ifs
  · exact .refl
  · exact changes_updateAndTell marks now _ _ _ (isAllowed registry current)

theorem changes_handleAgentEvent (free : allowed.Free) (now : ℚ) (event : AgentEvent) :
    Changes host allowed registry (registry.handleAgentEvent host now event).2 :=
  changes_allowedAgentEvent (free.careful.marks _) now event
    fun _ _ => free _ _ _ (linksAllowed_of_eq_none rfl)

theorem changes_setTaskRunDeliveryStatusByRunId (careful : allowed.Careful) (now : ℚ)
    (scope : RunScope) (deliveryStatus : TaskDeliveryStatus) (error : Option String) :
    Changes host allowed registry
      (registry.setTaskRunDeliveryStatusByRunId host now scope deliveryStatus error).2 := by
  apply changes_forEachTask_of_forall
  intro current registry
  exact changes_updateTask now _ _ (careful _ _ _ rfl (linksAllowed_of_eq_none rfl))

@[simp] theorem thrown_snd {Value : Type} (result : TaskResult Value) :
    (thrown result).2 = result.2 := by
  rcases result with ⟨outcome | outcome, later⟩ <;> rfl

theorem error_of_thrown {Value : Type} {result : TaskResult Value} {error : TaskError}
    (threw : (thrown result).1 = some error) : result.1 = .error error := by
  rcases result with ⟨outcome | outcome, later⟩
  · exact congrArg Except.error (Option.some.inj threw)
  · simp [thrown] at threw

/-- The operations that neither give a status nor make or forget a task. -/
def TaskOperation.KeepsStatus : TaskOperation → Prop
  | .recordProgress .. | .setDeliveryStatus .. | .linkToFlow .. | .deliver _ => True
  | .settleDelivery .. | .settleStateChange .. => True
  | .updateById _ (.progress ..) | .updateById _ (.timing ..) => True
  | .updateById _ (.cleanupAfter _) | .updateById _ (.notifyPolicy _) => True
  | _ => False

theorem effects_of_keepsStatus (careful : allowed.Careful) (now : ℚ)
    (keeps : operation.KeepsStatus) :
    Effects host allowed registry (operation.perform host now registry).2 := by
  have marks : allowed.Marks MissesOwner := careful.marks _
  have told : allowed.Marks (· ≠ .delivered) := careful.marks _
  cases operation with
  | recordProgress scope params =>
    rw [TaskOperation.perform, thrown_snd]
    exact (changes_allowedUpdateByRunId marks now scope _
      fun registry current => careful registry _ _ rfl (linksAllowed_of_eq_none rfl)).effects told
  | setDeliveryStatus scope deliveryStatus error =>
    rw [TaskOperation.perform, thrown_snd]
    exact (changes_setTaskRunDeliveryStatusByRunId careful now scope
      deliveryStatus error).effects told
  | updateById taskId update =>
    rw [TaskOperation.perform, thrown_snd]
    cases update with
    | terminal | lost => exact keeps.elim
    | progress | timing | cleanupAfter | notifyPolicy =>
      exact effects_updateTask now taskId _
        (careful registry taskId _ rfl (linksAllowed_of_eq_none rfl))
  | linkToFlow taskId flowId =>
    rw [TaskOperation.perform, thrown_snd]
    exact (changes_linkTaskToFlowById marks now taskId flowId).effects told
  | deliver taskId => exact effects_maybeDeliverTaskTerminalUpdate told now taskId
  | settleDelivery delivery accepted =>
    exact effects_settleTerminalDelivery careful now delivery accepted
  | settleStateChange delivery accepted =>
    exact (changes_settleStateChangeDelivery marks now delivery accepted).effects told
  | markRunning | finalize | agentEvent | create | delete | reload | cancel | settleCancel =>
    exact keeps.elim

/-- Every operation is a chain of what its creations and deletions may do. -/
theorem effects_perform (free : allowed.Free) (keyed : registry.Keyed) (now : ℚ)
    (enabled : operation.Enabled registry)
    (places : ∀ taskId params, operation = .create taskId params →
        registry.assertParentFlowLinkAllowed params.resolvedOwnerKey
            params.resolvedScopeKind params.parentFlowId = .ok () →
        registry.findExistingTaskForCreate params = none →
        allowed.place registry (params.newRecord host now taskId) params.requesterOrigin)
    (deletes : ∀ taskId, operation = .delete taskId → allowed.delete registry taskId)
    (reloads : operation = .reload → allowed.reload registry) :
    Effects host allowed registry (operation.perform host now registry).2 := by
  have careful := free.careful
  have told : allowed.Marks (· ≠ .delivered) := careful.marks _
  cases operation with
  | recordProgress | setDeliveryStatus | linkToFlow | deliver | settleDelivery
  | settleStateChange => exact effects_of_keepsStatus careful now trivial
  | markRunning scope params =>
    rw [TaskOperation.perform, thrown_snd]
    exact (changes_updateTaskStateByRunId free now scope _).effects told
  | finalize scope params =>
    rw [TaskOperation.perform, thrown_snd]
    exact (changes_updateTaskStateByRunId free now scope _).effects told
  | agentEvent event =>
    rw [TaskOperation.perform, thrown_snd]
    exact (changes_handleAgentEvent free now event).effects told
  | updateById taskId update =>
    rw [TaskOperation.perform, thrown_snd]
    exact effects_freeUpdate free now taskId _ (by cases update <;> rfl)
  | create taskId params =>
    rw [TaskOperation.perform, thrown_snd]
    exact (changes_createTaskRecord keyed now taskId params enabled (places taskId params rfl)
      fun existing _ => careful.merges host registry params existing).effects told
  | delete taskId =>
    rw [TaskOperation.perform, thrown_snd]
    exact .single (.delete taskId (deletes taskId rfl))
  | reload => exact .single (.reload (reloads rfl))
  | cancel taskId reason =>
    exact (changes_cancelTaskById now taskId reason
      fun _ _ _ _ => free _ _ _ (linksAllowed_of_eq_none rfl)).effects told
  | settleCancel pending answer =>
    exact (changes_settleCancel now pending answer
      fun _ _ _ => free _ _ _ (linksAllowed_of_eq_none rfl)).effects told

theorem place_newRecord (now : ℚ) (taskId : String) (params : CreateTaskParams)
    (granted : registry.assertParentFlowLinkAllowed params.resolvedOwnerKey
          params.resolvedScopeKind params.parentFlowId = .ok ()) :
    lawful.place registry (params.newRecord host now taskId)
      params.requesterOrigin := by
  simp only [lawful, CreateTaskParams.ownerKey_newRecord, CreateTaskParams.scopeKind_newRecord,
    CreateTaskParams.parentFlowId_newRecord, assertParentFlowLinkAllowed_trimmedMember]
  exact granted

theorem effects_lawful (keyed : registry.Keyed) (now : ℚ) (enabled : operation.Enabled registry) :
    Effects host lawful registry (operation.perform host now registry).2 :=
  effects_perform free_lawful keyed now enabled
    (fun taskId params _ granted _ => place_newRecord now taskId params granted)
    (fun _ _ => trivial) fun _ => trivial

theorem keyed_started (store : TaskStore) (flowRegistry : FlowRegistry) :
    (started host store flowRegistry).Keyed :=
  fun _ _ known => taskId_of_restoredTasks known

theorem keyed_step {action : TaskAction} {target : Registry}
    (taken : TaskStep host registry action target) (keyed : registry.Keyed) : target.Keyed := by
  obtain ⟨enabled, rfl⟩ := taken
  have effects : Effects host lawful registry
      (action.operation.perform host action.now registry).2 :=
    effects_lawful keyed action.now enabled
  exact effects.invariant (fun _ _ effect => effect.keyed) keyed

theorem keyed_of_reachable (reachable : Reachable (TaskStep host) (IsStarted host) registry) :
    registry.Keyed := by
  refine reachable.invariant ?_ fun _ _ _ taken => keyed_step taken
  rintro _ ⟨store, flowRegistry, rfl⟩
  exact keyed_started store flowRegistry

end Operations

end Tasks
