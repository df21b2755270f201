import AieClaw.TaskFlowCancellation

/-!
# Tasks of cancelled flows

Changes of tasks keep to the cancellations of flows: no task joins a cancelled
flow, and the flow ends with its last active task. What they may not do is
delete that task, or lose the write of its end.
-/

namespace Tasks

open TransitionSystem Registry

def Registry.SparesLastActive (registry : Registry) (taskId : String) : Prop :=
  ∀ flowId flow, registry.flowRegistry.flows.get? flowId = some flow →
    flow.IsCancelling → flow.status.isTerminal = false →
    registry.HasActiveTask flowId →
    ∃ other task, other ≠ taskId ∧ registry.tasks.get? other = some task ∧
      trimmedMember task.parentFlowId = some flowId ∧
      task.status.isActive = true

def TaskPatch.Ends (patch : TaskPatch) : Prop :=
  ∃ status, patch.status = some status ∧ status.isTerminal = true

/-- Changes of tasks that end no task unseen by a cancelled flow. -/
def settlingFlows (host : TaskHost) : Allowed where
  update registry taskId patch :=
    LinksAllowed registry taskId patch ∧
      (patch.Ends → registry.Waits →
        (registry.tasks.get? taskId).isSome = true →
        host.taskStore registry.writes = true)
  place := lawful.place
  delete := Registry.SparesLastActive
  reload _ := False

/-- Changes that delete nothing and do not read the store again. -/
def updating : Allowed where
  update := LinksAllowed
  place := lawful.place
  delete _ _ := False
  reload _ := False

theorem careful_settlingFlows (host : TaskHost) : (settlingFlows host).Careful := by
  intro registry taskId patch keepsStatus links
  refine ⟨links, ?_⟩
  rintro ⟨status, isStatus, -⟩
  simp [keepsStatus] at isStatus

theorem free_updating : updating.Free := fun _ _ _ links => links

/-- What the flows need of a registry for cancellations to be kept. -/
structure KeepsCancellations (registry : Registry) : Prop where
  keyed : registry.Keyed
  formed : registry.flowRegistry.WellFormed
  listsLinked : registry.ListsLinked
  settles : registry.CancelsSettle

section OneChange

variable {host : TaskHost} {registry later : Registry}

theorem isActive_of_not_isTerminal {status : TaskStatus} (open_ : status.isTerminal = false) :
    status.isActive = true := by
  cases status with
  | queued => rfl
  | running => rfl
  | succeeded => simp [TaskStatus.isTerminal] at open_
  | failed => simp [TaskStatus.isTerminal] at open_
  | timedOut => simp [TaskStatus.isTerminal] at open_
  | cancelled => simp [TaskStatus.isTerminal] at open_
  | lost => simp [TaskStatus.isTerminal] at open_

variable {taskId flowId : String} {flow : TaskFlowRecord}

/-- What an update makes of the flows, and for whom a cancelled flow waits. -/
theorem follows_updateTask (host : TaskHost) (formed : registry.flowRegistry.WellFormed) (now : ℚ)
    {current : TaskRecord} (known : registry.tasks.get? taskId = some current) (patch : TaskPatch) :
    registry.flowRegistry.Follows (registry.updateTask host now taskId patch).2.flowRegistry ∧
      (registry.updateTask host now taskId patch).2.flowRegistry.WellFormed ∧
      (host.taskStore registry.writes = true →
        ∀ flowId flow, trimmedMember (nextTask now current patch).parentFlowId = some flowId →
          (registry.updateTask host now taskId patch).2.flowRegistry.flows.get? flowId = some flow →
          flow.IsCancelling → flow.status.isTerminal = false →
          ∃ listed ∈ (registry.updateTask host now taskId patch).2.listTasksForFlowId flowId,
            listed.status.isActive = true) := by
  rw [updateTask, known]
  simp only
  have sameFlows : ((registry.replaceTask taskId current
        (nextTask now current patch)).persistTaskUpsert host
          (nextTask now current patch)).2.flowRegistry =
        registry.flowRegistry :=
    rfl
  have isWrite : ((registry.replaceTask taskId current
        (nextTask now current patch)).persistTaskUpsert host (nextTask now current patch)).1 =
        host.taskStore registry.writes :=
    rfl
  generalize (registry.replaceTask taskId current
    (nextTask now current patch)).persistTaskUpsert host
      (nextTask now current patch) = persisted at sameFlows isWrite
  split_ifs with stored
  · obtain ⟨mirrors, stillFormed⟩ :=
      follows_syncFlowFromTask host.flowStore formed now (nextTask now current patch)
    rw [← sameFlows] at mirrors stillFormed
    obtain ⟨ends, finallyFormed, waits⟩ :=
      follows_syncManagedFlowCancellationFromTask host
        (persisted.2.syncFlow host now (nextTask now current patch))
        stillFormed now (nextTask now current patch)
    rw [← sameFlows]
    refine ⟨mirrors.trans ends, finallyFormed, fun _ => ?_⟩
    intro flowId flow linked isFlow cancelling notEnded
    rw [syncManagedFlowCancellationFromTask_eq]
    exact waits flowId flow linked isFlow cancelling notEnded
  · rw [sameFlows]
    exact ⟨follows_refl _, formed, fun isStored => (stored (isWrite.trans isStored)).elim⟩

theorem follows_placeTask (formed : registry.flowRegistry.WellFormed) (now : ℚ)
    (record : TaskRecord) (requesterOrigin : Option DeliveryContext) : registry.flowRegistry.Follows
        (registry.placeTask host now record requesterOrigin).2.flowRegistry ∧
      (registry.placeTask host now record requesterOrigin).2.flowRegistry.WellFormed := by
  have sameFlows : (registry.stateTask host record requesterOrigin).2.flowRegistry =
        registry.flowRegistry := by
    obtain ⟨_, _, _, -, stated⟩ := upsertTaskDeliveryState_eq host
      { registry with tasks := registry.tasks.set record.taskId record }
      (newDeliveryState host record.taskId requesterOrigin)
    rw [stateTask, stated]
  unfold placeTask
  cases stating : registry.stateTask host record requesterOrigin with
  | mk outcome stated =>
    rw [stating] at sameFlows
    simp only at sameFlows
    cases outcome with
    | error error =>
      simp only [sameFlows]
      exact ⟨follows_refl _, formed⟩
    | ok _ =>
      simp only
      split_ifs
      · rw [← sameFlows] at formed ⊢
        exact follows_syncFlowFromTask host.flowStore formed now record
      · rw [← sameFlows] at formed ⊢
        exact ⟨follows_refl _, formed⟩

/-- Changes of tasks only end flows whose cancellation was requested. -/
theorem Effect.follows {allowed : Allowed} (effect : Effect host allowed registry later)
    (formed : registry.flowRegistry.WellFormed) : registry.flowRegistry.Follows later.flowRegistry ∧
      later.flowRegistry.WellFormed := by
  cases effect with
  | update now taskId patch _ =>
    cases known : registry.tasks.get? taskId with
    | none =>
      rw [updateTask_of_none known]
      exact ⟨follows_refl _, formed⟩
    | some current =>
      obtain ⟨follows, stillFormed, -⟩ := follows_updateTask host formed now known patch
      exact ⟨follows, stillFormed⟩
  | place now record requesterOrigin _ _ _ =>
    exact follows_placeTask formed now record requesterOrigin
  | delete taskId _ =>
    cases known : registry.tasks.get? taskId with
    | none =>
      rw [deleteTaskRecordById_of_none known]
      exact ⟨follows_refl _, formed⟩
    | some current =>
      obtain ⟨_, _, -, deleted⟩ := deleteTaskRecordById_of_some host known
      rw [deleted]
      exact ⟨follows_refl _, formed⟩
  | reload _ => exact ⟨follows_refl _, formed⟩
  | stateDelivery state =>
    obtain ⟨_, _, _, -, stated⟩ := upsertTaskDeliveryState_eq host registry state
    rw [stated]
    exact ⟨follows_refl _, formed⟩
  | waits same =>
    rw [same.flowRegistry]
    exact ⟨follows_refl _, formed⟩

theorem waits_of_follows (follows : registry.flowRegistry.Follows later.flowRegistry)
    (waits : later.Waits) : registry.Waits := by
  obtain ⟨flowId, flow, known, cancelling, notEnded⟩ := waits
  have before := follows flowId
  rw [known] at before
  exact ⟨flowId, flow, before.eq_of_waiting cancelling notEnded, cancelling, notEnded⟩

theorem not_cancelling_of_granted {ownerKey : String} {scopeKind : TaskScopeKind}
    {parentFlowId : Option String}
    (granted : registry.assertParentFlowLinkAllowed ownerKey scopeKind parentFlowId = .ok ())
    (isKey : trimmedMember parentFlowId = some flowId)
    (known : registry.flowRegistry.flows.get? flowId = some flow) : ¬flow.IsCancelling := by
  rintro ⟨-, isMarked⟩
  have found : registry.flowRegistry.getTaskFlowById flowId = some flow := known
  unfold assertParentFlowLinkAllowed at granted
  rw [isKey] at granted
  simp only [found, isMarked, if_true] at granted
  split_ifs at granted

theorem parentFlowId_of_linksAllowed {current : TaskRecord} {patch : TaskPatch} (now : ℚ)
    (known : registry.tasks.get? taskId = some current)
    (links : LinksAllowed registry taskId patch) :
    trimmedMember (nextTask now current patch).parentFlowId = trimmedMember current.parentFlowId ∨
      trimmedMember current.parentFlowId = none ∧
        registry.assertParentFlowLinkAllowed current.ownerKey current.scopeKind
            (nextTask now current patch).parentFlowId = .ok () := by
  rw [parentFlowId_nextTask]
  cases isPatched : patch.parentFlowId with
  | none => exact Or.inl rfl
  | some flowId =>
    obtain ⟨before, isBefore, unlinked, granted⟩ := links flowId isPatched
    obtain rfl := Option.some.inj (known.symm.trans isBefore)
    exact Or.inr ⟨unlinked, granted⟩

theorem links_set {tasks : OrderedMap String TaskRecord} {other : String} {task : TaskRecord}
    (linked : ∃ found, (tasks.set taskId task).get? other = some found ∧
        trimmedMember found.parentFlowId = some flowId) :
    other = taskId ∧ trimmedMember task.parentFlowId = some flowId ∨
      ∃ found, tasks.get? other = some found ∧ trimmedMember found.parentFlowId = some flowId := by
  obtain ⟨found, isFound, isKey⟩ := linked
  rw [OrderedMap.get?_set] at isFound
  split_ifs at isFound with same
  · cases isFound
    exact Or.inl ⟨same, isKey⟩
  · exact Or.inr ⟨found, isFound, isKey⟩

theorem Effect.noNewTask (effect : Effect host (settlingFlows host) registry later)
    (known : registry.flowRegistry.flows.get? flowId = some flow)
    (cancelling : flow.IsCancelling) (other : String) (linked : later.Links other flowId) :
    registry.Links other flowId := by
  have change := effect.tasksChange
  unfold Registry.Links at linked
  generalize later.tasks = tasks at change linked
  cases change with
  | kept => exact linked
  | @updated now taskId current patch isKnown isAllowed =>
    rcases links_set linked with ⟨rfl, isKey⟩ | before
    · rcases parentFlowId_of_linksAllowed now isKnown isAllowed.1 with kept | ⟨-, granted⟩
      · exact ⟨current, isKnown, kept.symm.trans isKey⟩
      · exact (not_cancelling_of_granted granted isKey known cancelling).elim
    · exact before
  | @placed record requesterOrigin isNew isNormal isAllowed =>
    rcases links_set linked with ⟨-, isKey⟩ | before
    · exact (not_cancelling_of_granted isAllowed isKey known cancelling).elim
    · exact before
  | deleted taskId isAllowed =>
    obtain ⟨found, isFound, isKey⟩ := linked
    rw [OrderedMap.get?_delete] at isFound
    split_ifs at isFound
    exact ⟨found, isFound, isKey⟩
  | reloaded isAllowed => exact isAllowed.elim

theorem hasActiveTask_of_other {other : String} {task active : TaskRecord}
    (tasks : later.tasks = registry.tasks.set taskId task) (differs : other ≠ taskId)
    (known : registry.tasks.get? other = some active)
    (linked : trimmedMember active.parentFlowId = some flowId)
    (isActive : active.status.isActive = true) : later.HasActiveTask flowId :=
  ⟨other, active, by rwa [tasks, OrderedMap.get?_set_of_ne differs], linked, isActive⟩

theorem hasActiveTask_updateTask (sound : KeepsCancellations registry) (now : ℚ) {patch : TaskPatch}
    (isAllowed : (settlingFlows host).update registry taskId patch)
    (isFlow :
      (registry.updateTask host now taskId patch).2.flowRegistry.flows.get? flowId = some flow)
    (cancelling : flow.IsCancelling) (notEnded : flow.status.isTerminal = false)
    (active : registry.HasActiveTask flowId) :
    (registry.updateTask host now taskId patch).2.HasActiveTask flowId := by
  obtain ⟨links, stored⟩ := isAllowed
  cases known : registry.tasks.get? taskId with
  | none =>
    rw [updateTask_of_none known]
    exact active
  | some current =>
    obtain ⟨other, task, isTask, linked, isActive⟩ := active
    have tasks : (registry.updateTask host now taskId patch).2.tasks =
        registry.tasks.set taskId (nextTask now current patch) :=
      tasks_updateTask known patch
    by_cases isOther : other = taskId
    · subst isOther
      obtain rfl := Option.some.inj (known.symm.trans isTask)
      have stillLinked : trimmedMember (nextTask now current patch).parentFlowId = some flowId := by
        rcases parentFlowId_of_linksAllowed now known links with kept | ⟨unlinked, -⟩
        · exact kept.trans linked
        · simp [linked] at unlinked
      by_cases ends : patch.Ends
      · -- The flow still waits, so the update found another active task.
        obtain ⟨follows, -, waits⟩ := follows_updateTask host sound.formed now known patch
        have isStored := stored ends
          (waits_of_follows follows ⟨flowId, flow, isFlow, cancelling, notEnded⟩)
          (by rw [known]; rfl)
        obtain ⟨listed, member, stillActive⟩ :=
          waits isStored flowId flow stillLinked isFlow cancelling notEnded
        have effect : Effect host (settlingFlows host) registry
            (registry.updateTask host now other patch).2 :=
          .update now other patch ⟨links, stored⟩
        have listsLinked := effect.listsLinked sound.listsLinked
        obtain ⟨listedId, isListed, isKey⟩ := linked_of_mem_listTasksForFlowId listsLinked member
        rw [(isKey_of_trimmedMember linked).2] at isKey
        exact ⟨listedId, listed, isListed, isKey, stillActive⟩
      · refine ⟨other, nextTask now current patch, ?_, stillLinked, ?_⟩
        · rw [tasks, OrderedMap.get?_set_self]
        · rw [status_nextTask]
          cases isPatched : patch.status with
          | none => exact isActive
          | some status =>
            apply isActive_of_not_isTerminal
            by_contra ended
            exact ends ⟨status, isPatched, by simpa using ended⟩
    · exact hasActiveTask_of_other tasks isOther isTask linked isActive

/-- A change of tasks keeps to the cancellations of flows. -/
theorem Effect.keepsCancellations (effect : Effect host (settlingFlows host) registry later)
    (sound : KeepsCancellations registry) :
    KeepsCancellations later ∧ StaysCancelled registry later := by
  obtain ⟨follows, formed⟩ := effect.follows sound.formed
  refine ⟨⟨effect.keyed sound.keyed, formed, effect.listsLinked sound.listsLinked, ?_⟩, ?_, ?_⟩
  · intro flowId flow isFlow cancelling
    by_contra unsettled
    rw [not_or, Bool.not_eq_true] at unsettled
    obtain ⟨notEnded, idle⟩ := unsettled
    have same := follows flowId
    rw [isFlow] at same
    have before := same.eq_of_waiting cancelling notEnded
    have active : registry.HasActiveTask flowId := by
      rcases sound.settles flowId flow before cancelling with ended | active
      · simp [notEnded] at ended
      · exact active
    apply idle
    cases effect with
    | update now taskId patch isAllowed =>
      exact hasActiveTask_updateTask sound now isAllowed isFlow cancelling notEnded active
    | place now record requesterOrigin isNew isNormal isAllowed =>
      obtain ⟨other, task, isTask, linked, isActive⟩ := active
      refine hasActiveTask_of_other
        (tasks_placeTask host now record requesterOrigin registry) ?_ isTask linked isActive
      rintro rfl
      simp [isNew] at isTask
    | delete taskId spares =>
      obtain ⟨other, task, differs, isTask, linked, isActive⟩ :=
        spares flowId flow before cancelling notEnded active
      refine ⟨other, task, ?_, linked, isActive⟩
      rcases tasks_deleteTaskRecordById host registry taskId with kept | deleted
      · rwa [kept]
      · rwa [deleted, OrderedMap.get?_delete_of_ne differs]
    | reload isAllowed => exact isAllowed.elim
    | stateDelivery state =>
      obtain ⟨other, task, isTask, linked, isActive⟩ := active
      refine ⟨other, task, ?_, linked, isActive⟩
      rwa [tasks_upsertTaskDeliveryState]
    | waits same =>
      obtain ⟨other, task, isTask, linked, isActive⟩ := active
      refine ⟨other, task, ?_, linked, isActive⟩
      rwa [same.tasks]
  · intro flowId flow isFlow cancelling
    have after := follows flowId
    rw [isFlow] at after
    exact after.of_cancelling cancelling
  · exact fun flowId flow isFlow cancelling => effect.noNewTask isFlow cancelling

theorem Effects.keepsCancellations (effects : Effects host (settlingFlows host) registry later)
    (sound : KeepsCancellations registry) :
    KeepsCancellations later ∧ StaysCancelled registry later := by
  induction effects with
  | refl => exact ⟨sound, .refl registry⟩
  | tail earlier last inductionHypothesis =>
    obtain ⟨kept, stays⟩ := inductionHypothesis
    obtain ⟨keptAfter, staysAfter⟩ := last.keepsCancellations kept
    exact ⟨keptAfter, stays.trans staysAfter⟩

theorem Effect.settling (effect : Effect host updating registry later)
    (stored : registry.Waits → ¬WriteFailed host registry later) :
    Effect host (settlingFlows host) registry later := by
  cases effect with
  | update now taskId patch links =>
    refine .update now taskId patch ⟨links, fun _ waits isKnown => ?_⟩
    obtain ⟨current, known⟩ := Option.isSome_iff_exists.mp isKnown
    by_contra lost
    obtain ⟨flowRegistry, updated⟩ := updateTask_of_some host now known patch
    refine stored waits ⟨registry.writes, le_refl _, ?_, Bool.not_eq_true _ ▸ lost⟩
    rw [updated]
    exact Nat.lt_succ_self _
  | place now record requesterOrigin isNew isNormal isAllowed =>
    exact .place now record requesterOrigin isNew isNormal isAllowed
  | delete taskId isAllowed => exact isAllowed.elim
  | reload isAllowed => exact isAllowed.elim
  | stateDelivery state => exact .stateDelivery state
  | waits same => exact .waits same

theorem Effects.settling (effects : Effects host updating registry later)
    (formed : registry.flowRegistry.WellFormed)
    (stored : registry.Waits → ¬WriteFailed host registry later) :
    Effects host (settlingFlows host) registry later := by
  induction effects using Relation.ReflTransGen.head_induction_on with
  | refl => exact .refl
  | @head first next effect rest inductionHypothesis =>
    obtain ⟨follows, stillFormed⟩ := effect.follows formed
    have firstStored (waits : first.Waits) : ¬WriteFailed host first next :=
      fun failed => stored waits (failed.after (Effects.writes_le rest))
    refine .head (effect.settling firstStored)
      (inductionHypothesis stillFormed fun waits failed => ?_)
    exact stored (waits_of_follows follows waits) (failed.before effect.writes_le)

end OneChange

/-- Whether an operation may give a task a terminal status. -/
def TaskOperation.MayEndTask : TaskOperation → Prop
  | .finalize _ _ => True
  | .agentEvent event => ∃ status, event.status = some status ∧ status.isTerminal = true
  | .updateById _ (.terminal ..) => True
  | .updateById _ (.lost ..) => True
  | .cancel _ _ => True
  | .settleCancel _ _ => True
  | _ => False

/--
Whether an operation on tasks deletes no last active task of a cancelled flow
and, where it may end a task while a cancelled flow waits, loses no write.
-/
def TaskOperation.HonoursCancel (host : TaskHost) (now : ℚ) (registry : Registry)
    (operation : TaskOperation) : Prop :=
  match operation with
  | .delete taskId => registry.SparesLastActive taskId
  | .reload => False
  | operation =>
    operation.MayEndTask → registry.Waits →
      ¬WriteFailed host registry (operation.perform host now registry).2

section Operations

variable {host : TaskHost} {registry : Registry}

section

variable (sound : KeepsCancellations registry)
include sound

theorem effects_endingOperation (now : ℚ)
    {operation : TaskOperation} (enabled : operation.Enabled registry)
    (keepsTasks : ∀ taskId, operation ≠ .delete taskId) (keepsMemory : operation ≠ .reload)
    (stored : registry.Waits → ¬WriteFailed host registry (operation.perform host now registry).2) :
    Effects host (settlingFlows host) registry (operation.perform host now registry).2 := by
  have effects : Effects host updating registry (operation.perform host now registry).2 :=
    effects_perform free_updating sound.keyed now enabled
      (fun taskId params _ granted _ => place_newRecord now taskId params granted)
      (fun taskId isDelete => (keepsTasks taskId isDelete).elim)
      fun isReload => (keepsMemory isReload).elim
  exact effects.settling sound.formed stored

theorem changes_createHonouring (now : ℚ)
    {taskId : String} (params : CreateTaskParams) (isNew : registry.tasks.get? taskId = none) :
    Changes host (settlingFlows host) registry
      (registry.createTaskRecord host now taskId params).2 := by
  apply changes_createTaskRecord sound.keyed now taskId params isNew
  · exact fun granted _ => place_newRecord now taskId params granted
  · exact fun existing _ => (careful_settlingFlows host).merges host registry params existing

/-- What honours the cancellations is a chain of changes that do. -/
theorem effects_honouring (now : ℚ)
    {operation : TaskOperation} (enabled : operation.Enabled registry)
    (honours : operation.HonoursCancel host now registry) :
    Effects host (settlingFlows host) registry (operation.perform host now registry).2 := by
  have careful := careful_settlingFlows host
  have marks : (settlingFlows host).Marks MissesOwner := careful.marks _
  have told : (settlingFlows host).Marks (· ≠ .delivered) := careful.marks _
  have keepsOpen (registry : Registry) (taskId : String) {patch : TaskPatch}
      (keepsFlow : patch.parentFlowId = none) (open_ : ¬patch.Ends) :
      (settlingFlows host).update registry taskId patch :=
    ⟨linksAllowed_of_eq_none keepsFlow, fun ends => (open_ ends).elim⟩
  cases operation with
  | recordProgress | setDeliveryStatus | linkToFlow | deliver | settleDelivery
  | settleStateChange => exact effects_of_keepsStatus careful now trivial
  | markRunning scope params =>
    rw [TaskOperation.perform, thrown_snd]
    refine (changes_allowedUpdateByRunId marks now scope _
      fun registry current => keepsOpen registry _ rfl ?_).effects told
    rintro ⟨status, isStatus, ended⟩
    cases isStatus
    simp [TaskStatus.isTerminal] at ended
  | finalize scope params =>
    exact effects_endingOperation sound now enabled (by simp) (by simp) (honours trivial)
  | agentEvent event =>
    by_cases mayEnd : TaskOperation.MayEndTask (.agentEvent event)
    · exact effects_endingOperation sound now enabled (by simp) (by simp) (honours mayEnd)
    · rw [TaskOperation.perform, thrown_snd]
      exact (changes_allowedAgentEvent marks now event
        fun registry current => keepsOpen registry _ rfl mayEnd).effects told
  | updateById taskId update =>
    cases update with
    | progress | timing | cleanupAfter | notifyPolicy =>
      exact effects_of_keepsStatus careful now trivial
    | terminal | lost =>
      exact effects_endingOperation sound now enabled (by simp) (by simp) (honours trivial)
  | create taskId params =>
    rw [TaskOperation.perform, thrown_snd]
    exact (changes_createHonouring sound now params enabled).effects told
  | delete taskId =>
    rw [TaskOperation.perform, thrown_snd]
    exact .single (.delete taskId honours)
  | reload => exact honours.elim
  | cancel taskId reason =>
    exact effects_endingOperation sound now enabled (by simp) (by simp) (honours trivial)
  | settleCancel pending answer =>
    exact effects_endingOperation sound now enabled (by simp) (by simp) (honours trivial)

end

end Operations

end Tasks
