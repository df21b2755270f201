import AieClaw.TaskExecutor
import AieClaw.TaskRegistryIndexes

/-!
# Cancelled flows

Once a cancellation is requested for a managed flow, the flow takes no new
tasks, keeps a terminal status, and ends with its last active task. The task
registry keeps to this. The operations of the controller of a flow do not look
at the request, and deleting a task does not end its flow.
-/

namespace Tasks

open TransitionSystem Registry FlowRegistry

/-- A managed flow whose cancellation was requested. -/
def TaskFlowRecord.IsCancelling (flow : TaskFlowRecord) : Prop :=
  flow.syncMode = .managed ∧ flow.cancelRequestedAt.isSome = true

namespace Registry

variable (registry : Registry)

def Links (taskId flowId : String) : Prop :=
  ∃ task, registry.tasks.get? taskId = some task ∧ trimmedMember task.parentFlowId = some flowId

/-- Whether some active task is linked to a flow. -/
def HasActiveTask (flowId : String) : Prop :=
  ∃ taskId task, registry.tasks.get? taskId = some task ∧
    trimmedMember task.parentFlowId = some flowId ∧
    task.status.isActive = true

/-- Every flow whose cancellation was requested has ended or waits for a task. -/
def CancelsSettle : Prop :=
  ∀ flowId flow, registry.flowRegistry.flows.get? flowId = some flow →
    flow.IsCancelling →
    flow.status.isTerminal = true ∨ registry.HasActiveTask flowId

/-- Whether some flow whose cancellation was requested has not ended. -/
def Waits : Prop :=
  ∃ flowId flow, registry.flowRegistry.flows.get? flowId = some flow ∧
    flow.IsCancelling ∧ flow.status.isTerminal = false

end Registry

/-- What stays of the requests to cancel flows. -/
structure StaysCancelled (before after : Registry) : Prop where
  marked :
    ∀ flowId flow, before.flowRegistry.flows.get? flowId = some flow →
      flow.IsCancelling →
      ∃ next, after.flowRegistry.flows.get? flowId = some next ∧
        next.IsCancelling ∧
        (flow.status.isTerminal = true → next.status = flow.status)
  noNewTask :
    ∀ flowId flow, before.flowRegistry.flows.get? flowId = some flow →
      flow.IsCancelling →
      ∀ taskId, after.Links taskId flowId → before.Links taskId flowId

theorem StaysCancelled.refl (registry : Registry) : StaysCancelled registry registry where
  marked _ flow known cancelling := ⟨flow, known, cancelling, fun _ => rfl⟩
  noNewTask _ _ _ _ _ := id

theorem StaysCancelled.trans {registry later last : Registry}
    (first : StaysCancelled registry later) (second : StaysCancelled later last) :
    StaysCancelled registry last where
  marked flowId flow known cancelling := by
    obtain ⟨next, knownNext, stillCancelling, kept⟩ := first.marked flowId flow known cancelling
    obtain ⟨final, knownFinal, finallyCancelling, keptAfter⟩ :=
      second.marked flowId next knownNext stillCancelling
    refine ⟨final, knownFinal, finallyCancelling, fun ended => ?_⟩
    have same := kept ended
    rw [keptAfter (same ▸ ended), same]
  noNewTask flowId flow known cancelling taskId linked := by
    obtain ⟨next, knownNext, stillCancelling, -⟩ := first.marked flowId flow known cancelling
    exact first.noNewTask flowId flow known cancelling taskId
      (second.noNewTask flowId next knownNext stillCancelling taskId linked)

/-- An index has under each key only tasks that carry it. -/
def SoundFor (keys : TaskRecord → List String) (tasks : OrderedMap String TaskRecord)
    (index : InvertedIndex String String) : Prop :=
  ∃ listed : String → String → Prop,
    InvertedIndex.Exact index listed ∧
      ∀ taskId key, listed taskId key → Carries keys tasks taskId key

section Sound

variable {keys : TaskRecord → List String} {tasks : OrderedMap String TaskRecord}
  {index : InvertedIndex String String} {taskId : String} {current : TaskRecord}

theorem ExactFor.sound (exact_ : ExactFor keys tasks index) : SoundFor keys tasks index :=
  ⟨_, exact_, fun _ _ => id⟩

section

variable (sound : SoundFor keys tasks index)
include sound

theorem SoundFor.replaced (known : tasks.get? taskId = some current) (next : TaskRecord) :
    SoundFor keys (tasks.set taskId next)
      ((index.deleteKeys (keys current) taskId).addKeys (keys next) taskId) := by
  obtain ⟨listed, isListed, carries⟩ := sound
  refine ⟨_, (isListed.deleteKeys (keys current) taskId).addKeys (keys next) taskId, ?_⟩
  rintro other key (⟨wasListed, notOld⟩ | ⟨rfl, isKey⟩)
  · by_cases isSelf : other = taskId
    · subst isSelf
      obtain ⟨task, isTask, carried⟩ := carries other key wasListed
      obtain rfl : current = task := Option.some.inj (known.symm.trans isTask)
      exact (notOld ⟨rfl, carried⟩).elim
    · exact (carries_set_of_ne isSelf).mpr (carries other key wasListed)
  · exact carries_set_self.mpr isKey

theorem SoundFor.sameKeys {next : TaskRecord}
    (known : tasks.get? taskId = some current) (same : keys next = keys current) :
    SoundFor keys (tasks.set taskId next) index := by
  obtain ⟨listed, isListed, carries⟩ := sound
  refine ⟨listed, isListed, fun other key wasListed => ?_⟩
  by_cases isSelf : other = taskId
  · subst isSelf
    obtain ⟨task, isTask, carried⟩ := carries other key wasListed
    obtain rfl : current = task := Option.some.inj (known.symm.trans isTask)
    exact carries_set_self.mpr (same ▸ carried)
  · exact (carries_set_of_ne isSelf).mpr (carries other key wasListed)

theorem SoundFor.placed (isNew : tasks.get? taskId = none) (task : TaskRecord) :
    SoundFor keys (tasks.set taskId task) index := by
  obtain ⟨listed, isListed, carries⟩ := sound
  refine ⟨listed, isListed, fun other key wasListed => ?_⟩
  have carried := carries other key wasListed
  refine (carries_set_of_ne ?_).mpr carried
  rintro rfl
  obtain ⟨known, isKnown, -⟩ := carried
  simp [isNew] at isKnown

theorem SoundFor.indexed {task : TaskRecord} (known : tasks.get? taskId = some task) :
    SoundFor keys tasks (index.addKeys (keys task) taskId) := by
  obtain ⟨listed, isListed, carries⟩ := sound
  refine ⟨_, isListed.addKeys (keys task) taskId, ?_⟩
  rintro other key (wasListed | ⟨rfl, isKey⟩)
  · exact carries other key wasListed
  · exact ⟨task, known, isKey⟩

theorem SoundFor.deleted
    (known : tasks.get? taskId = some current) : SoundFor keys (tasks.delete taskId)
      (index.deleteKeys (keys current) taskId) := by
  obtain ⟨listed, isListed, carries⟩ := sound
  refine ⟨_, isListed.deleteKeys (keys current) taskId, ?_⟩
  rintro other key ⟨wasListed, notOld⟩
  obtain ⟨task, isTask, carried⟩ := carries other key wasListed
  have differs : other ≠ taskId := by
    rintro rfl
    obtain rfl : current = task := Option.some.inj (known.symm.trans isTask)
    exact notOld ⟨rfl, carried⟩
  exact ⟨task, by rwa [OrderedMap.get?_delete_of_ne differs], carried⟩

end

end Sound

/-- The index of the flows has only tasks that are linked. -/
abbrev Registry.ListsLinked (registry : Registry) : Prop :=
  SoundFor TaskRecord.flowKeys registry.tasks registry.taskIdsByParentFlowId

section ListsLinked

variable {host : TaskHost} {registry later : Registry}

theorem linked_of_mem_listTasksForFlowId (sound : registry.ListsLinked) {flowId : String}
    {task : TaskRecord} (listed : task ∈ registry.listTasksForFlowId flowId) :
    ∃ taskId, registry.tasks.get? taskId = some task ∧
      trimmedMember task.parentFlowId = some (JsString.trim flowId) := by
  obtain ⟨isListed, exact_, carries⟩ := sound
  obtain ⟨taskId, member, known⟩ := mem_listTasksFromIndex.mp listed
  obtain ⟨carrier, isCarrier, isKey⟩ := carries taskId _ ((exact_.mem_iff _ _).mp member)
  obtain rfl : task = carrier := Option.some.inj (known.symm.trans isCarrier)
  exact ⟨taskId, known, by simpa [TaskRecord.flowKeys] using isKey⟩

theorem listsLinked_replaceTask {taskId : String} {current next : TaskRecord}
    (sound : registry.ListsLinked) (known : registry.tasks.get? taskId = some current) :
    (registry.replaceTask taskId current next).ListsLinked := by
  unfold Registry.ListsLinked
  simp only [replaceTask]
  split_ifs with changed
  · exact sound.replaced known next
  · apply sound.sameKeys known
    rw [TaskRecord.flowKeys, TaskRecord.flowKeys, trimmedMember_congr (not_not.mp changed)]

theorem listsLinked_placeTask {record : TaskRecord}
    {requesterOrigin : Option DeliveryContext} (sound : registry.ListsLinked) (now : ℚ)
    (isNew : registry.tasks.get? record.taskId = none) :
    (registry.placeTask host now record requesterOrigin).2.ListsLinked := by
  obtain ⟨_, _, _, -, stated⟩ := upsertTaskDeliveryState_eq host
    { registry with tasks := registry.tasks.set record.taskId record }
    (newDeliveryState host record.taskId requesterOrigin)
  have placed := sound.placed isNew record
  have first : SoundFor TaskRecord.flowKeys (registry.tasks.set record.taskId record)
      (registry.stateTask host record requesterOrigin).2.taskIdsByParentFlowId := by
    rw [stateTask, stated]
    exact placed
  have tasks : (registry.stateTask host record requesterOrigin).2.tasks =
      registry.tasks.set record.taskId record := by
    rw [stateTask, stated]
  unfold placeTask
  cases stating : registry.stateTask host record requesterOrigin with
  | mk outcome known =>
    rw [stating] at first tasks
    have sound : SoundFor TaskRecord.flowKeys known.tasks
        known.taskIdsByParentFlowId := by
      rw [tasks]
      exact first
    have isPlaced : known.tasks.get? record.taskId = some record := by
      rw [tasks, OrderedMap.get?_set_self]
    cases outcome with
    | error error => exact sound
    | ok _ =>
      simp only
      split_ifs
      · exact sound.indexed isPlaced
      · exact sound.indexed isPlaced

/-- Every change keeps the index of the flows sound. -/
theorem Effect.listsLinked {allowed : Allowed} (effect : Effect host allowed registry later)
    (sound : registry.ListsLinked) : later.ListsLinked := by
  cases effect with
  | update now taskId patch _ =>
    cases known : registry.tasks.get? taskId with
    | none =>
      rw [updateTask_of_none known]
      exact sound
    | some current =>
      obtain ⟨flowRegistry, updated⟩ := updateTask_of_some host now known patch
      have replaced : (registry.replaceTask taskId current
          (nextTask now current patch)).ListsLinked :=
        listsLinked_replaceTask sound known
      rw [updated]
      exact replaced
  | place now record requesterOrigin isNew _ _ => exact listsLinked_placeTask sound now isNew
  | delete taskId _ =>
    cases known : registry.tasks.get? taskId with
    | none =>
      rw [deleteTaskRecordById_of_none known]
      exact sound
    | some current =>
      obtain ⟨_, _, -, deleted⟩ := deleteTaskRecordById_of_some host known
      rw [deleted]
      exact SoundFor.deleted sound known
  | reload _ => exact (indexesExact_reload host registry).flows.sound
  | stateDelivery state =>
    obtain ⟨_, _, _, -, stated⟩ := upsertTaskDeliveryState_eq host registry state
    rw [stated]
    exact sound
  | waits same =>
    unfold Registry.ListsLinked
    rw [same.tasks, same.taskIdsByParentFlowId]
    exact sound

end ListsLinked

/-- Flows under their own identities, the managed ones with controllers. -/
structure FlowRegistry.WellFormed (registry : FlowRegistry) : Prop where
  keyed : registry.Keyed
  controlled :
    ∀ flowId flow, registry.flows.get? flowId = some flow →
      flow.syncMode = .managed →
      (trimmedMember flow.controllerId).isSome = true

/-- What an operation of the task registry makes of a flow. -/
inductive FlowFollows : Option TaskFlowRecord → Option TaskFlowRecord → Prop where
  | same (flow : Option TaskFlowRecord) : FlowFollows flow flow
  | mirrored
      {flow next : TaskFlowRecord} (was : flow.syncMode ≠ .managed)
      (is : next.syncMode ≠ .managed) : FlowFollows (some flow) (some next)
  | ended
      {flow next : TaskFlowRecord} (was : flow.IsCancelling)
      (notEnded : flow.status.isTerminal = false) (is : next.IsCancelling)
      (isCancelled : next.status = .cancelled) : FlowFollows (some flow) (some next)

/-- What an operation of the task registry makes of the flows. -/
def FlowRegistry.Follows (before after : FlowRegistry) : Prop :=
  ∀ flowId, FlowFollows (before.flows.get? flowId) (after.flows.get? flowId)

section Flows

variable {store : ℕ → Bool} {registry : FlowRegistry}

theorem follows_refl (registry : FlowRegistry) : registry.Follows registry := fun _ => .same _

theorem FlowFollows.of_cancelling {flow : TaskFlowRecord} {after : Option TaskFlowRecord}
    (follows : FlowFollows (some flow) after) (cancelling : flow.IsCancelling) :
    ∃ next, after = some next ∧ next.IsCancelling ∧
      (flow.status.isTerminal = true → next.status = flow.status) := by
  cases follows with
  | same => exact ⟨flow, rfl, cancelling, fun _ => rfl⟩
  | mirrored was is => exact (was cancelling.1).elim
  | ended was notEnded is isCancelled =>
    exact ⟨_, rfl, is, fun ended => by simp [notEnded] at ended⟩

theorem FlowFollows.eq_of_waiting {before : Option TaskFlowRecord} {next : TaskFlowRecord}
    (follows : FlowFollows before (some next)) (cancelling : next.IsCancelling)
    (notEnded : next.status.isTerminal = false) : before = some next := by
  cases follows with
  | same => rfl
  | mirrored was is => exact (is cancelling.1).elim
  | ended was _ is isCancelled => simp [isCancelled, TaskFlowStatus.isTerminal] at notEnded

variable {flowId : String} {patch : FlowRecordPatch} {current flow : TaskFlowRecord}

theorem keepsController_of_none
    (controlled : current.syncMode = .managed → (trimmedMember current.controllerId).isSome = true)
    (unpatched : patch.controllerId = none) : KeepsController current patch := by
  intro managed
  rw [unpatched]
  exact controlled managed

theorem patchFlow_eq (store : ℕ → Bool) (registry : FlowRegistry) (now : ℚ)
    (keeps : KeepsController current patch) : ∃ next, IsPatched current patch next ∧
      (patchFlow store now current patch registry).2 =
        { flows := registry.flows.set next.flowId next
          writes := registry.writes + 1 } := by
  rcases applyFlowPatch_cases now current patch with ⟨-, next, applied, patched⟩ | ⟨loses, -⟩
  · refine ⟨next, patched, ?_⟩
    unfold patchFlow
    simp only [applied, writeFlowRecord]
    split_ifs
    · rfl
    · rfl
  · exact (loses keeps).elim

theorem wellFormed_set (formed : registry.WellFormed) {next : TaskFlowRecord}
    (known : registry.flows.get? flowId = some current) (patched : IsPatched current patch next)
    (unpatched : current.syncMode = .managed → patch.controllerId = none) (writes : ℕ) :
    WellFormed { flows := registry.flows.set next.flowId next, writes } where
  keyed := keyed_set formed.keyed next writes
  controlled := by
    intro other flow isFlow managed
    rw [OrderedMap.get?_set] at isFlow
    split_ifs at isFlow with isNext
    · cases isFlow
      have wasManaged := patched.syncMode ▸ managed
      rw [patched.controllerId, unpatched wasManaged]
      exact formed.controlled flowId current known wasManaged
    · exact formed.controlled other flow isFlow managed

theorem follows_updateMirror (formed : registry.WellFormed) (now : ℚ)
    (known : registry.flows.get? flowId = some flow) (isMirror : flow.syncMode = .taskMirrored)
    (patch : FlowRecordPatch) (unpatched : patch.controllerId = none) : registry.Follows
        (updateFlowRecordByIdUnchecked store now flowId patch registry).2 ∧
      (updateFlowRecordByIdUnchecked store now flowId patch registry).2.WellFormed := by
  obtain ⟨next, patched, written⟩ := patchFlow_eq store registry now
    (keepsController_of_none (formed.controlled flowId flow known) unpatched)
  unfold updateFlowRecordByIdUnchecked
  rw [known]
  simp only
  rw [written]
  refine ⟨fun other => ?_, wellFormed_set formed known patched (fun _ => unpatched) _⟩
  rw [OrderedMap.get?_set]
  split_ifs with isNext
  · rw [isNext, patched.flowId, formed.keyed _ _ known, known]
    refine .mirrored (by simp [isMirror]) ?_
    rw [patched.syncMode, isMirror]
    simp
  · exact .same _

theorem follows_syncFlowFromTask (store : ℕ → Bool) (formed : registry.WellFormed) (now : ℚ)
    (task : TaskRecord) : registry.Follows (syncFlowFromTask store now task registry).2 ∧
      (syncFlowFromTask store now task registry).2.WellFormed := by
  unfold syncFlowFromTask
  split
  · exact ⟨follows_refl registry, formed⟩
  next flowId isKey =>
    split
    · exact ⟨follows_refl registry, formed⟩
    next flow known =>
      split_ifs with managed
      · exact ⟨follows_refl registry, formed⟩
      · exact follows_updateMirror formed now known (not_not.mp managed) _ rfl

theorem endFlow_eq (formed : registry.WellFormed) (store : ℕ → Bool) (now endedAt : ℚ)
    (known : registry.flows.get? flowId = some flow) : ∃ next, next.flowId = flowId ∧
        next.syncMode = flow.syncMode ∧
        next.cancelRequestedAt = flow.cancelRequestedAt ∧
        next.status = .cancelled ∧
        (updateFlowRecordByIdExpectedRevision store now flowId
            flow.revision (cancelledFlowPatch endedAt) registry).2.flows =
          registry.flows.set flowId next ∧
        (updateFlowRecordByIdExpectedRevision store now flowId
            flow.revision (cancelledFlowPatch endedAt) registry).2.WellFormed := by
  have unpatched : (cancelledFlowPatch endedAt).controllerId = none := rfl
  obtain ⟨next, patched, written⟩ := patchFlow_eq store registry now
    (keepsController_of_none (formed.controlled flowId flow known) unpatched)
  have sameId : next.flowId = flowId := patched.flowId.trans (formed.keyed _ _ known)
  unfold updateFlowRecordByIdExpectedRevision
  rw [known]
  simp only [ne_eq, not_true_eq_false, if_false]
  rw [written]
  refine ⟨next, sameId, patched.syncMode, patched.cancelRequestedAt,
    patched.status, ?_, wellFormed_set formed known patched (fun _ => unpatched) _⟩
  rw [sameId]

theorem FlowRegistry.Follows.trans {later last : FlowRegistry}
    (first : registry.Follows later) (second : later.Follows last) : registry.Follows last := by
  intro flowId
  have before := first flowId
  have after := second flowId
  generalize registry.flows.get? flowId = start at before ⊢
  generalize later.flows.get? flowId = middle at before after
  generalize last.flows.get? flowId = finish at after ⊢
  cases before with
  | same => exact after
  | mirrored was is =>
    cases after with
    | same => exact .mirrored was is
    | mirrored _ last => exact .mirrored was last
    | ended wasCancelling => exact (is wasCancelling.1).elim
  | ended was notEnded is isCancelled =>
    cases after with
    | same => exact .ended was notEnded is isCancelled
    | mirrored wasMirror _ => exact (wasMirror is.1).elim
    | ended _ stillOpen => simp [isCancelled, TaskFlowStatus.isTerminal] at stillOpen

theorem wellFormed_restored (flows : List TaskFlowRecord) : (restored flows).WellFormed := by
  refine ⟨keyed_restored flows, ?_⟩
  apply restored_invariant (fun known =>
    ∀ flowId flow, known.get? flowId = some flow →
      flow.syncMode = .managed →
      (trimmedMember flow.controllerId).isSome = true)
  · intro flowId flow known
    simp at known
  · intro known stored record normalized controlled flowId flow isFlow managed
    rw [OrderedMap.get?_set] at isFlow
    split_ifs at isFlow
    · cases isFlow
      unfold normalizeRestoredFlowRecord at normalized
      cases owned : assertFlowOwnerKey stored.ownerKey with
      | error error => simp [owned, Except.map] at normalized
      | ok ownerKey =>
        rw [owned] at normalized
        rw [← Except.ok.inj normalized] at managed ⊢
        have isManaged : stored.syncMode = .managed := managed
        simp only [isManaged, if_true]
        cases isKey : trimmedMember stored.controllerId with
        | none =>
          have legacy : (trimmedMember (some "core/legacy-restored")).isSome = true := by
            decide
          exact legacy
        | some key =>
          rw [Option.getD_some, trimmedMember_of_eq_some isKey]
          rfl
    · exact controlled flowId flow isFlow managed

end Flows

/-- A cancelled flow of a task ends, or waits for a task that is listed. -/
theorem follows_syncManagedFlowCancellationFromTask (host : TaskHost) (registry : Registry)
    (formed : registry.flowRegistry.WellFormed) (now : ℚ) (task : TaskRecord) :
    registry.flowRegistry.Follows
        (registry.syncManagedFlowCancellationFromTask host now task).flowRegistry ∧
      (registry.syncManagedFlowCancellationFromTask host now task).flowRegistry.WellFormed ∧
      ∀ flowId flow, trimmedMember task.parentFlowId = some flowId →
        (registry.syncManagedFlowCancellationFromTask host now
          task).flowRegistry.flows.get? flowId = some flow →
        flow.IsCancelling → flow.status.isTerminal = false →
        ∃ listed ∈ registry.listTasksForFlowId flowId, listed.status.isActive = true := by
  unfold syncManagedFlowCancellationFromTask
  split
  next isNone => exact ⟨follows_refl _, formed, by simp [isNone]⟩
  next flowId isKey =>
    have kept (waits : ∀ flow, registry.flowRegistry.flows.get? flowId = some flow →
          flow.IsCancelling → flow.status.isTerminal = false →
          ∃ listed ∈ registry.listTasksForFlowId flowId, listed.status.isActive = true) :
        registry.flowRegistry.Follows registry.flowRegistry ∧ registry.flowRegistry.WellFormed ∧
          ∀ other flow, trimmedMember task.parentFlowId = some other →
            registry.flowRegistry.flows.get? other = some flow →
            flow.IsCancelling → flow.status.isTerminal = false →
            ∃ listed ∈ registry.listTasksForFlowId other, listed.status.isActive = true := by
      refine ⟨follows_refl _, formed, fun other flow isOther => ?_⟩
      obtain rfl := Option.some.inj (isKey.symm.trans isOther)
      exact waits flow
    split
    next unknown =>
      have absent : registry.flowRegistry.flows.get? flowId = none := unknown
      exact kept (by simp [absent])
    next flow known =>
      have isKnown : registry.flowRegistry.flows.get? flowId = some flow := known
      split
      next idle =>
        apply kept
        intro current isCurrent cancelling notEnded
        obtain rfl := Option.some.inj (isKnown.symm.trans isCurrent)
        simp [cancelling.1, notEnded, Option.isNone_iff_eq_none] at idle
        simp [idle, TaskFlowRecord.IsCancelling] at cancelling
      next cancelled =>
        split
        next active => exact kept fun _ _ _ _ => List.any_eq_true.mp active
        next noneActive =>
          obtain ⟨next, sameId, sameMode, sameMark, isCancelled, written, stillFormed⟩ :=
            endFlow_eq formed host.flowStore now
              ((task.endedAt.or task.lastEventAt).getD now) isKnown
          simp only [Bool.or_eq_true, decide_eq_true_eq, not_or, not_not,
            Option.isNone_iff_eq_none, Bool.not_eq_true] at cancelled
          obtain ⟨⟨isManaged, isMarked⟩, notEnded⟩ := cancelled
          have cancelling : flow.IsCancelling :=
            ⟨isManaged, Option.isSome_iff_ne_none.mpr isMarked⟩
          have stillCancelling : next.IsCancelling := by
            rw [TaskFlowRecord.IsCancelling, sameMode, sameMark]
            exact cancelling
          refine ⟨fun other => ?_, stillFormed, ?_⟩
          · rw [written, OrderedMap.get?_set]
            split_ifs with isFlow
            · rw [isFlow, isKnown]
              exact .ended cancelling notEnded stillCancelling isCancelled
            · exact .same _
          · intro other current isOther isCurrent _ stillOpen
            obtain rfl := Option.some.inj (isKey.symm.trans isOther)
            rw [written, OrderedMap.get?_set_self] at isCurrent
            cases isCurrent
            simp [isCancelled, TaskFlowStatus.isTerminal] at stillOpen

end Tasks
