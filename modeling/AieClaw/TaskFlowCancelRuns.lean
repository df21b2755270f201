import AieClaw.TaskFlowCancelEffects

/-!
# Runs that keep to cancellations

The controller of a flow does not look at a cancellation, and one that is
requested where no task is active ends nothing. In a run without such calls, in
which tasks keep to the cancellations too, a cancelled flow takes no task, keeps
its end and ends with its last active task.
-/

namespace Tasks

open TransitionSystem Registry FlowRegistry

def FlowRegistry.FlowOperation.HonoursCancel (now : ℚ) (registry : Registry) (flow : TaskFlowRecord)
    (operation : FlowOperation) : Prop :=
  match operation with
  | .updateFlowRecord _ => False
  | .requestFlowCancel _ =>
    flow.cancelRequestedAt.isSome = true ∨
      flow.status.isTerminal = true ∨ registry.HasActiveTask flow.flowId
  | operation =>
    flow.cancelRequestedAt.isSome = true → flow.status.isTerminal = true →
      (operation.patch now).status = some flow.status

/-- Whether a step honours the cancellations of flows. -/
def FlowStepOperation.HonoursCancel (host : TaskHost) (now : ℚ) (registry : Registry) :
    FlowStepOperation → Prop
  | .task operation => operation.HonoursCancel host now registry
  | .flow flowId expectedRevision operation =>
    ∀ flow, registry.flowRegistry.flows.get? flowId = some flow →
      flow.revision = expectedRevision → flow.syncMode = .managed →
      operation.HonoursCancel now registry flow
  | .createManaged _ params =>
    params.cancelRequestedAt.isSome = true → (params.status.getD .queued).isTerminal = true
  | .runTask _ _ _ => True
  | .beginFlowCancel flowId =>
    ∀ flow, registry.flowRegistry.flows.get? flowId = some flow →
      flow.syncMode = .managed → flow.cancelRequestedAt = none →
      flow.status.isTerminal = false →
      JsString.trim flowId = flowId ∧
        (host.flowStore registry.flowRegistry.writes = true ∨ registry.HasActiveTask flowId)
  | .endFlowCancel _ => True

/-- The steps that honour the cancellations of flows. -/
def HonouringStep (host : TaskHost) : StepRelation Registry FlowAction :=
  Restricted (FlowStep host) fun source action =>
    action.operation.HonoursCancel host action.now source

/-- A process that begins with no cancelled flow left over without a task. -/
def IsStartedSettled (host : TaskHost) (registry : Registry) : Prop :=
  ∃ store flows, registry = started host store (restored flows) ∧ registry.CancelsSettle

section Calls

variable {host : TaskHost} {registry : Registry} {flowId : String} {next : TaskFlowRecord}
  {params : CreateFlowRecordParams}

theorem keepsCancellations_setFlow (sound : KeepsCancellations registry)
    {flowRegistry : FlowRegistry} (formed : flowRegistry.WellFormed)
    (written : ∀ other, flowRegistry.flows.get? other =
        if other = flowId then some next
        else registry.flowRegistry.flows.get? other)
    (keeps : ∀ flow, registry.flowRegistry.flows.get? flowId = some flow →
        flow.IsCancelling →
        next.IsCancelling ∧ (flow.status.isTerminal = true → next.status = flow.status))
    (settles : next.IsCancelling → next.status.isTerminal = true ∨ registry.HasActiveTask flowId) :
    KeepsCancellations { registry with flowRegistry } ∧
      StaysCancelled registry { registry with flowRegistry } := by
  refine ⟨⟨sound.keyed, formed, sound.listsLinked, ?_⟩, ?_, ?_⟩
  · intro other flow isFlow cancelling
    simp only [written] at isFlow
    split_ifs at isFlow with same
    · cases isFlow
      rw [same]
      exact settles cancelling
    · exact sound.settles other flow isFlow cancelling
  · intro other flow isFlow cancelling
    simp only [written]
    split_ifs with same
    · rw [same] at isFlow
      exact ⟨next, rfl, keeps flow isFlow cancelling⟩
    · exact ⟨flow, isFlow, cancelling, fun _ => rfl⟩
  · exact fun _ _ _ _ _ => id

theorem keepsCancellations_flowCall (host : TaskHost) (sound : KeepsCancellations registry)
    (call : FlowCall) (honours : ∀ flow, registry.flowRegistry.flows.get? call.flowId = some flow →
        flow.revision = call.expectedRevision → flow.syncMode = .managed →
        call.operation.HonoursCancel call.now registry flow) : KeepsCancellations { registry with
          flowRegistry := (call.perform host.flowStore registry.flowRegistry).2 } ∧
      StaysCancelled registry
        { registry with
          flowRegistry :=
            (call.perform host.flowStore registry.flowRegistry).2 } := by
  have outcome := call.cases host.flowStore registry.flowRegistry
  generalize call.perform host.flowStore registry.flowRegistry = result at outcome
  cases outcome with
  | notFound => exact ⟨sound, .refl registry⟩
  | conflict => exact ⟨sound, .refl registry⟩
  | refused => exact ⟨sound, .refl registry⟩
  | @written current next known isExpected keepsController patched =>
    have sameId : next.flowId = call.flowId := patched.flowId.trans (sound.formed.keyed _ _ known)
    have unpatched (managed : current.syncMode = .managed) :
        (call.operation.patch call.now).controllerId = none := by
      have honoured := honours current known isExpected managed
      cases isOperation : call.operation with
      | updateFlowRecord patch =>
        rw [isOperation] at honoured
        exact honoured.elim
      | _ => rfl
    apply keepsCancellations_setFlow sound (wellFormed_set sound.formed known patched unpatched _)
      (fun other => by rw [sameId, OrderedMap.get?_set])
    · intro flow isFlow cancelling
      obtain rfl := Option.some.inj (known.symm.trans isFlow)
      have honoured := honours current known isExpected cancelling.1
      rw [TaskFlowRecord.IsCancelling, patched.syncMode, patched.cancelRequestedAt, patched.status]
      cases isOperation : call.operation with
      | updateFlowRecord patch =>
        rw [isOperation] at honoured
        exact honoured.elim
      | requestFlowCancel params => exact ⟨⟨cancelling.1, rfl⟩, fun _ => rfl⟩
      | _ =>
        rw [isOperation] at honoured
        refine ⟨cancelling, fun ended => ?_⟩
        rw [honoured cancelling.2 ended]
        rfl
    · intro cancelling
      rw [TaskFlowRecord.IsCancelling, patched.syncMode, patched.cancelRequestedAt] at cancelling
      have honoured := honours current known isExpected cancelling.1
      have settled (wasMarked : current.cancelRequestedAt.isSome = true) :
          current.status.isTerminal = true ∨ registry.HasActiveTask call.flowId :=
        sound.settles _ _ known ⟨cancelling.1, wasMarked⟩
      rw [patched.status]
      cases isOperation : call.operation with
      | updateFlowRecord patch =>
        rw [isOperation] at honoured
        exact honoured.elim
      | requestFlowCancel params =>
        rw [isOperation] at honoured
        rcases honoured with wasMarked | ended | active
        · exact settled wasMarked
        · exact Or.inl ended
        · rw [sound.formed.keyed _ _ known] at active
          exact Or.inr active
      | _ =>
        rw [isOperation] at honoured cancelling
        rcases settled cancelling.2 with ended | active
        · rw [honoured cancelling.2 ended]
          exact Or.inl ended
        · exact Or.inr active

theorem buildManagedFlow_eq {now : ℚ} {record : TaskFlowRecord}
    (built : buildFlowRecord now flowId { params with syncMode := some .managed } =
        .ok record) : record.flowId = flowId ∧
      record.cancelRequestedAt = params.cancelRequestedAt ∧
      record.status = params.status.getD .queued ∧
      (trimmedMember record.controllerId).isSome = true := by
  simp only [buildFlowRecord, Option.getD_some, if_true] at built
  unfold assertControllerId at built
  cases isKey : trimmedMember params.controllerId with
  | none => simp [isKey, Except.map, Except.bind] at built
  | some controllerId =>
    simp only [isKey, Except.map, Except.bind] at built
    cases owned : assertFlowOwnerKey params.ownerKey with
    | error error => simp [owned] at built
    | ok ownerKey =>
      rw [owned] at built
      obtain rfl := Except.ok.inj built
      exact ⟨rfl, rfl, rfl, by rw [trimmedMember_of_eq_some isKey]; rfl⟩

theorem keepsCancellations_createManaged (sound : KeepsCancellations registry) (now : ℚ)
    (isNew : registry.flowRegistry.getTaskFlowById flowId = none)
    (honours :
      params.cancelRequestedAt.isSome = true → (params.status.getD .queued).isTerminal = true) :
    KeepsCancellations ((FlowStepOperation.createManaged flowId params).perform host now registry) ∧
      StaysCancelled registry ((FlowStepOperation.createManaged flowId params).perform host now
          registry) := by
  have absent : registry.flowRegistry.flows.get? flowId = none := isNew
  rw [FlowStepOperation.perform, createFlowRecord]
  cases built : buildFlowRecord now flowId
      { params with syncMode := some .managed } with
  | error error => exact ⟨sound, .refl registry⟩
  | ok record =>
    obtain ⟨sameId, sameMark, sameStatus, controlled⟩ := buildManagedFlow_eq built
    have formed : WellFormed
        { flows := registry.flowRegistry.flows.set record.flowId record
          writes := registry.flowRegistry.writes + 1 } := by
      refine ⟨keyed_set sound.formed.keyed record _, ?_⟩
      intro other flow isFlow managed
      rw [OrderedMap.get?_set] at isFlow
      split_ifs at isFlow
      · cases isFlow
        exact controlled
      · exact sound.formed.controlled other flow isFlow managed
    have written : (writeFlowRecord host.flowStore record registry.flowRegistry).2 =
          { flows := registry.flowRegistry.flows.set record.flowId record
            writes := registry.flowRegistry.writes + 1 } := by
      unfold writeFlowRecord
      simp only
      split_ifs
      · rfl
      · rfl
    simp only [written]
    apply keepsCancellations_setFlow sound formed (fun other => by rw [sameId, OrderedMap.get?_set])
    · intro flow isFlow
      simp [absent] at isFlow
    · intro cancelling
      rw [TaskFlowRecord.IsCancelling, sameMark] at cancelling
      rw [sameStatus]
      exact Or.inl (honours cancelling.2)

theorem keepsCancellations_runTask (sound : KeepsCancellations registry) (now : ℚ) {taskId : String}
    (flowId : String) (params : RunTaskInFlowParams) (isNew : registry.tasks.get? taskId = none) :
    KeepsCancellations (registry.runTaskInFlow host now taskId flowId params).2 ∧
      StaysCancelled registry (registry.runTaskInFlow host now taskId flowId params).2 := by
  have told : (settlingFlows host).Marks (· ≠ .delivered) := (careful_settlingFlows host).marks _
  have created (flow : TaskFlowRecord) : Effects host (settlingFlows host) registry
        (registry.createTaskRecord host now taskId (params.createParams flow)).2 :=
    (changes_createHonouring sound now (params.createParams flow) isNew).effects told
  unfold runTaskInFlow
  split
  · exact ⟨sound, .refl registry⟩
  next flow known =>
    split_ifs
    · exact ⟨sound, .refl registry⟩
    · exact ⟨sound, .refl registry⟩
    · exact ⟨sound, .refl registry⟩
    · exact (created flow).keepsCancellations sound

theorem endFlowCancel_cases (host : TaskHost) (formed : registry.flowRegistry.WellFormed) (now : ℚ)
    (requested : TaskFlowRecord) : ((registry.endFlowCancel host now requested).2 = registry ∧
        ∀ flow, registry.flowRegistry.flows.get? requested.flowId = some flow →
          flow.status.isTerminal = false →
          ∃ listed ∈ registry.listTasksForFlowId requested.flowId, listed.status.isActive = true) ∨
      ∃ flow next flowRegistry, registry.flowRegistry.flows.get? requested.flowId = some flow ∧
          flow.status.isTerminal = false ∧
          next.syncMode = flow.syncMode ∧
          next.cancelRequestedAt = flow.cancelRequestedAt ∧
          next.status = .cancelled ∧
          flowRegistry.flows = registry.flowRegistry.flows.set requested.flowId next ∧
          flowRegistry.WellFormed ∧
          (registry.endFlowCancel host now requested).2 = { registry with flowRegistry } := by
  unfold endFlowCancel
  extract_lets flowId tasks flow ended later
  split
  next active => exact Or.inl ⟨rfl, fun _ _ _ => List.any_eq_true.mp active⟩
  next idle =>
    cases known : registry.flowRegistry.flows.get? requested.flowId with
    | none =>
      have isFlow : flow = requested := by
        have found : registry.flowRegistry.getTaskFlowById requested.flowId = none := known
        simp [flow, flowId, found]
      split
      · exact Or.inl ⟨rfl, by simp⟩
      · refine Or.inl ⟨?_, by simp⟩
        simp only [later, ended, isFlow, updateFlowRecordByIdExpectedRevision, known]
    | some current =>
      have isFlow : flow = current := by
        have found : registry.flowRegistry.getTaskFlowById requested.flowId = some current := known
        simp [flow, flowId, found]
      split
      next isEnded =>
        refine Or.inl ⟨rfl, fun other isOther notEnded => ?_⟩
        cases isOther
        rw [isFlow, notEnded] at isEnded
        simp at isEnded
      next notEnded =>
        obtain ⟨next, -, sameMode, sameMark, isCancelled, written, stillFormed⟩ :=
          endFlow_eq formed host.flowStore now now known
        have sameId : current.flowId = requested.flowId := formed.keyed _ _ known
        refine Or.inr ⟨current, next, ended.2, rfl, ?_, sameMode, sameMark,
          isCancelled, ?_, ?_, rfl⟩
        · rw [isFlow] at notEnded
          simpa using notEnded
        · simp only [ended, isFlow, sameId]
          exact written
        · simp only [ended, isFlow, sameId]
          exact stillFormed

section

variable (sound : KeepsCancellations registry)
include sound

theorem keepsCancellations_endFlowCancel (now : ℚ) (requested : TaskFlowRecord) :
    KeepsCancellations (registry.endFlowCancel host now requested).2 ∧
      StaysCancelled registry (registry.endFlowCancel host now requested).2 := by
  rcases endFlowCancel_cases host sound.formed now requested with
    ⟨same, -⟩ |
      ⟨flow, next, flowRegistry, known, notEnded, sameMode, sameMark,
        isCancelled, written, formed, ended⟩
  · rw [same]
    exact ⟨sound, .refl registry⟩
  · rw [ended]
    apply keepsCancellations_setFlow sound formed
      (fun other => by rw [written, OrderedMap.get?_set])
    · intro other isOther cancelling
      obtain rfl := Option.some.inj (known.symm.trans isOther)
      rw [TaskFlowRecord.IsCancelling, sameMode, sameMark]
      exact ⟨cancelling, fun isEnded => by simp [notEnded] at isEnded⟩
    · intro _
      rw [isCancelled]
      exact Or.inl rfl

theorem keepsCancellations_cancelActiveTasks (now : ℚ) (requested : TaskFlowRecord) :
    KeepsCancellations (registry.cancelActiveTasks host now requested).2 ∧
      StaysCancelled registry (registry.cancelActiveTasks host now requested).2 := by
  unfold cancelActiveTasks
  simp only
  split_ifs
  · exact keepsCancellations_endFlowCancel sound now requested
  · exact ⟨sound, .refl registry⟩

/-- A flow that is marked while none of its tasks is active ends at once. -/
theorem keepsCancellations_endsAtOnce (now : ℚ) {flow : TaskFlowRecord} {writes : ℕ}
    (known : registry.flowRegistry.flows.get? flowId = some flow)
    (unmarked : flow.cancelRequestedAt = none) (notEnded : next.status.isTerminal = false)
    (sameId : next.flowId = flowId) (isTrimmed : JsString.trim flowId = flowId)
    (idle : ¬registry.HasActiveTask flowId) (formed : WellFormed
        { flows := registry.flowRegistry.flows.set next.flowId next, writes }) :
    let marked : Registry :=
      { registry with
        flowRegistry :=
          { flows := registry.flowRegistry.flows.set next.flowId next, writes } }
    KeepsCancellations (marked.cancelActiveTasks host now next).2 ∧
      StaysCancelled registry (marked.cancelActiveTasks host now next).2 := by
  intro marked
  have noneListed : ¬∃ listed ∈ marked.listTasksForFlowId next.flowId,
        listed.status.isActive = true := by
    rintro ⟨listed, member, isActive⟩
    have listsLinked : marked.ListsLinked := sound.listsLinked
    obtain ⟨taskId, isTask, isKey⟩ := linked_of_mem_listTasksForFlowId listsLinked member
    rw [sameId, isTrimmed] at isKey
    exact idle ⟨taskId, listed, isTask, isKey, isActive⟩
  have noneActive : marked.activeTasksForFlowId next.flowId = [] := by
    rw [activeTasksForFlowId, List.filter_eq_nil_iff]
    exact fun listed member isActive => noneListed ⟨listed, member, isActive⟩
  rw [cancelActiveTasks, noneActive]
  simp only [if_true]
  rcases endFlowCancel_cases host (show marked.flowRegistry.WellFormed from formed) now next with
    ⟨-, waits⟩ |
      ⟨before, last, flowRegistry, isBefore, -, sameMode, sameMark,
        isCancelled, written, stillFormed, ended⟩
  · exact (noneListed (waits next (OrderedMap.get?_set_self _ _ _) notEnded)).elim
  · rw [ended]
    apply keepsCancellations_setFlow sound stillFormed
    · intro other
      have isMarked : marked.flowRegistry.flows = registry.flowRegistry.flows.set flowId next :=
        congrArg (registry.flowRegistry.flows.set · next) sameId
      rw [written, isMarked, OrderedMap.get?_set, OrderedMap.get?_set, sameId]
      by_cases isFlow : other = flowId
      · rw [if_pos isFlow, if_pos isFlow]
      · rw [if_neg isFlow, if_neg isFlow, if_neg isFlow]
    · intro other isOther cancelling
      obtain rfl := Option.some.inj (known.symm.trans isOther)
      simp [TaskFlowRecord.IsCancelling, unmarked] at cancelling
    · intro _
      rw [isCancelled]
      exact Or.inl rfl

theorem keepsCancellations_beginFlowCancel (now : ℚ)
    (honours : (FlowStepOperation.beginFlowCancel flowId).HonoursCancel host now registry) :
    KeepsCancellations (registry.beginFlowCancel host now flowId).2 ∧
      StaysCancelled registry (registry.beginFlowCancel host now flowId).2 := by
  unfold beginFlowCancel
  split
  · exact ⟨sound, .refl registry⟩
  next flow known =>
    split
    · exact ⟨sound, .refl registry⟩
    next open_ =>
      split
      · exact keepsCancellations_cancelActiveTasks sound now flow
      next unmarked =>
        have isKnown : registry.flowRegistry.flows.get? flowId = some flow := known
        have notEnded : flow.status.isTerminal = false := by simpa using open_
        have isUnmarked : flow.cancelRequestedAt = none := by
          simpa using unmarked
        let call : FlowCall :=
          { now, flowId := flow.flowId, expectedRevision := flow.revision
            operation := .requestFlowCancel {} }
        have outcome := call.cases host.flowStore registry.flowRegistry
        have performed : performFlowOperation host.flowStore now flow.flowId
                flow.revision (.requestFlowCancel {}) registry.flowRegistry =
              call.perform host.flowStore registry.flowRegistry :=
          rfl
        simp only [performed]
        have sameFlowId : flow.flowId = flowId := sound.formed.keyed _ _ isKnown
        by_cases ready : flow.syncMode = .managed → registry.HasActiveTask flowId
        · -- The mark alone is honoured, and then whatever follows it.
          obtain ⟨kept, stays⟩ :=
            keepsCancellations_flowCall host sound call
              fun current isCurrent _ managed => by
                rw [show call.flowId = flowId from sameFlowId, isKnown] at isCurrent
                cases isCurrent
                exact Or.inr (Or.inr (sameFlowId.symm ▸ ready managed))
          split
          next requested _ =>
            obtain ⟨keptAfter, staysAfter⟩ :=
              keepsCancellations_cancelActiveTasks kept now requested
            exact ⟨keptAfter, stays.trans staysAfter⟩
          · exact ⟨kept, stays⟩
          · exact ⟨kept, stays⟩
        · obtain ⟨managed, idle⟩ := Classical.not_imp.mp ready
          obtain ⟨isTrimmed, stored | active⟩ := honours flow isKnown managed isUnmarked notEnded
          · generalize call.perform host.flowStore registry.flowRegistry = result at outcome
            cases outcome with
            | notFound => exact ⟨sound, .refl registry⟩
            | conflict => exact ⟨sound, .refl registry⟩
            | refused => exact ⟨sound, .refl registry⟩
            | @written current next isCurrent _ _ patched =>
              rw [show call.flowId = flowId from sameFlowId, isKnown] at isCurrent
              cases isCurrent
              simp only [stored, if_true]
              apply keepsCancellations_endsAtOnce sound now isKnown
                isUnmarked (patched.status ▸ notEnded)
                (patched.flowId.trans sameFlowId) isTrimmed idle
              exact wellFormed_set sound.formed isKnown patched (fun _ => rfl) _
          · exact (idle active).elim

end

theorem keepsCancellations_step {action : FlowAction} {target : Registry}
    (taken : HonouringStep host registry action target) (sound : KeepsCancellations registry) :
    KeepsCancellations target ∧ StaysCancelled registry target := by
  rcases action with ⟨now, operation⟩
  obtain ⟨honours, enabled, rfl⟩ := taken
  cases operation with
  | task operation => exact (effects_honouring sound now enabled honours).keepsCancellations sound
  | flow flowId expectedRevision operation =>
    exact keepsCancellations_flowCall host sound
      { now, flowId, expectedRevision, operation } honours
  | createManaged flowId params => exact keepsCancellations_createManaged sound now enabled honours
  | runTask taskId flowId params =>
    exact keepsCancellations_runTask sound now flowId params enabled
  | beginFlowCancel flowId => exact keepsCancellations_beginFlowCancel sound now honours
  | endFlowCancel requested => exact keepsCancellations_endFlowCancel sound now requested

theorem keepsCancellations_of_isStartedSettled (isStarted : IsStartedSettled host registry) :
    KeepsCancellations registry := by
  obtain ⟨store, flows, rfl, settles⟩ := isStarted
  exact ⟨keyed_started store _, wellFormed_restored flows,
    (indexesExact_reload host _).flows.sound, settles⟩

theorem keepsCancellations_of_reachable
    (reachable : Reachable (HonouringStep host) (IsStartedSettled host) registry) :
    KeepsCancellations registry := by
  have initially : ∀ ⦃start⦄, IsStartedSettled host start → KeepsCancellations start :=
    fun _ => keepsCancellations_of_isStartedSettled
  have preserved : Preserves (HonouringStep host) KeepsCancellations :=
    fun _ _ _ taken sound => (keepsCancellations_step taken sound).1
  exact reachable.invariant initially preserved

theorem staysCancelled_of_run {actions : List FlowAction} {finish : Registry}
    (run : Run (HonouringStep host) registry actions finish) (sound : KeepsCancellations registry) :
    KeepsCancellations finish ∧ StaysCancelled registry finish := by
  induction run with
  | refl => exact ⟨sound, .refl registry⟩
  | snoc run last inductionHypothesis =>
    obtain ⟨kept, stays⟩ := inductionHypothesis
    obtain ⟨keptAfter, staysAfter⟩ := keepsCancellations_step last kept
    exact ⟨keptAfter, stays.trans staysAfter⟩

/--
In a run that honours cancellations, a cancelled flow takes no task and keeps
its end, and it has ended wherever it has no active task.
-/
theorem cancellationSticks_of_run
    {actions : List FlowAction} {finish : Registry}
    (reachable : Reachable (HonouringStep host) (IsStartedSettled host) registry)
    (run : Run (HonouringStep host) registry actions finish) :
    StaysCancelled registry finish ∧ finish.CancelsSettle := by
  have sound := keepsCancellations_of_reachable reachable
  obtain ⟨kept, stays⟩ := staysCancelled_of_run run sound
  exact ⟨stays, kept.settles⟩

end Calls

private def beforeFlows : Registry := started .plain TaskStore.empty (restored [])

private def planFlow : FlowAction :=
  ⟨1, .createManaged "flow-1"
    { ownerKey := "agent:main", controllerId := some "planner", goal := "Build" }⟩

private def startStep : FlowAction :=
  ⟨2, .runTask "task-1" "flow-1"
    { runtime := .cli, runId := some "run-1", task := "Compile"
      running := true }⟩

private def cancelPlan : FlowAction := ⟨3, .beginFlowCancel "flow-1"⟩

private def finishStep : FlowAction :=
  ⟨4, .task (.finalize { runId := "run-1" } { status := .succeeded, endedAt := 4 })⟩

private def resumePlan : FlowAction := ⟨5, .flow "flow-1" 2 (.resumeFlow {})⟩

private def FlowAction.after (action : FlowAction) (registry : Registry) : Registry :=
  action.operation.perform .plain action.now registry

private def planStatus (registry : Registry) : Option TaskFlowStatus :=
  (registry.flowRegistry.flows.get? "flow-1").map TaskFlowRecord.status

theorem isStartedSettled_plain : IsStartedSettled .plain beforeFlows := by
  refine ⟨TaskStore.empty, [], rfl, ?_⟩
  intro flowId flow known
  have absent : beforeFlows.flowRegistry.flows.get? flowId = none := rfl
  simp [absent] at known

/-- A cancelled flow that waits for a task ends when the task does. -/
theorem cancellationSticks_of_run_finished :
    ∃ middle finish,
      planStatus middle = some .queued ∧ planStatus finish = some .cancelled ∧
        StaysCancelled middle finish ∧ finish.CancelsSettle := by
  have canPlan : HonouringStep .plain beforeFlows planFlow (planFlow.after beforeFlows) :=
    ⟨fun marked => by simp at marked, rfl, rfl⟩
  have canStart : HonouringStep .plain (planFlow.after beforeFlows) startStep
      (startStep.after (planFlow.after beforeFlows)) :=
    ⟨trivial, rfl, rfl⟩
  have canCancel : HonouringStep .plain (startStep.after (planFlow.after beforeFlows)) cancelPlan
      (cancelPlan.after (startStep.after (planFlow.after beforeFlows))) :=
    ⟨fun _ _ _ _ _ => ⟨by decide, Or.inl rfl⟩, trivial, rfl⟩
  have canFinish (source : Registry) :
      HonouringStep .plain source finishStep (finishStep.after source) := by
    refine ⟨fun _ _ failed => ?_, trivial, rfl⟩
    obtain ⟨write, -, -, lost⟩ := failed
    simp [TaskHost.plain] at lost
  have reachable : Reachable (HonouringStep .plain) (IsStartedSettled .plain)
        (cancelPlan.after (startStep.after (planFlow.after beforeFlows))) :=
    ⟨beforeFlows, _, isStartedSettled_plain, ((Run.refl.snoc canPlan).snoc canStart).snoc canCancel⟩
  exact ⟨_, _, by decide +kernel, by decide +kernel,
    cancellationSticks_of_run reachable (Run.refl.snoc (canFinish _))⟩

/-- A controller can resume a flow that was cancelled. -/
theorem not_cancellationSticks :
    ¬∀ (host : TaskHost) (middle finish : Registry) (actions : List FlowAction),
      Reachable (FlowStep host) (IsStartedSettled host) middle →
      Run (FlowStep host) middle actions finish →
      StaysCancelled middle finish ∧ finish.CancelsSettle := by
  intro sticks
  have cancelled : Reachable (FlowStep .plain) (IsStartedSettled .plain)
        (cancelPlan.after (planFlow.after beforeFlows)) :=
    ⟨beforeFlows, [planFlow, cancelPlan], isStartedSettled_plain,
      (Run.refl.snoc ⟨rfl, rfl⟩).snoc ⟨trivial, rfl⟩⟩
  obtain ⟨stays, -⟩ := sticks .plain _
    (resumePlan.after (cancelPlan.after (planFlow.after beforeFlows)))
    [resumePlan] cancelled (Run.refl.snoc ⟨trivial, rfl⟩)
  have ended : ((cancelPlan.after (planFlow.after beforeFlows)).flowRegistry.flows.get?
        "flow-1").any (fun flow => flow.syncMode = .managed && flow.cancelRequestedAt.isSome &&
            flow.status = .cancelled) = true := by
    decide +kernel
  have resumed : planStatus (resumePlan.after (cancelPlan.after (planFlow.after beforeFlows))) =
        some .queued := by
    decide +kernel
  obtain ⟨flow, known, isEnded⟩ := (Option.any_eq_true _ _).mp ended
  obtain ⟨⟨isManaged, isMarked⟩, isCancelled⟩ :
      (flow.syncMode = .managed ∧ flow.cancelRequestedAt.isSome = true) ∧
        flow.status = .cancelled := by
    simpa using isEnded
  obtain ⟨next, isNext, -, keepsEnd⟩ := stays.marked "flow-1" flow known ⟨isManaged, isMarked⟩
  rw [planStatus, isNext, Option.map_some,
    keepsEnd (by rw [isCancelled]; rfl), isCancelled] at resumed
  simp at resumed

end Tasks
