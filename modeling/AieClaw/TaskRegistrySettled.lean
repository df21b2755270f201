import AieClaw.TaskRegistryChanges

/-!
# Settled statuses

A task that ended keeps its status, but for a run that is finalized after it
succeeded. The rule stands at each caller of the update, so it is followed
through the loops over the tasks of a run: what a loop read before its first
turn is either still the status of a task or was replaced by what the loop
writes.
-/

namespace Tasks

open TransitionSystem Registry

def Registry.statusOf (registry : Registry) (taskId : String) : Option TaskStatus :=
  (registry.tasks.get? taskId).map TaskRecord.status

section

variable (finals : FinalStatus → Prop)

def MayReplace (status next : TaskStatus) : Prop :=
  next = status ∨ (status = .succeeded ∧ ∃ last, finals last ∧ last.toStatus = next)

/-- What keeps to the rule for terminal statuses. -/
def settling : Allowed where
  update registry taskId patch :=
    ∀ next, patch.status = some next →
      ∀ status, registry.statusOf taskId = some status →
        status.isTerminal = true → MayReplace finals status next
  place _ _ _ := True
  delete _ _ := False
  reload _ := False

/-- What keeps every status. -/
def statusKeeping : Allowed where
  update _ _ patch := patch.status = none
  place _ _ _ := False
  delete _ _ := False
  reload _ := False

/-- Every terminal status is kept or replaced by the rule. -/
def KeepsSettled (before after : Registry) : Prop :=
  ∀ taskId status, before.statusOf taskId = some status →
    status.isTerminal = true →
    ∃ next, after.statusOf taskId = some next ∧ MayReplace finals status next

theorem careful_settling : (settling finals).Careful := by
  intro registry taskId patch keepsStatus _ next changed
  simp [keepsStatus] at changed

end

theorem careful_statusKeeping : statusKeeping.Careful := fun _ _ _ keepsStatus _ => keepsStatus

section Statuses

variable {host : TaskHost} {finals : FinalStatus → Prop} {registry later : Registry}
  {status next : TaskStatus}

theorem isTerminal_toStatus (last : FinalStatus) : last.toStatus.isTerminal = true := by
  cases last <;> rfl

theorem isTerminal_of_mayReplace
    (isTerminal : status.isTerminal = true) (may : MayReplace finals status next) :
    next.isTerminal = true := by
  rcases may with rfl | ⟨-, last, -, rfl⟩
  · exact isTerminal
  · exact isTerminal_toStatus last

theorem MayReplace.trans {last : TaskStatus}
    (first : MayReplace finals status next) (second : MayReplace finals next last) :
    MayReplace finals status last := by
  rcases second with rfl | ⟨rfl, final⟩
  · exact first
  · rcases first with rfl | ⟨succeeded, -⟩
    · exact Or.inr ⟨rfl, final⟩
    · exact Or.inr ⟨succeeded, final⟩

theorem MayReplace.mono {more : FinalStatus → Prop}
    (may : MayReplace finals status next) (isMore : ∀ last, finals last → more last) :
    MayReplace more status next := by
  rcases may with same | ⟨succeeded, last, isFinal, final⟩
  · exact Or.inl same
  · exact Or.inr ⟨succeeded, last, isMore last isFinal, final⟩

theorem KeepsSettled.refl : KeepsSettled finals registry registry :=
  fun _ status known _ => ⟨status, known, Or.inl rfl⟩

theorem KeepsSettled.trans {last : Registry} (first : KeepsSettled finals registry later)
    (second : KeepsSettled finals later last) : KeepsSettled finals registry last := by
  intro taskId status known isTerminal
  obtain ⟨next, knownNext, may⟩ := first taskId status known isTerminal
  obtain ⟨final, knownFinal, mayAfter⟩ :=
    second taskId next knownNext (isTerminal_of_mayReplace isTerminal may)
  exact ⟨final, knownFinal, may.trans mayAfter⟩

theorem KeepsSettled.mono {more : FinalStatus → Prop} (keeps : KeepsSettled finals registry later)
    (isMore : ∀ last, finals last → more last) : KeepsSettled more registry later := by
  intro taskId status known isTerminal
  obtain ⟨next, knownNext, may⟩ := keeps taskId status known isTerminal
  exact ⟨next, knownNext, may.mono isMore⟩

theorem statusOf_updateTask (now : ℚ) (taskId other : String) (patch : TaskPatch) :
    (registry.updateTask host now taskId patch).2.statusOf other =
      if other = taskId then (registry.statusOf taskId).map (patch.status.getD ·)
      else
        registry.statusOf other := by
  cases known : registry.tasks.get? taskId with
  | none =>
    rw [updateTask_of_none known]
    split_ifs with same
    · simp [statusOf, same, known]
    · rfl
  | some current =>
    rw [statusOf, tasks_updateTask known, OrderedMap.get?_set]
    split_ifs
    · simp [statusOf, known]
    · rfl

theorem statusOf_of_effects (effects : Effects host statusKeeping registry later)
    (taskId : String) : later.statusOf taskId = registry.statusOf taskId := by
  induction effects with
  | refl => rfl
  | @tail middle last _ effect inductionHypothesis =>
    rw [← inductionHypothesis, statusOf, statusOf]
    have change := effect.tasksChange
    generalize last.tasks = tasks at change
    cases change with
    | kept => rfl
    | updated now patch known keepsStatus =>
      rw [OrderedMap.get?_set]
      split_ifs with same
      · simp [same, known, show patch.status = none from keepsStatus]
      · rfl
    | placed isNew isNormal isAllowed => exact isAllowed.elim
    | deleted gone isAllowed => exact isAllowed.elim
    | reloaded isAllowed => exact isAllowed.elim

/-- Changes by the rule keep what is settled. -/
theorem keepsSettled_of_effects (effects : Effects host (settling finals) registry later) :
    KeepsSettled finals registry later := by
  induction effects with
  | refl => exact .refl
  | @tail middle last _ effect inductionHypothesis =>
    refine inductionHypothesis.trans ?_
    intro taskId status known isTerminal
    have change := effect.tasksChange
    unfold statusOf at known ⊢
    generalize last.tasks = tasks at change
    cases change with
    | kept => exact ⟨status, known, Or.inl rfl⟩
    | @updated now updatedId current patch before isAllowed =>
      rw [OrderedMap.get?_set]
      split_ifs with same
      · subst same
        cases changed : patch.status with
        | none =>
          refine ⟨status, ?_, Or.inl rfl⟩
          simpa [changed, before] using known
        | some next =>
          refine ⟨next, by simp [changed], ?_⟩
          exact isAllowed next changed status known isTerminal
      · exact ⟨status, known, Or.inl rfl⟩
    | @placed record _ isNew isNormal isAllowed =>
      refine ⟨status, ?_, Or.inl rfl⟩
      rw [OrderedMap.get?_set]
      split_ifs with same
      · simp [same, isNew] at known
      · exact known
    | deleted gone isAllowed => exact isAllowed.elim
    | reloaded isAllowed => exact isAllowed.elim

theorem statusOf_updateAndTell (now : ℚ) (taskId other : String) (patch : TaskPatch)
    (event : Option TaskEventRecord) :
    (registry.updateAndTell host now taskId patch event).2.statusOf other =
      if other = taskId then (registry.statusOf taskId).map (patch.status.getD ·)
      else
        registry.statusOf other := by
  rw [← statusOf_updateTask]
  have told : Changes host statusKeeping (registry.updateTask host now taskId patch).2
      (registry.updateAndTell host now taskId patch event).2 :=
    changes_tellAfterUpdate (careful_statusKeeping.marks _) now taskId patch event
  exact statusOf_of_effects (told.effects (careful_statusKeeping.marks _)) other

/--
A loop whose turns write one status, where the status that the loop read allows
it. The status of a task is what the loop read, or what it writes.
-/
theorem changes_statusLoop {perform : TaskRecord → Registry → TaskResult (Option TaskRecord)}
    {tasks : List TaskRecord} (written : Option TaskStatus)
    (turn : ∀ task registry, perform task registry = (.ok none, registry) ∨
        ∃ now patch event, patch.status = written ∧
            (∀ next, written = some next → task.status.isTerminal = true →
              MayReplace finals task.status next) ∧
            perform task registry = registry.updateAndTell host now task.taskId patch event)
    (known : ∀ task ∈ tasks, registry.statusOf task.taskId = some task.status) :
    Changes host (settling finals) registry (forEachTask perform tasks registry).2 := by
  let reads (registry : Registry) : Prop :=
    ∀ task ∈ tasks, ∃ status,
      registry.statusOf task.taskId = some status ∧ (status = task.status ∨ written = some status)
  apply changes_forEachTask reads
  · intro task member registry reading
    rcases turn task registry with skipped | ⟨now, patch, event, isWritten, may, performed⟩
    · rw [skipped]
      exact ⟨.refl, reading⟩
    · rw [performed]
      constructor
      · apply changes_updateAndTell ((careful_settling finals).marks _)
        intro next changed status isStatus isTerminal
        rw [isWritten] at changed
        obtain ⟨read, isRead, readOrWritten⟩ := reading task member
        obtain rfl : read = status := Option.some.inj (isRead.symm.trans isStatus)
        rcases readOrWritten with rfl | alreadyWritten
        · exact may next changed isTerminal
        · exact Or.inl (Option.some.inj (changed.symm.trans alreadyWritten))
      · intro other inTasks
        obtain ⟨status, isStatus, readOrWritten⟩ := reading other inTasks
        rw [statusOf_updateAndTell]
        split_ifs with same
        · rw [← same, isStatus, isWritten]
          cases written with
          | none => exact ⟨status, rfl, readOrWritten⟩
          | some next => exact ⟨next, rfl, Or.inr rfl⟩
        · exact ⟨status, isStatus, readOrWritten⟩
  · intro task member
    exact ⟨task.status, known task member, Or.inl rfl⟩

theorem statusOf_of_mem_getTasksByRunScope (keyed : registry.Keyed) (scope : RunScope) :
    ∀ task ∈ registry.getTasksByRunScope scope,
      registry.statusOf task.taskId = some task.status := by
  intro task listed
  rw [statusOf, known_of_mem_getTasksByRunScope keyed listed]
  rfl

theorem mayReplace_of_applies (applies : shouldApplyRunScopedStatusUpdate status next = true)
    (isTerminal : status.isTerminal = true)
    (isFinal : next.isTerminal = true → ∃ last, finals last ∧ last.toStatus = next) :
    MayReplace finals status next := by
  unfold shouldApplyRunScopedStatusUpdate at applies
  split_ifs at applies with same active ends
  · exact Or.inl same.symm
  · simp [isTerminal] at active
  · simp only [Bool.and_eq_true, decide_eq_true_eq] at applies
    exact Or.inr ⟨applies.1, isFinal (by simpa using ends)⟩

theorem changes_updateByRun (keyed : registry.Keyed) (now : ℚ) (scope : RunScope)
    (update : RunUpdate) (isFinal : ∀ next, update.status = some next → next.isTerminal = true →
        ∃ last, finals last ∧ last.toStatus = next) : Changes host (settling finals) registry
      (registry.updateTaskStateByRunId host now scope update).2 := by
  apply changes_statusLoop update.status _ (statusOf_of_mem_getTasksByRunScope keyed scope)
  intro task registry
  split_ifs with applies
  · refine Or.inr ⟨now, _, _, rfl, ?_, rfl⟩
    intro next written isTerminal
    apply mayReplace_of_applies _ isTerminal (isFinal next written)
    simpa [RunUpdate.applies, RunUpdate.nextStatus, written] using applies
  · exact Or.inl rfl

theorem changes_agentEvent (keyed : registry.Keyed) (now : ℚ) (event : AgentEvent) :
    Changes host (settling finals) registry (registry.handleAgentEvent host now event).2 := by
  apply changes_statusLoop event.status _ (statusOf_of_mem_getTasksByRunScope keyed _)
  intro task registry
  split_ifs with ended
  · exact Or.inl rfl
  · refine Or.inr ⟨now, _, _, rfl, ?_, rfl⟩
    intro next written isTerminal
    exact (ended isTerminal).elim

end Statuses

def TaskOperation.FollowsRule : TaskOperation → Prop
  | .updateById _ (.terminal ..) => False
  | .updateById _ (.lost ..) => False
  | .delete _ => False
  | .reload => False
  | _ => True

/-- The task of a session that was stopped has not ended while it was waited for. -/
def Registry.CancelsActive (registry : Registry) : TaskOperation → Prop
  | .settleCancel pending .stopped =>
    ∀ status ∈ registry.statusOf pending.task.taskId, status.isTerminal = false
  | _ => True

instance (operation : TaskOperation) : Decidable operation.FollowsRule := by
  unfold TaskOperation.FollowsRule
  split <;> infer_instance

instance (registry : Registry) (operation : TaskOperation) :
    Decidable (registry.CancelsActive operation) := by
  unfold Registry.CancelsActive
  split <;> infer_instance

/-- The status that an operation finalizes the tasks of a run with. -/
def TaskOperation.Finalizes (operation : TaskOperation) (last : FinalStatus) : Prop :=
  ∃ scope params, operation = .finalize scope params ∧ params.status = last

variable {host : TaskHost} {registry : Registry}

/-- An operation that follows the rule, and cancels what is active, keeps to it. -/
theorem effects_settling_perform (keyed : registry.Keyed) (now : ℚ) {operation : TaskOperation}
    (enabled : operation.Enabled registry) (follows : operation.FollowsRule)
    (cancels : registry.CancelsActive operation) :
    Effects host (settling operation.Finalizes) registry
      (operation.perform host now registry).2 := by
  have careful := careful_settling operation.Finalizes
  have told := careful.marks (· ≠ .delivered)
  cases operation with
  | recordProgress | setDeliveryStatus | linkToFlow | deliver | settleDelivery
  | settleStateChange => exact effects_of_keepsStatus careful now trivial
  | markRunning scope params =>
    rw [TaskOperation.perform, thrown_snd]
    refine (changes_updateByRun keyed now scope _ ?_).effects told
    intro next written isTerminal
    cases written
    simp [TaskStatus.isTerminal] at isTerminal
  | finalize scope params =>
    rw [TaskOperation.perform, thrown_snd]
    refine (changes_updateByRun keyed now scope _ ?_).effects told
    intro next written _
    exact ⟨params.status, ⟨scope, params, rfl, rfl⟩, Option.some.inj written⟩
  | agentEvent event =>
    rw [TaskOperation.perform, thrown_snd]
    exact (changes_agentEvent keyed now event).effects told
  | updateById taskId update =>
    cases update with
    | terminal | lost => exact follows.elim
    | progress | timing | cleanupAfter | notifyPolicy =>
      exact effects_of_keepsStatus careful now trivial
  | create taskId params =>
    rw [TaskOperation.perform, thrown_snd]
    exact (changes_createTaskRecord keyed now taskId params enabled (fun _ _ => trivial)
      fun existing _ => careful.merges host registry params existing).effects told
  | delete | reload => exact follows.elim
  | cancel taskId reason =>
    refine (changes_cancelTaskById now taskId reason ?_).effects told
    intro task known active _ next _ status isStatus isTerminal
    rw [← keyed _ _ known] at known
    obtain rfl : task.status = status := by simpa [statusOf, known] using isStatus
    simp [active] at isTerminal
  | settleCancel pending answer =>
    refine (changes_settleCancel now pending answer ?_).effects told
    rintro rfl later same next _ status isStatus isTerminal
    have active := cancels status (by rwa [statusOf, ← same.tasks])
    simp [active] at isTerminal

theorem statusOf_markCancelled (now : ℚ) (task : TaskRecord) (reason : Option String) :
    (registry.markCancelled host now task reason).2.statusOf task.taskId =
      (registry.statusOf task.taskId).map fun _ => .cancelled := by
  have told : Changes host statusKeeping
      (registry.updateTask host now task.taskId (cancelPatch now reason)).2
      (registry.markCancelled host now task reason).2 :=
    changes_tellAfterCancel now task reason
  rw [statusOf_of_effects (told.effects (careful_statusKeeping.marks _)),
    statusOf_updateTask, if_pos rfl]
  rfl

theorem statusOf_settleCancel_stopped (now : ℚ) (pending : PendingCancel) :
    (registry.settleCancel host now pending .stopped).2.statusOf pending.task.taskId =
      (registry.statusOf pending.task.taskId).map fun _ => .cancelled :=
  statusOf_markCancelled now pending.task pending.reason

def SettlingStep (host : TaskHost) : StepRelation Registry TaskAction :=
  Restricted (TaskStep host) fun source action =>
    action.operation.FollowsRule ∧ source.CancelsActive action.operation

theorem keepsSettled_of_run {start finish : Registry}
    {actions : List TaskAction} (run : Run (SettlingStep host) start actions finish)
    (keyed : start.Keyed) : KeepsSettled
      (fun last => ∃ action ∈ actions, action.operation.Finalizes last)
      start finish := by
  induction run with
  | refl => exact .refl
  | @snoc middle finish actions action run last inductionHypothesis =>
    have preserved : Preserves (SettlingStep host) Registry.Keyed :=
      fun _ _ _ taken => keyed_step taken.2
    obtain ⟨⟨follows, cancels⟩, enabled, rfl⟩ := last
    have effects : Effects host (settling action.operation.Finalizes) middle
        (action.operation.perform host action.now middle).2 :=
      effects_settling_perform (run.invariant preserved keyed) action.now enabled follows cancels
    have step := keepsSettled_of_effects effects
    refine (inductionHypothesis.mono ?_).trans (step.mono ?_)
    · rintro final ⟨earlier, member, finalizes⟩
      exact ⟨earlier, List.mem_append_left _ member, finalizes⟩
    · intro final finalizes
      exact ⟨action, by simp, finalizes⟩

/--
In every run by the rule in which a stopped session belongs to a task that is
still active, a terminal status is kept, but for a succeeded task whose run is
finalized again; and a cancellation that is reported was of an active task.
-/
theorem settled_of_run {host : TaskHost} {middle finish : Registry}
    {actions : List TaskAction} (reachable : Reachable (SettlingStep host) (IsStarted host) middle)
    (run : Run (SettlingStep host) middle actions finish) :
    KeepsSettled
        (fun last => ∃ action ∈ actions, action.operation.Finalizes last)
        middle finish ∧
      ∀ action pending answer target task,
        action.operation = .settleCancel pending answer →
        SettlingStep host finish action target →
        (finish.settleCancel host action.now pending answer).1 = .cancelled task →
        ∀ status, finish.statusOf pending.task.taskId = some status →
          status.isTerminal = false ∧ target.statusOf pending.task.taskId = some .cancelled := by
  have keyed : middle.Keyed := by
    obtain ⟨start, earlier, isStart, run⟩ := reachable
    exact keyed_of_reachable ⟨start, earlier, isStart, run.of_restricted⟩
  refine ⟨keepsSettled_of_run run keyed, ?_⟩
  intro action pending answer target task isCancel taken reported status known
  obtain ⟨⟨-, active⟩, -, rfl⟩ := taken
  rw [isCancel] at active ⊢
  cases answer with
  | stopped =>
    refine ⟨active status known, ?_⟩
    rw [TaskOperation.perform, statusOf_settleCancel_stopped, known]
    rfl
  | notRunning => simp [settleCancel] at reported
  | notFound => simp [settleCancel] at reported
  | failed message => simp [settleCancel] at reported

/-- A running task in a session of its own. -/
private def ownSession : CreateTaskParams where
  runtime := .acp
  ownerKey := some "agent:main"
  childSessionKey := some "agent:main:acp:1"
  runId := some "run-1"
  task := "Build"
  status := some .running
  notifyPolicy := some .silent

private def coldStart : Registry := started .plain TaskStore.empty FlowRegistry.empty

/-- The cancellation that waits for the session of the task. -/
private def waitingCancel : PendingCancel where
  task := ownSession.newRecord .plain 1 "task-1"
  childSessionKey := "agent:main:acp:1"
  reason := none

private def askToCancel : List TaskAction :=
  [⟨1, .create "task-1" ownSession⟩, ⟨2, .cancel "task-1" none⟩]

private def succeed : TaskAction :=
  ⟨3, .finalize { runId := "run-1" } { status := .succeeded, endedAt := 3 }⟩

private def stop : TaskAction := ⟨4, .settleCancel waitingCancel .stopped⟩

/-- Another task, of a run that succeeds and is reported as failed later. -/
private def succeedOther : List TaskAction :=
  [⟨2, .create "task-2"
      { ownSession with runId := some "run-2", childSessionKey := some "agent:main:acp:2" }⟩,
    ⟨3, .finalize { runId := "run-2" } { status := .succeeded, endedAt := 3 }⟩]

private def failLate : TaskAction :=
  ⟨5, .finalize { runId := "run-2" } { status := .failed, endedAt := 5 }⟩

/-- A task that still runs when its session was stopped is cancelled; a reported failure replaces
a success. -/
theorem settled_of_run_stopped :
    ∃ middle finish,
      (middle.statusOf "task-1", middle.statusOf "task-2") = (some .running, some .succeeded) ∧
        (finish.statusOf "task-1", finish.statusOf "task-2") =
          (some .cancelled, some .failed) ∧
        KeepsSettled
          (fun last => ∃ action ∈ [stop, failLate], action.operation.Finalizes last)
          middle finish := by
  let allows (source : Registry) (action : TaskAction) : Bool :=
    decide (action.operation.FollowsRule ∧ source.CancelsActive action.operation)
  have executed : ((execute .plain allows (askToCancel ++ succeedOther) coldStart).bind
          fun middle => (execute .plain allows [stop, failLate] middle).map fun finish =>
            ((middle.statusOf "task-1", middle.statusOf "task-2"),
              (finish.statusOf "task-1", finish.statusOf "task-2"))) =
        some ((some .running, some .succeeded), (some .cancelled, some .failed)) := by
    decide +kernel
  obtain ⟨middle, asked, later⟩ := Option.bind_eq_some_iff.mp executed
  obtain ⟨finish, stopped, statuses⟩ := Option.map_eq_some_iff.mp later
  obtain ⟨running, cancelled⟩ := Prod.mk.inj statuses
  have reachable : Reachable (SettlingStep .plain) (IsStarted .plain) middle :=
    ⟨coldStart, _, ⟨_, _, rfl⟩, run_of_execute_decide asked⟩
  have run : Run (SettlingStep .plain) middle [stop, failLate] finish :=
    run_of_execute_decide stopped
  exact ⟨middle, finish, running, cancelled, (settled_of_run reachable run).1⟩

/--
A task that succeeds while its session is being stopped is marked as cancelled
when the session has stopped.
-/
theorem not_settled :
    ¬∀ (host : TaskHost) (middle finish : Registry) (actions : List TaskAction),
      Reachable
          (Restricted (TaskStep host) fun _ action => action.operation.FollowsRule)
          (IsStarted host) middle →
      Run
          (Restricted (TaskStep host) fun _ action => action.operation.FollowsRule)
          middle actions finish →
      KeepsSettled
        (fun last => ∃ action ∈ actions, action.operation.Finalizes last)
        middle finish := by
  intro settled
  let allows (_ : Registry) (action : TaskAction) : Bool := decide action.operation.FollowsRule
  have executed : ((execute .plain allows (askToCancel ++ [succeed]) coldStart).bind fun middle =>
          (execute .plain allows [stop] middle).map fun finish =>
            (middle.statusOf "task-1", finish.statusOf "task-1")) =
        some (some .succeeded, some .cancelled) := by
    decide +kernel
  obtain ⟨middle, finalized, later⟩ := Option.bind_eq_some_iff.mp executed
  obtain ⟨finish, stopped, statuses⟩ := Option.map_eq_some_iff.mp later
  obtain ⟨succeeded, cancelled⟩ := Prod.mk.inj statuses
  obtain ⟨next, isNext, may⟩ := settled .plain middle finish [stop]
    ⟨coldStart, askToCancel ++ [succeed], ⟨_, _, rfl⟩, run_of_execute_decide finalized⟩
    (run_of_execute_decide stopped) "task-1" .succeeded succeeded rfl
  obtain rfl : .cancelled = next := Option.some.inj (cancelled.symm.trans isNext)
  rcases may with same | ⟨-, last, ⟨action, isStop, finalizes⟩, -⟩
  · simp at same
  · rw [List.mem_singleton.mp isStop] at finalizes
    obtain ⟨scope, params, isFinalize, -⟩ := finalizes
    simp [stop] at isFinalize

end Tasks
