import AieClaw.Execution
import AieClaw.HeartbeatWakeOwed

/-!
# Every request is answered by a call

In an execution in which timers fire, calls of the handler end and the clock
goes on, every request leads to a later call for its target once a handler
stays registered. This needs two things that the module does not ensure: that
no wake is queued over a pending one for another target, and that it does not
happen for ever that a rejected call sends back wakes that were not handed over.
-/

namespace Heartbeat

open WakeState TransitionSystem

variable {Handler : Type}

/-- The requests that an action queues. -/
def queuedBy (state : WakeState Handler) : WakeAction Handler → List HeartbeatWakeRequest
  | .request opts _ => [opts]
  | .settle id (.resolved result) =>
    match state.batches.get? id with
    | some batch => if result.isBusySkip then [batch.current.wakeOpts] else []
    | none => []
  | .settle id .rejected =>
    match state.batches.get? id with
    | some batch => batch.pendingBatch.map PendingWakeReason.wakeOpts
    | none => []
  | _ => []

/-- No wake is queued over a pending one for another target. -/
def KeepsTargets (state : WakeState Handler) (action : WakeAction Handler) : Prop :=
  ∀ params ∈ queuedBy state action, state.HoldsNoOther params.target

/-- A wake for the target waits in a batch under way. -/
def InBatch (target : WakeTarget) (id : ℕ) (state : WakeState Handler) : Prop :=
  ∃ batch, state.batches.get? id = some batch ∧ ∃ wake ∈ batch.remaining, wake.target = target

/-- The step called the handler for the target. -/
def Called (target : WakeTarget) (source final : WakeState Handler) : Prop :=
  ∃ call, final.calls = source.calls ++ [call] ∧ call.wakeOpts.target = target

/-- The number of wakes of a batch that were not handed over. -/
def waiting (id : ℕ) (state : WakeState Handler) : ℕ :=
  ((state.batches.get? id).map fun batch => batch.remaining.length).getD 0

section

variable
  {state : WakeState Handler} {target : WakeTarget} {id : ℕ} {active : Handler}
  {pendingBatch rest : List PendingWakeReason} {delay : ℚ}

@[simp] theorem pendingWakes_handOver :
    (state.handOver id active pendingBatch rest delay).pendingWakes =
      state.pendingWakes := by
  cases rest with
  | nil =>
    obtain ⟨timer, timersMade, finished⟩ := finishBatch_eq state id delay
    rw [handOver, finished]
  | cons wake later => rfl

theorem called_or_inBatch_handOver (waits : ∃ wake ∈ rest, wake.target = target) :
    Called target state (state.handOver id active pendingBatch rest delay) ∨
      InBatch target id (state.handOver id active pendingBatch rest delay) := by
  cases rest with
  | nil => simp at waits
  | cons next later =>
    obtain ⟨wake, member, isFor⟩ := waits
    rcases List.mem_cons.mp member with rfl | inLater
    · exact Or.inl ⟨_, rfl, isFor⟩
    · exact Or.inr ⟨_, OrderedMap.get?_set_self _ _ _, wake, inLater, isFor⟩

theorem get?_batches_handOver_of_ne {other : ℕ} (differs : other ≠ id) :
    (state.handOver id active pendingBatch rest delay).batches.get? other =
      state.batches.get? other := by
  cases rest with
  | nil =>
    obtain ⟨timer, timersMade, finished⟩ := finishBatch_eq state id delay
    rw [handOver, finished]
    exact OrderedMap.get?_delete_of_ne differs
  | cons wake later => exact OrderedMap.get?_set_of_ne differs

@[simp] theorem batches_requeue (state : WakeState Handler) (wakes : List PendingWakeReason) :
    (state.requeue wakes).batches = state.batches := by
  induction wakes generalizing state with
  | nil => rfl
  | cons first rest inductionHypothesis =>
    exact inductionHypothesis (state.queuePendingWakeReason first.wakeOpts)

@[simp] theorem batches_afterCall (wake : PendingWakeReason) (result : HeartbeatRunResult) :
    (state.afterCall wake result).batches = state.batches := by
  unfold afterCall
  split
  · simp
  · rfl

@[simp] theorem calls_afterCall (wake : PendingWakeReason) (result : HeartbeatRunResult) :
    (state.afterCall wake result).calls = state.calls := by
  unfold afterCall
  split
  · simp
  · rfl

theorem WakeState.PendingFor.congr {changed : WakeState Handler}
    (pending : PendingFor target state) (same : changed.pendingWakes = state.pendingWakes) :
    PendingFor target changed := by
  rw [PendingFor, same]
  exact pending

theorem WakeState.PendingFor.nonempty (pending : PendingFor target state) :
    state.pendingWakes.entries ≠ [] := by
  obtain ⟨wake, found, -⟩ := pending
  intro empty
  have member := OrderedMap.get?_eq_some_iff.mp found
  rw [empty] at member
  simp at member

end

variable [DecidableEq Handler] {source final : WakeState Handler}
  {action : WakeAction Handler} {target : WakeTarget}

/-- Between its answers a batch does not change. -/
theorem get?_batches_step {id : ℕ}
    (taken : WakeStep source action final) (made : id < source.batchesMade)
    (notAnswered : ∀ outcome, action ≠ .settle id outcome) :
    final.batches.get? id = source.batches.get? id := by
  cases taken.stepped with
  | elapse duration positive =>
    rfl
  | request opts coalesceMs =>
    simp [requestHeartbeat]
  | setHandler next =>
    rw [(setHeartbeatWakeHandler_frame source next).2.1]
  | dispose generation next =>
    rw [(dispose_frame source generation next).2.1]
  | unregistered => rfl
  | busy timer running => rw [batches_schedule]
  | idle timer active => rw [get?_batches_handOver_of_ne (Nat.ne_of_lt made)]
  | settle other outcome batch found =>
    have differs : id ≠ other := by
      rintro rfl
      exact notAnswered outcome rfl
    cases outcome with
    | resolved result =>
      simp only [settle]
      rw [get?_batches_handOver_of_ne differs, batches_afterCall]
    | rejected =>
      obtain ⟨timer, timersMade, finished⟩ := finishBatch_eq
        ((source.requeue batch.pendingBatch).schedule
          (.finite defaultRetryMs) .retry) other batch.delay
      simp only [settle]
      rw [finished]
      simp only [batches_schedule, batches_requeue]
      exact OrderedMap.get?_delete_of_ne differs

/-- A pending wake stays pending, unless the timer hands its queue over. -/
theorem pendingFor_step (taken : WakeStep source action final) (ordered : QueuesOrdered source)
    (keeps : KeepsTargets source action) (pending : PendingFor target source) :
    PendingFor target final ∨ Called target source final ∨ ∃ id, InBatch target id final := by
  cases taken.stepped with
  | elapse duration positive =>
    exact Or.inl pending
  | request opts coalesceMs =>
    have noOther := keeps opts (by simp [queuedBy])
    exact Or.inl ((pending.queued noOther).congr (by simp [requestHeartbeat]))
  | setHandler next =>
    exact Or.inl (pending.congr (setHeartbeatWakeHandler_frame source next).1)
  | dispose generation next =>
    exact Or.inl (pending.congr (dispose_frame source generation next).1)
  | unregistered => exact Or.inl (pending.congr rfl)
  | busy timer running => exact Or.inl (pending.congr (by simp))
  | idle timer active =>
    obtain ⟨wake, found, isFor⟩ := pending
    have waits : ∃ wake ∈ source.pendingWakes.values, wake.target = target :=
      ⟨wake, OrderedMap.mem_values_of_get? found, isFor⟩
    rcases called_or_inBatch_handOver waits with called | inBatch
    · exact Or.inr (Or.inl called)
    · exact Or.inr (Or.inr ⟨_, inBatch⟩)
  | settle id outcome batch found =>
    left
    cases outcome with
    | resolved result =>
      have kept : PendingFor target (source.afterCall batch.current result) := by
        unfold afterCall
        split
        · rename_i busy
          have noOther := keeps batch.current.wakeOpts (by simp [queuedBy, found, busy])
          exact (pending.queued noOther).congr (by simp)
        · exact pending
      exact kept.congr pendingWakes_handOver
    | rejected =>
      obtain ⟨wakes, -⟩ := ordered.ordered id batch found
      have noOther : ∀ wake ∈ batch.pendingBatch, source.HoldsNoOther wake.target := by
        intro wake member
        exact keeps wake.wakeOpts (by simpa [queuedBy, found] using ⟨wake, member, rfl⟩)
      have kept := pendingFor_requeue wakes.distinct noOther (Or.inl pending)
      obtain ⟨timer, timersMade, finished⟩ := finishBatch_eq
        ((source.requeue batch.pendingBatch).schedule
          (.finite defaultRetryMs) .retry) id batch.delay
      exact kept.congr (by simp [settle, finished])

omit [DecidableEq Handler] in
/-- An answer leaves a waiting wake of its batch pending, calls for it or keeps it. -/
theorem inBatch_settle {id : ℕ} {batch : WakeBatch Handler}
    {outcome : HandlerOutcome} (ordered : QueuesOrdered source)
    (keeps : KeepsTargets source (.settle id outcome)) (found : source.batches.get? id = some batch)
    (waits : ∃ wake ∈ batch.remaining, wake.target = target) :
    Called target source (source.settle id batch outcome) ∨
      (InBatch target id (source.settle id batch outcome) ∧
        waiting id (source.settle id batch outcome) < batch.remaining.length) ∨
      (outcome = .rejected ∧ PendingFor target (source.settle id batch outcome)) := by
  cases outcome with
  | resolved result =>
    simp only [settle]
    cases later : batch.remaining with
    | nil =>
      rw [later] at waits
      simp at waits
    | cons next rest =>
      rw [later] at waits
      rcases called_or_inBatch_handOver waits with called | inBatch
      · obtain ⟨call, appended, isFor⟩ := called
        rw [calls_afterCall] at appended
        exact Or.inl ⟨call, appended, isFor⟩
      · refine Or.inr (Or.inl ⟨inBatch, ?_⟩)
        rw [waiting, handOver, OrderedMap.get?_set_self]
        exact Nat.lt_succ_self rest.length
  | rejected =>
    obtain ⟨wakes, within⟩ := ordered.ordered id batch found
    obtain ⟨wake, member, isFor⟩ := waits
    have noOther : ∀ wake ∈ batch.pendingBatch, source.HoldsNoOther wake.target := by
      intro wake member
      exact keeps wake.wakeOpts (by simpa [queuedBy, found] using ⟨wake, member, rfl⟩)
    have queued : PendingFor target (source.requeue batch.pendingBatch) := by
      apply pendingFor_requeue wakes.distinct noOther
      refine Or.inr ⟨wake, within member, ?_⟩
      rw [wakes.normal wake (within member), isFor]
    obtain ⟨timer, timersMade, finished⟩ := finishBatch_eq
      ((source.requeue batch.pendingBatch).schedule (.finite defaultRetryMs) .retry) id batch.delay
    exact Or.inr (Or.inr ⟨rfl, queued.congr (by simp [settle, finished])⟩)

/-- A target is owed a call. -/
def Owed (target : WakeTarget) (state : WakeState Handler) : Prop :=
  PendingFor target state ∨ ∃ id, InBatch target id state

theorem owed_step (taken : WakeStep source action final) (ordered : QueuesOrdered source)
    (keeps : KeepsTargets source action) (owed : Owed target source) :
    Owed target final ∨ Called target source final := by
  rcases owed with pending | ⟨id, batch, found, waits⟩
  · rcases pendingFor_step taken ordered keeps pending with still | called | inBatch
    · exact Or.inl (Or.inl still)
    · exact Or.inr called
    · exact Or.inl (Or.inr inBatch)
  · by_cases answered : ∃ outcome, action = .settle id outcome
    · obtain ⟨outcome, rfl⟩ := answered
      simp only [WakeStep, wakeStep?, found, Option.map_some, Option.some.injEq] at taken
      subst taken
      rcases inBatch_settle ordered keeps found waits with called | ⟨inBatch, -⟩ | ⟨-, pending⟩
      · exact Or.inr called
      · exact Or.inl (Or.inr ⟨id, inBatch⟩)
      · exact Or.inl (Or.inl pending)
    · have kept := get?_batches_step taken (ordered.fresh id batch found)
        fun outcome same => answered ⟨outcome, same⟩
      exact Or.inl (Or.inr ⟨id, batch, kept.trans found, waits⟩)

end Heartbeat
