import AieClaw.HeartbeatWakeCalled
import Mathlib.Algebra.Order.Archimedean.Basic

/-!
# Fair executions

A timer that stays armed fires: a later request replaces it only by an earlier
one, and once the clock has passed its time no more. A batch that is under way
ends, so that the running flag is cleared, and the next timer after that takes
the pending wakes.
-/

namespace Heartbeat

open WakeState TransitionSystem Option

variable {Handler : Type}

namespace WakeState

/-- The timer stays, or an earlier one takes its place before its time. -/
def TimerKept (source final : WakeState Handler) : Prop :=
  source.now = final.now ∧
    ∀ timer, source.timer = some timer →
      ∃ later, final.timer = some later ∧ later.dueAt ≤ timer.dueAt ∧
        (timer.dueAt ≤ source.now → later = timer)

variable (state : WakeState Handler) (id : ℕ) {source final : WakeState Handler}

theorem TimerKept.refl : TimerKept state state :=
  ⟨rfl, fun timer armed => ⟨timer, armed, le_rfl, fun _ => rfl⟩⟩

theorem TimerKept.trans {middle : WakeState Handler}
    (first : TimerKept source middle) (second : TimerKept middle final) :
    TimerKept source final := by
  obtain ⟨sameNow, keptFirst⟩ := first
  obtain ⟨stillNow, keptSecond⟩ := second
  refine ⟨sameNow.trans stillNow, ?_⟩
  intro timer armed
  obtain ⟨between, armedBetween, notLater, stays⟩ := keptFirst timer armed
  obtain ⟨last, armedLast, lastNotLater, lastStays⟩ := keptSecond between armedBetween
  refine ⟨last, armedLast, lastNotLater.trans notLater, ?_⟩
  intro due
  obtain rfl := stays due
  exact lastStays (sameNow ▸ due)

theorem TimerKept.of_eq (now : final.now = source.now) (timer : final.timer = source.timer) :
    TimerKept source final :=
  ⟨now.symm, fun armed isArmed => ⟨armed, timer.trans isArmed, le_rfl, fun _ => rfl⟩⟩

theorem coalesceDelay_nonneg (coalesceMs : JsNumber) : 0 ≤ coalesceDelay coalesceMs := by
  cases coalesceMs with
  | finite value => exact le_max_left 0 value
  | _ => norm_num [coalesceDelay, defaultCoalesceMs]

theorem timerKept_schedule (coalesceMs : JsNumber) (kind : WakeTimerKind) :
    TimerKept state (state.schedule coalesceMs kind) := by
  refine ⟨(now_schedule state coalesceMs kind).symm, ?_⟩
  intro timer armed
  have nonneg := coalesceDelay_nonneg coalesceMs
  simp only [schedule, armed]
  split
  · exact ⟨timer, armed, le_rfl, fun _ => rfl⟩
  · rename_i replaced
    rw [not_or, not_le] at replaced
    refine ⟨_, rfl, replaced.2.le, ?_⟩
    intro due
    linarith [replaced.2]

theorem timerKept_queuePendingWakeReason (params : HeartbeatWakeRequest) :
    TimerKept state (state.queuePendingWakeReason params) :=
  .of_eq rfl rfl

theorem timerKept_requeue (wakes : List PendingWakeReason) :
    TimerKept state (state.requeue wakes) := by
  induction wakes generalizing state with
  | nil => exact .refl state
  | cons first rest inductionHypothesis =>
    exact (timerKept_queuePendingWakeReason state first.wakeOpts).trans (inductionHypothesis _)

theorem timerKept_finishBatch (delay : ℚ) : TimerKept state (state.finishBatch id delay) := by
  unfold finishBatch
  extract_lets ended
  have kept : TimerKept state ended := .of_eq rfl rfl
  split
  · exact kept.trans (timerKept_schedule ended _ _)
  · exact kept

theorem timerKept_handOver (active : Handler) (pendingBatch rest : List PendingWakeReason)
    (delay : ℚ) : TimerKept state (state.handOver id active pendingBatch rest delay) := by
  cases rest with
  | nil => exact timerKept_finishBatch state id delay
  | cons wake later => exact .of_eq rfl rfl

theorem timerKept_settle (batch : WakeBatch Handler) (outcome : HandlerOutcome) :
    TimerKept state (state.settle id batch outcome) := by
  cases outcome with
  | resolved result =>
    have after : TimerKept state (state.afterCall batch.current result) := by
      unfold afterCall
      split
      · exact (timerKept_queuePendingWakeReason state _).trans (timerKept_schedule _ _ _)
      · exact .refl state
    exact after.trans (timerKept_handOver _ _ _ _ _ _)
  | rejected =>
    exact ((timerKept_requeue state _).trans (timerKept_schedule _ _ _)).trans
      (timerKept_finishBatch _ _ _)

end WakeState

variable [DecidableEq Handler]

/-- The action registers or disposes of a handler. -/
def WakeAction.changesHandler : WakeAction Handler → Bool
  | .setHandler _ => true
  | .dispose _ _ => true
  | _ => false

variable {source final : WakeState Handler} (collides : Bool) {action : WakeAction Handler}

theorem timer_step {timer : WakeTimer}
    (taken : WakeStep source action final) (notFired : action ≠ .fire)
    (sameHandler : action.changesHandler = false) (armed : source.timer = some timer) :
    ∃ later, final.timer = some later ∧ later.dueAt ≤ timer.dueAt ∧
      (timer.dueAt ≤ source.now → later = timer) := by
  cases taken.stepped with
  | elapse duration positive =>
    exact ⟨timer, armed, le_rfl, fun _ => rfl⟩
  | request opts coalesceMs =>
    exact ((timerKept_queuePendingWakeReason source opts).trans
      (timerKept_schedule _ _ _)).2 timer armed
  | setHandler next => cases sameHandler
  | dispose generation next => cases sameHandler
  | unregistered | busy | idle => exact absurd rfl notFired
  | settle id outcome batch found =>
    exact (timerKept_settle source id batch outcome).2 timer armed

omit [DecidableEq Handler] in
theorem now_setHeartbeatWakeHandler (state : WakeState Handler) (next : Option Handler) :
    (state.setHeartbeatWakeHandler next).now = state.now := by
  unfold setHeartbeatWakeHandler
  extract_lets generation registered reset
  have kept : reset.now = state.now := by
    simp only [reset]
    split
    · rfl
    · rfl
  split
  · rw [now_schedule, kept]
  · exact kept

section

variable (taken : WakeStep source action final)
include taken

theorem now_step : source.now ≤ final.now := by
  cases taken.stepped with
  | elapse duration positive =>
    exact le_add_of_nonneg_right positive.le
  | request opts coalesceMs =>
    simp [requestHeartbeat]
  | setHandler next =>
    rw [now_setHeartbeatWakeHandler]
  | dispose generation next =>
    unfold dispose
    split
    · rfl
    · rfl
  | unregistered => rfl
  | busy timer running => rw [now_schedule]
  | idle timer active => rw [← (timerKept_handOver _ _ _ _ _ _).1]
  | settle id outcome batch found =>
    exact (timerKept_settle source id batch outcome).1.le

/-- Only registering and disposing change the handler. -/
theorem handler_step
    (sameHandler : action.changesHandler = false) : final.handler = source.handler := by
  have finished : ∀ (state : WakeState Handler) id delay,
      (state.finishBatch id delay).handler = state.handler := by
    intro state id delay
    obtain ⟨timer, timersMade, finished⟩ := finishBatch_eq state id delay
    rw [finished]
  have handedOver : ∀ (state : WakeState Handler) id active pendingBatch rest delay,
      (state.handOver id active pendingBatch rest delay).handler =
        state.handler := by
    intro state id active pendingBatch rest delay
    cases rest with
    | nil => exact finished state id delay
    | cons wake later => rfl
  have requeued : ∀ wakes (state : WakeState Handler),
      (state.requeue wakes).handler = state.handler := by
    intro wakes
    induction wakes with
    | nil => exact fun state => rfl
    | cons first rest inductionHypothesis => exact fun state => inductionHypothesis _
  cases taken.stepped with
  | elapse duration positive =>
    rfl
  | request opts coalesceMs =>
    simp [requestHeartbeat]
  | setHandler next => cases sameHandler
  | dispose generation next => cases sameHandler
  | unregistered => rfl
  | busy timer running => rw [handler_schedule]
  | idle timer active => rw [handedOver]
  | settle id outcome batch found =>
    cases outcome with
    | resolved result =>
      simp only [settle, handedOver, afterCall]
      split
      · simp
      · rfl
    | rejected => simp only [settle, finished, handler_schedule, requeued]

/-- Only the timer sets the running flag. -/
theorem running_step
    (notFired : action ≠ .fire) (idle : source.running = false) : final.running = false := by
  cases taken.stepped with
  | elapse duration positive =>
    exact idle
  | request opts coalesceMs =>
    simpa [requestHeartbeat] using idle
  | setHandler next =>
    by_contra busy
    have running := (setHeartbeatWakeHandler_frame source next).2.2.2.2 (Bool.not_eq_false _ ▸ busy)
    rw [idle] at running
    cases running
  | dispose generation next =>
    rw [(dispose_frame source generation next).2.2.2.2, idle]
  | unregistered | busy | idle => exact absurd rfl notFired
  | settle id outcome batch found =>
    cases outcome with
    | resolved result =>
      have after : (source.afterCall batch.current result).running = false := by
        unfold afterCall
        split
        · simpa using idle
        · exact idle
      simp only [settle]
      cases batch.remaining with
      | nil =>
        obtain ⟨timer, timersMade, finished⟩ := finishBatch_eq
          (source.afterCall batch.current result) id batch.delay
        rw [handOver, finished]
      | cons wake later => exact after
    | rejected =>
      obtain ⟨timer, timersMade, finished⟩ := finishBatch_eq
        ((source.requeue batch.pendingBatch).schedule
          (.finite defaultRetryMs) .retry) id batch.delay
      simp only [settle, finished]

end

/-- An execution of the module. -/
abbrev WakeExecution (Handler : Type) [DecidableEq Handler] := Execution (@WakeStep Handler _)

/-- Calls end, timers that stay armed fire, and the clock goes on. -/
structure Fair (execution : WakeExecution Handler) : Prop where
  answers :
    ∀ moment id, (execution.state moment).batches.get? id ≠ none →
      ∃ later ≥ moment, ∃ outcome, execution.action later = .settle id outcome
  timers :
    ∀ moment timer, (execution.state moment).timer = some timer →
      ∃ later > moment, (execution.state later).timer ≠ some timer
  clock : ∀ time, ∃ moment, time < (execution.state moment).now

/-- From some moment on a handler is registered and stays so. -/
def StaysRegistered (execution : WakeExecution Handler) (start : ℕ) : Prop :=
  (execution.state start).handler.isSome ∧
    ∀ moment ≥ start, (execution.action moment).changesHandler = false

/-- From some moment on no rejected call sends back wakes not handed over. -/
def RejectsOnlyLast (execution : WakeExecution Handler) (start : ℕ) : Prop :=
  ∀ moment ≥ start, ∀ id batch,
    execution.action moment = .settle id .rejected →
      (execution.state moment).batches.get? id = some batch → batch.remaining = []

section

variable {execution : WakeExecution Handler} {start : ℕ}

theorem now_mono {moment later : ℕ} (onward : moment ≤ later) :
    (execution.state moment).now ≤ (execution.state later).now := by
  induction later, onward using Nat.le_induction with
  | base => exact le_rfl
  | succ later onward inductionHypothesis =>
    exact inductionHypothesis.trans (now_step (execution.taken later))

theorem StaysRegistered.handler_isSome (stays : StaysRegistered execution start)
    {moment : ℕ} (onward : start ≤ moment) : (execution.state moment).handler.isSome := by
  apply always_of_kept (fun later => (execution.state later).handler.isSome = true)
    stays.1 _ moment onward
  intro later after registered
  rw [handler_step (execution.taken later) (stays.2 later after)]
  exact registered

/-- While a handler stays registered, an armed timer is followed by a firing. -/
theorem fires_of_armed (fair : Fair execution) (stays : StaysRegistered execution start)
    {moment : ℕ} (onward : start ≤ moment) {timer : WakeTimer}
    (armed : (execution.state moment).timer = some timer) :
    ∃ later ≥ moment, execution.action later = .fire := by
  by_contra never
  have notFired : ∀ later ≥ moment, execution.action later ≠ .fire :=
    fun later after fired => never ⟨later, after, fired⟩
  have armedEarly : ∀ later ≥ moment, ∃ armedThen, (execution.state later).timer = some armedThen ∧
        armedThen.dueAt ≤ timer.dueAt := by
    apply always_of_kept (fun later => ∃ armedThen,
        (execution.state later).timer = some armedThen ∧ armedThen.dueAt ≤ timer.dueAt)
      ⟨timer, armed, le_rfl⟩
    rintro later after ⟨armedThen, isArmed, early⟩
    obtain ⟨next, isNext, notLater, -⟩ :=
      timer_step (execution.taken later) (notFired later after)
        (stays.2 later (onward.trans after)) isArmed
    exact ⟨next, isNext, notLater.trans early⟩
  obtain ⟨passed, due⟩ := fair.clock timer.dueAt
  obtain ⟨last, isLast, early⟩ := armedEarly (max moment passed) (le_max_left moment passed)
  have overdue : last.dueAt ≤ (execution.state (max moment passed)).now :=
    early.trans (due.le.trans (now_mono (le_max_right moment passed)))
  have unchanged : ∀ later ≥ max moment passed, (execution.state later).timer = some last ∧
        last.dueAt ≤ (execution.state later).now := by
    apply always_of_kept (fun later => (execution.state later).timer = some last ∧
        last.dueAt ≤ (execution.state later).now) ⟨isLast, overdue⟩
    rintro later after ⟨isArmed, isDue⟩
    have afterMoment : moment ≤ later := (le_max_left _ _).trans after
    obtain ⟨next, isNext, -, same⟩ :=
      timer_step (execution.taken later) (notFired later afterMoment)
        (stays.2 later (onward.trans afterMoment)) isArmed
    refine ⟨isNext.trans (congrArg some (same isDue)), ?_⟩
    exact isDue.trans (now_step (execution.taken later))
  obtain ⟨later, after, differs⟩ := fair.timers _ last isLast
  exact differs (unchanged later after.le).1

variable (begins : IsLoaded (execution.state 0))
include begins

theorem ordered_at (moment : ℕ) : QueuesOrdered (execution.state moment) := by
  have initially : ∀ ⦃loaded : WakeState Handler⦄, IsLoaded loaded → QueuesOrdered loaded := by
    rintro loaded ⟨now, rfl⟩
    constructor
    · intro key wake found
      cases found
    · intro id batch found
      cases found
    · intro id batch found
      cases found
  exact (execution.reachable begins moment).invariant initially ordered_step

theorem runningHasBatch_at (moment : ℕ) : RunningHasBatch (execution.state moment) := by
  have initially : ∀ ⦃loaded : WakeState Handler⦄, IsLoaded loaded → RunningHasBatch loaded := by
    rintro loaded ⟨now, rfl⟩ running
    cases running
  exact (execution.reachable begins moment).invariant initially runningHasBatch_step

section

variable (fair : Fair execution)
include fair

theorem answered_of_batch {moment id : ℕ} {batch : WakeBatch Handler}
    (found : (execution.state moment).batches.get? id = some batch) : ∃ later ≥ moment, ∃ outcome,
      execution.action later = .settle id outcome ∧
        (execution.state later).batches.get? id = some batch ∧
        execution.state (later + 1) = (execution.state later).settle id batch outcome := by
  obtain ⟨answer, after, outcome, answered⟩ :=
    fair.answers moment id (by rw [found]; exact some_ne_none batch)
  have kept : ∀ later ≥ moment, (execution.state later).batches.get? id = some batch →
        (execution.state (later + 1)).batches.get? id = some batch ∨
          ∃ outcome, execution.action later = .settle id outcome := by
    intro later _ isBatch
    by_cases answeredThen : ∃ outcome, execution.action later = .settle id outcome
    · exact Or.inr answeredThen
    · left
      rw [get?_batches_step (execution.taken later)
        ((ordered_at begins later).fresh id batch isBatch)
        fun outcome same => answeredThen ⟨outcome, same⟩, isBatch]
  obtain ⟨later, onward, -, isBatch, own, isAnswer⟩ :=
    holds_until found kept after ⟨outcome, answered⟩
  have taken := execution.taken later
  rw [isAnswer] at taken
  simp only [WakeStep, wakeStep?, isBatch, map_some, Option.some.injEq] at taken
  exact ⟨later, onward, own, isAnswer, isBatch, taken.symm⟩

/-- Every batch ends, and its end clears the running flag. -/
theorem idle_of_batch {moment id : ℕ} (found : (execution.state moment).batches.get? id ≠ none) :
    ∃ later ≥ moment, (execution.state (later + 1)).running = false := by
  apply eventually_of_rank (fun moment => (execution.state moment).batches.get? id ≠ none)
    (fun moment => (execution.state (moment + 1)).running = false)
    (fun moment => waiting id (execution.state moment)) 0 ?_ moment (Nat.zero_le moment) found
  intro moment _ present
  obtain ⟨batch, isBatch⟩ := ne_none_iff_exists'.mp present
  obtain ⟨later, onward, outcome, -, isBatchThen, settled⟩ := answered_of_batch begins fair isBatch
  have ended : ∀ (state : WakeState Handler) delay,
      (state.finishBatch id delay).running = false := by
    intro state delay
    obtain ⟨timer, timersMade, finished⟩ := finishBatch_eq state id delay
    rw [finished]
  cases outcome with
  | rejected =>
    refine ⟨later, onward, Or.inl ?_⟩
    rw [settled]
    exact ended _ _
  | resolved result =>
    cases remaining : batch.remaining with
    | nil =>
      refine ⟨later, onward, Or.inl ?_⟩
      rw [settled, settle, remaining]
      exact ended _ _
    | cons next rest =>
      have written : (execution.state (later + 1)).batches.get? id = some
            { batch with current := next, remaining := rest } := by
        rw [settled, settle, remaining]
        exact OrderedMap.get?_set_self _ _ _
      refine ⟨later + 1, Nat.le_succ_of_le onward, Or.inr ⟨?_, ?_⟩⟩
      · rw [written]
        exact some_ne_none _
      · rw [waiting, waiting, written, isBatch]
        simp [remaining]

theorem idle_eventually (moment : ℕ) :
    ∃ later ≥ moment, (execution.state later).running = false := by
  by_cases busy : (execution.state moment).running = true
  · obtain ⟨id, batch, found⟩ := runningHasBatch_at begins moment busy
    obtain ⟨later, onward, idle⟩ := idle_of_batch begins fair
      (by rw [found]; exact some_ne_none batch)
    exact ⟨later + 1, Nat.le_succ_of_le onward, idle⟩
  · exact ⟨moment, le_rfl, Bool.not_eq_true _ ▸ busy⟩

/-- A pending wake is handed over or put into a batch. -/
theorem leaves_queue {target : WakeTarget} {moment : ℕ} (stays : StaysRegistered execution start)
    (keeps : ∀ later, KeepsTargets (execution.state later) (execution.action later))
    (onward : start ≤ moment) (pending : PendingFor target (execution.state moment)) :
    ∃ later ≥ moment, Called target (execution.state later) (execution.state (later + 1)) ∨
        ∃ id, InBatch target id (execution.state (later + 1)) := by
  by_contra never
  have still : ∀ later ≥ moment, PendingFor target (execution.state later) := by
    apply always_of_kept (fun later => PendingFor target (execution.state later)) pending
    intro later after isPending
    rcases pendingFor_step (execution.taken later) (ordered_at begins later)
      (keeps later) isPending with kept | left
    · exact kept
    · exact absurd ⟨later, after, left⟩ never
  obtain ⟨idleAt, afterMoment, idle⟩ := idle_eventually begins fair moment
  have afterStart := onward.trans afterMoment
  have armed := armed_of_reachable (execution.reachable begins idleAt)
    (stays.handler_isSome afterStart) (still idleAt afterMoment).nonempty
  obtain ⟨timer, isTimer⟩ := isSome_iff_exists.mp armed
  obtain ⟨firing, afterIdle, fired⟩ := fires_of_armed fair stays afterStart isTimer
  have idleUntil : ∀ later ≥ idleAt, (execution.state later).running = false →
        (execution.state (later + 1)).running = false ∨ execution.action later = .fire := by
    intro later _ isIdle
    by_cases firedThen : execution.action later = .fire
    · exact Or.inr firedThen
    · exact Or.inl (running_step (execution.taken later) firedThen isIdle)
  obtain ⟨later, after, -, isIdle, isFiring⟩ := holds_until idle idleUntil afterIdle fired
  have taken := execution.taken later
  rw [isFiring] at taken
  obtain ⟨wake, found, isFor⟩ := still later (afterMoment.trans after)
  have waits : ∃ wake ∈ (execution.state later).pendingWakes.values, wake.target = target :=
    ⟨wake, OrderedMap.mem_values_of_get? found, isFor⟩
  refine never ⟨later, afterMoment.trans after, ?_⟩
  generalize execution.state (later + 1) = final at taken ⊢
  cases taken.stepped with
  | unregistered noHandler =>
    have registered := stays.handler_isSome (afterStart.trans after)
    rw [noHandler] at registered
    cases registered
  | busy timer running =>
    rw [isIdle] at running
    cases running
  | idle timer active =>
    rcases called_or_inBatch_handOver waits with called | inBatch
    · exact Or.inl called
    · exact Or.inr ⟨_, inBatch⟩

theorem leaves_batch {target : WakeTarget} {id : ℕ}
    (keeps : ∀ later, KeepsTargets (execution.state later) (execution.action later))
    (rejects : RejectsOnlyLast execution start) :
    ∀ moment ≥ start, InBatch target id (execution.state moment) →
      ∃ later ≥ moment, Called target (execution.state later) (execution.state (later + 1)) := by
  apply eventually_of_rank (fun moment => InBatch target id (execution.state moment))
    (fun moment => Called target (execution.state moment) (execution.state (moment + 1)))
    (fun moment => waiting id (execution.state moment))
  rintro moment onward ⟨batch, found, waits⟩
  obtain ⟨later, after, outcome, answered, foundThen, settled⟩ :=
    answered_of_batch begins fair found
  have keepsThen := keeps later
  rw [answered] at keepsThen
  rcases inBatch_settle (ordered_at begins later) keepsThen foundThen waits with
    called | ⟨inBatch, lower⟩ | ⟨rfl, -⟩
  · refine ⟨later, after, Or.inl ?_⟩
    rw [settled]
    exact called
  · rw [← settled] at inBatch lower
    refine ⟨later + 1, Nat.le_succ_of_le after, Or.inr ⟨inBatch, ?_⟩⟩
    have waitingNow : waiting id (execution.state moment) =
        batch.remaining.length := by
      rw [waiting, found]
      rfl
    rw [waitingNow]
    exact lower
  · have nothing := rejects later (onward.trans after) id batch answered foundThen
    rw [nothing] at waits
    simp at waits

end

end

/--
A pending wake never lacks a timer while a handler is registered; and in a fair
execution with a handler that stays registered every request is followed by a
call for its target, when no wake is queued over one for another target and
rejected calls do not for ever send back wakes that were not handed over.
-/
theorem wakes_not_lost :
    (∀ state : WakeState Handler, Reachable WakeStep IsLoaded state →
      state.handler.isSome → state.pendingWakes.entries ≠ [] → state.timer.isSome) ∧
    ∀ execution : WakeExecution Handler, IsLoaded (execution.state 0) →
      Fair execution →
      (∃ start, StaysRegistered execution start) →
      (∀ moment, KeepsTargets (execution.state moment) (execution.action moment)) →
      (∃ start, RejectsOnlyLast execution start) →
        ∀ moment opts coalesceMs,
          execution.action moment = .request opts coalesceMs →
            ∃ later > moment,
              Called opts.target.normalized (execution.state later)
                (execution.state (later + 1)) := by
  refine ⟨fun state reachable => armed_of_reachable reachable, ?_⟩
  rintro execution begins fair ⟨registered, stays⟩ keeps ⟨last, rejects⟩ moment
    opts coalesceMs requested
  have owedNext : Owed opts.target.normalized (execution.state (moment + 1)) := by
    have taken := execution.taken moment
    have keepsNow := keeps moment
    rw [requested] at taken keepsNow
    rw [← Option.some.inj taken]
    left
    exact (pendingFor_queued (keepsNow opts (by simp [queuedBy]))).congr
      (by simp [requestHeartbeat])
  by_contra never
  have owed : ∀ later ≥ moment + 1, Owed opts.target.normalized (execution.state later) := by
    apply always_of_kept (fun later => Owed opts.target.normalized (execution.state later)) owedNext
    intro later after isOwed
    rcases owed_step (execution.taken later) (ordered_at begins later)
      (keeps later) isOwed with still | called
    · exact still
    · exact absurd ⟨later, after, called⟩ never
  have inBatch : ∃ later ≥ max (moment + 1) last, ∃ id,
      InBatch opts.target.normalized id (execution.state later) := by
    have quiet := (le_max_left (moment + 1) last).trans
      (le_max_left (max (moment + 1) last) registered)
    rcases owed (max (max (moment + 1) last) registered) quiet with pending | waits
    · obtain ⟨later, after, called | waits⟩ :=
        leaves_queue begins fair stays keeps (le_max_right _ _) pending
      · exact absurd ⟨later, quiet.trans after, called⟩ never
      · exact ⟨later + 1, Nat.le_succ_of_le ((le_max_left _ _).trans after), waits⟩
    · exact ⟨_, le_max_left _ _, waits⟩
  obtain ⟨later, after, id, waits⟩ := inBatch
  obtain ⟨final, onward, called⟩ :=
    leaves_batch begins fair keeps rejects later ((le_max_right _ _).trans after) waits
  exact never ⟨final, (le_max_left _ _).trans (after.trans onward), called⟩

/-- The state after an action, where it is possible. -/
def after (state : WakeState Unit) (action : WakeAction Unit) : WakeState Unit :=
  (wakeStep? state action).getD state

theorem wakeStep_after {state : WakeState Unit} {action : WakeAction Unit}
    (possible : (wakeStep? state action).isSome = true) :
    WakeStep state action (after state action) := by
  obtain ⟨final, taken⟩ := isSome_iff_exists.mp possible
  rw [WakeStep, after, taken]
  rfl

/-- Nothing happens but that the clock goes on. -/
def idleExecution (state : WakeState Unit) : WakeExecution Unit where
  state moment := { state with now := state.now + moment }
  action _ := .elapse 1
  taken moment := by
    simp [WakeStep, wakeStep?, zero_lt_one, add_assoc]

theorem idleExecution_zero (state : WakeState Unit) : (idleExecution state).state 0 = state := by
  simp [idleExecution]

def requestFor (agentId sessionKey : String) : HeartbeatWakeRequest :=
  { source := .cron
    intent := .event
    reason := some "cron:report"
    agentId := some agentId
    sessionKey := some sessionKey
    heartbeat := none }

/-- A request for a target with the same key as another one, or for that one. -/
def firstRequest (collides : Bool) : HeartbeatWakeRequest :=
  if collides then requestFor "ops::agent:ops" "alerts"
  else requestFor "ops" "agent:ops::alerts"

/-- Register, request twice, hand over the batch, and get an answer. -/
def batchActions (collides : Bool) : List (WakeAction Unit) :=
  [.setHandler (some ()), .request (firstRequest collides) none,
    .request (requestFor "ops" "agent:ops::alerts") none, .fire,
    .settle 0 (.resolved (.ran 1))]

/-- The state before the action of that number. -/
def batchState (collides : Bool) (number : ℕ) : WakeState Unit :=
  ((batchActions collides).take number).foldl after (.initial 0)

theorem batchState_possible : (wakeStep? (batchState collides 0) (.setHandler (some ()))).isSome ∧
      (wakeStep? (batchState collides 1) (.request (firstRequest collides) none)).isSome ∧
      (wakeStep? (batchState collides 2)
        (.request (requestFor "ops" "agent:ops::alerts") none)).isSome ∧
      (wakeStep? (batchState collides 3) .fire).isSome ∧
      (wakeStep? (batchState collides 4) (.settle 0 (.resolved (.ran 1)))).isSome := by
  cases collides with
  | false => decide +kernel
  | true => decide +kernel

def batchExecution (collides : Bool) : WakeExecution Unit :=
  have possible := batchState_possible collides
  .prepend (batchState collides 0) _
    (.prepend (batchState collides 1) _
      (.prepend (batchState collides 2) _
        (.prepend (batchState collides 3) _
          (.prepend (batchState collides 4) _
            (idleExecution (batchState collides 5))
            (by
              rw [idleExecution_zero]
              exact wakeStep_after possible.2.2.2.2))
          (wakeStep_after possible.2.2.2.1))
        (wakeStep_after possible.2.2.1))
      (wakeStep_after possible.2.1))
    (wakeStep_after possible.1)

theorem state_batchExecution (moment : ℕ) : ∃ now, (batchExecution collides).state moment =
      { batchState collides (min moment 5) with now := now } := by
  match moment with
  | 0 => exact ⟨_, rfl⟩
  | 1 => exact ⟨_, rfl⟩
  | 2 => exact ⟨_, rfl⟩
  | 3 => exact ⟨_, rfl⟩
  | 4 => exact ⟨_, rfl⟩
  | moment + 5 =>
    rw [Nat.min_eq_right (Nat.le_add_left 5 moment)]
    exact ⟨_, rfl⟩

theorem batchState_facts : ∀ number < 6,
      (batchState collides number).batches.keys = (if number = 4 then [0] else []) ∧
        (batchState collides number).timer.isSome = decide (number = 2 ∨ number = 3) ∧
        ((batchState collides number).calls.map fun call => call.wakeOpts.target) =
          (if 4 ≤ number then [(requestFor "ops" "agent:ops::alerts").target]
          else
            []) := by
  cases collides with
  | false => decide +kernel
  | true => decide +kernel

theorem batchExecution_facts (moment : ℕ) :
    ((batchExecution collides).state moment).batches.keys = (if moment = 4 then [0] else []) ∧
      ((batchExecution collides).state moment).timer.isSome = decide (moment = 2 ∨ moment = 3) ∧
      (((batchExecution collides).state moment).calls.map fun call => call.wakeOpts.target) =
        (if 4 ≤ moment then [(requestFor "ops" "agent:ops::alerts").target]
        else
          []) := by
  obtain ⟨now, state⟩ := state_batchExecution collides moment
  obtain ⟨keys, timer, calls⟩ := batchState_facts collides (min moment 5)
    (lt_of_le_of_lt (min_le_right moment 5) (by decide))
  rw [state]
  refine ⟨keys.trans ?_, timer.trans ?_, calls.trans ?_⟩
  · congr 1
    exact propext (by omega)
  · congr 1
    exact propext (by omega)
  · congr 1
    exact propext (by omega)

theorem fair_batchExecution : Fair (batchExecution collides) := by
  constructor
  · intro moment id present
    obtain ⟨keys, -, -⟩ := batchExecution_facts collides moment
    have isKey : id ∈ ((batchExecution collides).state moment).batches.keys := by
      by_contra notKey
      apply present
      apply OrderedMap.get?_eq_none_iff.mpr
      intro entry member same
      apply notKey
      rw [← same]
      exact List.mem_map_of_mem member
    rw [keys] at isKey
    split at isKey
    · rename_i atAnswer
      rw [List.mem_singleton.mp isKey]
      exact ⟨4, atAnswer.le, .resolved (.ran 1), rfl⟩
    · simp at isKey
  · intro moment timer armed
    obtain ⟨-, isArmed, -⟩ := batchExecution_facts collides moment
    obtain ⟨-, without, -⟩ := batchExecution_facts collides 4
    rw [armed, isSome_some] at isArmed
    have early : moment < 4 := by
      have between := of_decide_eq_true isArmed.symm
      omega
    refine ⟨4, early, ?_⟩
    intro still
    rw [still] at without
    simp at without
  · intro time
    obtain ⟨moment, passed⟩ := exists_nat_gt time
    refine ⟨moment + 5, ?_⟩
    have started : 0 ≤ (batchState collides 5).now := by
      cases collides with
      | false => decide +kernel
      | true => decide +kernel
    exact passed.trans_le (le_add_of_nonneg_left started)

theorem staysRegistered_batchExecution : StaysRegistered (batchExecution collides) 1 := by
  constructor
  · exact rfl
  · intro moment after
    match moment with
    | 0 => omega
    | 1 => rfl
    | 2 => rfl
    | 3 => rfl
    | 4 => rfl
    | moment + 5 => rfl

theorem isLoaded_batchExecution : IsLoaded ((batchExecution collides).state 0) := ⟨0, rfl⟩

/-- A request whose key another target has is dropped, and no call follows. -/
theorem not_called_colliding :
    ¬ ∀ execution : WakeExecution Unit, IsLoaded (execution.state 0) →
      Fair execution →
      (∃ start, StaysRegistered execution start) →
        ∀ moment opts coalesceMs,
          execution.action moment = .request opts coalesceMs →
            ∃ later > moment,
              Called opts.target.normalized (execution.state later)
                (execution.state (later + 1)) := by
  intro claimed
  obtain ⟨later, -, call, appended, isFor⟩ :=
    claimed (batchExecution true) (isLoaded_batchExecution true)
      (fair_batchExecution true) ⟨1, staysRegistered_batchExecution true⟩ 1
      (firstRequest true) none rfl
  obtain ⟨-, -, calls⟩ := batchExecution_facts true (later + 1)
  have among : call.wakeOpts.target ∈
      ((batchExecution true).state (later + 1)).calls.map fun call =>
        call.wakeOpts.target := by
    rw [appended]
    simp
  rw [calls, isFor] at among
  split at among
  · exact absurd (List.mem_singleton.mp among) (by decide +kernel)
  · simp at among

theorem holdsNoOther_of_all {state : WakeState Unit} {target : WakeTarget}
    (all : (state.pendingWakes.get? (getWakeTargetKey target)).all
      (fun previous => decide (previous.target = target.normalized)) = true) :
    state.HoldsNoOther target := by
  intro previous found
  rw [found] at all
  exact of_decide_eq_true all

/-- Two requests for one target are answered by a call for it. -/
theorem called_repeated :
    ∃ later > 1,
      Called (requestFor "ops" "agent:ops::alerts").target
        ((batchExecution false).state later)
        ((batchExecution false).state (later + 1)) := by
  have normal : (firstRequest false).target.normalized =
      (requestFor "ops" "agent:ops::alerts").target := by
    decide +kernel
  have keeps : ∀ moment, KeepsTargets ((batchExecution false).state moment)
        ((batchExecution false).action moment) := by
    intro moment
    rcases moment with _ | _ | _ | _ | _ | moment
    · simp [batchExecution, Execution.prepend, KeepsTargets, queuedBy]
    · intro params member
      rw [List.mem_singleton.mp member]
      apply holdsNoOther_of_all
      decide +kernel
    · intro params member
      rw [List.mem_singleton.mp member]
      apply holdsNoOther_of_all
      decide +kernel
    · simp [batchExecution, Execution.prepend, KeepsTargets, queuedBy]
    · intro params member
      have nothing : queuedBy (batchState false 4) (.settle 0 (.resolved (.ran 1))) = [] := by
        decide +kernel
      rw [show queuedBy ((batchExecution false).state 4)
        ((batchExecution false).action 4) = [] from nothing] at member
      cases member
    · intro params member
      cases member
  have rejects : RejectsOnlyLast (batchExecution false) 0 := by
    intro moment _ id batch rejected
    rcases moment with _ | _ | _ | _ | _ | moment
    · cases rejected
    · cases rejected
    · cases rejected
    · cases rejected
    · cases rejected
    · cases rejected
  rw [← normal]
  exact wakes_not_lost.2 (batchExecution false) (isLoaded_batchExecution false)
    (fair_batchExecution false) ⟨1, staysRegistered_batchExecution false⟩ keeps
    ⟨0, rejects⟩ 1 (firstRequest false) none rfl

end Heartbeat
