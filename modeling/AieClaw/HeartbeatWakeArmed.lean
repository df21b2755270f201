import AieClaw.HeartbeatWake

/-!
# A pending wake has a timer

Whatever happens, a timer is armed whenever a handler is registered and a wake
is pending. Every branch that leaves a wake behind arms the timer or leaves it
armed; only the callback without a handler does not, and registering a handler
makes up for it.
-/

namespace Heartbeat

variable {Handler : Type}

namespace WakeState

section

variable
  (state : WakeState Handler) (params : HeartbeatWakeRequest) (coalesceMs : JsNumber)
  (kind : WakeTimerKind)

/-- Scheduling changes the timer and nothing else. -/
theorem schedule_eq : ∃ timer timersMade, state.schedule coalesceMs kind =
        { state with timer := some timer, timersMade := timersMade } := by
  unfold schedule
  extract_lets delay
  cases armed : state.timer with
  | none => exact ⟨_, _, rfl⟩
  | some timer =>
    by_cases stays : timer.kind = .retry ∨ timer.dueAt ≤ state.now + delay
    · refine ⟨timer, state.timersMade, ?_⟩
      simp only [if_pos stays]
      rw [← armed]
    · simp only [if_neg stays]
      exact ⟨_, _, rfl⟩

@[simp] theorem handler_schedule : (state.schedule coalesceMs kind).handler = state.handler := by
  obtain ⟨timer, timersMade, scheduled⟩ := schedule_eq state coalesceMs kind
  rw [scheduled]

@[simp] theorem running_schedule : (state.schedule coalesceMs kind).running = state.running := by
  obtain ⟨timer, timersMade, scheduled⟩ := schedule_eq state coalesceMs kind
  rw [scheduled]

@[simp] theorem pendingWakes_schedule :
    (state.schedule coalesceMs kind).pendingWakes = state.pendingWakes := by
  obtain ⟨timer, timersMade, scheduled⟩ := schedule_eq state coalesceMs kind
  rw [scheduled]

@[simp] theorem now_schedule : (state.schedule coalesceMs kind).now = state.now := by
  obtain ⟨timer, timersMade, scheduled⟩ := schedule_eq state coalesceMs kind
  rw [scheduled]

@[simp] theorem batches_schedule : (state.schedule coalesceMs kind).batches = state.batches := by
  obtain ⟨timer, timersMade, scheduled⟩ := schedule_eq state coalesceMs kind
  rw [scheduled]

@[simp] theorem batchesMade_schedule :
    (state.schedule coalesceMs kind).batchesMade = state.batchesMade := by
  obtain ⟨timer, timersMade, scheduled⟩ := schedule_eq state coalesceMs kind
  rw [scheduled]

@[simp] theorem calls_schedule : (state.schedule coalesceMs kind).calls = state.calls := by
  obtain ⟨timer, timersMade, scheduled⟩ := schedule_eq state coalesceMs kind
  rw [scheduled]

/-- Scheduling always leaves a timer armed. -/
@[simp] theorem timer_schedule_isSome : (state.schedule coalesceMs kind).timer.isSome = true := by
  obtain ⟨timer, timersMade, scheduled⟩ := schedule_eq state coalesceMs kind
  rw [scheduled]
  rfl

end

/-- With a handler registered, no wake is pending without a timer. -/
def ArmedWhenPending (state : WakeState Handler) : Prop :=
  state.handler.isSome → state.pendingWakes.entries ≠ [] → state.timer.isSome

variable {state : WakeState Handler}

theorem armed_of_timer (timer : state.timer.isSome = true) : ArmedWhenPending state :=
  fun _ _ => timer

theorem armed_finishBatch (state : WakeState Handler) (id : ℕ) (delay : ℚ) :
    ArmedWhenPending (state.finishBatch id delay) := by
  unfold finishBatch
  extract_lets state
  split
  · exact armed_of_timer (timer_schedule_isSome _ _ _)
  · rename_i nothing
    intro _ pending
    exact absurd (Or.inl pending) nothing

theorem armed_handOver (armed : ArmedWhenPending state) (id : ℕ)
    (active : Handler) (pendingBatch rest : List PendingWakeReason) (delay : ℚ) :
    ArmedWhenPending (state.handOver id active pendingBatch rest delay) := by
  cases rest with
  | nil => exact armed_finishBatch state id delay
  | cons wake later => exact armed

theorem armed_fire (state : WakeState Handler) (timer : WakeTimer) :
    ArmedWhenPending (state.fire timer) := by
  unfold fire
  extract_lets fired
  cases registered : fired.handler with
  | none =>
    intro withHandler
    simp [registered] at withHandler
  | some active =>
    by_cases busy : fired.running = true
    · simp only [if_pos busy]
      exact armed_of_timer (timer_schedule_isSome _ _ _)
    · simp only [if_neg busy]
      apply armed_handOver
      intro _ pending
      exact absurd rfl pending

theorem armed_settle (armed : ArmedWhenPending state) (id : ℕ)
    (batch : WakeBatch Handler) (outcome : HandlerOutcome) :
    ArmedWhenPending (state.settle id batch outcome) := by
  cases outcome with
  | resolved result =>
    apply armed_handOver
    unfold afterCall
    split
    · exact armed_of_timer (timer_schedule_isSome _ _ _)
    · exact armed
  | rejected => exact armed_finishBatch _ id batch.delay

theorem armed_setHeartbeatWakeHandler (next : Option Handler) :
    ArmedWhenPending (state.setHeartbeatWakeHandler next) := by
  unfold setHeartbeatWakeHandler
  extract_lets generation registered reset
  split
  · exact armed_of_timer (timer_schedule_isSome _ _ _)
  · rename_i nothing
    intro withHandler pending
    have handler : reset.handler = next := by
      simp only [reset]
      split
      · rfl
      · rfl
    rw [handler] at withHandler
    exact absurd ⟨withHandler, pending⟩ nothing

theorem armed_dispose [DecidableEq Handler]
    (armed : ArmedWhenPending state) (generation : ℕ) (next : Option Handler) :
    ArmedWhenPending (state.dispose generation next) := by
  unfold dispose
  split
  · exact armed
  · intro withHandler
    simp at withHandler

end WakeState

open WakeState TransitionSystem

/-- The module as it is loaded. -/
def IsLoaded (state : WakeState Handler) : Prop := ∃ now, state = WakeState.initial now

variable [DecidableEq Handler]

theorem armed_step : Preserves (@WakeStep Handler _) ArmedWhenPending := by
  intro source action target taken armed
  cases action with
  | elapse duration =>
    obtain ⟨-, ⟨⟩⟩ := Option.ite_none_right_eq_some.mp taken
    exact armed
  | request opts coalesceMs =>
    cases taken
    exact armed_of_timer (timer_schedule_isSome _ _ _)
  | setHandler next =>
    cases taken
    exact armed_setHeartbeatWakeHandler next
  | dispose generation next =>
    obtain ⟨-, ⟨⟩⟩ := Option.ite_none_right_eq_some.mp taken
    exact armed_dispose armed generation next
  | fire =>
    obtain ⟨timer, -, rfl⟩ := Option.map_eq_some_iff.mp taken
    exact armed_fire source timer
  | settle id outcome =>
    obtain ⟨batch, -, rfl⟩ := Option.map_eq_some_iff.mp taken
    exact armed_settle armed id batch outcome

/-- In every reachable state a pending wake has a timer or waits for a handler. -/
theorem armed_of_reachable {state : WakeState Handler}
    (reachable : Reachable WakeStep IsLoaded state) : ArmedWhenPending state := by
  have initially : ∀ ⦃loaded : WakeState Handler⦄, IsLoaded loaded → ArmedWhenPending loaded := by
    rintro loaded ⟨now, rfl⟩ _ pending
    exact absurd rfl pending
  exact reachable.invariant initially armed_step

end Heartbeat
