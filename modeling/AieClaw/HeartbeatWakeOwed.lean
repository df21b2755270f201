import AieClaw.HeartbeatWakeArmed

/-!
# Wakes that are owed to a target

From a request on, its target is owed a call of the handler: a wake for it is
pending, or it waits in a batch under way. A step hands the wake over or leaves
it owed, provided that no wake is queued over a pending one for another target.
That can happen, as two targets may have one key.
-/

namespace Heartbeat

open OrderedMap

variable {Handler : Type}

theorem normalizeWakeTarget_normalizeWakeTarget (value : Option String) :
    normalizeWakeTarget (normalizeWakeTarget value) = normalizeWakeTarget value := by
  cases normalized : normalizeWakeTarget value with
  | none => rfl
  | some text =>
    obtain ⟨raw, -, read⟩ := Option.bind_eq_some_iff.mp normalized
    exact SessionKeys.normalizeOptionalString_of_eq_some read

@[simp] theorem normalized_normalized (target : WakeTarget) :
    target.normalized.normalized = target.normalized := by
  simp [WakeTarget.normalized, normalizeWakeTarget_normalizeWakeTarget]

@[simp] theorem getWakeTargetKey_normalized (target : WakeTarget) :
    getWakeTargetKey target.normalized = getWakeTargetKey target := by
  simp [getWakeTargetKey]

@[simp] theorem target_wakeOpts (wake : PendingWakeReason) : wake.wakeOpts.target = wake.target :=
  rfl

namespace WakeState

/-- A wake for the target is pending under its key. -/
def PendingFor (target : WakeTarget) (state : WakeState Handler) : Prop :=
  ∃ wake, state.pendingWakes.get? (getWakeTargetKey target) = some wake ∧ wake.target = target

/-- What is pending under the key of a target is for that target. -/
def HoldsNoOther (state : WakeState Handler) (target : WakeTarget) : Prop :=
  ∀ previous,
    state.pendingWakes.get? (getWakeTargetKey target) = some previous →
      previous.target = target.normalized

theorem target_mergedWake (previous next : PendingWakeReason) :
    (mergedWake previous next).target = next.target ∨
      (mergedWake previous next).target = previous.target := by
  unfold mergedWake
  split
  · exact Or.inl rfl
  · split
    · exact Or.inl rfl
    · exact Or.inr rfl

theorem get?_queuePendingWakeReason_self (state : WakeState Handler)
    (params : HeartbeatWakeRequest) : ∃ wake,
      (state.queuePendingWakeReason params).pendingWakes.get? (getWakeTargetKey params.target) =
        some wake ∧
      (wake.target = params.target.normalized ∨
        ∃ previous, state.pendingWakes.get? (getWakeTargetKey params.target) = some previous ∧
          wake.target = previous.target) := by
  have key : getWakeTargetKey (state.nextWake params).target = getWakeTargetKey params.target :=
    getWakeTargetKey_normalized params.target
  have written : (state.queuePendingWakeReason params).pendingWakes.get?
      (getWakeTargetKey params.target) = some
          ((state.pendingWakes.get? (getWakeTargetKey params.target)).elim
            (state.nextWake params) fun previous =>
              mergedWake previous (state.nextWake params)) := by
    simp only [queuePendingWakeReason, key]
    rw [get?_set_self]
    cases state.pendingWakes.get? (getWakeTargetKey params.target) with
    | none => rfl
    | some previous => rfl
  rw [written]
  refine ⟨_, rfl, ?_⟩
  cases found : state.pendingWakes.get? (getWakeTargetKey params.target) with
  | none => exact Or.inl rfl
  | some previous =>
    rcases target_mergedWake previous (state.nextWake params) with new | old
    · exact Or.inl new
    · exact Or.inr ⟨previous, rfl, old⟩

variable {params : HeartbeatWakeRequest} {state : WakeState Handler} {target : WakeTarget}

theorem get?_queuePendingWakeReason_of_ne {key : String}
    (other : key ≠ getWakeTargetKey params.target) :
    (state.queuePendingWakeReason params).pendingWakes.get? key = state.pendingWakes.get? key := by
  apply get?_set_of_ne
  intro same
  apply other
  rw [same]
  exact getWakeTargetKey_normalized params.target

theorem pendingFor_queued (noOther : state.HoldsNoOther params.target) :
    PendingFor params.target.normalized (state.queuePendingWakeReason params) := by
  rw [PendingFor, getWakeTargetKey_normalized]
  obtain ⟨wake, found, new | ⟨previous, held, old⟩⟩ :=
    get?_queuePendingWakeReason_self state params
  · exact ⟨wake, found, new⟩
  · exact ⟨wake, found, old.trans (noOther previous held)⟩

theorem PendingFor.queued
    (pending : PendingFor target state) (noOther : state.HoldsNoOther params.target) :
    PendingFor target (state.queuePendingWakeReason params) := by
  by_cases sameKey : getWakeTargetKey target = getWakeTargetKey params.target
  · obtain ⟨wake, found, isFor⟩ := pending
    have same : target = params.target.normalized := by
      rw [← isFor]
      exact noOther wake (by rw [← sameKey, found])
    rw [same]
    exact pendingFor_queued noOther
  · obtain ⟨wake, found, isFor⟩ := pending
    exact ⟨wake, by rw [get?_queuePendingWakeReason_of_ne sameKey, found], isFor⟩

/-- The keys of the wakes of a batch. -/
def wakeKeys (wakes : List PendingWakeReason) : List String :=
  wakes.map fun wake => getWakeTargetKey wake.target

theorem HoldsNoOther.queued (noOther : state.HoldsNoOther target)
    (apart : getWakeTargetKey target ≠ getWakeTargetKey params.target) :
    (state.queuePendingWakeReason params).HoldsNoOther target := by
  intro previous found
  rw [get?_queuePendingWakeReason_of_ne apart] at found
  exact noOther previous found

theorem pendingFor_requeue {wakes : List PendingWakeReason} (distinct : (wakeKeys wakes).Nodup)
    (noOther : ∀ wake ∈ wakes, state.HoldsNoOther wake.target)
    (owed : PendingFor target state ∨ ∃ wake ∈ wakes, wake.target.normalized = target) :
    PendingFor target (state.requeue wakes) := by
  induction wakes generalizing state with
  | nil =>
    rcases owed with pending | ⟨wake, member, -⟩
    · exact pending
    · simp at member
  | cons first rest inductionHypothesis =>
    rw [wakeKeys, List.map_cons, List.nodup_cons] at distinct
    obtain ⟨fresh, restDistinct⟩ := distinct
    have firstAlone := noOther first List.mem_cons_self
    apply inductionHypothesis restDistinct
    · intro wake member
      apply (noOther wake (.tail first member)).queued
      intro same
      apply fresh
      rw [target_wakeOpts] at same
      rw [← same]
      exact List.mem_map_of_mem member
    · rcases owed with pending | ⟨wake, member, isFor⟩
      · exact Or.inl (pending.queued firstAlone)
      · rcases List.mem_cons.mp member with rfl | inRest
        · left
          rw [← isFor, ← target_wakeOpts wake]
          exact pendingFor_queued firstAlone
        · exact Or.inr ⟨wake, inRest, isFor⟩

/-- Wakes that were taken from the pending ones together. -/
structure WakesOrdered (wakes : List PendingWakeReason) : Prop where
  normal : ∀ wake ∈ wakes, wake.target.normalized = wake.target
  distinct : (wakeKeys wakes).Nodup

structure QueuesOrdered (state : WakeState Handler) : Prop where
  keyed :
    ∀ key wake, state.pendingWakes.get? key = some wake →
      key = getWakeTargetKey wake.target ∧ wake.target.normalized = wake.target
  fresh : ∀ id batch, state.batches.get? id = some batch → id < state.batchesMade
  ordered :
    ∀ id batch, state.batches.get? id = some batch →
      WakesOrdered batch.pendingBatch ∧ batch.remaining ⊆ batch.pendingBatch

/-- The running flag is set only while a batch is under way. -/
def RunningHasBatch (state : WakeState Handler) : Prop :=
  state.running = true → ∃ id batch, state.batches.get? id = some batch

section

variable (ordered : QueuesOrdered state)
include ordered

theorem wakesOrdered_values : WakesOrdered state.pendingWakes.values := by
  constructor
  · intro wake member
    obtain ⟨key, found⟩ := exists_get?_of_mem_values member
    exact (ordered.keyed key wake found).2
  · have keys : wakeKeys state.pendingWakes.values = state.pendingWakes.entries.map Prod.fst := by
      rw [wakeKeys, values, List.map_map]
      apply List.map_congr_left
      intro entry member
      exact (ordered.keyed entry.1 entry.2 (get?_eq_some_iff.mpr member)).1.symm
    rw [keys]
    exact state.pendingWakes.distinctKeys

theorem QueuesOrdered.queued
    (params : HeartbeatWakeRequest) : QueuesOrdered (state.queuePendingWakeReason params) where
  keyed key wake found := by
    by_cases sameKey : key = getWakeTargetKey params.target
    · obtain ⟨stored, reads, isFor⟩ := get?_queuePendingWakeReason_self state params
      rw [sameKey, reads] at found
      cases found
      rcases isFor with new | ⟨previous, held, old⟩
      · rw [new, getWakeTargetKey_normalized, normalized_normalized]
        exact ⟨sameKey, rfl⟩
      · obtain ⟨key, normal⟩ := ordered.keyed _ previous held
        rw [old]
        exact ⟨sameKey.trans key, normal⟩
    · rw [get?_queuePendingWakeReason_of_ne sameKey] at found
      exact ordered.keyed key wake found
  fresh := ordered.fresh
  ordered := ordered.ordered

theorem QueuesOrdered.congr {changed : WakeState Handler}
    (pendingWakes : changed.pendingWakes = state.pendingWakes)
    (batches : changed.batches = state.batches)
    (batchesMade : changed.batchesMade = state.batchesMade) : QueuesOrdered changed where
  keyed := by
    rw [pendingWakes]
    exact ordered.keyed
  fresh := by
    rw [batches, batchesMade]
    exact ordered.fresh
  ordered := by
    rw [batches]
    exact ordered.ordered

theorem QueuesOrdered.scheduled (coalesceMs : JsNumber) (kind : WakeTimerKind) :
    QueuesOrdered (state.schedule coalesceMs kind) :=
  ordered.congr (by simp) (by simp) (by simp)

theorem QueuesOrdered.requeued
    (wakes : List PendingWakeReason) : QueuesOrdered (state.requeue wakes) := by
  induction wakes generalizing state with
  | nil => exact ordered
  | cons first rest inductionHypothesis =>
    exact inductionHypothesis (ordered.queued first.wakeOpts)

end

theorem finishBatch_eq (state : WakeState Handler) (id : ℕ) (delay : ℚ) : ∃ timer timersMade,
      state.finishBatch id delay = { state with
          running := false
          batches := state.batches.delete id
          timer := timer
          timersMade := timersMade } := by
  unfold finishBatch
  extract_lets ended
  split
  · obtain ⟨timer, timersMade, scheduled⟩ := schedule_eq ended (.finite delay) .normal
    exact ⟨some timer, timersMade, scheduled⟩
  · exact ⟨state.timer, state.timersMade, rfl⟩

theorem QueuesOrdered.finished (ordered : QueuesOrdered state)
    (id : ℕ) (delay : ℚ) : QueuesOrdered (state.finishBatch id delay) := by
  obtain ⟨timer, timersMade, finished⟩ := finishBatch_eq state id delay
  have kept : ∀ other batch, (state.batches.delete id).get? other = some batch →
        state.batches.get? other = some batch := by
    intro other batch found
    rw [get?_delete] at found
    split at found
    · cases found
    · exact found
  rw [finished]
  constructor
  · exact ordered.keyed
  · intro other batch found
    exact ordered.fresh other batch (kept other batch found)
  · intro other batch found
    exact ordered.ordered other batch (kept other batch found)

theorem QueuesOrdered.handedOver {id : ℕ} {active : Handler}
    {pendingBatch rest : List PendingWakeReason} {delay : ℚ} (ordered : QueuesOrdered state)
    (made : id < state.batchesMade) (wakes : WakesOrdered pendingBatch)
    (within : rest ⊆ pendingBatch) :
    QueuesOrdered (state.handOver id active pendingBatch rest delay) := by
  cases rest with
  | nil => exact ordered.finished id delay
  | cons wake later =>
    constructor
    · exact ordered.keyed
    · intro other batch found
      rw [handOver, get?_set] at found
      split at found
      · rename_i same
        rw [same]
        exact made
      · exact ordered.fresh other batch found
    · intro other batch found
      rw [handOver, get?_set] at found
      split at found
      · cases found
        exact ⟨wakes, fun _ member => within (.tail wake member)⟩
      · exact ordered.ordered other batch found

theorem runningHasBatch_finishBatch (state : WakeState Handler) (id : ℕ) (delay : ℚ) :
    RunningHasBatch (state.finishBatch id delay) := by
  obtain ⟨timer, timersMade, finished⟩ := finishBatch_eq state id delay
  intro running
  rw [finished] at running
  cases running

theorem runningHasBatch_handOver (state : WakeState Handler) (id : ℕ) (active : Handler)
    (pendingBatch rest : List PendingWakeReason) (delay : ℚ) :
    RunningHasBatch (state.handOver id active pendingBatch rest delay) := by
  cases rest with
  | nil => exact runningHasBatch_finishBatch state id delay
  | cons wake later =>
    intro _
    exact ⟨id, _, get?_set_self _ _ _⟩

end WakeState

open WakeState TransitionSystem

/-- The steps, by what they do; the callback of the timer can do three things. -/
inductive Stepped [DecidableEq Handler] (source : WakeState Handler) :
    WakeAction Handler → WakeState Handler → Prop where
  | elapse (duration : ℚ) (positive : 0 < duration) :
    Stepped source (.elapse duration) { source with now := source.now + duration }
  | request (opts : HeartbeatWakeRequest) (coalesceMs : Option JsNumber) :
    Stepped source (.request opts coalesceMs) (source.requestHeartbeat opts coalesceMs)
  | setHandler (next : Option Handler) :
    Stepped source (.setHandler next) (source.setHeartbeatWakeHandler next)
  | dispose (generation : ℕ) (next : Option Handler) :
    Stepped source (.dispose generation next) (source.dispose generation next)
  | unregistered (noHandler : source.handler = none) :
    Stepped source .fire { source with timer := none, scheduled := false }
  | busy (timer : WakeTimer) (running : source.running = true) :
    Stepped source .fire
      ({ source with timer := none, scheduled := true }.schedule (.finite timer.delay) timer.kind)
  | idle (timer : WakeTimer) (active : Handler) :
    Stepped source .fire
      ({ source with
        timer := none
        scheduled := false
        pendingWakes := .empty
        running := true
        batchesMade := source.batchesMade + 1 }.handOver
          source.batchesMade active source.pendingWakes.values
          source.pendingWakes.values timer.delay)
  | settle (id : ℕ) (outcome : HandlerOutcome) (batch : WakeBatch Handler)
      (found : source.batches.get? id = some batch) :
    Stepped source (.settle id outcome) (source.settle id batch outcome)

theorem WakeStep.stepped [DecidableEq Handler] {source final : WakeState Handler}
    {action : WakeAction Handler} (taken : WakeStep source action final) :
    Stepped source action final := by
  cases action with
  | elapse duration =>
    obtain ⟨positive, ⟨⟩⟩ := Option.ite_none_right_eq_some.mp taken
    exact .elapse duration positive
  | request opts coalesceMs =>
    cases taken
    exact .request opts coalesceMs
  | setHandler next =>
    cases taken
    exact .setHandler next
  | dispose generation next =>
    obtain ⟨-, ⟨⟩⟩ := Option.ite_none_right_eq_some.mp taken
    exact .dispose generation next
  | fire =>
    obtain ⟨timer, -, rfl⟩ := Option.map_eq_some_iff.mp taken
    unfold fire
    extract_lets fired
    split
    · rename_i registered
      exact .unregistered registered
    · by_cases running : fired.running = true
      · rw [if_pos running]
        exact .busy timer running
      · rw [if_neg running]
        exact .idle timer _
  | settle id outcome =>
    obtain ⟨batch, found, rfl⟩ := Option.map_eq_some_iff.mp taken
    exact .settle id outcome batch found

section

theorem setHeartbeatWakeHandler_frame (state : WakeState Handler) (next : Option Handler) :
    (state.setHeartbeatWakeHandler next).pendingWakes = state.pendingWakes ∧
      (state.setHeartbeatWakeHandler next).batches = state.batches ∧
      (state.setHeartbeatWakeHandler next).batchesMade = state.batchesMade ∧
      (state.setHeartbeatWakeHandler next).calls = state.calls ∧
      ((state.setHeartbeatWakeHandler next).running = true → state.running = true) := by
  unfold setHeartbeatWakeHandler
  extract_lets generation registered reset
  have kept : reset.pendingWakes = state.pendingWakes ∧ reset.batches = state.batches ∧
      reset.batchesMade = state.batchesMade ∧ reset.calls = state.calls ∧
      (reset.running = true → state.running = true) := by
    simp only [reset]
    split
    · exact ⟨rfl, rfl, rfl, rfl, fun running => by cases running⟩
    · exact ⟨rfl, rfl, rfl, rfl, id⟩
  split
  · simpa using kept
  · exact kept

variable [DecidableEq Handler]

theorem dispose_frame (state : WakeState Handler) (generation : ℕ) (next : Option Handler) :
    (state.dispose generation next).pendingWakes = state.pendingWakes ∧
      (state.dispose generation next).batches = state.batches ∧
      (state.dispose generation next).batchesMade = state.batchesMade ∧
      (state.dispose generation next).calls = state.calls ∧
      (state.dispose generation next).running = state.running := by
  unfold dispose
  split
  · exact ⟨rfl, rfl, rfl, rfl, rfl⟩
  · exact ⟨rfl, rfl, rfl, rfl, rfl⟩

theorem ordered_step : Preserves (@WakeStep Handler _) QueuesOrdered := by
  intro source action target taken ordered
  cases taken.stepped with
  | elapse duration positive =>
    exact ordered.congr rfl rfl rfl
  | request opts coalesceMs =>
    exact (ordered.queued opts).scheduled _ _
  | setHandler next =>
    obtain ⟨pendingWakes, batches, batchesMade, -, -⟩ := setHeartbeatWakeHandler_frame source next
    exact ordered.congr pendingWakes batches batchesMade
  | dispose generation next =>
    obtain ⟨pendingWakes, batches, batchesMade, -, -⟩ := dispose_frame source generation next
    exact ordered.congr pendingWakes batches batchesMade
  | unregistered => exact ordered.congr rfl rfl rfl
  | busy timer running =>
    apply QueuesOrdered.scheduled
    exact ordered.congr rfl rfl rfl
  | idle timer active =>
    apply QueuesOrdered.handedOver
    · constructor
      · intro key wake found
        cases found
      · intro id batch found
        exact Nat.lt_succ_of_lt (ordered.fresh id batch found)
      · exact ordered.ordered
    · exact Nat.lt_succ_self _
    · exact wakesOrdered_values ordered
    · exact fun _ member => member
  | settle id outcome batch found =>
    obtain ⟨wakes, within⟩ := ordered.ordered id batch found
    cases outcome with
    | resolved result =>
      have after : QueuesOrdered (source.afterCall batch.current result) := by
        unfold afterCall
        split
        · exact (ordered.queued _).scheduled _ _
        · exact ordered
      have made : id < (source.afterCall batch.current result).batchesMade := by
        unfold afterCall
        split
        · simpa using ordered.fresh id batch found
        · exact ordered.fresh id batch found
      exact after.handedOver made wakes within
    | rejected => exact ((ordered.requeued batch.pendingBatch).scheduled _ _).finished _ _

theorem runningHasBatch_step : Preserves (@WakeStep Handler _) RunningHasBatch := by
  intro source action target taken hasBatch
  cases taken.stepped with
  | elapse duration positive =>
    exact hasBatch
  | request opts coalesceMs =>
    intro running
    simp only [requestHeartbeat, running_schedule, queuePendingWakeReason_running] at running
    simpa [requestHeartbeat] using hasBatch running
  | setHandler next =>
    obtain ⟨-, batches, -, -, runs⟩ := setHeartbeatWakeHandler_frame source next
    intro running
    rw [batches]
    exact hasBatch (runs running)
  | dispose generation next =>
    obtain ⟨-, batches, -, -, runs⟩ := dispose_frame source generation next
    intro running
    rw [batches]
    exact hasBatch (runs ▸ running)
  | unregistered => exact hasBatch
  | busy timer running =>
    intro _
    simpa using hasBatch running
  | idle timer active => apply runningHasBatch_handOver
  | settle id outcome batch found =>
    cases outcome with
    | resolved result => apply runningHasBatch_handOver
    | rejected => apply runningHasBatch_finishBatch

end

end Heartbeat
