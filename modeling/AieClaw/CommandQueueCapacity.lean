import AieClaw.CommandQueueLedger

/-!
# No queued work is stranded

After every section, a lane with queued entries is at its bound and is not
draining. The proof follows the drains: a lane that a section disturbed may
have capacity and queued work until `pump` has run for it, so the property is
stated for all lanes except the ones still to be drained.
-/

namespace CommandQueue

open OrderedMap Option

/-- Every lane but the pending ones is at its bound or has nothing queued. -/
structure RestedExcept (pending : List String) (world : World) : Prop where
  notDraining :
    ∀ ⦃name state⦄,
      world.lanes.get? name = some state →
      state.draining = false
  saturated :
    ∀ ⦃name state⦄,
      world.lanes.get? name = some state →
      name ∉ pending →
      state.queue ≠ [] →
      state.hasCapacity = false

namespace World

variable (now : ℤ) {world : World} (lane : String) {pending : List String}

theorem pumpLoop_other {lane name : String} (differs : name ≠ lane) (queue : List QueueEntry)
    (world : World) : (pumpLoop now lane queue world).lanes.get? name = world.lanes.get? name := by
  induction queue generalizing world with
  | nil => rfl
  | cons entry rest inductionHypothesis =>
    unfold pumpLoop
    split
    next => rfl
    next state present =>
      split
      · rw [inductionHypothesis]
        exact get?_set_of_ne differs
      · rfl

theorem pumpLoop_saturates {lane : String} {queue : List QueueEntry} {state : LaneState}
    (present : world.lanes.get? lane = some state) (queued : state.queue = queue) : ∃ pumped,
      (pumpLoop now lane queue world).lanes.get? lane = some pumped ∧
        (pumped.queue ≠ [] → pumped.hasCapacity = false) := by
  induction queue generalizing world state with
  | nil => exact ⟨state, present, fun nonempty => absurd queued nonempty⟩
  | cons entry rest inductionHypothesis =>
    by_cases capacity : state.hasCapacity = true
    · have restPresent : (startEntry now lane world state entry rest).lanes.get? lane =
            some { state with
              queue := rest
              activeTaskIds :=
                insert world.nextTaskId state.activeTaskIds } := by
        simp [startEntry]
      obtain ⟨pumped, found, saturated⟩ := inductionHypothesis restPresent rfl
      refine ⟨pumped, ?_, saturated⟩
      simpa [pumpLoop, present, capacity] using found
    · refine ⟨state, ?_, fun _ => by simpa using capacity⟩
      simp [pumpLoop, present, capacity]

/-- Pumping a lane brings it to rest and leaves the other lanes alone. -/
theorem pump_rested {lane : String} (othersNotDraining : ∀ ⦃name state⦄,
        world.lanes.get? name = some state →
        name ≠ lane →
        state.draining = false) (othersSaturated : ∀ ⦃name state⦄,
        world.lanes.get? name = some state →
        name ∉ lane :: pending →
        state.queue ≠ [] →
        state.hasCapacity = false) : RestedExcept pending (pump now lane world) := by
  have others : ∀ {name : String}, name ≠ lane →
        (pump now lane world).lanes.get? name = world.lanes.get? name := by
    intro name differs
    unfold pump
    split
    next => rfl
    next state present =>
      exact (get?_modify_of_ne differs _).trans (pumpLoop_other now differs state.queue world)
  have pumpedLane : ∀ {state : LaneState}, (pump now lane world).lanes.get? lane = some state →
        state.draining = false ∧ (state.queue ≠ [] → state.hasCapacity = false) := by
    intro state found
    unfold pump at found
    cases present : world.lanes.get? lane with
    | none => simp [present] at found
    | some before =>
      obtain ⟨pumped, pumpedFound, saturated⟩ := pumpLoop_saturates now present rfl
      simp only [present, modifyLane, get?_modify_self,
        pumpedFound, map_some, Option.some.injEq] at found
      subst found
      exact ⟨rfl, saturated⟩
  constructor
  · intro name state found
    by_cases same : name = lane
    · subst same
      exact (pumpedLane found).1
    · rw [others same] at found
      exact othersNotDraining found same
  · intro name state found notPending nonempty
    by_cases same : name = lane
    · subst same
      exact (pumpedLane found).2 nonempty
    · rw [others same] at found
      exact othersSaturated found (by simp [same, notPending]) nonempty

theorem ensureLane_rested (rested : RestedExcept pending world) :
    RestedExcept pending (world.ensureLane lane) := by
  unfold ensureLane
  split
  · exact rested
  · constructor
    · intro name state found
      rw [get?_set] at found
      split at found
      · cases found
        rfl
      · exact rested.notDraining found
    · intro name state found notPending nonempty
      rw [get?_set] at found
      split at found
      · cases found
        exact absurd rfl nonempty
      · exact rested.saturated found notPending nonempty

theorem modifyLane_rested (change : LaneState → LaneState) (rested : RestedExcept pending world)
    (staysNotDraining : ∀ state, state.draining = false → (change state).draining = false) :
    RestedExcept (lane :: pending) (world.modifyLane lane change) := by
  constructor
  · intro name state found
    by_cases same : name = lane
    · subst same
      rw [modifyLane, get?_modify_self] at found
      obtain ⟨before, present, rfl⟩ := map_eq_some_iff.mp found
      exact staysNotDraining before (rested.notDraining present)
    · rw [modifyLane, get?_modify_of_ne same] at found
      exact rested.notDraining found
  · intro name state found notPending nonempty
    rw [List.mem_cons, not_or] at notPending
    rw [modifyLane, get?_modify_of_ne notPending.1] at found
    exact rested.saturated found notPending.2 nonempty

theorem drainLane_rested {lane : String} (rested : RestedExcept (lane :: pending) world) :
    RestedExcept pending (drainLane now lane world) := by
  obtain ⟨state, present⟩ := world.exists_lane_ensureLane lane
  have ensured := ensureLane_rested lane rested
  have idle : state.draining = false := ensured.notDraining present
  unfold drainLane
  simp only [present, idle, Bool.false_eq_true, if_false]
  apply pump_rested
  · intro name other found differs
    rw [modifyLane, get?_modify_of_ne differs] at found
    exact ensured.notDraining found
  · intro name other found notPending nonempty
    have differs : name ≠ lane := fun same => notPending (by simp [same])
    rw [modifyLane, get?_modify_of_ne differs] at found
    exact ensured.saturated found notPending nonempty

theorem drainLanes_rested (lanes : List String) (world : World)
    (rested : RestedExcept lanes world) :
    RestedExcept [] (lanes.foldl (fun world lane => drainLane now lane world) world) := by
  induction lanes generalizing world with
  | nil => exact rested
  | cons lane rest inductionHypothesis => exact inductionHypothesis _ (drainLane_rested now rested)

theorem rested_of_saturated {lane : String} (rested : RestedExcept [lane] world)
    (saturated : ∀ state, world.lanes.get? lane = some state →
        state.queue ≠ [] →
        state.hasCapacity = false) : RestedExcept [] world := by
  refine ⟨rested.notDraining, ?_⟩
  intro name state found _ nonempty
  by_cases same : name = lane
  · subst same
    exact saturated state found nonempty
  · exact rested.saturated found (by simp [same]) nonempty

theorem enqueueCommandInLane_rested (options : CommandQueueEnqueueOptions)
    (rested : RestedExcept [] world) :
    RestedExcept [] (world.enqueueCommandInLane now lane options) := by
  unfold enqueueCommandInLane
  split
  · exact ⟨rested.notDraining, rested.saturated⟩
  · apply drainLane_rested
    have ensured := ensureLane_rested (normalizeLane lane) rested
    have placed := modifyLane_rested (normalizeLane lane)
      (fun state => enqueueLaneEntry state {
        enqueuedAt := now
        sequence := (world.ensureLane (normalizeLane lane)).nextQueueSequence
        priority := resolveQueuePriority options.priority
        warnAfterMs := options.warnAfterMs.getD 2000
        queuedAheadAtEnqueue := 0
        activeAheadAtEnqueue := 0
        taskTimeoutMs := normalizeTaskTimeoutMs options.taskTimeoutMs })
      ensured (fun _ idle => idle)
    exact ⟨placed.notDraining, placed.saturated⟩

theorem hasCapacity_of_limit_nonpositive (state : LaneState) {limit : JsNumber}
    (nonpositive : ¬ JsNumber.lt 0 limit = true) :
    { state with maxConcurrent := limit }.hasCapacity = false := by
  cases capacity : { state with maxConcurrent := limit }.hasCapacity with
  | false => rfl
  | true =>
    refine absurd ?_ nonpositive
    unfold LaneState.hasCapacity JsNumber.ofInt at capacity
    have counted : (0 : ℚ) ≤ ((state.activeTaskIds.card : ℤ) : ℚ) := by
      exact_mod_cast Int.natCast_nonneg _
    cases limit with
    | nan => simp [JsNumber.lt] at capacity
    | negInfinity => simp [JsNumber.lt] at capacity
    | infinity => rfl
    | finite bound =>
      simp only [JsNumber.lt, decide_eq_true_eq] at capacity
      simpa [OfNat.ofNat, JsNumber.lt] using lt_of_le_of_lt counted capacity

theorem setCommandLaneConcurrency_rested (maxConcurrent : JsNumber)
    (rested : RestedExcept [] world) : RestedExcept []
      (world.setCommandLaneConcurrency now lane maxConcurrent) := by
  have limited := modifyLane_rested (normalizeLane lane)
    (fun state => { state with
      maxConcurrent := concurrencyLimit (normalizeLane lane) maxConcurrent })
    (ensureLane_rested (normalizeLane lane) rested)
    (fun _ idle => idle)
  unfold setCommandLaneConcurrency
  dsimp only
  split
  · exact drainLane_rested now limited
  next nonpositive =>
    refine rested_of_saturated limited ?_
    intro state found _
    rw [modifyLane, get?_modify_self] at found
    obtain ⟨before, present, rfl⟩ := map_eq_some_iff.mp found
    exact hasCapacity_of_limit_nonpositive before nonpositive

theorem clearCommandLane_rested (rested : RestedExcept [] world) :
    RestedExcept [] (world.clearCommandLane lane) := by
  unfold clearCommandLane
  dsimp only
  split
  · exact rested
  · have cleared := modifyLane_rested (normalizeLane lane)
      (fun state => { state with queue := [] }) rested (fun _ idle => idle)
    have emptied := rested_of_saturated cleared (by
      intro state found nonempty
      rw [modifyLane, get?_modify_self] at found
      obtain ⟨before, present, rfl⟩ := map_eq_some_iff.mp found
      exact absurd rfl nonempty)
    exact ⟨emptied.notDraining, emptied.saturated⟩

theorem resetCommandLane_rested (rested : RestedExcept [] world) :
    RestedExcept [] (world.resetCommandLane now lane) := by
  have reset := modifyLane_rested (normalizeLane lane) LaneState.reset rested (fun _ _ => rfl)
  unfold resetCommandLane
  dsimp only
  split
  · exact rested
  next state present =>
    split
    · have drained := drainLane_rested now reset
      exact ⟨drained.notDraining, drained.saturated⟩
    next queueEmpty =>
      have saturated := rested_of_saturated reset (by
        intro after found nonempty
        rw [modifyLane, get?_modify_self, present] at found
        cases found
        exact absurd nonempty queueEmpty)
      exact ⟨saturated.notDraining, saturated.saturated⟩

theorem resetAllLanes_rested (named : ∀ ⦃name state⦄, world.lanes.get? name = some state →
        state.lane = name) : RestedExcept [] (world.resetAllLanes now) := by
  have drained := drainLanes_rested now
    ((world.lanes.values.filter fun state => state.queue ≠ []).map LaneState.lane)
    { world with
      gatewayDraining := false
      lanes := world.lanes.mapValues LaneState.reset } (by
    constructor
    · intro name state found
      rw [get?_mapValues] at found
      obtain ⟨before, present, rfl⟩ := map_eq_some_iff.mp found
      rfl
    · intro name state found notPending nonempty
      rw [get?_mapValues] at found
      obtain ⟨before, present, rfl⟩ := map_eq_some_iff.mp found
      refine absurd (List.mem_map.mpr ⟨before, ?_, named present⟩) notPending
      exact List.mem_filter.mpr
        ⟨mem_values_of_get? present, by simpa [LaneState.reset] using nonempty⟩)
  exact ⟨drained.notDraining, drained.saturated⟩

theorem finishTask_rested (task : RunningTask) (settlement : Settlement)
    (rested : RestedExcept [] world) : RestedExcept [] (world.finishTask now task settlement) := by
  rcases world.current_or_stale task with ⟨state, present, sameGeneration⟩ | stale
  · rw [finishTask_of_current now settlement present sameGeneration]
    have erased := modifyLane_rested task.lane
      (fun state => { state with activeTaskIds := state.activeTaskIds.erase task.taskId })
      rested (fun _ idle => idle)
    have pumped : RestedExcept [] (pump now task.lane
        ((world.removeRunning task).modifyLane task.lane fun state => { state with
            activeTaskIds := state.activeTaskIds.erase task.taskId }
          ).notifyActiveTaskWaiters) := by
      apply pump_rested
      · intro name other found _
        exact erased.notDraining found
      · intro name other found notPending nonempty
        exact erased.saturated found notPending nonempty
    exact ⟨pumped.notDraining, pumped.saturated⟩
  · rw [finishTask_of_stale now settlement stale]
    exact ⟨rested.notDraining, rested.saturated⟩

theorem waitForActiveTasks_lanes (world : World) (timeoutMs : Option JsNumber) :
    (world.waitForActiveTasks timeoutMs).lanes = world.lanes := by
  unfold waitForActiveTasks
  dsimp only
  split
  · rfl
  · split <;> rfl

end World

/-- Every section that starts at rest ends at rest. -/
theorem Step.rested {source target : World} {action : LaneAction} (step : Step source action target)
    (named : ∀ ⦃name state⦄, source.lanes.get? name = some state →
        state.lane = name) (rested : RestedExcept [] source) : RestedExcept [] target := by
  unfold Step World.step at step
  cases action with
  | enqueueCommandInLane now lane options =>
    cases step
    exact World.enqueueCommandInLane_rested now lane options rested
  | setCommandLaneConcurrency now lane maxConcurrent =>
    obtain rfl := Option.some.inj step
    exact World.setCommandLaneConcurrency_rested now lane _ rested
  | clearCommandLane lane =>
    cases step
    exact World.clearCommandLane_rested lane rested
  | resetCommandLane now lane =>
    cases step
    exact World.resetCommandLane_rested now lane rested
  | resetAllLanes now =>
    cases step
    exact World.resetAllLanes_rested now named
  | markGatewayDraining =>
    cases step
    exact ⟨rested.notDraining, rested.saturated⟩
  | taskSettles now taskId outcome =>
    obtain ⟨task, _, rfl⟩ := map_eq_some_iff.mp step
    exact World.finishTask_rested now task _ rested
  | timeoutFires now taskId progress =>
    obtain ⟨task, _, armed⟩ := bind_eq_some_iff.mp step
    obtain ⟨taskTimeoutMs, _, rfl⟩ := map_eq_some_iff.mp armed
    unfold World.armTimeout
    dsimp only
    split
    · exact World.finishTask_rested now task _ rested
    · exact rested
  | waitForActiveTasks timeoutMs =>
    cases step
    have sameLanes := source.waitForActiveTasks_lanes timeoutMs
    constructor
    · intro name state found
      exact rested.notDraining (sameLanes ▸ found)
    · intro name state found
      exact rested.saturated (sameLanes ▸ found)
  | waiterTimeout waiterId =>
    obtain ⟨waiter, _, rfl⟩ := map_eq_some_iff.mp step
    exact ⟨rested.notDraining, rested.saturated⟩

end CommandQueue
