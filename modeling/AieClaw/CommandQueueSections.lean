import AieClaw.CommandQueue

/-!
# What a synchronous section can do

Every section of the command queue is a sequence of small updates. This module
lists them once, as `Update`, and shows that each section decomposes into them.
The invariants of the queue are then proved by cases on `Update` alone.

Between two updates of one section the world may be in the middle of finishing
a task: its record is gone and its promise has not settled. `Moment` keeps the
sequence numbers of such promises next to the world.
-/

namespace CommandQueue

/-- A world inside a section, with the promises the section has in hand. -/
structure Moment where
  inHand : List Nat
  world : World

/-- Events that tell of no queue entry. -/
def LaneEvent.IsReport : LaneEvent → Prop
  | .enqueueRejected _ => True
  | .waiterResolved _ _ _ => True
  | _ => False

/-- The small updates that sections consist of. -/
inductive Update : Moment → Moment → Prop where
  | createLane
      {inHand : List Nat} {world : World} {lane : String} (absent : world.lanes.get? lane = none) :
      Update ⟨inHand, world⟩ ⟨inHand, { world with lanes := world.lanes.set lane (.created lane) }⟩
  | placeEntry
      {inHand : List Nat} {world : World} {lane : String} {state : LaneState} (entry : QueueEntry)
      (present : world.lanes.get? lane = some state)
      (numbered : entry.sequence = world.nextQueueSequence) :
      Update ⟨inHand, world⟩
        ⟨inHand, { world with
          lanes := world.lanes.modify lane fun current => enqueueLaneEntry current entry
          nextQueueSequence := entry.sequence + 1
          events := world.events ++ [.enqueued lane entry.sequence] }⟩
  | startEntry
      {inHand : List Nat} {world : World} {lane : String} {state : LaneState} {entry : QueueEntry}
      {rest : List QueueEntry} (now : ℤ) (present : world.lanes.get? lane = some state)
      (queued : state.queue = entry :: rest) (capacity : state.hasCapacity) :
      Update ⟨inHand, world⟩ ⟨inHand, World.startEntry now lane world state entry rest⟩
  | setDraining
      {inHand : List Nat} {world : World} (lane : String) (draining : Bool) :
      Update ⟨inHand, world⟩
        ⟨inHand, world.modifyLane lane fun state => { state with draining := draining }⟩
  | setLimit
      {inHand : List Nat} {world : World} {limit : JsNumber} (lane : String)
      (numeric : limit ≠ .nan) :
      Update ⟨inHand, world⟩
        ⟨inHand, world.modifyLane lane fun state => { state with maxConcurrent := limit }⟩
  | clearQueue
      {inHand : List Nat} {world : World} {lane : String} {state : LaneState} (error : LaneError)
      (present : world.lanes.get? lane = some state) :
      Update ⟨inHand, world⟩
        ⟨inHand, (world.modifyLane lane fun cleared => { cleared with queue := [] }).record
          (state.queue.flatMap fun entry =>
            [.cleared lane entry.sequence, .settled entry.sequence (.rejected error)])⟩
  | resetLane
      {inHand : List Nat} {world : World} (lane : String) :
      Update ⟨inHand, world⟩ ⟨inHand, world.modifyLane lane LaneState.reset⟩
  | resetLanes
      {inHand : List Nat} {world : World} :
      Update ⟨inHand, world⟩
        ⟨inHand, { world with
          gatewayDraining := false
          lanes := world.lanes.mapValues LaneState.reset }⟩
  | takeTask
      {inHand : List Nat} {world : World} {task : RunningTask}
      (found : world.findRunning task.taskId = some task) :
      Update ⟨inHand, world⟩ ⟨task.entry.sequence :: inHand, world.removeRunning task⟩
  | completeTask
      {inHand : List Nat} {world : World} {task : RunningTask} {state : LaneState}
      (found : world.findRunning task.taskId = some task)
      (present : world.lanes.get? task.lane = some state)
      (current : task.taskGeneration = state.generation) :
      Update ⟨inHand, world⟩
        ⟨task.entry.sequence :: inHand,
          (world.removeRunning task).modifyLane task.lane fun state =>
            { state with
              activeTaskIds := state.activeTaskIds.erase task.taskId }⟩
  | settle
      {inHand : List Nat} {world : World} (sequence : Nat) (settlement : Settlement) :
      Update ⟨sequence :: inHand, world⟩ ⟨inHand, world.record [.settled sequence settlement]⟩
  | report
      {inHand : List Nat} {world : World} (gatewayDraining : Bool)
      (activeTaskWaiters : List ActiveTaskWaiter) (nextWaiterId : Nat) {events : List LaneEvent}
      (reports : ∀ event ∈ events, event.IsReport) :
      Update ⟨inHand, world⟩
        ⟨inHand, { world with
          gatewayDraining := gatewayDraining
          activeTaskWaiters := activeTaskWaiters
          nextWaiterId := nextWaiterId
          events := world.events ++ events }⟩

/-- Finitely many updates. -/
abbrev Updates : Moment → Moment → Prop := Relation.ReflTransGen Update

/-- A property of moments that every update carries across. -/
def KeptByUpdates (holds : Moment → Prop) : Prop :=
  ∀ ⦃before after⦄, Update before after → holds before → holds after

theorem KeptByUpdates.updates {holds : Moment → Prop} (kept : KeptByUpdates holds)
    {before after : Moment} (updates : Updates before after) (initially : holds before) :
    holds after := by
  induction updates with
  | refl => exact initially
  | tail earlier last inductionHypothesis => exact kept last inductionHypothesis

namespace World

variable {inHand : List Nat} {world : World} {task : RunningTask} {maxConcurrent : JsNumber}

theorem ensureLane_updates (world : World) (lane : String) :
    Updates ⟨inHand, world⟩ ⟨inHand, world.ensureLane lane⟩ := by
  unfold ensureLane OrderedMap.has
  cases found : world.lanes.get? lane with
  | none => simpa using .single (Update.createLane found)
  | some state => simpa using .refl

theorem exists_lane_ensureLane (world : World) (lane : String) :
    ∃ state, (world.ensureLane lane).lanes.get? lane = some state := by
  unfold ensureLane OrderedMap.has
  cases found : world.lanes.get? lane with
  | none => exact ⟨.created lane, by simp⟩
  | some state => exact ⟨state, by simpa using found⟩

section

variable (now : ℤ)

theorem pumpLoop_updates (lane : String) {queue : List QueueEntry}
    {state : LaneState} (present : world.lanes.get? lane = some state)
    (queued : state.queue = queue) :
    Updates ⟨inHand, world⟩ ⟨inHand, pumpLoop now lane queue world⟩ := by
  induction queue generalizing world state with
  | nil => exact .refl
  | cons entry rest inductionHypothesis =>
    simp only [pumpLoop, present]
    split
    next capacity =>
      have started :
          Update ⟨inHand, world⟩ ⟨inHand, World.startEntry now lane world state entry rest⟩ :=
        Update.startEntry now present queued capacity
      have restPresent : (World.startEntry now lane world state entry rest).lanes.get? lane =
            some { state with
              queue := rest
              activeTaskIds :=
                insert world.nextTaskId state.activeTaskIds } := by
        simp [World.startEntry]
      exact .head started (inductionHypothesis restPresent rfl)
    next => exact .refl

theorem pump_updates (lane : String) (world : World) :
    Updates ⟨inHand, world⟩ ⟨inHand, pump now lane world⟩ := by
  unfold pump
  cases present : world.lanes.get? lane with
  | none => exact .refl
  | some state =>
    exact (pumpLoop_updates now lane present rfl).tail (Update.setDraining lane false)

theorem drainLane_updates (lane : String) (world : World) :
    Updates ⟨inHand, world⟩ ⟨inHand, drainLane now lane world⟩ := by
  obtain ⟨state, present⟩ := world.exists_lane_ensureLane lane
  unfold drainLane
  simp only [present]
  split
  · exact world.ensureLane_updates lane
  · exact ((world.ensureLane_updates lane).tail
      (Update.setDraining lane true)).trans (pump_updates now lane _)

theorem notifyActiveTaskWaiters_updates (world : World) :
    Updates ⟨inHand, world⟩ ⟨inHand, world.notifyActiveTaskWaiters⟩ := by
  refine .single (Update.report world.gatewayDraining _ world.nextWaiterId ?_)
  intro event member
  obtain ⟨waiter, _, same⟩ := List.mem_map.mp member
  subst same
  trivial

theorem findRunning_self {taskId : Nat}
    (found : world.findRunning taskId = some task) : world.findRunning task.taskId = some task := by
  have same : task.taskId = taskId := by
    simpa using List.find?_some found
  rw [same]
  exact found

theorem finishTask_of_current {state : LaneState} (settlement : Settlement)
    (present : world.lanes.get? task.lane = some state)
    (current : task.taskGeneration = state.generation) : world.finishTask now task settlement =
      (pump now task.lane ((world.removeRunning task).modifyLane task.lane fun state => { state with
            activeTaskIds := state.activeTaskIds.erase task.taskId }
          ).notifyActiveTaskWaiters).record
        [.settled task.entry.sequence settlement] := by
  have lanePresent : (world.removeRunning task).lanes.get? task.lane = some state := present
  simp [finishTask, completeTask, lanePresent, current]

theorem finishTask_of_stale (settlement : Settlement)
    (stale : ∀ state, world.lanes.get? task.lane = some state →
        task.taskGeneration ≠ state.generation) : world.finishTask now task settlement =
      (world.removeRunning task).record [.settled task.entry.sequence settlement] := by
  cases present : world.lanes.get? task.lane with
  | none =>
    have laneAbsent : (world.removeRunning task).lanes.get? task.lane = none := present
    simp [finishTask, completeTask, laneAbsent]
  | some state =>
    have lanePresent : (world.removeRunning task).lanes.get? task.lane = some state := present
    simp [finishTask, completeTask, lanePresent, stale state present]

theorem current_or_stale (world : World) (task : RunningTask) :
    (∃ state, world.lanes.get? task.lane = some state ∧ task.taskGeneration = state.generation) ∨
      ∀ state, world.lanes.get? task.lane = some state → task.taskGeneration ≠ state.generation :=
  or_iff_not_imp_left.mpr fun notCurrent state present sameGeneration =>
    notCurrent ⟨state, present, sameGeneration⟩

theorem finishTask_updates (world : World)
    (settlement : Settlement) (found : world.findRunning task.taskId = some task) :
    Updates ⟨inHand, world⟩ ⟨inHand, world.finishTask now task settlement⟩ := by
  rcases world.current_or_stale task with ⟨state, present, sameGeneration⟩ | stale
  · rw [finishTask_of_current now settlement present sameGeneration]
    refine .tail ?_ (Update.settle task.entry.sequence settlement)
    exact .head (Update.completeTask found present sameGeneration)
      ((notifyActiveTaskWaiters_updates _).trans (pump_updates now task.lane _))
  · rw [finishTask_of_stale now settlement stale]
    exact (Relation.ReflTransGen.single (Update.takeTask found)).tail
      (Update.settle task.entry.sequence settlement)

theorem concurrencyLimit_ne_nan (lane : String)
    (numeric : maxConcurrent ≠ .nan) : concurrencyLimit lane maxConcurrent ≠ .nan := by
  refine JsNumber.max_ne_nan ?_ (JsNumber.floor_ne_nan numeric)
  split <;> exact JsNumber.noConfusion

theorem setCommandLaneConcurrency_updates (world : World) (lane : String)
    (numeric : maxConcurrent ≠ .nan) : Updates ⟨inHand, world⟩
      ⟨inHand, world.setCommandLaneConcurrency now lane maxConcurrent⟩ := by
  have limited : Updates ⟨inHand, world⟩ ⟨inHand, _⟩ :=
    (world.ensureLane_updates (normalizeLane lane)).tail
      (Update.setLimit (normalizeLane lane) (concurrencyLimit_ne_nan (normalizeLane lane) numeric))
  unfold setCommandLaneConcurrency
  dsimp only
  split
  · exact limited.trans (drainLane_updates now _ _)
  · exact limited

theorem enqueueCommandInLane_updates (world : World) (lane : String)
    (options : CommandQueueEnqueueOptions) : Updates ⟨inHand, world⟩
      ⟨inHand, world.enqueueCommandInLane now lane options⟩ := by
  unfold enqueueCommandInLane
  split
  · exact .single (Update.report world.gatewayDraining world.activeTaskWaiters
        world.nextWaiterId (by simp [LaneEvent.IsReport]))
  · obtain ⟨state, present⟩ := world.exists_lane_ensureLane (normalizeLane lane)
    have placed : Update ⟨inHand, world.ensureLane (normalizeLane lane)⟩ _ :=
      Update.placeEntry
      { enqueuedAt := now
        sequence := (world.ensureLane (normalizeLane lane)).nextQueueSequence
        priority := resolveQueuePriority options.priority
        warnAfterMs := options.warnAfterMs.getD 2000
        queuedAheadAtEnqueue := 0
        activeAheadAtEnqueue := 0
        taskTimeoutMs := normalizeTaskTimeoutMs options.taskTimeoutMs }
      present rfl
    exact ((world.ensureLane_updates (normalizeLane lane)).tail placed).trans
      (drainLane_updates now _ _)

theorem clearCommandLane_updates (world : World) (lane : String) :
    Updates ⟨inHand, world⟩ ⟨inHand, world.clearCommandLane lane⟩ := by
  unfold clearCommandLane
  dsimp only
  cases present : world.lanes.get? (normalizeLane lane) with
  | none => exact .refl
  | some state => exact .single (Update.clearQueue _ present)

theorem resetCommandLane_updates (world : World) (lane : String) :
    Updates ⟨inHand, world⟩ ⟨inHand, world.resetCommandLane now lane⟩ := by
  unfold resetCommandLane
  dsimp only
  cases present : world.lanes.get? (normalizeLane lane) with
  | none => exact .refl
  | some state =>
    refine .head (Update.resetLane (normalizeLane lane)) ?_
    refine Relation.ReflTransGen.trans ?_ (notifyActiveTaskWaiters_updates _)
    split
    · exact drainLane_updates now _ _
    · exact .refl

theorem drainLanes_updates (lanes : List String) (world : World) : Updates ⟨inHand, world⟩
      ⟨inHand, lanes.foldl (fun world lane => drainLane now lane world) world⟩ := by
  induction lanes generalizing world with
  | nil => exact .refl
  | cons lane rest inductionHypothesis =>
    exact (drainLane_updates now lane world).trans (inductionHypothesis _)

theorem resetAllLanes_updates (world : World) :
    Updates ⟨inHand, world⟩ ⟨inHand, world.resetAllLanes now⟩ := by
  refine .head Update.resetLanes ?_
  exact (drainLanes_updates now _ _).trans (notifyActiveTaskWaiters_updates _)

end

theorem waitForActiveTasks_updates (world : World) (timeoutMs : Option JsNumber) :
    Updates ⟨inHand, world⟩ ⟨inHand, world.waitForActiveTasks timeoutMs⟩ := by
  unfold waitForActiveTasks
  dsimp only
  split
  · exact .single (Update.report world.gatewayDraining world.activeTaskWaiters
        (world.nextWaiterId + 1) (by simp [LaneEvent.IsReport]))
  · split
    · exact .single (Update.report world.gatewayDraining world.activeTaskWaiters
          (world.nextWaiterId + 1) (by simp [LaneEvent.IsReport]))
    · have waiting : Update ⟨inHand, world⟩ ⟨inHand, { world with
            nextWaiterId := _
            activeTaskWaiters := _
            events := world.events ++ [] }⟩ :=
        Update.report world.gatewayDraining
        (world.activeTaskWaiters ++ [{
          waiterId := world.nextWaiterId
          activeTaskIds := world.activeTaskIds
          timeoutMs := timeoutMs }])
        (world.nextWaiterId + 1) (by simp)
      rw [List.append_nil] at waiting
      exact .head waiting (notifyActiveTaskWaiters_updates _)

end World

/-- Every section of the queue is a sequence of updates. -/
theorem Step.updates {source target : World} {action : LaneAction}
    (step : Step source action target) : Updates ⟨[], source⟩ ⟨[], target⟩ := by
  unfold Step World.step at step
  cases action with
  | enqueueCommandInLane now lane options =>
    cases step
    exact World.enqueueCommandInLane_updates now source lane options
  | setCommandLaneConcurrency now lane maxConcurrent =>
    obtain rfl := Option.some.inj step
    exact World.setCommandLaneConcurrency_updates now source lane maxConcurrent.property
  | clearCommandLane lane =>
    cases step
    exact source.clearCommandLane_updates lane
  | resetCommandLane now lane =>
    cases step
    exact World.resetCommandLane_updates now source lane
  | resetAllLanes now =>
    cases step
    exact World.resetAllLanes_updates now source
  | markGatewayDraining =>
    cases step
    have marked : Update ⟨[], source⟩ ⟨[], { source with
          gatewayDraining := true
          events := source.events ++ [] }⟩ :=
      Update.report true source.activeTaskWaiters source.nextWaiterId (by simp)
    rw [List.append_nil] at marked
    exact .single marked
  | taskSettles now taskId outcome =>
    obtain ⟨task, found, rfl⟩ := Option.map_eq_some_iff.mp step
    exact World.finishTask_updates now source outcome.settlement (World.findRunning_self found)
  | timeoutFires now taskId progress =>
    obtain ⟨task, found, armed⟩ := Option.bind_eq_some_iff.mp step
    obtain ⟨taskTimeoutMs, _, rfl⟩ := Option.map_eq_some_iff.mp armed
    unfold World.armTimeout
    dsimp only
    split
    · exact World.finishTask_updates now source _ (World.findRunning_self found)
    · exact .refl
  | waitForActiveTasks timeoutMs =>
    cases step
    exact source.waitForActiveTasks_updates timeoutMs
  | waiterTimeout waiterId =>
    obtain ⟨waiter, _, rfl⟩ := Option.map_eq_some_iff.mp step
    exact .single (Update.report source.gatewayDraining
        (source.activeTaskWaiters.filter (· ≠ waiter))
        source.nextWaiterId (by simp [LaneEvent.IsReport]))

theorem Reachable.of_keptByUpdates {holds : Moment → Prop} (kept : KeptByUpdates holds)
    (initially : holds ⟨[], World.initial⟩) {world : World} (reachable : Reachable world) :
    holds ⟨[], world⟩ := by
  have preserved : TransitionSystem.Preserves Step fun world => holds ⟨[], world⟩ := by
    intro source action target step sourceHolds
    exact kept.updates step.updates sourceHolds
  refine TransitionSystem.Reachable.invariant ?_ preserved reachable
  rintro state rfl
  exact initially

end CommandQueue
