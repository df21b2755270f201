import AieClaw.CommandQueueLanes

/-!
# Completions and lane generations

A task remembers the generation its lane had when it started. While the lane
keeps that generation the task id is active; a reset moves the lane to a later
generation, and from then on the completion of the task leaves every lane alone.
-/

namespace CommandQueue

open List

/-- What holds of a running task in the lanes of its world. -/
structure RunningTask.Sound (nextTaskId : Nat) (lanes : OrderedMap String LaneState)
    (task : RunningTask) : Prop where
  numbered : task.taskId < nextTaskId
  inLane :
    ∃ state,
      lanes.get? task.lane = some state ∧
        task.taskGeneration ≤ state.generation ∧
        (task.taskGeneration = state.generation → task.taskId ∈ state.activeTaskIds)

/-- Running tasks have distinct ids and are sound. -/
structure TasksSound (moment : Moment) : Prop where
  distinct : (moment.world.running.map RunningTask.taskId).Nodup
  sound : ∀ task ∈ moment.world.running, task.Sound moment.world.nextTaskId moment.world.lanes

namespace RunningTask.Sound

variable {nextTaskId : Nat} {lanes : OrderedMap String LaneState} {task : RunningTask}
  {lane : String}

section

variable (sound : task.Sound nextTaskId lanes)
include sound

theorem set {state written : LaneState} {laterTaskId : Nat} (present : lanes.get? lane = some state)
    (generationGrows : state.generation ≤ written.generation)
    (staysActive : state.generation = written.generation →
      task.taskId ∈ state.activeTaskIds →
      task.taskId ∈ written.activeTaskIds) (taskIdGrows : nextTaskId ≤ laterTaskId) :
    task.Sound laterTaskId (lanes.set lane written) := by
  obtain ⟨numbered, before, found, notNewer, active⟩ := sound
  refine ⟨Nat.lt_of_lt_of_le numbered taskIdGrows, ?_⟩
  by_cases same : task.lane = lane
  · rw [same, present] at found
    cases found
    refine ⟨written, by rw [same, OrderedMap.get?_set_self],
      Nat.le_trans notNewer generationGrows, ?_⟩
    intro current
    have sameGeneration : state.generation = written.generation := by
      omega
    exact staysActive sameGeneration (active (by omega))
  · exact ⟨before, by rw [OrderedMap.get?_set_of_ne same, found], notNewer, active⟩

theorem modify {change : LaneState → LaneState}
    (generationGrows : ∀ state, state.generation ≤ (change state).generation)
    (staysActive : ∀ state, state.generation = (change state).generation →
        task.taskId ∈ state.activeTaskIds →
        task.taskId ∈ (change state).activeTaskIds) :
    task.Sound nextTaskId (lanes.modify lane change) := by
  cases present : lanes.get? lane with
  | none => simpa only [OrderedMap.modify, present] using sound
  | some state =>
    simpa only [OrderedMap.modify, present] using
      sound.set present (generationGrows state) (staysActive state) (Nat.le_refl _)

theorem create
    (absent : lanes.get? lane = none) : task.Sound nextTaskId (lanes.set lane (.created lane)) := by
  obtain ⟨numbered, before, found, notNewer, active⟩ := sound
  have differs : task.lane ≠ lane := by
    intro same
    rw [same, absent] at found
    cases found
  exact ⟨numbered, before, by rw [OrderedMap.get?_set_of_ne differs, found], notNewer, active⟩

theorem reset : task.Sound nextTaskId (lanes.mapValues LaneState.reset) := by
  obtain ⟨numbered, before, found, notNewer, _⟩ := sound
  refine ⟨numbered, before.reset, ?_, ?_, ?_⟩
  · rw [OrderedMap.get?_mapValues, found, Option.map_some]
  · exact Nat.le_succ_of_le notNewer
  · intro current
    simp only [LaneState.reset] at current
    omega

end

end RunningTask.Sound

private theorem running_removeRunning_sublist (world : World) (task : RunningTask) :
    (world.removeRunning task).running.Sublist world.running :=
  eraseP_sublist

theorem taskId_ne_of_mem_removeRunning {world : World} {task other : RunningTask}
    (distinct : (world.running.map RunningTask.taskId).Nodup)
    (found : world.findRunning task.taskId = some task)
    (member : other ∈ (world.removeRunning task).running) : other.taskId ≠ task.taskId := by
  unfold World.findRunning at found
  obtain ⟨_, before, after, shape, noneBefore⟩ := find?_eq_some_iff_append.mp found
  have removed : (world.removeRunning task).running = before ++ after := by
    unfold World.removeRunning
    rw [shape, eraseP_append_right]
    · simp
    · intro earlier inBefore
      simpa using noneBefore earlier inBefore
  rw [removed, mem_append] at member
  rcases member with inBefore | inAfter
  · simpa using noneBefore other inBefore
  · rw [shape, map_append, map_cons] at distinct
    have tailDistinct := (nodup_append.mp distinct).2.1
    intro same
    refine (nodup_cons.mp tailDistinct).1 ?_
    exact mem_map.mpr ⟨other, inAfter, same⟩

theorem tasksSound_initial : TasksSound ⟨[], World.initial⟩ where
  distinct := nodup_nil
  sound := by simp [World.initial]

theorem tasksSound_startEntry {inHand : List Nat} {world : World} {lane : String}
    {state : LaneState} {entry : QueueEntry} {rest : List QueueEntry}
    (tasks : TasksSound ⟨inHand, world⟩) (now : ℤ) (present : world.lanes.get? lane = some state) :
    TasksSound ⟨inHand, World.startEntry now lane world state entry rest⟩ := by
  constructor
  · simp only [World.startEntry, map_append, map_cons, map_nil]
    refine List.Nodup.append tasks.distinct (nodup_singleton _) ?_
    rw [disjoint_singleton]
    intro member
    obtain ⟨task, inRunning, same⟩ := mem_map.mp member
    have numbered := (tasks.sound task inRunning).numbered
    dsimp only at numbered
    omega
  · intro task member
    rcases mem_append.mp member with old | new
    · refine (tasks.sound task old).set present (Nat.le_refl _) ?_ (Nat.le_succ _)
      intro _ active
      exact Finset.mem_insert_of_mem active
    · obtain rfl := mem_singleton.mp new
      refine ⟨Nat.lt_succ_self _, _, OrderedMap.get?_set_self _ _ _, Nat.le_refl _, ?_⟩
      intro _
      exact Finset.mem_insert_self _ _

/-- Updates keep the running tasks sound. -/
theorem tasksSound_kept : KeptByUpdates TasksSound := by
  intro before after update tasks
  cases update with
  | createLane absent =>
    exact ⟨tasks.distinct, fun task member => (tasks.sound task member).create absent⟩
  | placeEntry entry present numbered =>
    exact ⟨tasks.distinct, fun task member =>
      (tasks.sound task member).modify (fun _ => Nat.le_refl _) (fun _ _ active => active)⟩
  | startEntry now present queued capacity => exact tasksSound_startEntry tasks now present
  | setDraining lane draining =>
    exact ⟨tasks.distinct, fun task member =>
      (tasks.sound task member).modify (fun _ => Nat.le_refl _) (fun _ _ active => active)⟩
  | setLimit lane numeric =>
    exact ⟨tasks.distinct, fun task member =>
      (tasks.sound task member).modify (fun _ => Nat.le_refl _) (fun _ _ active => active)⟩
  | clearQueue error present =>
    exact ⟨tasks.distinct, fun task member =>
      (tasks.sound task member).modify (fun _ => Nat.le_refl _) (fun _ _ active => active)⟩
  | resetLane lane =>
    refine ⟨tasks.distinct, fun task member =>
      (tasks.sound task member).modify (fun _ => Nat.le_succ _) ?_⟩
    intro state sameGeneration
    exact absurd sameGeneration (Nat.ne_of_lt (Nat.lt_succ_self _))
  | resetLanes => exact ⟨tasks.distinct, fun task member => (tasks.sound task member).reset⟩
  | @takeTask inHand world task found =>
    have sublist := running_removeRunning_sublist world task
    exact ⟨tasks.distinct.sublist (sublist.map RunningTask.taskId),
      fun other member => tasks.sound other (sublist.subset member)⟩
  | @completeTask inHand world task state found present current =>
    have sublist := running_removeRunning_sublist world task
    refine ⟨tasks.distinct.sublist (sublist.map RunningTask.taskId), ?_⟩
    intro other member
    refine (tasks.sound other (sublist.subset member)).modify (fun _ => Nat.le_refl _) ?_
    intro _ _ active
    exact Finset.mem_erase.mpr ⟨taskId_ne_of_mem_removeRunning tasks.distinct found member, active⟩
  | settle sequence settlement => exact ⟨tasks.distinct, tasks.sound⟩
  | report gatewayDraining activeTaskWaiters nextWaiterId reports =>
    exact ⟨tasks.distinct, tasks.sound⟩

theorem Reachable.tasksSound {world : World} (reachable : Reachable world) :
    TasksSound ⟨[], world⟩ :=
  reachable.of_keptByUpdates tasksSound_kept tasksSound_initial

namespace World

theorem mem_activeTaskIds_pumpLoop (now : ℤ) {lane : String} (queue : List QueueEntry)
    {world : World} {state : LaneState} (present : world.lanes.get? lane = some state) : ∃ pumped,
      (pumpLoop now lane queue world).lanes.get? lane = some pumped ∧
        ∀ taskId < world.nextTaskId,
          taskId ∈ pumped.activeTaskIds ↔ taskId ∈ state.activeTaskIds := by
  induction queue generalizing world state with
  | nil => exact ⟨state, present, fun _ _ => Iff.rfl⟩
  | cons entry rest inductionHypothesis =>
    by_cases capacity : state.hasCapacity = true
    · have restPresent : (startEntry now lane world state entry rest).lanes.get? lane =
            some { state with
              queue := rest
              activeTaskIds :=
                insert world.nextTaskId state.activeTaskIds } := by
        simp [startEntry]
      obtain ⟨pumped, found, sameOld⟩ := inductionHypothesis restPresent
      refine ⟨pumped, ?_, ?_⟩
      · simpa [pumpLoop, present, capacity] using found
      · intro taskId old
        rw [sameOld taskId (Nat.lt_succ_of_lt old), Finset.mem_insert]
        exact or_iff_right (Nat.ne_of_lt old)
    · refine ⟨state, ?_, fun _ _ => Iff.rfl⟩
      simp [pumpLoop, present, capacity]

theorem mem_activeTaskIds_pump (now : ℤ) {lane : String} {world : World} {state : LaneState}
    (present : world.lanes.get? lane = some state) : ∃ pumped,
      (pump now lane world).lanes.get? lane = some pumped ∧
        ∀ taskId < world.nextTaskId,
          taskId ∈ pumped.activeTaskIds ↔ taskId ∈ state.activeTaskIds := by
  obtain ⟨pumped, found, sameOld⟩ := mem_activeTaskIds_pumpLoop now state.queue present
  refine ⟨{ pumped with draining := false }, ?_, sameOld⟩
  simp [pump, present, modifyLane, OrderedMap.get?_modify_self, found]

theorem pump_other (now : ℤ) {lane name : String} (differs : name ≠ lane) (world : World) :
    (pump now lane world).lanes.get? name = world.lanes.get? name := by
  unfold pump
  split
  next => rfl
  next state present =>
    exact (OrderedMap.get?_modify_of_ne differs _).trans
      (pumpLoop_other now differs state.queue world)

end World

/-- The step runs the continuation of the task. -/
def Completes (source : World) (action : LaneAction) (task : RunningTask) : Prop :=
  source.findRunning task.taskId = some task ∧
    ((∃ now outcome, action = .taskSettles now task.taskId outcome) ∨
      ∃ now progress taskTimeoutMs,
        action = .timeoutFires now task.taskId progress ∧
        normalizeTaskTimeoutMs (task.entry.taskTimeoutMs.map .ofInt) = some taskTimeoutMs ∧
        taskTimeoutMs ≤ max 0 (now - World.readLastProgressAtMs task.startedAtMs progress))

theorem Completes.eq_finishTask {source target : World} {action : LaneAction}
    {task : RunningTask} (completes : Completes source action task)
    (step : Step source action target) :
    ∃ now settlement, target = source.finishTask now task settlement := by
  obtain ⟨found, settles | fires⟩ := completes
  · obtain ⟨now, outcome, rfl⟩ := settles
    simp only [Step, World.step, found, Option.map_some, Option.some.injEq] at step
    exact ⟨now, outcome.settlement, step.symm⟩
  · obtain ⟨now, progress, taskTimeoutMs, rfl, limited, elapsed⟩ := fires
    have expired : taskTimeoutMs - max 0 (now -
          World.readLastProgressAtMs task.startedAtMs progress) ≤ 0 := by
      omega
    simp only [Step, World.step, found, Option.bind_some, limited,
      Option.map_some, Option.some.injEq, World.armTimeout, expired, if_true] at step
    exact ⟨now, _, step.symm⟩

/--
What the completion of a task does to the lanes: nothing at all when its lane
has moved to a later generation, and otherwise it frees exactly the id of the
task among the ids that were handed out so far.
-/
def CompletionGuarantee (source target : World) (task : RunningTask) : Prop :=
  ∃ state,
    source.lanes.get? task.lane = some state ∧
      ((task.taskGeneration < state.generation ∧
          target.lanes = source.lanes ∧
          target.nextTaskId = source.nextTaskId ∧
          target.startedSequences = source.startedSequences) ∨
        (task.taskGeneration = state.generation ∧
          task.taskId ∈ state.activeTaskIds ∧
          (∃ after,
            target.lanes.get? task.lane = some after ∧
              ∀ taskId < source.nextTaskId,
                taskId ∈ after.activeTaskIds ↔
                  taskId ∈ state.activeTaskIds ∧ taskId ≠ task.taskId) ∧
          ∀ name,
            name ≠ task.lane →
            target.lanes.get? name = source.lanes.get? name))

theorem completionGuarantee_of_finishTask {source : World} {task : RunningTask}
    (reachable : Reachable source) (found : source.findRunning task.taskId = some task)
    (now : ℤ) (settlement : Settlement) : CompletionGuarantee source
      (source.finishTask now task settlement) task := by
  have member : task ∈ source.running := mem_of_find?_eq_some found
  obtain ⟨_, state, present, notNewer, active⟩ := reachable.tasksSound.sound task member
  refine ⟨state, present, ?_⟩
  rcases Nat.lt_or_eq_of_le notNewer with older | current
  · left
    have stale : ∀ other, source.lanes.get? task.lane = some other →
          task.taskGeneration ≠ other.generation := by
      intro other otherFound
      have same : other = state := Option.some.inj (otherFound.symm.trans present)
      subst same
      exact Nat.ne_of_lt older
    rw [World.finishTask_of_stale now settlement stale]
    refine ⟨older, rfl, rfl, ?_⟩
    simp [World.startedSequences, World.record, World.removeRunning,
      filterMap_cons, LaneEvent.startedSequence?]
  · right
    refine ⟨current, active current, ?_, ?_⟩
    · rw [World.finishTask_of_current now settlement present current]
      have erased : (((source.removeRunning task).modifyLane task.lane fun state => { state with
              activeTaskIds := state.activeTaskIds.erase task.taskId }
            ).notifyActiveTaskWaiters).lanes.get? task.lane =
              some { state with
                activeTaskIds :=
                  state.activeTaskIds.erase task.taskId } := by
        simp only [World.notifyActiveTaskWaiters, World.modifyLane, OrderedMap.get?_modify_self]
        exact congrArg _ present
      obtain ⟨pumped, pumpedFound, sameOld⟩ := World.mem_activeTaskIds_pump now erased
      refine ⟨pumped, pumpedFound, ?_⟩
      intro taskId old
      rw [sameOld taskId old, Finset.mem_erase]
      exact and_comm
    · intro name differs
      rw [World.finishTask_of_current now settlement present current]
      exact (World.pump_other now differs _).trans (OrderedMap.get?_modify_of_ne differs _)

end CommandQueue
