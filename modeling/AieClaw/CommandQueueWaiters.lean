import AieClaw.CommandQueueGenerations

/-!
# Waiters resolve when their tasks are gone

A section first changes the lanes, then notifies the waiters, and may start
further tasks after that. Started tasks have fresh ids, so a waiter that the
notification leaves pending still waits for an active task when the section
ends, and a waiter that it resolves has none.
-/

namespace CommandQueue

open OrderedMap World List

/-- A task id is active in some lane. -/
def World.IsActive (world : World) (taskId : Nat) : Prop :=
  ∃ name state, world.lanes.get? name = some state ∧ taskId ∈ state.activeTaskIds

/-- The end of a wait: who waited, for which ids, and with which result. -/
structure Resolution where
  waiterId : Nat
  activeTaskIds : Finset Nat
  drained : Bool

def LaneEvent.resolution? : LaneEvent → Option Resolution
  | .waiterResolved waiterId activeTaskIds drained => some ⟨waiterId, activeTaskIds, drained⟩
  | _ => none

/-- The waits that have ended, oldest first. -/
def World.resolutions (world : World) : List Resolution :=
  world.events.filterMap LaneEvent.resolution?

/-- The waiters are untouched and no id that was handed out comes back. -/
structure Unrevived (source target : World) : Prop where
  sameWaiters : target.activeTaskWaiters = source.activeTaskWaiters
  sameResolutions : target.resolutions = source.resolutions
  idsGrow : source.nextTaskId ≤ target.nextTaskId
  noneRevived :
    ∀ taskId < source.nextTaskId,
      target.IsActive taskId →
      source.IsActive taskId

/-- Moreover, every active id stays active. -/
structure Undisturbed (source target : World) : Prop
    extends Unrevived source target where
  noneLost :
    ∀ taskId,
      source.IsActive taskId →
      target.IsActive taskId

namespace Unrevived

theorem trans {first second third : World} (earlier : Unrevived first second)
    (later : Unrevived second third) : Unrevived first third where
  sameWaiters := later.sameWaiters.trans earlier.sameWaiters
  sameResolutions := later.sameResolutions.trans earlier.sameResolutions
  idsGrow := Nat.le_trans earlier.idsGrow later.idsGrow
  noneRevived := fun taskId old active =>
    earlier.noneRevived taskId old
      (later.noneRevived taskId (Nat.lt_of_lt_of_le old earlier.idsGrow) active)

theorem modifyLane (world : World) (lane : String) {change : LaneState → LaneState}
    (shrinks : ∀ state, (change state).activeTaskIds ⊆ state.activeTaskIds) :
    Unrevived world (world.modifyLane lane change) where
  sameWaiters := rfl
  sameResolutions := rfl
  idsGrow := Nat.le_refl _
  noneRevived := by
    rintro taskId _ ⟨name, state, found, active⟩
    by_cases same : name = lane
    · subst same
      rw [World.modifyLane, get?_modify_self] at found
      obtain ⟨before, present, rfl⟩ := Option.map_eq_some_iff.mp found
      exact ⟨name, before, present, shrinks before active⟩
    · rw [World.modifyLane, get?_modify_of_ne same] at found
      exact ⟨name, state, found, active⟩

end Unrevived

namespace Undisturbed

variable (now : ℤ) (lane : String) (world : World)

theorem refl : Undisturbed world world where
  sameWaiters := rfl
  sameResolutions := rfl
  idsGrow := Nat.le_refl _
  noneRevived := fun _ _ active => active
  noneLost := fun _ active => active

theorem trans {first second third : World} (earlier : Undisturbed first second)
    (later : Undisturbed second third) : Undisturbed first third where
  toUnrevived := earlier.toUnrevived.trans later.toUnrevived
  noneLost := fun taskId active => later.noneLost taskId (earlier.noneLost taskId active)

theorem modifyLane (lane : String) {change : LaneState → LaneState}
    (sameActive : ∀ state, (change state).activeTaskIds = state.activeTaskIds) :
    Undisturbed world (world.modifyLane lane change) where
  toUnrevived := Unrevived.modifyLane world lane fun state => (sameActive state).subset
  noneLost := by
    rintro taskId ⟨name, state, present, active⟩
    by_cases same : name = lane
    · subst same
      refine ⟨name, change state, ?_, by rwa [sameActive]⟩
      rw [World.modifyLane, get?_modify_self, present, Option.map_some]
    · refine ⟨name, state, ?_, active⟩
      rw [World.modifyLane, get?_modify_of_ne same, present]

theorem record {events : List LaneEvent} (silent : events.filterMap LaneEvent.resolution? = []) :
    Undisturbed world (world.record events) where
  sameWaiters := rfl
  sameResolutions := by
    simp [resolutions, World.record, silent]
  idsGrow := Nat.le_refl _
  noneRevived := fun _ _ active => active
  noneLost := fun _ active => active

theorem ensureLane (lane : String) : Undisturbed world (world.ensureLane lane) := by
  unfold World.ensureLane has
  cases present : world.lanes.get? lane with
  | some state => simpa using refl world
  | none =>
    simp only [Option.isSome_none, Bool.false_eq_true, if_false]
    refine ⟨⟨rfl, rfl, Nat.le_refl _, ?_⟩, ?_⟩
    · rintro taskId _ ⟨name, state, found, active⟩
      rw [get?_set] at found
      split at found
      · cases found
        simp [LaneState.created] at active
      · exact ⟨name, state, found, active⟩
    · rintro taskId ⟨name, state, found, active⟩
      have differs : name ≠ lane := by
        rintro rfl
        rw [present] at found
        cases found
      exact ⟨name, state, by rw [get?_set_of_ne differs, found], active⟩

theorem startEntry {world : World} {lane : String} {state : LaneState} (entry : QueueEntry)
    (rest : List QueueEntry) (present : world.lanes.get? lane = some state) : Undisturbed world
      (World.startEntry now lane world state entry rest) := by
  have silent : (waitExceededEvents now lane entry).filterMap LaneEvent.resolution? = [] := by
    unfold waitExceededEvents
    dsimp only
    split <;> rfl
  refine ⟨⟨rfl, ?_, Nat.le_succ _, ?_⟩, ?_⟩
  · simp [resolutions, World.startEntry, silent, filterMap_cons, LaneEvent.resolution?]
  · rintro taskId old ⟨name, found, laneFound, active⟩
    by_cases same : name = lane
    · subst same
      rw [World.startEntry, get?_set_self] at laneFound
      cases laneFound
      rcases Finset.mem_insert.mp active with isNew | wasActive
      · omega
      · exact ⟨name, state, present, wasActive⟩
    · rw [World.startEntry, get?_set_of_ne same] at laneFound
      exact ⟨name, found, laneFound, active⟩
  · rintro taskId ⟨name, found, laneFound, active⟩
    by_cases same : name = lane
    · subst same
      rw [present] at laneFound
      cases laneFound
      exact ⟨name, _, get?_set_self _ _ _, Finset.mem_insert_of_mem active⟩
    · refine ⟨name, found, ?_, active⟩
      rw [World.startEntry, get?_set_of_ne same, laneFound]

theorem pumpLoop (queue : List QueueEntry) (world : World) :
    Undisturbed world (World.pumpLoop now lane queue world) := by
  induction queue generalizing world with
  | nil => exact refl world
  | cons entry rest inductionHypothesis =>
    unfold World.pumpLoop
    split
    next => exact refl world
    next state present =>
      split
      · exact (startEntry now entry rest present).trans (inductionHypothesis _)
      · exact refl world

theorem pump : Undisturbed world (World.pump now lane world) := by
  unfold World.pump
  split
  · exact refl world
  · exact (pumpLoop now lane _ world).trans (modifyLane _ lane fun _ => rfl)

theorem drainLane : Undisturbed world (World.drainLane now lane world) := by
  unfold World.drainLane
  dsimp only
  split
  · exact ensureLane world lane
  · split
    · exact ensureLane world lane
    · refine ((ensureLane world lane).trans ?_).trans (pump now lane _)
      exact modifyLane _ lane fun _ => rfl

theorem drainLanes (lanes : List String) (world : World) : Undisturbed world
      (lanes.foldl (fun world lane => World.drainLane now lane world) world) := by
  induction lanes generalizing world with
  | nil => exact refl world
  | cons lane rest inductionHypothesis =>
    exact (drainLane now lane world).trans (inductionHypothesis _)

end Undisturbed

/-- Each waiter captured ids that were handed out and waits for one of them. -/
def WaitersSound (world : World) : Prop :=
  ∀ waiter ∈ world.activeTaskWaiters,
    (∀ taskId ∈ waiter.activeTaskIds, taskId < world.nextTaskId) ∧
      ∃ taskId ∈ waiter.activeTaskIds, world.IsActive taskId

variable {source target : World} {action : LaneAction} {world : World}

theorem hasPendingActiveTasks_iff {taskIds : Finset Nat} :
    world.hasPendingActiveTasks taskIds = true ↔ ∃ taskId ∈ taskIds, world.IsActive taskId := by
  unfold hasPendingActiveTasks
  rw [any_eq_true]
  constructor
  · rintro ⟨state, member, pending⟩
    obtain ⟨taskId, active, captured⟩ := of_decide_eq_true pending
    obtain ⟨name, found⟩ := exists_get?_of_mem_values member
    exact ⟨taskId, captured, name, state, found, active⟩
  · rintro ⟨taskId, captured, name, state, found, active⟩
    exact ⟨state, mem_values_of_get? found, decide_eq_true ⟨taskId, active, captured⟩⟩

theorem isDrained_eq_false_iff {waiter : ActiveTaskWaiter} : world.isDrained waiter = false ↔
      ∃ taskId ∈ waiter.activeTaskIds, world.IsActive taskId := by
  rw [← hasPendingActiveTasks_iff]
  unfold isDrained
  constructor
  · intro notDrained
    simpa using (Bool.or_eq_false_iff.mp notDrained).2
  · intro pending
    have nonempty : waiter.activeTaskIds ≠ ∅ := by
      intro isEmpty
      obtain ⟨taskId, captured, _⟩ := hasPendingActiveTasks_iff.mp pending
      simp [isEmpty] at captured
    simp [nonempty, pending]

/-- What a section does to the waits. -/
structure WaiterGuarantee (source : World) (action : LaneAction) (target : World) : Prop where
  stillWaiting :
    ∀ waiter ∈ target.activeTaskWaiters, ∃ taskId ∈ waiter.activeTaskIds, target.IsActive taskId
  captured :
    ∀ waiter ∈ target.activeTaskWaiters,
      waiter ∈ source.activeTaskWaiters ∨
        ((∃ timeoutMs, action = .waitForActiveTasks timeoutMs) ∧
          waiter.activeTaskIds = source.activeTaskIds)
  resolved :
    ∃ resolutions,
      target.resolutions = source.resolutions ++ resolutions ∧
        (∀ resolution ∈ resolutions,
          resolution.drained = true →
          ∀ taskId ∈ resolution.activeTaskIds, ¬ target.IsActive taskId) ∧
        (∀ resolution ∈ resolutions,
          resolution.drained = false →
          action = .waiterTimeout resolution.waiterId ∨
            ∃ timeoutMs,
              action = .waitForActiveTasks (some timeoutMs) ∧ JsNumber.le timeoutMs 0 = true) ∧
        (∀ resolution ∈ resolutions,
          (∃ waiter ∈ source.activeTaskWaiters,
              resolution.waiterId = waiter.waiterId ∧
                resolution.activeTaskIds = waiter.activeTaskIds) ∨
            ((∃ timeoutMs, action = .waitForActiveTasks timeoutMs) ∧
              resolution.activeTaskIds = source.activeTaskIds)) ∧
        ∀ waiter ∈ source.activeTaskWaiters,
          waiter ∈ target.activeTaskWaiters ∨
            ∃ resolution ∈ resolutions,
              resolution.waiterId = waiter.waiterId ∧
                resolution.activeTaskIds = waiter.activeTaskIds

theorem Undisturbed.waiterGuarantee (undisturbed : Undisturbed source target)
    (waiters : WaitersSound source) : WaiterGuarantee source action target where
  stillWaiting := by
    intro waiter member
    rw [undisturbed.sameWaiters] at member
    obtain ⟨taskId, captured, active⟩ := (waiters waiter member).2
    exact ⟨taskId, captured, undisturbed.noneLost taskId active⟩
  captured := by
    intro waiter member
    rw [undisturbed.sameWaiters] at member
    exact Or.inl member
  resolved := by
    refine ⟨[], by simpa using undisturbed.sameResolutions, by simp, by simp, by simp, ?_⟩
    intro waiter member
    exact Or.inl (by rwa [undisturbed.sameWaiters])

private theorem resolutions_notify (world : World) : world.notifyActiveTaskWaiters.resolutions =
      world.resolutions ++ (world.activeTaskWaiters.filter world.isDrained).map fun waiter =>
          ⟨waiter.waiterId, waiter.activeTaskIds, true⟩ := by
  unfold notifyActiveTaskWaiters resolutions
  simp only [filterMap_append, filterMap_map]
  congr 1
  induction world.activeTaskWaiters.filter world.isDrained with
  | nil => rfl
  | cons waiter rest inductionHypothesis => simpa [LaneEvent.resolution?] using inductionHypothesis

/-- Lane changes, a notification and starts resolve the right waiters. -/
theorem waiterGuarantee_of_notified {middle : World} (changed : Unrevived source middle)
    (started : Undisturbed middle.notifyActiveTaskWaiters target) (waiters : WaitersSound source) :
    WaiterGuarantee source action target := by
  have targetWaiters : target.activeTaskWaiters = source.activeTaskWaiters.filter
          fun waiter => !middle.isDrained waiter := by
    rw [started.sameWaiters, ← changed.sameWaiters]
    rfl
  have targetResolutions : target.resolutions = source.resolutions ++
          (source.activeTaskWaiters.filter middle.isDrained).map fun waiter =>
              ⟨waiter.waiterId, waiter.activeTaskIds, true⟩ := by
    rw [started.sameResolutions, resolutions_notify, changed.sameResolutions, changed.sameWaiters]
  constructor
  · intro waiter member
    rw [targetWaiters] at member
    have pending := (mem_filter.mp member).2
    obtain ⟨taskId, captured, active⟩ := isDrained_eq_false_iff.mp (by simpa using pending)
    exact ⟨taskId, captured, started.noneLost taskId active⟩
  · intro waiter member
    rw [targetWaiters] at member
    exact Or.inl (mem_filter.mp member).1
  · refine ⟨_, targetResolutions, ?_, ?_, ?_, ?_⟩
    · intro resolution member _ taskId captured active
      obtain ⟨waiter, inDrained, rfl⟩ := mem_map.mp member
      obtain ⟨waited, drained⟩ := mem_filter.mp inDrained
      have old : taskId < middle.notifyActiveTaskWaiters.nextTaskId :=
        Nat.lt_of_lt_of_le ((waiters waiter waited).1 taskId captured) changed.idsGrow
      have stillActive : middle.IsActive taskId := started.noneRevived taskId old active
      have notDrained : middle.isDrained waiter = false :=
        isDrained_eq_false_iff.mpr ⟨taskId, captured, stillActive⟩
      rw [drained] at notDrained
      cases notDrained
    · intro resolution member timedOut
      obtain ⟨waiter, _, rfl⟩ := mem_map.mp member
      cases timedOut
    · intro resolution member
      obtain ⟨waiter, inDrained, rfl⟩ := mem_map.mp member
      exact Or.inl ⟨waiter, (mem_filter.mp inDrained).1, rfl, rfl⟩
    · intro waiter member
      cases drained : middle.isDrained waiter with
      | false =>
        left
        rw [targetWaiters]
        exact mem_filter.mpr ⟨member, by simp [drained]⟩
      | true =>
        right
        exact ⟨_, mem_map.mpr ⟨waiter, mem_filter.mpr ⟨member, drained⟩, rfl⟩, rfl, rfl⟩

private theorem mem_foldl_activeTaskIds {taskId : Nat} (states : List LaneState)
    (active : Finset Nat) :
    taskId ∈ states.foldl (fun active state => active ∪ state.activeTaskIds) active ↔
      taskId ∈ active ∨ ∃ state ∈ states, taskId ∈ state.activeTaskIds := by
  induction states generalizing active with
  | nil => simp
  | cons state rest inductionHypothesis =>
    rw [foldl_cons, inductionHypothesis, Finset.mem_union]
    simp [or_assoc]

theorem mem_activeTaskIds_iff {taskId : Nat} :
    taskId ∈ world.activeTaskIds ↔ world.IsActive taskId := by
  unfold activeTaskIds
  rw [mem_foldl_activeTaskIds]
  constructor
  · rintro (inEmpty | ⟨state, member, active⟩)
    · simp at inEmpty
    · obtain ⟨name, found⟩ := exists_get?_of_mem_values member
      exact ⟨name, state, found, active⟩
  · rintro ⟨name, state, found, active⟩
    exact Or.inr ⟨state, mem_values_of_get? found, active⟩

private theorem notify_of_pending
    (pending :
      ∀ waiter ∈ world.activeTaskWaiters, ∃ taskId ∈ waiter.activeTaskIds, world.IsActive taskId) :
    world.notifyActiveTaskWaiters.activeTaskWaiters = world.activeTaskWaiters ∧
      world.notifyActiveTaskWaiters.resolutions = world.resolutions := by
  have noneDrained : ∀ waiter ∈ world.activeTaskWaiters, world.isDrained waiter = false := by
    intro waiter member
    exact isDrained_eq_false_iff.mpr (pending waiter member)
  constructor
  · unfold notifyActiveTaskWaiters
    exact filter_eq_self.mpr fun waiter member => by
      simp [noneDrained waiter member]
  · rw [resolutions_notify]
    have nobody : world.activeTaskWaiters.filter world.isDrained = [] :=
      filter_eq_nil_iff.mpr fun waiter member => by
        simp [noneDrained waiter member]
    rw [nobody, map_nil, append_nil]

theorem waitForActiveTasks_waiterGuarantee (timeoutMs : Option JsNumber)
    (waiters : WaitersSound source) : WaiterGuarantee source (.waitForActiveTasks timeoutMs)
      (source.waitForActiveTasks timeoutMs) := by
  unfold waitForActiveTasks
  dsimp only
  split
  next nothingActive =>
    refine ⟨fun waiter member => (waiters waiter member).2, fun waiter member => Or.inl member,
      [⟨source.nextWaiterId, source.activeTaskIds, true⟩],
      ?_, ?_, by simp, ?_, fun waiter member => Or.inl member⟩
    · simp [resolutions, World.record, LaneEvent.resolution?]
    · intro resolution member _ taskId captured
      obtain rfl := mem_singleton.mp member
      rw [nothingActive] at captured
      simp at captured
    · intro resolution member
      obtain rfl := mem_singleton.mp member
      exact Or.inr ⟨⟨timeoutMs, rfl⟩, rfl⟩
  next someActive =>
    split
    next expired =>
      refine ⟨fun waiter member => (waiters waiter member).2, fun waiter member => Or.inl member,
        [⟨source.nextWaiterId, source.activeTaskIds, false⟩],
        ?_, by simp, ?_, ?_, fun waiter member => Or.inl member⟩
      · simp [resolutions, World.record, LaneEvent.resolution?]
      · intro resolution member _
        obtain ⟨limit, isLimit, nonpositive⟩ := (Option.any_eq_true _ _).mp expired
        exact Or.inr ⟨limit, by rw [isLimit], nonpositive⟩
      · intro resolution member
        obtain rfl := mem_singleton.mp member
        exact Or.inr ⟨⟨timeoutMs, rfl⟩, rfl⟩
    next =>
      have pending : ∀ waiter ∈ source.activeTaskWaiters ++
              [{ waiterId := source.nextWaiterId
                 activeTaskIds := source.activeTaskIds
                 timeoutMs := timeoutMs }],
            ∃ taskId ∈ waiter.activeTaskIds, source.IsActive taskId := by
        intro waiter member
        rcases mem_append.mp member with old | new
        · exact (waiters waiter old).2
        · obtain rfl := mem_singleton.mp new
          obtain ⟨taskId, active⟩ := Finset.nonempty_iff_ne_empty.mpr someActive
          exact ⟨taskId, active, mem_activeTaskIds_iff.mp active⟩
      have unchanged := notify_of_pending
        (show ∀ waiter ∈ ({ source with
            nextWaiterId := source.nextWaiterId + 1
            activeTaskWaiters := source.activeTaskWaiters ++
              [{ waiterId := source.nextWaiterId
                 activeTaskIds := source.activeTaskIds
                 timeoutMs := timeoutMs }] } : World).activeTaskWaiters,
          ∃ taskId ∈ waiter.activeTaskIds, source.IsActive taskId
        from pending)
      refine ⟨?_, ?_, [], ?_, by simp, by simp, by simp, ?_⟩
      · intro waiter member
        rw [unchanged.1] at member
        exact pending waiter member
      · intro waiter member
        rw [unchanged.1] at member
        rcases mem_append.mp member with old | new
        · exact Or.inl old
        · obtain rfl := mem_singleton.mp new
          exact Or.inr ⟨⟨timeoutMs, rfl⟩, rfl⟩
      · rw [unchanged.2, append_nil]
        rfl
      · intro waiter member
        left
        rw [unchanged.1]
        exact mem_append_left _ member

theorem waiterTimeout_waiterGuarantee {waiter : ActiveTaskWaiter}
    (member : waiter ∈ source.activeTaskWaiters) (waiters : WaitersSound source) :
    WaiterGuarantee source (.waiterTimeout waiter.waiterId) (source.waiterTimeout waiter) := by
  refine ⟨?_, ?_, [⟨waiter.waiterId, waiter.activeTaskIds, false⟩], ?_, by simp, ?_, ?_, ?_⟩
  · intro other inTarget
    exact (waiters other (mem_of_mem_filter inTarget)).2
  · intro other inTarget
    exact Or.inl (mem_of_mem_filter inTarget)
  · simp [resolutions, waiterTimeout, LaneEvent.resolution?]
  · intro resolution isTimeout _
    obtain rfl := mem_singleton.mp isTimeout
    exact Or.inl rfl
  · intro resolution isTimeout
    obtain rfl := mem_singleton.mp isTimeout
    exact Or.inl ⟨waiter, member, rfl, rfl⟩
  · intro other inSource
    by_cases same : other = waiter
    · subst same
      exact Or.inr ⟨_, mem_singleton_self _, rfl, rfl⟩
    · exact Or.inl (mem_filter.mpr ⟨inSource, by simpa using same⟩)

namespace World

variable (now : ℤ) (world : World) (lane : String)

theorem enqueueCommandInLane_undisturbed (options : CommandQueueEnqueueOptions) :
    Undisturbed world (world.enqueueCommandInLane now lane options) := by
  unfold enqueueCommandInLane
  split
  · exact Undisturbed.record world rfl
  · refine Undisturbed.trans ?_ (Undisturbed.drainLane now _ _)
    refine Undisturbed.trans ?_ (Undisturbed.record _ rfl)
    refine Undisturbed.trans ?_ (Undisturbed.modifyLane _ _ fun _ => rfl)
    have ensured := Undisturbed.ensureLane world (normalizeLane lane)
    exact ⟨⟨ensured.sameWaiters, ensured.sameResolutions, ensured.idsGrow,
      ensured.noneRevived⟩, ensured.noneLost⟩

theorem setCommandLaneConcurrency_undisturbed (maxConcurrent : JsNumber) : Undisturbed world
      (world.setCommandLaneConcurrency now lane maxConcurrent) := by
  have limited :=
    (Undisturbed.ensureLane world (normalizeLane lane)).trans
      (Undisturbed.modifyLane _ (normalizeLane lane)
        (fun (state : LaneState) =>
          (rfl : { state with
            maxConcurrent := concurrencyLimit (normalizeLane lane)
              maxConcurrent }.activeTaskIds = state.activeTaskIds)))
  unfold setCommandLaneConcurrency
  dsimp only
  split
  · exact limited.trans (Undisturbed.drainLane now _ _)
  · exact limited

theorem clearCommandLane_undisturbed : Undisturbed world (world.clearCommandLane lane) := by
  unfold clearCommandLane
  dsimp only
  split
  · exact Undisturbed.refl world
  next state present =>
    refine Undisturbed.trans ?_ (Undisturbed.record _ ?_)
    · exact Undisturbed.modifyLane _ _ fun _ => rfl
    · rw [filterMap_eq_nil_iff]
      intro event member
      obtain ⟨entry, _, isEvent⟩ := mem_flatMap.mp member
      rcases mem_cons.mp isEvent with rfl | isSettled
      · rfl
      · obtain rfl := mem_singleton.mp isSettled
        rfl

theorem markGatewayDraining_undisturbed : Undisturbed world world.markGatewayDraining where
  sameWaiters := rfl
  sameResolutions := rfl
  idsGrow := Nat.le_refl _
  noneRevived := fun _ _ active => active
  noneLost := fun _ active => active

theorem resetCommandLane_waiterGuarantee {world : World} (waiters : WaitersSound world) :
    WaiterGuarantee world (.resetCommandLane now lane) (world.resetCommandLane now lane) := by
  unfold resetCommandLane
  dsimp only
  split
  · exact (Undisturbed.refl world).waiterGuarantee waiters
  · refine waiterGuarantee_of_notified ?_ (Undisturbed.refl _) waiters
    have reset : Unrevived world (world.modifyLane (normalizeLane lane) LaneState.reset) :=
      Unrevived.modifyLane world _ fun state => Finset.empty_subset state.activeTaskIds
    split
    · exact reset.trans (Undisturbed.drainLane now _ _).toUnrevived
    · exact reset

theorem resetAllLanes_waiterGuarantee {world : World} (waiters : WaitersSound world) :
    WaiterGuarantee world (.resetAllLanes now) (world.resetAllLanes now) := by
  refine waiterGuarantee_of_notified ?_ (Undisturbed.refl _) waiters
  refine Unrevived.trans ?_ (Undisturbed.drainLanes now _ _).toUnrevived
  refine ⟨rfl, rfl, Nat.le_refl _, ?_⟩
  rintro taskId _ ⟨name, state, found, active⟩
  rw [get?_mapValues] at found
  obtain ⟨before, present, rfl⟩ := Option.map_eq_some_iff.mp found
  exact absurd active (Finset.notMem_empty taskId)

theorem finishTask_waiterGuarantee {world : World} {action : LaneAction} (task : RunningTask)
    (settlement : Settlement) (waiters : WaitersSound world) : WaiterGuarantee world action
      (world.finishTask now task settlement) := by
  rcases world.current_or_stale task with ⟨state, present, sameGeneration⟩ | stale
  · rw [finishTask_of_current now settlement present sameGeneration]
    refine waiterGuarantee_of_notified ?_
      ((Undisturbed.pump now _ _).trans (Undisturbed.record _ rfl)) waiters
    have erased := Unrevived.modifyLane world task.lane fun (state : LaneState) =>
        (Finset.erase_subset task.taskId state.activeTaskIds :
          { state with
            activeTaskIds := state.activeTaskIds.erase task.taskId }.activeTaskIds ⊆ _)
    exact ⟨erased.sameWaiters, erased.sameResolutions, erased.idsGrow, erased.noneRevived⟩
  · rw [finishTask_of_stale now settlement stale]
    have removed : Undisturbed world (world.removeRunning task) :=
      ⟨⟨rfl, rfl, Nat.le_refl _, fun _ _ active => active⟩, fun _ active => active⟩
    exact (removed.trans (Undisturbed.record _ rfl)).waiterGuarantee waiters

end World

/-- Every section treats the waiters as they were promised. -/
theorem Step.waiterGuarantee (step : Step source action target) (waiters : WaitersSound source) :
    WaiterGuarantee source action target := by
  unfold Step World.step at step
  cases action with
  | enqueueCommandInLane now lane options =>
    cases step
    exact (enqueueCommandInLane_undisturbed now source lane options).waiterGuarantee waiters
  | setCommandLaneConcurrency now lane maxConcurrent =>
    obtain rfl := Option.some.inj step
    exact (setCommandLaneConcurrency_undisturbed now source lane
      maxConcurrent).waiterGuarantee waiters
  | clearCommandLane lane =>
    cases step
    exact (source.clearCommandLane_undisturbed lane).waiterGuarantee waiters
  | resetCommandLane now lane =>
    cases step
    exact resetCommandLane_waiterGuarantee now lane waiters
  | resetAllLanes now =>
    cases step
    exact resetAllLanes_waiterGuarantee now waiters
  | markGatewayDraining =>
    cases step
    exact source.markGatewayDraining_undisturbed.waiterGuarantee waiters
  | taskSettles now taskId outcome =>
    obtain ⟨task, _, rfl⟩ := Option.map_eq_some_iff.mp step
    exact finishTask_waiterGuarantee now task _ waiters
  | timeoutFires now taskId progress =>
    obtain ⟨task, _, armed⟩ := Option.bind_eq_some_iff.mp step
    obtain ⟨taskTimeoutMs, _, rfl⟩ := Option.map_eq_some_iff.mp armed
    unfold armTimeout
    dsimp only
    split
    · exact finishTask_waiterGuarantee now task _ waiters
    · exact (Undisturbed.refl source).waiterGuarantee waiters
  | waitForActiveTasks timeoutMs =>
    cases step
    exact waitForActiveTasks_waiterGuarantee timeoutMs waiters
  | waiterTimeout waiterId =>
    obtain ⟨waiter, found, rfl⟩ := Option.map_eq_some_iff.mp step
    have sameId : waiter.waiterId = waiterId := by
      have isFound := find?_some found
      rw [Bool.and_eq_true] at isFound
      exact of_decide_eq_true isFound.1
    subst sameId
    exact waiterTimeout_waiterGuarantee (mem_of_find?_eq_some found) waiters

theorem Step.nextTaskId_le (step : Step source action target) :
    source.nextTaskId ≤ target.nextTaskId := by
  have kept : KeptByUpdates fun moment => source.nextTaskId ≤ moment.world.nextTaskId := by
    intro before after update bounded
    cases update with
    | startEntry now present queued capacity => exact Nat.le_succ_of_le bounded
    | _ => exact bounded
  exact kept.updates step.updates (Nat.le_refl _)

theorem Reachable.waitersSound (reachable : Reachable world) : WaitersSound world := by
  obtain ⟨start, actions, rfl, run⟩ := reachable
  induction run with
  | refl =>
    intro waiter member
    simp [initial] at member
  | @snoc middle finish actions action run last inductionHypothesis =>
    have guarantee := last.waiterGuarantee inductionHypothesis
    have lanes : LanesSound ⟨[], middle⟩ := Reachable.lanesSound ⟨initial, _, rfl, run⟩
    intro waiter member
    refine ⟨?_, guarantee.stillWaiting waiter member⟩
    intro taskId captured
    refine Nat.lt_of_lt_of_le ?_ last.nextTaskId_le
    rcases guarantee.captured waiter member with old | ⟨_, isActive⟩
    · exact (inductionHypothesis waiter old).1 taskId captured
    · rw [isActive] at captured
      obtain ⟨name, state, found, active⟩ := mem_activeTaskIds_iff.mp captured
      exact (lanes found).activeBounded taskId active

/--
In every run, a completion frees the id of its own task if and only if its
lane still has the generation of the task, and every section resolves exactly
the waiters none of whose tasks is active any more.
-/
theorem generationsAndWaiters_of_run {actions : List LaneAction} {source target : World}
    {action : LaneAction} (run : TransitionSystem.Run Step initial actions source)
    (step : Step source action target) :
    (∀ task,
      Completes source action task →
      CompletionGuarantee source target task) ∧
      WaiterGuarantee source action target := by
  have reachable : Reachable source := ⟨initial, actions, rfl, run⟩
  refine ⟨?_, step.waiterGuarantee reachable.waitersSound⟩
  intro task completes
  obtain ⟨now, settlement, rfl⟩ := completes.eq_finishTask step
  exact completionGuarantee_of_finishTask reachable completes.1 now settlement

/-- A waiter outlives the reset of one lane and the stale completion there. -/
theorem generationsAndWaiters_of_run_stale :
    ∃ source target,
      TransitionSystem.Run Step initial
        [.enqueueCommandInLane 0 "main" ⟨none, none, none⟩,
          .enqueueCommandInLane 0 "cron" ⟨none, none, none⟩,
          .waitForActiveTasks none,
          .resetCommandLane 1 "main"] source ∧
        Step source (.taskSettles 2 1 .succeeded) target ∧
        target.activeTaskWaiters.length = 1 ∧
        WaiterGuarantee source (.taskSettles 2 1 .succeeded) target := by
  have run := TransitionSystem.Run.of_foldlM
    (rfl : [LaneAction.enqueueCommandInLane 0 "main" ⟨none, none, none⟩,
      .enqueueCommandInLane 0 "cron" ⟨none, none, none⟩, .waitForActiveTasks none,
      .resetCommandLane 1 "main"].foldlM World.step initial = some _)
  refine ⟨_, _, run, rfl, ?_, ?_⟩
  · decide
  · refine And.right (generationsAndWaiters_of_run run ?_)
    rfl

end CommandQueue
