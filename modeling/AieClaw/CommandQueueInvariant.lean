import AieClaw.CommandQueueSections

/-!
# Lanes are ordered and starts respect the bound

The first invariants of the command queue, each kept by every update: the queue
of a lane is sorted by descending priority and ascending sequence, ids and
sequence numbers are fresh, and no task starts in a lane without capacity.
-/

namespace CommandQueue

open List

/-- The order in which a lane serves its entries. -/
def QueueEntry.Precedes (first second : QueueEntry) : Prop :=
  second.priority < first.priority ∨
    (first.priority = second.priority ∧ first.sequence < second.sequence)

theorem QueueEntry.Precedes.trans {first second third : QueueEntry}
    (earlier : first.Precedes second) (later : second.Precedes third) : first.Precedes third := by
  unfold Precedes at *
  omega

theorem insertsBefore_iff {entry queued : QueueEntry} :
    insertsBefore entry queued = true ↔ entry.Precedes queued := by
  simp only [insertsBefore, QueueEntry.Precedes, Bool.or_eq_true,
    Bool.and_eq_true, decide_eq_true_eq]
  exact or_congr_right (and_congr_left' eq_comm)

theorem precedes_of_not_insertsBefore {entry queued : QueueEntry}
    (later : queued.sequence < entry.sequence) (notBefore : ¬ insertsBefore entry queued = true) :
    queued.Precedes entry := by
  rw [insertsBefore_iff] at notBefore
  unfold QueueEntry.Precedes at *
  omega

/-- Placing a later entry before the first entry it precedes keeps the order. -/
theorem ordered_insertIdx {entry placed : QueueEntry} {queue : List QueueEntry}
    (samePriority : placed.priority = entry.priority)
    (sameSequence : placed.sequence = entry.sequence) (ordered : queue.Pairwise QueueEntry.Precedes)
    (later : ∀ queued ∈ queue, queued.sequence < entry.sequence) :
    (queue.insertIdx (queue.findIdx (insertsBefore entry)) placed).Pairwise
      QueueEntry.Precedes := by
  have placedPrecedes : ∀ queued, entry.Precedes queued → placed.Precedes queued := by
    intro queued before
    simpa only [QueueEntry.Precedes, samePriority, sameSequence] using before
  have precedesPlaced : ∀ queued : QueueEntry, queued.Precedes entry → queued.Precedes placed := by
    intro queued before
    simpa only [QueueEntry.Precedes, samePriority, sameSequence] using before
  induction queue with
  | nil => simp
  | cons head rest inductionHypothesis =>
    obtain ⟨headFirst, restOrdered⟩ := pairwise_cons.mp ordered
    by_cases atHead : insertsBefore entry head = true
    · have beforeHead : placed.Precedes head := placedPrecedes head (insertsBefore_iff.mp atHead)
      simp only [findIdx_cons, atHead, cond_true, insertIdx_zero]
      refine pairwise_cons.mpr ⟨?_, ordered⟩
      intro queued member
      rcases mem_cons.mp member with isHead | inRest
      · subst isHead
        exact beforeHead
      · exact beforeHead.trans (headFirst queued inRest)
    · have behindHead : head.Precedes placed :=
        precedesPlaced head (precedes_of_not_insertsBefore (later head (by simp)) atHead)
      have restLater : ∀ queued ∈ rest, queued.sequence < entry.sequence := by
        intro queued member
        exact later queued (by simp [member])
      simp only [findIdx_cons, atHead, cond_false, insertIdx_succ_cons]
      refine pairwise_cons.mpr ⟨?_, inductionHypothesis restOrdered restLater⟩
      intro queued member
      rcases eq_or_mem_of_mem_insertIdx member with isPlaced | inRest
      · subst isPlaced
        exact behindHead
      · exact headFirst queued inRest

/-- What holds of a lane under its name, given the next fresh numbers. -/
structure LaneState.Sound (nextTaskId nextQueueSequence : Nat) (name : String)
    (state : LaneState) : Prop where
  named : state.lane = name
  ordered : state.queue.Pairwise QueueEntry.Precedes
  numbered : ∀ entry ∈ state.queue, entry.sequence < nextQueueSequence
  activeBounded : ∀ taskId ∈ state.activeTaskIds, taskId < nextTaskId
  numericLimit : state.maxConcurrent ≠ .nan

namespace LaneState.Sound

variable {nextTaskId nextQueueSequence : Nat} {name : String} {state : LaneState}

theorem mono {laterTaskId laterSequence : Nat}
    (sound : state.Sound nextTaskId nextQueueSequence name) (taskIdGrows : nextTaskId ≤ laterTaskId)
    (sequenceGrows : nextQueueSequence ≤ laterSequence) :
    state.Sound laterTaskId laterSequence name where
  named := sound.named
  ordered := sound.ordered
  numbered := fun entry member => Nat.lt_of_lt_of_le (sound.numbered entry member) sequenceGrows
  activeBounded := fun taskId member =>
    Nat.lt_of_lt_of_le (sound.activeBounded taskId member) taskIdGrows
  numericLimit := sound.numericLimit

theorem created (name : String) :
    (LaneState.created name).Sound nextTaskId nextQueueSequence name where
  named := rfl
  ordered := List.Pairwise.nil
  numbered := by simp [LaneState.created]
  activeBounded := by simp [LaneState.created]
  numericLimit := JsNumber.noConfusion

theorem reset (sound : state.Sound nextTaskId nextQueueSequence name) :
    state.reset.Sound nextTaskId nextQueueSequence name where
  named := sound.named
  ordered := sound.ordered
  numbered := sound.numbered
  activeBounded := by simp [LaneState.reset]
  numericLimit := sound.numericLimit

theorem enqueue {entry : QueueEntry} (sound : state.Sound nextTaskId entry.sequence name) :
    (enqueueLaneEntry state entry).Sound nextTaskId (entry.sequence + 1) name where
  named := sound.named
  ordered := ordered_insertIdx rfl rfl sound.ordered sound.numbered
  numbered := by
    intro queued member
    rcases eq_or_mem_of_mem_insertIdx member with isPlaced | wasQueued
    · subst isPlaced
      exact Nat.lt_succ_self _
    · exact Nat.lt_succ_of_lt (sound.numbered queued wasQueued)
  activeBounded := sound.activeBounded
  numericLimit := sound.numericLimit

theorem start {entry : QueueEntry} {rest : List QueueEntry}
    (queued : state.queue = entry :: rest) (sound : state.Sound nextTaskId nextQueueSequence name) :
    LaneState.Sound (nextTaskId + 1) nextQueueSequence name { state with
      queue := rest
      activeTaskIds := insert nextTaskId state.activeTaskIds } where
  named := sound.named
  ordered := by
    have ordered := sound.ordered
    rw [queued] at ordered
    exact (pairwise_cons.mp ordered).2
  numbered := by
    intro later member
    exact sound.numbered later (by simp [queued, member])
  activeBounded := by
    intro taskId member
    rcases Finset.mem_insert.mp member with isNew | wasActive
    · subst isNew
      exact Nat.lt_succ_self _
    · exact Nat.lt_succ_of_lt (sound.activeBounded taskId wasActive)
  numericLimit := sound.numericLimit

end LaneState.Sound

/-- Every lane is sound. -/
def LanesSound (moment : Moment) : Prop :=
  ∀ ⦃name state⦄,
    moment.world.lanes.get? name = some state →
    state.Sound moment.world.nextTaskId moment.world.nextQueueSequence name

variable {lanes : OrderedMap String LaneState} {lane : String} {nextQueueSequence : Nat}
  {maxConcurrent : JsNumber}

private theorem sound_of_set
    {written : LaneState} {nextTaskId laterTaskId laterSequence : Nat}
    (sound :
      ∀ ⦃name state⦄, lanes.get? name = some state → state.Sound nextTaskId nextQueueSequence name)
    (writtenSound : written.Sound laterTaskId laterSequence lane)
    (taskIdGrows : nextTaskId ≤ laterTaskId) (sequenceGrows : nextQueueSequence ≤ laterSequence) :
    ∀ ⦃name state⦄, (lanes.set lane written).get? name = some state →
      state.Sound laterTaskId laterSequence name := by
  intro name state found
  by_cases same : name = lane
  · subst same
    rw [OrderedMap.get?_set_self] at found
    cases found
    exact writtenSound
  · rw [OrderedMap.get?_set_of_ne same] at found
    exact (sound found).mono taskIdGrows sequenceGrows

private theorem sound_of_modify
    {change : LaneState → LaneState} {nextTaskId laterSequence : Nat}
    (sound : ∀ ⦃name state⦄, lanes.get? name = some state →
        state.Sound nextTaskId nextQueueSequence name) (changedSound : ∀ state,
        state.Sound nextTaskId nextQueueSequence lane →
        (change state).Sound nextTaskId laterSequence lane)
    (sequenceGrows : nextQueueSequence ≤ laterSequence) : ∀ ⦃name state⦄,
      (lanes.modify lane change).get? name = some state →
      state.Sound nextTaskId laterSequence name := by
  intro name state found
  by_cases same : name = lane
  · subst same
    rw [OrderedMap.get?_modify_self] at found
    obtain ⟨before, present, rfl⟩ := Option.map_eq_some_iff.mp found
    exact changedSound before (sound present)
  · rw [OrderedMap.get?_modify_of_ne same] at found
    exact (sound found).mono (Nat.le_refl _) sequenceGrows

theorem lanesSound_initial : LanesSound ⟨[], World.initial⟩ := by
  intro name state found
  simp [World.initial] at found

/-- Updates keep every lane sound. -/
theorem lanesSound_kept : KeptByUpdates LanesSound := by
  intro before after update sound
  cases update with
  | createLane absent =>
    exact sound_of_set sound (LaneState.Sound.created _) (Nat.le_refl _) (Nat.le_refl _)
  | placeEntry entry present numbered =>
    refine sound_of_modify sound ?_ (by simp [numbered])
    intro state stateSound
    dsimp only at stateSound
    rw [← numbered] at stateSound
    exact stateSound.enqueue
  | startEntry now present queued capacity =>
    exact sound_of_set sound ((sound present).start queued) (Nat.le_succ _) (Nat.le_refl _)
  | setDraining lane draining =>
    refine sound_of_modify sound ?_ (Nat.le_refl _)
    intro state stateSound
    exact { stateSound with }
  | setLimit lane numeric =>
    refine sound_of_modify sound ?_ (Nat.le_refl _)
    intro state stateSound
    exact { stateSound with numericLimit := numeric }
  | clearQueue error present =>
    refine sound_of_modify sound ?_ (Nat.le_refl _)
    intro state stateSound
    exact { stateSound with
      ordered := List.Pairwise.nil
      numbered := by simp }
  | resetLane lane =>
    refine sound_of_modify sound ?_ (Nat.le_refl _)
    intro state stateSound
    exact stateSound.reset
  | resetLanes =>
    intro name state found
    obtain ⟨state, present, rfl⟩ := Option.map_eq_some_iff.mp
      ((OrderedMap.get?_mapValues _ _ name).symm.trans found)
    exact (sound present).reset
  | takeTask found => exact sound
  | completeTask found present current =>
    refine sound_of_modify sound ?_ (Nat.le_refl _)
    intro state stateSound
    refine { stateSound with activeBounded := ?_ }
    intro taskId member
    exact stateSound.activeBounded taskId (Finset.mem_of_mem_erase member)
  | settle sequence settlement => exact sound
  | report gatewayDraining activeTaskWaiters nextWaiterId reports => exact sound

/-- Every start found fewer active tasks than the bound of its lane. -/
def StartsWithinCapacity (moment : Moment) : Prop :=
  ∀ ⦃lane sequence taskId activeCount maxConcurrent⦄,
    LaneEvent.started lane sequence taskId activeCount maxConcurrent ∈ moment.world.events →
    JsNumber.lt (.ofInt activeCount) maxConcurrent = true

theorem startsWithinCapacity_initial : StartsWithinCapacity ⟨[], World.initial⟩ := by
  intro lane sequence taskId activeCount maxConcurrent member
  simp [World.initial] at member

private theorem not_started_of_isReport {events : List LaneEvent}
    (reports : ∀ event ∈ events, event.IsReport) {sequence taskId activeCount : Nat} :
    LaneEvent.started lane sequence taskId activeCount maxConcurrent ∉
      events := by
  intro member
  exact reports _ member

theorem started_mem_startEntry {now : ℤ} {world : World} {name : String}
    {state : LaneState} {entry : QueueEntry} {rest : List QueueEntry}
    {sequence taskId activeCount : Nat} :
    LaneEvent.started name sequence taskId activeCount maxConcurrent ∈
        (World.startEntry now lane world state entry rest).events ↔
      LaneEvent.started name sequence taskId activeCount maxConcurrent ∈ world.events ∨
        (name = lane ∧ sequence = entry.sequence ∧
          taskId = world.nextTaskId ∧
          activeCount = state.activeTaskIds.card ∧
          maxConcurrent = state.maxConcurrent) := by
  have noReport : LaneEvent.started name sequence taskId activeCount maxConcurrent ∉
        World.waitExceededEvents now lane entry := by
    unfold World.waitExceededEvents
    dsimp only
    split <;> simp
  simp [World.startEntry, noReport]

theorem startsWithinCapacity_kept : KeptByUpdates StartsWithinCapacity := by
  intro before after update within
  cases update with
  | startEntry now present queued capacity =>
    intro lane sequence taskId activeCount maxConcurrent member
    rcases started_mem_startEntry.mp member with earlier | isNew
    · exact within earlier
    · obtain ⟨_, _, _, rfl, rfl⟩ := isNew
      exact capacity
  | placeEntry entry present numbered =>
    intro lane sequence taskId activeCount maxConcurrent member
    exact within (by simpa using member)
  | clearQueue error present =>
    intro lane sequence taskId activeCount maxConcurrent member
    exact within (by simpa [World.record, World.modifyLane] using member)
  | settle sequence settlement =>
    intro lane sequence taskId activeCount maxConcurrent member
    exact within (by simpa [World.record] using member)
  | report gatewayDraining activeTaskWaiters nextWaiterId reports =>
    intro lane sequence taskId activeCount maxConcurrent member
    rcases mem_append.mp member with earlier | reported
    · exact within earlier
    · exact absurd reported (not_started_of_isReport reports)
  | createLane absent => exact within
  | setDraining lane draining => exact within
  | setLimit lane numeric => exact within
  | resetLane lane => exact within
  | resetLanes => exact within
  | takeTask found => exact within
  | completeTask found present current => exact within

end CommandQueue
