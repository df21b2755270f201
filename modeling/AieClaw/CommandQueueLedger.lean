import AieClaw.CommandQueueInvariant

/-!
# Every entry is in exactly one place

The ledger of the command queue counts, for each sequence number, the entry in
the queues, among the starts and among the entries that a clear rejected. The
counts add up to the number of times the sequence number was handed out, which
is at most one. Promises are counted the same way: every start and every clear
is matched by a settled promise, a promise in hand or a task that still runs.
-/

namespace CommandQueue

open LaneEvent World List

namespace LaneEvent

def enqueuedSequence? : LaneEvent → Option Nat
  | .enqueued _ sequence => some sequence
  | _ => none

def startedSequence? : LaneEvent → Option Nat
  | .started _ sequence _ _ _ => some sequence
  | _ => none

def clearedSequence? : LaneEvent → Option Nat
  | .cleared _ sequence => some sequence
  | _ => none

def settledSequence? : LaneEvent → Option Nat
  | .settled sequence _ => some sequence
  | _ => none

end LaneEvent

/-- The sequence numbers of the queued entries, lane by lane. -/
def queuedSequences (lanes : OrderedMap String LaneState) : List Nat :=
  lanes.values.flatMap fun state => state.queue.map QueueEntry.sequence

namespace World

def enqueuedSequences (world : World) : List Nat :=
  world.events.filterMap enqueuedSequence?

def startedSequences (world : World) : List Nat :=
  world.events.filterMap startedSequence?

def clearedSequences (world : World) : List Nat :=
  world.events.filterMap clearedSequence?

def settledSequences (world : World) : List Nat :=
  world.events.filterMap settledSequence?

def runningSequences (world : World) : List Nat :=
  world.running.map fun task => task.entry.sequence

end World

/-! Queued entries under a change of the lanes. -/

variable {inHand : List Nat} (sequence : Nat) {lanes : OrderedMap String LaneState}
  {project : LaneEvent → Option Nat} {state : LaneState} {lane : String}

private theorem count_queuedSequences_split {before after : List LaneState} :
    ((before ++ state :: after).flatMap fun other =>
        other.queue.map QueueEntry.sequence).count sequence =
      (before.flatMap fun other => other.queue.map QueueEntry.sequence).count sequence +
        (state.queue.map QueueEntry.sequence).count sequence + (after.flatMap fun other =>
          other.queue.map QueueEntry.sequence).count sequence := by
  simp only [flatMap_append, flatMap_cons, count_append]
  omega

theorem count_queuedSequences_set (present : lanes.get? lane = some state) (written : LaneState) :
    (queuedSequences (lanes.set lane written)).count sequence +
        (state.queue.map QueueEntry.sequence).count sequence =
      (queuedSequences lanes).count sequence +
        (written.queue.map QueueEntry.sequence).count sequence := by
  obtain ⟨before, after, shape, set⟩ := OrderedMap.values_split present
  simp only [queuedSequences, set, shape, count_queuedSequences_split]
  omega

theorem count_queuedSequences_modify
    (present : lanes.get? lane = some state) (change : LaneState → LaneState) :
    (queuedSequences (lanes.modify lane change)).count sequence +
        (state.queue.map QueueEntry.sequence).count sequence =
      (queuedSequences lanes).count sequence +
        ((change state).queue.map QueueEntry.sequence).count sequence := by
  have asSet : lanes.modify lane change = lanes.set lane (change state) := by
    simp [OrderedMap.modify, present]
  rw [asSet]
  exact count_queuedSequences_set sequence present (change state)

theorem queuedSequences_modify_of_sameQueue {change : LaneState → LaneState}
    (sameQueue : ∀ state, (change state).queue = state.queue) :
    queuedSequences (lanes.modify lane change) = queuedSequences lanes := by
  cases present : lanes.get? lane with
  | none => simp [OrderedMap.modify, present]
  | some state =>
    obtain ⟨before, after, shape, modified⟩ := OrderedMap.values_modify_split present
    simp [queuedSequences, modified, shape, sameQueue]

theorem queuedSequences_create (absent : lanes.get? lane = none) :
    queuedSequences (lanes.set lane (.created lane)) = queuedSequences lanes := by
  simp [queuedSequences, OrderedMap.values_set_of_absent absent, LaneState.created]

theorem queuedSequences_reset (lanes : OrderedMap String LaneState) :
    queuedSequences (lanes.mapValues LaneState.reset) = queuedSequences lanes := by
  simp [queuedSequences, flatMap_map, LaneState.reset]

theorem count_enqueueLaneEntry (state : LaneState) (entry : QueueEntry) :
    ((enqueueLaneEntry state entry).queue.map QueueEntry.sequence).count sequence =
      (state.queue.map QueueEntry.sequence).count sequence + [entry.sequence].count sequence := by
  have placed :=
    (perm_insertIdx { entry with
        queuedAheadAtEnqueue := state.queue.findIdx (insertsBefore entry)
        activeAheadAtEnqueue := state.activeTaskIds.card }
      state.queue
      (findIdx_le_length (p := insertsBefore entry))).map QueueEntry.sequence
  have counted := placed.count_eq sequence
  simp only [map_cons, count_cons] at counted
  simpa [enqueueLaneEntry, count_cons] using counted

/-- The accounts of the queue at a moment. -/
structure Ledger (moment : Moment) : Prop where
  numbered : ∀ sequence ∈ moment.world.enqueuedSequences, sequence < moment.world.nextQueueSequence
  distinct : moment.world.enqueuedSequences.Nodup
  placed :
    ∀ sequence,
      (queuedSequences moment.world.lanes).count sequence +
          moment.world.startedSequences.count sequence +
          moment.world.clearedSequences.count sequence =
        moment.world.enqueuedSequences.count sequence
  promised :
    ∀ sequence,
      moment.world.settledSequences.count sequence +
          moment.inHand.count sequence +
          moment.world.runningSequences.count sequence =
        moment.world.startedSequences.count sequence + moment.world.clearedSequences.count sequence

namespace Ledger

theorem initial : Ledger ⟨[], World.initial⟩ where
  numbered := by simp [World.initial, enqueuedSequences]
  distinct := nodup_nil
  placed := fun _ => rfl
  promised := fun _ => rfl

private theorem of_sameAccounts {inHand : List Nat} {world changed : World}
    (ledger : Ledger ⟨inHand, world⟩) (sameEvents : changed.events = world.events)
    (sameQueued : queuedSequences changed.lanes = queuedSequences world.lanes)
    (sameRunning : changed.running = world.running)
    (sameNext : changed.nextQueueSequence = world.nextQueueSequence) :
    Ledger ⟨inHand, changed⟩ := by
  constructor
  · simpa only [enqueuedSequences, sameEvents, sameNext] using ledger.numbered
  · simpa only [enqueuedSequences, sameEvents] using ledger.distinct
  · simpa only [enqueuedSequences, startedSequences,
      clearedSequences, sameEvents, sameQueued] using ledger.placed
  · simpa only [settledSequences, startedSequences,
      clearedSequences, runningSequences, sameEvents, sameRunning] using ledger.promised

end Ledger

private theorem filterMap_snoc (project : LaneEvent → Option Nat) (events : List LaneEvent)
    (event : LaneEvent) : (events ++ [event]).filterMap project =
      events.filterMap project ++ (project event).toList := by
  cases projected : project event <;> simp [projected]

private theorem filterMap_reports {events : List LaneEvent}
    (reports : ∀ event ∈ events, event.IsReport)
    (silent : ∀ event : LaneEvent, event.IsReport → project event = none) :
    events.filterMap project = [] := by
  rw [filterMap_eq_nil_iff]
  intro event member
  exact silent event (reports event member)

private theorem filterMap_waitExceeded
    (silent : ∀ lane waitedMs queuedAhead, project (.waitExceeded lane waitedMs queuedAhead) = none)
    (now : ℤ) (lane : String) (entry : QueueEntry) :
    (waitExceededEvents now lane entry).filterMap project = [] := by
  unfold waitExceededEvents
  dsimp only
  split
  · simp [silent]
  · rfl

theorem ledger_report {world : World} (ledger : Ledger ⟨inHand, world⟩) (gatewayDraining : Bool)
    (activeTaskWaiters : List ActiveTaskWaiter) (nextWaiterId : Nat) {events : List LaneEvent}
    (reports : ∀ event ∈ events, event.IsReport) : Ledger ⟨inHand, { world with
      gatewayDraining := gatewayDraining
      activeTaskWaiters := activeTaskWaiters
      nextWaiterId := nextWaiterId
      events := world.events ++ events }⟩ := by
  have noEnqueued : events.filterMap enqueuedSequence? = [] :=
    filterMap_reports reports fun event isReport => by
      cases event <;> first | rfl | exact isReport.elim
  have noStarted : events.filterMap startedSequence? = [] :=
    filterMap_reports reports fun event isReport => by
      cases event <;> first | rfl | exact isReport.elim
  have noCleared : events.filterMap clearedSequence? = [] :=
    filterMap_reports reports fun event isReport => by
      cases event <;> first | rfl | exact isReport.elim
  have noSettled : events.filterMap settledSequence? = [] :=
    filterMap_reports reports fun event isReport => by
      cases event <;> first | rfl | exact isReport.elim
  constructor
  · simpa [enqueuedSequences, noEnqueued] using ledger.numbered
  · simpa [enqueuedSequences, noEnqueued] using ledger.distinct
  · simpa [enqueuedSequences, startedSequences,
      clearedSequences, noEnqueued, noStarted, noCleared] using ledger.placed
  · simpa [settledSequences, startedSequences,
      clearedSequences, runningSequences, noSettled, noStarted, noCleared] using ledger.promised

/-- A placed entry is accounted for under its new number. -/
theorem ledger_placeEntry {world : World} {lane : String} {state : LaneState}
    (ledger : Ledger ⟨inHand, world⟩) (entry : QueueEntry)
    (present : world.lanes.get? lane = some state)
    (numbered : entry.sequence = world.nextQueueSequence) : Ledger ⟨inHand, { world with
      lanes := world.lanes.modify lane fun current => enqueueLaneEntry current entry
      nextQueueSequence := entry.sequence + 1
      events := world.events ++ [.enqueued lane entry.sequence] }⟩ := by
  have oldNumbered : ∀ sequence ∈ world.enqueuedSequences, sequence < entry.sequence := by
    simpa only [numbered] using ledger.numbered
  have numbers : (world.events ++ [enqueued lane entry.sequence]).filterMap enqueuedSequence? =
        world.enqueuedSequences ++ [entry.sequence] :=
    filterMap_snoc _ _ _
  constructor
  · intro sequence member
    rw [enqueuedSequences, numbers, mem_append, mem_singleton] at member
    rcases member with old | rfl
    · exact Nat.lt_succ_of_lt (oldNumbered sequence old)
    · exact Nat.lt_succ_self _
  · have fresh : entry.sequence ∉ world.enqueuedSequences := by
      intro member
      exact Nat.lt_irrefl _ (oldNumbered entry.sequence member)
    rw [enqueuedSequences, numbers]
    refine List.Nodup.append ledger.distinct (nodup_singleton _) ?_
    exact disjoint_singleton.mpr fresh
  · intro sequence
    have queued := count_queuedSequences_modify sequence present fun current =>
      enqueueLaneEntry current entry
    rw [count_enqueueLaneEntry] at queued
    have before := ledger.placed sequence
    simp only [enqueuedSequences, startedSequences,
      clearedSequences, filterMap_append, count_append,
      filterMap_cons, filterMap_nil, enqueuedSequence?,
      startedSequence?, clearedSequence?, count_nil] at before ⊢
    omega
  · intro sequence
    simpa only [settledSequences, startedSequences,
      clearedSequences, runningSequences, filterMap_snoc, settledSequence?, startedSequence?,
      clearedSequence?, Option.toList_none, append_nil] using ledger.promised sequence

private theorem filterMap_startEntry (now : ℤ) (lane : String) (world : World) (state : LaneState)
    (entry : QueueEntry) (rest : List QueueEntry)
    (silent :
      ∀ lane waitedMs queuedAhead, project (.waitExceeded lane waitedMs queuedAhead) = none) :
    (startEntry now lane world state entry rest).events.filterMap project =
      world.events.filterMap project ++ (project (.started lane entry.sequence world.nextTaskId
          state.activeTaskIds.card state.maxConcurrent)).toList := by
  have waited := filterMap_waitExceeded silent now lane entry
  simp only [startEntry, filterMap_append, waited, nil_append]
  exact congrArg _ (filterMap_snoc project [] _)

section

variable
  (now : ℤ) (lane : String) (world : World) (state : LaneState) (entry : QueueEntry)
  (rest : List QueueEntry)

@[simp] theorem enqueuedSequences_startEntry :
    (startEntry now lane world state entry rest).enqueuedSequences =
      world.enqueuedSequences :=
  (filterMap_startEntry now lane world state entry rest fun _ _ _ => rfl).trans (append_nil _)

@[simp] theorem startedSequences_startEntry :
    (startEntry now lane world state entry rest).startedSequences =
      world.startedSequences ++ [entry.sequence] :=
  filterMap_startEntry now lane world state entry rest fun _ _ _ => rfl

@[simp] theorem clearedSequences_startEntry :
    (startEntry now lane world state entry rest).clearedSequences = world.clearedSequences :=
  (filterMap_startEntry now lane world state entry rest fun _ _ _ => rfl).trans (append_nil _)

@[simp] theorem settledSequences_startEntry :
    (startEntry now lane world state entry rest).settledSequences = world.settledSequences :=
  (filterMap_startEntry now lane world state entry rest fun _ _ _ => rfl).trans (append_nil _)

@[simp] theorem runningSequences_startEntry :
    (startEntry now lane world state entry rest).runningSequences =
      world.runningSequences ++ [entry.sequence] := by
  simp [startEntry, runningSequences]

end

variable {world : World}

theorem ledger_startEntry {lane : String} {state : LaneState} {entry : QueueEntry}
    {rest : List QueueEntry} (ledger : Ledger ⟨inHand, world⟩) (now : ℤ)
    (present : world.lanes.get? lane = some state) (queued : state.queue = entry :: rest) :
    Ledger ⟨inHand, startEntry now lane world state entry rest⟩ := by
  constructor
  · simp only [enqueuedSequences_startEntry]
    exact ledger.numbered
  · simp only [enqueuedSequences_startEntry]
    exact ledger.distinct
  · intro sequence
    have moved : (queuedSequences (startEntry now lane world state entry
            rest).lanes).count sequence + (state.queue.map QueueEntry.sequence).count sequence =
          (queuedSequences world.lanes).count sequence +
            (rest.map QueueEntry.sequence).count sequence :=
      count_queuedSequences_set sequence present { state with
        queue := rest
        activeTaskIds := insert world.nextTaskId state.activeTaskIds }
    have before := ledger.placed sequence
    simp only [queued, map_cons, count_cons,
      enqueuedSequences_startEntry, startedSequences_startEntry,
      clearedSequences_startEntry, count_append, count_nil] at moved before ⊢
    omega
  · intro sequence
    have before := ledger.promised sequence
    simp only [settledSequences_startEntry, startedSequences_startEntry,
      clearedSequences_startEntry, runningSequences_startEntry, count_append] at before ⊢
    omega

private theorem filterMap_rejections (lane : String) (error : LaneError)
    (queue : List QueueEntry) (project : LaneEvent → Option Nat) : (queue.flatMap fun entry =>
        [cleared lane entry.sequence,
          .settled entry.sequence (.rejected error)]).filterMap project = queue.flatMap fun entry =>
        (project (.cleared lane entry.sequence)).toList ++
          (project (.settled entry.sequence (.rejected error))).toList := by
  induction queue with
  | nil => rfl
  | cons entry rest inductionHypothesis =>
    rw [flatMap_cons, flatMap_cons, filterMap_append, inductionHypothesis]
    congr 1
    exact filterMap_snoc project [cleared lane entry.sequence] _

theorem ledger_clearQueue {lane : String} {state : LaneState}
    (ledger : Ledger ⟨inHand, world⟩) (error : LaneError)
    (present : world.lanes.get? lane = some state) :
    Ledger ⟨inHand, (world.modifyLane lane fun cleared => { cleared with queue := [] }).record
      (state.queue.flatMap fun entry =>
        [.cleared lane entry.sequence, .settled entry.sequence (.rejected error)])⟩ := by
  have noEnqueued := filterMap_rejections lane error state.queue enqueuedSequence?
  have noStarted := filterMap_rejections lane error state.queue startedSequence?
  have allCleared := filterMap_rejections lane error state.queue clearedSequence?
  have allSettled := filterMap_rejections lane error state.queue settledSequence?
  have silent : (state.queue.flatMap fun _ => ([] : List Nat)) = [] :=
    flatMap_eq_nil_iff.mpr fun _ _ => rfl
  simp only [enqueuedSequence?, startedSequence?, clearedSequence?, settledSequence?,
    Option.toList_none, Option.toList_some, append_nil,
    nil_append, silent, ← map_eq_flatMap] at noEnqueued noStarted allCleared allSettled
  constructor
  · simpa [record, modifyLane, enqueuedSequences, noEnqueued] using ledger.numbered
  · simpa [record, modifyLane, enqueuedSequences, noEnqueued] using ledger.distinct
  · intro sequence
    have emptied := count_queuedSequences_modify sequence present
      fun cleared => { cleared with queue := [] }
    have before := ledger.placed sequence
    simp only [record, modifyLane, enqueuedSequences, startedSequences, clearedSequences,
      filterMap_append, noEnqueued, noStarted, allCleared,
      count_append, map_nil, count_nil] at emptied before ⊢
    omega
  · intro sequence
    have before := ledger.promised sequence
    simp only [record, modifyLane, settledSequences, startedSequences, clearedSequences,
      runningSequences, filterMap_append, noStarted, allCleared,
      allSettled, count_append, count_nil] at before ⊢
    omega

theorem runningSequences_removeRunning {task : RunningTask}
    (found : world.findRunning task.taskId = some task) : world.runningSequences.Perm
      (task.entry.sequence :: (world.removeRunning task).runningSequences) := by
  have isFirst := found
  unfold findRunning at isFirst
  obtain ⟨_, before, after, shape, noneBefore⟩ := find?_eq_some_iff_append.mp isFirst
  have removed : (world.removeRunning task).running = before ++ after := by
    unfold removeRunning
    rw [shape, eraseP_append_right]
    · simp
    · intro other member
      simpa using noneBefore other member
  simp only [runningSequences, removed, shape, map_append, map_cons]
  exact perm_middle

theorem ledger_takeTask {task : RunningTask} (ledger : Ledger ⟨inHand, world⟩)
    (found : world.findRunning task.taskId = some task) :
    Ledger ⟨task.entry.sequence :: inHand, world.removeRunning task⟩ := by
  refine ⟨ledger.numbered, ledger.distinct, ledger.placed, ?_⟩
  intro sequence
  have before := ledger.promised sequence
  have taken := (runningSequences_removeRunning found).count_eq sequence
  simp only [count_cons] at taken ⊢
  change world.settledSequences.count sequence + _ +
      (world.removeRunning task).runningSequences.count sequence =
    world.startedSequences.count sequence + world.clearedSequences.count sequence
  dsimp only at before
  omega

theorem ledger_settle {sequence : Nat}
    (ledger : Ledger ⟨sequence :: inHand, world⟩) (settlement : Settlement) :
    Ledger ⟨inHand, world.record [.settled sequence settlement]⟩ := by
  constructor
  · simpa [record, enqueuedSequences, filterMap_snoc, enqueuedSequence?] using ledger.numbered
  · simpa only [record, enqueuedSequences, filterMap_snoc,
      enqueuedSequence?, Option.toList_none, append_nil] using ledger.distinct
  · simpa only [record, enqueuedSequences, startedSequences, clearedSequences, filterMap_snoc,
      enqueuedSequence?, startedSequence?,
      clearedSequence?, Option.toList_none, append_nil] using ledger.placed
  · intro other
    have before := ledger.promised other
    simp only [record, settledSequences, startedSequences, clearedSequences,
      runningSequences, filterMap_append, filterMap_cons, filterMap_nil, settledSequence?,
      startedSequence?, clearedSequence?, count_append, count_cons, count_nil] at before ⊢
    omega

theorem ledger_kept : KeptByUpdates Ledger := by
  intro before after update ledger
  cases update with
  | createLane absent => exact ledger.of_sameAccounts rfl (queuedSequences_create absent) rfl rfl
  | placeEntry entry present numbered => exact ledger_placeEntry ledger entry present numbered
  | startEntry now present queued capacity => exact ledger_startEntry ledger now present queued
  | setDraining lane draining =>
    exact ledger.of_sameAccounts rfl (queuedSequences_modify_of_sameQueue fun _ => rfl) rfl rfl
  | setLimit lane numeric =>
    exact ledger.of_sameAccounts rfl (queuedSequences_modify_of_sameQueue fun _ => rfl) rfl rfl
  | clearQueue error present => exact ledger_clearQueue ledger error present
  | resetLane lane =>
    exact ledger.of_sameAccounts rfl (queuedSequences_modify_of_sameQueue fun _ => rfl) rfl rfl
  | resetLanes => exact ledger.of_sameAccounts rfl (queuedSequences_reset _) rfl rfl
  | takeTask found => exact ledger_takeTask ledger found
  | completeTask found present current =>
    exact (ledger_takeTask ledger found).of_sameAccounts rfl
      (queuedSequences_modify_of_sameQueue fun _ => rfl) rfl rfl
  | settle sequence settlement => exact ledger_settle ledger settlement
  | report gatewayDraining activeTaskWaiters nextWaiterId reports =>
    exact ledger_report ledger gatewayDraining activeTaskWaiters nextWaiterId reports

end CommandQueue
