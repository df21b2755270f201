import AieClaw.FollowupRun
import AieClaw.TransitionSystem

/-!
# Followup queue

One queue object of `src/auto-reply/reply/queue/state.ts` with its drain loop
(`drain.ts`) and the enqueues that reach it (`enqueue.ts`). The drain is a
program counter: each of its points is an `await` of the source, and a step
runs the synchronous code from one `await` to the next.

A call of `runFollowup` is remembered until it resolves or rejects. The log
records what happens to each accepted item, and `dropsSinceCall` counts the
items that the drop policy removed since the call in flight began.
-/

namespace FollowupQueue

structure FollowupQueueState where
  items : List QueuedItem
  lastEnqueuedAt : ℚ
  mode : QueueMode
  debounceMs : ℚ
  cap : ℤ
  dropPolicy : QueueDropPolicy
  droppedCount : ℕ
  summaryLines : List String
  summarySources : List QueuedItem
  lastRun : Option RunSettings

/-- A call of `runFollowup` and what the drain does when it resolves. -/
inductive FollowupCall where
  | individual (item : QueuedItem)
  | summaryWithItem (item : QueuedItem) (prompt : String) (run : RunSettings)
  | summaryOnly (prompt : String) (run : RunSettings) (attached : List QueuedItem)
  | group
      (items : List QueuedItem) (summary : Option String) (run : RunSettings)
      (rest : List (List QueuedItem))
  deriving DecidableEq

namespace FollowupCall

/-- The argument of the call. -/
def passed : FollowupCall → FollowupRun
  | individual item => item.toFollowupRun
  | summaryWithItem item prompt run =>
    let metadata := collectSummaryRuntimeMetadata [item.toFollowupRun]
    { prompt := prompt
      run := run
      originatingChannel := item.originatingChannel
      originatingTo := item.originatingTo
      originatingAccountId := item.originatingAccountId
      originatingThreadId := item.originatingThreadId
      currentInboundEventKind := metadata.currentInboundEventKind
      currentInboundContext := metadata.currentInboundContext
      abortSignal := metadata.abortSignal
      deliveryCorrelations := metadata.deliveryCorrelations
      queuedLifecycle := metadata.queuedLifecycle
      images := collectQueuedImages [item.toFollowupRun]
      imageOrder := collectQueuedImageOrder [item.toFollowupRun] }
  | summaryOnly prompt run attached =>
    let runs := attached.map (·.toFollowupRun)
    { prompt := prompt
      run := run
      images := collectQueuedImages runs
      imageOrder := collectQueuedImageOrder runs }
  | group items summary run _ =>
    let runs := items.map (·.toFollowupRun)
    let routing := resolveOriginRoutingMetadata runs
    let metadata := collectRuntimeMetadata runs none
    { prompt := buildCollectPrompt runs summary
      run := run
      originatingChannel := routing.originatingChannel
      originatingTo := routing.originatingTo
      originatingAccountId := routing.originatingAccountId
      originatingThreadId := routing.originatingThreadId
      currentInboundEventKind := metadata.currentInboundEventKind
      currentInboundContext := metadata.currentInboundContext
      abortSignal := metadata.abortSignal
      deliveryCorrelations := metadata.deliveryCorrelations
      queuedLifecycle := metadata.queuedLifecycle
      images := collectQueuedImages runs
      imageOrder := collectQueuedImageOrder runs }

/-- The items whose own prompt is in the argument of the call. -/
def carried : FollowupCall → List QueuedItem
  | individual item => [item]
  | summaryWithItem _ _ _ => []
  | summaryOnly _ _ _ => []
  | group items _ _ _ => items

end FollowupCall

/-- The two places of a round where aborted items are removed. -/
inductive SweepPhase where
  | beforeDebounce
  | afterDebounce
  deriving DecidableEq

/-- The result of `drainCollectQueueStep` when it ran nothing. -/
inductive CollectDrainResult where
  | skipped
  | empty
  deriving DecidableEq

/-- The `await` at which the drain stands. -/
inductive DrainPoint where
  | idle
  | sweeping (phase : SweepPhase) (index : ℕ) (item : QueuedItem) (dropped : ℕ)
  | swept (phase : SweepPhase) (dropped : ℕ)
  | debouncing (debounceMs : ℚ)
  | debounced
  | collectChecked (result : CollectDrainResult)
  | running (call : FollowupCall)
  | shifted (clearsSummary : Bool)
  | nothingDrained
  deriving DecidableEq

inductive QueueEvent where
  | accepted (id : ℕ)
  | overflowed (id : ℕ)
  | resolved (call : FollowupCall)
  | swept (id : ℕ)
  | cleared (id : ℕ)
  deriving DecidableEq

structure QueueMachine where
  queue : FollowupQueueState
  /-- Whether the map still holds this queue object under its key. -/
  inMap : Bool
  drain : DrainPoint
  forceIndividualCollect : Bool
  aborted : List ℕ
  enqueuedLifecycles : List ℕ
  completedLifecycles : List ℕ
  nextId : ℕ
  dropsSinceCall : ℕ
  log : List QueueEvent

def defaultQueueDebounceMs : ℚ := 500

def defaultQueueCap : ℤ := 20

def defaultQueueDrop : QueueDropPolicy := .summarize

/-- A positive cap is rounded down; any other keeps the present one. -/
def resolveCap (cap : Option ℚ) (present : ℤ) : ℤ :=
  match cap with
  | some value => if 0 < value then ⌊value⌋ else present
  | none => present

def resolveDebounceMs (debounceMs : Option ℚ) (present : ℚ) : ℚ :=
  match debounceMs with
  | some value => max 0 value
  | none => present

def applyQueueRuntimeSettings (queue : FollowupQueueState) (settings : QueueSettings) :
    FollowupQueueState :=
  { queue with
    mode := settings.mode
    debounceMs := resolveDebounceMs settings.debounceMs queue.debounceMs
    cap := resolveCap settings.cap queue.cap
    dropPolicy := settings.dropPolicy.getD queue.dropPolicy }

/-- The queue that `getFollowupQueue` creates. -/
def createFollowupQueue (settings : QueueSettings) : FollowupQueueState where
  items := []
  lastEnqueuedAt := 0
  mode := settings.mode
  debounceMs := resolveDebounceMs settings.debounceMs defaultQueueDebounceMs
  cap := resolveCap settings.cap defaultQueueCap
  dropPolicy := settings.dropPolicy.getD defaultQueueDrop
  droppedCount := 0
  summaryLines := []
  summarySources := []
  lastRun := none

/-- A queue just created and put into the map. -/
def QueueMachine.created (settings : QueueSettings) : QueueMachine where
  queue := createFollowupQueue settings
  inMap := true
  drain := .idle
  forceIndividualCollect := false
  aborted := []
  enqueuedLifecycles := []
  completedLifecycles := []
  nextId := 0
  dropsSinceCall := 0
  log := []

/-- Add the lifecycles of the items that are not in the list yet. -/
def recordLifecycles (recorded : List ℕ) (items : List QueuedItem) : List ℕ :=
  (items.filterMap (·.queuedLifecycle)).foldl
    (fun known lifecycle => if lifecycle ∈ known then known else known ++ [lifecycle])
    recorded

/-- The descending scan of `dropAbortedFollowups`. -/
inductive SweepScan where
  /-- The index left the array, and reading the signal throws. -/
  | failed
  | finished
  | found (index : ℕ) (item : QueuedItem)

/-- The next aborted item below `bound`. -/
def scanAborted (aborted : List ℕ) (items : List QueuedItem) : ℕ → SweepScan
  | 0 => .finished
  | index + 1 =>
    match items[index]? with
    | none => .failed
    | some item =>
      if isFollowupRunAborted aborted item.toFollowupRun then .found index item
      else scanAborted aborted items index

namespace QueueMachine

variable (machine : QueueMachine)

/-- The test of the loop head and of the `finally` block. -/
def isEmpty : Bool := machine.queue.items = [] && machine.queue.droppedCount = 0

def previewSummary : Option String :=
  previewQueueSummaryPrompt machine.queue.dropPolicy
    machine.queue.droppedCount machine.queue.summaryLines

def withItems (items : List QueuedItem) : QueueMachine :=
  { machine with queue := { machine.queue with items := items } }

def withForce (force : Bool) : QueueMachine := { machine with forceIndividualCollect := force }

/-- Start the debounce again from `now`. -/
def stamp (now : ℚ) : QueueMachine :=
  { machine with queue := { machine.queue with lastEnqueuedAt := now } }

/-- Stand at an `await` that is not a call of `runFollowup`. -/
def waitAt (point : DrainPoint) : QueueMachine := { machine with drain := point }

/-- Stand at a call of `runFollowup` that has just been made. -/
def callAt (point : DrainPoint) : QueueMachine :=
  { machine with drain := point, dropsSinceCall := 0 }

def call (call : FollowupCall) : QueueMachine := machine.callAt (.running call)

/-- `completeFollowupQueueSummarySources`. -/
def completeSummarySources : QueueMachine :=
  { machine with
    completedLifecycles :=
      recordLifecycles machine.completedLifecycles machine.queue.summarySources
    queue := { machine.queue with summarySources := [] } }

/-- `clearFollowupQueueSummaryState`. -/
def clearSummaryState : QueueMachine :=
  let completed := machine.completeSummarySources
  { completed with
    queue := { completed.queue with droppedCount := 0, summaryLines := [] } }

/-- Begin `dropAbortedFollowups` at the end of the array. -/
def startSweep (phase : SweepPhase) : QueueMachine :=
  let items := machine.queue.items
  match scanAborted machine.aborted items items.length with
  | .found index item => machine.callAt (.sweeping phase index item 0)
  -- A scan that starts at the length of the array does not leave it.
  | .finished | .failed => machine.waitAt (.swept phase 0)

/-- The `finally` block: forget an empty queue, or drain again. -/
def finish : QueueMachine :=
  if machine.isEmpty then { machine with drain := .idle, inMap := false }
  else if machine.inMap then (machine.withForce false).startSweep .beforeDebounce
  else machine.waitAt .idle

/-- The `catch` block, and then the `finally` block. -/
def fail (now : ℚ) : QueueMachine := (machine.stamp now).finish

/-- The condition of the `while` loop. -/
def loopHead : QueueMachine :=
  if machine.isEmpty then machine.finish
  else machine.startSweep .beforeDebounce

/-- `scheduleFollowupDrain`. -/
def schedule : QueueMachine :=
  if machine.inMap ∧ machine.drain = .idle then (machine.withForce false).loopHead
  else machine

/-- Continue `dropAbortedFollowups` below an index. -/
def continueSweep (phase : SweepPhase) (bound dropped : ℕ) (now : ℚ) : QueueMachine :=
  match scanAborted machine.aborted machine.queue.items bound with
  | .failed => machine.fail now
  | .finished => machine.waitAt (.swept phase dropped)
  | .found index item => machine.callAt (.sweeping phase index item dropped)

def removeSwept (index : ℕ) (item : QueuedItem) : QueueMachine :=
  { machine with
    completedLifecycles := recordLifecycles machine.completedLifecycles [item]
    queue := { machine.queue with items := machine.queue.items.eraseIdx index }
    log := machine.log ++ [.resolved (.individual item), .swept item.id] }

/-- The code after the call of the item at which the sweep stood. -/
def resolveSweep (phase : SweepPhase) (index : ℕ) (item : QueuedItem) (dropped : ℕ) (now : ℚ) :
    QueueMachine :=
  (machine.removeSwept index item).continueSweep phase index (dropped + 1) now

/-- A round without collecting: one item, with the summary when there is one. -/
def drainNext : QueueMachine :=
  match machine.previewSummary with
  | some prompt =>
    match machine.queue.lastRun with
    | none => machine.finish
    | some run =>
      match machine.queue.items with
      | [] => machine.waitAt .nothingDrained
      | item :: _ => machine.call (.summaryWithItem item prompt run)
  | none =>
    match machine.queue.items with
    | [] => machine.waitAt .nothingDrained
    | item :: _ => machine.call (.individual item)

section

variable (host : ChannelHost)

/-- Whether the items must be delivered one by one. -/
def isCrossChannel : Bool :=
  let runs := machine.queue.items.map (·.toFollowupRun)
  hasCrossChannelItems host runs || runs.any hasRuntimeOnlyFollowupMetadata

def collectForce : Bool :=
  if machine.forceIndividualCollect ∧ ¬machine.isCrossChannel host ∧
      1 < machine.queue.items.length then
    false
  else machine.forceIndividualCollect

/-- `drainCollectQueueStep`, after the test for mixed channels. -/
def drainCollect : QueueMachine :=
  let force := machine.collectForce host
  if ¬force ∧ ¬machine.isCrossChannel host then
    (machine.withForce force).waitAt (.collectChecked .skipped)
  else
    let forced := machine.withForce true
    match machine.queue.items with
    | [] => forced.waitAt (.collectChecked .empty)
    | item :: _ => forced.call (.individual item)

/-- The rest of a round, once the aborted items are gone. -/
def drainRound : QueueMachine :=
  if machine.queue.mode = .collect then machine.drainCollect host
  else machine.drainNext

/-- The code after a sweep that left something to do. -/
def afterSweep : SweepPhase → QueueMachine
  | .beforeDebounce => machine.waitAt (.debouncing (max 0 machine.queue.debounceMs))
  | .afterDebounce => machine.drainRound host

/-- The code after `dropAbortedFollowups`. -/
def resolveSwept (phase : SweepPhase) (dropped : ℕ) : QueueMachine :=
  let machine :=
    if 0 < dropped ∧ machine.queue.items = [] then machine.clearSummaryState
    else machine
  if machine.isEmpty then machine.finish
  else machine.afterSweep host phase

/-- Run the first of the remaining groups, or go round the loop. -/
def startGroup (groups : List (List QueuedItem)) (pendingSummary : Option String) : QueueMachine :=
  match groups with
  | [] => machine.loopHead
  | items :: rest =>
    match (items.getLast?.map (·.run)) <|> machine.queue.lastRun with
    | none => machine.loopHead
    | some run => machine.call (.group items pendingSummary run rest)

/-- A summary on its own, for a queue without items. -/
def startSummaryOnly (attached : List QueuedItem) : QueueMachine :=
  match machine.previewSummary, machine.queue.lastRun with
  | some prompt, some run => machine.call (.summaryOnly prompt run attached)
  | _, _ => machine.finish

/-- The code after `drainCollectQueueStep` ran nothing. -/
def resolveCollectChecked : CollectDrainResult → QueueMachine
  | .empty => machine.startSummaryOnly machine.queue.items
  | .skipped =>
    match splitCollectItemsByAuthorization machine.queue.items with
    | [] => machine.startSummaryOnly []
    | groups => machine.startGroup groups machine.previewSummary

/-- The code after a resolved call, outside the sweeps. -/
def resolveCall (call : FollowupCall) : QueueMachine :=
  let logged : QueueMachine := { machine with log := machine.log ++ [.resolved call] }
  match call with
  | .individual _ => (logged.withItems logged.queue.items.tail).waitAt (.shifted false)
  | .summaryWithItem _ _ _ =>
    let completed := logged.completeSummarySources
    (completed.withItems completed.queue.items.tail).waitAt (.shifted true)
  | .summaryOnly _ _ _ => logged.clearSummaryState.loopHead
  | .group items summary _ rest =>
    let spliced := logged.withItems (logged.queue.items.drop items.length)
    let cleared := if summary.isSome then spliced.clearSummaryState else spliced
    cleared.startGroup rest none

/-- The code after a rejected call, outside the sweeps. -/
def rejectCall (call : FollowupCall) (now : ℚ) : QueueMachine :=
  match call with
  | .individual _ => machine.fail now
  | .summaryWithItem _ _ _ => machine.completeSummarySources.fail now
  | .summaryOnly _ _ _ => machine.completeSummarySources.fail now
  | .group _ summary _ _ =>
    if summary.isSome then machine.completeSummarySources.fail now
    else machine.fail now

/-- What the drain awaits resolves. -/
def settle (now : ℚ) : Option QueueMachine :=
  match machine.drain with
  | .idle => none
  | .sweeping phase index item dropped => some (machine.resolveSweep phase index item dropped now)
  | .swept phase dropped => some (machine.resolveSwept host phase dropped)
  | .debouncing debounceMs =>
    if debounceMs ≤ 0 ∨ debounceMs ≤ now - machine.queue.lastEnqueuedAt then
      some (machine.waitAt .debounced)
    else none
  | .debounced => some (machine.startSweep .afterDebounce)
  | .collectChecked result => some (machine.resolveCollectChecked result)
  | .running call => some (machine.resolveCall call)
  | .shifted clearsSummary =>
    some (if clearsSummary then machine.clearSummaryState else machine).loopHead
  | .nothingDrained => some machine.finish

end

/-- The call of `runFollowup` that the drain awaits rejects. -/
def reject (now : ℚ) : Option QueueMachine :=
  match machine.drain with
  | .sweeping _ _ _ _ => some (machine.fail now)
  | .running call => some (machine.rejectCall call now)
  | _ => none

end QueueMachine

/-- The arguments of an enqueue, and what the caches of the module answer. -/
structure EnqueueRequest where
  run : FollowupRun
  settings : QueueSettings
  dedupeMode : QueueDedupeMode
  /-- Whether the recent message ids hold this message. -/
  recentlyQueued : Bool
  /-- Whether an idle drain is to be restarted and a callback is stored. -/
  restart : Bool
  now : ℚ

/-- How many items `applyQueueDropPolicy` removes from the head. -/
def overflowCount (queue : FollowupQueueState) : ℕ :=
  if queue.cap ≤ 0 ∨ (queue.items.length : ℤ) < queue.cap ∨ queue.dropPolicy = .new then 0
  else queue.items.length - queue.cap.toNat + 1

theorem overflowCount_le (queue : FollowupQueueState) :
    overflowCount queue ≤ queue.items.length := by
  simp only [overflowCount]
  split
  · exact Nat.zero_le _
  · omega

/-- Whether `applyQueueDropPolicy` refuses the new item. -/
def refusesItem (queue : FollowupQueueState) : Bool :=
  0 < queue.cap ∧ queue.cap ≤ queue.items.length ∧ queue.dropPolicy = .new

namespace QueueMachine

variable (machine : QueueMachine)

/-- `applyQueueDropPolicy` with the callback of the enqueue. -/
def applyDropPolicy : QueueMachine :=
  let queue := machine.queue
  let count := overflowCount queue
  let dropped := queue.items.take count
  let shortened : QueueMachine :=
    { machine with
      dropsSinceCall := machine.dropsSinceCall + dropped.length
      log := machine.log ++ dropped.map fun item => .overflowed item.id
      queue := { queue with items := queue.items.drop count } }
  if count = 0 then machine
  else if queue.dropPolicy = .summarize then
    let lines :=
      queue.summaryLines ++ dropped.map fun item =>
        buildQueueSummaryLine (summarizeDropped item.toFollowupRun)
    { shortened with
      queue :=
        { shortened.queue with
          droppedCount := queue.droppedCount + dropped.length
          summaryLines := lines.drop (lines.length - queue.cap.toNat)
          summarySources := queue.summarySources ++ dropped } }
  else
    { shortened with
      completedLifecycles := recordLifecycles machine.completedLifecycles dropped }

/-- Keep no more summary sources than summary lines. -/
def trimSummarySources : QueueMachine :=
  let queue := machine.queue
  let overflow := queue.summarySources.length - queue.summaryLines.length
  if queue.dropPolicy = .summarize then
    { machine with
      completedLifecycles :=
        recordLifecycles machine.completedLifecycles (queue.summarySources.take overflow)
      queue := { queue with summarySources := queue.summarySources.drop overflow } }
  else machine

/-- Push an accepted run under a fresh id. -/
def pushItem (run : FollowupRun) : QueueMachine :=
  let item : QueuedItem := { run with id := machine.nextId }
  { machine with
    queue := { machine.queue with items := machine.queue.items ++ [item] }
    enqueuedLifecycles := recordLifecycles machine.enqueuedLifecycles [item]
    nextId := machine.nextId + 1
    log := machine.log ++ [.accepted machine.nextId] }

/-- The dedupe tests of an enqueue. -/
def isDuplicate (host : ChannelHost) (request : EnqueueRequest) : Bool :=
  let hasMessageId := (request.run.messageId.bind SessionKeys.normalizeOptionalString).isSome
  request.dedupeMode ≠ .none &&
    ((hasMessageId && request.recentlyQueued) ||
      isRunAlreadyQueued host request.run
        (machine.queue.items.map (·.toFollowupRun))
        (request.dedupeMode = .prompt))

/--
`enqueueFollowupRun` on the queue of the map. Once the queue has left the map,
an enqueue makes another queue object and does not reach this one.
-/
def enqueue (host : ChannelHost) (request : EnqueueRequest) : QueueMachine :=
  if isFollowupRunAborted machine.aborted request.run ∨ ¬machine.inMap then machine
  else
    let configured :=
      { machine with
        queue := applyQueueRuntimeSettings machine.queue request.settings }
    if configured.isDuplicate host request then configured
    else
      let stamped : QueueMachine :=
        { configured with
          queue :=
            { configured.queue with
              lastEnqueuedAt := request.now
              lastRun := some request.run.run } }
      let dropped := stamped.applyDropPolicy.trimSummarySources
      if refusesItem stamped.queue then dropped
      else
        let pushed := dropped.pushItem request.run
        if request.restart then pushed.schedule else pushed

/-- An abort signal fires. -/
def abort (source : ℕ) : QueueMachine := { machine with aborted := source :: machine.aborted }

/-- `clearFollowupQueue`. -/
def clear : QueueMachine :=
  if machine.inMap then
    { machine with
      completedLifecycles :=
        recordLifecycles
          (recordLifecycles machine.completedLifecycles machine.queue.items)
          machine.queue.summarySources
      inMap := false
      log := machine.log ++ machine.queue.items.map fun item => .cleared item.id
      queue :=
        { machine.queue with
          items := []
          droppedCount := 0
          summaryLines := []
          summarySources := []
          lastRun := none
          lastEnqueuedAt := 0 } }
  else machine

end QueueMachine

inductive QueueAction where
  | enqueue (request : EnqueueRequest)
  | schedule
  | settle (now : ℚ)
  | reject (now : ℚ)
  | abort (source : ℕ)
  | clear

/-- The queue after an action, when the action can happen. -/
def step? (host : ChannelHost) (machine : QueueMachine) : QueueAction → Option QueueMachine
  | .enqueue request => some (machine.enqueue host request)
  | .schedule => some machine.schedule
  | .settle now => machine.settle host now
  | .reject now => machine.reject now
  | .abort source => some (machine.abort source)
  | .clear => some machine.clear

/-- One step of the queue and its drain. -/
def step (host : ChannelHost) : TransitionSystem.StepRelation QueueMachine QueueAction :=
  fun source action target => step? host source action = some target

/-- A queue that `getFollowupQueue` has just created. -/
def Initial (machine : QueueMachine) : Prop := ∃ settings, machine = QueueMachine.created settings

variable {aborted : List ℕ} {items : List QueuedItem} {bound : ℕ}

/-- What the scan finds is aborted, and nothing above it is. -/
theorem scanAborted_eq_found {index : ℕ} {item : QueuedItem}
    (scan : scanAborted aborted items bound = .found index item) : index < bound ∧
      items[index]? = some item ∧
      isFollowupRunAborted aborted item.toFollowupRun = true ∧
      ∀ later other, index < later →
        later < bound →
        items[later]? = some other →
        isFollowupRunAborted aborted other.toFollowupRun = false := by
  induction bound with
  | zero => simp [scanAborted] at scan
  | succ last inductionHypothesis =>
    simp only [scanAborted] at scan
    split at scan
    · simp at scan
    next candidate present =>
      split at scan
      next isAborted =>
        simp only [SweepScan.found.injEq] at scan
        obtain ⟨rfl, rfl⟩ := scan
        refine ⟨Nat.lt_succ_self _, present, isAborted, ?_⟩
        intro later other above below
        omega
      next notAborted =>
        obtain ⟨below, located, isAborted, above⟩ := inductionHypothesis scan
        refine ⟨Nat.lt_succ_of_lt below, located, isAborted, ?_⟩
        intro later other isAbove isBelow atLater
        rcases Nat.lt_succ_iff_lt_or_eq.mp isBelow with earlier | rfl
        · exact above later other isAbove earlier atLater
        · rw [present] at atLater
          cases atLater
          simpa using notAborted

theorem scanAborted_eq_finished (scan : scanAborted aborted items bound = .finished) :
    ∀ index other, index < bound →
      items[index]? = some other →
      isFollowupRunAborted aborted other.toFollowupRun = false := by
  induction bound with
  | zero =>
    intro index other below
    omega
  | succ last inductionHypothesis =>
    simp only [scanAborted] at scan
    split at scan
    · simp at scan
    next candidate present =>
      split at scan
      · simp at scan
      next notAborted =>
        intro index other below atIndex
        rcases Nat.lt_succ_iff_lt_or_eq.mp below with earlier | rfl
        · exact inductionHypothesis scan index other earlier atIndex
        · rw [present] at atIndex
          cases atIndex
          simpa using notAborted

theorem length_lt_of_scanAborted_eq_failed (scan : scanAborted aborted items bound = .failed) :
    items.length < bound := by
  induction bound with
  | zero => simp [scanAborted] at scan
  | succ last inductionHypothesis =>
    simp only [scanAborted] at scan
    split at scan
    next absent => exact Nat.lt_succ_of_le (List.getElem?_eq_none_iff.mp absent)
    next candidate present =>
      split at scan
      · simp at scan
      · exact Nat.lt_succ_of_lt (inductionHypothesis scan)

namespace QueueMachine

variable (machine : QueueMachine)

attribute [simps queue log nextId inMap aborted drain] waitAt

attribute [simps queue log nextId inMap aborted drain dropsSinceCall] callAt

variable (host : ChannelHost) (phase : SweepPhase)

theorem startSweep_cases : (∃ index item,
      machine.startSweep phase = machine.callAt (.sweeping phase index item 0) ∧
        scanAborted machine.aborted machine.queue.items machine.queue.items.length =
          .found index item) ∨
      (machine.startSweep phase = machine.waitAt (.swept phase 0) ∧
        ∀ item ∈ machine.queue.items,
          isFollowupRunAborted machine.aborted item.toFollowupRun = false) := by
  simp only [startSweep]
  split
  next index item scan => exact Or.inl ⟨index, item, rfl, scan⟩
  next scan =>
    refine Or.inr ⟨rfl, ?_⟩
    intro item member
    obtain ⟨index, inside, atIndex⟩ := List.mem_iff_getElem.mp member
    have located : machine.queue.items[index]? = some item := by
      rw [List.getElem?_eq_getElem inside, atIndex]
    exact scanAborted_eq_finished scan index item inside located
  next scan =>
    have outside := length_lt_of_scanAborted_eq_failed scan
    omega

theorem finish_cases : (machine.isEmpty = true ∧
      machine.finish = { machine with drain := .idle, inMap := false }) ∨
      (machine.isEmpty = false ∧ machine.inMap = true ∧
        machine.finish = (machine.withForce false).startSweep .beforeDebounce) ∨
      (machine.isEmpty = false ∧ machine.inMap = false ∧
        machine.finish = machine.waitAt .idle) := by
  cases empty : machine.isEmpty <;> cases mapped : machine.inMap <;> simp [finish, empty, mapped]

/-- The drain has ended and the map has forgotten the empty queue. -/
def Drained : Prop :=
  machine.drain = .idle ∧ machine.queue.items = [] ∧
    machine.queue.droppedCount = 0 ∧ machine.inMap = false

theorem isEmpty_iff : machine.isEmpty = true ↔
      machine.queue.items = [] ∧ machine.queue.droppedCount = 0 := by
  simp [isEmpty]

theorem drained_finish (empty : machine.isEmpty = true) : machine.finish.Drained := by
  obtain ⟨noItems, noDrops⟩ := machine.isEmpty_iff.mp empty
  simp [finish, empty, Drained, noItems, noDrops]

theorem previewSummary_eq_none_iff : machine.previewSummary = none ↔
      machine.queue.dropPolicy ≠ .summarize ∨ machine.queue.droppedCount = 0 := by
  simp only [previewSummary, previewQueueSummaryPrompt]
  split
  next without => simpa using without
  next drops => simpa using drops

theorem drainNext_cases : (machine.previewSummary ≠ none ∧ machine.queue.lastRun = none ∧
      machine.drainNext = machine.finish) ∨
      (machine.queue.items = [] ∧ machine.drainNext = machine.waitAt .nothingDrained) ∨
      (∃ prompt run item rest, machine.previewSummary ≠ none ∧
          machine.queue.items = item :: rest ∧
          machine.drainNext = machine.call (.summaryWithItem item prompt run)) ∨
      (∃ item rest, machine.previewSummary = none ∧
          machine.queue.items = item :: rest ∧
          machine.drainNext = machine.call (.individual item)) := by
  generalize result : machine.drainNext = target
  simp only [drainNext] at result
  split at result
  next prompt preview =>
    split at result
    next noRun => exact Or.inl ⟨by simp [preview], noRun, result.symm⟩
    next run hasRun =>
      split at result
      next noItems => exact Or.inr (Or.inl ⟨noItems, result.symm⟩)
      next item rest shape =>
        exact Or.inr (Or.inr (Or.inl
          ⟨prompt, run, item, rest, by simp [preview], shape, result.symm⟩))
  next preview =>
    split at result
    next noItems => exact Or.inr (Or.inl ⟨noItems, result.symm⟩)
    next item rest shape =>
      exact Or.inr (Or.inr (Or.inr ⟨item, rest, preview, shape, result.symm⟩))

theorem drainCollect_cases : (∃ force,
      machine.drainCollect host = (machine.withForce force).waitAt (.collectChecked .skipped)) ∨
      (machine.queue.items = [] ∧
        machine.drainCollect host = (machine.withForce true).waitAt (.collectChecked .empty)) ∨
      (∃ item rest, machine.queue.items = item :: rest ∧
          machine.drainCollect host = (machine.withForce true).call (.individual item)) := by
  generalize result : machine.drainCollect host = target
  simp only [drainCollect] at result
  split at result
  · exact Or.inl ⟨_, result.symm⟩
  · split at result
    next noItems => exact Or.inr (Or.inl ⟨noItems, result.symm⟩)
    next item rest shape => exact Or.inr (Or.inr ⟨item, rest, shape, result.symm⟩)

@[simp] theorem trim_drain : machine.trimSummarySources.drain = machine.drain := by
  simp only [trimSummarySources]
  split <;> rfl

@[simp] theorem trim_dropsSinceCall :
    machine.trimSummarySources.dropsSinceCall = machine.dropsSinceCall := by
  simp only [trimSummarySources]
  split <;> rfl

@[simp] theorem trim_inMap : machine.trimSummarySources.inMap = machine.inMap := by
  simp only [trimSummarySources]
  split <;> rfl

@[simp] theorem trim_lastRun :
    machine.trimSummarySources.queue.lastRun = machine.queue.lastRun := by
  simp only [trimSummarySources]
  split <;> rfl

@[simp] theorem applyDropPolicy_lastRun :
    machine.applyDropPolicy.queue.lastRun = machine.queue.lastRun := by
  simp only [applyDropPolicy]
  split
  · rfl
  · split <;> rfl

@[simp] theorem applyDropPolicy_inMap : machine.applyDropPolicy.inMap = machine.inMap := by
  simp only [applyDropPolicy]
  split
  · rfl
  · split <;> rfl

theorem startSummaryOnly_cases (attached : List QueuedItem) : (∃ prompt run,
      machine.previewSummary ≠ none ∧
        machine.startSummaryOnly attached = machine.call (.summaryOnly prompt run attached)) ∨
      ((machine.previewSummary = none ∨ machine.queue.lastRun = none) ∧
        machine.startSummaryOnly attached = machine.finish) := by
  cases preview : machine.previewSummary with
  | none => exact Or.inr ⟨Or.inl rfl, by simp [startSummaryOnly, preview]⟩
  | some prompt =>
    cases lastRun : machine.queue.lastRun with
    | none => exact Or.inr ⟨Or.inr rfl, by simp [startSummaryOnly, lastRun]⟩
    | some run =>
      refine Or.inl ⟨prompt, run, by simp, ?_⟩
      simp [startSummaryOnly, preview, lastRun]

theorem startGroup_cases (groups : List (List QueuedItem)) (pendingSummary : Option String) :
    ((groups = [] ∨ machine.queue.lastRun = none) ∧
      machine.startGroup groups pendingSummary = machine.loopHead) ∨
      (∃ items rest run, groups = items :: rest ∧
          machine.startGroup groups pendingSummary =
            machine.call (.group items pendingSummary run rest)) := by
  cases groups with
  | nil => exact Or.inl ⟨Or.inl rfl, rfl⟩
  | cons items rest =>
    generalize result : machine.startGroup (items :: rest) pendingSummary = target
    simp only [startGroup] at result
    split at result
    next noRun =>
      have lastRun : machine.queue.lastRun = none := by
        cases last : items.getLast? <;> simp_all
      exact Or.inl ⟨Or.inr lastRun, result.symm⟩
    next run hasRun => exact Or.inr ⟨items, rest, run, rfl, result.symm⟩

theorem resolveSwept_of_drops {dropped : ℕ} (drops : machine.queue.droppedCount ≠ 0)
    (notEmptied : ¬(0 < dropped ∧ machine.queue.items = [])) :
    machine.resolveSwept host phase dropped = machine.afterSweep host phase := by
  have busy : machine.isEmpty = false := by
    simp [isEmpty, drops]
  simp [resolveSwept, notEmptied, busy]

theorem resolveSwept_cases (dropped : ℕ) : (machine.resolveSwept host phase dropped).Drained ∨
      (machine.isEmpty = false ∧
        ¬(0 < dropped ∧ machine.queue.items = []) ∧
        machine.resolveSwept host phase dropped = machine.afterSweep host phase) := by
  by_cases swept : 0 < dropped ∧ machine.queue.items = []
  · have empty : machine.clearSummaryState.isEmpty = true := by
      apply (isEmpty_iff _).mpr
      exact ⟨swept.2, rfl⟩
    refine Or.inl ?_
    simp only [resolveSwept, swept, and_self, if_true, empty]
    exact drained_finish _ empty
  · cases empty : machine.isEmpty with
    | true =>
      refine Or.inl ?_
      simp only [resolveSwept, swept, if_false, empty, if_true]
      exact drained_finish _ empty
    | false =>
      refine Or.inr ⟨rfl, swept, ?_⟩
      simp [resolveSwept, swept, empty]

theorem exists_settle (busy : machine.drain ≠ .idle) :
    ∃ now target, machine.settle host now = some target := by
  cases drain : machine.drain with
  | idle => exact absurd drain busy
  | debouncing debounceMs =>
    refine ⟨debounceMs + machine.queue.lastEnqueuedAt, ?_⟩
    simp [settle, drain]
  | _ => simp [settle, drain]

end QueueMachine

end FollowupQueue
