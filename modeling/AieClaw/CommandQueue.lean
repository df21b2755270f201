import Mathlib.Data.Finset.Card
import AieClaw.JsNumber
import AieClaw.JsString
import AieClaw.OrderedMap
import AieClaw.TransitionSystem

/-!
# Command lanes

The in-process command queue of `src/process/command-queue.ts`. Each lane holds
a priority queue of entries and the set of its active task ids. A step of the
machine is one synchronous section of the source: an exported function that a
caller runs, or the continuation that runs when a task or a timer settles.

The callbacks of a task (`onWait`, the progress reader) do not call back into
the queue. The clock reading of a step is an input of the step.
-/

namespace CommandQueue

/-- The default lane. -/
def CommandLane.Main : String := "main"

inductive CommandPriority where
  | foreground
  | normal
  | background
  deriving DecidableEq

structure CommandQueueEnqueueOptions where
  warnAfterMs : Option JsNumber
  taskTimeoutMs : Option JsNumber
  priority : Option CommandPriority

/-- A queued task. Its sequence number identifies its promise. -/
structure QueueEntry where
  enqueuedAt : ℤ
  sequence : Nat
  priority : ℤ
  warnAfterMs : JsNumber
  queuedAheadAtEnqueue : Nat
  activeAheadAtEnqueue : Nat
  taskTimeoutMs : Option ℤ

structure LaneState where
  lane : String
  queue : List QueueEntry
  activeTaskIds : Finset Nat
  maxConcurrent : JsNumber
  draining : Bool
  generation : Nat

/-- A pending `waitForActiveTasks` promise and the ids it captured. -/
structure ActiveTaskWaiter where
  waiterId : Nat
  activeTaskIds : Finset Nat
  timeoutMs : Option JsNumber
  deriving DecidableEq

/-- The error a promise is rejected with. -/
inductive LaneError where
  | commandLaneCleared (message : String)
  | commandLaneTaskTimeout (message : String)
  | gatewayDraining (message : String)
  | taskFailed (reason : String)

/-- How the promise of an entry settles. -/
inductive Settlement where
  | fulfilled
  | rejected (error : LaneError)

/-- What a step does that a caller or a task can observe. -/
inductive LaneEvent where
  | enqueued (lane : String) (sequence : Nat)
  | enqueueRejected (error : LaneError)
  | waitExceeded (lane : String) (waitedMs : ℤ) (queuedAhead : Nat)
  | started
      (lane : String) (sequence taskId activeCount : Nat) (maxConcurrent : JsNumber)
  | cleared (lane : String) (sequence : Nat)
  | settled (sequence : Nat) (settlement : Settlement)
  | waiterResolved (waiterId : Nat) (activeTaskIds : Finset Nat) (drained : Bool)

/-- The state kept on the global object. -/
structure QueueState where
  gatewayDraining : Bool
  lanes : OrderedMap String LaneState
  activeTaskWaiters : List ActiveTaskWaiter
  nextTaskId : Nat
  nextQueueSequence : Nat

/-- A started task whose promise has not settled yet. -/
structure RunningTask where
  lane : String
  taskId : Nat
  taskGeneration : Nat
  entry : QueueEntry
  startedAtMs : ℤ

/-- The queue state, the tasks in flight and everything observed so far. -/
structure World extends QueueState where
  running : List RunningTask
  nextWaiterId : Nat
  events : List LaneEvent

/-- The state that the first call creates. -/
def World.initial : World where
  gatewayDraining := false
  lanes := .empty
  activeTaskWaiters := []
  nextTaskId := 1
  nextQueueSequence := 1
  running := []
  nextWaiterId := 0
  events := []

/-- Text of `CommandLaneClearedError`. -/
def commandLaneClearedError (lane : String) : LaneError :=
  .commandLaneCleared
    (if lane = "" then "Command lane cleared"
    else "Command lane \"" ++ lane ++ "\" cleared")

/-- Text of `CommandLaneTaskTimeoutError`. -/
def commandLaneTaskTimeoutError (lane : String) (timeoutMs : ℤ) : LaneError :=
  .commandLaneTaskTimeout
    ("Command lane \"" ++ lane ++ "\" task timed out after " ++ toString timeoutMs ++ "ms")

/-- Text of `GatewayDrainingError`. -/
def gatewayDrainingError : LaneError :=
  .gatewayDraining "Gateway is draining for restart; new tasks are not accepted"

def normalizeLane (lane : String) : String := JsString.orElse (JsString.trim lane) CommandLane.Main

def normalizeTaskTimeoutMs : Option JsNumber → Option ℤ
  | some (.finite value) => if value ≤ 0 then none else some (max 1 ⌊value⌋)
  | _ => none

def resolveQueuePriority : Option CommandPriority → ℤ
  | some .foreground => 1
  | some .background => -1
  | _ => 0

def isProbeLane (lane : String) : Bool :=
  JsString.startsWith lane "auth-probe:" || JsString.startsWith lane "session:probe-"

/-- The lane that `getLaneState` creates on first use. -/
def LaneState.created (lane : String) : LaneState where
  lane := lane
  queue := []
  activeTaskIds := ∅
  maxConcurrent := 1
  draining := false
  generation := 0

/-- The loop condition of `pump`, apart from the queue being nonempty. -/
def LaneState.hasCapacity (state : LaneState) : Bool :=
  JsNumber.lt (.ofInt state.activeTaskIds.card) state.maxConcurrent

/-- Whether `entry` is placed before `queued`. -/
def insertsBefore (entry queued : QueueEntry) : Bool :=
  queued.priority < entry.priority ||
    (queued.priority = entry.priority && entry.sequence < queued.sequence)

def enqueueLaneEntry (state : LaneState) (entry : QueueEntry) : LaneState :=
  let insertAt := state.queue.findIdx (insertsBefore entry)
  let placed := { entry with
    queuedAheadAtEnqueue := insertAt
    activeAheadAtEnqueue := state.activeTaskIds.card }
  { state with queue := state.queue.insertIdx insertAt placed }

namespace World

/-- Append to what has been observed. -/
def record (world : World) (events : List LaneEvent) : World :=
  { world with events := world.events ++ events }

/-- Mutate a lane that exists. -/
def modifyLane (world : World) (lane : String) (change : LaneState → LaneState) : World :=
  { world with lanes := world.lanes.modify lane change }

/-- `getLaneState`: create the lane on first use. -/
def ensureLane (world : World) (lane : String) : World :=
  if world.lanes.has lane then world
  else { world with lanes := world.lanes.set lane (.created lane) }

def hasPendingActiveTasks (world : World) (taskIds : Finset Nat) : Bool :=
  world.lanes.values.any fun state => decide (∃ taskId ∈ state.activeTaskIds, taskId ∈ taskIds)

/-- The waiters that the notification resolves. -/
def isDrained (world : World) (waiter : ActiveTaskWaiter) : Bool :=
  waiter.activeTaskIds = ∅ || !world.hasPendingActiveTasks waiter.activeTaskIds

/-- Resolve every waiter none of whose captured tasks is active. -/
def notifyActiveTaskWaiters (world : World) : World :=
  { world with
    activeTaskWaiters := world.activeTaskWaiters.filter fun waiter => !world.isDrained waiter
    events :=
      world.events ++
        (world.activeTaskWaiters.filter world.isDrained).map fun waiter =>
          .waiterResolved waiter.waiterId waiter.activeTaskIds true }

/-- The report of an entry that waited for at least `warnAfterMs`. -/
def waitExceededEvents (now : ℤ) (lane : String) (entry : QueueEntry) : List LaneEvent :=
  let waitedMs := now - entry.enqueuedAt
  if JsNumber.le entry.warnAfterMs (.ofInt waitedMs) then
    [.waitExceeded lane waitedMs entry.queuedAheadAtEnqueue]
  else []

/-- One iteration of the loop in `pump`: shift an entry and start its task. -/
def startEntry (now : ℤ) (lane : String) (world : World) (state : LaneState)
    (entry : QueueEntry) (rest : List QueueEntry) : World :=
  let taskId := world.nextTaskId
  { world with
    lanes := world.lanes.set lane { state with
      queue := rest
      activeTaskIds := insert taskId state.activeTaskIds }
    nextTaskId := taskId + 1
    running := world.running ++ [{
      lane := lane
      taskId := taskId
      taskGeneration := state.generation
      entry := entry
      startedAtMs := now }]
    events := world.events ++ (waitExceededEvents now lane entry ++
      [.started lane entry.sequence taskId state.activeTaskIds.card state.maxConcurrent]) }

/-- The loop of `pump` over the queue of a lane. -/
def pumpLoop (now : ℤ) (lane : String) : List QueueEntry → World → World
  | [], world => world
  | entry :: rest, world =>
    match world.lanes.get? lane with
    | none => world
    | some state =>
      if state.hasCapacity then pumpLoop now lane rest (startEntry now lane world state entry rest)
      else world

/-- Start queued tasks while the lane has capacity, then stop draining. -/
def pump (now : ℤ) (lane : String) (world : World) : World :=
  match world.lanes.get? lane with
  | none => world
  | some state =>
    (pumpLoop now lane state.queue world).modifyLane lane
      fun pumped => { pumped with draining := false }

def drainLane (now : ℤ) (lane : String) (world : World) : World :=
  let world := world.ensureLane lane
  match world.lanes.get? lane with
  | none => world
  | some state =>
    if state.draining then world
    else pump now lane (world.modifyLane lane fun drained => { drained with draining := true })

/--
Drop a finished task from the active set of its lane, unless the lane has been
reset since the task started. Returns whether the generation still matched.
-/
def completeTask (world : World) (task : RunningTask) : World × Bool :=
  match world.lanes.get? task.lane with
  | none => (world, false)
  | some state =>
    if task.taskGeneration ≠ state.generation then (world, false)
    else
      (world.modifyLane task.lane fun current => { current with
        activeTaskIds := current.activeTaskIds.erase task.taskId }, true)

/-- The record of a task is gone once its continuation runs. -/
def removeRunning (world : World) (task : RunningTask) : World :=
  { world with
    running := world.running.eraseP fun other => other.taskId = task.taskId }

/-- The continuation of a started task once its run settles. -/
def finishTask (now : ℤ) (world : World) (task : RunningTask) (settlement : Settlement) : World :=
  let (world, completedCurrentGeneration) := (world.removeRunning task).completeTask task
  let world :=
    if completedCurrentGeneration then pump now task.lane world.notifyActiveTaskWaiters
    else world
  world.record [.settled task.entry.sequence settlement]

def findRunning (world : World) (taskId : Nat) : Option RunningTask :=
  world.running.find? fun task => task.taskId = taskId

/-- The reading of the progress callback, bounded below by the start. -/
def readLastProgressAtMs (startedAtMs : ℤ) : Option JsNumber → ℤ
  | some (.finite value) => if 0 < value then max startedAtMs ⌊value⌋ else startedAtMs
  | _ => startedAtMs

def armTimeout (now : ℤ) (world : World) (task : RunningTask) (taskTimeoutMs : ℤ)
    (progress : Option JsNumber) : World :=
  let elapsedMs := max 0 (now - readLastProgressAtMs task.startedAtMs progress)
  if taskTimeoutMs - elapsedMs ≤ 0 then
    world.finishTask now task (.rejected (commandLaneTaskTimeoutError task.lane taskTimeoutMs))
  else world

def markGatewayDraining (world : World) : World := { world with gatewayDraining := true }

/-- The bound that `setCommandLaneConcurrency` stores. -/
def concurrencyLimit (lane : String) (maxConcurrent : JsNumber) : JsNumber :=
  JsNumber.max (if isProbeLane lane then 1 else 0) (JsNumber.floor maxConcurrent)

def setCommandLaneConcurrency (now : ℤ) (world : World) (lane : String) (maxConcurrent : JsNumber) :
    World :=
  let cleaned := normalizeLane lane
  let limit := concurrencyLimit cleaned maxConcurrent
  let world := (world.ensureLane cleaned).modifyLane cleaned
    fun state => { state with maxConcurrent := limit }
  if JsNumber.lt 0 limit then drainLane now cleaned world
  else world

def enqueueCommandInLane (now : ℤ) (world : World) (lane : String)
    (options : CommandQueueEnqueueOptions) : World :=
  if world.gatewayDraining then world.record [.enqueueRejected gatewayDrainingError]
  else
    let cleaned := normalizeLane lane
    let world := world.ensureLane cleaned
    let entry : QueueEntry := {
      enqueuedAt := now
      sequence := world.nextQueueSequence
      priority := resolveQueuePriority options.priority
      warnAfterMs := options.warnAfterMs.getD 2000
      queuedAheadAtEnqueue := 0
      activeAheadAtEnqueue := 0
      taskTimeoutMs := normalizeTaskTimeoutMs options.taskTimeoutMs }
    let world := { world with nextQueueSequence := entry.sequence + 1 }
    let world := (world.modifyLane cleaned fun state =>
      enqueueLaneEntry state entry).record [.enqueued cleaned entry.sequence]
    drainLane now cleaned world

/-- Remove every queued entry of a lane and reject its promise. -/
def clearCommandLane (world : World) (lane : String) : World :=
  let cleaned := normalizeLane lane
  match world.lanes.get? cleaned with
  | none => world
  | some state =>
    (world.modifyLane cleaned fun cleared =>
      { cleared with queue := [] }).record
      (state.queue.flatMap fun entry =>
        [.cleared cleaned entry.sequence,
          .settled entry.sequence (.rejected (commandLaneClearedError cleaned))])

end World

/-- Forget the active tasks of a lane and start a new generation. -/
def LaneState.reset (state : LaneState) : LaneState :=
  { state with
    generation := state.generation + 1
    activeTaskIds := ∅
    draining := false }

namespace World

def resetCommandLane (now : ℤ) (world : World) (lane : String) : World :=
  let cleaned := normalizeLane lane
  match world.lanes.get? cleaned with
  | none => world
  | some state =>
    let world := world.modifyLane cleaned LaneState.reset
    let world := if state.queue ≠ [] then drainLane now cleaned world else world
    world.notifyActiveTaskWaiters

def resetAllLanes (now : ℤ) (world : World) : World :=
  let lanesToDrain := (world.lanes.values.filter fun state => state.queue ≠ []).map LaneState.lane
  let world := { world with
    gatewayDraining := false
    lanes := world.lanes.mapValues LaneState.reset }
  let world := lanesToDrain.foldl (fun world lane => drainLane now lane world) world
  world.notifyActiveTaskWaiters

/-- The ids active in any lane. -/
def activeTaskIds (world : World) : Finset Nat :=
  world.lanes.values.foldl (fun active state => active ∪ state.activeTaskIds) ∅

def waitForActiveTasks (world : World) (timeoutMs : Option JsNumber) : World :=
  let activeAtStart := world.activeTaskIds
  let waiterId := world.nextWaiterId
  let world := { world with nextWaiterId := waiterId + 1 }
  if activeAtStart = ∅ then world.record [.waiterResolved waiterId activeAtStart true]
  else if timeoutMs.any fun limit => JsNumber.le limit 0 then
    world.record [.waiterResolved waiterId activeAtStart false]
  else
    let waiter : ActiveTaskWaiter := {
      waiterId := waiterId
      activeTaskIds := activeAtStart
      timeoutMs := timeoutMs }
    notifyActiveTaskWaiters { world with activeTaskWaiters := world.activeTaskWaiters ++ [waiter] }

/-- The timer of a waiter: resolve it without the tasks having finished. -/
def waiterTimeout (world : World) (waiter : ActiveTaskWaiter) : World :=
  { world with
    activeTaskWaiters := world.activeTaskWaiters.filter (· ≠ waiter)
    events := world.events ++ [.waiterResolved waiter.waiterId waiter.activeTaskIds false] }

end World

/-- How the run of a task ends when no lane timer intervenes. -/
inductive TaskOutcome where
  | succeeded
  | failed (reason : String)

def TaskOutcome.settlement : TaskOutcome → Settlement
  | .succeeded => .fulfilled
  | .failed reason => .rejected (.taskFailed reason)

/-- The synchronous sections of the queue, with the readings they take. -/
inductive LaneAction where
  | enqueueCommandInLane (now : ℤ) (lane : String) (options : CommandQueueEnqueueOptions)
  | setCommandLaneConcurrency
      (now : ℤ) (lane : String) (maxConcurrent : { number : JsNumber // number ≠ .nan })
  | clearCommandLane (lane : String)
  | resetCommandLane (now : ℤ) (lane : String)
  | resetAllLanes (now : ℤ)
  | markGatewayDraining
  | taskSettles (now : ℤ) (taskId : Nat) (outcome : TaskOutcome)
  | timeoutFires (now : ℤ) (taskId : Nat) (progress : Option JsNumber)
  | waitForActiveTasks (timeoutMs : Option JsNumber)
  | waiterTimeout (waiterId : Nat)

/-- One synchronous section; `none` when the task or timer does not exist. -/
def World.step (world : World) : LaneAction → Option World
  | .enqueueCommandInLane now lane options => some (world.enqueueCommandInLane now lane options)
  | .setCommandLaneConcurrency now lane maxConcurrent =>
    some (world.setCommandLaneConcurrency now lane maxConcurrent)
  | .clearCommandLane lane => some (world.clearCommandLane lane)
  | .resetCommandLane now lane => some (world.resetCommandLane now lane)
  | .resetAllLanes now => some (world.resetAllLanes now)
  | .markGatewayDraining => some world.markGatewayDraining
  | .taskSettles now taskId outcome =>
    (world.findRunning taskId).map fun task => world.finishTask now task outcome.settlement
  | .timeoutFires now taskId progress =>
    (world.findRunning taskId).bind fun task =>
      (normalizeTaskTimeoutMs (task.entry.taskTimeoutMs.map .ofInt)).map fun taskTimeoutMs =>
        world.armTimeout now task taskTimeoutMs progress
  | .waitForActiveTasks timeoutMs => some (world.waitForActiveTasks timeoutMs)
  | .waiterTimeout waiterId =>
    (world.activeTaskWaiters.find? fun waiter =>
      waiter.waiterId = waiterId && waiter.timeoutMs.isSome).map world.waiterTimeout

/-- The step relation of the queue. -/
def Step (source : World) (action : LaneAction) (target : World) : Prop :=
  source.step action = some target

/-- The worlds that some finite sequence of sections reaches. -/
abbrev Reachable (world : World) : Prop :=
  TransitionSystem.Reachable Step (· = World.initial) world

end CommandQueue
