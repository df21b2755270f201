import AieClaw.JsNumber
import AieClaw.OrderedMap
import AieClaw.SessionKeys
import AieClaw.TransitionSystem

/-!
# Heartbeat wakes

Requests to wake an agent are collected per target and handed to a handler when
a timer fires. There is one timer, of two kinds. The handler answers later; the
wakes of a batch are handed over one after the other, and a batch that was under
way when a new handler was registered goes on with the old one.
-/

namespace Heartbeat

inductive HeartbeatWakeIntent where
  | scheduled
  | event
  | immediate
  | manual
  deriving DecidableEq

inductive HeartbeatWakeSource where
  | interval
  | manual
  | execEvent
  | notificationsEvent
  | cron
  | hook
  | backgroundTask
  | backgroundTaskBlocked
  | acpSpawn
  | cliWatchdog
  | restartSentinel
  | retry
  | other
  deriving DecidableEq

structure HeartbeatWakeOverride where
  target : Option String
  recipient : Option String
  accountId : Option String

/-- What a wake is queued with, and what a handler is given. -/
structure HeartbeatWakeRequest where
  source : HeartbeatWakeSource
  intent : HeartbeatWakeIntent
  reason : Option String
  agentId : Option String
  sessionKey : Option String
  heartbeat : Option HeartbeatWakeOverride

inductive HeartbeatRunResult where
  | ran (durationMs : ℚ)
  | skipped (reason : String)
  | failed (reason : String)

/-- A call of the handler ends with a result or is rejected. -/
inductive HandlerOutcome where
  | resolved (result : HeartbeatRunResult)
  | rejected

def isRetryableHeartbeatBusySkipReason (reason : String) : Bool :=
  reason ∈ ["requests-in-flight", "cron-in-progress", "lanes-busy"]

/-- The handler skipped a wake because its target is busy. -/
def HeartbeatRunResult.isBusySkip : HeartbeatRunResult → Bool
  | .skipped reason => isRetryableHeartbeatBusySkipReason reason
  | _ => false

inductive WakeTimerKind where
  | normal
  | retry
  deriving DecidableEq

/-- Whom a wake is for. -/
structure WakeTarget where
  agentId : Option String
  sessionKey : Option String
  deriving DecidableEq

structure PendingWakeReason where
  source : HeartbeatWakeSource
  intent : HeartbeatWakeIntent
  reason : String
  priority : ℕ
  requestedAt : ℚ
  target : WakeTarget
  heartbeat : Option HeartbeatWakeOverride

def defaultCoalesceMs : ℚ := 250

def defaultRetryMs : ℚ := 1000

def resolveWakePriority (source : HeartbeatWakeSource) (intent : HeartbeatWakeIntent)
    (reason : String) : ℕ :=
  if intent = .manual ∨ intent = .immediate then 3
  else if source = .retry ∨ reason = "retry" then 0
  else if intent = .scheduled ∨ source = .interval ∨ reason = "interval" then 1
  else 2

def normalizeHeartbeatWakeReason (reason : Option String) : String :=
  (reason.bind SessionKeys.normalizeOptionalString).getD "requested"

def normalizeWakeTarget (value : Option String) : Option String :=
  value.bind SessionKeys.normalizeOptionalString

/-- The target of a request, as a pending wake holds it. -/
def WakeTarget.normalized (target : WakeTarget) : WakeTarget :=
  { agentId := normalizeWakeTarget target.agentId
    sessionKey := normalizeWakeTarget target.sessionKey }

def getWakeTargetKey (target : WakeTarget) : String :=
  let normal := target.normalized
  normal.agentId.getD "" ++ "::" ++ normal.sessionKey.getD ""

def HeartbeatWakeRequest.target (request : HeartbeatWakeRequest) : WakeTarget :=
  { agentId := request.agentId, sessionKey := request.sessionKey }

/-- What the handler is given for a pending wake. -/
def PendingWakeReason.wakeOpts (wake : PendingWakeReason) : HeartbeatWakeRequest :=
  { source := wake.source
    intent := wake.intent
    reason := some wake.reason
    agentId := wake.target.agentId
    sessionKey := wake.target.sessionKey
    heartbeat := wake.heartbeat }

/-- An armed timer, with the delay that its callback remembers. -/
structure WakeTimer where
  id : ℕ
  dueAt : ℚ
  kind : WakeTimerKind
  delay : ℚ

/-- A batch under way: the handler has been called for one of its wakes. -/
structure WakeBatch (Handler : Type) where
  active : Handler
  pendingBatch : List PendingWakeReason
  current : PendingWakeReason
  remaining : List PendingWakeReason
  delay : ℚ

structure HandlerCall (Handler : Type) where
  handler : Handler
  wakeOpts : HeartbeatWakeRequest

/--
The state of the module, the batches under way, the disposers that were handed
out, the clock, and the calls of handlers so far.
-/
structure WakeState (Handler : Type) where
  now : ℚ
  handler : Option Handler
  handlerGeneration : ℕ
  disposers : List (ℕ × Option Handler)
  pendingWakes : OrderedMap String PendingWakeReason
  scheduled : Bool
  running : Bool
  timer : Option WakeTimer
  timersMade : ℕ
  batches : OrderedMap ℕ (WakeBatch Handler)
  batchesMade : ℕ
  calls : List (HandlerCall Handler)

variable {Handler : Type}

namespace WakeState

/-- Before anything was registered or requested. -/
def initial (now : ℚ) : WakeState Handler :=
  { now := now
    handler := none
    handlerGeneration := 0
    disposers := []
    pendingWakes := .empty
    scheduled := false
    running := false
    timer := none
    timersMade := 0
    batches := .empty
    batchesMade := 0
    calls := [] }

section

variable (state : WakeState Handler)

/-- The wake that a request is queued as. -/
def nextWake (params : HeartbeatWakeRequest) : PendingWakeReason :=
  let reason := normalizeHeartbeatWakeReason params.reason
  { source := params.source
    intent := params.intent
    reason := reason
    priority := resolveWakePriority params.source params.intent reason
    requestedAt := state.now
    target := params.target.normalized
    heartbeat := params.heartbeat }

/-- The wake that stays of a pending one and a new one for the same key. -/
def mergedWake (previous next : PendingWakeReason) : PendingWakeReason :=
  let merged := { next with heartbeat := next.heartbeat.or previous.heartbeat }
  if previous.priority < next.priority then merged
  else if next.priority = previous.priority ∧ previous.requestedAt ≤ next.requestedAt then merged
  else previous

@[simps handler running timer now batches batchesMade timersMade calls]
def queuePendingWakeReason (params : HeartbeatWakeRequest) :
    WakeState Handler :=
  let next := state.nextWake params
  let wakeTargetKey := getWakeTargetKey next.target
  { state with
    pendingWakes :=
      state.pendingWakes.set wakeTargetKey
        (match state.pendingWakes.get? wakeTargetKey with
        | none => next
        | some previous => mergedWake previous next) }

/-- Arm a timer that fires after a delay. -/
def setTimer (delay : ℚ) (kind : WakeTimerKind) : WakeState Handler :=
  { state with
    timer :=
      some
        { id := state.timersMade
          dueAt := state.now + delay
          kind := kind
          delay := delay }
    timersMade := state.timersMade + 1 }

/-- The delay that a coalescing time stands for. -/
def coalesceDelay : JsNumber → ℚ
  | .finite value => max 0 value
  | _ => defaultCoalesceMs

/-- A retry timer stays, and so does any that fires no later than the new one. -/
def schedule (coalesceMs : JsNumber) (kind : WakeTimerKind) :
    WakeState Handler :=
  let delay := coalesceDelay coalesceMs
  match state.timer with
  | none => state.setTimer delay kind
  | some timer =>
    if timer.kind = .retry ∨ timer.dueAt ≤ state.now + delay then state
    else state.setTimer delay kind

/-- The end of a batch. -/
def finishBatch (id : ℕ) (delay : ℚ) : WakeState Handler :=
  let state := { state with running := false, batches := state.batches.delete id }
  if state.pendingWakes.entries ≠ [] ∨ state.scheduled = true then
    state.schedule (.finite delay) .normal
  else state

/-- Hand over the next wake of a batch, or end it. -/
def handOver (id : ℕ) (active : Handler)
    (pendingBatch rest : List PendingWakeReason) (delay : ℚ) : WakeState Handler :=
  match rest with
  | [] => state.finishBatch id delay
  | wake :: later =>
    { state with
      batches :=
        state.batches.set id
          { active := active
            pendingBatch := pendingBatch
            current := wake
            remaining := later
            delay := delay }
      calls := state.calls ++ [{ handler := active, wakeOpts := wake.wakeOpts }] }

/-- The callback of the timer. -/
def fire (timer : WakeTimer) : WakeState Handler :=
  let state := { state with timer := none, scheduled := false }
  match state.handler with
  | none => state
  | some active =>
    if state.running then
      { state with scheduled := true }.schedule (.finite timer.delay) timer.kind
    else
      let pendingBatch := state.pendingWakes.values
      { state with
        pendingWakes := .empty
        running := true
        batchesMade := state.batchesMade + 1 }.handOver
          state.batchesMade active pendingBatch pendingBatch timer.delay

/-- A wake that was skipped because its target is busy is tried again soon. -/
def afterCall (wake : PendingWakeReason) (result : HeartbeatRunResult) :
    WakeState Handler :=
  if result.isBusySkip then
    (state.queuePendingWakeReason wake.wakeOpts).schedule (.finite defaultRetryMs) .retry
  else state

/-- Queue the wakes of a batch again. -/
def requeue (wakes : List PendingWakeReason) : WakeState Handler :=
  wakes.foldl (fun state wake => state.queuePendingWakeReason wake.wakeOpts) state

def settle (id : ℕ) (batch : WakeBatch Handler)
    (outcome : HandlerOutcome) : WakeState Handler :=
  match outcome with
  | .resolved result =>
    (state.afterCall batch.current result).handOver id batch.active
      batch.pendingBatch batch.remaining batch.delay
  | .rejected =>
    ((state.requeue batch.pendingBatch).schedule
      (.finite defaultRetryMs) .retry).finishBatch id batch.delay

def setHeartbeatWakeHandler (next : Option Handler) :
    WakeState Handler :=
  let generation := state.handlerGeneration + 1
  let state :=
    { state with
      handlerGeneration := generation
      handler := next
      disposers := state.disposers ++ [(generation, next)] }
  let state :=
    if next.isSome then { state with timer := none, running := false, scheduled := false }
    else state
  if next.isSome ∧ state.pendingWakes.entries ≠ [] then
    state.schedule (.finite defaultCoalesceMs) .normal
  else state

end

/-- The disposer of a registration; a stale one does nothing. -/
def dispose [DecidableEq Handler] (state : WakeState Handler) (generation : ℕ)
    (next : Option Handler) : WakeState Handler :=
  if state.handlerGeneration ≠ generation ∨ state.handler ≠ next then state
  else
    { state with
      handlerGeneration := state.handlerGeneration + 1
      handler := none }

def requestHeartbeat (state : WakeState Handler) (opts : HeartbeatWakeRequest)
    (coalesceMs : Option JsNumber) : WakeState Handler :=
  (state.queuePendingWakeReason opts).schedule (coalesceMs.getD (.finite defaultCoalesceMs)) .normal

end WakeState

/-- What can happen next. -/
inductive WakeAction (Handler : Type) where
  | elapse (duration : ℚ)
  | request (opts : HeartbeatWakeRequest) (coalesceMs : Option JsNumber)
  | setHandler (next : Option Handler)
  | dispose (generation : ℕ) (next : Option Handler)
  | fire
  | settle (batch : ℕ) (outcome : HandlerOutcome)

open WakeState

/-- One step; timers may fire late, and answers come in any order. -/
def wakeStep? [DecidableEq Handler] (state : WakeState Handler) :
    WakeAction Handler → Option (WakeState Handler)
  | .elapse duration =>
    if 0 < duration then some { state with now := state.now + duration }
    else none
  | .request opts coalesceMs => some (state.requestHeartbeat opts coalesceMs)
  | .setHandler next => some (state.setHeartbeatWakeHandler next)
  | .dispose generation next =>
    if (generation, next) ∈ state.disposers then some (state.dispose generation next)
    else none
  | .fire => state.timer.map state.fire
  | .settle id outcome => (state.batches.get? id).map fun batch => state.settle id batch outcome

def WakeStep [DecidableEq Handler] :
    TransitionSystem.StepRelation (WakeState Handler) (WakeAction Handler) :=
  fun source action target => wakeStep? source action = some target

end Heartbeat
