import AieClaw.JsNumber
import AieClaw.OrderedMap
import AieClaw.TransitionSystem

/-!
# Inbound debouncing

Inbound items are collected for each key and handed to `onFlush` in batches. A key's
calls are chained: a slot in the chain is reserved when the first item of a buffer
arrives and opened when the timer fires, when the key is flushed or cancelled, or when a
later immediate item forces the buffer out.

A conversation is what the debouncer holds for one key: the entries of the two maps, the
timers set for it, and its promises as tasks in the order of their creation. Items whose
key is missing form a conversation of their own. What the callbacks were given is kept
in the order of the calls.

Callbacks return after any number of steps, and a promise that may go on does so at a
step of its own. A timer may fire at any moment after it was set.
-/

namespace InboundDebounce

/-- An item with the number of its arrival. -/
structure Arrived (Item : Type) where
  number : ℕ
  item : Item
  deriving DecidableEq

inductive Phase where
  | waiting
  | running
  | settled
  | cleaned
  deriving DecidableEq

/-- What holds a task back apart from the task before it in the chain. -/
inductive Gate where
  | opened
  | buffered
  | after (task : ℕ)
  deriving DecidableEq

/-- One promised call of `onFlush` and its place in the chain of its key. -/
structure KeyTask (Item : Type) where
  items : List (Arrived Item)
  previous : Option ℕ
  chained : Bool
  gate : Gate
  phase : Phase

structure DebounceBuffer where
  task : ℕ
  debounceMs : JsNumber

/-- What the debouncer holds for one key, and what its callbacks were given. -/
structure Conversation (Item : Type) where
  buffer : Option DebounceBuffer := none
  chain : Option ℕ := none
  timers : List ℕ := []
  tasks : List (KeyTask Item) := []
  arrivals : List (Arrived Item) := []
  flushes : List (List (Arrived Item)) := []
  cancels : List (List (Arrived Item)) := []
  errors : List (List (Arrived Item)) := []

variable {Item : Type}

namespace KeyTask

def isStarted (task : KeyTask Item) : Bool := task.phase ≠ .waiting

def isSettled (task : KeyTask Item) : Bool := task.phase = .settled || task.phase = .cleaned

def isRunning (task : KeyTask Item) : Bool := task.phase = .running

end KeyTask

namespace Conversation

section

variable (conversation : Conversation Item)

/-- Whether a promise has settled; no promise stands for a resolved one. -/
def isSettled (task : Option ℕ) : Bool :=
  match task with
  | none => true
  | some task => conversation.tasks[task]?.any KeyTask.isSettled

def enqueueKeyTask (items : List (Arrived Item)) (gate : Gate) :
    Conversation Item :=
  { conversation with
    tasks := conversation.tasks ++
      [{ items, previous := conversation.chain, chained := true, gate, phase := .waiting }]
    chain := some conversation.tasks.length }

def runKeyTaskNow (items : List (Arrived Item)) :
    Conversation Item :=
  { conversation with
    tasks := conversation.tasks ++
      [{ items, previous := none, chained := true, gate := .opened, phase := .running }]
    chain := some conversation.tasks.length
    flushes := conversation.flushes ++ [items] }

/-- A call of `onFlush` outside the chain. -/
def runFlush (items : List (Arrived Item)) : Conversation Item :=
  { conversation with
    tasks := conversation.tasks ++
      [{ items, previous := none, chained := false, gate := .opened, phase := .running }]
    flushes := conversation.flushes ++ [items] }

def clearTimeout (buffer : ℕ) : Conversation Item :=
  { conversation with timers := conversation.timers.filter (· ≠ buffer) }

def scheduleFlush (buffer : ℕ) : Conversation Item :=
  let cleared := conversation.clearTimeout buffer
  { cleared with timers := cleared.timers ++ [buffer] }

def releaseBuffer (buffer : ℕ) : Conversation Item :=
  { conversation with
    tasks := conversation.tasks.modify buffer fun task => { task with gate := .opened } }

/-- Take a buffer out of the map when it is the one that stands there. -/
def dropBuffer (buffer : ℕ) : Conversation Item :=
  { conversation with
    buffer := conversation.buffer.filter fun current => current.task ≠ buffer }

def flushBuffer (buffer : ℕ) : Conversation Item :=
  ((conversation.dropBuffer buffer).clearTimeout buffer).releaseBuffer buffer

def flushKey : Conversation Item :=
  match conversation.buffer with
  | none => conversation
  | some buffer => conversation.flushBuffer buffer.task

def bufferItems (buffer : ℕ) : List (Arrived Item) :=
  conversation.tasks[buffer]?.elim [] KeyTask.items

/-- Take the items out of a buffer and hand them to `onCancel`. -/
def cancelItems (buffer : ℕ) : Conversation Item :=
  { conversation with
    tasks := conversation.tasks.modify buffer fun task => { task with items := [] }
    cancels := conversation.cancels ++ [conversation.bufferItems buffer] }

def cancelKey : Conversation Item :=
  match conversation.buffer with
  | none => conversation
  | some buffer =>
    (((conversation.dropBuffer buffer.task).clearTimeout buffer.task).cancelItems
      buffer.task).releaseBuffer buffer.task

def pushItem (buffer : ℕ) (item : Arrived Item)
    (debounceMs : JsNumber) : Conversation Item :=
  { conversation with
    tasks := conversation.tasks.modify buffer fun task =>
      { task with items := task.items ++ [item] }
    buffer := some { task := buffer, debounceMs } }

def openBuffer (item : Arrived Item) (debounceMs : JsNumber) :
    Conversation Item :=
  let reserved := conversation.enqueueKeyTask [item] .buffered
  { reserved with buffer := some { task := conversation.tasks.length, debounceMs } }

end

/-- The branch of `enqueue` for an item that is not debounced or has no key. -/
def enqueueImmediate (serializeImmediate keyed : Bool) (conversation : Conversation Item)
    (item : Arrived Item) : Conversation Item :=
  if keyed then
    match conversation.buffer with
    | some buffer => (conversation.enqueueKeyTask [item] (.after buffer.task)).flushKey
    | none =>
      if conversation.chain.isSome then conversation.enqueueKeyTask [item] .opened
      else if serializeImmediate then conversation.runKeyTaskNow [item]
      else conversation.runFlush [item]
  else conversation.runFlush [item]

variable (conversation : Conversation Item)

/-- The branch of `enqueue` for an item that waits in a buffer if it can. -/
def enqueueDebounced (canTrackKey : Bool)
    (debounceMs : JsNumber) (item : Arrived Item) : Conversation Item :=
  match conversation.buffer with
  | some buffer => (conversation.pushItem buffer.task item debounceMs).scheduleFlush buffer.task
  | none =>
    if canTrackKey then
      (conversation.openBuffer item debounceMs).scheduleFlush conversation.tasks.length
    else conversation.enqueueKeyTask [item] .opened

def receive (item : Arrived Item) : Conversation Item :=
  { conversation with arrivals := conversation.arrivals ++ [item] }

/-- A task whose turn has come calls `onFlush`, unless its buffer was cancelled. -/
def start (index : ℕ) : Option (Conversation Item) :=
  conversation.tasks[index]?.bind fun task =>
    if task.phase = .waiting ∧ task.gate = .opened ∧ conversation.isSettled task.previous then
      if task.items.isEmpty then
        some { conversation with
          tasks := conversation.tasks.modify index fun task => { task with phase := .settled } }
      else
        some { conversation with
          tasks := conversation.tasks.modify index fun task => { task with phase := .running }
          flushes := conversation.flushes ++ [task.items] }
    else none

/-- A call of `onFlush` resolves or throws; `onError` hears of the second. -/
def settle (index : ℕ) (threw : Bool) :
    Option (Conversation Item) :=
  conversation.tasks[index]?.bind fun task =>
    if task.phase = .running then
      some { conversation with
        tasks := conversation.tasks.modify index fun task => { task with phase := .settled }
        errors := if threw then conversation.errors ++ [task.items] else conversation.errors }
    else none

/-- The immediate item that forced a buffer out goes on when the buffer's task is done. -/
def release (index : ℕ) : Option (Conversation Item) :=
  conversation.tasks[index]?.bind fun task =>
    match task.gate with
    | .after awaited =>
      if conversation.isSettled (some awaited) then some (conversation.releaseBuffer index)
      else none
    | _ => none

def cleanup (index : ℕ) : Option (Conversation Item) :=
  conversation.tasks[index]?.bind fun task =>
    if task.chained ∧ task.phase = .settled then
      some { conversation with
        tasks := conversation.tasks.modify index fun task => { task with phase := .cleaned }
        chain := conversation.chain.filter (· ≠ index) }
    else none

def fire (buffer : ℕ) : Option (Conversation Item) :=
  if buffer ∈ conversation.timers then some ((conversation.clearTimeout buffer).flushBuffer buffer)
  else none

end Conversation

/-- What happens to one conversation without a new item. -/
inductive Move where
  | fire (buffer : ℕ)
  | flushKey
  | cancelKey
  | start (task : ℕ)
  | settle (task : ℕ) (threw : Bool)
  | release (task : ℕ)
  | cleanup (task : ℕ)

/-- The moves that no caller makes. -/
def Move.isInternal : Move → Bool
  | .flushKey => false
  | .cancelKey => false
  | _ => true

def Conversation.move (conversation : Conversation Item) : Move → Option (Conversation Item)
  | .fire buffer => conversation.fire buffer
  | .flushKey => some conversation.flushKey
  | .cancelKey => some conversation.cancelKey
  | .start task => conversation.start task
  | .settle task threw => conversation.settle task threw
  | .release task => conversation.release task
  | .cleanup task => conversation.cleanup task

structure InboundDebounceCreateParams (Item : Type) where
  debounceMs : JsNumber
  maxTrackedKeys : Option JsNumber
  buildKey : Item → Option String
  shouldDebounce : Item → Bool
  resolveDebounceMs : Item → Option JsNumber
  serializeImmediate : Bool

def defaultMaxTrackedKeys : JsNumber := 2048

/-- Round towards zero. -/
def trunc : JsNumber → JsNumber
  | .finite value => if 0 ≤ value then .finite ⌊value⌋ else .finite ⌈value⌉
  | other => other

namespace InboundDebounceCreateParams

variable (params : InboundDebounceCreateParams Item)

def defaultDebounceMs : JsNumber :=
  JsNumber.max 0 (trunc params.debounceMs)

def trackedLimit : JsNumber :=
  JsNumber.max 1 (trunc (params.maxTrackedKeys.getD defaultMaxTrackedKeys))

def delayOf (item : Item) : JsNumber :=
  match params.resolveDebounceMs item with
  | none => params.defaultDebounceMs
  | some resolved =>
    if resolved.isFinite then JsNumber.max 0 (trunc resolved)
    else params.defaultDebounceMs

/-- The key of an item; an empty key counts as none. -/
def keyOf (item : Item) : Option String :=
  (params.buildKey item).filter (· ≠ "")

end InboundDebounceCreateParams

structure Debouncer (Item : Type) where
  conversations : OrderedMap (Option String) (Conversation Item)
  arrivals : List (Arrived Item)

namespace Debouncer

def initial : Debouncer Item where
  conversations := .empty
  arrivals := []

def conversation (debouncer : Debouncer Item) (key : Option String) : Conversation Item :=
  (debouncer.conversations.get? key).getD {}

/-- The number of keys with a buffer or a chain. -/
def trackedKeys (debouncer : Debouncer Item) : ℕ :=
  (debouncer.conversations.values.filter fun conversation =>
    conversation.buffer.isSome || conversation.chain.isSome).length

def canTrackKey (params : InboundDebounceCreateParams Item) (debouncer : Debouncer Item)
    (key : Option String) : Bool :=
  if (debouncer.conversation key).buffer.isSome ||
      (debouncer.conversation key).chain.isSome then
    true
  else JsNumber.lt (.finite debouncer.trackedKeys) params.trackedLimit

def enqueue (params : InboundDebounceCreateParams Item) (debouncer : Debouncer Item) (item : Item) :
    Debouncer Item :=
  let key := params.keyOf item
  let debounceMs := params.delayOf item
  let canDebounce := JsNumber.lt 0 debounceMs && params.shouldDebounce item
  let arrived : Arrived Item := { number := debouncer.arrivals.length, item }
  let conversation := (debouncer.conversation key).receive arrived
  { conversations := debouncer.conversations.set key
      (if !canDebounce || key.isNone then
        conversation.enqueueImmediate params.serializeImmediate key.isSome arrived
      else conversation.enqueueDebounced (debouncer.canTrackKey params key) debounceMs arrived)
    arrivals := debouncer.arrivals ++ [arrived] }

end Debouncer

inductive Action (Item : Type) where
  | enqueue (item : Item)
  | move (key : Option String) (move : Move)

def step (params : InboundDebounceCreateParams Item) (debouncer : Debouncer Item) :
    Action Item → Option (Debouncer Item)
  | .enqueue item => some (debouncer.enqueue params item)
  | .move key move =>
    ((debouncer.conversation key).move move).map fun conversation =>
      { debouncer with
        conversations := debouncer.conversations.set key conversation }

end InboundDebounce
