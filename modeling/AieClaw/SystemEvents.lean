import AieClaw.SessionKeys
import AieClaw.TransitionSystem

/-!
# System events of a session

`src/infra/system-events.ts` keeps at most twenty events of a session for its
next prompt. A prompt peeks at the queue and later consumes what it has seen;
events enqueued in between may push the oldest of these out at the head.
`consumeSystemEventEntries` compares the entries with the head of the queue, so
it removes nothing when one of them is gone and others are still queued.
-/

namespace SystemEvents

open TransitionSystem

structure SystemEvent (Context : Type) where
  text : String
  ts : ℕ
  contextKey : Option String
  deliveryContext : Option Context

/-- `MAX_EVENTS` -/
def maxEvents : ℕ := 20

structure SessionQueue (Context : Type) where
  queue : List (SystemEvent Context)
  lastContextKey : Option String

/-- What the queue takes from the language and from the routing of channels. -/
structure EventHost (Context : Type) where
  toLowerCase : String → String
  normalizeDeliveryContext : Option Context → Option Context
  channelRouteDedupeKey : Context → String

/-- The arguments of `enqueueSystemEvent`, and the clock it reads -/
structure EnqueueRequest (Context : Type) where
  text : String
  contextKey : Option String
  deliveryContext : Option Context
  now : ℕ

variable {Context : Type} (host : EventHost Context)

def requireSessionKey (key : String) : Except String String :=
  match SessionKeys.normalizeOptionalString key with
  | none => .error "system events require a sessionKey"
  | some trimmed => .ok trimmed

def normalizeContextKey (key : Option String) : Option String :=
  (key.bind SessionKeys.normalizeOptionalString).map host.toLowerCase

/-- `getOrCreateSessionQueue`, on what the map holds for the key -/
def getOrCreate (entry : Option (SessionQueue Context)) : SessionQueue Context :=
  entry.getD { queue := [], lastContextKey := none }

/-- `peekSystemEventEntries` -/
def peek (entry : Option (SessionQueue Context)) : List (SystemEvent Context) :=
  (getOrCreate entry).queue

def areDeliveryContextsEqual : Option Context → Option Context → Bool
  | none, none => true
  | some left, some right => host.channelRouteDedupeKey left = host.channelRouteDedupeKey right
  | _, _ => false

def isDuplicateSystemEvent (existing incoming : SystemEvent Context) : Bool :=
  existing.text = incoming.text && existing.contextKey = incoming.contextKey &&
    areDeliveryContextsEqual host existing.deliveryContext incoming.deliveryContext

def areSystemEventsEqual (left right : SystemEvent Context) : Bool :=
  left.text = right.text && left.ts = right.ts && left.contextKey = right.contextKey &&
    areDeliveryContextsEqual host left.deliveryContext right.deliveryContext

/-- Without a context key only the last event is compared. -/
def findDuplicateInQueue (queue : List (SystemEvent Context)) (incoming : SystemEvent Context) :
    Bool :=
  if incoming.contextKey = none then
    queue.getLast?.any (isDuplicateSystemEvent host · incoming)
  else queue.any (isDuplicateSystemEvent host · incoming)

def acceptedEvent (queue : List (SystemEvent Context)) (request : EnqueueRequest Context) :
    Option (SystemEvent Context) :=
  let event : SystemEvent Context :=
    { text := JsString.trim request.text
      ts := request.now
      contextKey := normalizeContextKey host request.contextKey
      deliveryContext := host.normalizeDeliveryContext request.deliveryContext }
  if event.text = "" ∨ findDuplicateInQueue host queue event then none else some event

/-- The end of `enqueueSystemEvent`: over the limit the head is dropped. -/
def SessionQueue.push (entry : SessionQueue Context) (event : SystemEvent Context) :
    SessionQueue Context :=
  let pushed := entry.queue ++ [event]
  { queue := if maxEvents < pushed.length then pushed.tail else pushed
    lastContextKey := event.contextKey.or entry.lastContextKey }

/-- `enqueueSystemEvent`, on what the map holds for the key, as the other calls below -/
def enqueueSystemEvent (request : EnqueueRequest Context)
    (entry : Option (SessionQueue Context)) : Bool × SessionQueue Context :=
  match acceptedEvent host (peek entry) request with
  | none => (false, getOrCreate entry)
  | some event => (true, (getOrCreate entry).push event)

def drainSystemEventEntries (entry : Option (SessionQueue Context)) :
    List (SystemEvent Context) × Option (SessionQueue Context) :=
  if peek entry = [] then ([], entry) else (peek entry, none)

/-- The context key of the newest event that has one -/
def newestContextKey (events : List (SystemEvent Context)) : Option String :=
  events.reverse.findSome? SystemEvent.contextKey

/-- `resetQueueState`, for a queue that has these events left -/
def resetQueueState (queue : List (SystemEvent Context)) : Option (SessionQueue Context) :=
  if queue = [] then none
  else some { queue := queue, lastContextKey := newestContextKey queue }

/-- The test of `consumeSystemEventEntries`: the entries are the head of the queue. -/
def isHead (queue consumed : List (SystemEvent Context)) : Bool :=
  consumed.length ≤ queue.length &&
    (queue.zip consumed).all fun pair => areSystemEventsEqual host pair.1 pair.2

def consumeSystemEventEntries (consumed : List (SystemEvent Context))
    (entry : Option (SessionQueue Context)) :
    List (SystemEvent Context) × Option (SessionQueue Context) :=
  if peek entry = [] ∨ consumed = [] ∨ isHead host (peek entry) consumed = false then ([], entry)
  else
    ((peek entry).take consumed.length, resetQueueState ((peek entry).drop consumed.length))

/-- The loop of `consumeSelectedSystemEventEntries`: what it removes and what it leaves -/
def removeSelected : List (SystemEvent Context) → List (SystemEvent Context) →
    List (SystemEvent Context) × List (SystemEvent Context)
  | queue, [] => ([], queue)
  | queue, consumed :: rest =>
    match queue.findIdx? (areSystemEventsEqual host · consumed) with
    | none => removeSelected queue rest
    | some index =>
      let later := removeSelected (queue.eraseIdx index) rest
      (queue[index]?.toList ++ later.1, later.2)

def consumeSelectedSystemEventEntries (consumed : List (SystemEvent Context))
    (entry : Option (SessionQueue Context)) :
    List (SystemEvent Context) × Option (SessionQueue Context) :=
  if peek entry = [] ∨ consumed = [] then ([], entry)
  else
    let outcome := removeSelected host (peek entry) consumed
    (outcome.1, resetQueueState outcome.2)

inductive EventCall (Context : Type) where
  | enqueue (request : EnqueueRequest Context)
  | drain
  | consume (consumed : List (SystemEvent Context))
  | consumeSelected (consumed : List (SystemEvent Context))

def EventCall.perform (entry : Option (SessionQueue Context)) :
    EventCall Context → Option (SessionQueue Context)
  | .enqueue request => (enqueueSystemEvent host request entry).2
  | .drain => (drainSystemEventEntries entry).2
  | .consume consumed => (consumeSystemEventEntries host consumed entry).2
  | .consumeSelected consumed => (consumeSelectedSystemEventEntries host consumed entry).2

/-- The map `queues`, by session key -/
abbrev Queues (Context : Type) := String → Option (SessionQueue Context)

def Queues.call (queues : Queues Context) (sessionKey : String) (call : EventCall Context) :
    Queues Context :=
  match requireSessionKey sessionKey with
  | .error _ => queues
  | .ok key => Function.update queues key (call.perform host (queues key))

def step : StepRelation (Queues Context) (String × EventCall Context) :=
  fun source action target => target = source.call host action.1 action.2

/-- The map after these calls of `enqueueSystemEvent`, each for a session -/
def Queues.enqueueAll (queues : Queues Context)
    (requests : List (String × EnqueueRequest Context)) : Queues Context :=
  requests.foldl (fun queues request => queues.call host request.1 (.enqueue request.2)) queues

/-- The events that these calls add to the queue of a key, in order -/
def acceptedEvents (key : String) (queues : Queues Context) :
    List (String × EnqueueRequest Context) → List (SystemEvent Context)
  | [] => []
  | request :: rest =>
    (if requireSessionKey request.1 = .ok key then
        (acceptedEvent host (peek (queues key)) request.2).toList
      else []) ++
      acceptedEvents key (queues.call host request.1 (.enqueue request.2)) rest

/-- The part of a history of events that the limit leaves in a queue -/
def recent (events : List (SystemEvent Context)) : List (SystemEvent Context) :=
  events.drop (events.length - maxEvents)

/-- A queue within the limit, that remembers no context key when it is empty -/
structure WellFormed (entry : SessionQueue Context) : Prop where
  length : entry.queue.length ≤ maxEvents
  lastContextKey : entry.queue = [] → entry.lastContextKey = none

/--
The peeked entries that were still queued are removed, the events accepted since
that were still queued remain, and the context key is the newest one among them.
-/
structure ConsumesPeeked (peeked accepted removed : List (SystemEvent Context))
    (after : SessionQueue Context) : Prop where
  removed : removed = peeked.drop (peeked.length + accepted.length - maxEvents)
  remaining : after.queue = recent accepted
  lastContextKey : after.lastContextKey = newestContextKey after.queue

/--
Either something was peeked and nothing was dropped since, or nothing peeked is
queued, the queue does not begin with events that look like the peeked ones, and
no context key is remembered from an event that was dropped.
-/
def Aligned (lastContextKey : Option String) (peeked accepted : List (SystemEvent Context)) :
    Prop :=
  (peeked ≠ [] ∧ peeked.length + accepted.length ≤ maxEvents) ∨
    ((peeked = [] ∨ (maxEvents ≤ accepted.length ∧ isHead host (recent accepted) peeked = false)) ∧
      (newestContextKey (recent accepted) = none →
        newestContextKey accepted = none ∧ lastContextKey = none))

variable {host}

theorem areSystemEventsEqual_self (event : SystemEvent Context) :
    areSystemEventsEqual host event event = true := by
  have sameContext : areDeliveryContextsEqual host event.deliveryContext event.deliveryContext := by
    cases event.deliveryContext <;> simp [areDeliveryContextsEqual]
  simp [areSystemEventsEqual, sameContext]

theorem isHead_append (consumed rest : List (SystemEvent Context)) :
    isHead host (consumed ++ rest) consumed = true := by
  have equal : ((consumed ++ rest).zip consumed).all
      fun pair => areSystemEventsEqual host pair.1 pair.2 := by
    induction consumed with
    | nil => simp
    | cons event consumed inductionHypothesis =>
      simpa [areSystemEventsEqual_self] using inductionHypothesis
  simpa [isHead] using equal

theorem recent_of_le {events : List (SystemEvent Context)} (within : events.length ≤ maxEvents) :
    recent events = events := by
  simp [recent, Nat.sub_eq_zero_of_le within]

theorem length_recent_le (events : List (SystemEvent Context)) :
    (recent events).length ≤ maxEvents := by
  rw [recent, List.length_drop]
  omega

theorem recent_recent_append (first second : List (SystemEvent Context)) :
    recent (recent first ++ second) = recent (first ++ second) := by
  rcases Nat.le_total first.length maxEvents with within | beyond
  · rw [recent_of_le within]
  · simp only [recent]
    rw [← List.drop_append_of_le_length (Nat.sub_le _ _), List.drop_drop]
    congr 1
    simp only [List.length_drop, List.length_append]
    omega

theorem recent_append (first second : List (SystemEvent Context)) : recent (first ++ second) =
      first.drop (first.length + second.length - maxEvents) ++ recent second := by
  have behind : first.length + second.length - maxEvents - first.length =
      second.length - maxEvents := by
    omega
  simp only [recent, List.length_append, List.drop_append, behind]

theorem newestContextKey_append (first second : List (SystemEvent Context)) :
    newestContextKey (first ++ second) = (newestContextKey second).or (newestContextKey first) := by
  simp [newestContextKey, List.findSome?_append]

theorem push_queue {entry : SessionQueue Context} (event : SystemEvent Context)
    (within : entry.queue.length ≤ maxEvents) :
    (entry.push event).queue = recent (entry.queue ++ [event]) := by
  simp only [SessionQueue.push, recent, List.length_append, List.length_singleton]
  split
  · rw [show entry.queue.length + 1 - maxEvents = 1 by omega, List.drop_one]
  · rw [show entry.queue.length + 1 - maxEvents = 0 by omega, List.drop_zero]

theorem removeSelected_length (queue consumed : List (SystemEvent Context)) :
    (removeSelected host queue consumed).2.length ≤ queue.length := by
  induction consumed generalizing queue with
  | nil => exact Nat.le_refl _
  | cons event rest inductionHypothesis =>
    simp only [removeSelected]
    split
    · exact inductionHypothesis queue
    · exact (inductionHypothesis _).trans (List.length_eraseIdx_le ..)

theorem getOrCreate_resetQueueState (queue : List (SystemEvent Context)) :
    getOrCreate (resetQueueState queue) =
      { queue := queue, lastContextKey := newestContextKey queue } := by
  cases queue <;> simp [resetQueueState, getOrCreate, newestContextKey]

theorem wellFormed_resetQueueState {queue : List (SystemEvent Context)}
    (within : queue.length ≤ maxEvents) : WellFormed (getOrCreate (resetQueueState queue)) := by
  rw [getOrCreate_resetQueueState]
  refine ⟨within, ?_⟩
  rintro rfl
  rfl

theorem WellFormed.perform {entry : Option (SessionQueue Context)}
    (wellFormed : WellFormed (getOrCreate entry)) (call : EventCall Context) :
    WellFormed (getOrCreate (call.perform host entry)) := by
  have within := wellFormed.length
  cases call with
  | enqueue request =>
    simp only [EventCall.perform, enqueueSystemEvent]
    split
    · exact wellFormed
    next event _ =>
      have queue := push_queue event within
      refine ⟨queue ▸ length_recent_le _, fun nothing => ?_⟩
      have length := congrArg List.length (queue.symm.trans nothing)
      simp [recent, maxEvents] at length
      omega
  | drain =>
    simp only [EventCall.perform, drainSystemEventEntries]
    split
    · exact wellFormed
    · exact ⟨Nat.zero_le _, fun _ => rfl⟩
  | consume consumed =>
    simp only [EventCall.perform, consumeSystemEventEntries]
    split
    · exact wellFormed
    · exact wellFormed_resetQueueState ((List.drop_sublist ..).length_le.trans within)
  | consumeSelected consumed =>
    simp only [EventCall.perform, consumeSelectedSystemEventEntries]
    split
    · exact wellFormed
    · exact wellFormed_resetQueueState ((removeSelected_length ..).trans within)

variable {queues : Queues Context} {key : String}

theorem call_apply (sessionKey : String) (call : EventCall Context) :
    queues.call host sessionKey call key =
      if requireSessionKey sessionKey = .ok key then call.perform host (queues key)
      else queues key := by
  cases named : requireSessionKey sessionKey with
  | error => simp [Queues.call, named]
  | ok given =>
    simp only [Queues.call, named, Function.update_apply, Except.ok.injEq, eq_comm (a := key)]
    split
    next same => rw [same]
    · rfl

theorem wellFormed_call (wellFormed : ∀ key, WellFormed (getOrCreate (queues key)))
    (sessionKey : String) (call : EventCall Context) :
    ∀ key, WellFormed (getOrCreate (queues.call host sessionKey call key)) := by
  intro key
  rw [call_apply]
  split
  · exact (wellFormed key).perform call
  · exact wellFormed key

theorem wellFormed_of_reachable (reachable : Reachable (step host) (· = fun _ => none) queues) :
    ∀ key, WellFormed (getOrCreate (queues key)) := by
  have preserved : Preserves (step host) fun queues : Queues Context =>
      ∀ key, WellFormed (getOrCreate (queues key)) := by
    rintro source action _ rfl wellFormed
    exact wellFormed_call wellFormed action.1 action.2
  refine reachable.invariant ?_ preserved
  rintro _ rfl key
  exact ⟨Nat.zero_le _, fun _ => rfl⟩

/-- Requests append what they add, and the newest of its context keys is remembered. -/
theorem enqueueAll_apply (requests : List (String × EnqueueRequest Context))
    (wellFormed : ∀ key, WellFormed (getOrCreate (queues key))) :
    peek (queues.enqueueAll host requests key) =
        recent (peek (queues key) ++ acceptedEvents host key queues requests) ∧
      (getOrCreate (queues.enqueueAll host requests key)).lastContextKey =
        (newestContextKey (acceptedEvents host key queues requests)).or
          (getOrCreate (queues key)).lastContextKey := by
  induction requests generalizing queues with
  | nil =>
    simp [Queues.enqueueAll, acceptedEvents, newestContextKey, peek,
      recent_of_le (wellFormed key).length]
  | cons request rest inductionHypothesis =>
    obtain ⟨later, laterKey⟩ :=
      inductionHypothesis (wellFormed_call wellFormed request.1 (.enqueue request.2))
    have unchanged := recent_of_le (wellFormed key).length
    refine ⟨later.trans ?_, laterKey.trans ?_⟩
    · rw [acceptedEvents, ← List.append_assoc, ← recent_recent_append (peek (queues key) ++ _)]
      congr 2
      rw [call_apply]
      split
      · simp only [EventCall.perform, enqueueSystemEvent]
        cases acceptedEvent host (peek (queues key)) request.2 with
        | none => simpa [peek, getOrCreate] using unchanged.symm
        | some event => exact push_queue event (wellFormed key).length
      · simpa [peek] using unchanged.symm
    · rw [acceptedEvents, newestContextKey_append, Option.or_assoc]
      congr 1
      rw [call_apply]
      split
      · simp only [EventCall.perform, enqueueSystemEvent]
        cases acceptedEvent host (peek (queues key)) request.2 with
        | none => simp [newestContextKey, getOrCreate]
        | some event => simp [newestContextKey, SessionQueue.push, getOrCreate]
      · simp [newestContextKey]

theorem consumesPeeked_unchanged_iff {peeked accepted : List (SystemEvent Context)}
    {before : Option String} {after : SessionQueue Context}
    (queued : after.queue = recent (peeked ++ accepted))
    (remembered : after.lastContextKey = (newestContextKey accepted).or before) :
    ConsumesPeeked peeked accepted [] after ↔
      (peeked = [] ∨ maxEvents ≤ accepted.length) ∧
        (newestContextKey (recent accepted) = none →
          newestContextKey accepted = none ∧ before = none) := by
  have gone : [] = peeked.drop (peeked.length + accepted.length - maxEvents) ↔
      peeked = [] ∨ maxEvents ≤ accepted.length := by
    rw [eq_comm, List.drop_eq_nil_iff, ← List.length_eq_zero_iff]
    omega
  have newest : (newestContextKey accepted).or before = newestContextKey (recent accepted) ↔
      (newestContextKey (recent accepted) = none →
        newestContextKey accepted = none ∧ before = none) := by
    have whole := newestContextKey_append (accepted.take (accepted.length - maxEvents))
      (recent accepted)
    rw [recent, List.take_append_drop, ← recent] at whole
    cases found : newestContextKey (recent accepted) with
    | none => simp
    | some key => simp [whole, found]
  constructor
  · intro consumes
    refine ⟨gone.mp consumes.removed, newest.mp ?_⟩
    rw [← remembered, consumes.lastContextKey, consumes.remaining]
  · intro ⟨absent, forgotten⟩
    have remaining : after.queue = recent accepted := by
      rw [queued, recent_append, ← gone.mpr absent, List.nil_append]
    refine ⟨gone.mpr absent, remaining, ?_⟩
    rw [remembered, remaining, newest.mpr forgotten]

/--
The peeked entries are consumed as they should be, and the remembered context
key is right, exactly when the peeked events and those accepted since align.
-/
theorem consumesPeeked_iff (host : EventHost Context)
    (reachable : Reachable (step host) (· = fun _ => none) queues) (key : String)
    (requests : List (String × EnqueueRequest Context)) :
    let outcome := consumeSystemEventEntries host (peek (queues key))
      (queues.enqueueAll host requests key)
    let accepted := acceptedEvents host key queues requests
    ConsumesPeeked (peek (queues key)) accepted outcome.1 (getOrCreate outcome.2) ↔
      Aligned host (getOrCreate (queues key)).lastContextKey (peek (queues key)) accepted := by
  have wellFormed := wellFormed_of_reachable reachable
  obtain ⟨queued, remembered⟩ := @enqueueAll_apply _ host _ key requests wellFormed
  have within := (wellFormed key).length
  have unchanged := consumesPeeked_unchanged_iff queued remembered
  generalize acceptedEvents host key queues requests = accepted at *
  generalize queues.enqueueAll host requests key = after at *
  change (peek (queues key)).length ≤ _ at within
  generalize peek (queues key) = peeked at *
  have kept : peeked.length + accepted.length ≤ maxEvents → peek after = peeked ++ accepted := by
    intro fits
    rw [queued, recent_of_le (by simpa using fits)]
  have gone : maxEvents ≤ accepted.length → peek after = recent accepted := by
    intro late
    rw [queued, recent_append, List.drop_eq_nil_of_le (by omega), List.nil_append]
  simp only [consumeSystemEventEntries]
  split
  next refused =>
    refine unchanged.trans ⟨fun ⟨absent, forgotten⟩ => Or.inr ⟨?_, forgotten⟩, ?_⟩
    · refine or_iff_not_imp_left.mpr fun present => ?_
      have late := absent.resolve_left present
      have full : recent accepted ≠ [] := by
        rw [recent, ne_eq, List.drop_eq_nil_iff]
        simp only [maxEvents] at late ⊢
        omega
      rw [gone late] at refused
      exact ⟨late, (refused.resolve_left full).resolve_left present⟩
    · rintro (⟨present, fits⟩ | ⟨absent, forgotten⟩)
      · rw [kept fits, isHead_append] at refused
        simp [present] at refused
      · exact ⟨absent.imp_right And.left, forgotten⟩
  next passes =>
    obtain ⟨-, present, head⟩ : _ ∧ peeked ≠ [] ∧ isHead host (peek after) peeked = true := by
      simpa using passes
    have some := List.length_pos_of_ne_nil present
    rw [getOrCreate_resetQueueState]
    constructor
    · intro consumes
      refine Or.inl ⟨present, ?_⟩
      have lengths := congrArg List.length consumes.remaining
      simp only [queued, recent, List.length_drop, List.length_append] at lengths
      omega
    · rintro (⟨-, fits⟩ | ⟨absent | ⟨late, differs⟩, -⟩)
      · refine ⟨?_, ?_, rfl⟩
        · rw [kept fits, Nat.sub_eq_zero_of_le fits]
          simp
        · rw [kept fits, recent_of_le (by omega)]
          simp
      · exact absurd absent present
      · rw [← gone late, head] at differs
        simp at differs

/-- A host that leaves delivery contexts as they are -/
private def plainHost : EventHost Unit := ⟨id, id, fun _ => ""⟩

/-- Events of one session, of which no two neighbours are duplicates -/
private def ticks (count : ℕ) : List (String × EnqueueRequest Unit) :=
  (List.range count).map fun now =>
    ("main", ⟨if now % 2 = 0 then "tick" else "tock", none, none, now⟩)

private theorem reachable_ticks (count : ℕ) : Reachable (step plainHost) (· = fun _ => none)
      (Queues.enqueueAll plainHost (fun _ => none) (ticks count)) := by
  suffices ∀ requests queues, Reachable (step plainHost) (· = fun _ => none) queues →
      Reachable (step plainHost) (· = fun _ => none) (queues.enqueueAll plainHost requests) from
    this _ _ (Reachable.start rfl)
  intro requests
  induction requests with
  | nil => exact fun _ reachable => reachable
  | cons request rest inductionHypothesis =>
    intro queues reachable
    have taken : step plainHost queues (request.1, .enqueue request.2) _ := rfl
    exact inductionHypothesis _ (reachable.next taken)

/-- One event is peeked at, and consumed when another one is behind it. -/
theorem consumesPeeked_tick :
    let queues := Queues.enqueueAll plainHost (fun _ => none) (ticks 1)
    let requests := [("main", EnqueueRequest.mk "tock" none none 1)]
    let outcome := consumeSystemEventEntries plainHost (peek (queues "main"))
      (queues.enqueueAll plainHost requests "main")
    ConsumesPeeked (peek (queues "main")) (acceptedEvents plainHost "main" queues requests)
      outcome.1 (getOrCreate outcome.2) :=
  (consumesPeeked_iff plainHost (reachable_ticks 1) "main" _).mpr
    (Or.inl ⟨List.length_pos_iff.mp (by decide +kernel), by decide +kernel⟩)

/--
Twenty events are peeked at and one more is enqueued: the first is dropped, and
the nineteen that are still queued are not removed.
-/
theorem not_consumesPeeked_full : ¬ ∀ (host : EventHost Unit) (queues : Queues Unit)
    (key : String) (requests : List (String × EnqueueRequest Unit)),
    Reachable (step host) (· = fun _ => none) queues →
    let outcome := consumeSystemEventEntries host (peek (queues key))
      (queues.enqueueAll host requests key)
    ConsumesPeeked (peek (queues key)) (acceptedEvents host key queues requests)
      outcome.1 (getOrCreate outcome.2) := by
  intro always
  have consumes := always plainHost _ "main" [("main", ⟨"tick", none, none, 20⟩)]
    (reachable_ticks 20)
  exact absurd (congrArg List.length consumes.remaining) (by decide +kernel)

section Distinct

/-- No event is blank, and no event repeats an earlier one with its context key. -/
structure Distinct (host : EventHost Context) (queue : List (SystemEvent Context)) : Prop where
  within : queue.length ≤ maxEvents
  noBlank : ∀ event ∈ queue, event.text ≠ ""
  noRepeat :
    queue.Pairwise fun earlier later =>
      later.contextKey ≠ none → isDuplicateSystemEvent host earlier later = false

variable {queue : List (SystemEvent Context)}

theorem Distinct.sublist {fewer : List (SystemEvent Context)} (distinct : Distinct host queue)
    (sublist : fewer.Sublist queue) : Distinct host fewer where
  within := sublist.length_le.trans distinct.within
  noBlank event member := distinct.noBlank event (sublist.subset member)
  noRepeat := distinct.noRepeat.sublist sublist

theorem removeSelected_sublist (queue consumed : List (SystemEvent Context)) :
    (removeSelected host queue consumed).2.Sublist queue := by
  induction consumed generalizing queue with
  | nil => exact .refl queue
  | cons event rest inductionHypothesis =>
    rw [removeSelected]
    split
    · exact inductionHypothesis queue
    · exact (inductionHypothesis _).trans (List.eraseIdx_sublist ..)

theorem Distinct.push {entry : SessionQueue Context} {event : SystemEvent Context}
    {request : EnqueueRequest Context} (distinct : Distinct host entry.queue)
    (accepted : acceptedEvent host entry.queue request = some event) :
    Distinct host (entry.push event).queue := by
  obtain ⟨allowed, isEvent⟩ := Option.ite_none_left_eq_some.mp accepted
  rw [Option.some_inj.mp isEvent, not_or] at allowed
  obtain ⟨notBlank, notFound⟩ := allowed
  have noRepeat : (entry.queue ++ [event]).Pairwise fun earlier later =>
      later.contextKey ≠ none → isDuplicateSystemEvent host earlier later = false := by
    refine List.pairwise_append.mpr ⟨distinct.noRepeat, List.pairwise_singleton .., ?_⟩
    intro earlier member later isLast hasKey
    rw [List.mem_singleton.mp isLast] at hasKey ⊢
    simp only [findDuplicateInQueue, if_neg hasKey, List.any_eq_true, not_exists,
      not_and] at notFound
    exact Bool.eq_false_iff.mpr (notFound earlier member)
  rw [push_queue event distinct.within]
  refine ⟨length_recent_le _, fun other member => ?_, noRepeat.sublist (List.drop_sublist ..)⟩
  rcases List.mem_append.mp (List.mem_of_mem_drop member) with earlier | isLast
  · exact distinct.noBlank other earlier
  · exact List.mem_singleton.mp isLast ▸ notBlank

theorem Distinct.perform {entry : Option (SessionQueue Context)}
    (distinct : Distinct host (peek entry)) (call : EventCall Context) :
    Distinct host (peek (call.perform host entry)) := by
  cases call with
  | enqueue request =>
    rw [EventCall.perform, enqueueSystemEvent]
    cases accepted : acceptedEvent host (peek entry) request with
    | none => exact distinct
    | some event => exact Distinct.push distinct accepted
  | drain =>
    rw [EventCall.perform, drainSystemEventEntries]
    split
    · exact distinct
    · exact distinct.sublist (List.nil_sublist _)
  | consume consumed =>
    rw [EventCall.perform, consumeSystemEventEntries]
    split
    · exact distinct
    · rw [peek, getOrCreate_resetQueueState]
      exact distinct.sublist (List.drop_sublist ..)
  | consumeSelected consumed =>
    rw [EventCall.perform, consumeSelectedSystemEventEntries]
    split
    · exact distinct
    · rw [peek, getOrCreate_resetQueueState]
      exact distinct.sublist (removeSelected_sublist ..)

end Distinct

/-- After any calls, no queue holds a blank event, a repeated one or more than the limit. -/
theorem distinct_after (host : EventHost Context) (calls : List (String × EventCall Context))
    (key : String) : Distinct host (peek ((calls.foldl (fun queues call =>
      Queues.call host queues call.1 call.2) fun _ => none) key)) := by
  suffices ∀ queues : Queues Context, (∀ key, Distinct host (peek (queues key))) →
      ∀ key, Distinct host (peek (calls.foldl (fun queues call =>
        Queues.call host queues call.1 call.2) queues key)) from
    this _ (fun _ => ⟨Nat.zero_le _, by simp [peek, getOrCreate], .nil⟩) key
  induction calls with
  | nil => exact fun _ distinct => distinct
  | cons call rest inductionHypothesis =>
    intro queues distinct
    refine inductionHypothesis _ fun key => ?_
    change Distinct host (peek (queues.call host call.1 call.2 key))
    rw [call_apply]
    split
    · exact (distinct key).perform call.2
    · exact distinct key

end SystemEvents
