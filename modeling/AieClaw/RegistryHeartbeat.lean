import AieClaw.AgentRegistry

/-!
# The registry heartbeat

`src/heartbeat.ts` of the agent registry extension: on every tick of a timer a heartbeat is
sent, and every acknowledgement sets the count of unanswered ones back. A tick that finds
three of them unanswered takes the registry for offline; the heartbeat is sent all the same,
so that an acknowledgement can bring the registry back.
-/

namespace RegistryHeartbeat

open List AgentRegistry

inductive Callback where
  | registryOffline
  | registryOnline
  deriving DecidableEq

/-- How far a tick gets with its heartbeat. -/
inductive Sending where
  | sent
  /-- The callback or the session count failed, before a sequence number was taken. -/
  | notBuilt
  | notPublished
  deriving DecidableEq

inductive Event where
  | tick (agentId : String) (activeSessionCount : ℕ) (sending : Sending)
  | ack

structure HeartbeatPayload where
  agentId : String
  /-- Whether the status is `busy`, not `idle`. -/
  busy : Bool
  activeTaskCount : ℕ

structure Heartbeat where
  messageType : MessageType
  source : String
  seq : ℕ
  action : String
  resourceType : String
  payload : HeartbeatPayload
  replyTo : String

def maxMissed : ℕ := 3

def buildHeartbeatPayload (agentId : String) (activeSessionCount : ℕ) : HeartbeatPayload where
  agentId := agentId
  busy := decide (0 < activeSessionCount)
  activeTaskCount := activeSessionCount

def heartbeatAckSubject (agentId : String) : String := "a2a.agent.heartbeat-ack." ++ agentId

structure HeartbeatManager where
  running : Bool
  seq : ℕ
  missedCount : ℕ
  registryOnline : Bool

/-- What an event leaves behind: the manager, the callback made and the heartbeat sent. -/
structure Response where
  manager : HeartbeatManager
  callback : Option Callback
  published : Option Heartbeat

namespace HeartbeatManager

variable (manager : HeartbeatManager)

def start : HeartbeatManager :=
  { manager with missedCount := 0, registryOnline := true, running := true }

def stop : HeartbeatManager :=
  { manager with missedCount := 0, registryOnline := true, running := false }

def onAckReceived : Response where
  manager := { manager with missedCount := 0, registryOnline := true }
  callback := if manager.registryOnline then none else some .registryOnline
  published := none

/-- The next heartbeat, with its sequence number. -/
def heartbeat (agentId : String) (activeSessionCount : ℕ) : Heartbeat where
  messageType := .req
  source := agentId
  seq := manager.seq
  action := "heartbeat"
  resourceType := "agent"
  payload := buildHeartbeatPayload agentId activeSessionCount
  replyTo := heartbeatAckSubject agentId

/-- A tick: the registry is looked at first, and a heartbeat is sent whatever is found. -/
def publishHeartbeat (agentId : String) (activeSessionCount : ℕ) (sending : Sending) :
    Response :=
  let overdue := decide (maxMissed ≤ manager.missedCount)
  let checked := { manager with registryOnline := manager.registryOnline && !overdue }
  { manager :=
      match sending with
      | .notBuilt => checked
      | .notPublished => { checked with seq := checked.seq + 1 }
      | .sent => { checked with seq := checked.seq + 1, missedCount := checked.missedCount + 1 }
    callback := if overdue && manager.registryOnline then some .registryOffline else none
    published :=
      if sending = .sent then some (manager.heartbeat agentId activeSessionCount) else none }

def respond : Event → Response
  | .tick agentId activeSessionCount sending =>
    manager.publishHeartbeat agentId activeSessionCount sending
  | .ack => manager.onAckReceived

def after (events : List Event) : HeartbeatManager :=
  events.foldl (fun manager event => (manager.respond event).manager) manager

/-- The callbacks that a sequence of events makes, in order. -/
def callbacks (manager : HeartbeatManager) : List Event → List Callback
  | [] => []
  | event :: rest =>
    (manager.respond event).callback.toList ++ callbacks (manager.respond event).manager rest

/-- The callback of an event behind others. -/
def callbackAt (earlier : List Event) (event : Event) : Option Callback :=
  ((manager.after earlier).respond event).callback

end HeartbeatManager

section History

/-- The heartbeats sent since the last acknowledgement. -/
def unanswered (events : List Event) : ℕ :=
  events.foldl (fun count event =>
    match event with
    | .ack => 0
    | .tick _ _ .sent => count + 1
    | .tick _ _ _ => count) 0

/-- A tick since the last acknowledgement found as many unanswered as may be missed. -/
def Offline (events : List Event) : Prop :=
  ∃ earlier agentId activeSessionCount sending later,
    events = earlier ++ .tick agentId activeSessionCount sending :: later ∧
      Event.ack ∉ later ∧ maxMissed ≤ unanswered earlier

/-- Callbacks that take turns, with the given one first. -/
def Alternates : Callback → List Callback → Prop
  | _, [] => True
  | .registryOffline, first :: rest =>
    first = .registryOffline ∧ Alternates .registryOnline rest
  | .registryOnline, first :: rest =>
    first = .registryOnline ∧ Alternates .registryOffline rest

structure TellsOutages (manager : HeartbeatManager) : Prop where
  alternates : ∀ events, Alternates .registryOffline (manager.callbacks events)
  /-- The last callback tells whether the registry is taken for offline. -/
  last : ∀ events, (manager.callbacks events).getLast? = some .registryOffline ↔ Offline events
  offline : ∀ earlier event, manager.callbackAt earlier event = some .registryOffline ↔
    event ≠ .ack ∧ maxMissed ≤ unanswered earlier ∧ ¬Offline earlier
  online : ∀ earlier event, manager.callbackAt earlier event = some .registryOnline ↔
    event = .ack ∧ Offline earlier

end History

variable {manager : HeartbeatManager} {earlier : List Event} {event : Event}

theorem after_concat (manager : HeartbeatManager) (earlier : List Event) (event : Event) :
    manager.after (earlier ++ [event]) = ((manager.after earlier).respond event).manager := by
  simp [HeartbeatManager.after, foldl_append]

theorem callbacks_append (manager : HeartbeatManager) (earlier later : List Event) :
    manager.callbacks (earlier ++ later) =
      manager.callbacks earlier ++ (manager.after earlier).callbacks later := by
  induction earlier generalizing manager with
  | nil => rfl
  | cons event rest inductionHypothesis =>
    simp only [cons_append, HeartbeatManager.callbacks, inductionHypothesis, append_assoc]
    rfl

theorem callbacks_concat (manager : HeartbeatManager) (earlier : List Event) (event : Event) :
    manager.callbacks (earlier ++ [event]) =
      manager.callbacks earlier ++ (manager.callbackAt earlier event).toList := by
  simp [callbacks_append, HeartbeatManager.callbacks, HeartbeatManager.callbackAt]

theorem unanswered_concat (earlier : List Event) (event : Event) :
    unanswered (earlier ++ [event]) =
      match event with
      | .ack => 0
      | .tick _ _ .sent => unanswered earlier + 1
      | .tick _ _ _ => unanswered earlier := by
  simp only [unanswered, foldl_append, foldl_cons, foldl_nil]

theorem not_offline_nil : ¬Offline [] := by
  rintro ⟨earlier, agentId, activeSessionCount, sending, later, shape, -⟩
  simp at shape

theorem not_offline_ack (earlier : List Event) : ¬Offline (earlier ++ [.ack]) := by
  rintro ⟨before, agentId, activeSessionCount, sending, later, shape, noAck, -⟩
  rcases eq_nil_or_concat later with rfl | ⟨rest, last, rfl⟩
  · have sameLast := (append_inj' shape rfl).2
    simp at sameLast
  · rw [concat_eq_append, ← cons_append, ← append_assoc] at shape
    have sameLast := (append_inj' shape rfl).2
    exact noAck (by simp [singleton_inj.mp sameLast])

theorem offline_tick_iff {agentId : String} {activeSessionCount : ℕ} {sending : Sending} :
    Offline (earlier ++ [.tick agentId activeSessionCount sending]) ↔
      Offline earlier ∨ maxMissed ≤ unanswered earlier := by
  constructor
  · rintro ⟨before, agentId, activeSessionCount, sending, later, shape, noAck, many⟩
    rcases eq_nil_or_concat later with rfl | ⟨rest, last, rfl⟩
    · exact Or.inr ((append_inj' shape rfl).1 ▸ many)
    · rw [concat_eq_append, ← cons_append, ← append_assoc] at shape
      have sameStart := (append_inj' shape rfl).1
      exact Or.inl ⟨before, agentId, activeSessionCount, sending, rest, sameStart,
        fun member => noAck (by simp [member]), many⟩
  · rintro (⟨before, agentId, activeSessionCount, sending, later, rfl, noAck, many⟩ | many)
    · have moved (last : Event) (tick : last ≠ .ack) :
          Offline (before ++ .tick agentId activeSessionCount sending :: later ++ [last]) :=
        ⟨before, agentId, activeSessionCount, sending, later ++ [last], by simp,
          by simp [noAck, tick.symm], many⟩
      exact moved _ (by simp)
    · exact ⟨earlier, _, _, _, [], rfl, by simp, many⟩

/-- What the counter and the flag of a started manager stand for. -/
structure Tracks (manager : HeartbeatManager) (events : List Event) : Prop where
  missed : manager.missedCount = unanswered events
  flag : manager.registryOnline = false ↔ Offline events

namespace Tracks

theorem start (manager : HeartbeatManager) : Tracks manager.start [] where
  missed := rfl
  flag := iff_of_false (by simp [HeartbeatManager.start]) not_offline_nil

theorem respond (tracks : Tracks manager earlier) (event : Event) :
    Tracks (manager.respond event).manager (earlier ++ [event]) := by
  cases event with
  | ack =>
    exact ⟨by rw [unanswered_concat]; rfl, iff_of_false (by simp [HeartbeatManager.respond,
      HeartbeatManager.onAckReceived]) (not_offline_ack earlier)⟩
  | tick agentId activeSessionCount sending =>
    constructor
    · rw [unanswered_concat]
      cases sending <;>
        simp [HeartbeatManager.respond, HeartbeatManager.publishHeartbeat, tracks.missed]
    · rw [offline_tick_iff, ← tracks.flag, ← tracks.missed]
      cases sending <;>
        simp [HeartbeatManager.respond, HeartbeatManager.publishHeartbeat] <;> grind

theorem after (manager : HeartbeatManager) (events : List Event) :
    Tracks (manager.start.after events) events := by
  induction events using reverseRecOn with
  | nil => exact start manager
  | append_singleton earlier event inductionHypothesis =>
    rw [after_concat]
    exact inductionHypothesis.respond event

theorem callback_eq (tracks : Tracks manager earlier) (event : Event) :
    ((manager.respond event).callback = some .registryOffline ↔
      event ≠ .ack ∧ maxMissed ≤ unanswered earlier ∧ ¬Offline earlier) ∧
    ((manager.respond event).callback = some .registryOnline ↔
      event = .ack ∧ Offline earlier) := by
  rw [← tracks.flag, ← tracks.missed]
  cases event with
  | ack =>
    cases flag : manager.registryOnline <;>
      simp [HeartbeatManager.respond, HeartbeatManager.onAckReceived, flag]
  | tick agentId activeSessionCount sending =>
    simp [HeartbeatManager.respond, HeartbeatManager.publishHeartbeat]

end Tracks

theorem respond_cases (manager : HeartbeatManager) (event : Event) :
    ((manager.respond event).callback = none ∧
      (manager.respond event).manager.registryOnline = manager.registryOnline) ∨
    ((manager.respond event).callback = some .registryOffline ∧
      manager.registryOnline = true ∧ (manager.respond event).manager.registryOnline = false) ∨
    ((manager.respond event).callback = some .registryOnline ∧
      manager.registryOnline = false ∧ (manager.respond event).manager.registryOnline = true) := by
  cases event with
  | ack =>
    cases flag : manager.registryOnline <;>
      simp [HeartbeatManager.respond, HeartbeatManager.onAckReceived, flag]
  | tick agentId activeSessionCount sending =>
    by_cases overdue : maxMissed ≤ manager.missedCount <;>
      cases flag : manager.registryOnline <;> cases sending <;>
        simp [HeartbeatManager.respond, HeartbeatManager.publishHeartbeat, flag, overdue]

/-- The callback that is due next. -/
def HeartbeatManager.dueNext (manager : HeartbeatManager) : Callback :=
  if manager.registryOnline then .registryOffline else .registryOnline

theorem alternates_callbacks (manager : HeartbeatManager) (events : List Event) :
    Alternates manager.dueNext (manager.callbacks events) := by
  induction events generalizing manager with
  | nil => cases manager.dueNext <;> exact trivial
  | cons event rest inductionHypothesis =>
    have later := inductionHypothesis (manager.respond event).manager
    rw [HeartbeatManager.dueNext] at later ⊢
    rw [HeartbeatManager.callbacks]
    rcases respond_cases manager event with
      ⟨silent, same⟩ | ⟨callback, before, after⟩ | ⟨callback, before, after⟩
    · rw [silent, ← same]
      exact later
    · rw [callback, before]
      rw [after] at later
      exact ⟨rfl, later⟩
    · rw [callback, before]
      rw [after] at later
      exact ⟨rfl, later⟩

theorem getLast?_callbacks (manager : HeartbeatManager) (events : List Event) :
    (manager.start.callbacks events).getLast? = some .registryOffline ↔
      (manager.start.after events).registryOnline = false := by
  induction events using reverseRecOn with
  | nil => simp [HeartbeatManager.callbacks, HeartbeatManager.after, HeartbeatManager.start]
  | append_singleton earlier event inductionHypothesis =>
    rw [callbacks_concat, after_concat, HeartbeatManager.callbackAt]
    rcases respond_cases (manager.start.after earlier) event with
      ⟨silent, same⟩ | ⟨callback, before, after⟩ | ⟨callback, before, after⟩
    · rw [silent, same]
      simpa using inductionHypothesis
    · simp [callback, after]
    · simp [callback, after]

/--
Between a start and the next stop or start, the callbacks take turns, beginning with the offline
one. That one is made at the first tick that finds three heartbeats sent and not answered, and
the online one at the first acknowledgement after it.
-/
theorem tellsOutages_start (manager : HeartbeatManager) : TellsOutages manager.start where
  alternates := alternates_callbacks manager.start
  last events := (getLast?_callbacks manager events).trans (Tracks.after manager events).flag
  offline earlier event := ((Tracks.after manager earlier).callback_eq event).1
  online earlier event := ((Tracks.after manager earlier).callback_eq event).2

end RegistryHeartbeat
