import AieClaw.JsString
import AieClaw.OrderedMap
import AieClaw.TransitionSystem

/-!
# The agent registry channel

The inbound router, the table of agent sessions and the outbound adapter of the
agent registry channel. A request that the router dispatches starts a task on a
session object; the task may deliver replies until it settles, also after its
session was evicted from the table.
-/

namespace AgentRegistry

open TransitionSystem

inductive MessageType where
  | req
  | res
  | event
  deriving DecidableEq

/-- The fields of an envelope that routing reads or copies into the reply. -/
structure RegistryEnvelope where
  requestId : String
  messageType : MessageType
  source : String
  session : Option String
  action : String
  replyTo : Option String

/-- The session field, unless it is absent or empty. -/
def RegistryEnvelope.sessionField (envelope : RegistryEnvelope) : Option String :=
  envelope.session.filter (· ≠ "")

def unicastTopic : String := "a2a.agent.unicast."

def multicastTopic : String := "a2a.agent.group."

def broadcastTopic : String := "a2a.agent.broadcast."

def coworkTopic : String := "a2a.cowork."

def matchesPrefix (start topic : String) : Bool := JsString.startsWith topic start

/-- The rest of a topic after the length of a prefix. -/
def segmentAfter (start topic : String) : String := String.ofList (topic.toList.drop start.length)

/-- The session table key of a unicast request. -/
def deriveUnicastSessionKey (source : String) (session : Option String) : String :=
  match session with
  | some session => "unicast:" ++ source ++ ":" ++ session
  | none => "unicast:" ++ source

/-- What the inbound handler does with an envelope. -/
inductive Route where
  | response
  | loopback
  | unicast
  | multicast
  | broadcast
  | cowork (coworkId : String)
  | unrecognized
  deriving DecidableEq

/-- The handler that the topic selects. -/
def routeTopic (topic : String) : Route :=
  if matchesPrefix unicastTopic topic then .unicast
  else if matchesPrefix multicastTopic topic then .multicast
  else if matchesPrefix broadcastTopic topic then .broadcast
  else if matchesPrefix coworkTopic topic then .cowork (segmentAfter coworkTopic topic)
  else .unrecognized

/-- The cascade of early returns of `createInboundHandler`. -/
def route (effectiveAgentId : String) (activeOutboundSessions : List String)
    (topic : String) (envelope : RegistryEnvelope) : Route :=
  if envelope.messageType = .res then .response
  else if envelope.source = effectiveAgentId then
    match envelope.sessionField with
    | none => .loopback
    | some session =>
      if activeOutboundSessions.contains session && !matchesPrefix unicastTopic topic then
        .loopback
      else routeTopic topic
  else routeTopic topic

inductive SessionKind where
  | unicast
  | cowork
  deriving DecidableEq

/-- A session object; evicting it from the table does not end its tasks. -/
structure AgentSession where
  sessionKey : String
  sessionContextKind : SessionKind
  fixedOpenClawSessionKey : Option String
  activeTaskCount : ℕ

/-- A dispatch that has not settled. -/
structure Task where
  session : ℕ
  topic : String
  envelope : RegistryEnvelope
  sessionKeyOverride : Option String

/-- An envelope that the outbound adapter has published, and its task. -/
structure Publication where
  task : ℕ
  subject : String
  requestId : String
  source : String
  session : Option String
  seq : ℕ
  action : String
  resourceType : String
  text : String
  coworkId : Option String

inductive SessionContext where
  | unicast (sourceAgentId : String)
  | multicast (groupId : String)
  | cowork (coworkId : String) (isComplete : Bool)

/-- The key of the sequence counter of a context. -/
def SessionContext.sessionKey : SessionContext → String
  | .unicast sourceAgentId => "unicast:" ++ sourceAgentId
  | .multicast groupId => "multicast:" ++ groupId
  | .cowork coworkId _ => "cowork:" ++ coworkId

/-- The subject of a reply; `none` when it is discarded. -/
def resolveSubject (inboundReplyTo : Option String) (inboundSource : String) :
    SessionContext → Option String
  | context =>
    match inboundReplyTo.filter (· ≠ "") with
    | some replyTo => some replyTo
    | none =>
      match context with
      | .unicast sourceAgentId =>
        let sourceId := JsString.orElse sourceAgentId inboundSource
        if sourceId = "" then none
        else some (unicastTopic ++ sourceId)
      | .multicast _ =>
        if inboundSource = "" then none
        else some (unicastTopic ++ inboundSource)
      | .cowork coworkId _ => some (coworkTopic ++ coworkId)

def resolveAction (context : SessionContext) (isSessionComplete : Bool) : String :=
  match context with
  | .unicast _ => "message"
  | .multicast _ => "message"
  | .cowork _ _ => if isSessionComplete then "complete" else "message"

def resolveResourceType : SessionContext → String
  | .unicast _ => "agent"
  | .multicast _ => "agent"
  | .cowork _ _ => "cowork"

/-- The cowork id that the payload of a reply carries besides its text. -/
def payloadCoworkId : SessionContext → Option String
  | .cowork coworkId _ => some coworkId
  | _ => none

/--
`sessions` is the session table; `objects` holds every session object by its
identity, whether it is still in the table or not.
-/
structure RegistryState where
  boundAgentId : String
  effectiveAgentId : String
  activeOutboundSessions : List String
  sessions : OrderedMap String ℕ
  objects : OrderedMap ℕ AgentSession
  nextObject : ℕ
  tasks : OrderedMap ℕ Task
  nextTask : ℕ
  seqCounters : OrderedMap String ℕ
  published : List Publication

def RegistryState.initial (boundAgentId agentId : String) : RegistryState where
  boundAgentId := boundAgentId
  effectiveAgentId := agentId
  activeOutboundSessions := []
  sessions := .empty
  objects := .empty
  nextObject := 0
  tasks := .empty
  nextTask := 0
  seqCounters := .empty
  published := []

/-- The kind that a session gets from its key. -/
def kindOfKey (key : String) : SessionKind :=
  if JsString.startsWith key "cw-" || JsString.startsWith key "cowork-" then .cowork
  else .unicast

/-- The uuid of a session key `agent:{agentId}:group:{sessionUuid}`. -/
def groupSessionUuid (session : String) : Option String :=
  match JsString.split session ':' with
  | first :: _ :: third :: uuid :: rest =>
    if first = "agent" && third = "group" then some (":".intercalate (uuid :: rest))
    else none
  | _ => none

/-- The session key of the bound agent for a session uuid. -/
def boundSessionKey (boundAgentId sessionUuid : String) : String :=
  "agent:" ++ boundAgentId ++ ":group:" ++ sessionUuid

namespace RegistryState

section

variable (state : RegistryState)

/-- `createAgentSession`: a new object, added to the table under its key. -/
def createAgentSession (session : AgentSession) : ℕ × RegistryState :=
  (state.nextObject, { state with
    sessions := state.sessions.set session.sessionKey state.nextObject
    objects := state.objects.set state.nextObject session
    nextObject := state.nextObject + 1 })

def createSession (sourceAgentId : String) : ℕ × RegistryState :=
  let key := "unicast:" ++ sourceAgentId
  match state.sessions.get? key with
  | some existing => (existing, state)
  | none =>
    state.createAgentSession {
      sessionKey := key
      sessionContextKind := .unicast
      fixedOpenClawSessionKey := none
      activeTaskCount := 0 }

def getOrCreateSession (key : String) (envelope : Option RegistryEnvelope) :
    ℕ × RegistryState :=
  match state.sessions.get? key with
  | some existing => (existing, state)
  | none =>
    state.createAgentSession {
      sessionKey := key
      sessionContextKind := kindOfKey key
      fixedOpenClawSessionKey :=
        ((envelope.bind RegistryEnvelope.sessionField).bind
          groupSessionUuid).map (boundSessionKey state.boundAgentId)
      activeTaskCount := 0 }

def activeTaskCount (object : ℕ) : ℕ :=
  ((state.objects.get? object).map AgentSession.activeTaskCount).getD 0

/-- One turn of the loop: a session with strictly fewer tasks is better. -/
def lessLoaded (best : Option ℕ) (object : ℕ) : Option ℕ :=
  match best with
  | none => some object
  | some leastLoaded =>
    if state.activeTaskCount object < state.activeTaskCount leastLoaded then some object
    else some leastLoaded

def getLeastLoadedSession : Option ℕ :=
  state.sessions.values.foldl state.lessLoaded none

/-- The override that a dispatch sets for the route of its turn. -/
def sessionKeyOverride (sessionExists : String → Bool) (object : ℕ)
    (envelope : RegistryEnvelope) : Option String :=
  match (state.objects.get? object).bind AgentSession.fixedOpenClawSessionKey with
  | some fixed => some fixed
  | none =>
    ((envelope.sessionField.bind groupSessionUuid).map
      (boundSessionKey state.boundAgentId)).filter sessionExists

end

/-- `dispatch` up to its first await: the task is counted and started. -/
def dispatch (sessionExists : String → Bool) (topic : String) (envelope : RegistryEnvelope) :
    ℕ × RegistryState → RegistryState
  | (object, state) => { state with
      objects := state.objects.modify object fun session =>
        { session with activeTaskCount := session.activeTaskCount + 1 }
      tasks := state.tasks.set state.nextTask {
        session := object
        topic := topic
        envelope := envelope
        sessionKeyOverride := state.sessionKeyOverride sessionExists object envelope }
      nextTask := state.nextTask + 1 }

def handleUnicast (state : RegistryState) (envelope : RegistryEnvelope) : ℕ × RegistryState :=
  state.getOrCreateSession
    (deriveUnicastSessionKey envelope.source envelope.sessionField)
    (some envelope)

def handleMulticast (state : RegistryState) (envelope : RegistryEnvelope) : ℕ × RegistryState :=
  match state.getLeastLoadedSession with
  | some leastLoaded => (leastLoaded, state)
  | none => state.createSession envelope.source

def handleCollaborationTopic (state : RegistryState) (topicId : String) : ℕ × RegistryState :=
  state.getOrCreateSession topicId none

/-- The session that a request is dispatched to, if it is dispatched. -/
def selectSession (state : RegistryState) (topic : String) (envelope : RegistryEnvelope) :
    Option (ℕ × RegistryState) :=
  match route state.effectiveAgentId state.activeOutboundSessions topic envelope with
  | .unicast => some (state.handleUnicast envelope)
  | .multicast => some (state.handleMulticast envelope)
  | .cowork coworkId => some (state.handleCollaborationTopic coworkId)
  | _ => none

/-- The handler of a topic on a parsed envelope. -/
def handleInbound (sessionExists : String → Bool) (topic : String)
    (envelope : RegistryEnvelope) (state : RegistryState) : RegistryState :=
  match state.selectSession topic envelope with
  | some selected => dispatch sessionExists topic envelope selected
  | none => state

def sessionContext (session : AgentSession) (envelope : RegistryEnvelope) : SessionContext :=
  match session.sessionContextKind with
  | .cowork => .cowork session.sessionKey false
  | .unicast => .unicast envelope.source

/-- `send` of the outbound adapter. -/
def send (task : ℕ) (responseText : String) (envelope : RegistryEnvelope)
    (context : SessionContext) (isSessionComplete : Bool) (state : RegistryState) : RegistryState :=
  match resolveSubject envelope.replyTo envelope.source context with
  | none => state
  | some subject =>
    let seq := (state.seqCounters.get? context.sessionKey).getD 0
    { state with
      seqCounters := state.seqCounters.set context.sessionKey (seq + 1)
      published := state.published ++ [{
        task := task
        subject := subject
        requestId := envelope.requestId
        source := state.effectiveAgentId
        session := envelope.session
        seq := seq
        action := resolveAction context isSessionComplete
        resourceType := resolveResourceType context
        text := responseText
        coworkId := payloadCoworkId context }] }

/-- The `deliver` callback of a task. -/
def deliver (task : ℕ) (responseText : String) (state : RegistryState) : Option RegistryState := do
  let running ← state.tasks.get? task
  let session ← state.objects.get? running.session
  if responseText = "" then some state
  else
    some (state.send task responseText running.envelope
      (sessionContext session running.envelope) false)

/-- The end of a dispatch. -/
def settle (task : ℕ) (state : RegistryState) : Option RegistryState := do
  let running ← state.tasks.get? task
  some { state with
    objects := state.objects.modify running.session fun session =>
      { session with activeTaskCount := session.activeTaskCount - 1 }
    tasks := state.tasks.delete task }

end RegistryState

inductive RegistryAction where
  | inbound
      (sessionExists : String → Bool) (topic : String) (envelope : RegistryEnvelope)
  | deliver (task : ℕ) (responseText : String)
  | settle (task : ℕ)
  | remove (key : String)
  | clear
  | addOutboundSession (sessionKey : String)
  | reregister (agentId : String)

/-- One step of the channel; `none` when the action is not possible. -/
def RegistryState.perform (state : RegistryState) : RegistryAction → Option RegistryState
  | .inbound sessionExists topic envelope =>
    some (state.handleInbound sessionExists topic envelope)
  | .deliver task responseText => state.deliver task responseText
  | .settle task => state.settle task
  | .remove key => some { state with sessions := state.sessions.delete key }
  | .clear => some { state with sessions := .empty }
  | .addOutboundSession sessionKey =>
    some { state with activeOutboundSessions := sessionKey :: state.activeOutboundSessions }
  | .reregister agentId => some { state with effectiveAgentId := agentId }

def RegistryStep : StepRelation RegistryState RegistryAction :=
  fun source action target => source.perform action = some target

/-- A channel that has just started. -/
def IsInitial (state : RegistryState) : Prop :=
  ∃ boundAgentId agentId, state = .initial boundAgentId agentId

end AgentRegistry
