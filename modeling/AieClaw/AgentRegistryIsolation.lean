import AieClaw.AgentRegistrySessions

/-!
# Isolation of agent registry conversations

Unicast requests are kept in one session a source and session field, and a
collaboration topic in one session of its own. Their keys are joined with colons
and share one table, so the keys tell conversations apart only where no source
contains a colon and no topic id looks like a unicast key.

The OpenClaw session of a request is another matter: it follows the uuid of the
group session that the session field names, whoever sent the request.
-/

namespace AgentRegistry

open TransitionSystem RegistryState JsString List

/-- What a session of the table serves. -/
inductive Conversation where
  | unicast (source : String) (session : Option String)
  | collaboration (topicId : String)
  deriving DecidableEq

namespace Conversation

/-- The session table key of a conversation. -/
def key : Conversation → String
  | unicast source session => deriveUnicastSessionKey source session
  | collaboration topicId => topicId

def fixedOpenClawSessionKey (boundAgentId : String) : Conversation → Option String
  | unicast _ session => (session.bind groupSessionUuid).map (boundSessionKey boundAgentId)
  | collaboration _ => none

/-- The envelope that decides the session key of a new session object. -/
def creator (envelope : RegistryEnvelope) : Conversation → Option RegistryEnvelope
  | unicast _ _ => some envelope
  | collaboration _ => none

def Plain : Conversation → Prop
  | unicast source _ => ':' ∉ source.toList
  | collaboration topicId => startsWith topicId "unicast:" = false

instance (conversation : Conversation) : Decidable conversation.Plain :=
  match conversation with
  | unicast source _ => inferInstanceAs (Decidable (':' ∉ source.toList))
  | collaboration topicId =>
    inferInstanceAs (Decidable (startsWith topicId "unicast:" = false))

end Conversation

/-- The conversation of a request, unless its topic is for a group. -/
def conversation (topic : String) (envelope : RegistryEnvelope) : Option Conversation :=
  match routeTopic topic with
  | .unicast => some (.unicast envelope.source envelope.sessionField)
  | .cowork coworkId => some (.collaboration coworkId)
  | _ => none

/--
The OpenClaw session key of a dispatch: the override that it sets, or the key
of the direct route to its peer.
-/
def openClawSessionKey (directRoute : String → String) (sessionExists : String → Bool)
    (selected : ℕ × RegistryState) (key : String) (envelope : RegistryEnvelope) : String :=
  (selected.2.sessionKeyOverride sessionExists selected.1 envelope).getD
    (directRoute (orElse envelope.source key))

/--
The OpenClaw session that a conversation's request is meant for: the group
session that it names, or the direct route of its source. A collaboration
request is sent to the group session only if that is stored.
-/
def Conversation.openClawSessionKey (directRoute : String → String)
    (sessionExists : String → Bool) (boundAgentId : String) (envelope : RegistryEnvelope) :
    Conversation → String
  | unicast source session =>
    ((session.bind groupSessionUuid).map
      (boundSessionKey boundAgentId)).getD
        (directRoute (orElse envelope.source (unicast source session).key))
  | collaboration topicId =>
    (((envelope.sessionField.bind groupSessionUuid).map
      (boundSessionKey boundAgentId)).filter sessionExists).getD
        (directRoute (orElse envelope.source topicId))

section Keys

theorem deriveUnicastSessionKey_inj {source other : String} {session field : Option String}
    (sourcePlain : ':' ∉ source.toList) (otherPlain : ':' ∉ other.toList)
    (same : deriveUnicastSessionKey source session = deriveUnicastSessionKey other field) :
    source = other ∧ session = field := by
  have characters := congrArg String.toList same
  cases session with
  | none =>
    cases field with
    | none =>
      simp only [deriveUnicastSessionKey, String.toList_append,
        append_cancel_left_eq, String.toList_inj] at characters
      exact ⟨characters, rfl⟩
    | some field =>
      simp only [deriveUnicastSessionKey, String.toList_append,
        append_assoc, append_cancel_left_eq] at characters
      rw [characters] at sourcePlain
      simp at sourcePlain
  | some session =>
    cases field with
    | none =>
      simp only [deriveUnicastSessionKey, String.toList_append,
        append_assoc, append_cancel_left_eq] at characters
      rw [← characters] at otherPlain
      simp at otherPlain
    | some field =>
      simp only [deriveUnicastSessionKey, String.toList_append,
        append_assoc, append_cancel_left_eq] at characters
      obtain ⟨sameSource, sameSession⟩ :=
        append_separator_inj sourcePlain otherPlain characters
      exact ⟨String.toList_inj.mp sameSource, congrArg some (String.toList_inj.mp sameSession)⟩

theorem startsWith_deriveUnicastSessionKey (source : String) (session : Option String) :
    startsWith (deriveUnicastSessionKey source session) "unicast:" =
      true := by
  cases session <;> simp [deriveUnicastSessionKey, startsWith, String.toList_append]

theorem Conversation.key_inj {first second : Conversation} (firstPlain : first.Plain)
    (secondPlain : second.Plain) (same : first.key = second.key) : first = second := by
  cases first with
  | unicast source session =>
    cases second with
    | unicast other field =>
      obtain ⟨rfl, rfl⟩ := deriveUnicastSessionKey_inj firstPlain secondPlain same
      rfl
    | collaboration topicId =>
      have unicastKey := startsWith_deriveUnicastSessionKey source session
      rw [show deriveUnicastSessionKey source session = topicId from same,
        show startsWith topicId "unicast:" = false from secondPlain] at unicastKey
      simp at unicastKey
  | collaboration topicId =>
    cases second with
    | unicast other field =>
      have unicastKey := startsWith_deriveUnicastSessionKey other field
      rw [show deriveUnicastSessionKey other field = topicId from same.symm,
        show startsWith topicId "unicast:" = false from firstPlain] at unicastKey
      simp at unicastKey
    | collaboration other => exact congrArg Conversation.collaboration same

theorem boundSessionKey_inj {boundAgentId first second : String} :
    boundSessionKey boundAgentId first = boundSessionKey boundAgentId second ↔ first = second := by
  constructor
  · intro same
    have characters := congrArg String.toList same
    simp only [boundSessionKey, String.toList_append,
      append_cancel_left_eq, String.toList_inj] at characters
    exact characters
  · intro same
    rw [same]

end Keys

section Objects

variable {state : RegistryState} {envelope : RegistryEnvelope} {selected : ℕ × RegistryState}
  {topic : String} {served : Conversation} {actions : List RegistryAction}

theorem selectSession_routeTopic (isSelected : state.selectSession topic envelope = some selected) :
    (routeTopic topic = .unicast ∧ selected = state.handleUnicast envelope) ∨
      (routeTopic topic = .multicast ∧ selected = state.handleMulticast envelope) ∨
      ∃ coworkId, routeTopic topic = .cowork coworkId ∧
          selected = state.handleCollaborationTopic coworkId := by
  have notResponse : route state.effectiveAgentId state.activeOutboundSessions topic
        envelope ≠ .response := by
    intro routed
    simp [selectSession, routed] at isSelected
  have notLoopback : route state.effectiveAgentId state.activeOutboundSessions topic
        envelope ≠ .loopback := by
    intro routed
    simp [selectSession, routed] at isSelected
  simp only [selectSession, route_eq_routeTopic notResponse notLoopback] at isSelected
  generalize routeTopic topic = taken at isSelected ⊢
  cases taken with
  | unicast => exact .inl ⟨rfl, (Option.some.inj isSelected).symm⟩
  | multicast => exact .inr (.inl ⟨rfl, (Option.some.inj isSelected).symm⟩)
  | cowork coworkId => exact .inr (.inr ⟨coworkId, rfl, (Option.some.inj isSelected).symm⟩)
  | _ => simp at isSelected

theorem selectSession_eq_getOrCreateSession
    (isSelected : state.selectSession topic envelope = some selected)
    (serves : conversation topic envelope = some served) : selected =
      state.getOrCreateSession served.key (served.creator envelope) := by
  simp only [conversation] at serves
  rcases selectSession_routeTopic isSelected with
    ⟨routed, rfl⟩ | ⟨routed, rfl⟩ | ⟨coworkId, routed, rfl⟩
  · simp only [routed] at serves
    cases serves
    rfl
  · simp [routed] at serves
  · simp only [routed] at serves
    cases serves
    rfl

theorem exists_object_of_conversation (keyed : state.Keyed)
    (isSelected : state.selectSession topic envelope = some selected)
    (serves : conversation topic envelope = some served) : KeepsObjects state selected.2 ∧
      ∃ session, selected.2.objects.get? selected.1 = some session ∧
          session.sessionKey = served.key := by
  have selects : Selects state (kindOfKey served.key) served.key selected := by
    rw [selectSession_eq_getOrCreateSession isSelected serves]
    exact selects_getOrCreateSession keyed _ _
  obtain ⟨session, stored, sameKey, -⟩ := selects.object
  exact ⟨selects.keeps, session, stored, sameKey⟩

theorem keepsObjects_step {source target : RegistryState} {action : RegistryAction}
    (taken : RegistryStep source action target) (keyed : source.Keyed) :
    KeepsObjects source target := by
  rcases RegistryStep.cases taken keyed with
    continues | ⟨kind, key, selected, envelope, selects, dispatches⟩
  · exact continues.keeps
  · exact selects.keeps.trans dispatches.keeps

theorem keepsObjects_run {start finish : RegistryState}
    (keyed : start.Keyed) (run : Run RegistryStep start actions finish) :
    KeepsObjects start finish ∧ finish.Keyed := by
  have step : Preserves RegistryStep (fun state => KeepsObjects start state ∧ state.Keyed) := by
    intro source action target taken kept
    exact ⟨kept.1.trans (keepsObjects_step taken kept.2), keyed_step taken kept.2⟩
  exact run.invariant step ⟨KeepsObjects.refl start, keyed⟩

theorem key_eq_of_sameObject {first second : RegistryState}
    {laterTopic : String} {laterEnvelope : RegistryEnvelope} {later : ℕ × RegistryState}
    {laterServed : Conversation} {sessionExists : String → Bool} (keyed : first.Keyed)
    (isSelected : first.selectSession topic envelope = some selected)
    (serves : conversation topic envelope = some served)
    (run : Run RegistryStep (first.handleInbound sessionExists topic envelope) actions second)
    (laterSelected : second.selectSession laterTopic laterEnvelope = some later)
    (laterServes : conversation laterTopic laterEnvelope = some laterServed)
    (sameObject : selected.1 = later.1) : served.key = laterServed.key := by
  obtain ⟨-, session, stored, sameKey⟩ := exists_object_of_conversation keyed isSelected serves
  have handled : KeepsObjects selected.2 (first.handleInbound sessionExists topic envelope) ∧
        (first.handleInbound sessionExists topic envelope).Keyed := by
    obtain ⟨kind, key, selects⟩ := selects_selectSession keyed isSelected
    have dispatches := dispatches_dispatch selects sessionExists topic envelope
    simp only [handleInbound, isSelected]
    exact ⟨dispatches.keeps, dispatches.keyed⟩
  obtain ⟨kept, laterKeyed⟩ := keepsObjects_run handled.2 run
  obtain ⟨laterKeeps, laterSession, laterStored, laterKey⟩ :=
    exists_object_of_conversation laterKeyed laterSelected laterServes
  obtain ⟨found, isFound, foundKey, -⟩ := ((handled.1.trans kept).trans laterKeeps) stored
  rw [sameObject, laterStored] at isFound
  cases isFound
  rw [← sameKey, ← foundKey, laterKey]

end Objects

section GroupSessions

/-- The request neither has nor names anything that mimics another key. -/
def plainRequest : RegistryAction → Bool
  | .inbound _ topic envelope =>
    match routeTopic topic with
    | .unicast | .multicast => !envelope.source.toList.contains ':'
    | .cowork coworkId => !startsWith coworkId "unicast:"
    | _ => true
  | _ => true

/-- The session of a plain conversation has the key fixed for it. -/
def Bound (boundAgentId : String) (state : RegistryState) : Prop :=
  state.boundAgentId = boundAgentId ∧
    ∀ ⦃object session⦄,
      state.objects.get? object = some session →
      ∀ served : Conversation,
        served.Plain →
        session.sessionKey = served.key →
        session.fixedOpenClawSessionKey = served.fixedOpenClawSessionKey boundAgentId

/-- Every object was there before, under the same key and binding. -/
def OldObjects (source target : RegistryState) : Prop :=
  target.boundAgentId = source.boundAgentId ∧
    ∀ ⦃object session⦄,
      target.objects.get? object = some session →
      ∃ earlier,
        source.objects.get? object = some earlier ∧
          earlier.sessionKey = session.sessionKey ∧
          earlier.fixedOpenClawSessionKey = session.fixedOpenClawSessionKey

variable {boundAgentId : String} {source target : RegistryState}

theorem Bound.of_oldObjects (bound : Bound boundAgentId source) (old : OldObjects source target) :
    Bound boundAgentId target := by
  refine ⟨old.1.trans bound.1, ?_⟩
  intro object session stored served plain sameKey
  obtain ⟨earlier, found, earlierKey, earlierFixed⟩ := old.2 stored
  rw [← earlierFixed]
  exact bound.2 found served plain (earlierKey.trans sameKey)

theorem oldObjects_of_objects (agent : target.boundAgentId = source.boundAgentId)
    (same : target.objects = source.objects) : OldObjects source target :=
  ⟨agent, fun _ session stored => ⟨session, same ▸ stored, rfl, rfl⟩⟩

theorem oldObjects_of_modify {object : ℕ} {count : AgentSession → ℕ}
    (agent : target.boundAgentId = source.boundAgentId) (modified : target.objects =
        source.objects.modify object fun session =>
          { session with activeTaskCount := count session }) : OldObjects source target := by
  refine ⟨agent, ?_⟩
  intro other session stored
  rw [modified, OrderedMap.get?_modify] at stored
  split at stored
  next same =>
    obtain ⟨earlier, found, rfl⟩ := Option.map_eq_some_iff.mp stored
    exact ⟨earlier, same ▸ found, rfl, rfl⟩
  · exact ⟨session, stored, rfl, rfl⟩

theorem Bound.createAgentSession {created : AgentSession} (bound : Bound boundAgentId source)
    (fresh : ∀ served : Conversation, served.Plain →
        created.sessionKey = served.key →
        created.fixedOpenClawSessionKey = served.fixedOpenClawSessionKey boundAgentId) :
    Bound boundAgentId (source.createAgentSession created).2 := by
  refine ⟨bound.1, ?_⟩
  intro object session stored served plain sameKey
  simp only [RegistryState.createAgentSession, OrderedMap.get?_set] at stored
  split at stored
  · cases stored
    exact fresh served plain sameKey
  · exact bound.2 stored served plain sameKey

variable {envelope : RegistryEnvelope} {sessionExists : String → Bool} {served : Conversation}
  {topic : String} {selected : ℕ × RegistryState}

theorem Bound.getOrCreateSession
    (bound : Bound boundAgentId source) (serves : conversation topic envelope = some served)
    (plain : served.Plain) : Bound boundAgentId
      (source.getOrCreateSession served.key (served.creator envelope)).2 := by
  simp only [RegistryState.getOrCreateSession]
  split
  · exact bound
  · apply bound.createAgentSession
    intro other otherPlain sameKey
    obtain rfl : served = other := Conversation.key_inj plain otherPlain sameKey
    rw [bound.1]
    simp only [conversation] at serves
    split at serves
    · cases serves
      rfl
    · cases serves
      rfl
    · simp at serves

theorem Bound.createSession {sender : String} (bound : Bound boundAgentId source)
    (plain : ':' ∉ sender.toList) : Bound boundAgentId (source.createSession sender).2 := by
  simp only [RegistryState.createSession]
  split
  · exact bound
  · apply bound.createAgentSession
    intro other otherPlain sameKey
    have senderPlain : (Conversation.unicast sender none).Plain := plain
    obtain rfl : Conversation.unicast sender none = other :=
      Conversation.key_inj senderPlain otherPlain sameKey
    rfl

theorem plain_of_plainRequest (plain : plainRequest (.inbound sessionExists topic envelope) = true)
    (serves : conversation topic envelope = some served) : served.Plain := by
  simp only [plainRequest] at plain
  simp only [conversation] at serves
  split at serves
  next routed =>
    cases serves
    simpa [routed, Conversation.Plain] using plain
  next coworkId routed =>
    cases serves
    simpa [routed, Conversation.Plain] using plain
  · simp at serves

theorem Bound.selectSession (bound : Bound boundAgentId source)
    (plain : plainRequest (.inbound sessionExists topic envelope) = true)
    (isSelected : source.selectSession topic envelope = some selected) :
    Bound boundAgentId selected.2 := by
  cases serves : conversation topic envelope with
  | some served =>
    rw [selectSession_eq_getOrCreateSession isSelected serves]
    exact bound.getOrCreateSession serves (plain_of_plainRequest plain serves)
  | none =>
    rcases selectSession_routeTopic isSelected with
      ⟨routed, -⟩ | ⟨routed, rfl⟩ | ⟨coworkId, routed, -⟩
    · simp [conversation, routed] at serves
    · have senderPlain : ':' ∉ envelope.source.toList := by
        simpa [plainRequest, routed] using plain
      simp only [handleMulticast]
      split
      · exact bound
      · exact bound.createSession senderPlain
    · simp [conversation, routed] at serves

/-- Every step of a channel with plain requests keeps the bindings. -/
theorem bound_step (boundAgentId : String) : Preserves
      (Restricted RegistryStep fun _ action => plainRequest action = true)
      (Bound boundAgentId) := by
  intro source action target taken bound
  obtain ⟨plain, performed⟩ := taken
  cases action with
  | inbound sessionExists topic envelope =>
    cases performed
    simp only [handleInbound]
    split
    next selected isSelected =>
      have selects := bound.selectSession plain isSelected
      exact selects.of_oldObjects (oldObjects_of_modify rfl rfl)
    · exact bound
  | deliver task responseText =>
    rcases deliver_cases performed with
      rfl | ⟨running, session, publication, seqCounters, -, -, -, -, rfl⟩
    · exact bound
    · exact bound.of_oldObjects (oldObjects_of_objects rfl rfl)
  | settle task =>
    obtain ⟨running, isRunning, rfl⟩ := settle_eq_some performed
    exact bound.of_oldObjects (oldObjects_of_modify rfl rfl)
  | remove key =>
    cases performed
    exact bound.of_oldObjects (oldObjects_of_objects rfl rfl)
  | clear =>
    cases performed
    exact bound.of_oldObjects (oldObjects_of_objects rfl rfl)
  | addOutboundSession sessionKey =>
    cases performed
    exact bound.of_oldObjects (oldObjects_of_objects rfl rfl)
  | reregister agentId =>
    cases performed
    exact bound.of_oldObjects (oldObjects_of_objects rfl rfl)

theorem bound_initial (boundAgentId agentId : String) :
    Bound boundAgentId (.initial boundAgentId agentId) := by
  refine ⟨rfl, ?_⟩
  intro object session stored
  simp [initial, OrderedMap.get?_empty] at stored

theorem openClawSessionKey_of_bound {state : RegistryState} (keyed : state.Keyed)
    (bound : Bound boundAgentId state)
    (plain : plainRequest (.inbound sessionExists topic envelope) = true)
    (isSelected : state.selectSession topic envelope = some selected)
    (serves : conversation topic envelope = some served) (directRoute : String → String) :
    openClawSessionKey directRoute sessionExists selected served.key envelope =
      served.openClawSessionKey directRoute sessionExists boundAgentId
        envelope := by
  obtain ⟨-, session, stored, sameKey⟩ := exists_object_of_conversation keyed isSelected serves
  have selectedBound := bound.selectSession plain isSelected
  have fixed := selectedBound.2 stored served (plain_of_plainRequest plain serves) sameKey
  simp only [openClawSessionKey, sessionKeyOverride, stored,
    Option.bind_some, fixed, selectedBound.1]
  simp only [conversation] at serves
  split at serves
  · cases serves
    cases grouped : envelope.sessionField.bind groupSessionUuid <;>
      simp [Conversation.fixedOpenClawSessionKey, Conversation.openClawSessionKey, grouped]
  · cases serves
    rfl
  · simp at serves

end GroupSessions

section Isolation

/-- A channel in which every request was plain. -/
def PlainlyReached (boundAgentId : String) (state : RegistryState) : Prop :=
  ∃ agentId actions,
    Run (Restricted RegistryStep fun _ action => plainRequest action = true)
      (.initial boundAgentId agentId) actions state

theorem PlainlyReached.bound {boundAgentId : String} {state : RegistryState}
    (reached : PlainlyReached boundAgentId state) : Bound boundAgentId state ∧ state.Keyed := by
  obtain ⟨agentId, actions, run⟩ := reached
  have unrestricted : Run RegistryStep (.initial boundAgentId agentId) actions state :=
    run.mono fun _ _ _ taken => taken.2
  exact ⟨run.invariant (bound_step boundAgentId) (bound_initial boundAgentId agentId),
    keyed_of_reachable ⟨_, actions, ⟨boundAgentId, agentId, rfl⟩, unrestricted⟩⟩

/--
Two dispatched requests, the later one any number of steps after the earlier,
and the conversations that they belong to.
-/
structure DispatchedPair (sessionExists : String → Bool) (first second : RegistryState)
    (selected later : ℕ × RegistryState) (served laterServed : Conversation) where
  topic : String
  envelope : RegistryEnvelope
  laterTopic : String
  laterEnvelope : RegistryEnvelope
  actions : List RegistryAction
  reached : Reachable RegistryStep IsInitial first
  isSelected : first.selectSession topic envelope = some selected
  serves : conversation topic envelope = some served
  run : Run RegistryStep (first.handleInbound sessionExists topic envelope) actions second
  laterSelected : second.selectSession laterTopic laterEnvelope = some later
  laterServes : conversation laterTopic laterEnvelope = some laterServed

/--
Plain conversations never share a session object. Their OpenClaw sessions
follow the group session that a unicast request names, or its direct route; two
of them that name group sessions share one exactly when the uuids agree.
-/
theorem plain_conversations_isolated :
    (∀ sessionExists first second selected later served laterServed,
      DispatchedPair sessionExists first second selected later served laterServed →
        served.Plain →
        laterServed.Plain →
        served ≠ laterServed →
        selected.1 ≠ later.1) ∧
      (∀ directRoute sessionExists boundAgentId state topic envelope selected served,
        PlainlyReached boundAgentId state →
        plainRequest (.inbound sessionExists topic envelope) = true →
        state.selectSession topic envelope = some selected →
        conversation topic envelope = some served →
        openClawSessionKey directRoute sessionExists selected served.key envelope =
          served.openClawSessionKey directRoute sessionExists boundAgentId envelope) ∧
      ∀ directRoute sessionExists boundAgentId envelope laterEnvelope source
          field other laterField uuid laterUuid,
        groupSessionUuid field = some uuid →
        groupSessionUuid laterField = some laterUuid →
        ((Conversation.unicast source (some field)).openClawSessionKey
              directRoute sessionExists boundAgentId envelope =
            (Conversation.unicast other (some laterField)).openClawSessionKey
              directRoute sessionExists boundAgentId laterEnvelope ↔
          uuid = laterUuid) := by
  refine ⟨?_, ?_, ?_⟩
  · intro sessionExists first second selected later served laterServed pair
      plain laterPlain differs sameObject
    have sameKey :=
      key_eq_of_sameObject (keyed_of_reachable pair.reached) pair.isSelected
        pair.serves pair.run pair.laterSelected pair.laterServes sameObject
    exact differs (Conversation.key_inj plain laterPlain sameKey)
  · intro directRoute sessionExists boundAgentId state topic envelope selected
      served reached plain isSelected serves
    obtain ⟨bound, keyed⟩ := reached.bound
    exact openClawSessionKey_of_bound keyed bound plain isSelected serves directRoute
  · intro directRoute sessionExists boundAgentId envelope laterEnvelope source
      field other laterField uuid laterUuid grouped laterGrouped
    simp only [Conversation.openClawSessionKey, Option.bind_some, grouped,
      laterGrouped, Option.map_some, Option.getD_some]
    exact boundSessionKey_inj

/-- A request of `source` in `session`. -/
private def sessionRequest (source session : String) : RegistryEnvelope where
  requestId := "r1"
  messageType := .req
  source := source
  session := some session
  action := "message"
  replyTo := none

private theorem selectSession_sessionRequest {state : RegistryState} {source session : String}
    (routed : route state.effectiveAgentId state.activeOutboundSessions
        "a2a.agent.unicast.agent-0" (sessionRequest source session) = .unicast) :
    state.selectSession "a2a.agent.unicast.agent-0" (sessionRequest source session) =
      some (state.handleUnicast (sessionRequest source session)) := by
  simp only [selectSession, routed]

/-- Two senders that name one group session, one after the other. -/
theorem plain_conversations_isolated_group :
    let start := initial "main" "agent-0"
    let alice := sessionRequest "alice" "agent:root:group:u1"
    let bob := sessionRequest "bob" "agent:root:group:u1"
    let topic := "a2a.agent.unicast.agent-0"
    let afterAlice := start.handleInbound (fun _ => true) topic alice
    (start.handleUnicast alice).1 ≠ (afterAlice.handleUnicast bob).1 ∧
      openClawSessionKey id (fun _ => true) (start.handleUnicast alice)
          (deriveUnicastSessionKey "alice" (some "agent:root:group:u1"))
          alice = "agent:main:group:u1" ∧
      (Conversation.unicast "alice"
            (some "agent:root:group:u1")).openClawSessionKey id
            (fun _ => true) "main" alice =
        (Conversation.unicast "bob"
            (some "agent:root:group:u1")).openClawSessionKey id
            (fun _ => true) "main" bob := by
  intro start alice bob topic afterAlice
  let aliceServed : Conversation := .unicast "alice" "agent:root:group:u1"
  let bobServed : Conversation := .unicast "bob" "agent:root:group:u1"
  have pair : DispatchedPair (fun _ => true) start afterAlice
        (start.handleUnicast alice) (afterAlice.handleUnicast bob)
        aliceServed bobServed := {
    topic := topic
    envelope := alice
    laterTopic := topic
    laterEnvelope := bob
    actions := []
    reached := .start ⟨"main", "agent-0", rfl⟩
    isSelected := selectSession_sessionRequest (by decide +kernel)
    serves := by decide +kernel
    run := Run.refl
    laterSelected := selectSession_sessionRequest (by decide +kernel)
    laterServes := by decide +kernel }
  refine ⟨?_, ?_, ?_⟩
  · exact plain_conversations_isolated.1 _ _ _ _ _ _ _ pair
      (by decide +kernel) (by decide +kernel) (by decide +kernel)
  · have runsUnder :=
      plain_conversations_isolated.2.1 id (fun _ => true) "main" start topic
        alice (start.handleUnicast alice) aliceServed
        ⟨"agent-0", [], Run.refl⟩ (by decide +kernel)
        (selectSession_sessionRequest (by decide +kernel)) (by decide +kernel)
    exact runsUnder.trans (by decide +kernel)
  · have shares :=
      plain_conversations_isolated.2.2 id (fun _ => true) "main" alice bob
        "alice" "agent:root:group:u1" "bob" "agent:root:group:u1" "u1" "u1"
        (by decide +kernel) (by decide +kernel)
    exact shares.mpr rfl

/-- Different senders of one group session run under one OpenClaw session. -/
theorem not_isolated_of_group :
    ¬ ∀ directRoute sessionExists first second selected later served laterServed,
        ∀ pair : DispatchedPair sessionExists first second selected later served laterServed,
          served ≠ laterServed →
          selected.1 ≠ later.1 ∧
            openClawSessionKey directRoute sessionExists selected served.key pair.envelope ≠
              openClawSessionKey directRoute sessionExists later
                laterServed.key pair.laterEnvelope := by
  intro always
  let start := initial "main" "agent-0"
  let alice := sessionRequest "alice" "agent:root:group:u1"
  let bob := sessionRequest "bob" "agent:root:group:u1"
  let topic := "a2a.agent.unicast.agent-0"
  let afterAlice := start.handleInbound (fun _ => true) topic alice
  have isolated :=
    always id (fun _ => true) start afterAlice (start.handleUnicast alice)
      (afterAlice.handleUnicast bob)
      (.unicast "alice" "agent:root:group:u1")
      (.unicast "bob" "agent:root:group:u1") {
        topic := topic
        envelope := alice
        laterTopic := topic
        laterEnvelope := bob
        actions := []
        reached := .start ⟨"main", "agent-0", rfl⟩
        isSelected := selectSession_sessionRequest (by decide +kernel)
        serves := by decide +kernel
        run := Run.refl
        laterSelected := selectSession_sessionRequest (by decide +kernel)
        laterServes := by decide +kernel }
      (by decide +kernel)
  exact isolated.2 (by decide +kernel)

end Isolation

end AgentRegistry
