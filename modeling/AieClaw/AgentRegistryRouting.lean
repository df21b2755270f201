import AieClaw.AgentRegistrySessions

/-!
# Where the agent registry channel publishes its replies

The subject of a reply is fixed when its request is dispatched: it follows from
the kind and the key of the session that the router selected, not from the topic
of the request. A multicast request may select a cowork session, and a
collaboration topic may create a session that is not one.
-/

namespace AgentRegistry

open TransitionSystem RegistryState

/-- A started task answers, and has only answered, in one context. -/
structure RepliesIn (task : ℕ) (envelope : RegistryEnvelope) (context : SessionContext)
    (state : RegistryState) : Prop where
  keyed : state.Keyed
  started : task < state.nextTask
  running :
    ∀ ⦃running⦄,
      state.tasks.get? task = some running →
      running.envelope = envelope ∧ state.Answers running.session envelope context
  published :
    ∀ publication ∈ state.published,
      publication.task = task →
      resolveSubject envelope.replyTo envelope.source context = some publication.subject

theorem repliesIn_step (task : ℕ) (envelope : RegistryEnvelope) (context : SessionContext) :
    Preserves RegistryStep (RepliesIn task envelope context) := by
  intro source action target taken replies
  obtain ⟨keyed, started, running, published⟩ := replies
  obtain continues | ⟨kind, key, selected, request, selects, dispatches⟩ :=
    RegistryStep.cases taken keyed
  · refine ⟨continues.keyed keyed, by rwa [continues.nextTask], ?_, ?_⟩
    · intro task found
      obtain ⟨sameEnvelope, answers⟩ := running (continues.tasks found)
      exact ⟨sameEnvelope, continues.keeps.answers answers⟩
    · intro publication member sameTask
      obtain earlier | ⟨runs, session, isRunning, found, resolved⟩ :=
        continues.published publication member
      · exact published publication earlier sameTask
      · rw [sameTask] at isRunning
        obtain ⟨rfl, answering, answeringFound, rfl⟩ := running isRunning
        rw [Option.some.inj (answeringFound.symm.trans found)]
        exact resolved
  · have differs : task ≠ source.nextTask := started.ne
    have keeps := selects.keeps.trans dispatches.keeps
    refine ⟨dispatches.keyed, ?_, ?_, ?_⟩
    · rw [dispatches.nextTask]
      exact Nat.lt_succ_of_lt started
    · intro task found
      rw [dispatches.others differs] at found
      obtain ⟨sameEnvelope, answers⟩ := running found
      exact ⟨sameEnvelope, keeps.answers answers⟩
    · rw [dispatches.published]
      exact published

theorem repliesIn_of_dispatches {state target : RegistryState}
    {selected : ℕ × RegistryState} {envelope : RegistryEnvelope} {context : SessionContext}
    (keyed : state.Keyed) (dispatches : Dispatches state selected envelope target)
    (answers : selected.2.Answers selected.1 envelope context) :
    RepliesIn state.nextTask envelope context target := by
  refine ⟨dispatches.keyed, ?_, ?_, ?_⟩
  · rw [dispatches.nextTask]
    exact Nat.lt_succ_self state.nextTask
  · intro running found
    obtain ⟨started, isStarted, sameSession, sameEnvelope⟩ := dispatches.started
    obtain rfl := Option.some.inj (isStarted.symm.trans found)
    rw [sameSession]
    exact ⟨sameEnvelope, dispatches.keeps.answers answers⟩
  · rw [dispatches.published]
    intro publication member sameTask
    have below := keyed.publishedBelow publication member
    omega

theorem exists_deliver {state : RegistryState} {task : ℕ} {running : Task}
    {context : SessionContext} {subject : String} (isRunning : state.tasks.get? task = some running)
    (answers : state.Answers running.session running.envelope context)
    (resolved :
      resolveSubject running.envelope.replyTo running.envelope.source context = some subject) :
    ∃ target, RegistryStep state (.deliver task "reply") target ∧
        ∃ publication ∈ target.published,
          publication.task = task ∧ publication.subject = subject := by
  obtain ⟨session, found, rfl⟩ := answers
  refine ⟨state.send task "reply" running.envelope
    (sessionContext session running.envelope) false, ?_, ?_⟩
  · simp [RegistryStep, perform, deliver, isRunning, found]
  · simp [send, resolved]

/--
In every continuation the replies of a dispatched request are on subjects with
a property exactly when the subject resolved for its context has it.
-/
theorem published_subject_iff {state target : RegistryState} {selected : ℕ × RegistryState}
    {envelope : RegistryEnvelope} {context : SessionContext} (keyed : state.Keyed)
    (dispatches : Dispatches state selected envelope target)
    (answers : selected.2.Answers selected.1 envelope context) (property : String → Prop) :
    (∀ ⦃actions finish⦄, Run RegistryStep target actions finish →
        ∀ publication ∈ finish.published, publication.task = state.nextTask →
          property publication.subject) ↔ ∀ subject,
        resolveSubject envelope.replyTo envelope.source context = some subject →
        property subject := by
  constructor
  · intro always subject resolved
    obtain ⟨running, isRunning, sameSession, rfl⟩ := dispatches.started
    have stillAnswers : target.Answers running.session running.envelope context := by
      rw [sameSession]
      exact dispatches.keeps.answers answers
    obtain ⟨finish, taken, publication, member, sameTask, rfl⟩ :=
      exists_deliver isRunning stillAnswers resolved
    exact always (Run.single taken) publication member sameTask
  · intro holds actions finish run publication member sameTask
    have replies :=
      run.invariant (repliesIn_step state.nextTask envelope context)
        (repliesIn_of_dispatches keyed dispatches answers)
    exact holds _ (replies.published publication member sameTask)

def OnPromisedSubject (topic source subject : String) : Prop :=
  (matchesPrefix unicastTopic topic ∨ matchesPrefix multicastTopic topic →
    subject = unicastTopic ++ source) ∧
  ∀ coworkId,
    topic = coworkTopic ++ coworkId →
    subject = coworkTopic ++ coworkId

def RepliesOnPromisedSubject (sessionExists : String → Bool) (topic : String)
    (envelope : RegistryEnvelope) (state : RegistryState) : Prop :=
  ∀ ⦃actions finish⦄,
    Run RegistryStep (state.handleInbound sessionExists topic envelope) actions finish →
    ∀ publication ∈ finish.published,
      publication.task = state.nextTask →
      OnPromisedSubject topic envelope.source publication.subject

/--
A multicast request finds no session, or a unicast session is least loaded; a
collaboration topic has a cowork key, or nothing can be sent to the source.
-/
def RoutesReplies (state : RegistryState) (topic source : String) : Prop :=
  (matchesPrefix multicastTopic topic →
    ∀ object session,
      state.IsLeastLoaded object →
      state.objects.get? object = some session →
      session.sessionContextKind = .unicast) ∧
  ∀ coworkId,
    topic = coworkTopic ++ coworkId →
    kindOfKey coworkId = .cowork ∨ source = ""

theorem matchesPrefix_append (start rest : String) :
    matchesPrefix start (start ++ rest) = true := by
  simp [matchesPrefix, JsString.startsWith, List.isPrefixOf_iff_prefix]

theorem unicastTopic_append_ne (first second : String) :
    unicastTopic ++ first ≠ coworkTopic ++ second := by
  simp [← String.toList_inj, unicastTopic, coworkTopic]

theorem multicastTopic_append_ne (first second : String) :
    multicastTopic ++ first ≠ coworkTopic ++ second := by
  simp [← String.toList_inj, multicastTopic, coworkTopic]

theorem not_matchesPrefix_multicastTopic_unicast (agentId : String) :
    matchesPrefix multicastTopic (unicastTopic ++ agentId) = false := by
  simp [matchesPrefix, JsString.startsWith, List.isPrefixOf, multicastTopic, unicastTopic]

theorem not_matchesPrefix_multicastTopic_cowork (coworkId : String) :
    matchesPrefix multicastTopic (coworkTopic ++ coworkId) = false := by
  simp [matchesPrefix, JsString.startsWith, List.isPrefixOf, multicastTopic, coworkTopic]

theorem not_matchesPrefix_unicastTopic_cowork (coworkId : String) :
    matchesPrefix unicastTopic (coworkTopic ++ coworkId) = false := by
  simp [matchesPrefix, JsString.startsWith, List.isPrefixOf, unicastTopic, coworkTopic]

theorem onPromisedSubject_unicast_iff (agentId source subject : String) :
    OnPromisedSubject (unicastTopic ++ agentId) source subject ↔
      subject = unicastTopic ++ source := by
  simp [OnPromisedSubject, matchesPrefix_append, unicastTopic_append_ne]

theorem onPromisedSubject_multicast_iff (groupId source subject : String) :
    OnPromisedSubject (multicastTopic ++ groupId) source subject ↔
      subject = unicastTopic ++ source := by
  simp [OnPromisedSubject, matchesPrefix_append, multicastTopic_append_ne]

theorem onPromisedSubject_cowork_iff (coworkId source subject : String) :
    OnPromisedSubject (coworkTopic ++ coworkId) source subject ↔
      subject = coworkTopic ++ coworkId := by
  simp [OnPromisedSubject, not_matchesPrefix_unicastTopic_cowork,
    not_matchesPrefix_multicastTopic_cowork]

def replySubject (kind : SessionKind) (key source : String) : Option String :=
  match kind with
  | .cowork => some (coworkTopic ++ key)
  | .unicast => if source = "" then none else some (unicastTopic ++ source)

theorem resolveSubject_sessionContext {envelope : RegistryEnvelope}
    (withoutReplyTo : envelope.replyTo.getD "" = "") (session : AgentSession) :
    resolveSubject envelope.replyTo envelope.source (sessionContext session envelope) =
      replySubject session.sessionContextKind session.sessionKey
        envelope.source := by
  have noReplyTo : envelope.replyTo.filter (· ≠ "") = none := by
    cases isReplyTo : envelope.replyTo with
    | none => rfl
    | some replyTo => simpa [isReplyTo] using withoutReplyTo
  simp only [resolveSubject, noReplyTo, sessionContext]
  cases session.sessionContextKind with
  | unicast => simp [replySubject, JsString.orElse]
  | cowork => rfl

theorem repliesOnPromisedSubject_iff_replySubject {state : RegistryState}
    (keyed : state.Keyed) {topic : String} {envelope : RegistryEnvelope}
    (withoutReplyTo : envelope.replyTo.getD "" = "") {selected : ℕ × RegistryState}
    (isSelected : state.selectSession topic envelope = some selected) {kind : SessionKind}
    {key : String} (selects : Selects state kind key selected) (sessionExists : String → Bool) :
    RepliesOnPromisedSubject sessionExists topic envelope state ↔ ∀ subject,
        replySubject kind key envelope.source = some subject →
        OnPromisedSubject topic envelope.source subject := by
  obtain ⟨session, found, rfl, rfl⟩ := selects.object
  have dispatches := dispatches_dispatch selects sessionExists topic envelope
  have handled : state.handleInbound sessionExists topic envelope =
        dispatch sessionExists topic envelope selected := by
    simp only [handleInbound, isSelected]
  rw [RepliesOnPromisedSubject, handled,
    published_subject_iff keyed dispatches ⟨session, found, rfl⟩
      (OnPromisedSubject topic envelope.source), resolveSubject_sessionContext withoutReplyTo]

theorem forall_replySubject_iff (kind : SessionKind) (key source promised : String) : (∀ subject,
        replySubject kind key source = some subject →
        subject = promised) ↔
      match kind with
      | .cowork => coworkTopic ++ key = promised
      | .unicast => source = "" ∨ unicastTopic ++ source = promised := by
  cases kind with
  | cowork => simp [replySubject]
  | unicast =>
    by_cases unknown : source = ""
    · simp [replySubject, unknown]
    · simp [replySubject, unknown]

theorem routesReplies_unicast (state : RegistryState) (agentId source : String) :
    RoutesReplies state (unicastTopic ++ agentId) source := by
  simp [RoutesReplies, not_matchesPrefix_multicastTopic_unicast, unicastTopic_append_ne]

theorem routesReplies_multicast_iff (state : RegistryState) (groupId source : String) :
    RoutesReplies state (multicastTopic ++ groupId) source ↔ ∀ object session,
        state.IsLeastLoaded object →
        state.objects.get? object = some session →
        session.sessionContextKind = .unicast := by
  simp [RoutesReplies, matchesPrefix_append, multicastTopic_append_ne]

theorem routesReplies_cowork_iff (state : RegistryState) (coworkId source : String) :
    RoutesReplies state (coworkTopic ++ coworkId) source ↔
      kindOfKey coworkId = .cowork ∨ source = "" := by
  simp [RoutesReplies, not_matchesPrefix_multicastTopic_cowork]

theorem handleMulticast_kind_iff {state : RegistryState} (keyed : state.Keyed)
    {envelope : RegistryEnvelope} {kind : SessionKind} {key : String}
    (selects : Selects state kind key (state.handleMulticast envelope)) : kind = .unicast ↔
      ∀ object session, state.IsLeastLoaded object →
        state.objects.get? object = some session →
        session.sessionContextKind = .unicast := by
  obtain ⟨session, found, rfl, rfl⟩ := selects.object
  simp only [← getLeastLoadedSession_eq_some_iff]
  simp only [handleMulticast] at found
  cases least : state.getLeastLoadedSession with
  | none =>
    rw [least] at found
    obtain ⟨created, createdFound, -, isUnicast⟩ :=
      (selects_createSession keyed envelope.source).object
    obtain rfl := Option.some.inj (createdFound.symm.trans found)
    simp [isUnicast]
  | some object =>
    rw [least] at found
    constructor
    · intro isUnicast other stored isLeast otherFound
      cases isLeast
      obtain rfl := Option.some.inj (found.symm.trans otherFound)
      exact isUnicast
    · intro allUnicast
      exact allUnicast object session rfl found

/--
Of every reachable channel: the replies to a dispatched request without
reply_to are only published where its topic promises, if and only if a
multicast request is not dispatched to a cowork session and a collaboration
topic has a cowork key or its request no source.
-/
theorem repliesOnPromisedSubject_iff {state : RegistryState}
    (reachable : Reachable RegistryStep IsInitial state) {topic : String}
    {envelope : RegistryEnvelope} (withoutReplyTo : envelope.replyTo.getD "" = "")
    (dispatched : (state.selectSession topic envelope).isSome) (sessionExists : String → Bool) :
    RepliesOnPromisedSubject sessionExists topic envelope state ↔
      RoutesReplies state topic envelope.source := by
  have keyed := keyed_of_reachable reachable
  obtain ⟨selected, isSelected⟩ := Option.isSome_iff_exists.mp dispatched
  have promise := fun {kind : SessionKind} {key : String} selects =>
    @repliesOnPromisedSubject_iff_replySubject state keyed topic envelope
      withoutReplyTo selected isSelected kind key selects sessionExists
  rcases selectSession_cases isSelected with
    ⟨agentId, rfl, rfl⟩ | ⟨groupId, rfl, rfl⟩ | ⟨coworkId, rfl, rfl⟩
  · have selects :=
      selects_getOrCreateSession keyed
        (deriveUnicastSessionKey envelope.source envelope.sessionField)
        (some envelope)
    rw [kindOfKey_deriveUnicastSessionKey] at selects
    simp only [promise selects, onPromisedSubject_unicast_iff,
      forall_replySubject_iff, or_true, routesReplies_unicast]
  · obtain ⟨key, selects⟩ := selects_handleMulticast keyed envelope
    simp only [promise selects, onPromisedSubject_multicast_iff,
      forall_replySubject_iff, routesReplies_multicast_iff,
      ← handleMulticast_kind_iff keyed selects]
    cases kindOfKey key with
    | unicast => simp
    | cowork => simp [(unicastTopic_append_ne _ _).symm]
  · have selects := selects_getOrCreateSession keyed coworkId none
    simp only [promise selects, onPromisedSubject_cowork_iff,
      forall_replySubject_iff, routesReplies_cowork_iff]
    cases kindOfKey coworkId with
    | unicast => simp [unicastTopic_append_ne]
    | cowork => simp

/-- A unicast request to a channel that has just started. -/
theorem repliesOnPromisedSubject_iff_unicast :
    let state := initial "main" "agent-0"
    let envelope : RegistryEnvelope := {
      requestId := "r1"
      messageType := .req
      source := "agent-1"
      session := none
      action := "message"
      replyTo := none }
    (state.selectSession "a2a.agent.unicast.agent-0" envelope).isSome ∧
      (RepliesOnPromisedSubject (fun _ => true) "a2a.agent.unicast.agent-0" envelope state ↔
        RoutesReplies state "a2a.agent.unicast.agent-0" "agent-1") :=
  ⟨by decide +kernel,
    repliesOnPromisedSubject_iff (.start ⟨"main", "agent-0", rfl⟩) rfl
      (by decide +kernel) (fun _ => true)⟩

/-- A request that `agent-1` sends on the topic of a cowork. -/
private def coworkRequest : RegistryEnvelope where
  requestId := "r1"
  messageType := .req
  source := "agent-1"
  session := none
  action := "message"
  replyTo := none

/-- A request that `agent-2` sends to a group. -/
private def groupRequest : RegistryEnvelope where
  requestId := "r2"
  messageType := .req
  source := "agent-2"
  session := none
  action := "message"
  replyTo := none

/-- The reply to a group request can be published to an unrelated cowork. -/
theorem not_repliesOnPromisedSubject_of_multicast :
    ¬ ∀ state,
        Reachable RegistryStep IsInitial state →
        ∀ (sessionExists : String → Bool) topic
          (envelope : RegistryEnvelope),
          envelope.replyTo.getD "" = "" →
          (state.selectSession topic envelope).isSome →
          RepliesOnPromisedSubject sessionExists topic envelope state := by
  intro always
  let afterCowork :=
    (initial "main" "agent-0").handleInbound (fun _ => true) "a2a.cowork.cw-1" coworkRequest
  have taken : RegistryStep (.initial "main" "agent-0")
        (.inbound (fun _ => true) "a2a.cowork.cw-1" coworkRequest)
        afterCowork := rfl
  have reachable : Reachable RegistryStep IsInitial afterCowork :=
    (Reachable.start ⟨"main", "agent-0", rfl⟩).next taken
  have promised :=
    always afterCowork reachable (fun _ => true) "a2a.agent.group.g1"
      groupRequest rfl (by decide +kernel)
  have replied : ((afterCowork.handleInbound (fun _ => true) "a2a.agent.group.g1"
          groupRequest).deliver 1 "hello").map
        (fun finish => finish.published.map fun publication =>
          (publication.subject, publication.task)) = some [("a2a.cowork.cw-1", 1)] := by
    decide +kernel
  obtain ⟨finish, delivered, published⟩ := Option.map_eq_some_iff.mp replied
  obtain ⟨publication, only, sameValues⟩ := List.map_eq_singleton_iff.mp published
  obtain ⟨sameSubject, sameTask⟩ := Prod.mk.inj sameValues
  have deliverStep : RegistryStep
        (afterCowork.handleInbound (fun _ => true) "a2a.agent.group.g1" groupRequest)
        (.deliver 1 "hello") finish :=
    delivered
  have onSubject :=
    (promised (Run.single deliverStep) publication (by simp [only])
      (by rw [sameTask]; decide +kernel)).1 (.inr (by decide +kernel))
  have misplaced : "a2a.cowork.cw-1" = unicastTopic ++ groupRequest.source :=
    sameSubject.symm.trans onSubject
  exact absurd misplaced (by decide +kernel)

/-- The inbound handler starts a task for the envelope. -/
def RegistryState.Dispatches (state : RegistryState) (sessionExists : String → Bool)
    (topic : String) (envelope : RegistryEnvelope) : Prop :=
  (state.handleInbound sessionExists topic envelope).nextTask ≠ state.nextTask

/-- Only a request passes; one of the agent itself has to name a session, and a session
that the agent itself writes to has to be addressed by unicast. -/
def PassesLoopGuard (effectiveAgentId : String) (activeOutboundSessions : List String)
    (topic : String) (envelope : RegistryEnvelope) : Prop :=
  envelope.messageType ≠ .res ∧
    (envelope.source = effectiveAgentId →
      ∃ session, envelope.sessionField = some session ∧
        (session ∈ activeOutboundSessions → matchesPrefix unicastTopic topic = true))

theorem passesLoopGuard_of_route {effectiveAgentId topic : String}
    {activeOutboundSessions : List String} {envelope : RegistryEnvelope} {taken : Route}
    (isTaken : route effectiveAgentId activeOutboundSessions topic envelope = taken)
    (notResponse : taken ≠ .response) (notLoopback : taken ≠ .loopback) :
    PassesLoopGuard effectiveAgentId activeOutboundSessions topic envelope := by
  subst taken
  unfold route at notResponse notLoopback
  split_ifs at notResponse notLoopback with response self
  · exact absurd rfl notResponse
  · refine ⟨response, fun _ => ?_⟩
    cases named : envelope.sessionField with
    | none => simp [named] at notLoopback
    | some session =>
      refine ⟨session, rfl, fun active => ?_⟩
      by_contra elsewhere
      simp [named, active, elsewhere] at notLoopback
  · exact ⟨response, fun isSelf => absurd isSelf self⟩

/-- Whatever the handler dispatches has passed the guard against loops. -/
theorem passesLoopGuard_of_dispatches (sessionExists : String → Bool) {state : RegistryState}
    {topic : String} {envelope : RegistryEnvelope}
    (dispatches : state.Dispatches sessionExists topic envelope) :
    PassesLoopGuard state.effectiveAgentId state.activeOutboundSessions topic envelope := by
  unfold RegistryState.Dispatches handleInbound at dispatches
  cases selects : state.selectSession topic envelope with
  | none => simp [selects] at dispatches
  | some selected =>
    unfold selectSession at selects
    cases taken : route state.effectiveAgentId state.activeOutboundSessions topic envelope with
    | response | loopback => simp [taken] at selects
    | unicast | multicast | broadcast | cowork | unrecognized =>
      exact passesLoopGuard_of_route taken nofun nofun

/-- The agent's own request from another session reaches it. -/
theorem passesLoopGuard_of_dispatches_crossSession : let state : RegistryState :=
      { initial "main" "agent-0" with activeOutboundSessions := ["s1"] }
    let envelope : RegistryEnvelope := {
      requestId := "r1"
      messageType := .req
      source := "agent-0"
      session := some "s1"
      action := "message"
      replyTo := none }
    PassesLoopGuard state.effectiveAgentId state.activeOutboundSessions
      "a2a.agent.unicast.agent-0" envelope :=
  passesLoopGuard_of_dispatches (fun _ => true) (by
    unfold RegistryState.Dispatches
    decide +kernel)

end AgentRegistry
