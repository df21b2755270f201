import AieClaw.AgentRegistry
import Mathlib.Data.List.MinMax

/-!
# The sessions and tasks of the agent registry channel

A session object keeps its key and its kind for as long as it exists, and a task
keeps its object also after the object left the table. Every step either
dispatches one request to a selected session or continues the tasks that run.
-/

namespace AgentRegistry

open TransitionSystem RegistryState OrderedMap

/-- A reply context of the kind and key of a session object. -/
def RegistryState.Answers (state : RegistryState) (object : ℕ) (envelope : RegistryEnvelope)
    (context : SessionContext) : Prop :=
  ∃ session, state.objects.get? object = some session ∧ sessionContext session envelope = context

/--
Objects and tasks have been numbered below the next number, an object in the
table is stored there under its own key, and every object has the kind that its
key gives.
-/
structure RegistryState.Keyed (state : RegistryState) : Prop where
  inTable :
    ∀ ⦃key object⦄,
      state.sessions.get? key = some object →
      ∃ session, state.objects.get? object = some session ∧ session.sessionKey = key
  kinds :
    ∀ ⦃object session⦄,
      state.objects.get? object = some session →
      session.sessionContextKind = kindOfKey session.sessionKey
  objectsBelow :
    ∀ ⦃object session⦄,
      state.objects.get? object = some session →
      object < state.nextObject
  tasksBelow :
    ∀ ⦃task running⦄,
      state.tasks.get? task = some running →
      task < state.nextTask
  publishedBelow : ∀ publication ∈ state.published, publication.task < state.nextTask

/-- Objects keep their key and kind, and their numbers are not reused. -/
def KeepsObjects (source target : RegistryState) : Prop :=
  ∀ ⦃object session⦄,
    source.objects.get? object = some session →
    ∃ later,
      target.objects.get? object = some later ∧
        later.sessionKey = session.sessionKey ∧
        later.sessionContextKind = session.sessionContextKind

variable {source target : RegistryState} {topic : String} {selected : ℕ × RegistryState} {task : ℕ}

theorem keepsObjects_of_objects (same : target.objects = source.objects) :
    KeepsObjects source target := by
  intro object session found
  exact ⟨session, by rwa [same], rfl, rfl⟩

theorem KeepsObjects.refl (state : RegistryState) : KeepsObjects state state :=
  keepsObjects_of_objects rfl

theorem KeepsObjects.trans {first middle last : RegistryState}
    (earlier : KeepsObjects first middle) (later : KeepsObjects middle last) :
    KeepsObjects first last := by
  intro object session found
  obtain ⟨between, betweenFound, betweenKey, betweenKind⟩ := earlier found
  obtain ⟨final, finalFound, finalKey, finalKind⟩ := later betweenFound
  exact ⟨final, finalFound, finalKey.trans betweenKey, finalKind.trans betweenKind⟩

theorem sessionContext_congr {session other : AgentSession}
    (sameKey : other.sessionKey = session.sessionKey)
    (sameKind : other.sessionContextKind = session.sessionContextKind)
    (envelope : RegistryEnvelope) : sessionContext other envelope =
      sessionContext session envelope := by
  simp only [sessionContext, sameKey, sameKind]

theorem KeepsObjects.answers (kept : KeepsObjects source target) {object : ℕ}
    {envelope : RegistryEnvelope} {context : SessionContext}
    (answers : source.Answers object envelope context) :
    target.Answers object envelope context := by
  obtain ⟨session, found, rfl⟩ := answers
  obtain ⟨later, laterFound, sameKey, sameKind⟩ := kept found
  exact ⟨later, laterFound, sessionContext_congr sameKey sameKind envelope⟩

section

variable {state : RegistryState}

theorem kindOfKey_unicast (source : String) : kindOfKey ("unicast:" ++ source) = .unicast := by
  simp [kindOfKey, JsString.startsWith, String.toList_append]

theorem kindOfKey_deriveUnicastSessionKey (source : String) (session : Option String) :
    kindOfKey (deriveUnicastSessionKey source session) = .unicast := by
  cases session with
  | none => exact kindOfKey_unicast source
  | some session =>
    simp [deriveUnicastSessionKey, kindOfKey, JsString.startsWith, String.toList_append]

theorem keepsObjects_createAgentSession (keyed : state.Keyed) (session : AgentSession) :
    KeepsObjects state (state.createAgentSession session).2 := by
  intro object stored found
  have differs : object ≠ state.nextObject := (keyed.objectsBelow found).ne
  refine ⟨stored, ?_, rfl, rfl⟩
  simpa [createAgentSession, get?_set_of_ne differs] using found

/-- Creating an object of the kind of its key keeps the numbering. -/
theorem keyed_createAgentSession (keyed : state.Keyed) {session : AgentSession}
    (kind : session.sessionContextKind = kindOfKey session.sessionKey) :
    (state.createAgentSession session).2.Keyed where
  inTable := by
    intro key object found
    simp only [createAgentSession, get?_set] at found
    split at found
    case isTrue same =>
      cases found
      exact ⟨session, by simp [createAgentSession], same.symm⟩
    case isFalse =>
      obtain ⟨stored, storedFound, storedKey⟩ := keyed.inTable found
      obtain ⟨later, laterFound, sameKey, -⟩ :=
        keepsObjects_createAgentSession keyed session storedFound
      exact ⟨later, laterFound, sameKey.trans storedKey⟩
  kinds := by
    intro object stored found
    simp only [createAgentSession, get?_set] at found
    split at found
    case isTrue =>
      cases found
      exact kind
    case isFalse => exact keyed.kinds found
  objectsBelow := by
    intro object stored found
    simp only [createAgentSession, get?_set] at found ⊢
    split at found
    case isTrue same => omega
    case isFalse =>
      have below := keyed.objectsBelow found
      omega
  tasksBelow := keyed.tasksBelow
  publishedBelow := keyed.publishedBelow

/-- What selecting a session under a key does. -/
structure Selects (state : RegistryState) (kind : SessionKind) (key : String)
    (selected : ℕ × RegistryState) : Prop where
  keyed : selected.2.Keyed
  keeps : KeepsObjects state selected.2
  tasks : selected.2.tasks = state.tasks
  nextTask : selected.2.nextTask = state.nextTask
  published : selected.2.published = state.published
  object :
    ∃ session,
      selected.2.objects.get? selected.1 = some session ∧
        session.sessionKey = key ∧
        session.sessionContextKind = kind

theorem selects_existing (keyed : state.Keyed) {key : String} {object : ℕ}
    (found : state.sessions.get? key = some object) :
    Selects state (kindOfKey key) key (object, state) := by
  obtain ⟨session, stored, sameKey⟩ := keyed.inTable found
  refine ⟨keyed, KeepsObjects.refl state, rfl, rfl, rfl, session, stored, sameKey, ?_⟩
  rw [keyed.kinds stored, sameKey]

theorem selects_created (keyed : state.Keyed) {key : String} {kind : SessionKind}
    (agrees : kind = kindOfKey key) (fixedOpenClawSessionKey : Option String) :
    Selects state (kindOfKey key) key (state.createAgentSession {
        sessionKey := key
        sessionContextKind := kind
        fixedOpenClawSessionKey := fixedOpenClawSessionKey
        activeTaskCount := 0 }) :=
  ⟨keyed_createAgentSession keyed agrees,
    keepsObjects_createAgentSession keyed _, rfl, rfl, rfl, _,
    get?_set_self _ _ _, rfl, agrees⟩

theorem selects_createSession (keyed : state.Keyed) (source : String) :
    Selects state .unicast ("unicast:" ++ source) (state.createSession source) := by
  rw [← kindOfKey_unicast source]
  simp only [createSession]
  split
  case h_1 existing found => exact selects_existing keyed found
  case h_2 => exact selects_created keyed (kindOfKey_unicast source).symm none

theorem selects_getOrCreateSession (keyed : state.Keyed) (key : String)
    (envelope : Option RegistryEnvelope) : Selects state (kindOfKey key) key
      (state.getOrCreateSession key envelope) := by
  simp only [getOrCreateSession]
  split
  case h_1 existing found => exact selects_existing keyed found
  case h_2 => exact selects_created keyed rfl _

/-- The table lists the object before every other with as few tasks. -/
def RegistryState.IsLeastLoaded (state : RegistryState) (object : ℕ) : Prop :=
  object ∈ state.sessions.values ∧
    (∀ other ∈ state.sessions.values, state.activeTaskCount object ≤ state.activeTaskCount other) ∧
    ∀ other ∈ state.sessions.values,
      state.activeTaskCount other ≤ state.activeTaskCount object →
      state.sessions.values.idxOf object ≤ state.sessions.values.idxOf other

theorem getLeastLoadedSession_eq_argmin : state.getLeastLoadedSession =
      state.sessions.values.argmin state.activeTaskCount := by
  have sameTurn : state.lessLoaded = List.argAux fun object best =>
          state.activeTaskCount object < state.activeTaskCount best := by
    funext best object
    cases best with
    | none => rfl
    | some best => rfl
  rw [getLeastLoadedSession, sameTurn, List.argmin]

theorem getLeastLoadedSession_eq_some_iff {object : ℕ} :
    state.getLeastLoadedSession = some object ↔ state.IsLeastLoaded object := by
  rw [getLeastLoadedSession_eq_argmin, ← Option.mem_def, List.mem_argmin_iff]
  rfl

end

variable {state : RegistryState} {envelope : RegistryEnvelope} {responseText : String}

theorem RegistryState.Keyed.of_keepsObjects (keyed : source.Keyed)
    (forward : KeepsObjects source target) (backward : KeepsObjects target source)
    (table : ∀ ⦃key object⦄, target.sessions.get? key = some object →
        source.sessions.get? key = some object) (nextObject : target.nextObject = source.nextObject)
    (tasksBelow : ∀ ⦃task running⦄, target.tasks.get? task = some running → task < target.nextTask)
    (publishedBelow : ∀ publication ∈ target.published, publication.task < target.nextTask) :
    target.Keyed where
  inTable := by
    intro key object found
    obtain ⟨session, stored, sameKey⟩ := keyed.inTable (table found)
    obtain ⟨later, laterFound, laterKey, -⟩ := forward stored
    exact ⟨later, laterFound, laterKey.trans sameKey⟩
  kinds := by
    intro object session found
    obtain ⟨earlier, stored, sameKey, sameKind⟩ := backward found
    rw [← sameKey, ← sameKind]
    exact keyed.kinds stored
  objectsBelow := by
    intro object session found
    obtain ⟨earlier, stored, -⟩ := backward found
    rw [nextObject]
    exact keyed.objectsBelow stored
  tasksBelow := tasksBelow
  publishedBelow := publishedBelow

theorem keepsObjects_of_modify (source target : RegistryState) (object : ℕ)
    (count : AgentSession → ℕ) (counted : target.objects =
        source.objects.modify object fun session =>
          { session with activeTaskCount := count session }) :
    KeepsObjects source target ∧ KeepsObjects target source := by
  constructor
  · intro other session found
    rw [counted, get?_modify]
    split
    case isTrue same =>
      subst same
      simp [found]
    case isFalse => exact ⟨session, found, rfl, rfl⟩
  · intro other session found
    rw [counted, get?_modify] at found
    split at found
    case isTrue same =>
      subst same
      obtain ⟨earlier, stored, rfl⟩ := Option.map_eq_some_iff.mp found
      exact ⟨earlier, stored, rfl, rfl⟩
    case isFalse => exact ⟨session, found, rfl, rfl⟩

/-- What dispatching a request to a selected session does. -/
structure Dispatches (source : RegistryState) (selected : ℕ × RegistryState)
    (envelope : RegistryEnvelope) (target : RegistryState) : Prop where
  keyed : target.Keyed
  keeps : KeepsObjects selected.2 target
  nextTask : target.nextTask = source.nextTask + 1
  published : target.published = source.published
  started :
    ∃ running,
      target.tasks.get? source.nextTask = some running ∧
        running.session = selected.1 ∧
        running.envelope = envelope
  others :
    ∀ ⦃task⦄,
      task ≠ source.nextTask →
      target.tasks.get? task = source.tasks.get? task

theorem dispatches_dispatch {kind : SessionKind} {key : String}
    (selects : Selects state kind key selected) (sessionExists : String → Bool) (topic : String)
    (envelope : RegistryEnvelope) : Dispatches state selected envelope
      (dispatch sessionExists topic envelope selected) := by
  obtain ⟨object, middle⟩ := selected
  have keyed : middle.Keyed := selects.keyed
  have nextTask : middle.nextTask = state.nextTask := selects.nextTask
  have tasks : middle.tasks = state.tasks := selects.tasks
  have counted :=
    keepsObjects_of_modify middle
      (dispatch sessionExists topic envelope (object, middle))
      object (fun session => session.activeTaskCount + 1) rfl
  have others : ∀ ⦃task⦄, task ≠ state.nextTask → (dispatch sessionExists topic envelope
          (object, middle)).tasks.get? task = state.tasks.get? task := by
    intro task differs
    simp only [dispatch]
    rw [get?_set_of_ne (by rwa [nextTask]), tasks]
  have started : (dispatch sessionExists topic envelope
        (object, middle)).tasks.get? state.nextTask = some {
          session := object
          topic := topic
          envelope := envelope
          sessionKeyOverride :=
            middle.sessionKeyOverride sessionExists object envelope } := by
    simp only [dispatch, nextTask, get?_set_self]
  refine ⟨?_, counted.1, ?_, selects.published, ⟨_, started, rfl, rfl⟩, others⟩
  · apply keyed.of_keepsObjects counted.1 counted.2
    · exact fun _ _ found => found
    · rfl
    · intro task running found
      simp only [dispatch, get?_set] at found ⊢
      split at found
      case isTrue same => omega
      case isFalse =>
        have below := keyed.tasksBelow found
        omega
    · intro publication member
      exact Nat.lt_succ_of_lt (keyed.publishedBelow publication member)
  · simp only [dispatch, nextTask]

theorem route_eq_routeTopic {effectiveAgentId : String} {activeOutboundSessions : List String}
    (notResponse : route effectiveAgentId activeOutboundSessions topic envelope ≠ .response)
    (notLoopback : route effectiveAgentId activeOutboundSessions topic envelope ≠ .loopback) :
    route effectiveAgentId activeOutboundSessions topic envelope = routeTopic topic := by
  simp only [route] at notResponse notLoopback ⊢
  grind

theorem append_segmentAfter {start : String} (isMatch : matchesPrefix start topic = true) :
    start ++ segmentAfter start topic = topic := by
  have isPrefix : start.toList <+: topic.toList := List.isPrefixOf_iff_prefix.mp isMatch
  obtain ⟨rest, shape⟩ := isPrefix
  apply String.toList_inj.mp
  simp [segmentAfter, ← shape, ← String.length_toList]

theorem routeTopic_cases (topic : String) :
    match routeTopic topic with
    | .unicast => matchesPrefix unicastTopic topic = true
    | .multicast => matchesPrefix multicastTopic topic = true
    | .broadcast => matchesPrefix broadcastTopic topic = true
    | .cowork coworkId =>
      matchesPrefix coworkTopic topic = true ∧ segmentAfter coworkTopic topic = coworkId
    | .unrecognized => True
    | _ => False := by
  simp only [routeTopic]
  split <;> grind

theorem selectSession_cases (isSelected : state.selectSession topic envelope = some selected) :
    (∃ agentId, unicastTopic ++ agentId = topic ∧ state.handleUnicast envelope = selected) ∨
      (∃ groupId, multicastTopic ++ groupId = topic ∧ state.handleMulticast envelope = selected) ∨
      ∃ coworkId, coworkTopic ++ coworkId = topic ∧
          state.handleCollaborationTopic coworkId = selected := by
  simp only [selectSession] at isSelected
  generalize routed : route state.effectiveAgentId
    state.activeOutboundSessions topic envelope = taken at isSelected
  have byTopic : taken ≠ .response → taken ≠ .loopback → taken = routeTopic topic := by
    rw [← routed]
    exact route_eq_routeTopic
  have shape := routeTopic_cases topic
  cases taken with
  | unicast =>
    rw [← byTopic (by simp) (by simp)] at shape
    exact .inl ⟨_, append_segmentAfter shape, Option.some.inj isSelected⟩
  | multicast =>
    rw [← byTopic (by simp) (by simp)] at shape
    exact .inr (.inl ⟨_, append_segmentAfter shape, Option.some.inj isSelected⟩)
  | cowork coworkId =>
    rw [← byTopic (by simp) (by simp)] at shape
    obtain ⟨isMatch, rfl⟩ := shape
    exact .inr (.inr ⟨_, append_segmentAfter isMatch, Option.some.inj isSelected⟩)
  | _ => contradiction

theorem selects_handleMulticast (keyed : state.Keyed) (envelope : RegistryEnvelope) : ∃ key,
      Selects state (kindOfKey key) key (state.handleMulticast envelope) := by
  simp only [handleMulticast]
  split
  case h_1 object found =>
    obtain ⟨member, -⟩ := getLeastLoadedSession_eq_some_iff.mp found
    obtain ⟨key, stored⟩ := exists_get?_of_mem_values member
    exact ⟨key, selects_existing keyed stored⟩
  case h_2 =>
    have selects := selects_createSession keyed envelope.source
    rw [← kindOfKey_unicast envelope.source] at selects
    exact ⟨_, selects⟩

theorem selects_selectSession (keyed : state.Keyed)
    (isSelected : state.selectSession topic envelope = some selected) :
    ∃ kind key, Selects state kind key selected := by
  rcases selectSession_cases isSelected with ⟨-, -, rfl⟩ | ⟨-, -, rfl⟩ | ⟨coworkId, -, rfl⟩
  · exact ⟨_, _, selects_getOrCreateSession keyed _ _⟩
  · obtain ⟨key, selects⟩ := selects_handleMulticast keyed envelope
    exact ⟨_, key, selects⟩
  · exact ⟨_, _, selects_getOrCreateSession keyed _ _⟩

theorem handleInbound_cases (keyed : state.Keyed)
    (sessionExists : String → Bool) (topic : String) (envelope : RegistryEnvelope) :
    state.handleInbound sessionExists topic envelope = state ∨
      ∃ kind key selected, state.selectSession topic envelope = some selected ∧
          Selects state kind key selected ∧
          Dispatches state selected envelope
            (state.handleInbound sessionExists topic envelope) := by
  simp only [handleInbound]
  cases isSelected : state.selectSession topic envelope with
  | none => exact .inl rfl
  | some selected =>
    obtain ⟨kind, key, selects⟩ := selects_selectSession keyed isSelected
    exact .inr ⟨kind, key, selected, rfl, selects,
      dispatches_dispatch selects sessionExists topic envelope⟩

theorem deliver_cases (delivered : state.deliver task responseText = some target) : target = state ∨
      ∃ running session publication seqCounters, state.tasks.get? task = some running ∧
          state.objects.get? running.session = some session ∧
          publication.task = task ∧
          resolveSubject running.envelope.replyTo running.envelope.source
              (sessionContext session running.envelope) = some publication.subject ∧
          target = { state with
            seqCounters := seqCounters
            published := state.published ++ [publication] } := by
  simp only [deliver, Option.bind_eq_bind, Option.bind_eq_some_iff] at delivered
  obtain ⟨running, isRunning, session, found, sent⟩ := delivered
  split at sent
  case isTrue => exact .inl (Option.some.inj sent).symm
  case isFalse =>
    cases sent
    simp only [send]
    split
    case h_1 => exact .inl rfl
    case h_2 subject resolved =>
      exact .inr ⟨running, session, _, _, isRunning, found, rfl, resolved, rfl⟩

theorem settle_eq_some (settled : state.settle task = some target) :
    ∃ running, state.tasks.get? task = some running ∧
        target = { state with
          objects := state.objects.modify running.session fun session =>
            { session with activeTaskCount := session.activeTaskCount - 1 }
          tasks := state.tasks.delete task } := by
  simp only [settle, Option.bind_eq_bind, Option.bind_eq_some_iff] at settled
  obtain ⟨running, isRunning, sameState⟩ := settled
  exact ⟨running, isRunning, (Option.some.inj sameState).symm⟩

theorem get?_of_delete {tasks : OrderedMap ℕ Task} {settled : ℕ} {running : Task}
    (found : (tasks.delete settled).get? task = some running) : tasks.get? task = some running := by
  rw [get?_delete] at found
  split at found
  case isTrue => contradiction
  case isFalse => exact found

/-- What a step other than an inbound request does. -/
structure Continues (source target : RegistryState) : Prop where
  keyed : source.Keyed → target.Keyed
  keeps : KeepsObjects source target
  nextTask : target.nextTask = source.nextTask
  tasks :
    ∀ ⦃task running⦄,
      target.tasks.get? task = some running →
      source.tasks.get? task = some running
  published :
    ∀ publication ∈ target.published,
      publication ∈ source.published ∨
        ∃ running session,
          source.tasks.get? publication.task = some running ∧
            source.objects.get? running.session = some session ∧
            resolveSubject running.envelope.replyTo running.envelope.source
                (sessionContext session running.envelope) =
              some publication.subject

theorem Continues.refl (state : RegistryState) : Continues state state :=
  ⟨id, KeepsObjects.refl state, rfl, fun _ _ found => found, fun _ member => .inl member⟩

theorem continues_of_table (table : ∀ ⦃key object⦄, target.sessions.get? key = some object →
        source.sessions.get? key = some object) (objects : target.objects = source.objects)
    (nextObject : target.nextObject = source.nextObject) (tasks : target.tasks = source.tasks)
    (nextTask : target.nextTask = source.nextTask)
    (published : target.published = source.published) : Continues source target := by
  have forward : KeepsObjects source target := keepsObjects_of_objects objects
  have backward : KeepsObjects target source := keepsObjects_of_objects objects.symm
  refine ⟨fun keyed => ?_, forward, nextTask, ?_, ?_⟩
  · apply keyed.of_keepsObjects forward backward table nextObject
    · rw [tasks, nextTask]
      exact keyed.tasksBelow
    · rw [published, nextTask]
      exact keyed.publishedBelow
  · rw [tasks]
    exact fun _ _ found => found
  · rw [published]
    exact fun _ member => .inl member

theorem continues_of_deliver
    (delivered : state.deliver task responseText = some target) : Continues state target := by
  obtain rfl | ⟨running, session, publication, seqCounters, isRunning, found,
      sameTask, resolved, rfl⟩ := deliver_cases delivered
  · exact Continues.refl target
  · refine ⟨fun keyed => ?_, keepsObjects_of_objects rfl, rfl, fun _ _ found => found, ?_⟩
    · refine keyed.of_keepsObjects (keepsObjects_of_objects rfl)
        (keepsObjects_of_objects rfl) (fun _ _ found => found) rfl keyed.tasksBelow ?_
      intro published member
      rcases List.mem_append.mp member with earlier | last
      · exact keyed.publishedBelow published earlier
      · rw [List.mem_singleton.mp last, sameTask]
        exact keyed.tasksBelow isRunning
    · intro published member
      rcases List.mem_append.mp member with earlier | last
      · exact .inl earlier
      · rw [List.mem_singleton.mp last, sameTask]
        exact .inr ⟨running, session, isRunning, found, resolved⟩

theorem continues_of_settle (settled : state.settle task = some target) :
    Continues state target := by
  obtain ⟨running, isRunning, same⟩ := settle_eq_some settled
  have counted :=
    keepsObjects_of_modify state target running.session
      (fun session => session.activeTaskCount - 1) (by rw [same])
  subst same
  refine ⟨fun keyed => ?_, counted.1, rfl, fun _ _ found => ?_, fun _ member => .inl member⟩
  · apply keyed.of_keepsObjects counted.1 counted.2
    · exact fun _ _ found => found
    · rfl
    · exact fun _ _ found => keyed.tasksBelow (get?_of_delete found)
    · exact keyed.publishedBelow
  · exact get?_of_delete found

/-- Every step dispatches a request or continues the channel. -/
theorem RegistryStep.cases {action : RegistryAction} (taken : RegistryStep source action target)
    (keyed : source.Keyed) : Continues source target ∨
      ∃ kind key selected envelope, Selects source kind key selected ∧
          Dispatches source selected envelope target := by
  cases action with
  | inbound sessionExists topic envelope =>
    cases taken
    obtain same | ⟨kind, key, selected, -, selects, dispatches⟩ :=
      handleInbound_cases keyed sessionExists topic envelope
    · rw [same]
      exact .inl (Continues.refl source)
    · exact .inr ⟨kind, key, selected, envelope, selects, dispatches⟩
  | deliver task responseText => exact .inl (continues_of_deliver taken)
  | settle task => exact .inl (continues_of_settle taken)
  | remove key =>
    cases taken
    refine .inl (continues_of_table ?_ rfl rfl rfl rfl rfl)
    intro other object found
    simp only [get?_delete] at found
    split at found
    case isTrue => contradiction
    case isFalse => exact found
  | clear =>
    cases taken
    refine .inl (continues_of_table ?_ rfl rfl rfl rfl rfl)
    intro key object found
    simp at found
  | addOutboundSession sessionKey =>
    cases taken
    exact .inl (continues_of_table (fun _ _ found => found) rfl rfl rfl rfl rfl)
  | reregister agentId =>
    cases taken
    exact .inl (continues_of_table (fun _ _ found => found) rfl rfl rfl rfl rfl)

theorem keyed_step : Preserves RegistryStep Keyed := by
  intro source action target taken keyed
  obtain continues | ⟨kind, key, selected, envelope, selects, dispatches⟩ :=
    RegistryStep.cases taken keyed
  · exact continues.keyed keyed
  · exact dispatches.keyed

theorem keyed_initial ⦃state : RegistryState⦄ (isInitial : IsInitial state) : state.Keyed := by
  obtain ⟨boundAgentId, agentId, rfl⟩ := isInitial
  constructor <;> simp [initial]

theorem keyed_of_reachable (reachable : Reachable RegistryStep IsInitial state) : state.Keyed :=
  reachable.invariant keyed_initial keyed_step

end AgentRegistry
