import AieClaw.JsString

/-!
# The tracker of standard operating procedures

Tool calls move the steps of the procedure that a session follows. The tracker keeps
one state for each session and emits all of its steps whenever an event matches one.
-/

namespace SopTracker

open Option

structure SopStepDef where
  skill : String
  label : String
  icon : Option String

structure SopDefinition where
  name : String
  label : String
  steps : List SopStepDef

inductive SopStepStatus where
  | pending
  | running
  | completed
  | failed
  | skipped
  deriving DecidableEq

def SopStepStatus.isTerminal : SopStepStatus → Bool
  | .completed => true
  | .failed => true
  | .skipped => true
  | _ => false

structure SopStepState where
  skill : String
  label : String
  icon : Option String
  status : SopStepStatus
  startedAt : Option ℤ
  completedAt : Option ℤ
  elapsed : Option ℤ

structure SopState where
  sopName : String
  sopLabel : String
  steps : List SopStepState
  currentStepIndex : ℤ
  startedAt : ℤ
  completedAt : Option ℤ

structure SopStateEventPayload where
  sessionKey : String
  sopName : String
  sopLabel : String
  steps : List SopStepState
  currentStepIndex : ℤ
  completedAt : Option ℤ
  ts : ℤ

/-- Sessions by their key, and the definitions that were loaded for agents. -/
structure Tracker where
  sessions : String → Option SopState
  sopCache : String → Option (Option SopDefinition)

def Tracker.initial : Tracker where
  sessions := fun _ => none
  sopCache := fun _ => none

section

variable (tracker : Tracker)

/--
The definition of an agent. The file is what the workspace holds at this moment, when
it can be parsed; a definition without a name counts as none.
-/
def Tracker.loadSOP (agentId : String) (file : Option SopDefinition) :
    Tracker × Option SopDefinition :=
  match tracker.sopCache agentId with
  | some cached => (tracker, cached)
  | none =>
    let loaded := file.filter fun definition => definition.name ≠ ""
    ({ tracker with sopCache := Function.update tracker.sopCache agentId (some loaded) }, loaded)

/-- Scripts are named with underscores where definitions use hyphens. -/
def normalizeToolName (toolName : String) : String :=
  String.ofList (toolName.toList.map fun character => if character = '_' then '-' else character)

def matchesStep (toolName : String) (step : SopStepDef) : Bool :=
  toolName = step.skill || JsString.includesText toolName step.skill ||
    normalizeToolName toolName = step.skill ||
      JsString.includesText (normalizeToolName toolName) step.skill

def matchedStep? (sop : SopDefinition) (toolName : String) : Option ℕ :=
  sop.steps.findIdx? (matchesStep toolName)

def newStep (step : SopStepDef) : SopStepState where
  skill := step.skill
  label := step.label
  icon := step.icon
  status := .pending
  startedAt := none
  completedAt := none
  elapsed := none

def newState (sop : SopDefinition) (timestamp : ℤ) : SopState where
  sopName := sop.name
  sopLabel := sop.label
  steps := sop.steps.map newStep
  currentStepIndex := -1
  startedAt := timestamp
  completedAt := none

def SopStepState.ended (step : SopStepState) (status : SopStepStatus) (timestamp : ℤ) :
    SopStepState :=
  { step with
    status := status
    completedAt := some timestamp
    elapsed :=
      match step.startedAt with
      | some startedAt => if startedAt ≠ 0 then some (timestamp - startedAt) else step.elapsed
      | none => step.elapsed }

def SopStepState.autoCompleted (step : SopStepState) (timestamp : ℤ) : SopStepState :=
  if step.status = .pending ∨ step.status = .running then step.ended .completed timestamp
  else step

/-- Steps before the given one that are not over yet are completed. -/
def completeEarlier (stepIndex : ℕ) (timestamp : ℤ) (steps : List SopStepState) :
    List SopStepState :=
  steps.mapIdx fun index step => if index < stepIndex then step.autoCompleted timestamp else step

def SopStepState.reset (step : SopStepState) : SopStepState where
  skill := step.skill
  label := step.label
  icon := step.icon
  status := .pending
  startedAt := none
  completedAt := none
  elapsed := none

/-- A new round: the steps from the given one on are pending again. -/
def resetFrom (stepIndex : ℕ) (steps : List SopStepState) : List SopStepState :=
  steps.mapIdx fun index step => if index < stepIndex then step else step.reset

def SopState.allTerminal (state : SopState) : Bool :=
  state.steps.all fun step => step.status.isTerminal

/-- The time of completion follows the steps; a time of zero counts as none. -/
def SopState.settleCompletedAt (state : SopState) (ts : ℤ) : SopState :=
  if state.allTerminal then
    if state.completedAt = none ∨ state.completedAt = some 0 then
      { state with completedAt := some ts }
    else state
  else { state with completedAt := none }

def SopState.payload (state : SopState) (sessionKey : String) (ts : ℤ) : SopStateEventPayload where
  sessionKey := sessionKey
  sopName := state.sopName
  sopLabel := state.sopLabel
  steps := state.steps
  currentStepIndex := state.currentStepIndex
  completedAt := state.completedAt
  ts := ts

def Tracker.emitState (sessionKey : String) (state : SopState) (ts : ℤ) :
    Tracker × Option SopStateEventPayload :=
  let settled := state.settleCompletedAt ts
  ({ tracker with sessions := Function.update tracker.sessions sessionKey (some settled) },
    some (settled.payload sessionKey ts))

inductive ToolPhase where
  | start
  | result
  deriving DecidableEq

structure ToolEvent where
  sessionKey : String
  agentId : String
  /-- What `SOP.json` of the workspace holds. -/
  file : Option SopDefinition
  toolName : String
  phase : ToolPhase
  isError : Bool
  timestamp : ℤ

/-- The state that an event works on. -/
def Tracker.stateFor (event : ToolEvent) (sop : SopDefinition) : SopState :=
  (tracker.sessions event.sessionKey).getD (newState sop event.timestamp)

/--
A step that starts again begins a new round. The step is then replaced by a fresh one,
and the mark that it is running is set on the replaced step, which is seen no more.
-/
def SopState.startStep (state : SopState) (stepIndex : ℕ) (step : SopStepState)
    (timestamp : ℤ) : SopState :=
  if step.status.isTerminal then
    { state with
      steps := resetFrom stepIndex state.steps
      completedAt := none
      currentStepIndex := stepIndex }
  else
    { state with
      steps := state.steps.modify stepIndex fun step =>
        { step with status := .running, startedAt := some timestamp }
      currentStepIndex := stepIndex }

def SopState.endStep (state : SopState) (stepIndex : ℕ) (isError : Bool) (timestamp : ℤ) :
    SopState :=
  if isError then
    { state with
      steps := state.steps.modify stepIndex fun step => step.ended .failed timestamp }
  else state

def Tracker.onToolEvent (event : ToolEvent) :
    Tracker × Option SopStateEventPayload :=
  let (loaded, sop?) := tracker.loadSOP event.agentId event.file
  match sop? with
  | none => (loaded, none)
  | some sop =>
    match matchedStep? sop event.toolName with
    | none => (loaded, none)
    | some stepIndex =>
      let state := tracker.stateFor event sop
      let tracked :=
        { loaded with
          sessions := Function.update loaded.sessions event.sessionKey (some state) }
      match state.steps[stepIndex]? with
      | none => (tracked, none)
      | some step =>
        let earlier :=
          { state with steps := completeEarlier stepIndex event.timestamp state.steps }
        let moved :=
          match event.phase with
          | .start => earlier.startStep stepIndex step event.timestamp
          | .result => earlier.endStep stepIndex event.isError event.timestamp
        tracked.emitState event.sessionKey moved event.timestamp

def Tracker.updateStepStatus (sessionKey skill : String)
    (status : SopStepStatus) (timestamp : ℤ) : Tracker × Option SopStateEventPayload :=
  match tracker.sessions sessionKey with
  | none => (tracker, none)
  | some state =>
    match state.steps.findIdx? fun step => step.skill = skill with
    | none => (tracker, none)
    | some stepIndex =>
      let update := fun step : SopStepState =>
        if status = .completed ∨ status = .failed then step.ended status timestamp
        else { step with status := status }
      let moved :=
        { state with
          steps := (completeEarlier stepIndex timestamp state.steps).modify stepIndex update }
      tracker.emitState sessionKey moved timestamp

def Tracker.finalizeRunningSteps (sessionKey : String) (timestamp : ℤ) :
    Tracker × Option SopStateEventPayload :=
  match tracker.sessions sessionKey with
  | none => (tracker, none)
  | some state =>
    if state.steps.any fun step => step.status = .running then
      let finished := state.steps.map fun step =>
        if step.status = .running then step.ended .completed timestamp else step
      tracker.emitState sessionKey { state with steps := finished } timestamp
    else (tracker, none)

inductive Event where
  | tool (event : ToolEvent)
  | updateStepStatus (sessionKey skill : String) (status : SopStepStatus) (timestamp : ℤ)
  | finalizeRunningSteps (sessionKey : String) (timestamp : ℤ)
  | clearSession (sessionKey : String)
  | invalidateCache (agentId : String)

def Tracker.handle : Event → Tracker × Option SopStateEventPayload
  | .tool event => tracker.onToolEvent event
  | .updateStepStatus sessionKey skill status timestamp =>
    tracker.updateStepStatus sessionKey skill status timestamp
  | .finalizeRunningSteps sessionKey timestamp => tracker.finalizeRunningSteps sessionKey timestamp
  | .clearSession sessionKey =>
    ({ tracker with sessions := Function.update tracker.sessions sessionKey none }, none)
  | .invalidateCache agentId =>
    ({ tracker with sopCache := Function.update tracker.sopCache agentId none }, none)

/-- The tracker after a sequence of events. -/
def Tracker.run (events : List Event) : Tracker :=
  events.foldl (fun tracker event => (tracker.handle event).1) tracker

end

theorem SopState.settleCompletedAt_steps (state : SopState) (ts : ℤ) :
    (state.settleCompletedAt ts).steps = state.steps := by
  unfold settleCompletedAt
  split
  · split
    · rfl
    · rfl
  · rfl

theorem SopState.settleCompletedAt_currentStepIndex (state : SopState) (ts : ℤ) :
    (state.settleCompletedAt ts).currentStepIndex = state.currentStepIndex := by
  unfold settleCompletedAt
  split
  · split
    · rfl
    · rfl
  · rfl

theorem SopState.settleCompletedAt_isSome_iff (state : SopState) (ts : ℤ) :
    (state.settleCompletedAt ts).completedAt.isSome ↔ state.allTerminal = true := by
  unfold settleCompletedAt
  cases terminal : state.allTerminal with
  | false => simp
  | true =>
    rw [if_pos rfl]
    split
    · simp
    · rename_i given
      rw [not_or] at given
      simpa [isSome_iff_ne_none] using given.1

/-- The state is complete exactly when every step is over. -/
def SopStateEventPayload.CompletedWithSteps (payload : SopStateEventPayload) : Prop :=
  payload.completedAt.isSome ↔ ∀ step ∈ payload.steps, step.status.isTerminal = true

/-- The step runs, every step before it is over, and it is the current one. -/
structure SopStateEventPayload.ShowsStart (payload : SopStateEventPayload)
    (stepIndex : ℕ) : Prop where
  running : ∃ step, payload.steps[stepIndex]? = some step ∧ step.status = .running
  earlier : ∀ (index : ℕ) (step : SopStepState), index < stepIndex →
    payload.steps[index]? = some step → step.status.isTerminal = true
  current : payload.currentStepIndex = stepIndex

variable {tracker : Tracker} {event : Event}

theorem completedWithSteps_of_emitState {sessionKey : String} {state : SopState} {ts : ℤ}
    {payload : SopStateEventPayload}
    (emitted : (tracker.emitState sessionKey state ts).2 = some payload) :
    payload.CompletedWithSteps := by
  cases emitted
  have steps : ((state.settleCompletedAt ts).payload sessionKey ts).steps = state.steps :=
    state.settleCompletedAt_steps ts
  rw [SopStateEventPayload.CompletedWithSteps, steps, ← List.all_eq_true]
  exact state.settleCompletedAt_isSome_iff ts

theorem Tracker.completedWithSteps_of_handle {payload : SopStateEventPayload}
    (emitted : (tracker.handle event).2 = some payload) : payload.CompletedWithSteps := by
  cases event with
  | tool event =>
    rw [handle, onToolEvent] at emitted
    dsimp only at emitted
    split at emitted
    · exact absurd emitted (by simp)
    · split at emitted
      · exact absurd emitted (by simp)
      · split at emitted
        · exact absurd emitted (by simp)
        · exact completedWithSteps_of_emitState emitted
  | updateStepStatus sessionKey skill status timestamp =>
    rw [handle, updateStepStatus] at emitted
    split at emitted
    · exact absurd emitted (by simp)
    · split at emitted
      · exact absurd emitted (by simp)
      · exact completedWithSteps_of_emitState emitted
  | finalizeRunningSteps sessionKey timestamp =>
    rw [handle, finalizeRunningSteps] at emitted
    split at emitted
    · exact absurd emitted (by simp)
    · split at emitted
      · exact completedWithSteps_of_emitState emitted
      · exact absurd emitted (by simp)
  | clearSession sessionKey => exact absurd emitted (by simp [handle])
  | invalidateCache agentId => exact absurd emitted (by simp [handle])

def Tracker.StartsAt (tracker : Tracker) (event : Event) (stepIndex : ℕ)
    (step : SopStepState) : Prop :=
  ∃ (start : ToolEvent) (sop : SopDefinition),
    event = .tool start ∧ start.phase = .start ∧
      (tracker.loadSOP start.agentId start.file).2 = some sop ∧
      matchedStep? sop start.toolName = some stepIndex ∧
      (tracker.stateFor start sop).steps[stepIndex]? = some step

theorem isTerminal_autoCompleted (step : SopStepState) (timestamp : ℤ) :
    (step.autoCompleted timestamp).status.isTerminal = true := by
  obtain ⟨skill, label, icon, status, startedAt, completedAt, elapsed⟩ := step
  cases status with
  | _ => rfl

theorem getElem?_completeEarlier (stepIndex index : ℕ) (timestamp : ℤ) (steps : List SopStepState) :
    (completeEarlier stepIndex timestamp steps)[index]? = steps[index]?.map fun step =>
        if index < stepIndex then step.autoCompleted timestamp else step := by
  rw [completeEarlier, List.getElem?_mapIdx]

section Start

variable {state : SopState} {stepIndex : ℕ} {step : SopStepState} {timestamp : ℤ}

theorem isTerminal_of_startStep {index : ℕ} {shown : SopStepState} (before : index < stepIndex)
    (isShown : ({ state with
      steps := completeEarlier stepIndex timestamp state.steps }.startStep stepIndex step
        timestamp).steps[index]? = some shown) : shown.status.isTerminal = true := by
  have kept : (completeEarlier stepIndex timestamp state.steps)[index]? = some shown := by
    unfold SopState.startStep at isShown
    split at isShown
    · dsimp only [resetFrom] at isShown
      rw [List.getElem?_mapIdx] at isShown
      obtain ⟨old, isOld, rfl⟩ := map_eq_some_iff.mp isShown
      rw [if_pos before]
      exact isOld
    · dsimp only at isShown
      rw [List.getElem?_modify] at isShown
      obtain ⟨old, isOld, rfl⟩ := map_eq_some_iff.mp isShown
      rw [if_neg (Nat.ne_of_gt before)]
      exact isOld
  rw [getElem?_completeEarlier] at kept
  obtain ⟨old, _, rfl⟩ := map_eq_some_iff.mp kept
  rw [if_pos before]
  exact isTerminal_autoCompleted old timestamp

variable (timestamp) in
theorem getElem?_startStep (isStep : state.steps[stepIndex]? = some step) : ∃ shown, ({ state with
        steps := completeEarlier stepIndex timestamp state.steps }.startStep stepIndex step
          timestamp).steps[stepIndex]? = some shown ∧
      shown.status = if step.status.isTerminal then .pending else .running := by
  have kept : (completeEarlier stepIndex timestamp state.steps)[stepIndex]? = some step := by
    rw [getElem?_completeEarlier, isStep, map_some, if_neg (lt_irrefl stepIndex)]
  unfold SopState.startStep
  cases terminal : step.status.isTerminal with
  | true =>
    rw [if_pos rfl, if_pos rfl]
    dsimp only [resetFrom]
    rw [List.getElem?_mapIdx, kept, map_some, if_neg (lt_irrefl stepIndex)]
    exact ⟨_, rfl, rfl⟩
  | false =>
    rw [if_neg Bool.false_ne_true, if_neg Bool.false_ne_true]
    dsimp only
    rw [List.getElem?_modify, kept]
    refine ⟨_, rfl, ?_⟩
    dsimp only
    rw [if_pos rfl]

variable (state stepIndex step timestamp) in
theorem currentStepIndex_startStep :
    (state.startStep stepIndex step timestamp).currentStepIndex = stepIndex := by
  unfold SopState.startStep
  split
  · rfl
  · rfl

end Start

theorem Tracker.handle_of_startsAt {stepIndex : ℕ} {step : SopStepState}
    (starts : tracker.StartsAt event stepIndex step) :
    ∃ (state : SopState) (timestamp : ℤ) (sessionKey : String) (base : Tracker),
      state.steps[stepIndex]? = some step ∧
      tracker.handle event = base.emitState sessionKey ({ state with
          steps := completeEarlier stepIndex timestamp state.steps }.startStep stepIndex step
            timestamp)
        timestamp := by
  obtain ⟨start, sop, rfl, isStart, isLoaded, isMatched, isStep⟩ := starts
  let loaded := (tracker.loadSOP start.agentId start.file).1
  let state := tracker.stateFor start sop
  refine ⟨state, start.timestamp, start.sessionKey,
    { loaded with
      sessions := Function.update loaded.sessions start.sessionKey (some state) },
    isStep, ?_⟩
  rw [handle, onToolEvent]
  dsimp only
  rw [isLoaded]
  dsimp only
  rw [isMatched]
  dsimp only
  rw [isStep]
  dsimp only
  rw [isStart]

/-- The emitted state shows the start exactly when the step was not over before. -/
theorem Tracker.showsStart_iff {stepIndex : ℕ} {step : SopStepState}
    (starts : tracker.StartsAt event stepIndex step) :
    (∃ payload, (tracker.handle event).2 = some payload ∧ payload.ShowsStart stepIndex) ↔
      step.status.isTerminal = false := by
  obtain ⟨state, timestamp, sessionKey, base, isStep, handled⟩ := tracker.handle_of_startsAt starts
  rw [handled]
  generalize started : SopState.startStep _ stepIndex step timestamp = moved
  obtain ⟨shown, isShown, status⟩ := getElem?_startStep timestamp isStep
  rw [started] at isShown
  have steps : ((moved.settleCompletedAt timestamp).payload sessionKey timestamp).steps =
      moved.steps :=
    moved.settleCompletedAt_steps timestamp
  constructor
  · rintro ⟨payload, emitted, shows⟩
    cases emitted
    obtain ⟨other, isOther, running⟩ := shows.running
    rw [steps, isShown] at isOther
    cases isOther
    rw [running] at status
    cases terminal : step.status.isTerminal with
    | false => rfl
    | true =>
      rw [terminal, if_pos rfl] at status
      exact absurd status (by decide)
  · intro notTerminal
    rw [notTerminal, if_neg Bool.false_ne_true] at status
    refine ⟨_, rfl, ⟨shown, by rw [steps, isShown], status⟩, ?_, ?_⟩
    · intro index other before isOther
      rw [steps, ← started] at isOther
      exact isTerminal_of_startStep before isOther
    · rw [← currentStepIndex_startStep _ stepIndex step timestamp, started]
      exact moved.settleCompletedAt_currentStepIndex timestamp

/-- What the tracker owes at an event. -/
def Tracker.ShowsRound (tracker : Tracker) (event : Event) : Prop :=
  (∀ stepIndex step, tracker.StartsAt event stepIndex step →
    ∃ payload, (tracker.handle event).2 = some payload ∧ payload.ShowsStart stepIndex) ∧
    ∀ payload, (tracker.handle event).2 = some payload → payload.CompletedWithSteps

/-- The event starts a step that is over, which begins a new round. -/
def Tracker.StartsNewRound (tracker : Tracker) (event : Event) : Prop :=
  ∃ stepIndex step, tracker.StartsAt event stepIndex step ∧ step.status.isTerminal = true

theorem Tracker.showsRound_iff (tracker : Tracker) (event : Event) :
    tracker.ShowsRound event ↔ ¬ tracker.StartsNewRound event := by
  constructor
  · rintro ⟨shows, _⟩ ⟨stepIndex, step, starts, terminal⟩
    have notTerminal := (tracker.showsStart_iff starts).mp (shows stepIndex step starts)
    rw [terminal] at notTerminal
    cases notTerminal
  · intro sameRound
    refine ⟨fun stepIndex step starts => (tracker.showsStart_iff starts).mpr ?_,
      fun payload emitted => tracker.completedWithSteps_of_handle emitted⟩
    cases terminal : step.status.isTerminal with
    | false => rfl
    | true => exact absurd ⟨stepIndex, step, starts, terminal⟩ sameRound

/-- Every event of the sequence is answered as it should be. -/
def ShowsRounds (events : List Event) : Prop :=
  ∀ earlier event later, events = earlier ++ event :: later →
    (Tracker.initial.run earlier).ShowsRound event

/-- A run shows all its rounds exactly when no start begins a new round. -/
theorem showsRounds_iff (events : List Event) :
    ShowsRounds events ↔
      ∀ earlier event later, events = earlier ++ event :: later →
        ¬ (Tracker.initial.run earlier).StartsNewRound event := by
  refine forall_congr' fun earlier => forall_congr' fun event => forall_congr' fun later =>
    imp_congr_right fun _ => ?_
  exact (Tracker.initial.run earlier).showsRound_iff event

section Examples

/-- A procedure of two steps. -/
def twoSteps : SopDefinition where
  name := "survey"
  label := "Survey"
  steps := [⟨"search", "Search", none⟩, ⟨"read", "Read", none⟩]

def startOf (toolName : String) (timestamp : ℤ) : Event :=
  .tool
    { sessionKey := "s"
      agentId := "a"
      file := some twoSteps
      toolName := toolName
      phase := .start
      isError := false
      timestamp := timestamp }

end Examples

/-- The second search is shown as pending. -/
theorem not_showsRounds_secondSearch :
    ¬ ShowsRounds [startOf "search" 1, startOf "read" 2, startOf "search" 3] := by
  intro shows
  have atLast := (shows [startOf "search" 1, startOf "read" 2] (startOf "search" 3) [] rfl).1
  have starts : ∃ step, (Tracker.initial.run [startOf "search" 1, startOf "read" 2]).StartsAt
      (startOf "search" 3) 0 step :=
    ⟨_, _, twoSteps, rfl, rfl, rfl, by decide, rfl⟩
  obtain ⟨step, isStart⟩ := starts
  obtain ⟨payload, emitted, shown⟩ := atLast 0 step isStart
  obtain ⟨first, isFirst, running⟩ := shown.running
  have statuses : ((Tracker.initial.run [startOf "search" 1, startOf "read" 2]).handle
      (startOf "search" 3)).2.map (fun payload => payload.steps.map SopStepState.status) =
      some [.pending, .pending] := by
    decide +kernel
  rw [emitted, map_some, Option.some.injEq] at statuses
  have isPending : (payload.steps.map SopStepState.status)[0]? = some .pending := by
    rw [statuses]
    rfl
  rw [List.getElem?_map, isFirst, map_some, running] at isPending
  cases isPending

end SopTracker
