import AieClaw.ToolUseRepair

/-!
# What the repair makes of a turn

The repaired list is the leading messages and the turns again: behind each turn
stand the results that were pushed for its calls, then everything behind it
that is no result. What is pushed depends on the turn and on the ids that have
a result already.
-/

namespace ToolUse

open JsonValue List

/-- The messages of a turn. -/
def Turn.messages (turn : Turn) : List AgentMessage := turn.assistant :: turn.body

/-- Turns as the splitting makes them. -/
structure WellSplit (leading : List AgentMessage) (turns : List Turn) : Prop where
  leading : ∀ message ∈ leading, assistantHasToolCalls message = false
  assistants : ∀ turn ∈ turns, assistantHasToolCalls turn.assistant = true
  bodies : ∀ turn ∈ turns, ∀ message ∈ turn.body, assistantHasToolCalls message = false

theorem wellSplit_splitTurns (messages : List AgentMessage) :
    WellSplit (splitTurns messages).1 (splitTurns messages).2 := by
  induction messages with
  | nil =>
    constructor
    · intro message member
      cases member
    · intro turn member
      cases member
    · intro turn member
      cases member
  | cons message rest inductionHypothesis =>
    by_cases opens : assistantHasToolCalls message = true
    · simp only [splitTurns, opens, if_true]
      constructor
      · intro other member
        cases member
      · intro turn member
        rcases mem_cons.mp member with rfl | later
        · exact opens
        · exact inductionHypothesis.assistants turn later
      · intro turn member
        rcases mem_cons.mp member with rfl | later
        · exact inductionHypothesis.leading
        · exact inductionHypothesis.bodies turn later
    · simp only [splitTurns, opens]
      constructor
      · intro other member
        rcases mem_cons.mp member with rfl | later
        · exact Bool.not_eq_true _ ▸ opens
        · exact inductionHypothesis.leading other later
      · exact inductionHypothesis.assistants
      · exact inductionHypothesis.bodies

theorem join_splitTurns (messages : List AgentMessage) :
    (splitTurns messages).1 ++ (splitTurns messages).2.flatMap Turn.messages =
      messages := by
  induction messages with
  | nil => rfl
  | cons message rest inductionHypothesis =>
    by_cases opens : assistantHasToolCalls message = true
    · simpa [splitTurns, opens, Turn.messages] using inductionHypothesis
    · simpa [splitTurns, opens] using inductionHypothesis

theorem splitTurns_append {leading : List AgentMessage} (rest : List AgentMessage)
    (closed : ∀ message ∈ leading, assistantHasToolCalls message = false) :
    splitTurns (leading ++ rest) = (leading ++ (splitTurns rest).1, (splitTurns rest).2) := by
  induction leading with
  | nil => rfl
  | cons message later inductionHypothesis =>
    have own := closed message mem_cons_self
    have laterClosed := inductionHypothesis fun other member =>
      closed other (.tail message member)
    simp [splitTurns, own, laterClosed]

theorem splitTurns_join {leading : List AgentMessage} {turns : List Turn}
    (split : WellSplit leading turns) :
    splitTurns (leading ++ turns.flatMap Turn.messages) = (leading, turns) := by
  rw [splitTurns_append _ split.leading]
  have joined : splitTurns (turns.flatMap Turn.messages) = ([], turns) := by
    obtain ⟨-, assistants, bodies⟩ := split
    induction turns with
    | nil => rfl
    | cons turn rest inductionHypothesis =>
      have later := inductionHypothesis (fun other member => assistants other (.tail turn member))
        (fun other member => bodies other (.tail turn member))
      have opens := assistants turn mem_cons_self
      have body := splitTurns_append (rest.flatMap Turn.messages) (bodies turn mem_cons_self)
      rw [later, append_nil] at body
      simp [Turn.messages, splitTurns, opens, body]
  rw [joined, append_nil]

theorem not_assistant_of_toolResult {message : AgentMessage}
    (isResult : isToolResult message = true) : assistantHasToolCalls message = false := by
  have role : role? message = some "toolResult" := by
    simpa [isToolResult] using isResult
  simp [assistantHasToolCalls, role]

theorem not_toolResult_of_assistant {message : AgentMessage}
    (makesCalls : assistantHasToolCalls message = true) : isToolResult message = false := by
  cases isResult : isToolResult message with
  | false => rfl
  | true =>
    rw [not_assistant_of_toolResult isResult] at makesCalls
    cases makesCalls

theorem member?_setMember_of_ne {key other : String} {value : JsonValue}
    (members : List (String × JsonValue)) (differs : other ≠ key) :
    member? other (.object (setMember key value members)) = member? other (.object members) := by
  have found : ∀ members : List (String × JsonValue), (setMember key value members).reverse.find?
          (fun entry => decide (entry.1 = other)) =
        members.reverse.find? fun entry => decide (entry.1 = other) := by
    intro members
    induction members with
    | nil => simp [setMember, differs.symm]
    | cons entry rest inductionHypothesis =>
      rw [setMember]
      split
      · rename_i same
        have notEntry : entry.1 ≠ other := fun isOther => differs (isOther.symm.trans same)
        simp [find?_append, differs.symm, notEntry]
      · simp [find?_append, inductionHypothesis]
  simp only [member?, found]

theorem member?_withToolName {key : String} (message : AgentMessage) (name : String)
    (differs : key ≠ "toolName") : member? key (withToolName message name) =
      member? key message := by
  unfold withToolName
  split
  · exact member?_setMember_of_ne _ differs
  · rfl

theorem normalizedToolResult?_frame {message normalized : AgentMessage}
    {fallbackName : Option String}
    (replaced : normalizedToolResult? message fallbackName = some normalized) :
    isToolResult normalized = isToolResult message ∧
      extractToolResultId normalized = extractToolResultId message := by
  have renamed : ∃ name, normalized = withToolName message name := by
    simp only [normalizedToolResult?] at replaced
    split at replaced
    · split at replaced
      · cases replaced
      · exact ⟨_, (Option.some.inj replaced).symm⟩
    · split at replaced
      · exact ⟨_, (Option.some.inj replaced).symm⟩
      · split at replaced
        · exact ⟨_, (Option.some.inj replaced).symm⟩
        · cases replaced
  obtain ⟨name, rfl⟩ := renamed
  simp [isToolResult, role?, extractToolResultId, member?_withToolName]

/-- The result as it is kept for a call. -/
def Turn.normalized (turn : Turn) (id : String) (message : AgentMessage) : AgentMessage :=
  (normalizedToolResult? message ((toolCallNamesById turn.toolCalls).get? id)).getD message

theorem normalized_frame (turn : Turn) (id : String) (message : AgentMessage) :
    isToolResult (turn.normalized id message) = isToolResult message ∧
      extractToolResultId (turn.normalized id message) = extractToolResultId message := by
  unfold Turn.normalized
  cases replaced : normalizedToolResult? message ((toolCallNamesById turn.toolCalls).get? id) with
  | none => exact ⟨rfl, rfl⟩
  | some normalized => exact normalizedToolResult?_frame replaced

/-- The message is a result for a call of that id. -/
def isResultFor (id : String) (message : AgentMessage) : Bool :=
  isToolResult message && extractToolResultId message == some id

def Turn.callIds (turn : Turn) : List String := turn.toolCalls.map ToolCallLike.id

/-- A result behind a turn that the scan marks as something to repair. -/
def Turn.marks (turn : Turn) (seen : List String) (message : AgentMessage) : Bool :=
  isToolResult message &&
    match extractToolResultId message with
    | some id =>
      !decide (id ∈ turn.callIds) || decide (id ∈ seen) ||
        (normalizedToolResult? message ((toolCallNamesById turn.toolCalls).get? id)).isSome
    | none => true

/-- What the scan knows after some messages. -/
structure ScansTo (turn : Turn) (seen : List String) (body : List AgentMessage) (scan : SpanScan) :
    Prop where
  remainder : scan.remainder = body.filter fun message => !isToolResult message
  changed : scan.changed = body.any (turn.marks seen)
  found :
    ∀ id, scan.spanResultsById.get? id =
      if id ∈ turn.callIds ∧ id ∉ seen then (body.find? (isResultFor id)).map (turn.normalized id)
      else none

theorem ScansTo.snoc {turn : Turn} {seen : List String} {body : List AgentMessage}
    {scan : SpanScan} (scans : ScansTo turn seen body scan) (next : AgentMessage) :
    ScansTo turn seen (body ++ [next]) (scanMessage turn.toolCalls seen scan next) := by
  obtain ⟨remainder, changed, found⟩ := scans
  by_cases isResult : isToolResult next = true
  · cases own : extractToolResultId next with
    | none =>
      have others : ∀ id, isResultFor id next = false := by
        intro id
        simp [isResultFor, own]
      simp only [scanMessage, isResult, own, if_true]
      constructor
      · simp [remainder, isResult]
      · simp [Turn.marks, isResult, own]
      · intro id
        simp only [found, find?_append, find?_singleton, others]
        simp
    | some ownId =>
      have matches_ : ∀ id, isResultFor id next = decide (ownId = id) := by
        intro id
        by_cases same : ownId = id
        · simp [isResultFor, isResult, own, same]
        · simp [isResultFor, isResult, own, same]
      by_cases isCall : ownId ∈ turn.callIds
      · have isCall' : ownId ∈ turn.toolCalls.map ToolCallLike.id := isCall
        by_cases isSeen : ownId ∈ seen
        · simp only [scanMessage, isResult, own, isCall', isSeen, if_true]
          constructor
          · simp [remainder, isResult]
          · simp [Turn.marks, isResult, own, isSeen]
          · intro id
            rw [found]
            split
            · rename_i open_
              have other : ownId ≠ id := by
                rintro rfl
                exact open_.2 isSeen
              simp [find?_append, matches_, other]
            · rfl
        · simp only [scanMessage, isResult, own, isCall', isSeen, if_true, if_false]
          constructor
          · simp [remainder, isResult]
          · simp [Turn.marks, isResult, own, isCall, isSeen, changed]
          · intro id
            have ownFound := found ownId
            rw [if_pos ⟨isCall, isSeen⟩] at ownFound
            by_cases same : ownId = id
            · subst same
              have wanted : (if ownId ∈ turn.callIds ∧ ownId ∉ seen then
                      ((body ++ [next]).find? (isResultFor ownId)).map (turn.normalized ownId)
                    else none) = ((body.find? (isResultFor ownId)).or (some next)).map
                      (turn.normalized ownId) := by
                simp [isCall, isSeen, find?_append, matches_]
              rw [wanted]
              cases earlier : body.find? (isResultFor ownId) with
              | none =>
                rw [earlier] at ownFound
                have absent : scan.spanResultsById.has ownId = false := by
                  rw [OrderedMap.has, ownFound]
                  rfl
                simp only [absent, Bool.false_eq_true, if_false]
                exact OrderedMap.get?_set_self _ _ _
              | some first =>
                rw [earlier] at ownFound
                have present : scan.spanResultsById.has ownId = true := by
                  rw [OrderedMap.has, ownFound]
                  rfl
                simp only [present, if_true]
                exact ownFound
            · have unchanged : (body ++ [next]).find? (isResultFor id) =
                  body.find? (isResultFor id) := by
                simp [find?_append, matches_, same]
              rw [unchanged, ← found]
              split
              · rfl
              · exact OrderedMap.get?_set_of_ne (Ne.symm same)
      · have isCall' : ownId ∉ turn.toolCalls.map ToolCallLike.id := isCall
        simp only [scanMessage, isResult, own, isCall', if_true, if_false]
        constructor
        · simp [remainder, isResult]
        · simp [Turn.marks, isResult, own, isCall]
        · intro id
          rw [found]
          split
          · rename_i open_
            have other : ownId ≠ id := by
              rintro rfl
              exact isCall open_.1
            simp [find?_append, matches_, other]
          · rfl
  · have others : ∀ id, isResultFor id next = false := by
      intro id
      simp [isResultFor, isResult]
    simp only [scanMessage, isResult]
    constructor
    · simp [remainder, isResult]
    · simp [Turn.marks, isResult, changed]
    · intro id
      have unchanged : (body ++ [next]).find? (isResultFor id) = body.find? (isResultFor id) := by
        simp [find?_append, others]
      rw [unchanged, ← found]
      rfl

theorem scansTo_scan (turn : Turn) (seen : List String) :
    ScansTo turn seen turn.body (turn.scan seen) := by
  have start : ScansTo turn seen [] .empty := by
    constructor
    · rfl
    · rfl
    · intro id
      simp [SpanScan.empty]
  have onward : ∀ (after before : List AgentMessage) (scan : SpanScan),
      ScansTo turn seen before scan → ScansTo turn seen (before ++ after)
          (after.foldl (scanMessage turn.toolCalls seen) scan) := by
    intro after
    induction after with
    | nil =>
      intro before scan scans
      simpa using scans
    | cons next rest inductionHypothesis =>
      intro before scan scans
      have further := inductionHypothesis _ _ (scans.snoc next)
      rwa [append_assoc, singleton_append] at further
  exact onward turn.body [] .empty start

def resultIds (results : List AgentMessage) : List String := results.filterMap extractToolResultId

/-- The results that are pushed, when these ids have one already. -/
def newResults (seen : List String) : List AgentMessage → List AgentMessage
  | [] => []
  | result :: rest =>
    match extractToolResultId result with
    | some id =>
      if id ∈ seen then newResults seen rest
      else result :: newResults (seen ++ [id]) rest
    | none => result :: newResults seen rest

theorem newResults_sublist (seen : List String) (results : List AgentMessage) :
    List.Sublist (newResults seen results) results := by
  induction results generalizing seen with
  | nil => exact .refl _
  | cons result rest inductionHypothesis =>
    rw [newResults]
    split
    · split
      · exact (inductionHypothesis seen).cons result
      · exact (inductionHypothesis _).cons_cons result
    · exact (inductionHypothesis seen).cons_cons result

theorem mem_resultIds_newResults {seen : List String} {results : List AgentMessage} {id : String} :
    id ∈ resultIds (newResults seen results) ↔ id ∈ resultIds results ∧ id ∉ seen := by
  induction results generalizing seen with
  | nil => simp [newResults, resultIds]
  | cons result rest inductionHypothesis =>
    simp only [resultIds] at inductionHypothesis ⊢
    rw [newResults]
    split
    · rename_i own isOwn
      split
      · rename_i isSeen
        rw [inductionHypothesis, filterMap_cons_some isOwn, mem_cons]
        constructor
        · rintro ⟨later, fresh⟩
          exact ⟨Or.inr later, fresh⟩
        · rintro ⟨rfl | later, fresh⟩
          · exact absurd isSeen fresh
          · exact ⟨later, fresh⟩
      · rename_i fresh
        rw [filterMap_cons_some isOwn, filterMap_cons_some isOwn,
          mem_cons, mem_cons, inductionHypothesis]
        by_cases same : id = own
        · simp [same, fresh]
        · simp [same]
    · rename_i isNone
      rw [filterMap_cons_none isNone, filterMap_cons_none isNone]
      exact inductionHypothesis

theorem nodup_resultIds_newResults (seen : List String) (results : List AgentMessage) :
    (resultIds (newResults seen results)).Nodup := by
  induction results generalizing seen with
  | nil => exact nodup_nil
  | cons result rest inductionHypothesis =>
    rw [newResults]
    split
    · rename_i own isOwn
      split
      · exact inductionHypothesis seen
      · have later := inductionHypothesis (seen ++ [own])
        rw [resultIds, filterMap_cons_some isOwn]
        refine nodup_cons.mpr ⟨?_, later⟩
        intro again
        have fresh := (mem_resultIds_newResults.mp again).2
        simp at fresh
    · rename_i isNone
      rw [resultIds, filterMap_cons_none isNone]
      exact inductionHypothesis seen

/-- Everything is pushed when the ids are new and occur once. -/
theorem newResults_eq_self {seen : List String} {results : List AgentMessage} :
    newResults seen results = results ↔
      (resultIds results).Nodup ∧ ∀ id ∈ resultIds results, id ∉ seen := by
  constructor
  · intro all
    constructor
    · have distinct := nodup_resultIds_newResults seen results
      rwa [all] at distinct
    · intro id member
      rw [← all] at member
      exact (mem_resultIds_newResults.mp member).2
  · induction results generalizing seen with
    | nil =>
      intro _
      rfl
    | cons result rest inductionHypothesis =>
      rintro ⟨distinct, fresh⟩
      rw [newResults]
      split
      · rename_i own isOwn
        rw [resultIds, filterMap_cons_some isOwn] at distinct fresh
        obtain ⟨ownOnce, laterOnce⟩ := nodup_cons.mp distinct
        rw [if_neg (fresh own mem_cons_self)]
        congr 1
        refine inductionHypothesis ⟨laterOnce, ?_⟩
        intro id member
        have notOwn : id ≠ own := fun same => ownOnce (same ▸ member)
        simpa [notOwn] using fresh id (.tail own member)
      · rename_i isNone
        rw [resultIds, filterMap_cons_none isNone] at distinct fresh
        congr 1
        exact inductionHypothesis ⟨distinct, fresh⟩

theorem pushed (results : List AgentMessage) (state : RepairState) :
    (results.foldl pushToolResult state).out =
        state.out ++ newResults state.seenToolResultIds results ∧
      (results.foldl pushToolResult state).seenToolResultIds =
        state.seenToolResultIds ++ resultIds (newResults state.seenToolResultIds results) ∧
      (results.foldl pushToolResult state).moved = state.moved ∧
      ((results.foldl pushToolResult state).changed = true ↔ state.changed = true ∨
          newResults state.seenToolResultIds results ≠ results) := by
  induction results generalizing state with
  | nil => simp [newResults, resultIds]
  | cons result rest inductionHypothesis =>
    obtain ⟨out, seen, moved, changed⟩ := inductionHypothesis (pushToolResult state result)
    simp only [foldl_cons, out, seen, moved, changed]
    cases own : extractToolResultId result with
    | none => simp [pushToolResult, newResults, own, resultIds]
    | some id =>
      by_cases isSeen : id ∈ state.seenToolResultIds
      · have shorter : newResults state.seenToolResultIds rest ≠ result :: rest := by
          intro same
          have bound := (newResults_sublist state.seenToolResultIds rest).length_le
          rw [same, length_cons] at bound
          omega
        simp [pushToolResult, newResults, own, isSeen, shorter]
      · simp [pushToolResult, newResults, own, isSeen, resultIds]

/-- The result that the scan finds for a call. -/
def Turn.found (turn : Turn) (seen : List String) (id : String) : Option AgentMessage :=
  if id ∈ turn.callIds ∧ id ∉ seen then (turn.body.find? (isResultFor id)).map (turn.normalized id)
  else none

theorem found_eq (turn : Turn) (seen : List String) (id : String) :
    (turn.scan seen).spanResultsById.get? id = turn.found seen id :=
  (scansTo_scan turn seen).found id

/-- The messages behind a turn that are no results. -/
def Turn.remainder (turn : Turn) : List AgentMessage :=
  turn.body.filter fun message => !isToolResult message

section Repaired

variable (options : ToolUseResultPairingOptions) (now : ℚ)

def Turn.results (turn : Turn) (seen : List String) : List AgentMessage :=
  if turn.errored then turn.toolCalls.filterMap fun call => turn.found seen call.id
  else
    turn.toolCalls.map fun call =>
      (turn.found seen call.id).getD
        (makeMissingToolResult now call.id call.name options.missingToolResultText)

def Turn.kept (turn : Turn) (seen : List String) : List AgentMessage :=
  newResults seen (turn.results options now seen)

/-- The ids that have a result behind this turn or before it. -/
def Turn.seenAfter (turn : Turn) (seen : List String) : List String :=
  seen ++ resultIds (turn.kept options now seen)

def Turn.repaired (turn : Turn) (seen : List String) : Turn :=
  { assistant := turn.assistant
    body := turn.kept options now seen ++ turn.remainder }

/-- The repair notices something at the turn. -/
def Turn.Changes (turn : Turn) (seen : List String) : Prop :=
  turn.body.any (turn.marks seen) = true ∨
    turn.kept options now seen ≠ turn.results options now seen ∨
      turn.errored = false ∧
        ((∃ id ∈ turn.callIds, turn.found seen id = none) ∨
          (∃ id ∈ turn.callIds, turn.found seen id ≠ none) ∧ turn.remainder ≠ [])

theorem keepResult_foldl (results : OrderedMap String AgentMessage)
    (calls : List ToolCallLike) (state : RepairState) : calls.foldl (keepResult results) state =
      (calls.filterMap fun call => results.get? call.id).foldl pushToolResult state := by
  induction calls generalizing state with
  | nil => rfl
  | cons call rest inductionHypothesis =>
    rw [foldl_cons, inductionHypothesis, keepResult]
    cases found : results.get? call.id with
    | none => simp [found]
    | some result => simp [found]

/-- The state with made-up results noted. -/
def RepairState.noted (state : RepairState) (added : List AgentMessage) (missing : Bool) :
    RepairState :=
  { state with
    added := state.added ++ added
    changed := state.changed || missing }

theorem pushToolResult_noted (state : RepairState) (added : List AgentMessage)
    (missing : Bool) (message : AgentMessage) : pushToolResult (state.noted added missing) message =
      (pushToolResult state message).noted added missing := by
  cases own : extractToolResultId message with
  | none => simp [pushToolResult, own, RepairState.noted]
  | some id =>
    by_cases isSeen : id ∈ state.seenToolResultIds
    · simp [pushToolResult, own, isSeen, RepairState.noted]
    · simp [pushToolResult, own, isSeen, RepairState.noted]

theorem pushAll_noted (results : List AgentMessage) (state : RepairState)
    (added : List AgentMessage) (missing : Bool) :
    results.foldl pushToolResult (state.noted added missing) =
      (results.foldl pushToolResult state).noted added missing := by
  induction results generalizing state with
  | nil => rfl
  | cons result rest inductionHypothesis =>
    rw [foldl_cons, pushToolResult_noted, inductionHypothesis, foldl_cons]

theorem answerCall_foldl (results : OrderedMap String AgentMessage)
    (calls : List ToolCallLike) (state : RepairState) : ∃ added,
      calls.foldl (answerCall options now results) state = ((calls.map fun call =>
            (results.get? call.id).getD (makeMissingToolResult now call.id call.name
                options.missingToolResultText)).foldl pushToolResult state).noted
          added (calls.any fun call => (results.get? call.id).isNone) := by
  induction calls generalizing state with
  | nil => exact ⟨[], by simp [RepairState.noted]⟩
  | cons call rest inductionHypothesis =>
    cases found : results.get? call.id with
    | some existing =>
      obtain ⟨added, later⟩ := inductionHypothesis (pushToolResult state existing)
      exact ⟨added, by simpa [answerCall, found] using later⟩
    | none =>
      let missing := makeMissingToolResult now call.id call.name options.missingToolResultText
      obtain ⟨added, later⟩ := inductionHypothesis
        (pushToolResult (state.noted [missing] true) missing)
      refine ⟨[missing] ++ added, ?_⟩
      have step : answerCall options now results state call =
          pushToolResult (state.noted [missing] true) missing := by
        simp [answerCall, found, RepairState.noted, missing]
      rw [foldl_cons, step, later, pushToolResult_noted, pushAll_noted]
      simp [RepairState.noted, found, missing]

theorem isEmpty_entries_iff (turn : Turn) (seen : List String) :
    (turn.scan seen).spanResultsById.entries.isEmpty = false ↔
      ∃ id ∈ turn.callIds, turn.found seen id ≠ none := by
  constructor
  · intro notEmpty
    obtain ⟨⟨id, result⟩, entry⟩ : ∃ entry, entry ∈ (turn.scan seen).spanResultsById.entries := by
      rw [← isEmpty_eq_false_iff_exists_mem]
      exact notEmpty
    have found := OrderedMap.get?_eq_some_iff.mpr entry
    rw [found_eq] at found
    refine ⟨id, ?_, ?_⟩
    · by_contra notCall
      simp [Turn.found, notCall] at found
    · simp [found]
  · rintro ⟨id, -, isFound⟩
    obtain ⟨result, found⟩ := Option.ne_none_iff_exists'.mp isFound
    rw [← found_eq] at found
    rw [isEmpty_eq_false_iff_exists_mem]
    exact ⟨_, OrderedMap.get?_eq_some_iff.mp found⟩

/-- The state when the results of a turn are pushed. -/
def RepairState.opened (state : RepairState) (turn : Turn) (displaced : Bool) : RepairState :=
  let scan := turn.scan state.seenToolResultIds
  { out := state.out ++ [turn.assistant]
    added := state.added
    seenToolResultIds := state.seenToolResultIds
    droppedDuplicateCount := state.droppedDuplicateCount + scan.droppedDuplicateCount
    droppedOrphanCount := state.droppedOrphanCount + scan.droppedOrphanCount
    moved := state.moved || displaced
    changed := (state.changed || scan.changed) || displaced }

/-- Results of a turn stand apart from it. -/
def Turn.displaced (turn : Turn) (seen : List String) : Bool :=
  !(turn.scan seen).spanResultsById.entries.isEmpty && !(turn.scan seen).remainder.isEmpty

theorem displaced_iff (turn : Turn) (seen : List String) : turn.displaced seen = true ↔
      (∃ id ∈ turn.callIds, turn.found seen id ≠ none) ∧ turn.remainder ≠ [] := by
  rw [← isEmpty_entries_iff]
  simp [Turn.displaced, (scansTo_scan turn seen).remainder, Turn.remainder]

/-- The state after a turn: its results are pushed, the rest follows. -/
theorem repairTurn_eq (state : RepairState) (turn : Turn)
    (preserve : options.erroredAssistantResultPolicy ≠ some .drop) : ∃ added,
      repairTurn options now state turn =
        let answered :=
          ((turn.results options now state.seenToolResultIds).foldl pushToolResult
            (state.opened turn (!turn.errored && turn.displaced state.seenToolResultIds))).noted
            added
            (!turn.errored && turn.callIds.any fun id =>
              (turn.found state.seenToolResultIds id).isNone)
        { answered with out := answered.out ++ turn.remainder } := by
  have remainder := (scansTo_scan turn state.seenToolResultIds).remainder
  cases errored : turn.errored with
  | true =>
    have results : (turn.toolCalls.filterMap fun call =>
            (turn.scan state.seenToolResultIds).spanResultsById.get? call.id) =
          turn.results options now state.seenToolResultIds := by
      simp [Turn.results, errored, found_eq]
    refine ⟨[], ?_⟩
    simp only [repairTurn, errored, if_true, if_neg preserve, keepResult_foldl,
      results, RepairState.noted, RepairState.opened, Turn.remainder, remainder]
    simp
  | false =>
    let scan := turn.scan state.seenToolResultIds
    have results : (turn.toolCalls.map fun call => (scan.spanResultsById.get? call.id).getD
              (makeMissingToolResult now call.id call.name options.missingToolResultText)) =
          turn.results options now state.seenToolResultIds := by
      simp [Turn.results, errored, scan, found_eq]
    have isMissing : (turn.toolCalls.any fun call => (scan.spanResultsById.get? call.id).isNone) =
          turn.callIds.any fun id => (turn.found state.seenToolResultIds id).isNone := by
      simp [scan, found_eq, Turn.callIds, Function.comp_def]
    obtain ⟨added, answered⟩ :=
      answerCall_foldl options now scan.spanResultsById turn.toolCalls
        (state.opened turn (turn.displaced state.seenToolResultIds))
    rw [results, isMissing] at answered
    refine ⟨added, ?_⟩
    have unfolded : repairTurn options now state turn =
        { (turn.toolCalls.foldl (answerCall options now scan.spanResultsById)
            (state.opened turn (turn.displaced state.seenToolResultIds))) with
          out :=
            (turn.toolCalls.foldl
              (answerCall options now scan.spanResultsById)
              (state.opened turn (turn.displaced state.seenToolResultIds))).out ++
              scan.remainder } := by
      simp [repairTurn, errored, RepairState.opened, scan, Turn.displaced]
    rw [unfolded, answered, remainder]
    rfl

theorem repairTurn_spec (state : RepairState) (turn : Turn)
    (preserve : options.erroredAssistantResultPolicy ≠ some .drop) :
    let after := repairTurn options now state turn
    let seen := state.seenToolResultIds
    after.out = state.out ++ (turn.repaired options now seen).messages ∧
      after.seenToolResultIds = turn.seenAfter options now seen ∧
      (after.changed = true ↔ state.changed = true ∨ turn.Changes options now seen) ∧
      (after.moved = true → state.moved = true ∨ after.changed = true) := by
  obtain ⟨added, after⟩ := repairTurn_eq options now state turn preserve
  generalize isDisplaced :
      (!turn.errored && turn.displaced state.seenToolResultIds) = displaced at after
  generalize isMissing : (!turn.errored && turn.callIds.any fun id =>
        (turn.found state.seenToolResultIds id).isNone) = missing at after
  obtain ⟨out, seen, moved, changed⟩ :=
    pushed (turn.results options now state.seenToolResultIds) (state.opened turn displaced)
  have scanChanged := (scansTo_scan turn state.seenToolResultIds).changed
  have changes : turn.Changes options now state.seenToolResultIds ↔
      (turn.scan state.seenToolResultIds).changed = true ∨
        turn.kept options now state.seenToolResultIds ≠
            turn.results options now state.seenToolResultIds ∨
          missing = true ∨ displaced = true := by
    rw [Turn.Changes, ← displaced_iff, scanChanged, ← isMissing, ← isDisplaced]
    cases turn.errored with
    | true => simp
    | false => simp
  rw [after]
  simp only [RepairState.noted]
  refine ⟨?_, ?_, ?_, ?_⟩
  · rw [out]
    simp [RepairState.opened, Turn.messages, Turn.repaired, Turn.kept]
  · exact seen
  · rw [changes, Bool.or_eq_true, changed]
    simp only [RepairState.opened, Bool.or_eq_true, Turn.kept]
    tauto
  · rw [moved]
    intro isMoved
    simp only [RepairState.opened, Bool.or_eq_true] at isMoved
    rw [Bool.or_eq_true, changed]
    simp only [RepairState.opened, Bool.or_eq_true]
    tauto

/-- The turns of the repaired list. -/
def repairedTurns : List String → List Turn → List Turn
  | _, [] => []
  | seen, turn :: rest =>
    turn.repaired options now seen :: repairedTurns (turn.seenAfter options now seen) rest

/-- The repair notices something at one of the turns. -/
def TurnsChange : List String → List Turn → Prop
  | _, [] => False
  | seen, turn :: rest =>
    turn.Changes options now seen ∨ TurnsChange (turn.seenAfter options now seen) rest

theorem repairTurns_spec (turns : List Turn) (state : RepairState)
    (preserve : options.erroredAssistantResultPolicy ≠ some .drop) :
    let after := turns.foldl (repairTurn options now) state
    let seen := state.seenToolResultIds
    after.out = state.out ++ (repairedTurns options now seen turns).flatMap Turn.messages ∧
      (after.changed = true ↔ state.changed = true ∨ TurnsChange options now seen turns) ∧
      (after.moved = true → state.moved = true ∨ after.changed = true) := by
  induction turns generalizing state with
  | nil =>
    refine ⟨?_, ?_, Or.inl⟩
    · simp [repairedTurns]
    · simp [TurnsChange]
  | cons turn rest inductionHypothesis =>
    obtain ⟨out, seen, changed, moved⟩ := repairTurn_spec options now state turn preserve
    obtain ⟨laterOut, laterChanged, laterMoved⟩ :=
      inductionHypothesis (repairTurn options now state turn)
    rw [seen] at laterOut laterChanged
    simp only [foldl_cons]
    refine ⟨?_, ?_, ?_⟩
    · rw [laterOut, out]
      simp [repairedTurns]
    · rw [laterChanged, changed, TurnsChange, or_assoc]
    · intro isMoved
      rcases laterMoved isMoved with earlier | noticed
      · rcases moved earlier with before | here
        · exact Or.inl before
        · exact Or.inr (laterChanged.mpr (Or.inl here))
      · exact Or.inr noticed

theorem repairLeading_foldl (leading : List AgentMessage) (state : RepairState) :
    let after := leading.foldl repairLeading state
    after.out = state.out ++ leading.filter (fun message => !isToolResult message) ∧
      after.seenToolResultIds = state.seenToolResultIds ∧
      after.moved = state.moved ∧
      after.changed = (state.changed || leading.any isToolResult) := by
  induction leading generalizing state with
  | nil => simp
  | cons message rest inductionHypothesis =>
    obtain ⟨out, seen, moved, changed⟩ := inductionHypothesis (repairLeading state message)
    simp only [foldl_cons, out, seen, moved, changed]
    by_cases isResult : isToolResult message = true
    · simp [repairLeading, isResult]
    · simp [repairLeading, isResult]

theorem repair_spec (messages : List AgentMessage)
    (preserve : options.erroredAssistantResultPolicy ≠ some .drop) :
    let report := repairToolUseResultPairing options now messages
    let leading := (splitTurns messages).1
    let turns := (splitTurns messages).2
    ((leading.any isToolResult = true ∨ TurnsChange options now [] turns) →
        report.messages =
          leading.filter (fun message => !isToolResult message) ++
            (repairedTurns options now [] turns).flatMap Turn.messages) ∧
      (¬(leading.any isToolResult = true ∨ TurnsChange options now [] turns) →
        report.messages = messages) := by
  obtain ⟨leadingOut, leadingSeen, leadingMoved, leadingChanged⟩ :=
    repairLeading_foldl (splitTurns messages).1
      { out := []
        added := []
        seenToolResultIds := []
        droppedDuplicateCount := 0
        droppedOrphanCount := 0
        moved := false
        changed := false }
  obtain ⟨out, changed, moved⟩ := repairTurns_spec options now (splitTurns messages).2 _ preserve
  rw [leadingOut, leadingSeen] at out
  rw [leadingSeen, leadingChanged] at changed
  rw [leadingMoved] at moved
  have noticed : ((repairState options now messages).changed ||
          (repairState options now messages).moved) = true ↔
        (splitTurns messages).1.any isToolResult = true ∨
          TurnsChange options now [] (splitTurns messages).2 := by
    rw [Bool.false_or] at changed
    rw [← changed, Bool.or_eq_true]
    constructor
    · rintro (isChanged | isMoved)
      · exact isChanged
      · rcases moved isMoved with impossible | isChanged
        · cases impossible
        · exact isChanged
    · exact Or.inl
  refine ⟨?_, ?_⟩
  · intro some_
    simp only [repairToolUseResultPairing, noticed.mpr some_, if_true]
    simpa [repairState] using out
  · intro none_
    have unnoticed := mt noticed.mp none_
    simp only [repairToolUseResultPairing, if_neg unnoticed]

end Repaired

end ToolUse
