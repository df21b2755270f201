import AieClaw.ToolUseRepairTurns

/-!
# When the returned list is paired

A list is paired when every result stands in the run of results behind a turn
that made its call, every turn that ended well has one result for each call, no
id has two results, and no two calls share one. The repaired list always places
its results; whether every call gets one of its own depends on the ids of the
calls, and whether the repaired list is returned at all depends on what the
repair notices.
-/

namespace ToolUse

open List

/-- The results directly behind a turn. -/
def Turn.run (turn : Turn) : List AgentMessage := turn.body.takeWhile isToolResult

/-- A turn with its results in place. -/
structure Turn.Placed (turn : Turn) : Prop where
  together : ∀ message ∈ turn.body.dropWhile isToolResult, isToolResult message = false
  called : ∀ message ∈ turn.run, ∃ id ∈ turn.callIds, extractToolResultId message = some id

/-- Every call of a turn that ended well has one result. -/
def Turn.Answered (turn : Turn) : Prop :=
  turn.errored = false → ∀ id ∈ turn.callIds, turn.run.countP (isResultFor id) = 1

/-- No result of the turn is for two of its calls. -/
def Turn.Unshared (turn : Turn) : Prop :=
  ∀ message ∈ turn.run, ∀ id, extractToolResultId message = some id → turn.callIds.count id ≤ 1

/-- Calls and results of a list are paired, and only results differ. -/
structure Paired (messages result : List AgentMessage) : Prop where
  leading : ∀ message ∈ (splitTurns result).1, isToolResult message = false
  placed : ∀ turn ∈ (splitTurns result).2, turn.Placed
  answered : ∀ turn ∈ (splitTurns result).2, turn.Answered
  unshared : ∀ turn ∈ (splitTurns result).2, turn.Unshared
  distinct : (resultIds (result.filter isToolResult)).Nodup
  kept :
    result.filter (fun message => !isToolResult message) =
      messages.filter fun message => !isToolResult message

/-- The calls of a turn for which a result will stand behind it. -/
def Turn.answers (turn : Turn) : List String :=
  turn.callIds.filter fun id => !turn.errored || turn.body.any (isResultFor id)

/-- Every call of the turn that needs a result can have one of its own. -/
def Turn.OwnResults (turn : Turn) (answered : List String) : Prop :=
  (turn.errored = false → ∀ id ∈ turn.callIds, id ∉ answered) ∧
    ∀ id ∈ turn.answers, id ∉ answered → turn.callIds.count id = 1

/-- No id is used again once it was answered, and none twice in a turn. -/
def OwnResults : List String → List Turn → Prop
  | _, [] => True
  | answered, turn :: rest => turn.OwnResults answered ∧ OwnResults (answered ++ turn.answers) rest

/--
Something behind the turn has to be repaired: a result that belongs to no open
call or whose name is not normal, and, where the turn ended well, a call without
a result, or results together with other messages.
-/
def Turn.Disturbed (turn : Turn) (answered : List String) : Prop :=
  turn.body.any (turn.marks answered) = true ∨
    turn.errored = false ∧
      ((∃ id ∈ turn.callIds, turn.body.any (isResultFor id) = false) ∨
        turn.body.any isToolResult = true ∧ turn.remainder ≠ [])

def Disturbed : List String → List Turn → Prop
  | _, [] => False
  | answered, turn :: rest => turn.Disturbed answered ∨ Disturbed (answered ++ turn.answers) rest

/--
Nothing that the repair would pass over: no second result for a call, and the
results of a turn that did not end well stand together behind it.
-/
structure Turn.Tidy (turn : Turn) : Prop where
  once : ∀ id ∈ turn.callIds, turn.body.countP (isResultFor id) ≤ 1
  together :
    turn.errored = true → ∀ message ∈ turn.body.dropWhile isToolResult, isToolResult message = false

theorem extractToolCalls_id_ne {message : AgentMessage} {call : ToolCallLike}
    (member : call ∈ extractToolCallsFromAssistant message) : call.id ≠ "" := by
  have ofBlock : ∀ block, toolCallOfBlock? block = some call → call.id ≠ "" := by
    intro block isCall
    simp only [toolCallOfBlock?] at isCall
    split at isCall
    · rename_i id type isId isType
      split at isCall
      · cases isCall
        have nonEmpty := (Option.filter_eq_some_iff.mp isId).2
        simpa using nonEmpty
      · cases isCall
    · cases isCall
  simp only [extractToolCallsFromAssistant] at member
  split at member
  · obtain ⟨block, -, isCall⟩ := mem_filterMap.mp member
    exact ofBlock block isCall
  · cases member

theorem makeMissingToolResult_frame (now : ℚ) (id : String) (name text : Option String)
    (nonEmpty : id ≠ "") : isResultFor id (makeMissingToolResult now id name text) = true := by
  simp [isResultFor, isToolResult, role?, extractToolResultId, nonEmptyText?,
    makeMissingToolResult, JsonValue.member?, JsonValue.asString?, nonEmpty]

theorem found_isResultFor {turn : Turn} {seen : List String} {id : String}
    {result : AgentMessage} (found : turn.found seen id = some result) :
    isResultFor id result = true := by
  rw [Turn.found] at found
  split at found
  · obtain ⟨original, isFirst, rfl⟩ := Option.map_eq_some_iff.mp found
    have isResult := find?_some isFirst
    obtain ⟨sameKind, sameId⟩ := normalized_frame turn id original
    simpa [isResultFor, sameKind, sameId] using isResult
  · cases found

theorem found_eq_none_iff {turn : Turn} {seen : List String} {id : String}
    (isCall : id ∈ turn.callIds) (fresh : id ∉ seen) :
    turn.found seen id = none ↔ turn.body.any (isResultFor id) = false := by
  simp [Turn.found, isCall, fresh]

section

variable (options : ToolUseResultPairingOptions) (now : ℚ) {turn : Turn} {seen : List String}
  {result message : AgentMessage}

theorem results_called (member : result ∈ turn.results options now seen) :
    ∃ id ∈ turn.callIds, isResultFor id result = true := by
  rw [Turn.results] at member
  split at member
  · obtain ⟨call, isCall, found⟩ := mem_filterMap.mp member
    exact ⟨call.id, mem_map_of_mem isCall, found_isResultFor found⟩
  · obtain ⟨call, isCall, rfl⟩ := mem_map.mp member
    refine ⟨call.id, mem_map_of_mem isCall, ?_⟩
    cases found : turn.found seen call.id with
    | some result => exact found_isResultFor found
    | none =>
      exact makeMissingToolResult_frame now call.id call.name _ (extractToolCalls_id_ne isCall)

theorem resultIds_results (turn : Turn) (seen : List String) :
    resultIds (turn.results options now seen) = turn.callIds.filter fun id =>
        !turn.errored || (turn.found seen id).isSome := by
  have ofResult : ∀ {id : String} {result : AgentMessage},
      isResultFor id result = true → extractToolResultId result = some id := by
    intro id result isResult
    have both := Bool.and_eq_true_iff.mp isResult
    simpa using both.2
  cases errored : turn.errored with
  | true =>
    simp only [Turn.results, errored, if_true, Bool.not_true, Bool.false_or,
      Turn.callIds, resultIds]
    induction turn.toolCalls with
    | nil => rfl
    | cons call rest inductionHypothesis =>
      cases found : turn.found seen call.id with
      | none => simpa [found] using inductionHypothesis
      | some result => simpa [found, ofResult (found_isResultFor found)] using inductionHypothesis
  | false =>
    have nonEmpty : ∀ call ∈ turn.toolCalls, call.id ≠ "" := fun call isCall =>
      extractToolCalls_id_ne isCall
    simp only [Turn.results, errored, Bool.not_false, Bool.true_or,
      Bool.false_eq_true, if_false, filter_true, Turn.callIds, resultIds]
    generalize turn.toolCalls = calls at nonEmpty ⊢
    induction calls with
    | nil => rfl
    | cons call rest inductionHypothesis =>
      have later := inductionHypothesis fun other member =>
        nonEmpty other (.tail call member)
      have own : extractToolResultId ((turn.found seen call.id).getD
            (makeMissingToolResult now call.id call.name
              options.missingToolResultText)) = some call.id := by
        cases found : turn.found seen call.id with
        | none =>
          exact ofResult (makeMissingToolResult_frame now call.id _ _ (nonEmpty call mem_cons_self))
        | some result => exact ofResult (found_isResultFor found)
      simpa [own] using later

theorem mem_resultIds_kept {id : String} :
    id ∈ resultIds (turn.kept options now seen) ↔ id ∈ turn.answers ∧ id ∉ seen := by
  rw [Turn.kept, mem_resultIds_newResults, resultIds_results]
  constructor
  · rintro ⟨isResult, fresh⟩
    refine ⟨?_, fresh⟩
    obtain ⟨isCall, answered⟩ := mem_filter.mp isResult
    refine mem_filter.mpr ⟨isCall, ?_⟩
    simpa [Turn.found, isCall, fresh] using answered
  · rintro ⟨isResult, fresh⟩
    refine ⟨?_, fresh⟩
    obtain ⟨isCall, answered⟩ := mem_filter.mp isResult
    refine mem_filter.mpr ⟨isCall, ?_⟩
    simpa [Turn.found, isCall, fresh] using answered

theorem mem_seenAfter {id : String} :
    id ∈ turn.seenAfter options now seen ↔ id ∈ seen ∨ id ∈ turn.answers := by
  rw [Turn.seenAfter, mem_append, mem_resultIds_kept]
  by_cases isSeen : id ∈ seen
  · simp [isSeen]
  · simp [isSeen]

theorem countP_isResultFor (messages : List AgentMessage) (id : String) :
    messages.countP (isResultFor id) = (resultIds (messages.filter isToolResult)).count id := by
  induction messages with
  | nil => rfl
  | cons message rest inductionHypothesis =>
    rw [countP_cons, inductionHypothesis]
    cases isResult : isToolResult message with
    | false => simp [isResultFor, isResult]
    | true =>
      rw [filter_cons_of_pos isResult, resultIds, resultIds]
      cases own : extractToolResultId message with
      | none => simp [isResultFor, own]
      | some ownId =>
        rw [filterMap_cons_some own, count_cons]
        simp [isResultFor, isResult, own]

theorem kept_called (member : result ∈ turn.kept options now seen) : isToolResult result = true ∧
      ∃ id ∈ turn.callIds, extractToolResultId result = some id := by
  obtain ⟨id, isCall, isResult⟩ :=
    results_called options now ((newResults_sublist _ _).subset member)
  obtain ⟨isToolResult, own⟩ := Bool.and_eq_true_iff.mp isResult
  exact ⟨isToolResult, id, isCall, by simpa using own⟩

theorem not_result_of_mem_remainder
    (member : message ∈ turn.remainder) : isToolResult message = false := by
  simpa using (mem_filter.mp member).2

theorem repaired_run (turn : Turn) (seen : List String) :
    (turn.repaired options now seen).run = turn.kept options now seen ∧
      (turn.repaired options now seen).body.dropWhile isToolResult =
        turn.remainder := by
  have results : ∀ message ∈ turn.kept options now seen,
      isToolResult message = true := fun message member =>
    (kept_called options now member).1
  have rest : turn.remainder.takeWhile isToolResult = [] ∧
      turn.remainder.dropWhile isToolResult = turn.remainder := by
    cases shape : turn.remainder with
    | nil => simp
    | cons message others =>
      have notResult := not_result_of_mem_remainder (shape ▸ .head _ : message ∈ turn.remainder)
      simp [notResult]
  simp only [Turn.run, Turn.repaired]
  rw [takeWhile_append_of_pos results, dropWhile_append_of_pos results, rest.1, rest.2, append_nil]
  exact ⟨rfl, rfl⟩

theorem repaired_placed (turn : Turn) (seen : List String) :
    (turn.repaired options now seen).Placed := by
  obtain ⟨run, rest⟩ := repaired_run options now turn seen
  constructor
  · intro message member
    rw [rest] at member
    exact not_result_of_mem_remainder member
  · intro message member
    rw [run] at member
    exact (kept_called options now member).2

theorem count_resultIds_kept (turn : Turn) (seen : List String) (id : String) :
    (turn.kept options now seen).countP (isResultFor id) =
      if id ∈ turn.answers ∧ id ∉ seen then 1 else 0 := by
  have results : (turn.kept options now seen).filter isToolResult = turn.kept options now seen :=
    filter_eq_self.mpr fun message member => (kept_called options now member).1
  have distinct := nodup_resultIds_newResults seen (turn.results options now seen)
  rw [countP_isResultFor, results]
  split
  · rename_i isKept
    exact count_eq_one_of_mem distinct ((mem_resultIds_kept options now).mpr isKept)
  · rename_i notKept
    exact count_eq_zero.mpr fun member => notKept ((mem_resultIds_kept options now).mp member)

/-- A repaired turn gives every call its own result if and only if it can. -/
theorem repaired_own_results (turn : Turn) (seen : List String) :
    (turn.repaired options now seen).Answered ∧ (turn.repaired options now seen).Unshared ↔
      turn.OwnResults seen := by
  obtain ⟨run, -⟩ := repaired_run options now turn seen
  have answered : (turn.repaired options now seen).Answered ↔
      (turn.errored = false → ∀ id ∈ turn.callIds, id ∉ seen) := by
    rw [Turn.Answered, run]
    constructor
    · intro once endedWell id isCall
      have isOne := once endedWell id isCall
      rw [count_resultIds_kept] at isOne
      split at isOne
      · rename_i isKept
        exact isKept.2
      · cases isOne
    · intro fresh endedWell id isCall
      rw [count_resultIds_kept, if_pos]
      refine ⟨mem_filter.mpr ⟨isCall, ?_⟩, fresh endedWell id isCall⟩
      have same : turn.errored = false := endedWell
      simp [same]
  have unshared : (turn.repaired options now seen).Unshared ↔
      ∀ id ∈ turn.answers, id ∉ seen → turn.callIds.count id = 1 := by
    rw [Turn.Unshared, run]
    constructor
    · intro atMostOnce id isAnswered fresh
      have isKept := (mem_resultIds_kept options now).mpr ⟨isAnswered, fresh⟩
      obtain ⟨result, member, own⟩ := mem_filterMap.mp isKept
      have bound := atMostOnce result member id own
      have isCall : id ∈ turn.callIds := (mem_filter.mp isAnswered).1
      exact Nat.le_antisymm bound (one_le_count_iff.mpr isCall)
    · intro once result member id own
      have isKept : id ∈ resultIds (turn.kept options now seen) :=
        mem_filterMap.mpr ⟨result, member, own⟩
      obtain ⟨isAnswered, fresh⟩ := (mem_resultIds_kept options now).mp isKept
      exact (once id isAnswered fresh).le
  rw [answered, unshared, Turn.OwnResults]

theorem nodup_results_of_ownResults
    (own : turn.OwnResults seen) : turn.kept options now seen = turn.results options now seen := by
  obtain ⟨fresh, once⟩ := own
  rw [Turn.kept, newResults_eq_self, resultIds_results]
  have isFresh : ∀ id ∈ turn.callIds.filter (fun id =>
      !turn.errored || (turn.found seen id).isSome), id ∉ seen := by
    intro id member
    obtain ⟨isCall, answered⟩ := mem_filter.mp member
    cases errored : turn.errored with
    | false => exact fresh errored id isCall
    | true =>
      intro isSeen
      simp [errored, Turn.found, isSeen] at answered
  refine ⟨?_, isFresh⟩
  rw [nodup_iff_count_le_one]
  intro id
  by_cases member : id ∈ turn.callIds.filter (fun id =>
      !turn.errored || (turn.found seen id).isSome)
  · have unseen := isFresh id member
    obtain ⟨isCall, answered⟩ := mem_filter.mp member
    have isAnswered : id ∈ turn.answers := by
      refine mem_filter.mpr ⟨isCall, ?_⟩
      simpa [Turn.found, isCall, unseen] using answered
    rw [count_filter (by exact answered)]
    exact (once id isAnswered unseen).le
  · rw [count_eq_zero.mpr member]
    exact Nat.zero_le 1

theorem ownResults_of_unchanged (unchanged : ¬turn.Changes options now seen) :
    turn.OwnResults seen := by
  simp only [Turn.Changes, not_or, not_not] at unchanged
  obtain ⟨-, all, -⟩ := unchanged
  rw [Turn.kept, newResults_eq_self, resultIds_results] at all
  obtain ⟨distinct, fresh⟩ := all
  constructor
  · intro endedWell id isCall
    refine fresh id (mem_filter.mpr ⟨isCall, ?_⟩)
    simp [endedWell]
  · intro id isAnswered unseen
    obtain ⟨isCall, answered⟩ := mem_filter.mp isAnswered
    have isResult : (!turn.errored || (turn.found seen id).isSome) = true := by
      simpa [Turn.found, isCall, unseen] using answered
    have once := count_eq_one_of_mem distinct (mem_filter.mpr ⟨isCall, isResult⟩)
    rwa [count_filter (by exact isResult)] at once

/-- A result that is not marked answers a call of its own turn, and no earlier one. -/
theorem called_of_unmarked (unmarked : ¬turn.body.any (turn.marks seen) = true)
    (member : message ∈ turn.body) (isResult : isToolResult message = true) :
    ∃ id ∈ turn.callIds, extractToolResultId message = some id ∧ id ∉ seen := by
  have notMarked : turn.marks seen message = false := by
    rw [any_eq_true] at unmarked
    exact Bool.not_eq_true _ ▸ fun isMarked => unmarked ⟨message, member, isMarked⟩
  rw [Turn.marks, isResult, Bool.true_and] at notMarked
  split at notMarked
  · rename_i id ownId
    have isCall : id ∈ turn.callIds := by
      by_contra notCall
      simp [notCall] at notMarked
    have fresh : id ∉ seen := by
      intro isSeen
      simp [isSeen] at notMarked
    exact ⟨id, isCall, ownId, fresh⟩
  · cases notMarked

/-- What is noticed can be told from the input when the calls can be answered. -/
theorem changes_iff_disturbed (own : turn.OwnResults seen) :
    turn.Changes options now seen ↔ turn.Disturbed seen := by
  rw [Turn.Changes, Turn.Disturbed, nodup_results_of_ownResults options now own]
  simp only [ne_eq, not_true_eq_false, false_or]
  cases errored : turn.errored with
  | true => simp
  | false =>
    have fresh := own.1 errored
    have missing : (∃ id ∈ turn.callIds, turn.found seen id = none) ↔
        ∃ id ∈ turn.callIds, turn.body.any (isResultFor id) = false := by
      constructor
      · rintro ⟨id, isCall, absent⟩
        exact ⟨id, isCall, (found_eq_none_iff isCall (fresh id isCall)).mp absent⟩
      · rintro ⟨id, isCall, absent⟩
        exact ⟨id, isCall, (found_eq_none_iff isCall (fresh id isCall)).mpr absent⟩
    rw [missing]
    by_cases marked : turn.body.any (turn.marks seen) = true
    · simp [marked]
    · have present : (∃ id ∈ turn.callIds, ¬turn.found seen id = none) ↔
          turn.body.any isToolResult = true := by
        constructor
        · rintro ⟨id, isCall, isFound⟩
          rw [found_eq_none_iff isCall (fresh id isCall), Bool.not_eq_false] at isFound
          obtain ⟨message, member, isResult⟩ := any_eq_true.mp isFound
          exact any_eq_true.mpr ⟨message, member, (Bool.and_eq_true_iff.mp isResult).1⟩
        · intro some_
          obtain ⟨message, member, isResult⟩ := any_eq_true.mp some_
          obtain ⟨id, isCall, ownId, -⟩ := called_of_unmarked marked member isResult
          refine ⟨id, isCall, ?_⟩
          rw [found_eq_none_iff isCall (fresh id isCall), Bool.not_eq_false]
          refine any_eq_true.mpr ⟨message, member, ?_⟩
          simp [isResultFor, isResult, ownId]
      rw [present]

def Turn.bodyResultIds (turn : Turn) : List String := resultIds (turn.body.filter isToolResult)

theorem unchanged_called (unchanged : ¬turn.Changes options now seen)
    (member : message ∈ turn.body) (isResult : isToolResult message = true) :
    ∃ id ∈ turn.callIds, extractToolResultId message = some id ∧ id ∉ seen := by
  simp only [Turn.Changes, not_or] at unchanged
  exact called_of_unmarked unchanged.1 member isResult

theorem unchanged_together
    (unchanged : ¬turn.Changes options now seen) (endedWell : turn.errored = false) :
    ∀ message ∈ turn.body.dropWhile isToolResult, isToolResult message = false := by
  intro message member
  have inBody := (dropWhile_sublist isToolResult).subset member
  by_contra isResult
  rw [Bool.not_eq_false] at isResult
  obtain ⟨id, isCall, ownId, fresh⟩ := unchanged_called options now unchanged inBody isResult
  have isFound : turn.found seen id ≠ none := by
    rw [ne_eq, found_eq_none_iff isCall fresh, Bool.not_eq_false]
    refine any_eq_true.mpr ⟨message, inBody, ?_⟩
    simp [isResultFor, isResult, ownId]
  simp only [Turn.Changes, not_or, not_and, not_not] at unchanged
  have noRest := (unchanged.2.2 endedWell).2 ⟨id, isCall, isFound⟩
  have allResults : ∀ other ∈ turn.body, isToolResult other = true := by
    intro other otherMember
    by_contra notResult
    have inRest : other ∈ turn.remainder :=
      mem_filter.mpr ⟨otherMember, by simpa using notResult⟩
    rw [noRest] at inRest
    cases inRest
  rw [dropWhile_eq_nil_iff.mpr allResults] at member
  cases member

theorem run_eq_filter
    (together : ∀ message ∈ turn.body.dropWhile isToolResult, isToolResult message = false) :
    turn.body.filter isToolResult = turn.run := by
  have rest : (turn.body.dropWhile isToolResult).filter isToolResult = [] := by
    rw [filter_eq_nil_iff]
    intro message member
    simp [together message member]
  have first : (turn.body.takeWhile isToolResult).filter isToolResult =
      turn.body.takeWhile isToolResult :=
    filter_eq_self.mpr fun message member => mem_takeWhile_imp member
  calc turn.body.filter isToolResult = (turn.body.takeWhile isToolResult ++
          turn.body.dropWhile isToolResult).filter isToolResult := by
        rw [takeWhile_append_dropWhile]
    _ = turn.run := by
        rw [filter_append, rest, first, append_nil, Turn.run]

/-- A turn that stays as it is is paired if and only if it is tidy. -/
theorem unchanged_tidy (unchanged : ¬turn.Changes options now seen) : turn.Tidy ↔
      (turn.Placed ∧ turn.Answered ∧ turn.Unshared) ∧ turn.bodyResultIds.Nodup := by
  constructor
  · rintro ⟨once, erroredTogether⟩
    have together : ∀ message ∈ turn.body.dropWhile isToolResult, isToolResult message = false := by
      cases errored : turn.errored with
      | true => exact erroredTogether errored
      | false => exact unchanged_together options now unchanged errored
    have run := run_eq_filter together
    have calledInRun : ∀ message ∈ turn.run,
        ∃ id ∈ turn.callIds, extractToolResultId message = some id ∧ id ∉ seen := by
      intro message member
      rw [← run] at member
      obtain ⟨inBody, isResult⟩ := mem_filter.mp member
      exact unchanged_called options now unchanged inBody isResult
    have own := ownResults_of_unchanged options now unchanged
    have counts : ∀ id, turn.run.countP (isResultFor id) = turn.body.countP (isResultFor id) := by
      intro id
      rw [← run, countP_isResultFor, countP_isResultFor, filter_filter]
      simp
    refine ⟨⟨⟨together, ?_⟩, ?_, ?_⟩, ?_⟩
    · intro message member
      obtain ⟨id, isCall, ownId, -⟩ := calledInRun message member
      exact ⟨id, isCall, ownId⟩
    · intro endedWell id isCall
      rw [counts]
      refine Nat.le_antisymm (once id isCall) ?_
      rw [Nat.succ_le_iff, countP_pos_iff]
      simp only [Turn.Changes, not_or, not_and, not_exists] at unchanged
      have isFound := (unchanged.2.2 endedWell).1 id isCall
      rw [found_eq_none_iff isCall (own.1 endedWell id isCall), Bool.not_eq_false] at isFound
      exact any_eq_true.mp isFound
    · intro message member id ownId
      obtain ⟨other, isCall, isOther, fresh⟩ := calledInRun message member
      cases isOther.symm.trans ownId
      have inBody : message ∈ turn.body.filter isToolResult := run ▸ member
      obtain ⟨inBody, isResult⟩ := mem_filter.mp inBody
      have answered : turn.body.any (isResultFor id) = true := by
        refine any_eq_true.mpr ⟨message, inBody, ?_⟩
        simp [isResultFor, isResult, ownId]
      have isAnswered : id ∈ turn.answers := mem_filter.mpr ⟨isCall, by simp [answered]⟩
      exact (own.2 id isAnswered fresh).le
    · rw [nodup_iff_count_le_one]
      intro id
      rw [Turn.bodyResultIds, ← countP_isResultFor]
      by_cases isCall : id ∈ turn.callIds
      · exact once id isCall
      · rw [countP_eq_zero.mpr]
        · exact Nat.zero_le 1
        · intro message inBody isResult
          obtain ⟨isResult, ownId⟩ := Bool.and_eq_true_iff.mp isResult
          obtain ⟨other, isCall', isOther, -⟩ :=
            unchanged_called options now unchanged inBody isResult
          have same : other = id := by
            simpa [isOther] using ownId
          exact isCall (same ▸ isCall')
  · rintro ⟨⟨placed, -, -⟩, distinct⟩
    constructor
    · intro id _
      rw [countP_isResultFor]
      exact nodup_iff_count_le_one.mp distinct id
    · intro _
      exact placed.together

section SameIds

variable {seen answered : List String} (same : ∀ id, id ∈ seen ↔ id ∈ answered)

include same

theorem ownResults_congr (turn : Turn) : turn.OwnResults seen ↔ turn.OwnResults answered := by
  simp only [Turn.OwnResults, same]

theorem disturbed_congr (turn : Turn) : turn.Disturbed seen ↔ turn.Disturbed answered := by
  have marks : turn.marks seen = turn.marks answered := by
    funext message
    simp only [Turn.marks, same]
  rw [Turn.Disturbed, Turn.Disturbed, marks]

theorem sameIds_after (turn : Turn) (id : String) :
    id ∈ turn.seenAfter options now seen ↔ id ∈ answered ++ turn.answers := by
  rw [mem_seenAfter, mem_append, same]

end SameIds

variable {turns : List Turn} {seen answered : List String} {leading : List AgentMessage}

theorem ownResults_of_unchanged_turns
    (same : ∀ id, id ∈ seen ↔ id ∈ answered) (unchanged : ¬TurnsChange options now seen turns) :
    OwnResults answered turns := by
  induction turns generalizing seen answered with
  | nil => trivial
  | cons turn rest inductionHypothesis =>
    rw [TurnsChange, not_or] at unchanged
    obtain ⟨here, later⟩ := unchanged
    exact ⟨(ownResults_congr same turn).mp (ownResults_of_unchanged options now here),
        inductionHypothesis (sameIds_after options now same turn) later⟩

theorem turnsChange_iff_disturbed
    (same : ∀ id, id ∈ seen ↔ id ∈ answered) (own : OwnResults answered turns) :
    TurnsChange options now seen turns ↔ Disturbed answered turns := by
  induction turns generalizing seen answered with
  | nil => exact Iff.rfl
  | cons turn rest inductionHypothesis =>
    obtain ⟨here, later⟩ := own
    rw [TurnsChange, Disturbed, inductionHypothesis (sameIds_after options now same turn) later,
      changes_iff_disturbed options now ((ownResults_congr same turn).mpr here),
      disturbed_congr same turn]

theorem nodup_append_fresh {ids after later : List String} (once : ids.Nodup)
    (fresh : ∀ id ∈ ids, id ∉ seen) (covers : ∀ id, id ∈ seen ∨ id ∈ ids → id ∈ after)
    (laterOnce : later.Nodup) (laterFresh : ∀ id ∈ later, id ∉ after) :
    (ids ++ later).Nodup ∧ ∀ id ∈ ids ++ later, id ∉ seen := by
  constructor
  · refine nodup_append.mpr ⟨once, laterOnce, ?_⟩
    rintro id member other laterMember rfl
    exact laterFresh id laterMember (covers id (Or.inr member))
  · intro id member isSeen
    rcases mem_append.mp member with here | there
    · exact fresh id here isSeen
    · exact laterFresh id there (covers id (Or.inl isSeen))

/-- The ids of all results behind some turns. -/
def turnsResultIds (turns : List Turn) : List String := turns.flatMap Turn.bodyResultIds

theorem resultIds_join (noLeading : ∀ message ∈ leading, isToolResult message = false)
    (assistants : ∀ turn ∈ turns, assistantHasToolCalls turn.assistant = true) :
    resultIds ((leading ++ turns.flatMap Turn.messages).filter isToolResult) =
      turnsResultIds turns := by
  have first : leading.filter isToolResult = [] := by
    rw [filter_eq_nil_iff]
    intro message member
    simp [noLeading message member]
  rw [filter_append, first, nil_append]
  induction turns with
  | nil => rfl
  | cons turn rest inductionHypothesis =>
    have later := inductionHypothesis fun other member =>
      assistants other (.tail turn member)
    have notResult := not_toolResult_of_assistant (assistants turn mem_cons_self)
    simp only [resultIds] at later
    simp [turnsResultIds, Turn.bodyResultIds, Turn.messages, notResult, resultIds, later]

theorem filter_kept (turn : Turn) (seen : List String) :
    (turn.kept options now seen).filter isToolResult = turn.kept options now seen :=
  filter_eq_self.mpr fun _ member => (kept_called options now member).1

theorem repaired_bodyResultIds (turn : Turn) (seen : List String) :
    (turn.repaired options now seen).bodyResultIds = resultIds (turn.kept options now seen) := by
  have noRest : turn.remainder.filter isToolResult = [] := by
    rw [filter_eq_nil_iff]
    intro message member
    simp [not_result_of_mem_remainder member]
  rw [Turn.bodyResultIds, Turn.repaired, filter_append, noRest, append_nil, filter_kept]

theorem repairedTurns_distinct (turns : List Turn) (seen : List String) :
    (turnsResultIds (repairedTurns options now seen turns)).Nodup ∧
      ∀ id ∈ turnsResultIds (repairedTurns options now seen turns), id ∉ seen := by
  induction turns generalizing seen with
  | nil => exact ⟨nodup_nil, fun id member => by cases member⟩
  | cons turn rest inductionHypothesis =>
    obtain ⟨laterOnce, laterFresh⟩ := inductionHypothesis (turn.seenAfter options now seen)
    rw [repairedTurns, turnsResultIds, flatMap_cons, repaired_bodyResultIds]
    refine nodup_append_fresh (nodup_resultIds_newResults _ _) ?_ ?_ laterOnce laterFresh
    · intro id member
      exact ((mem_resultIds_kept options now).mp member).2
    · intro id covered
      exact mem_append.mpr covered

theorem mem_repairedTurns {turn' : Turn} (member : turn' ∈ repairedTurns options now seen turns) :
    ∃ turn ∈ turns, ∃ seen', turn' = turn.repaired options now seen' := by
  induction turns generalizing seen with
  | nil => cases member
  | cons turn rest inductionHypothesis =>
    rcases mem_cons.mp member with rfl | later
    · exact ⟨turn, .head _, seen, rfl⟩
    · obtain ⟨other, otherMember, seen', isOther⟩ := inductionHypothesis later
      exact ⟨other, .tail turn otherMember, seen', isOther⟩

theorem wellSplit_repairedTurns (seen : List String) (split : WellSplit leading turns) :
    WellSplit (leading.filter fun message => !isToolResult message)
      (repairedTurns options now seen turns) := by
  obtain ⟨closed, assistants, bodies⟩ := split
  constructor
  · intro message member
    exact closed message (mem_filter.mp member).1
  · intro turn' member
    obtain ⟨turn, turnMember, seen', rfl⟩ := mem_repairedTurns options now member
    exact assistants turn turnMember
  · intro turn' member message inBody
    obtain ⟨turn, turnMember, seen', rfl⟩ := mem_repairedTurns options now member
    rcases mem_append.mp inBody with isKept | isRest
    · exact not_assistant_of_toolResult (kept_called options now isKept).1
    · exact bodies turn turnMember message (mem_filter.mp isRest).1

theorem repairedTurns_rest (turns : List Turn) (seen : List String) :
    ((repairedTurns options now seen turns).flatMap Turn.messages).filter
        (fun message => !isToolResult message) =
      (turns.flatMap Turn.messages).filter fun message => !isToolResult message := by
  induction turns generalizing seen with
  | nil => rfl
  | cons turn rest inductionHypothesis =>
    have noKept : (turn.kept options now seen).filter
        (fun message => !isToolResult message) = [] := by
      rw [filter_eq_nil_iff]
      intro message member
      simp [(kept_called options now member).1]
    have own : (turn.repaired options now seen).messages.filter
          (fun message => !isToolResult message) =
        turn.messages.filter fun message => !isToolResult message := by
      simp only [Turn.messages, Turn.repaired, filter_cons,
        filter_append, noKept, nil_append, Turn.remainder, filter_filter, Bool.and_self]
    rw [repairedTurns, flatMap_cons, flatMap_cons, filter_append,
      filter_append, inductionHypothesis, own]

theorem repairedTurns_own_results (same : ∀ id, id ∈ seen ↔ id ∈ answered) :
    (∀ turn' ∈ repairedTurns options now seen turns, turn'.Answered ∧ turn'.Unshared) ↔
      OwnResults answered turns := by
  induction turns generalizing seen answered with
  | nil => simp [repairedTurns, OwnResults]
  | cons turn rest inductionHypothesis =>
    rw [repairedTurns, forall_mem_cons, repaired_own_results, OwnResults,
      ownResults_congr same, inductionHypothesis (sameIds_after options now same turn)]

/-- The repaired list is paired if and only if every call can have its own result. -/
theorem repaired_paired_iff (messages : List AgentMessage) : Paired messages
        ((splitTurns messages).1.filter (fun message => !isToolResult message) ++
          (repairedTurns options now [] (splitTurns messages).2).flatMap Turn.messages) ↔
      OwnResults [] (splitTurns messages).2 := by
  have split := wellSplit_repairedTurns options now [] (wellSplit_splitTurns messages)
  have isSplit := splitTurns_join split
  have noLeading : ∀ message ∈ (splitTurns messages).1.filter
      (fun message => !isToolResult message), isToolResult message = false := by
    intro message member
    simpa using (mem_filter.mp member).2
  rw [← repairedTurns_own_results options now
    (fun id => Iff.rfl : ∀ id, id ∈ ([] : List String) ↔ id ∈ ([] : List String))]
  constructor
  · rintro ⟨-, -, answered, unshared, -, -⟩
    rw [isSplit] at answered unshared
    exact fun turn' member => ⟨answered turn' member, unshared turn' member⟩
  · intro own
    constructor
    · rw [isSplit]
      exact noLeading
    · rw [isSplit]
      intro turn' member
      obtain ⟨turn, -, seen, rfl⟩ := mem_repairedTurns options now member
      exact repaired_placed options now turn seen
    · rw [isSplit]
      exact fun turn' member => (own turn' member).1
    · rw [isSplit]
      exact fun turn' member => (own turn' member).2
    · rw [resultIds_join noLeading split.assistants]
      exact (repairedTurns_distinct options now _ _).1
    · conv_rhs => rw [← join_splitTurns messages]
      rw [filter_append, filter_append, repairedTurns_rest, filter_filter]
      simp

theorem unchangedTurns_distinct
    (unchanged : ¬TurnsChange options now seen turns) (tidy : ∀ turn ∈ turns, turn.Tidy) :
    (turnsResultIds turns).Nodup ∧ ∀ id ∈ turnsResultIds turns, id ∉ seen := by
  induction turns generalizing seen with
  | nil => exact ⟨nodup_nil, fun id member => by cases member⟩
  | cons turn rest inductionHypothesis =>
    rw [TurnsChange, not_or] at unchanged
    obtain ⟨here, later⟩ := unchanged
    obtain ⟨laterOnce, laterFresh⟩ := inductionHypothesis later
      fun other member => tidy other (.tail turn member)
    obtain ⟨-, once⟩ := (unchanged_tidy options now here).mp (tidy turn mem_cons_self)
    have behind : ∀ id ∈ turn.bodyResultIds, id ∈ turn.answers ∧ id ∉ seen := by
      intro id member
      obtain ⟨message, isResult, ownId⟩ := mem_filterMap.mp member
      obtain ⟨inBody, isResult⟩ := mem_filter.mp isResult
      obtain ⟨other, isCall, isOther, fresh⟩ := unchanged_called options now here inBody isResult
      cases isOther.symm.trans ownId
      refine ⟨mem_filter.mpr ⟨isCall, ?_⟩, fresh⟩
      have found : turn.body.any (isResultFor id) = true := by
        refine any_eq_true.mpr ⟨message, inBody, ?_⟩
        simp [isResultFor, isResult, ownId]
      simp [found]
    rw [turnsResultIds, flatMap_cons]
    refine nodup_append_fresh once (fun id member => (behind id member).2) ?_ laterOnce laterFresh
    rintro id (isSeen | isHere)
    · exact (mem_seenAfter options now).mpr (Or.inl isSeen)
    · exact (mem_seenAfter options now).mpr (Or.inr (behind id isHere).1)

/-- A list that is returned as it came is paired if and only if it is tidy. -/
theorem unchanged_paired_iff {messages : List AgentMessage}
    (noLeading : (splitTurns messages).1.any isToolResult = false)
    (unchanged : ¬TurnsChange options now [] (splitTurns messages).2) :
    Paired messages messages ↔ ∀ turn ∈ (splitTurns messages).2, turn.Tidy := by
  have split := wellSplit_splitTurns messages
  have leading : ∀ message ∈ (splitTurns messages).1, isToolResult message = false := by
    intro message member
    simpa using any_eq_false.mp noLeading message member
  have ids := resultIds_join leading split.assistants
  rw [join_splitTurns] at ids
  have here : ∀ {turns : List Turn} {seen : List String}, ¬TurnsChange options now seen turns →
        ∀ turn ∈ turns, ∃ seen', ¬turn.Changes options now seen' := by
    intro turns
    induction turns with
    | nil =>
      intro seen _ turn member
      cases member
    | cons first rest inductionHypothesis =>
      intro seen unchanged turn member
      rw [TurnsChange, not_or] at unchanged
      rcases mem_cons.mp member with rfl | later
      · exact ⟨seen, unchanged.1⟩
      · exact inductionHypothesis unchanged.2 turn later
  constructor
  · rintro ⟨-, placed, answered, unshared, distinct, -⟩ turn member
    obtain ⟨seen, unchangedHere⟩ := here unchanged turn member
    rw [unchanged_tidy options now unchangedHere]
    refine ⟨⟨placed turn member, answered turn member, unshared turn member⟩, ?_⟩
    rw [ids] at distinct
    exact (nodup_flatMap.mp distinct).1 turn member
  · intro tidy
    have paired : ∀ turn ∈ (splitTurns messages).2,
        turn.Placed ∧ turn.Answered ∧ turn.Unshared := by
      intro turn member
      obtain ⟨seen, unchangedHere⟩ := here unchanged turn member
      exact ((unchanged_tidy options now unchangedHere).mp (tidy turn member)).1
    constructor
    · exact leading
    · exact fun turn member => (paired turn member).1
    · exact fun turn member => (paired turn member).2.1
    · exact fun turn member => (paired turn member).2.2
    · rw [ids]
      exact (unchangedTurns_distinct options now unchanged tidy).1
    · rfl

end

/--
The returned list is paired if and only if every call can have a result of its
own, and either something is noticed, so that the repaired list is returned, or
there is nothing that the repair passes over.
-/
theorem repairToolUseResultPairing_paired_iff (options : ToolUseResultPairingOptions)
    (now : ℚ) (messages : List AgentMessage)
    (preserve : options.erroredAssistantResultPolicy ≠ some .drop) :
    Paired messages (repairToolUseResultPairing options now messages).messages ↔
      OwnResults [] (splitTurns messages).2 ∧
        (((splitTurns messages).1.any isToolResult = true ∨ Disturbed [] (splitTurns messages).2) ∨
          ∀ turn ∈ (splitTurns messages).2, turn.Tidy) := by
  obtain ⟨repaired, asTheyCame⟩ := repair_spec options now messages preserve
  have sameIds : ∀ id, id ∈ ([] : List String) ↔ id ∈ ([] : List String) := fun id => Iff.rfl
  by_cases noticed : (splitTurns messages).1.any isToolResult = true ∨
      TurnsChange options now [] (splitTurns messages).2
  · rw [repaired noticed, repaired_paired_iff]
    constructor
    · intro own
      rw [turnsChange_iff_disturbed options now sameIds own] at noticed
      exact ⟨own, Or.inl noticed⟩
    · exact And.left
  · rw [asTheyCame noticed]
    rw [not_or, Bool.not_eq_true] at noticed
    obtain ⟨noLeading, unchanged⟩ := noticed
    have own := ownResults_of_unchanged_turns options now sameIds unchanged
    rw [unchanged_paired_iff options now noLeading unchanged]
    rw [turnsChange_iff_disturbed options now sameIds own] at unchanged
    simp [own, noLeading, unchanged]

private def callTurn : AgentMessage :=
  .object
    [("role", .string "assistant"),
      ("content",
        .array
          [.object
            [("type", .string "toolCall"), ("id", .string "call_1"), ("name", .string "read")]])]

private def callResult (text : String) : AgentMessage :=
  .object
    [("role", .string "toolResult"), ("toolCallId", .string "call_1"),
      ("toolName", .string "read"), ("content", .string text)]

private def preserveOptions : ToolUseResultPairingOptions :=
  { erroredAssistantResultPolicy := some .preserve, missingToolResultText := none }

/-- Behind a user message the only result of a call is moved to its turn. -/
theorem displaced_result_paired :
    Paired [callTurn, .object [("role", .string "user")], callResult "done"]
      (repairToolUseResultPairing preserveOptions 0
        [callTurn, .object [("role", .string "user")], callResult "done"]).messages := by
  rw [repairToolUseResultPairing_paired_iff preserveOptions 0 _ (by decide)]
  have isTurn : splitTurns [callTurn, .object [("role", .string "user")], callResult "done"] = ([],
        [{ assistant := callTurn
           body := [.object [("role", .string "user")], callResult "done"] }]) := by
    rfl
  rw [isTurn]
  refine ⟨⟨⟨?_, ?_⟩, trivial⟩, Or.inl (Or.inr (Or.inl (Or.inr ?_)))⟩
  · intro _ id _ isAnswered
    cases isAnswered
  · decide +kernel
  · refine ⟨by decide +kernel, Or.inr ⟨by decide +kernel, ?_⟩⟩
    intro isEmpty
    have length := congrArg List.length isEmpty
    exact absurd length (by decide +kernel)

/-- Two results of one call right behind it are both returned. -/
theorem second_result_returned :
    ¬Paired [callTurn, callResult "first", callResult "second"]
      (repairToolUseResultPairing preserveOptions 0
        [callTurn, callResult "first", callResult "second"]).messages := by
  intro paired
  exact absurd paired.distinct (by decide +kernel)

end ToolUse
