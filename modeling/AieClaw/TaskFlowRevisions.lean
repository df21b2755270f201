import AieClaw.TaskFlowRegistry

/-!
# Revisions of flows

A writer changes a flow by naming the revision that it read. The calls of any
writers, in any order, are one sequence of calls of the registry. The updates
that are reported as applied form a chain of revisions, and a call that is
refused changes nothing, as long as the store takes every write: a write that
throws leaves the next revision in memory.
-/

namespace Tasks

open FlowRegistry List

/-- A call of a writer, who names the revision that it read. -/
structure FlowCall where
  now : ℚ
  flowId : String
  expectedRevision : ℕ
  operation : FlowOperation

/-- An update that a writer was told is applied. -/
structure AppliedUpdate where
  flowId : String
  expectedRevision : ℕ
  flow : TaskFlowRecord

namespace FlowCall

def perform (store : ℕ → Bool) (call : FlowCall) (registry : FlowRegistry) :
    Result TaskFlowUpdateResult :=
  performFlowOperation store call.now call.flowId call.expectedRevision call.operation registry

/-- What a call applied, from what its writer is told. -/
def appliedUpdate (call : FlowCall) (outcome : Except FlowError TaskFlowUpdateResult) :
    Option AppliedUpdate :=
  match outcome with
  | .ok (.applied flow) =>
    some
      { flowId := call.flowId
        expectedRevision := call.expectedRevision
        flow }
  | _ => none

end FlowCall

/-- The flows, and the updates that were applied to them so far. -/
structure FlowHistory where
  registry : FlowRegistry
  applied : List AppliedUpdate

def FlowHistory.call (store : ℕ → Bool) (history : FlowHistory) (call : FlowCall) : FlowHistory :=
  let result := call.perform store history.registry
  { registry := result.2
    applied := history.applied ++ (call.appliedUpdate result.1).toList }

def afterCalls (store : ℕ → Bool) (calls : List FlowCall) (start : FlowRegistry) : FlowHistory :=
  calls.foldl (FlowHistory.call store) { registry := start, applied := [] }

/-- Updates that follow one another, each one revision after it was expected. -/
structure FormsChain (first : ℕ) (updates : List AppliedUpdate) : Prop where
  expected : updates.map AppliedUpdate.expectedRevision = List.range' first updates.length
  raised : ∀ update ∈ updates, update.flow.revision = update.expectedRevision + 1

/-- What is expected of a call that is not applied. -/
structure FlowCall.MeetsContract (store : ℕ → Bool) (registry : FlowRegistry) (call : FlowCall) :
    Prop where
  conflictChangesNothing :
    ∀ current,
      (call.perform store registry).1 = .ok (.revisionConflict current) →
      (call.perform store registry).2 = registry
  failureKeepsFlow :
    (call.perform store registry).1 = .error .storeFailed →
    (call.perform store registry).2.flows.get? call.flowId = registry.flows.get? call.flowId
  retryApplies :
    (call.perform store registry).1 = .error .storeFailed →
    ∃ flow, (call.perform (fun _ => true) (call.perform store registry).2).1 = .ok (.applied flow)

/-- What is expected of the calls of any writers. -/
structure MeetsFlowContract (store : ℕ → Bool) (start : FlowRegistry) (calls : List FlowCall) :
    Prop where
  chained :
    ∀ flowId flow, start.flows.get? flowId = some flow →
      FormsChain flow.revision ((afterCalls store calls start).applied.filter (·.flowId = flowId))
  each :
    ∀ earlier call later, calls = earlier ++ call :: later →
      call.MeetsContract store (afterCalls store earlier start).registry

/-- Whether a patch leaves a managed flow with a controller. -/
def KeepsController (current : TaskFlowRecord) (patch : FlowRecordPatch) : Prop :=
  current.syncMode = .managed →
    (trimmedMember (patchedMember current.controllerId patch.controllerId)).isSome

/-- Whether the store takes the write of a call, if the call makes one. -/
def FlowCall.WriteSucceeds (store : ℕ → Bool) (registry : FlowRegistry) (call : FlowCall) : Prop :=
  ∀ current, registry.flows.get? call.flowId = some current →
    current.revision = call.expectedRevision →
    KeepsController current (call.operation.patch call.now) →
    store registry.writes = true

/-- What a patch makes of a flow, but for its texts and times. -/
structure IsPatched (current : TaskFlowRecord) (patch : FlowRecordPatch) (next : TaskFlowRecord) :
    Prop where
  flowId : next.flowId = current.flowId
  syncMode : next.syncMode = current.syncMode
  revision : next.revision = current.revision + 1
  status : next.status = patch.status.getD current.status
  controllerId : next.controllerId = patchedMember current.controllerId patch.controllerId
  cancelRequestedAt :
    next.cancelRequestedAt = patch.cancelRequestedAt.getD current.cancelRequestedAt

theorem applyFlowPatch_cases (now : ℚ) (current : TaskFlowRecord) (patch : FlowRecordPatch) :
    (KeepsController current patch ∧
        ∃ next, applyFlowPatch now current patch = .ok next ∧ IsPatched current patch next) ∨
      (¬KeepsController current patch ∧
        applyFlowPatch now current patch = .error .controllerIdRequired) := by
  unfold applyFlowPatch KeepsController assertControllerId
  extract_lets controllerId next
  have isController : trimmedMember (patchedMember current.controllerId patch.controllerId) =
        trimmedMember controllerId :=
    rfl
  rw [isController]
  by_cases isManaged : current.syncMode = .managed
  · rw [if_pos isManaged]
    cases trimmedMember controllerId with
    | none => exact Or.inr ⟨by simp [isManaged], rfl⟩
    | some key => exact Or.inl ⟨by simp, next, rfl, rfl, rfl, rfl, rfl, rfl, rfl⟩
  · rw [if_neg isManaged]
    exact Or.inl ⟨fun managed => (isManaged managed).elim, next, rfl, rfl, rfl, rfl, rfl, rfl, rfl⟩

/-- What a call does, by the flow that it finds. -/
inductive CallCase (store : ℕ → Bool) (registry : FlowRegistry) (call : FlowCall) :
    Result TaskFlowUpdateResult → Prop where
  | notFound
      (unknown : registry.flows.get? call.flowId = none) :
      CallCase store registry call (.ok .notFound, registry)
  | conflict
      {current : TaskFlowRecord} (known : registry.flows.get? call.flowId = some current)
      (moved : current.revision ≠ call.expectedRevision) :
      CallCase store registry call (.ok (.revisionConflict current), registry)
  | refused
      {current : TaskFlowRecord} (known : registry.flows.get? call.flowId = some current)
      (loses : ¬KeepsController current (call.operation.patch call.now)) :
      CallCase store registry call (.error .controllerIdRequired, registry)
  | written
      {current next : TaskFlowRecord} (known : registry.flows.get? call.flowId = some current)
      (isExpected : current.revision = call.expectedRevision)
      (keeps : KeepsController current (call.operation.patch call.now))
      (patched : IsPatched current (call.operation.patch call.now) next) :
      CallCase store registry call
        (if store registry.writes then .ok (.applied next)
          else .error .storeFailed,
          { flows := registry.flows.set next.flowId next
            writes := registry.writes + 1 })

theorem FlowCall.cases (store : ℕ → Bool) (registry : FlowRegistry) (call : FlowCall) :
    CallCase store registry call (call.perform store registry) := by
  unfold perform performFlowOperation updateFlowRecordByIdExpectedRevision
  split
  next unknown => exact .notFound unknown
  next current known =>
    split
    next moved => exact .conflict known moved
    next notMoved =>
      have isExpected : current.revision = call.expectedRevision := by
        simpa using notMoved
      unfold patchFlow
      rcases applyFlowPatch_cases call.now current (call.operation.patch call.now) with
        ⟨keeps, next, applied, patched⟩ | ⟨loses, refused⟩
      · have written : CallCase store registry call _ := .written known isExpected keeps patched
        simp only [applied, writeFlowRecord]
        split_ifs at written ⊢
        · exact written
        · exact written
      · simp only [refused]
        exact .refused known loses

/-- Every flow is kept under its own identity. -/
def FlowRegistry.Keyed (registry : FlowRegistry) : Prop :=
  ∀ flowId flow, registry.flows.get? flowId = some flow → flow.flowId = flowId

section Calls

variable {store : ℕ → Bool} {registry : FlowRegistry}

theorem keyed_set (keyed : registry.Keyed) (next : TaskFlowRecord) (writes : ℕ) : FlowRegistry.Keyed
      { flows := registry.flows.set next.flowId next, writes } := by
  intro flowId flow known
  rw [OrderedMap.get?_set] at known
  split_ifs at known with isNext
  · cases known
    exact isNext.symm
  · exact keyed flowId flow known

theorem flowId_of_normalizeRestoredFlowRecord {stored record : TaskFlowRecord}
    (normalized : normalizeRestoredFlowRecord stored = .ok record) :
    record.flowId = stored.flowId := by
  unfold normalizeRestoredFlowRecord at normalized
  cases owned : assertFlowOwnerKey stored.ownerKey with
  | error error => simp [owned, Except.map] at normalized
  | ok ownerKey =>
    rw [owned] at normalized
    rw [← Except.ok.inj normalized]

theorem keyed_restored (flows : List TaskFlowRecord) : (restored flows).Keyed := by
  apply restored_invariant (fun known =>
    ∀ flowId flow, known.get? flowId = some flow → flow.flowId = flowId)
  · intro flowId flow known
    simp at known
  · intro known stored record normalized keyed flowId flow isFlow
    rw [OrderedMap.get?_set] at isFlow
    split_ifs at isFlow with same
    · cases isFlow
      rw [same]
      exact flowId_of_normalizeRestoredFlowRecord normalized
    · exact keyed flowId flow isFlow

theorem keyed_perform (keyed : registry.Keyed) (call : FlowCall) :
    (call.perform store registry).2.Keyed := by
  have outcome := call.cases store registry
  generalize call.perform store registry = result at outcome
  cases outcome with
  | notFound => exact keyed
  | conflict => exact keyed
  | refused => exact keyed
  | written => exact keyed_set keyed _ _

/-- A call meets its contract where, and only where, its write succeeds. -/
theorem meetsContract_iff (keyed : registry.Keyed) (call : FlowCall) :
    call.MeetsContract store registry ↔ call.WriteSucceeds store registry := by
  have outcome := call.cases store registry
  constructor
  · intro meets current known isExpected keeps
    by_contra lost
    have failure := meets.failureKeepsFlow
    generalize call.perform store registry = result at outcome failure
    cases outcome with
    | notFound unknown => simp [unknown] at known
    | conflict isKnown moved =>
      obtain rfl := Option.some.inj (known.symm.trans isKnown)
      exact moved isExpected
    | refused isKnown loses =>
      obtain rfl := Option.some.inj (known.symm.trans isKnown)
      exact loses keeps
    | @written there next isKnown _ _ patched =>
      obtain rfl := Option.some.inj (known.symm.trans isKnown)
      have kept := failure (if_neg lost)
      rw [patched.flowId, keyed _ _ known, OrderedMap.get?_set_self, known] at kept
      have sameRevision := congrArg TaskFlowRecord.revision (Option.some.inj kept)
      have raised := patched.revision
      omega
  · intro succeeds
    have noFailure : (call.perform store registry).1 ≠ .error .storeFailed := by
      generalize call.perform store registry = result at outcome
      cases outcome with
      | notFound => simp
      | conflict => simp
      | refused => simp
      | written known isExpected keeps => simp [succeeds _ known isExpected keeps]
    refine ⟨?_, ?_, ?_⟩
    · intro current conflict
      generalize call.perform store registry = result at outcome conflict
      cases outcome with
      | notFound => rfl
      | conflict => rfl
      | refused => rfl
      | written known isExpected keeps => simp [succeeds _ known isExpected keeps] at conflict
    · intro failed
      exact (noFailure failed).elim
    · intro failed
      exact (noFailure failed).elim

end Calls

section Histories

variable {store : ℕ → Bool} {start : FlowRegistry}

theorem afterCalls_concat (calls : List FlowCall) (call : FlowCall) :
    afterCalls store (calls ++ [call]) start = (afterCalls store calls start).call store call := by
  rw [afterCalls, foldl_append]
  rfl

theorem keyed_afterCalls (keyed : start.Keyed) (calls : List FlowCall) :
    (afterCalls store calls start).registry.Keyed := by
  induction calls using List.reverseRecOn with
  | nil => exact keyed
  | append_singleton earlier call inductionHypothesis =>
    rw [afterCalls_concat]
    exact keyed_perform inductionHypothesis call

theorem FormsChain.concat {first : ℕ} {updates : List AppliedUpdate}
    (chain : FormsChain first updates) {update : AppliedUpdate}
    (isExpected : update.expectedRevision = first + updates.length)
    (isRaised : update.flow.revision = update.expectedRevision + 1) :
    FormsChain first (updates ++ [update]) where
  expected := by
    rw [map_append, length_append, length_singleton,
      List.range'_concat, chain.expected, map_singleton, isExpected, Nat.one_mul]
  raised := by
    intro other member
    rcases mem_append.mp member with earlier | last
    · exact chain.raised other earlier
    · rw [mem_singleton.mp last]
      exact isRaised

/--
While every write succeeds, the updates that were applied to a flow form a
chain up to its revision.
-/
theorem formsChain_afterCalls (keyed : start.Keyed) {calls : List FlowCall}
    (succeed : ∀ earlier call later, calls = earlier ++ call :: later →
        call.WriteSucceeds store (afterCalls store earlier start).registry) {flowId : String}
    {flow : TaskFlowRecord} (known : start.flows.get? flowId = some flow) :
    FormsChain flow.revision ((afterCalls store calls start).applied.filter (·.flowId = flowId)) ∧
      ∃ current, (afterCalls store calls start).registry.flows.get? flowId = some current ∧
          current.revision = flow.revision + ((afterCalls store calls start).applied.filter
                (·.flowId = flowId)).length := by
  induction calls using List.reverseRecOn with
  | nil => exact ⟨⟨rfl, by simp [afterCalls]⟩, flow, known, rfl⟩
  | append_singleton earlier call inductionHypothesis =>
    obtain ⟨chain, current, isCurrent, revision⟩ :=
      inductionHypothesis fun before other later split =>
        succeed before other (later ++ [call]) (by simp [split])
    have succeeds := succeed earlier call [] rfl
    have keyedThere : (afterCalls store earlier start).registry.Keyed :=
      keyed_afterCalls keyed earlier
    rw [afterCalls_concat]
    generalize afterCalls store earlier start = history at *
    have outcome := call.cases store history.registry
    unfold FlowHistory.call
    generalize call.perform store history.registry = result at outcome
    cases outcome with
    | notFound => simpa [FlowCall.appliedUpdate] using ⟨chain, current, isCurrent, revision⟩
    | conflict => simpa [FlowCall.appliedUpdate] using ⟨chain, current, isCurrent, revision⟩
    | refused => simpa [FlowCall.appliedUpdate] using ⟨chain, current, isCurrent, revision⟩
    | @written there next isThere isExpected keeps patched =>
      have sameFlow : next.flowId = call.flowId := patched.flowId.trans (keyedThere _ _ isThere)
      have isNext : next.revision = call.expectedRevision + 1 :=
        patched.revision.trans (congrArg (· + 1) isExpected)
      simp only [succeeds _ isThere isExpected keeps, if_true,
        FlowCall.appliedUpdate, Option.toList_some, filter_append, sameFlow]
      by_cases isFlow : call.flowId = flowId
      · subst isFlow
        obtain rfl := Option.some.inj (isCurrent.symm.trans isThere)
        simp only [filter_singleton, decide_true, cond_true]
        refine ⟨chain.concat (isExpected.symm.trans revision) isNext, next,
          OrderedMap.get?_set_self _ _ _, ?_⟩
        rw [length_append, length_singleton]
        omega
      · simp only [filter_singleton, isFlow, decide_false, cond_false, append_nil]
        refine ⟨chain, current, ?_, revision⟩
        rw [OrderedMap.get?_set_of_ne (Ne.symm isFlow)]
        exact isCurrent

end Histories

/--
The calls of any writers meet the contract if and only if the store takes the
write of every call that finds its flow at the expected revision.
-/
theorem meetsFlowContract_iff (store : ℕ → Bool) (flows : List TaskFlowRecord)
    (calls : List FlowCall) :
    MeetsFlowContract store (restored flows) calls ↔
      ∀ earlier call later, calls = earlier ++ call :: later →
        call.WriteSucceeds store (afterCalls store earlier (restored flows)).registry := by
  have keyed (earlier : List FlowCall) :
      (afterCalls store earlier (restored flows)).registry.Keyed :=
    keyed_afterCalls (keyed_restored flows) earlier
  constructor
  · intro contract earlier call later split
    exact (meetsContract_iff (keyed earlier) call).mp (contract.each earlier call later split)
  · intro succeed
    constructor
    · intro flowId flow known
      exact (formsChain_afterCalls (keyed_restored flows) succeed known).1
    · intro earlier call later split
      exact (meetsContract_iff (keyed earlier) call).mpr (succeed earlier call later split)

private def plannedFlow : TaskFlowRecord where
  flowId := "flow-1"
  syncMode := .managed
  ownerKey := "agent:main"
  controllerId := some "planner"
  revision := 0
  status := .running
  notifyPolicy := .doneOnly
  goal := "Build"
  createdAt := 1
  updatedAt := 1

private def waitForReview : FlowCall where
  now := 2
  flowId := "flow-1"
  expectedRevision := 0
  operation := .setFlowWaiting { currentStep := some (some "review") }

/-- A call whose write throws leaves the flow at the next revision. -/
theorem not_meetsFlowContract :
    ¬∀ (store : ℕ → Bool) (flows : List TaskFlowRecord) (calls : List FlowCall),
      MeetsFlowContract store (restored flows) calls := by
  intro contract
  have meets : waitForReview.MeetsContract (fun _ => false) (restored [plannedFlow]) :=
    (contract (fun _ => false) [plannedFlow] [waitForReview]).each [] waitForReview [] rfl
  have threw :
      (waitForReview.perform (fun _ => false) (restored [plannedFlow])).1 = .error .storeFailed :=
    rfl
  have sameRevision := congrArg (Option.map TaskFlowRecord.revision) (meets.failureKeepsFlow threw)
  exact absurd sameRevision (by decide)

end Tasks
