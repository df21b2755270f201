import AieClaw.SystemRunApprovalRuns

/-!
# Approvals bound and used once

A request leaves an entry with a normal plan and the hash of its environment. A call
that comes back approved has passed the checks of that entry, so under the condition on
the steps it is bound to it, and the entry of a decision to allow once is used up.
-/

namespace SystemRunApprovals

open ExecApprovalManager Option

theorem isNormalText_filter {text : Option String} (normal : IsNormalText text)
    (keep : String → Bool) : IsNormalText (text.filter keep) := by
  cases text with
  | none => rfl
  | some text =>
    unfold IsNormalText
    by_cases kept : keep text
    · simpa [Option.filter, kept, IsNormalText] using normal
    · simp [Option.filter, kept]

theorem normal_of_requestContext {host : SystemRunHost} {hostName : String}
    {command : Option String} {commandArgv : List String} {systemRunPlan : Option JsonValue}
    {cwd agentId sessionKey : Option String} {plan : SystemRunApprovalPlan}
    (planned :
      (resolveSystemRunApprovalRequestContext host hostName command commandArgv systemRunPlan
        cwd agentId sessionKey).plan = some plan) : plan.Normal := by
  obtain ⟨normalized, isNormalized, rfl⟩ := map_eq_some_iff.mp planned
  split at isNormalized
  · have normal := normal_of_normalizeSystemRunApprovalPlan isNormalized
    refine ⟨normal.argv, normal.cwd, normal.commandText, ?_, normal.agentId,
      normal.sessionKey, normal.operand⟩
    generalize (if hostName = "node" then normalizeSystemRunApprovalPlan host systemRunPlan
      else none) = shown
    cases shown with
    | none => rfl
    | some shown => exact isNormalText_filter (isNormalText_bind _) _
  · exact absurd isNormalized (by simp)

namespace ExecApprovalManager.WellFormed

variable {host : SystemRunHost} {manager : ExecApprovalManager}

theorem execApprovalRequest (wellFormed : manager.WellFormed host)
    {params : ExecApprovalRequestParams} {client : Option ApprovalClient} {now : ℚ}
    {randomUuid : String} {after : ExecApprovalManager}
    (accepted : SystemRunApprovals.execApprovalRequest host manager params client now randomUuid =
        .ok after) : after.WellFormed host := by
  unfold SystemRunApprovals.execApprovalRequest at accepted
  extract_lets explicitId hostName nodeId context record at accepted
  split at accepted
  · exact absurd accepted (by simp)
  next hasNode =>
  split at accepted
  · exact absurd accepted (by simp)
  next hasPlan =>
  split at accepted
  · exact absurd accepted (by simp)
  split at accepted
  · exact absurd accepted (by simp)
  split at accepted
  · exact absurd accepted (by simp)
  split at accepted
  · exact absurd accepted (by simp)
  split at accepted
  · exact absurd accepted (by simp)
  cases registered : manager.register record params.env with
  | none =>
    simp only [registered] at accepted
    exact absurd accepted (by simp)
  | some stored =>
    simp only [registered, Except.ok.injEq] at accepted
    subst accepted
    refine wellFormed.register registered (.pending rfl rfl rfl rfl rfl) ⟨?_, ?_, ?_⟩
    · change IsNormalText (if hostName = "node" then some nodeId else none)
      split
      next isNode =>
        have named : nodeId ≠ "" := fun unnamed => hasNode ⟨isNode, unnamed⟩
        have normal := isNormalText_bind params.nodeId
        cases isNamed : params.nodeId.bind SessionKeys.normalizeOptionalString with
        | none => exact absurd (by simp [nodeId, isNamed]) named
        | some name =>
          have isNodeId : nodeId = name := by simp [nodeId, isNamed]
          rw [isNamed] at normal
          rwa [isNodeId]
      · rfl
    · intro isNode
      have named : hostName = "node" := by
        change (if hostName = "" then none else some hostName) = some "node" at isNode
        split at isNode
        · exact absurd isNode (by simp)
        · exact Option.some.inj isNode
      cases planned : context.plan with
      | none => exact absurd ⟨named, by simp [planned]⟩ hasPlan
      | some plan => exact ⟨plan, planned, normal_of_requestContext planned⟩
    · intro binding isBinding
      change (if hostName = "node" then
            some (buildSystemRunApprovalBinding host (context.commandArgv.getD [])
                context.cwd context.agentId context.sessionKey params.env).1
          else none) = some binding at isBinding
      split at isBinding
      · cases isBinding
        rfl
      · exact absurd isBinding (by simp)

end ExecApprovalManager.WellFormed

theorem refuseRecord_eq_none {host : SystemRunHost} {snapshot : ExecApprovalRecord}
    {call : ForwardingCall} {raw : JsonRecord} {runId : String}
    (admitted : refuseRecord host snapshot call raw runId = none) :
    call.nowMs ≤ snapshot.expiresAtMs ∧
      (∃ nodeId, call.nodeId.bind SessionKeys.normalizeOptionalString = some nodeId ∧
        snapshot.request.nodeId.bind SessionKeys.normalizeOptionalString = some nodeId) ∧
      refuseRequester host snapshot raw call.client runId = none := by
  unfold refuseRecord at admitted
  split at admitted
  · exact absurd admitted (by simp)
  next unexpired =>
    split at admitted
    · exact absurd admitted (by simp)
    next targetNodeId target =>
      split at admitted
      · exact absurd admitted (by simp)
      next approvalNodeId approval =>
        split at admitted
        · exact absurd admitted (by simp)
        next same =>
          have isTarget : approvalNodeId = targetNodeId := not_not.mp same
          exact ⟨not_lt.mp unexpired, ⟨targetNodeId, target, isTarget ▸ approval⟩, admitted⟩

theorem sameRequester_of_refuseRequester {host : SystemRunHost}
    {snapshot : ExecApprovalRecord} {raw : JsonRecord} {client : Option ApprovalClient}
    {runId : String} (admitted : refuseRequester host snapshot raw client runId = none)
    (requester : HasRequester host snapshot raw client) :
    SameRequester host snapshot raw client := by
  unfold refuseRequester at admitted
  cases device : truthyText snapshot.requestedByDeviceId with
  | some deviceId =>
    simp only [device] at admitted
    split at admitted
    · exact absurd admitted (by simp)
    next same =>
      have recorded := (filter_eq_some_iff.mp device).1
      exact .inl ⟨deviceId, recorded, not_not.mp same⟩
  | none =>
    simp only [device] at admitted
    cases connection : truthyText snapshot.requestedByConnId with
    | none =>
      simp only [HasRequester, device, connection, isSome_none, Bool.false_or,
        Bool.or_eq_true] at requester
      exact .inr (.inr requester)
    | some connId =>
      simp only [connection] at admitted
      split at admitted
      · exact absurd admitted (by simp)
      next bridged =>
        by_cases same : client.bind ApprovalClient.connId = some connId
        · have recorded := (filter_eq_some_iff.mp connection).1
          exact .inr (.inl ⟨connId, recorded, same⟩)
        · by_cases plain : canBridgeNoDeviceApprovalFromBackend host snapshot client
          · exact .inr (.inr (.inl plain))
          · refine .inr (.inr (.inr ?_))
            by_contra chat
            exact bridged ⟨same, by simpa using plain, by simpa using chat⟩

theorem isApproved_approve (next : JsonRecord) (decision : ExecApprovalDecision) :
    isApproved (approve next decision).toJson := by
  simp [isApproved, approve, OrderedMap.get?_set, isTrue]

namespace Released

variable
  {host : SystemRunHost} {manager after : ExecApprovalManager} {call : ForwardingCall}
  {forwarded : JsonValue} {raw : JsonRecord} {runId : String} {index : ℕ} {entry : PendingEntry}
  {context : ApprovalRuntimeContext} {decision : ExecApprovalDecision}

section

variable
  (released : Released host manager call forwarded after raw runId index entry context decision)
include released

theorem runId_eq : call.runId = some runId := by
  simp [ForwardingCall.runId, released.asked.1, released.named]

theorem of_meets (met : meets host manager call) : Replays entry.record raw call.client = false ∧
      HasRequester host entry.record raw call.client := by
  have snapshot : manager.getSnapshot runId = some entry.record := by
    simp [getSnapshot, released.found]
  simpa [meets, released.asked.1, released.runId_eq, snapshot, released.asked.2] using met

theorem outcomes_of_looksTimedOut
    (wellFormed : manager.WellFormed host) (met : meets host manager call)
    (timedOut : LooksTimedOut entry.record raw call.client) : entry.outcomes = [.expired none] := by
  obtain ⟨resolved, undecided, unnamed, approved, asksOnce, mayApprove⟩ := timedOut
  have stored := storedEntry_eq_some released.found
  have phased := wellFormed.phased entry (List.mem_of_getElem? stored.2)
  have noReplay := (released.of_meets met).1
  apply phased.not_decided _ ⟨resolved, undecided, unnamed⟩
  left
  simpa [Replays, unnamed, approved, asksOnce, mayApprove] using noReplay

theorem allows (wellFormed : manager.WellFormed host) (met : meets host manager call) :
    entry.Allows call.client := by
  have stored := storedEntry_eq_some released.found
  have phased := wellFormed.phased entry (List.mem_of_getElem? stored.2)
  have outcome_of_decision : ∀ {taken : ExecApprovalDecision}, entry.record.decision = some taken →
        ∃ resolvedBy, Outcome.decided taken resolvedBy ∈ entry.outcomes := by
    intro taken isTaken
    cases phased with
    | pending _ undecided => simp [undecided] at isTaken
    | decided decided resolvedBy _ isDecided outcome =>
      rw [isDecided] at isTaken
      cases isTaken
      exact ⟨resolvedBy, by simp [outcome]⟩
    | consumed _ _ gone => simp [gone] at isTaken
    | expired _ _ undecided => simp [undecided] at isTaken
  rcases released.decided with ⟨once, _⟩ | ⟨always, _⟩ | ⟨timedOut, _⟩
  · exact .inl (outcome_of_decision once)
  · exact .inr (.inl (outcome_of_decision always))
  · have outcomes := released.outcomes_of_looksTimedOut wellFormed met timedOut
    obtain ⟨_, _, _, _, _, mayApprove⟩ := timedOut
    exact .inr (.inr ⟨by simp [outcomes], by simp [outcomes], mayApprove⟩)

end

/-- An approved call under the condition is bound to its record. -/
theorem bound (injective : Function.Injective host.sha256)
    (released : Released host manager call forwarded after raw runId index entry context decision)
    (wellFormed : manager.WellFormed host) (met : meets host manager call) :
    ∃ plan, BoundTo host manager call forwarded raw runId index entry plan := by
  have stored := storedEntry_eq_some released.found
  have requested := wellFormed.requested entry (List.mem_of_getElem? stored.2)
  obtain ⟨unexpired, ⟨nodeId, target, approval⟩, admitted⟩ :=
    refuseRecord_eq_none released.admitted
  have matched := released.matched
  unfold evaluateSystemRunApprovalMatch at matched
  split at matched
  · exact absurd matched (by simp)
  next isNode =>
    obtain ⟨plan, planned, normal⟩ := requested.planned (not_not.mp isNode)
    cases bindings : entry.record.request.systemRunBinding with
    | none => simp [bindings] at matched
    | some expected =>
      simp only [bindings] at matched
      have same := eq_of_matchSystemRunApprovalBinding matched
      have sameEntries : normalizeSystemRunEnvEntries host entry.env =
            normalizeSystemRunEnvEntries host (raw.get? "env") := by
        apply entries_eq_of_hash_eq injective
        rw [← requested.bound expected bindings, same]
        rfl
      have resolved := released.resolved
      rw [planned, map_some, resolveSystemRunApprovalRuntimeContext,
        normalizeSystemRunApprovalPlan_toJson normal] at resolved
      have isPlan : context.plan = some plan := by
        rw [← Except.ok.inj resolved]
      have members := get?_approve_applyPlan (pickSystemRunParams raw) plan decision
      have isForwarded := released.result
      rw [isPlan, elim_some] at isForwarded
      have forwardedEnv : "env" ∈ forwardedKeys := by decide
      refine ⟨plan, released.asked, released.named,
        ⟨released.found, wellFormed.id_of_storedEntry released.found⟩, unexpired,
        ⟨nodeId, target, ?_⟩, sameRequester_of_refuseRequester admitted (released.of_meets met).2,
        released.allows wellFormed met, planned, ?_, ?_, ?_, ?_, ?_, ?_⟩
      · rw [← approval]
        exact requested.node.symm
      · rw [isForwarded, JsonRecord.member?_toJson]
        exact members.1
      · rw [isForwarded, JsonRecord.member?_toJson]
        exact members.2.1
      · rw [isForwarded, JsonRecord.member?_toJson]
        exact members.2.2.1
      · rw [isForwarded, JsonRecord.member?_toJson]
        exact members.2.2.2.1
      · rw [isForwarded, JsonRecord.member?_toJson]
        exact members.2.2.2.2.1
      · rw [isForwarded, JsonRecord.member?_toJson, members.2.2.2.2.2,
          get?_pickSystemRunParams, if_pos forwardedEnv]
        exact sameEntries.symm

end Released

namespace ExecApprovalManager.WellFormed

variable {host : SystemRunHost} {manager : ExecApprovalManager}

/-- Keeping approved parameters with an entry. -/
def keepForward (forwarded : JsonValue) (entry : PendingEntry) : PendingEntry :=
  { entry with forwards := entry.forwards ++ [forwarded] }

variable {call : ForwardingCall} {after : ExecApprovalManager}

theorem recordForward_of_released {forwarded : JsonValue}
    {raw : JsonRecord} {runId : String} {index : ℕ}
    {entry : PendingEntry} {context : ApprovalRuntimeContext} {decision : ExecApprovalDecision}
    (released : Released host manager call forwarded after raw runId index entry context decision)
    (pending : after.pending = manager.pending) (present : (after.entries[index]?).isSome) :
    recordForward after call (.ok forwarded) = after.modifyEntry index (keepForward forwarded) := by
  obtain ⟨stored, isStored⟩ := isSome_iff_exists.mp present
  have isPlace := (storedEntry_eq_some released.found).1
  have found : after.storedEntry runId = some (index, stored) := by
    simp [storedEntry, pending, isPlace, isStored]
  have approved : isApproved forwarded := by
    rw [released.result]
    exact isApproved_approve _ decision
  simp only [recordForward, released.runId_eq, bind_some, found, approved, if_true]
  rfl

section

variable (wellFormed : manager.WellFormed host)
include wellFormed

theorem forward (met : meets host manager call)
    (stepped : approvalStep host manager (.forward call) = some after) : after.WellFormed host := by
  simp only [approvalStep] at stepped
  rcases sanitize_cases host manager call with
    ⟨unchanged, unapproved⟩ |
      ⟨forwarded, middle, raw, runId, index, entry, context, decision, result, released⟩
  · rw [unchanged, map_some, Option.some.injEq] at stepped
    subst stepped
    cases result : (sanitizeSystemRunParamsForForwarding host (some manager) call).1 with
    | error refusal => exact wellFormed
    | ok forwarded =>
      have kept : recordForward manager call (.ok forwarded) = manager := by
        have refused := unapproved forwarded result
        unfold recordForward
        cases call.runId.bind manager.storedEntry with
        | none => rfl
        | some place => simp [refused]
      rwa [kept]
  · rw [result, map_some, Option.some.injEq] at stepped
    have stored := (storedEntry_eq_some released.found).2
    have phased := wellFormed.phased entry (List.mem_of_getElem? stored)
    have only : ∀ other, manager.entries[index]? = some other → other = entry := by
      intro other isOther
      rw [stored] at isOther
      exact (Option.some.inj isOther).symm
    rcases released.decided with ⟨once, rfl⟩ | ⟨always, rfl⟩ | ⟨timedOut, rfl⟩
    · have recorded :=
        recordForward_of_released released rfl (by simp [ExecApprovalManager.modifyEntry, stored])
      have composed : (manager.modifyEntry index PendingEntry.consume).modifyEntry index
              (keepForward forwarded) =
            manager.modifyEntry index (keepForward forwarded ∘ PendingEntry.consume) := by
        simp [ExecApprovalManager.modifyEntry, List.modify_modify_eq]
      rw [← stepped, recorded, composed]
      apply wellFormed.modifyEntry
      · intro other
        exact ⟨rfl, rfl, rfl⟩
      · intro other isOther
        obtain rfl := only other isOther
        cases phased with
        | pending _ undecided => simp [undecided] at once
        | decided decided resolvedBy resolved isDecided outcome unused =>
          rw [isDecided] at once
          cases once
          refine .consumed resolvedBy resolved rfl isDecided outcome ?_
          simp [keepForward, PendingEntry.consume, unused rfl]
        | consumed _ _ gone => simp [gone] at once
        | expired _ _ undecided => simp [undecided] at once
    · have recorded := recordForward_of_released released rfl (by simp [stored])
      rw [← stepped, recorded]
      apply wellFormed.modifyEntry
      · intro other
        exact ⟨rfl, rfl, rfl⟩
      · intro other isOther
        obtain rfl := only other isOther
        cases phased with
        | pending _ undecided => simp [undecided] at always
        | decided decided resolvedBy resolved isDecided outcome unused =>
          rw [isDecided] at always
          cases always
          exact .decided .allowAlways resolvedBy resolved isDecided outcome
            ExecApprovalDecision.noConfusion
        | consumed _ _ gone => simp [gone] at always
        | expired _ _ undecided => simp [undecided] at always
    · have recorded := recordForward_of_released released rfl (by simp [stored])
      have outcomes := released.outcomes_of_looksTimedOut wellFormed met timedOut
      obtain ⟨resolved, undecided, unnamed, _⟩ := timedOut
      rw [← stepped, recorded]
      apply wellFormed.modifyEntry
      · intro other
        exact ⟨rfl, rfl, rfl⟩
      · intro other isOther
        obtain rfl := only other isOther
        exact .expired none resolved (isNone_iff_eq_none.mp undecided)
          (isNone_iff_eq_none.mp unnamed) outcomes

theorem step {action : ApprovalAction} (met : stepMeets host manager action)
    (stepped : approvalStep host manager action = some after) : after.WellFormed host := by
  cases action with
  | request params client now randomUuid =>
    cases stepped
    cases accepted :
      SystemRunApprovals.execApprovalRequest host manager params client now randomUuid with
    | ok registered => exact wellFormed.execApprovalRequest accepted
    | error message => exact wellFormed
  | resolve recordId decision resolvedBy now =>
    cases stepped
    exact wellFormed.resolve recordId decision resolvedBy now
  | expire recordId resolvedBy now =>
    cases stepped
    exact wellFormed.expire recordId resolvedBy now
  | cleanup recordId index => exact wellFormed.cleanup stepped
  | forward call => exact wellFormed.forward met stepped

theorem usedOnce : UsedOnce manager := by
  intro entry member resolvedBy decided
  cases wellFormed.phased entry member with
  | pending _ _ _ noOutcome => simp [noOutcome] at decided
  | decided decision byWhom _ _ outcome unused =>
    rw [outcome, List.mem_singleton] at decided
    obtain ⟨rfl, rfl⟩ := Outcome.decided.inj decided
    simp [unused rfl]
  | consumed _ _ _ _ _ usedOnce => exact usedOnce.le
  | expired _ _ _ _ outcome => simp [outcome] at decided

end

end ExecApprovalManager.WellFormed

/-- The managers of runs whose steps all meet the condition. -/
def SafelyReachable (host : SystemRunHost) (manager : ExecApprovalManager) : Prop :=
  TransitionSystem.Reachable
    (TransitionSystem.Restricted (ApprovalSteps host)
      fun source action => stepMeets host source action)
    (· = initial) manager

/--
In a run in which no call takes a consumed decision for a time-out or uses a record that
nobody requested, approvals are bound to their records and used once.
-/
theorem bound_and_usedOnce_of_safelyReachable (host : SystemRunHost)
    (injective : Function.Injective host.sha256) (manager : ExecApprovalManager)
    (reachable : SafelyReachable host manager) :
    (∀ call, meets host manager call → BoundCall host manager call) ∧ UsedOnce manager := by
  have wellFormed : manager.WellFormed host := by
    refine TransitionSystem.Reachable.invariant ?_ ?_ reachable
    · rintro _ rfl
      exact ExecApprovalManager.WellFormed.initial
    · intro source action target taken wellFormed
      exact wellFormed.step taken.1 taken.2
  refine ⟨?_, wellFormed.usedOnce⟩
  intro call met forwarded isForwarded approved
  rcases sanitize_cases host manager call with
    ⟨_, unapproved⟩ | ⟨other, after, raw, runId, index, entry, context, decision, result, released⟩
  · rw [unapproved forwarded isForwarded] at approved
    exact absurd approved (by simp)
  · rw [result] at isForwarded
    obtain rfl := Except.ok.inj isForwarded
    obtain ⟨plan, bound⟩ := released.bound injective wellFormed met
    exact ⟨raw, runId, index, entry, plan, bound⟩

/-- A text spelled so that its end can be told. -/
def spell (characters : List Char) : List Char :=
  (characters.flatMap fun character => ['+', character]) ++ ['.']

theorem spell_append_inj {left right : List Char} {leftRest rightRest : List Char}
    (same : spell left ++ leftRest = spell right ++ rightRest) :
    left = right ∧ leftRest = rightRest := by
  induction left generalizing right with
  | nil =>
    cases right with
    | nil => exact ⟨rfl, by simpa [spell] using same⟩
    | cons second others => simp [spell] at same
  | cons first rest inductionHypothesis =>
    cases right with
    | nil => simp [spell] at same
    | cons second others =>
      have heads : first = second ∧ spell rest ++ leftRest = spell others ++ rightRest := by
        simpa [spell] using same
      obtain ⟨rfl, sameRest⟩ := inductionHypothesis heads.2
      exact ⟨by rw [heads.1], sameRest⟩

def spellEntries (entries : List (String × String)) : List Char :=
  entries.flatMap fun entry => '+' :: (spell entry.1.toList ++ spell entry.2.toList)

theorem spellEntries_injective : Function.Injective spellEntries := by
  intro left
  induction left with
  | nil =>
    intro right same
    cases right with
    | nil => rfl
    | cons second others => simp [spellEntries] at same
  | cons first rest inductionHypothesis =>
    intro right same
    cases right with
    | nil => simp [spellEntries] at same
    | cons second others =>
      have spelled : spell first.1.toList ++ (spell first.2.toList ++ spellEntries rest) =
            spell second.1.toList ++ (spell second.2.toList ++ spellEntries others) := by
        simpa [spellEntries] using same
      obtain ⟨sameKey, sameTail⟩ := spell_append_inj spelled
      obtain ⟨sameValue, sameRest⟩ := spell_append_inj sameTail
      rw [inductionHypothesis sameRest,
        Prod.ext (String.toList_inj.mp sameKey) (String.toList_inj.mp sameValue)]

/-- A host whose hash spells the entries out. -/
def spellingHost : SystemRunHost where
  otherText := fun _ => ""
  numberText := fun _ => "0"
  toLowerCase := id
  localeAtMost := fun left right => left ≤ right
  sha256 := fun entries => ⟨String.ofList ('#' :: spellEntries entries), by
    intro empty
    have characters := congrArg String.toList empty
    simp at characters⟩
  commandExceedsDisplay := fun _ => false
  shellReader :=
    { extractShellWrapperCommand := fun _ _ => ⟨false, none⟩
      hasEnvManipulationBeforeShellWrapper := fun _ => false
      hasTrailingPositionalArgvAfterInlineCommand := fun _ => false }

theorem spellingHost_injective : Function.Injective spellingHost.sha256 := by
  intro left right same
  have texts : String.ofList ('#' :: spellEntries left) =
      String.ofList ('#' :: spellEntries right) :=
    congrArg Subtype.val same
  have characters := congrArg String.toList texts
  simp only [String.toList_ofList, List.cons.injEq, true_and] at characters
  exact spellEntries_injective characters

def operatorClient : ApprovalClient where
  connId := some "conn-1"
  isDeviceTokenAuth := false
  scopes := ["operator.approvals"]
  clientId := some "cli"
  mode := some "cli"
  deviceId := some "device-1"

def listingRequest : ExecApprovalRequestParams where
  id := some "approval-1"
  systemRunPlan :=
    some
      (.object
        [("argv", .array [.string "ls"]), ("cwd", .null), ("commandText", .string "ls"),
          ("agentId", .null), ("sessionKey", .null)])
  nodeId := some "node-1"
  host := some "node"

def listingCall : ForwardingCall where
  nodeId := some "node-1"
  rawParams :=
    .object
      [("command", .array [.string "ls"]), ("runId", .string "approval-1"),
        ("approved", .bool true), ("approvalDecision", .string "allow-once")]
  client := some operatorClient
  nowMs := 2

/-- An approval without a resolver's name, and two calls that use it. -/
def replayedApproval : List ApprovalAction :=
  [.request listingRequest (some operatorClient) 0 "", .resolve "approval-1" .allowOnce none 1,
    .forward listingCall, .forward listingCall]

/-- A client inside the gateway, without a connection and without a device. -/
def internalClient : ApprovalClient where
  connId := none
  isDeviceTokenAuth := false
  scopes := ["operator.approvals"]
  clientId := some "gateway-client"
  mode := some "backend"
  deviceId := none

/-- An approval without a requesting device or connection, for any caller to use. -/
def unclaimedApproval : List ApprovalAction :=
  [.request listingRequest (some internalClient) 0 "",
    .resolve "approval-1" .allowOnce (some "operator") 1]

/-- A consumed approval lets a second call through, and an unclaimed one a stranger. -/
theorem not_bound_and_usedOnce_replayed :
    (∃ manager,
        TransitionSystem.Reachable (ApprovalSteps spellingHost) (· = initial) manager ∧
        ¬UsedOnce manager) ∧
      ∃ manager,
        TransitionSystem.Reachable (ApprovalSteps spellingHost) (· = initial) manager ∧
        ¬BoundCall spellingHost manager listingCall := by
  constructor
  · have executed : (replayedApproval.foldlM (approvalStep spellingHost) .initial).map
            (fun manager =>
              manager.entries.map fun entry => (entry.outcomes, entry.forwards.length)) =
          some [([.decided .allowOnce none], 2)] := by
      decide +kernel
    obtain ⟨manager, reached, entries⟩ := map_eq_some_iff.mp executed
    refine ⟨manager, ⟨_, _, rfl, TransitionSystem.Run.of_foldlM reached⟩, ?_⟩
    intro once
    have member : (([.decided .allowOnce none], 2) : List Outcome × ℕ) ∈
          manager.entries.map fun entry => (entry.outcomes, entry.forwards.length) := by
      simp [entries]
    obtain ⟨entry, isEntry, same⟩ := List.mem_map.mp member
    obtain ⟨outcomes, uses⟩ := Prod.mk.inj same
    have atMostOne := once entry isEntry none (by simp [outcomes])
    omega
  · have executed : (unclaimedApproval.foldlM (approvalStep spellingHost) .initial).map
            (fun manager => ((sanitizeSystemRunParamsForForwarding spellingHost (some manager)
                  listingCall).1.toOption.any isApproved,
                (manager.getSnapshot "approval-1").map fun record =>
                  (record.requestedByDeviceId, record.requestedByConnId))) =
          some (true, some (none, none)) := by
      decide +kernel
    obtain ⟨manager, reached, answers⟩ := map_eq_some_iff.mp executed
    refine ⟨manager, ⟨_, _, rfl, TransitionSystem.Run.of_foldlM reached⟩, ?_⟩
    intro bound
    obtain ⟨isReleased, isUnclaimed⟩ := Prod.mk.inj answers
    obtain ⟨forwarded, isForwarded, approved⟩ := (any_eq_true _ _).mp isReleased
    have result : (sanitizeSystemRunParamsForForwarding spellingHost (some manager) listingCall).1 =
          .ok forwarded := by
      cases outcome :
        (sanitizeSystemRunParamsForForwarding spellingHost (some manager) listingCall).1 with
      | error refusal => simp [outcome, Except.toOption] at isForwarded
      | ok other =>
        simp only [outcome, Except.toOption, Option.some.injEq] at isForwarded
        rw [isForwarded]
    obtain ⟨raw, runId, index, entry, plan, isBound⟩ := bound forwarded result approved
    have named : listingCall.runId = some "approval-1" := by decide +kernel
    have isNamed : listingCall.runId = some runId := by
      simp [ForwardingCall.runId, isBound.asked.1, isBound.named]
    obtain rfl : "approval-1" = runId := Option.some.inj (named.symm.trans isNamed)
    have snapshot : manager.getSnapshot "approval-1" = some entry.record := by
      simp [getSnapshot, isBound.stored.1]
    rw [snapshot, map_some, Option.some.injEq, Prod.mk.injEq] at isUnclaimed
    have untrusted : isTrustedBackendApprovalClient (some operatorClient) = false := by
      decide +kernel
    rcases isBound.requester with ⟨_, device, _⟩ | ⟨_, connection, _⟩ | plain | chat
    · rw [isUnclaimed.1] at device
      exact absurd device (by simp)
    · rw [isUnclaimed.2] at connection
      exact absurd connection (by simp)
    · simp [canBridgeNoDeviceApprovalFromBackend, listingCall, untrusted] at plain
    · simp [canBridgeNoDeviceChatApprovalFromBackend, listingCall, untrusted] at chat

/-- A named operator approves once, and the approval is used. -/
def namedApproval : List ApprovalAction :=
  [.request listingRequest (some operatorClient) 0 "",
    .resolve "approval-1" .allowOnce (some "operator") 1]

theorem bound_and_usedOnce_of_safelyReachable_named :
    ∃ manager,
      (sanitizeSystemRunParamsForForwarding spellingHost (some manager)
          listingCall).1.toOption.any isApproved ∧
        (meets spellingHost manager listingCall ∧
          BoundCall spellingHost manager listingCall) ∧
          UsedOnce manager := by
  have executed : (namedApproval.foldlM (fun source action =>
            if stepMeets spellingHost source action then approvalStep spellingHost source action
            else none) .initial).map (fun manager =>
            ((sanitizeSystemRunParamsForForwarding spellingHost (some manager)
                listingCall).1.toOption.any isApproved, meets spellingHost manager listingCall)) =
        some (true, true) := by
    decide +kernel
  obtain ⟨manager, reached, answers⟩ := map_eq_some_iff.mp executed
  obtain ⟨isReleased, met⟩ := Prod.mk.inj answers
  have holds :=
    bound_and_usedOnce_of_safelyReachable spellingHost spellingHost_injective manager
      ⟨_, _, rfl, TransitionSystem.Run.restricted_of_foldlM reached⟩
  exact ⟨manager, isReleased, ⟨met, holds.1 listingCall met⟩, holds.2⟩

end SystemRunApprovals
