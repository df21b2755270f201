import AieClaw.ExecApprovalsPolicy

/-!
# Running a command on the gateway

Before a command runs the gateway looks at its policy and at the allowlist, and asks
an approver when it has to. The answer is read at one of four exits: a headless run,
a run for another session, a wait inside the call, and a wait in the background.
-/

namespace ExecApprovals

structure ExecSegment where
  argv : List String
  /-- The path that an audit of the approval trusts. -/
  auditTrustPath : Option String

/-- What the evaluation of a command against the allowlist comes to. -/
structure AllowlistEvaluation where
  analysisOk : Bool
  allowlistSatisfied : Bool
  allowlistMatches : List ExecAllowlistEntry
  segments : List ExecSegment
  segmentAllowlistEntries : List (Option ExecAllowlistEntry)

inductive ApprovalFollowupMode where
  | agent
  | direct
  deriving DecidableEq

structure GatewayParams where
  command : String
  security : ExecSecurity
  ask : ExecAsk
  strictInlineEval : Bool
  trigger : Option String
  agentId : Option String
  turnSourceChannel : Option String
  turnSourceAccountId : Option String
  approvalFollowupMode : Option ApprovalFollowupMode
  inputProvenanceKind : Option String

inductive InitiatingSurface where
  | enabled
  | disabled
  | unsupported
  deriving DecidableEq

/-- The parts of the gateway that look at the command, the platform and the channel. -/
structure GatewayHost extends ApprovalsHost where
  evaluateShellAllowlist : GatewayParams → List ExecAllowlistEntry → AllowlistEvaluation
  detectPolicyInlineEval : List ExecSegment → Option String
  /-- The command that enforces the allowlist, or why there is none. -/
  buildEnforcedShellCommand : String → List ExecSegment → Except String String
  commandRequiresSecurityAuditSuppressionApproval : String → List ExecSegment → Bool
  resolveAllowAlwaysPatternEntries : GatewayParams → List ExecSegment →
    List (String × Option String)
  resolveInitiatingSurface : Option String → Option String → InitiatingSurface
  isInternalMessageChannel : Option String → Bool

/-- How the request for an approval goes. -/
structure ApprovalRequest where
  approvalId : String
  /-- The registration fails, or has a final decision, if any; `some none` is `null`. -/
  registration : Except String (Option (Option String))
  /-- Waiting fails with a message, or ends with a decision, if any. -/
  wait : Except String (Option String)

structure BaseDecision where
  approvedByAsk : Bool
  deniedReason : Option String
  timedOut : Bool

/-- An empty decision is none. -/
def resolveBaseExecApprovalDecision (decision : Option String) (askFallback : ExecSecurity) :
    BaseDecision :=
  if decision = some "deny" then
    { approvedByAsk := false, deniedReason := some "user-denied", timedOut := false }
  else if decision.getD "" = "" then
    match askFallback with
    | .full => { approvedByAsk := true, deniedReason := none, timedOut := true }
    | .deny =>
      { approvedByAsk := false, deniedReason := some "approval-timeout", timedOut := true }
    | .allowlist => { approvedByAsk := false, deniedReason := none, timedOut := true }
  else { approvedByAsk := false, deniedReason := none, timedOut := false }

def enforceStrictInlineEvalApprovalBoundary (timedOut approvedByAsk : Bool)
    (deniedReason : Option String) (requiresInlineEvalApproval : Bool) : Bool × Option String :=
  if !timedOut || !requiresInlineEvalApproval || !approvedByAsk then (approvedByAsk, deniedReason)
  else (false, some (deniedReason.getD "approval-timeout"))

/-- A request that has expired counts as one without a decision. -/
def waitForExecApprovalDecision (toLowerCase : String → String)
    (wait : Except String (Option String)) : Except String (Option String) :=
  match wait with
  | .ok decision => .ok decision
  | .error message =>
    if JsString.includesText (JsString.trim (toLowerCase message))
        "approval expired or not found" then
      .ok none
    else .error message

/-- The decision, or nothing when the request itself failed. -/
def resolveApprovalDecisionOrUndefined (toLowerCase : String → String)
    (preResolvedDecision : Option (Option String)) (wait : Except String (Option String)) :
    Option (Option String) :=
  match preResolvedDecision with
  | some decision => some decision
  | none => (waitForExecApprovalDecision toLowerCase wait).toOption

def hasGatewayAllowlistMiss (hostSecurity : ExecSecurity)
    (analysisOk allowlistSatisfied durableApprovalSatisfied : Bool) : Bool :=
  hostSecurity = .allowlist && (!analysisOk || !allowlistSatisfied) && !durableApprovalSatisfied

inductive UnavailableReason where
  | noApprovalRoute
  | initiatingPlatformDisabled
  | initiatingPlatformUnsupported
  deriving DecidableEq

def resolveUnavailableReason (preResolvedDecision : Option (Option String))
    (surface : InitiatingSurface) : Option UnavailableReason :=
  if preResolvedDecision = some none then some .noApprovalRoute
  else
    match surface with
    | .disabled => some .initiatingPlatformDisabled
    | .unsupported => some .initiatingPlatformUnsupported
    | .enabled => none

def isHeadlessExecTrigger (trigger : Option String) : Bool := trigger = some "cron"

def shouldResolveExecApprovalUnavailableInline (trigger : Option String)
    (unavailableReason : Option UnavailableReason) (preResolvedDecision : Option (Option String)) :
    Bool :=
  isHeadlessExecTrigger trigger && unavailableReason = some .noApprovalRoute &&
    preResolvedDecision = some none

/-- The policy and the evaluation that a command is judged by. -/
structure GatewayContext where
  approvals : ExecApprovalsResolved
  hostSecurity : ExecSecurity
  hostAsk : ExecAsk
  askFallback : ExecSecurity
  evaluation : AllowlistEvaluation
  allowlistSatisfied : Bool
  durableApprovalSatisfied : Bool
  requiresInlineEvalApproval : Bool
  enforcedCommand : Option String
  requiresAsk : Bool

def GatewayContext.hasMiss (context : GatewayContext) : Bool :=
  hasGatewayAllowlistMiss context.hostSecurity context.evaluation.analysisOk
    context.allowlistSatisfied context.durableApprovalSatisfied

section Gateway

variable (host : GatewayHost)

def hasHeredocSegment (segments : List ExecSegment) : Bool :=
  segments.any fun segment => segment.argv.any fun token => JsString.startsWith token "<<"

variable (params : GatewayParams)

/-- The context of a command, unless the policy denies everything. -/
def gatewayContext (disk : Option ExecApprovalsFile) :
    Except String GatewayContext :=
  let approvals := resolveExecApprovalsFromFile host.toApprovalsHost
    (ensureExecApprovals host.toApprovalsHost disk) params.agentId params.security params.ask
  let hostSecurity := minSecurity params.security approvals.agent.security
  let hostAsk := maxAsk params.ask approvals.agent.ask
  let askFallback := minSecurity hostSecurity approvals.agent.askFallback
  if hostSecurity = .deny then .error "exec denied: host=gateway security=deny"
  else
    let evaluation := host.evaluateShellAllowlist params approvals.allowlist
    let analysisOk := evaluation.analysisOk
    let allowlistSatisfied :=
      hostSecurity = .allowlist && analysisOk && evaluation.allowlistSatisfied
    let durableApprovalSatisfied := hasDurableExecApproval host.toApprovalsHost analysisOk
      evaluation.segmentAllowlistEntries approvals.allowlist params.command
    let requiresInlineEvalApproval :=
      params.strictInlineEval && (host.detectPolicyInlineEval evaluation.segments).isSome
    let enforced := host.buildEnforcedShellCommand params.command evaluation.segments
    let enforcedCommand := if allowlistSatisfied then enforced.toOption.filter (· ≠ "") else none
    let requiresAllowlistPlanApproval := allowlistSatisfied && enforcedCommand.isNone
    let requiresHeredocApproval := allowlistSatisfied && hasHeredocSegment evaluation.segments
    let requiresSecurityAuditSuppressionApproval :=
      host.commandRequiresSecurityAuditSuppressionApproval params.command evaluation.segments &&
        !(hostSecurity = .full && hostAsk = .off)
    .ok
      { approvals := approvals
        hostSecurity := hostSecurity
        hostAsk := hostAsk
        askFallback := askFallback
        evaluation := evaluation
        allowlistSatisfied := allowlistSatisfied
        durableApprovalSatisfied := durableApprovalSatisfied
        requiresInlineEvalApproval := requiresInlineEvalApproval
        enforcedCommand := enforcedCommand
        requiresAsk :=
          requiresExecApproval hostAsk hostSecurity analysisOk allowlistSatisfied
              durableApprovalSatisfied ||
            requiresAllowlistPlanApproval || requiresHeredocApproval ||
              requiresInlineEvalApproval || requiresSecurityAuditSuppressionApproval }

/-- What the wait in the background comes to. -/
inductive BackgroundOutcome where
  | requestFailed
  | denied (followup : String)
  | runs (execCommand : Option String)
  deriving DecidableEq

inductive GatewayResult where
  | throws (message : String)
  | deniedResult (text : String)
  | pendingResult (background : BackgroundOutcome)
  | proceeds (execCommandOverride : Option String) (allowWithoutEnforcedCommand : Bool)
  deriving DecidableEq

/-- The command is started: at once by the caller, or later in the background. -/
def GatewayResult.Starts : GatewayResult → Prop
  | .proceeds _ _ => True
  | .pendingResult (.runs _) => True
  | _ => False

structure ApprovalDecision where
  deniedReason : Option String
  requestFailed : Bool

/-- What a decision of the approver, or the lack of one, comes to. -/
def judgeDecision (context : GatewayContext) (decision : Option String) : ApprovalDecision :=
  let base := resolveBaseExecApprovalDecision decision context.askFallback
  let judged : Bool × Option String :=
    if base.timedOut ∧ context.askFallback = .allowlist then
      if !context.evaluation.analysisOk || !context.allowlistSatisfied then
        (base.approvedByAsk, some "approval-timeout: allowlist-miss")
      else (true, base.deniedReason)
    else if decision = some "allow-once" ∨ decision = some "allow-always" then
      (true, base.deniedReason)
    else (base.approvedByAsk, base.deniedReason)
  let enforced := enforceStrictInlineEvalApprovalBoundary base.timedOut judged.1 judged.2
    context.requiresInlineEvalApproval
  { deniedReason :=
      if !enforced.1 && context.hasMiss then some (enforced.2.getD "allowlist-miss")
      else enforced.2
    requestFailed := false }

def resolveApprovalForExecution (context : GatewayContext)
    (preResolvedDecision : Option (Option String)) (wait : Except String (Option String)) :
    ApprovalDecision :=
  match resolveApprovalDecisionOrUndefined host.toLowerCase preResolvedDecision wait with
  | none => { deniedReason := some "approval-request-failed", requestFailed := true }
  | some decision => judgeDecision context decision

def deniedText (approvalId deniedReason command : String) : String :=
  "Exec denied (gateway id=" ++ approvalId ++ ", " ++ deniedReason ++ "): " ++ command

/-- Only runs of the scheduler are headless. -/
def buildHeadlessExecApprovalDeniedMessage (context : GatewayContext) : String :=
  JsString.joinLines
    ["exec denied: Cron runs cannot wait for interactive exec approval.",
      "Effective host exec policy: security=" ++ context.hostSecurity.name ++ " ask=" ++
        context.hostAsk.name ++ " askFallback=" ++ context.askFallback.name,
      "Stricter values from tools.exec and ~/.openclaw/exec-approvals.json both apply.",
      "Fix one of these:",
      "- align both files to security=\"full\" and ask=\"off\" for trusted local automation",
      "- keep allowlist mode and add an explicit allowlist entry for this command",
      "- enable Web UI, terminal UI, or chat exec approvals and rerun interactively",
      "Tip: run \"openclaw doctor\" and \"openclaw approvals get --gateway\" to inspect " ++
        "the effective policy."]

/-- A headless run cannot wait, so the lack of a route is its decision. -/
def headlessExit (context : GatewayContext) (decision : Option String) : GatewayResult :=
  let base := resolveBaseExecApprovalDecision decision context.askFallback
  let enforced := enforceStrictInlineEvalApprovalBoundary base.timedOut base.approvedByAsk
    base.deniedReason context.requiresInlineEvalApproval
  if enforced.2.isSome || !enforced.1 then .throws (buildHeadlessExecApprovalDeniedMessage context)
  else .proceeds context.enforcedCommand context.enforcedCommand.isNone

/-- A run for another session waits, and runs also when the request failed. -/
def interSessionExit (context : GatewayContext) (decision : ApprovalDecision) : GatewayResult :=
  if decision.requestFailed then .proceeds context.enforcedCommand context.enforcedCommand.isNone
  else
    match decision.deniedReason with
    | some reason => .throws ("exec denied: " ++ reason)
    | none => .proceeds context.enforcedCommand context.enforcedCommand.isNone

def inlineExit (context : GatewayContext) (approvalId : String)
    (decision : ApprovalDecision) : GatewayResult :=
  match decision.deniedReason with
  | some reason => .deniedResult (deniedText approvalId reason params.command)
  | none => .proceeds context.enforcedCommand context.enforcedCommand.isNone

def backgroundExit (context : GatewayContext) (approvalId : String)
    (decision : ApprovalDecision) : BackgroundOutcome :=
  if decision.requestFailed then .requestFailed
  else
    match decision.deniedReason with
    | some reason => .denied (deniedText approvalId reason params.command)
    | none => .runs context.enforcedCommand

def shouldAwaitGatewayApprovalInline : Bool :=
  params.approvalFollowupMode ≠ some .direct &&
    host.isInternalMessageChannel params.turnSourceChannel

/-- The exit of a command that needs an approval. -/
def askForApproval (context : GatewayContext) (request : ApprovalRequest) :
    GatewayResult :=
  match request.registration with
  | .error message => .throws message
  | .ok preResolvedDecision =>
    let unavailableReason := resolveUnavailableReason preResolvedDecision
      (host.resolveInitiatingSurface params.turnSourceChannel params.turnSourceAccountId)
    if shouldResolveExecApprovalUnavailableInline params.trigger unavailableReason
        preResolvedDecision then
      headlessExit context none
    else
      let decision := resolveApprovalForExecution host context preResolvedDecision request.wait
      if params.inputProvenanceKind = some "inter_session" then interSessionExit context decision
      else if unavailableReason.isNone && shouldAwaitGatewayApprovalInline host params then
        inlineExit params context request.approvalId decision
      else .pendingResult (backgroundExit params context request.approvalId decision)

def processGatewayAllowlist (disk : Option ExecApprovalsFile)
    (request : ApprovalRequest) : GatewayResult :=
  match gatewayContext host params disk with
  | .error message => .throws message
  | .ok context =>
    if context.requiresAsk then askForApproval host params context request
    else if context.hasMiss then .throws "exec denied: allowlist miss"
    else .proceeds context.enforcedCommand false

end Gateway

def ApprovalRequest.answer (request : ApprovalRequest) (toLowerCase : String → String)
    (preResolvedDecision : Option (Option String)) : Option (Option String) :=
  resolveApprovalDecisionOrUndefined toLowerCase preResolvedDecision request.wait

/-- An approver allowed the command. -/
def IsConsent (decision : Option String) : Prop :=
  decision = some "allow-once" ∨ decision = some "allow-always"

def IsUndecided (decision : Option String) : Prop := decision.getD "" = ""

instance (decision : Option String) : Decidable (IsUndecided decision) :=
  inferInstanceAs (Decidable (decision.getD "" = ""))

/-- The fallback lets a command run that nobody decided on. -/
def GatewayContext.FallbackAllows (context : GatewayContext) : Prop :=
  context.requiresInlineEvalApproval = false ∧
    (context.askFallback = .full ∨
      (context.askFallback = .allowlist ∧ context.evaluation.analysisOk = true ∧
        context.allowlistSatisfied = true))

/-- A decision that is none of the three the gateway knows. -/
def IsUnknown (decision : Option String) : Prop :=
  ¬ IsUndecided decision ∧ ¬ IsConsent decision ∧ decision ≠ some "deny"

/-- The command may be started. -/
def MayStart (host : GatewayHost) (params : GatewayParams) (disk : Option ExecApprovalsFile)
    (request : ApprovalRequest) : Prop :=
  ∃ context, gatewayContext host params disk = .ok context ∧
    ((context.requiresAsk = false ∧ context.hasMiss = false) ∨
      ∃ preResolvedDecision decision,
        request.registration = .ok preResolvedDecision ∧
          request.answer host.toLowerCase preResolvedDecision = some decision ∧
            (IsConsent decision ∨ (IsUndecided decision ∧ context.FallbackAllows)))

/--
An approval is required, and the answer is read as consent although it is none: the
request of a run for another session failed, or the decision is unknown and the
allowlist is not missed.
-/
def Slips (host : GatewayHost) (params : GatewayParams) (disk : Option ExecApprovalsFile)
    (request : ApprovalRequest) : Prop :=
  ∃ context, gatewayContext host params disk = .ok context ∧ context.requiresAsk = true ∧
    ∃ preResolvedDecision, request.registration = .ok preResolvedDecision ∧
      ((params.inputProvenanceKind = some "inter_session" ∧
          request.answer host.toLowerCase preResolvedDecision = none) ∨
        ∃ decision, request.answer host.toLowerCase preResolvedDecision = some decision ∧
          IsUnknown decision ∧ context.hasMiss = false)

section Decisions

variable {context : GatewayContext} {decision : Option String}

theorem isUndecided_of_none : IsUndecided none := rfl

theorem not_isConsent_of_isUndecided (undecided : IsUndecided decision) : ¬ IsConsent decision := by
  rintro (rfl | rfl)
  · exact absurd undecided (by decide)
  · exact absurd undecided (by decide)

theorem ne_deny_of_isUndecided (undecided : IsUndecided decision) : decision ≠ some "deny" := by
  rintro rfl
  exact absurd undecided (by decide)

theorem judgeDecision_of_isUndecided (undecided : IsUndecided decision) :
    (judgeDecision context decision).deniedReason = none ↔ context.FallbackAllows := by
  have notDeny := ne_deny_of_isUndecided undecided
  have notConsent : ¬ (decision = some "allow-once" ∨ decision = some "allow-always") :=
    not_isConsent_of_isUndecided undecided
  have isEmpty : decision.getD "" = "" := undecided
  unfold judgeDecision resolveBaseExecApprovalDecision GatewayContext.FallbackAllows
    enforceStrictInlineEvalApprovalBoundary
  simp only [if_neg notDeny, if_pos isEmpty, if_neg notConsent]
  cases context.askFallback with
  | deny => simp
  | full =>
    cases context.requiresInlineEvalApproval with
    | false => simp
    | true => simp
  | allowlist =>
    cases context.evaluation.analysisOk with
    | false => simp
    | true =>
      cases context.allowlistSatisfied with
      | false => simp
      | true =>
        cases context.requiresInlineEvalApproval with
        | false => simp
        | true => simp

theorem judgeDecision_of_isConsent (consent : IsConsent decision) :
    (judgeDecision context decision).deniedReason = none := by
  rcases consent with rfl | rfl
  · simp [judgeDecision, resolveBaseExecApprovalDecision, enforceStrictInlineEvalApprovalBoundary]
  · simp [judgeDecision, resolveBaseExecApprovalDecision, enforceStrictInlineEvalApprovalBoundary]

theorem judgeDecision_of_deny : (judgeDecision context (some "deny")).deniedReason ≠ none := by
  simp [judgeDecision, resolveBaseExecApprovalDecision, enforceStrictInlineEvalApprovalBoundary]

theorem judgeDecision_of_isUnknown (unknown : IsUnknown decision) :
    (judgeDecision context decision).deniedReason = none ↔ context.hasMiss = false := by
  have notEmpty : ¬ decision.getD "" = "" := unknown.1
  have notConsent : ¬ (decision = some "allow-once" ∨ decision = some "allow-always") :=
    unknown.2.1
  unfold judgeDecision resolveBaseExecApprovalDecision enforceStrictInlineEvalApprovalBoundary
  simp only [if_neg unknown.2.2, if_neg notEmpty, if_neg notConsent]
  cases context.hasMiss with
  | false => simp
  | true => simp

theorem deniedReason_judgeDecision_eq_none_iff :
    (judgeDecision context decision).deniedReason = none ↔
      (IsConsent decision ∨ (IsUndecided decision ∧ context.FallbackAllows)) ∨
        (IsUnknown decision ∧ context.hasMiss = false) := by
  by_cases undecided : IsUndecided decision
  · rw [judgeDecision_of_isUndecided undecided]
    have known : ¬ IsUnknown decision := fun unknown => unknown.1 undecided
    simp [not_isConsent_of_isUndecided undecided, undecided, known]
  · by_cases consent : IsConsent decision
    · simp [judgeDecision_of_isConsent consent, consent]
    · by_cases denied : decision = some "deny"
      · subst denied
        simp [judgeDecision_of_deny, IsConsent, IsUndecided, IsUnknown]
      · have unknown : IsUnknown decision := ⟨undecided, consent, denied⟩
        rw [judgeDecision_of_isUnknown unknown]
        simp [consent, undecided, unknown]

end Decisions

section Exits

variable {host : GatewayHost} {params : GatewayParams} {context : GatewayContext}
  {decision : ApprovalDecision}

theorem fallbackAllows_of_headlessExit_starts : (headlessExit context none).Starts →
      context.FallbackAllows := by
  unfold headlessExit resolveBaseExecApprovalDecision GatewayContext.FallbackAllows
    enforceStrictInlineEvalApprovalBoundary
  cases context.askFallback with
  | deny => simp [GatewayResult.Starts]
  | allowlist => simp [GatewayResult.Starts]
  | full =>
    cases context.requiresInlineEvalApproval with
    | false => simp [GatewayResult.Starts]
    | true => simp [GatewayResult.Starts]

theorem interSessionExit_starts_iff : (interSessionExit context decision).Starts ↔
      decision.requestFailed = true ∨ decision.deniedReason = none := by
  unfold interSessionExit
  cases decision.requestFailed with
  | true => simp [GatewayResult.Starts]
  | false =>
    cases decision.deniedReason with
    | none => simp [GatewayResult.Starts]
    | some reason => simp [GatewayResult.Starts]

theorem inlineExit_starts_iff {approvalId : String} :
    (inlineExit params context approvalId decision).Starts ↔ decision.deniedReason = none := by
  unfold inlineExit
  cases decision.deniedReason with
  | none => simp [GatewayResult.Starts]
  | some reason => simp [GatewayResult.Starts]

theorem backgroundExit_starts_iff {approvalId : String} :
    (GatewayResult.pendingResult (backgroundExit params context approvalId decision)).Starts ↔
      decision.requestFailed = false ∧ decision.deniedReason = none := by
  unfold backgroundExit
  cases decision.requestFailed with
  | true => simp [GatewayResult.Starts]
  | false =>
    cases decision.deniedReason with
    | none => simp [GatewayResult.Starts]
    | some reason => simp [GatewayResult.Starts]

variable {request : ApprovalRequest} {preResolvedDecision : Option (Option String)}
  {decision : Option String}

theorem resolveApprovalForExecution_of_answer
    (answered : request.answer host.toLowerCase preResolvedDecision = some decision) :
    resolveApprovalForExecution host context preResolvedDecision request.wait =
      judgeDecision context decision := by
  unfold resolveApprovalForExecution
  rw [ApprovalRequest.answer] at answered
  rw [answered]

theorem resolveApprovalForExecution_of_failed
    (failed : request.answer host.toLowerCase preResolvedDecision = none) :
    resolveApprovalForExecution host context preResolvedDecision request.wait =
      { deniedReason := some "approval-request-failed", requestFailed := true } := by
  unfold resolveApprovalForExecution
  rw [ApprovalRequest.answer] at failed
  rw [failed]

theorem eq_some_none_of_headless {unavailableReason : Option UnavailableReason}
    (headless : shouldResolveExecApprovalUnavailableInline params.trigger unavailableReason
      preResolvedDecision = true) : preResolvedDecision = some none := by
  unfold shouldResolveExecApprovalUnavailableInline at headless
  exact of_decide_eq_true (Bool.and_eq_true_iff.mp headless).2

section

variable (registered : request.registration = .ok preResolvedDecision)
include registered

theorem askForApproval_starts_of_answer
    (answered : request.answer host.toLowerCase preResolvedDecision = some decision)
    (starts : (askForApproval host params context request).Starts) :
    (IsConsent decision ∨ (IsUndecided decision ∧ context.FallbackAllows)) ∨
      (IsUnknown decision ∧ context.hasMiss = false) := by
  unfold askForApproval at starts
  rw [registered] at starts
  dsimp only at starts
  split at starts
  · rename_i headless
    have noDecision := eq_some_none_of_headless headless
    have isNone : decision = none := by
      rw [noDecision] at answered
      exact (Option.some_inj.mp answered).symm
    rw [isNone]
    exact Or.inl (Or.inr ⟨isUndecided_of_none, fallbackAllows_of_headlessExit_starts starts⟩)
  · rw [resolveApprovalForExecution_of_answer answered] at starts
    rw [← deniedReason_judgeDecision_eq_none_iff]
    split at starts
    · exact (interSessionExit_starts_iff.mp starts).resolve_left Bool.false_ne_true
    · split at starts
      · exact inlineExit_starts_iff.mp starts
      · exact (backgroundExit_starts_iff.mp starts).2

theorem askForApproval_starts_of_unknown
    (answered : request.answer host.toLowerCase preResolvedDecision = some decision)
    (unknown : IsUnknown decision) (noMiss : context.hasMiss = false) :
    (askForApproval host params context request).Starts := by
  have noReason : (judgeDecision context decision).deniedReason = none :=
    (judgeDecision_of_isUnknown unknown).mpr noMiss
  unfold askForApproval
  rw [registered]
  dsimp only
  split
  · rename_i headless
    rw [eq_some_none_of_headless headless] at answered
    rw [← Option.some_inj.mp answered] at unknown
    exact absurd isUndecided_of_none unknown.1
  · rw [resolveApprovalForExecution_of_answer answered]
    split
    · exact interSessionExit_starts_iff.mpr (Or.inr noReason)
    · split
      · exact inlineExit_starts_iff.mpr noReason
      · exact backgroundExit_starts_iff.mpr ⟨rfl, noReason⟩

theorem askForApproval_starts_of_failed
    (failed : request.answer host.toLowerCase preResolvedDecision = none) :
    (askForApproval host params context request).Starts ↔
      params.inputProvenanceKind = some "inter_session" := by
  unfold askForApproval
  rw [registered]
  dsimp only
  split
  · rename_i headless
    rw [eq_some_none_of_headless headless] at failed
    exact absurd failed (by simp [ApprovalRequest.answer, resolveApprovalDecisionOrUndefined])
  · rw [resolveApprovalForExecution_of_failed failed]
    split
    · rename_i interSession
      exact iff_of_true (interSessionExit_starts_iff.mpr (Or.inl rfl)) interSession
    · rename_i notInterSession
      refine iff_of_false ?_ notInterSession
      split
      · exact fun starts => absurd (inlineExit_starts_iff.mp starts) (by simp)
      · exact fun starts => absurd (backgroundExit_starts_iff.mp starts).1 (by simp)

end

end Exits

/--
The gateway starts a command only when it may, except exactly when a failed request
or an unknown decision is read as consent.
-/
theorem startsOnlyIfAllowed_iff (host : GatewayHost) (params : GatewayParams)
    (disk : Option ExecApprovalsFile) (request : ApprovalRequest) :
    ((processGatewayAllowlist host params disk request).Starts →
        MayStart host params disk request) ↔
      ¬ Slips host params disk request := by
  constructor
  · rintro closed ⟨context, isContext, asks, preResolvedDecision, registered, slip⟩
    have starts : (processGatewayAllowlist host params disk request).Starts := by
      unfold processGatewayAllowlist
      rw [isContext]
      dsimp only
      rw [if_pos asks]
      rcases slip with ⟨interSession, failed⟩ | ⟨decision, answered, unknown, noMiss⟩
      · exact (askForApproval_starts_of_failed registered failed).mpr interSession
      · exact askForApproval_starts_of_unknown registered answered unknown noMiss
    obtain ⟨other, isOther, allowed⟩ := closed starts
    rw [isContext] at isOther
    obtain rfl := Except.ok.inj isOther
    rcases allowed with ⟨noAsk, _⟩ | ⟨registeredAs, decision, registeredAgain, answered, consent⟩
    · rw [asks] at noAsk
      exact absurd noAsk (by simp)
    · rw [registered] at registeredAgain
      obtain rfl := Except.ok.inj registeredAgain
      rcases slip with ⟨_, failed⟩ | ⟨unknownDecision, answeredUnknown, unknown, _⟩
      · rw [failed] at answered
        exact absurd answered (by simp)
      · rw [answeredUnknown] at answered
        obtain rfl := Option.some_inj.mp answered
        rcases consent with consent | ⟨undecided, _⟩
        · exact unknown.2.1 consent
        · exact unknown.1 undecided
  · intro noSlip starts
    unfold processGatewayAllowlist at starts
    cases isContext : gatewayContext host params disk with
    | error message =>
      rw [isContext] at starts
      exact absurd starts id
    | ok context =>
      rw [isContext] at starts
      dsimp only at starts
      refine ⟨context, isContext, ?_⟩
      split at starts
      · rename_i asks
        right
        cases registered : request.registration with
        | error message =>
          unfold askForApproval at starts
          rw [registered] at starts
          exact absurd starts id
        | ok preResolvedDecision =>
          cases answered : request.answer host.toLowerCase preResolvedDecision with
          | none =>
            have interSession := (askForApproval_starts_of_failed registered answered).mp starts
            exact absurd ⟨context, isContext, asks, preResolvedDecision, registered,
              Or.inl ⟨interSession, answered⟩⟩ noSlip
          | some decision =>
            refine ⟨preResolvedDecision, decision, rfl, answered, ?_⟩
            refine (askForApproval_starts_of_answer registered answered
              starts).resolve_right fun unknown => ?_
            exact noSlip ⟨context, isContext, asks, preResolvedDecision, registered,
              Or.inr ⟨decision, answered, unknown⟩⟩
      · rename_i noAsk
        split at starts
        · exact absurd starts id
        · rename_i noMiss
          exact Or.inl ⟨Bool.eq_false_iff.mpr noAsk, Bool.eq_false_iff.mpr noMiss⟩

def plainApprovalsHost : ApprovalsHost where
  toLowerCase := JsString.asciiLower
  digest := id
  newId := fun agentId _ => agentId
  socketPath := "exec-approvals.sock"
  newToken := "token"
  now := 0

def plainGatewayHost : GatewayHost where
  toApprovalsHost := plainApprovalsHost
  evaluateShellAllowlist := fun _ _ =>
    { analysisOk := true
      allowlistSatisfied := false
      allowlistMatches := []
      segments := [{ argv := ["rm", "-r", "work"], auditTrustPath := none }]
      segmentAllowlistEntries := [none] }
  detectPolicyInlineEval := fun _ => none
  buildEnforcedShellCommand := fun command _ => .ok command
  commandRequiresSecurityAuditSuppressionApproval := fun _ _ => false
  resolveAllowAlwaysPatternEntries := fun _ _ => []
  resolveInitiatingSurface := fun _ _ => .enabled
  isInternalMessageChannel := fun _ => false

/-- A command that another session asks for, under a policy that always asks. -/
def interSessionParams : GatewayParams where
  command := "rm -r work"
  security := .full
  ask := .always
  strictInlineEval := false
  trigger := none
  agentId := none
  turnSourceChannel := none
  turnSourceAccountId := none
  approvalFollowupMode := none
  inputProvenanceKind := some "inter_session"

/-- The request is registered, but waiting for its decision fails. -/
def failedRequest : ApprovalRequest where
  approvalId := "1"
  registration := .ok none
  wait := .error "gateway closed"

/-- The failed request lets the command start that nobody approved. -/
theorem starts_without_approval :
    (processGatewayAllowlist plainGatewayHost interSessionParams none failedRequest).Starts ∧
      ¬ MayStart plainGatewayHost interSessionParams none failedRequest := by
  constructor
  · have result : processGatewayAllowlist plainGatewayHost interSessionParams none
        failedRequest = .proceeds none true := by
      decide +kernel
    rw [result]
    trivial
  · rintro ⟨context, isContext, allowed⟩
    rcases allowed with ⟨noAsk, _⟩ | ⟨preResolvedDecision, decision, registered, answered, _⟩
    · have asks : (gatewayContext plainGatewayHost interSessionParams none).map
          GatewayContext.requiresAsk = .ok true := by
        rfl
      rw [isContext] at asks
      rw [Except.ok.inj asks] at noAsk
      exact absurd noAsk (by decide)
    · obtain rfl := Except.ok.inj registered
      have failed : failedRequest.answer plainGatewayHost.toLowerCase none = none := by
        decide +kernel
      rw [failed] at answered
      exact absurd answered (by simp)

end ExecApprovals
