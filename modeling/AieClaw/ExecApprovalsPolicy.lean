import AieClaw.ExecApprovals

/-!
# The policy that the approvals file gives an agent

An agent's own values come first, then those of the agent `*`, then the defaults of
the file, and what the caller asked for last.
-/

namespace ExecApprovals

structure ResolvedPolicy where
  security : ExecSecurity
  ask : ExecAsk
  askFallback : ExecSecurity
  autoAllowSkills : Bool

structure ExecApprovalsResolved where
  defaults : ResolvedPolicy
  agent : ResolvedPolicy
  allowlist : List ExecAllowlistEntry
  file : ExecApprovalsFile

/-- The first value that is given: the agent's, that of `*`, the default. -/
def resolveField {Value : Type} (agent wildcard : Option Value) (fallback : Value) : Value :=
  (agent <|> wildcard).getD fallback

def resolveExecApprovalsFromFile (host : ApprovalsHost) (rawFile : ExecApprovalsFile)
    (agentId : Option String) (security : ExecSecurity) (ask : ExecAsk) : ExecApprovalsResolved :=
  let file := normalizeExecApprovals host rawFile
  let agent := agentOf file agentId
  let wildcard := (file.agents.get? "*").getD emptyAgent
  let defaults : ResolvedPolicy :=
    { security := file.defaults.security.getD security
      ask := file.defaults.ask.getD ask
      askFallback := file.defaults.askFallback.getD .full
      autoAllowSkills := file.defaults.autoAllowSkills.getD false }
  { defaults := defaults
    agent :=
      { security := resolveField agent.policy.security wildcard.policy.security defaults.security
        ask := resolveField agent.policy.ask wildcard.policy.ask defaults.ask
        askFallback :=
          resolveField agent.policy.askFallback wildcard.policy.askFallback defaults.askFallback
        autoAllowSkills :=
          resolveField agent.policy.autoAllowSkills wildcard.policy.autoAllowSkills
            defaults.autoAllowSkills }
    allowlist := wildcard.allowlist.getD [] ++ agent.allowlist.getD []
    file := file }

def ExecSecurity.name : ExecSecurity → String
  | .deny => "deny"
  | .allowlist => "allowlist"
  | .full => "full"

def ExecAsk.name : ExecAsk → String
  | .off => "off"
  | .onMiss => "on-miss"
  | .always => "always"

def ExecSecurity.rank : ExecSecurity → ℕ
  | .deny => 0
  | .allowlist => 1
  | .full => 2

def ExecAsk.rank : ExecAsk → ℕ
  | .off => 0
  | .onMiss => 1
  | .always => 2

def minSecurity (a b : ExecSecurity) : ExecSecurity := if a.rank ≤ b.rank then a else b

def maxAsk (a b : ExecAsk) : ExecAsk := if b.rank ≤ a.rank then a else b

def requiresExecApproval (ask : ExecAsk) (security : ExecSecurity)
    (analysisOk allowlistSatisfied durableApprovalSatisfied : Bool) : Bool :=
  if ask = .always then true
  else if durableApprovalSatisfied then false
  else ask = .onMiss && security = .allowlist && (!analysisOk || !allowlistSatisfied)

def hasExactCommandDurableExecApproval (host : ApprovalsHost)
    (allowlist : List ExecAllowlistEntry) (commandText : String) : Bool :=
  let normalizedCommand := JsString.trim commandText
  normalizedCommand ≠ "" && allowlist.any fun entry =>
    entry.allowAlways &&
      (entry.pattern = buildDurableCommandApprovalPattern host normalizedCommand ||
        entry.commandText.map JsString.trim = some normalizedCommand)

def hasSegmentDurableExecApproval (analysisOk : Bool)
    (segmentAllowlistEntries : List (Option ExecAllowlistEntry)) : Bool :=
  analysisOk && !segmentAllowlistEntries.isEmpty &&
    segmentAllowlistEntries.all fun entry => entry.any ExecAllowlistEntry.allowAlways

def hasDurableExecApproval (host : ApprovalsHost) (analysisOk : Bool)
    (segmentAllowlistEntries : List (Option ExecAllowlistEntry))
    (allowlist : List ExecAllowlistEntry) (commandText : String) : Bool :=
  hasExactCommandDurableExecApproval host allowlist commandText ||
    hasSegmentDurableExecApproval analysisOk segmentAllowlistEntries

end ExecApprovals
