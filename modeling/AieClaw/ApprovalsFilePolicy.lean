import AieClaw.ApprovalsFile

/-!
# When the normal form of the approvals file keeps its policy

The normal form loses what the resolution asks the parsed file for: whether a setting that does
not count was there. It also moves the settings of the legacy agent, and merging its allowlist
leaves the plain patterns out.
-/

namespace ApprovalsFile

open List
open ExecApprovals (ExecSecurity ExecAsk)
open JsonValue (isNullish orNullish)

section Settled

/-- An entry that the normal form leaves as it is. -/
structure Settled (entry : ExecAllowlistEntry) : Prop where
  hasPattern : (patternOf entry).any (fun pattern => decide (JsString.trim pattern ≠ "")) = true
  hasId : (entry.get? "id").any JsonValue.isTruthy = true
  noCommandText : readStringValue (entry.get? "commandText") = none

variable {host : ApprovalsHost} {agentId : String} {entry : ExecAllowlistEntry}
  {entries : List ExecAllowlistEntry} {agent : ExecApprovalsAgent}

/-- An entry with an id. -/
def withId (host : ApprovalsHost) (agentId : String) (index : ℕ) (entry : ExecAllowlistEntry) :
    ExecAllowlistEntry :=
  if (entry.get? "id").any JsonValue.isTruthy then entry
  else entry.set "id" (.string (host.randomUUID agentId index))

def withoutCommandText (entry : ExecAllowlistEntry) : ExecAllowlistEntry :=
  if (readStringValue (entry.get? "commandText")).isSome then entry.delete "commandText"
  else entry

/-- What the normal form makes of an entry. -/
def settle (host : ApprovalsHost) (agentId : String) (index : ℕ) (entry : ExecAllowlistEntry) :
    ExecAllowlistEntry :=
  withoutCommandText (withId host agentId index entry)

theorem stripAllowlistCommandText_ensureAllowlistIds :
    stripAllowlistCommandText (ensureAllowlistIds host agentId entries) =
      entries.mapIdx (settle host agentId) := by
  apply ext_getElem
  · simp [stripAllowlistCommandText, ensureAllowlistIds]
  · intro index _ _
    simp only [stripAllowlistCommandText, ensureAllowlistIds, getElem_map, getElem_mapIdx]
    rfl

theorem get?_withId_of_ne {key : String} (other : key ≠ "id") (index : ℕ) :
    (withId host agentId index entry).get? key = entry.get? key := by
  unfold withId
  split
  · rfl
  · rw [OrderedMap.get?_set_of_ne other]

theorem get?_withoutCommandText_of_ne {key : String} (other : key ≠ "commandText") :
    (withoutCommandText entry).get? key = entry.get? key := by
  unfold withoutCommandText
  split
  · rw [OrderedMap.get?_delete_of_ne other]
  · rfl

theorem patternOf_settle (index : ℕ) :
    patternOf (settle host agentId index entry) = patternOf entry := by
  rw [patternOf, settle, get?_withoutCommandText_of_ne (by decide), get?_withId_of_ne (by decide),
    ← patternOf]

theorem hasId_withId (index : ℕ) :
    ((withId host agentId index entry).get? "id").any JsonValue.isTruthy = true := by
  unfold withId
  split
  · assumption
  · simpa [JsonValue.isTruthy] using host.randomUUID_ne_empty agentId index

theorem noCommandText_withoutCommandText :
    readStringValue ((withoutCommandText entry).get? "commandText") = none := by
  unfold withoutCommandText
  split
  · simp [readStringValue]
  · rename_i noText
    simpa using noText

theorem settled_settle (index : ℕ)
    (hasPattern : (patternOf entry).any (fun pattern => decide (JsString.trim pattern ≠ "")) =
      true) : Settled (settle host agentId index entry) where
  hasPattern := by rwa [patternOf_settle]
  hasId := by
    rw [settle, get?_withoutCommandText_of_ne (by decide)]
    exact hasId_withId index
  noCommandText := noCommandText_withoutCommandText

theorem settle_of_settled (settled : Settled entry) (index : ℕ) :
    settle host agentId index entry = entry := by
  have named : withId host agentId index entry = entry := by rw [withId, if_pos settled.hasId]
  rw [settle, named, withoutCommandText, settled.noCommandText]
  rfl

theorem coerceItem_toJson
    (hasPattern : (patternOf entry).any (fun pattern => decide (JsString.trim pattern ≠ "")) =
      true) : coerceItem (JsonRecord.toJson entry) = some entry := by
  rw [JsonRecord.toJson, coerceItem, JsonRecord.ofMembers_entries, Option.filter_some,
    if_pos hasPattern]

theorem hasPattern_of_coerceItem {item : JsonValue} (isEntry : coerceItem item = some entry) :
    (patternOf entry).any (fun pattern => decide (JsString.trim pattern ≠ "")) = true := by
  unfold coerceItem at isEntry
  split at isEntry
  · rename_i text
    by_cases blank : JsString.trim text = ""
    · simp [blank] at isEntry
    · rw [if_neg blank] at isEntry
      rw [← Option.some.inj isEntry]
      simpa [patternOf, readStringValue, JsonValue.asString?, JsString.trim_trim] using blank
  · obtain ⟨same, kept⟩ := Option.filter_eq_some_iff.mp isEntry
    exact kept
  · cases isEntry

theorem hasPattern_of_mem_coerceAllowlistEntries {allowlist : Field}
    (coerced : coerceAllowlistEntries allowlist = some entries) (member : entry ∈ entries) :
    (patternOf entry).any (fun pattern => decide (JsString.trim pattern ≠ "")) = true := by
  unfold coerceAllowlistEntries at coerced
  split at coerced
  · rename_i items
    simp only at coerced
    split at coerced
    · cases coerced
    · rw [← Option.some.inj coerced, mem_filterMap] at member
      obtain ⟨item, -, isEntry⟩ := member
      exact hasPattern_of_coerceItem isEntry
  · cases coerced

theorem coerceAllowlistEntries_of_settled (settled : ∀ entry ∈ entries, Settled entry) :
    coerceAllowlistEntries (some (.array (entries.map JsonRecord.toJson))) = some entries := by
  have readBack : (entries.map JsonRecord.toJson).filterMap coerceItem = entries := by
    induction entries with
    | nil => rfl
    | cons entry rest inductionHypothesis =>
      rw [map_cons, filterMap_cons,
        coerceItem_toJson (settled entry mem_cons_self).hasPattern,
        inductionHypothesis fun other member => settled other (mem_cons_of_mem entry member)]
  simp only [coerceAllowlistEntries, readBack]
  cases entries <;> rfl

theorem settled_normalizeAgent
    (coerced : coerceAllowlistEntries agent.allowlist = some entries) :
    ∀ entry ∈ entries.mapIdx (settle host agentId), Settled entry := by
  intro entry member
  obtain ⟨index, inside, rfl⟩ := mem_mapIdx.mp member
  exact settled_settle index (hasPattern_of_mem_coerceAllowlistEntries coerced (getElem_mem inside))

end Settled

section Idempotence

variable {host : ApprovalsHost} {agentId : String} {agent : ExecApprovalsAgent}
  {file normal : ExecApprovalsFile} {agents moved : OrderedMap String ExecApprovalsAgent}

theorem normalizeOptionalString_normalizeOptionalString (value : Option String) :
    ExecApprovals.normalizeOptionalString (ExecApprovals.normalizeOptionalString value) =
      ExecApprovals.normalizeOptionalString value := by
  cases value with
  | none => rfl
  | some text =>
    by_cases blank : JsString.trim text = ""
    · simp [ExecApprovals.normalizeOptionalString, Option.filter_some, blank]
    · simp [ExecApprovals.normalizeOptionalString, Option.filter_some, blank, JsString.trim_trim]

theorem execSecurity?_name (value : ExecSecurity) :
    execSecurity? (some (.string value.name)) = some value := by
  cases value <;> rfl

theorem execAsk?_name (value : ExecAsk) : execAsk? (some (.string value.name)) = some value := by
  cases value <;> rfl

theorem trim_securityName (value : ExecSecurity) : JsString.trim value.name = value.name := by
  cases value <;> decide +kernel

theorem trim_askName (value : ExecAsk) : JsString.trim value.name = value.name := by
  cases value <;> decide +kernel

theorem execSecurity?_map_name (value : Option ExecSecurity) :
    execSecurity? (value.map fun value => .string value.name) = value := by
  cases value with
  | none => rfl
  | some value => exact execSecurity?_name value

theorem execAsk?_map_name (value : Option ExecAsk) :
    execAsk? (value.map fun value => .string value.name) = value := by
  cases value with
  | none => rfl
  | some value => exact execAsk?_name value

theorem execSecurity?_trimmed_name (value : Option ExecSecurity) :
    execSecurity? (trimmed (value.map fun value => .string value.name)) = value := by
  cases value with
  | none => rfl
  | some value =>
    simp [trimmed, readStringValue, JsonValue.asString?, trim_securityName, execSecurity?_name]

theorem execAsk?_trimmed_name (value : Option ExecAsk) :
    execAsk? (trimmed (value.map fun value => .string value.name)) = value := by
  cases value with
  | none => rfl
  | some value => simp [trimmed, readStringValue, JsonValue.asString?, trim_askName, execAsk?_name]

theorem sanitizeExecApprovalPolicy_idempotent (policy : ExecApprovalsDefaults) :
    sanitizeExecApprovalPolicy (sanitizeExecApprovalPolicy policy) =
      sanitizeExecApprovalPolicy policy := by
  simp [sanitizeExecApprovalPolicy, execSecurity?_trimmed_name, execAsk?_trimmed_name]

/-- An agent in its normal form is settled, whatever ids are handed out. -/
theorem normalizeAgent_normalizeAgent (other : ApprovalsHost) :
    normalizeAgent other agentId (normalizeAgent host agentId agent) =
      normalizeAgent host agentId agent := by
  have allowlist : (coerceAllowlistEntries (normalizeAgent host agentId agent).allowlist).map
      (fun entries => JsonValue.array ((stripAllowlistCommandText
        (ensureAllowlistIds other agentId entries)).map JsonRecord.toJson)) =
      (normalizeAgent host agentId agent).allowlist := by
    cases coerced : coerceAllowlistEntries agent.allowlist with
    | none =>
      have shape : (normalizeAgent host agentId agent).allowlist = none := by
        simp only [normalizeAgent, coerced, Option.map_none]
      rw [shape]
      rfl
    | some entries =>
      have settled := @settled_normalizeAgent host agentId _ _ coerced
      have stays : (entries.mapIdx (settle host agentId)).mapIdx (settle other agentId) =
          entries.mapIdx (settle host agentId) := by
        apply ext_getElem
        · simp
        · intro index inside _
          rw [getElem_mapIdx]
          exact settle_of_settled (settled _ (getElem_mem _)) index
      have shape : (normalizeAgent host agentId agent).allowlist = some (.array
          ((entries.mapIdx (settle host agentId)).map JsonRecord.toJson)) := by
        simp only [normalizeAgent, coerced, Option.map_some,
          stripAllowlistCommandText_ensureAllowlistIds]
      rw [shape, coerceAllowlistEntries_of_settled settled, Option.map_some,
        stripAllowlistCommandText_ensureAllowlistIds, stays]
  have policy := sanitizeExecApprovalPolicy_idempotent agent.toExecApprovalsDefaults
  calc normalizeAgent other agentId (normalizeAgent host agentId agent)
      = { toExecApprovalsDefaults := sanitizeExecApprovalPolicy
            (sanitizeExecApprovalPolicy agent.toExecApprovalsDefaults)
          allowlist := (normalizeAgent host agentId agent).allowlist } := by
        rw [normalizeAgent, allowlist]
        rfl
    _ = normalizeAgent host agentId agent := by
        rw [policy]
        rfl

theorem get?_default_of_moveLegacyAgent (moves : moveLegacyAgent host agents = some moved) :
    moved.get? "default" = none := by
  unfold moveLegacyAgent at moves
  split at moves
  · rename_i absent
    rwa [← Option.some.inj moves]
  · obtain ⟨merged, -, rfl⟩ := Option.map_eq_some_iff.mp moves
    exact OrderedMap.get?_delete_self _ _

theorem normalizeExecApprovals_eq_some_iff :
    normalizeExecApprovals host file = some normal ↔
      ∃ moved, moveLegacyAgent host file.agents = some moved ∧
        normal =
          { socketPath := ExecApprovals.normalizeOptionalString file.socketPath
            token := ExecApprovals.normalizeOptionalString file.token
            defaults := sanitizeExecApprovalPolicy file.defaults
            agents := moved.mapEntries (normalizeAgent host) } := by
  rw [normalizeExecApprovals, Option.map_eq_some_iff]
  exact exists_congr fun moved => and_congr_right fun _ => eq_comm

theorem normalizeExecApprovals_idempotent
    (isNormal : normalizeExecApprovals host file = some normal) (other : ApprovalsHost) :
    normalizeExecApprovals other normal = some normal := by
  obtain ⟨moved, moves, rfl⟩ := normalizeExecApprovals_eq_some_iff.mp isNormal
  have noLegacy : (moved.mapEntries (normalizeAgent host)).get? "default" = none := by
    rw [OrderedMap.get?_mapEntries, get?_default_of_moveLegacyAgent moves]
    rfl
  rw [normalizeExecApprovals, moveLegacyAgent, noLegacy]
  have agents : (moved.mapEntries (normalizeAgent host)).mapEntries (normalizeAgent other) =
      moved.mapEntries (normalizeAgent host) := by
    apply OrderedMap.ext
    simp only [OrderedMap.mapEntries, map_map]
    refine map_congr_left fun entry _ => ?_
    simp only [Function.comp_apply, normalizeAgent_normalizeAgent]
  simp only [Option.map_some, normalizeOptionalString_normalizeOptionalString,
    sanitizeExecApprovalPolicy_idempotent, agents]

theorem ensureExecApprovals_of_normal (isNormal : normalizeExecApprovals host file = some normal) :
    ∃ ensured, ensureExecApprovals host (some file) = some ensured ∧
      ensured.defaults = normal.defaults ∧ ensured.agents = normal.agents := by
  have loaded : loadExecApprovals host (some file) = normal := by
    rw [loadExecApprovals, Option.bind_some, isNormal]
    rfl
  rw [ensureExecApprovals, loaded, normalizeExecApprovals_idempotent isNormal]
  exact ⟨_, rfl, rfl, rfl⟩

end Idempotence

section Moved

variable {host : ApprovalsHost} {agentKey : String} {file : ExecApprovalsFile}
  {moved : OrderedMap String ExecApprovalsAgent}

theorem agentOf_of_get? {agent : ExecApprovalsAgent}
    (found : file.agents.get? agentKey = some agent) : agentOf file agentKey = agent := by
  rw [agentOf, found, Option.getD_some]

theorem agentOf_of_absent (absent : file.agents.get? agentKey = none) :
    agentOf file agentKey = emptyAgent := by
  rw [agentOf, absent, Option.getD_none]

/-- An agent after the legacy one was moved. -/
inductive MovedAgent (host : ApprovalsHost) (file : ExecApprovalsFile) (agentKey : String)
    (agent : ExecApprovalsAgent) : Prop where
  | legacyName (isLegacy : agentKey = "default") (empty : agent = emptyAgent)
  | own (notLegacy : agentKey ≠ "default")
      (noOther : agentKey = defaultAgentId → file.agents.get? "default" = none)
      (same : agent = agentOf file agentKey)
  | replaced (isMain : agentKey = defaultAgentId) (absent : file.agents.get? agentKey = none)
      (isLegacy : file.agents.get? "default" = some agent)
  | merged (isMain : agentKey = defaultAgentId) (merges : Merges file)
      (merged : mergeLegacyAgent host (agentOf file agentKey) (agentOf file "default") =
        some agent)

theorem movedAgent (moves : moveLegacyAgent host file.agents = some moved) (agentKey : String) :
    MovedAgent host file agentKey ((moved.get? agentKey).getD emptyAgent) := by
  unfold moveLegacyAgent at moves
  cases legacy : file.agents.get? "default" with
  | none =>
    rw [legacy] at moves
    obtain rfl := Option.some.inj moves
    by_cases isLegacy : agentKey = "default"
    · refine .legacyName isLegacy ?_
      rw [isLegacy, legacy, Option.getD_none]
    · exact .own isLegacy (fun _ => legacy) rfl
  | some legacyDefault =>
    rw [legacy] at moves
    obtain ⟨merged, isMerged, rfl⟩ := Option.map_eq_some_iff.mp moves
    by_cases isLegacy : agentKey = "default"
    · refine .legacyName isLegacy ?_
      rw [isLegacy, OrderedMap.get?_delete_self, Option.getD_none]
    · rw [OrderedMap.get?_delete_of_ne isLegacy]
      by_cases isMain : agentKey = defaultAgentId
      · subst isMain
        rw [OrderedMap.get?_set_self, Option.getD_some]
        cases current : file.agents.get? defaultAgentId with
        | none =>
          rw [current] at isMerged
          obtain rfl := Option.some.inj isMerged
          exact .replaced rfl current legacy
        | some main =>
          rw [current] at isMerged
          refine .merged rfl ⟨by simp [current], by simp [legacy]⟩ ?_
          rw [agentOf_of_get? current, agentOf_of_get? legacy]
          exact isMerged
      · rw [OrderedMap.get?_set_of_ne isMain]
        exact .own isLegacy (fun isMain' => absurd isMain' isMain) rfl

theorem wildcard_of_moved (moves : moveLegacyAgent host file.agents = some moved) :
    (moved.get? "*").getD emptyAgent = agentOf file "*" := by
  cases movedAgent moves "*" with
  | legacyName isLegacy _ => simp at isLegacy
  | own _ _ same => exact same
  | replaced isMain _ _ => simp [defaultAgentId] at isMain
  | merged isMain _ _ => simp [defaultAgentId] at isMain

theorem mergeLegacyAgent_eq_some {current legacy merged : ExecApprovalsAgent}
    (isMerged : mergeLegacyAgent host current legacy = some merged) :
    ∃ own inherited pushed, iterated current.allowlist = some own ∧
      iterated legacy.allowlist = some inherited ∧
      pushEntries host [] (own ++ inherited) = some pushed ∧
      merged =
        { security := orNullish current.security legacy.security
          ask := orNullish current.ask legacy.ask
          askFallback := orNullish current.askFallback legacy.askFallback
          autoAllowSkills := orNullish current.autoAllowSkills legacy.autoAllowSkills
          allowlist := if pushed.isEmpty then none else some (.array pushed) } := by
  obtain ⟨own, isOwn, isMerged⟩ := Option.bind_eq_some_iff.mp isMerged
  obtain ⟨inherited, isInherited, isMerged⟩ := Option.bind_eq_some_iff.mp isMerged
  obtain ⟨pushed, isPushed, rfl⟩ := Option.map_eq_some_iff.mp isMerged
  exact ⟨own, inherited, pushed, isOwn, isInherited, isPushed, rfl⟩

end Moved

section Settings

variable {Value : Type} {read : Field → Option Value} {of : ExecApprovalsDefaults → Field}
  {host : ApprovalsHost} {agentKey : String} {file normal : ExecApprovalsFile}
  {moved : OrderedMap String ExecApprovalsAgent}

/-- A setting of a policy, and how it is read. -/
structure IsSetting (read : Field → Option Value) (of : ExecApprovalsDefaults → Field) :
    Prop where
  sanitized : ∀ policy, read (of (sanitizeExecApprovalPolicy policy)) = read (trimmed (of policy))
  isNullish : ∀ policy, JsonValue.isNullish (of (sanitizeExecApprovalPolicy policy)) =
    (read (trimmed (of policy))).isNone
  merged : ∀ host current legacy merged, mergeLegacyAgent host current legacy = some merged →
    of merged.toExecApprovalsDefaults =
      orNullish (of current.toExecApprovalsDefaults) (of legacy.toExecApprovalsDefaults)
  empty : of emptyPolicy = none
  missing : read none = none

theorem isNullish_map_string (value : Option Value) (text : Value → String) :
    isNullish (value.map fun value => .string (text value)) = value.isNone := by
  cases value <;> rfl

theorem isSetting_security : IsSetting execSecurity? ExecApprovalsDefaults.security where
  sanitized _ := execSecurity?_map_name _
  isNullish _ := isNullish_map_string _ _
  merged _ _ _ _ isMerged := by
    obtain ⟨_, _, _, _, _, _, rfl⟩ := mergeLegacyAgent_eq_some isMerged
    rfl
  empty := rfl
  missing := rfl

theorem isSetting_askFallback : IsSetting execSecurity? ExecApprovalsDefaults.askFallback where
  sanitized _ := execSecurity?_map_name _
  isNullish _ := isNullish_map_string _ _
  merged _ _ _ _ isMerged := by
    obtain ⟨_, _, _, _, _, _, rfl⟩ := mergeLegacyAgent_eq_some isMerged
    rfl
  empty := rfl
  missing := rfl

theorem isSetting_ask : IsSetting execAsk? ExecApprovalsDefaults.ask where
  sanitized _ := execAsk?_map_name _
  isNullish _ := isNullish_map_string _ _
  merged _ _ _ _ isMerged := by
    obtain ⟨_, _, _, _, _, _, rfl⟩ := mergeLegacyAgent_eq_some isMerged
    rfl
  empty := rfl
  missing := rfl

theorem trimmed_orNullish_none (value : Field) :
    trimmed (orNullish value none) = trimmed value := by
  rcases value with - | value
  · rfl
  · cases value <;> rfl

theorem trimmed_moved (isSetting : IsSetting read of)
    (moves : moveLegacyAgent host file.agents = some moved) (agentKey : String) :
    trimmed (of ((moved.get? agentKey).getD emptyAgent).toExecApprovalsDefaults) =
      trimmed (givenTo file of agentKey) := by
  cases movedAgent moves agentKey with
  | legacyName isLegacy empty =>
    rw [empty, givenTo, if_pos isLegacy]
    exact congrArg trimmed isSetting.empty
  | own notLegacy noOther same =>
    rw [same, givenTo, if_neg notLegacy]
    by_cases isMain : agentKey = defaultAgentId
    · have empty : of (agentOf file "default").toExecApprovalsDefaults = none := by
        rw [agentOf_of_absent (noOther isMain)]
        exact isSetting.empty
      rw [if_pos isMain, empty, trimmed_orNullish_none]
    · rw [if_neg isMain, trimmed_orNullish_none]
  | replaced isMain absent isLegacy =>
    have notLegacy : agentKey ≠ "default" := by
      rintro rfl
      simp [defaultAgentId] at isMain
    have empty : of (agentOf file agentKey).toExecApprovalsDefaults = none := by
      rw [agentOf_of_absent absent]
      exact isSetting.empty
    rw [givenTo, if_neg notLegacy, if_pos isMain, empty, agentOf_of_get? isLegacy]
    rfl
  | merged isMain merges merged =>
    have notLegacy : agentKey ≠ "default" := by
      rintro rfl
      simp [defaultAgentId] at isMain
    rw [givenTo, if_neg notLegacy, if_pos isMain, isSetting.merged _ _ _ _ merged]

theorem agentOf_normal (isNormal : normalizeExecApprovals host file = some normal)
    (moves : moveLegacyAgent host file.agents = some moved) (agentKey : String) :
    agentOf normal agentKey =
      normalizeAgent host agentKey ((moved.get? agentKey).getD emptyAgent) := by
  obtain ⟨other, otherMoves, rfl⟩ := normalizeExecApprovals_eq_some_iff.mp isNormal
  obtain rfl := Option.some.inj (moves.symm.trans otherMoves)
  rw [agentOf, OrderedMap.get?_mapEntries]
  cases moved.get? agentKey <;> rfl

theorem value_resolveAgentField (field : String) {defaults : ExecApprovalsDefaults}
    {agents : ResolvedAgents} {fallback : Value}
    (isDefault : (read (of defaults)).getD fallback = fallback) :
    (resolveAgentField read field of defaults agents fallback).value =
      if isNullish (of agents.rawAgent.toExecApprovalsDefaults) = false then
        (read (of agents.agent.toExecApprovalsDefaults)).getD fallback
      else if isNullish (of agents.rawWildcard.toExecApprovalsDefaults) = false then
        (read (of agents.wildcard.toExecApprovalsDefaults)).getD fallback
      else fallback := by
  have fallbackValue : (resolveDefaultField read field (of defaults) fallback).value =
      fallback := by
    rw [resolveDefaultField]
    cases found : read (of defaults) with
    | none => rfl
    | some value => simpa [found] using isDefault
  simp only [resolveAgentField]
  split
  · cases read (of agents.agent.toExecApprovalsDefaults) with
    | none => exact fallbackValue
    | some value => rfl
  · split
    · cases read (of agents.wildcard.toExecApprovalsDefaults) with
      | none => exact fallbackValue
      | some value => rfl
    · exact fallbackValue

/-- The agents that the resolution of a parsed file reads. -/
def agentsOf (rawFile file : ExecApprovalsFile) (agentKey : String) : ResolvedAgents where
  agent := agentOf file agentKey
  rawAgent := agentOf rawFile agentKey
  wildcard := agentOf file "*"
  rawWildcard := agentOf rawFile "*"
  agentKey := agentKey

theorem trimmed_of_isNullish {value : Field} (nullish : isNullish value = true) :
    trimmed value = none := by
  rcases value with - | value
  · rfl
  · cases value <;> first | rfl | cases nullish

section

variable (isSetting : IsSetting read of)
  (isNormal : normalizeExecApprovals host file = some normal)

include isSetting isNormal

theorem read_agentOf_normal (agentKey : String) :
    read (of (agentOf normal agentKey).toExecApprovalsDefaults) =
      read (trimmed (givenTo file of agentKey)) := by
  obtain ⟨moved, moves, -⟩ := normalizeExecApprovals_eq_some_iff.mp isNormal
  rw [agentOf_normal isNormal moves, normalizeAgent, isSetting.sanitized,
    trimmed_moved isSetting moves]

theorem isNullish_agentOf_normal (agentKey : String) :
    isNullish (of (agentOf normal agentKey).toExecApprovalsDefaults) =
      (read (trimmed (givenTo file of agentKey))).isNone := by
  obtain ⟨moved, moves, -⟩ := normalizeExecApprovals_eq_some_iff.mp isNormal
  rw [agentOf_normal isNormal moves, normalizeAgent, isSetting.isNullish,
    trimmed_moved isSetting moves]

end

theorem trimmed_givenTo_wildcard :
    trimmed (givenTo file of "*") = trimmed (of (agentOf file "*").toExecApprovalsDefaults) := by
  rw [givenTo, if_neg (by decide), if_neg (by decide), trimmed_orNullish_none]

/-- A setting resolves alike from a file and from its normal form when it is kept. -/
theorem value_eq_iff_settingKept (isSetting : IsSetting read of)
    (isNormal : normalizeExecApprovals host file = some normal) (field : String)
    {fallback : Value} (isDefault : (read (of normal.defaults)).getD fallback = fallback) :
    (resolveAgentField read field of normal.defaults (agentsOf normal normal agentKey)
        fallback).value =
      (resolveAgentField read field of normal.defaults (agentsOf file normal agentKey)
        fallback).value ↔
      SettingKept read of file agentKey fallback := by
  rw [value_resolveAgentField field isDefault, value_resolveAgentField field isDefault]
  simp only [agentsOf, read_agentOf_normal isSetting isNormal,
    isNullish_agentOf_normal isSetting isNormal, trimmed_givenTo_wildcard, SettingKept]
  have wildcardMissing :
      isNullish (of (agentOf file "*").toExecApprovalsDefaults) = true →
        read (trimmed (of (agentOf file "*").toExecApprovalsDefaults)) = none := by
    intro nullish
    rw [trimmed_of_isNullish nullish, isSetting.missing]
  cases given : read (trimmed (givenTo file of agentKey)) with
  | none =>
    cases wildcard : read (trimmed (of (agentOf file "*").toExecApprovalsDefaults)) with
    | none => simp
    | some value =>
      have wildcardGiven :
          isNullish (of (agentOf file "*").toExecApprovalsDefaults) = false := by
        by_contra nullish
        rw [wildcardMissing (by simpa using nullish)] at wildcard
        cases wildcard
      cases isNullish (of (agentOf file agentKey).toExecApprovalsDefaults) <;>
        simp [wildcardGiven]
  | some value =>
    cases isNullish (of (agentOf file agentKey).toExecApprovalsDefaults) with
    | false => simp
    | true =>
      cases nullish : isNullish (of (agentOf file "*").toExecApprovalsDefaults) with
      | true => simp [wildcardMissing nullish]
      | false => simp

end Settings

section Patterns

variable {host : ApprovalsHost} {agentId : String} {agent : ExecApprovalsAgent}
  {item : JsonValue} {items : List JsonValue} {pattern : String}

theorem normalizeOptionalString_trim (text : String) :
    normalizeOptionalString (some (.string (JsString.trim text))) =
      normalizeOptionalString (some (.string text)) := by
  simp [normalizeOptionalString, readStringValue, JsonValue.asString?,
    ExecApprovals.normalizeOptionalString, JsString.trim_trim]

theorem samePattern_trim (text : String) : SamePattern host text (JsString.trim text) := by
  rw [SamePattern, normalizeAllowlistPattern, normalizeAllowlistPattern,
    normalizeOptionalString_trim]

theorem coerceItem_of_writtenPattern (isPattern : writtenPattern item = some pattern) :
    ∃ entry kept, coerceItem item = some entry ∧ patternOf entry = some kept ∧
      SamePattern host pattern kept := by
  cases item with
  | string text =>
    obtain ⟨same, nonblank⟩ := Option.filter_eq_some_iff.mp isPattern
    obtain rfl := Option.some.inj same
    have nonblank : JsString.trim text ≠ "" := by simpa using nonblank
    refine ⟨_, _, if_neg nonblank, ?_, samePattern_trim text⟩
    simp [patternOf, readStringValue, JsonValue.asString?]
  | object members =>
    obtain ⟨same, nonblank⟩ := Option.filter_eq_some_iff.mp isPattern
    have isPattern : patternOf (JsonRecord.ofMembers members) = some pattern := by
      rw [patternOf, JsonRecord.get?_ofMembers]
      exact same
    refine ⟨JsonRecord.ofMembers members, pattern, ?_, isPattern, rfl⟩
    rw [coerceItem, Option.filter_some, isPattern, Option.any_some, if_pos nonblank]
  | null => cases isPattern
  | bool value => cases isPattern
  | number value => cases isPattern
  | array items => cases isPattern

theorem writtenPattern_of_coerceItem {entry : ExecAllowlistEntry}
    (isEntry : coerceItem item = some entry) (isPattern : patternOf entry = some pattern) :
    ∃ written, writtenPattern item = some written ∧ SamePattern host pattern written := by
  cases item with
  | string text =>
    by_cases blank : JsString.trim text = ""
    · simp [coerceItem, blank] at isEntry
    · rw [coerceItem, if_neg blank] at isEntry
      obtain rfl := Option.some.inj isEntry
      have isTrimmed : JsString.trim text = pattern := by
        simpa [patternOf, readStringValue, JsonValue.asString?] using isPattern
      refine ⟨text, ?_, ?_⟩
      · simp [writtenPattern, Option.filter_some, blank]
      · rw [← isTrimmed]
        exact (samePattern_trim text).symm
  | object members =>
    rw [coerceItem] at isEntry
    obtain ⟨same, nonblank⟩ := Option.filter_eq_some_iff.mp isEntry
    obtain rfl := Option.some.inj same
    rw [isPattern, Option.any_some] at nonblank
    rw [patternOf, JsonRecord.get?_ofMembers] at isPattern
    exact ⟨pattern, Option.filter_eq_some_iff.mpr ⟨isPattern, nonblank⟩, rfl⟩
  | null => cases isEntry
  | bool value => cases isEntry
  | number value => cases isEntry
  | array items => cases isEntry

theorem writtenPattern_toJson (entry : ExecAllowlistEntry) :
    writtenPattern (JsonRecord.toJson entry) =
      (patternOf entry).filter fun pattern => decide (JsString.trim pattern ≠ "") := by
  change ((readStringValue ((JsonRecord.toJson entry).member? "pattern")).filter _) = _
  rw [JsonRecord.member?_toJson, ← patternOf]

theorem getD_coerceAllowlistEntries (allowlist : Field) :
    (coerceAllowlistEntries allowlist).getD [] = (arrayItems allowlist).filterMap coerceItem := by
  unfold coerceAllowlistEntries arrayItems
  split
  · simp only
    split
    · rename_i dropped
      rw [Bool.and_eq_true, List.isEmpty_iff] at dropped
      rw [Option.getD_none, dropped.1]
    · rfl
  · rfl

/-- The patterns of an allowlist in its normal form. -/
theorem writtenPatterns_normalizeAgent :
    writtenPatterns (normalizeAgent host agentId agent).allowlist =
      ((arrayItems agent.allowlist).filterMap coerceItem).filterMap patternOf := by
  rw [← getD_coerceAllowlistEntries]
  cases coerced : coerceAllowlistEntries agent.allowlist with
  | none =>
    have shape : (normalizeAgent host agentId agent).allowlist = none := by
      simp only [normalizeAgent, coerced, Option.map_none]
    rw [shape]
    rfl
  | some entries =>
    have shape : (normalizeAgent host agentId agent).allowlist = some (.array
        ((entries.mapIdx (settle host agentId)).map JsonRecord.toJson)) := by
      simp only [normalizeAgent, coerced, Option.map_some,
        stripAllowlistCommandText_ensureAllowlistIds]
    have reads : ∀ entry ∈ entries.mapIdx (settle host agentId),
        (writtenPattern ∘ JsonRecord.toJson) entry = patternOf entry := by
      intro entry member
      have hasPattern := (settled_normalizeAgent coerced entry member).hasPattern
      rw [Function.comp_apply, writtenPattern_toJson]
      cases found : patternOf entry with
      | none => rfl
      | some pattern =>
        rw [found, Option.any_some] at hasPattern
        rw [Option.filter_some, if_pos hasPattern]
    have patterns : (entries.mapIdx (settle host agentId)).map patternOf =
        entries.map patternOf := by
      apply ext_getElem
      · simp
      · intro index _ _
        simp [patternOf_settle]
    rw [shape, writtenPatterns, arrayItems, filterMap_map, filterMap_congr reads]
    simpa [filterMap_map] using congrArg (filterMap id) patterns

theorem exists_samePattern_iff (host : ApprovalsHost) (agentId : String)
    (agent : ExecApprovalsAgent) (pattern : String) :
    (∃ kept ∈ writtenPatterns (normalizeAgent host agentId agent).allowlist,
        SamePattern host pattern kept) ↔
      ∃ written ∈ writtenPatterns agent.allowlist, SamePattern host pattern written := by
  rw [writtenPatterns_normalizeAgent]
  constructor
  · rintro ⟨kept, member, same⟩
    obtain ⟨entry, isEntry, isKept⟩ := mem_filterMap.mp member
    obtain ⟨item, isItem, isEntry⟩ := mem_filterMap.mp isEntry
    obtain ⟨written, isWritten, alike⟩ := writtenPattern_of_coerceItem isEntry isKept
    exact ⟨written, mem_filterMap.mpr ⟨item, isItem, isWritten⟩, same.trans alike⟩
  · rintro ⟨written, member, same⟩
    obtain ⟨item, isItem, isWritten⟩ := mem_filterMap.mp member
    obtain ⟨entry, kept, isEntry, isKept, alike⟩ := coerceItem_of_writtenPattern isWritten
    exact ⟨kept, mem_filterMap.mpr ⟨entry, mem_filterMap.mpr ⟨item, isItem, isEntry⟩, isKept⟩,
      same.trans alike⟩

end Patterns

section Merge

variable {host : ApprovalsHost} {item : JsonValue} {items pushed : List JsonValue}
  {seen : List String}

theorem normalizeAllowlistPattern_eq_map (value : Field) :
    normalizeAllowlistPattern host value =
      (normalizeOptionalString value).map host.toLowerCase := by
  unfold normalizeAllowlistPattern
  refine Option.map_congr fun text isText => ?_
  obtain ⟨written, -⟩ := Option.filter_eq_some_iff.mp isText
  obtain ⟨original, -, rfl⟩ := Option.map_eq_some_iff.mp written
  have reads : normalizeOptionalString (some (.string (JsString.trim original))) =
      some (JsString.trim original) := by
    obtain ⟨-, nonblank⟩ := Option.filter_eq_some_iff.mp isText
    have nonblank : JsString.trim original ≠ "" := by simpa using nonblank
    simp [normalizeOptionalString, readStringValue, JsonValue.asString?,
      ExecApprovals.normalizeOptionalString, JsString.trim_trim, Option.filter_some, nonblank]
  rw [normalizeLowercaseStringOrEmpty, reads]
  rfl

theorem filter_normalizeAllowlistPattern (value : Field) :
    (normalizeAllowlistPattern host value).filter (· ≠ "") =
      normalizeAllowlistPattern host value := by
  rw [normalizeAllowlistPattern_eq_map]
  cases found : normalizeOptionalString value with
  | none => rfl
  | some text =>
    obtain ⟨-, nonblank⟩ := Option.filter_eq_some_iff.mp found
    have nonblank : text ≠ "" := by simpa using nonblank
    rw [Option.map_some, Option.filter_some, if_pos]
    simpa using host.toLowerCase_ne_empty text nonblank

theorem mergeKey_of_ne_null (notNull : item ≠ .null) :
    mergeKey host item =
      match normalizeAllowlistPattern host (item.member? "pattern") with
      | none => some none
      | some patternKey =>
        match item.member? "argPattern" with
        | none => some (some (patternKey ++ "\x00"))
        | some .null => some (some (patternKey ++ "\x00"))
        | some (.string argPattern) =>
          some (some (patternKey ++ "\x00" ++ JsString.trim argPattern))
        | some _ => none := by
  rw [← filter_normalizeAllowlistPattern]
  cases item <;> first | rfl | exact absurd rfl notNull

theorem isSome_mergeKey_iff : (mergeKey host item).isSome = true ↔ Mergeable item := by
  by_cases null : item = .null
  · subst null
    simp [mergeKey, Mergeable, isNullish]
  · have given : isNullish (some item) = false := by
      cases item <;> first | rfl | exact absurd rfl null
    rw [mergeKey_of_ne_null null, normalizeAllowlistPattern_eq_map, Mergeable, given]
    cases normalizeOptionalString (item.member? "pattern") with
    | none => simp
    | some text =>
      cases item.member? "argPattern" with
      | none => simp [isNullish]
      | some argPattern =>
        cases argPattern <;> simp [isNullish, readStringValue, JsonValue.asString?]

theorem isSome_pushEntries_iff : (pushEntries host seen items).isSome = true ↔
    ∀ item ∈ items, Mergeable item := by
  induction items generalizing seen with
  | nil => simp [pushEntries]
  | cons item rest inductionHypothesis =>
    rw [forall_mem_cons, ← @isSome_mergeKey_iff host]
    cases found : mergeKey host item with
    | none => simp [pushEntries, found]
    | some key =>
      cases key with
      | none => simp [pushEntries, found, inductionHypothesis]
      | some key =>
        by_cases known : key ∈ seen
        · simp [pushEntries, found, known, inductionHypothesis]
        · simp [pushEntries, found, known, inductionHypothesis]

/-- The first item of a key. -/
def FirstWith (host : ApprovalsHost) (items : List JsonValue) (key : String) (item : JsonValue) :
    Prop :=
  ∃ before after, items = before ++ item :: after ∧ mergeKey host item = some (some key) ∧
    ∀ earlier ∈ before, mergeKey host earlier ≠ some (some key)

theorem firstOfKey_iff : FirstOfKey host items item ↔ ∃ key, FirstWith host items key item := by
  constructor
  · rintro ⟨before, after, key, split, isKey, first⟩
    exact ⟨key, before, after, split, isKey, first⟩
  · rintro ⟨key, before, after, split, isKey, first⟩
    exact ⟨before, after, key, split, isKey, first⟩

theorem firstWith_cons {head : JsonValue} {key : String} :
    FirstWith host (head :: items) key item ↔
      (item = head ∧ mergeKey host head = some (some key)) ∨
        (mergeKey host head ≠ some (some key) ∧ FirstWith host items key item) := by
  constructor
  · rintro ⟨before, after, split, isKey, first⟩
    cases before with
    | nil =>
      obtain ⟨rfl, rfl⟩ := cons.inj split
      exact .inl ⟨rfl, isKey⟩
    | cons other before =>
      obtain ⟨rfl, rfl⟩ := cons.inj split
      exact .inr ⟨first head mem_cons_self, before, after, rfl, isKey,
        fun earlier member => first earlier (mem_cons_of_mem head member)⟩
  · rintro (⟨rfl, isKey⟩ | ⟨otherKey, before, after, rfl, isKey, first⟩)
    · exact ⟨[], items, rfl, isKey, by simp⟩
    · exact ⟨head :: before, after, rfl, isKey, forall_mem_cons.mpr ⟨otherKey, first⟩⟩

/-- The merge keeps the first item of each key that it has not seen. -/
theorem mem_pushEntries_iff (isPushed : pushEntries host seen items = some pushed) :
    item ∈ pushed ↔ ∃ key, key ∉ seen ∧ FirstWith host items key item := by
  induction items generalizing seen pushed with
  | nil =>
    obtain rfl := Option.some.inj isPushed
    simp [FirstWith]
  | cons head rest inductionHypothesis =>
    obtain ⟨headKey, isHeadKey, isPushed⟩ := Option.bind_eq_some_iff.mp isPushed
    cases headKey with
    | none =>
      rw [inductionHypothesis isPushed]
      refine exists_congr fun key => and_congr_right fun _ => ?_
      simp [firstWith_cons, isHeadKey]
    | some headKey =>
      by_cases known : headKey ∈ seen
      · simp only [if_pos known] at isPushed
        rw [inductionHypothesis isPushed]
        refine exists_congr fun key => and_congr_right fun fresh => ?_
        have otherKey : headKey ≠ key := by
          rintro rfl
          exact fresh known
        simp [firstWith_cons, isHeadKey, otherKey]
      · simp only [if_neg known] at isPushed
        obtain ⟨later, isLater, rfl⟩ := Option.map_eq_some_iff.mp isPushed
        rw [mem_cons, inductionHypothesis isLater]
        constructor
        · rintro (rfl | ⟨key, fresh, isFirst⟩)
          · exact ⟨headKey, known, firstWith_cons.mpr (.inl ⟨rfl, isHeadKey⟩)⟩
          · obtain ⟨otherKey, fresh⟩ := not_or.mp (mem_cons.not.mp fresh)
            refine ⟨key, fresh, firstWith_cons.mpr (.inr ⟨?_, isFirst⟩)⟩
            simpa [isHeadKey] using Ne.symm otherKey
        · rintro ⟨key, fresh, isFirst⟩
          rcases firstWith_cons.mp isFirst with ⟨rfl, -⟩ | ⟨otherKey, isFirst⟩
          · exact .inl rfl
          · refine .inr ⟨key, mem_cons.not.mpr (not_or.mpr ⟨?_, fresh⟩), isFirst⟩
            rintro rfl
            exact otherKey isHeadKey

end Merge

section Main

variable {host : ApprovalsHost} {file normal : ExecApprovalsFile} {agentKey : String}
  {moved : OrderedMap String ExecApprovalsAgent}

theorem mergeLegacyAgent_isSome_iff {current legacy : ExecApprovalsAgent} :
    (mergeLegacyAgent host current legacy).isSome = true ↔
      (iterated current.allowlist).isSome = true ∧ (iterated legacy.allowlist).isSome = true ∧
        ∀ item ∈ (iterated current.allowlist).getD [] ++ (iterated legacy.allowlist).getD [],
          Mergeable item := by
  rw [mergeLegacyAgent]
  cases iterated current.allowlist with
  | none => simp
  | some own =>
    cases iterated legacy.allowlist with
    | none => simp
    | some inherited =>
      simp only [Option.bind_some, Option.isSome_map, isSome_pushEntries_iff, Option.isSome_some,
        Option.getD_some, true_and]

theorem isSome_normalizeExecApprovals_iff :
    (normalizeExecApprovals host file).isSome = true ↔
      (Merges file →
        (iterated (agentOf file defaultAgentId).allowlist).isSome = true ∧
          (iterated (agentOf file "default").allowlist).isSome = true ∧
            ∀ item ∈ mergedItems file, Mergeable item) := by
  rw [mergedItems, ← @mergeLegacyAgent_isSome_iff host, normalizeExecApprovals,
    Option.isSome_map, moveLegacyAgent]
  cases legacy : file.agents.get? "default" with
  | none => simp [Merges, legacy]
  | some legacyDefault =>
    simp only [Option.isSome_map]
    cases current : file.agents.get? defaultAgentId with
    | none => simp [Merges, current]
    | some main =>
      simp [Merges, current, legacy, agentOf_of_get? current, agentOf_of_get? legacy]

theorem exists_resolved_iff (isNormal : normalizeExecApprovals host file = some normal)
    (moves : moveLegacyAgent host file.agents = some moved) (pattern : String) :
    (∃ kept ∈ (arrayItems (agentOf normal "*").allowlist ++
        arrayItems (agentOf normal agentKey).allowlist).filterMap writtenPattern,
          SamePattern host pattern kept) ↔
      (∃ kept ∈ writtenPatterns (agentOf file "*").allowlist, SamePattern host pattern kept) ∨
        ∃ kept ∈ writtenPatterns ((moved.get? agentKey).getD emptyAgent).allowlist,
          SamePattern host pattern kept := by
  have wildcard := exists_samePattern_iff host "*" (agentOf file "*") pattern
  have agent := exists_samePattern_iff host agentKey ((moved.get? agentKey).getD emptyAgent) pattern
  rw [← wildcard, ← agent, ← wildcard_of_moved moves, ← agentOf_normal isNormal moves,
    ← agentOf_normal isNormal moves, filterMap_append]
  simp only [mem_append, or_and_right, exists_or]
  rfl

/-- What an agent listed is still listed, once the merge has not left it out. -/
theorem listed_iff (isNormal : normalizeExecApprovals host file = some normal) :
    (∀ pattern ∈ listedFor file agentKey,
      ∃ kept ∈ (arrayItems (agentOf normal "*").allowlist ++
        arrayItems (agentOf normal agentKey).allowlist).filterMap writtenPattern,
          SamePattern host pattern kept) ↔
      (agentKey = "default" →
        ∀ pattern ∈ writtenPatterns (agentOf file "default").allowlist,
          ∃ kept ∈ writtenPatterns (agentOf file "*").allowlist, SamePattern host pattern kept) ∧
      (agentKey = defaultAgentId → Merges file →
        ∀ item ∈ arrayItems (agentOf file defaultAgentId).allowlist ++
            arrayItems (agentOf file "default").allowlist,
          ∀ pattern, writtenPattern item = some pattern →
            ¬ FirstOfKey host (mergedItems file) item →
              (∃ kept ∈ writtenPatterns (agentOf file "*").allowlist,
                SamePattern host pattern kept) ∨
              ∃ other kept, FirstOfKey host (mergedItems file) other ∧
                writtenPattern other = some kept ∧ SamePattern host pattern kept) := by
  obtain ⟨moved, moves, -⟩ := normalizeExecApprovals_eq_some_iff.mp isNormal
  simp only [exists_resolved_iff isNormal moves]
  have noDefault : (defaultAgentId = "default") = False := by simp [defaultAgentId]
  cases movedAgent moves agentKey with
  | legacyName isLegacy empty =>
    subst isLegacy
    have noMain : ("default" = defaultAgentId) = False := by simp [defaultAgentId]
    simp only [empty, listedFor, noMain, if_false, append_nil, true_implies, false_implies,
      and_true]
    refine forall₂_congr fun pattern _ => ?_
    have nothing : writtenPatterns emptyAgent.allowlist = [] := rfl
    simp [nothing]
  | own notLegacy noOther same =>
    have kept : ∀ pattern ∈ listedFor file agentKey,
        ∃ kept ∈ writtenPatterns ((moved.get? agentKey).getD emptyAgent).allowlist,
          SamePattern host pattern kept := by
      intro pattern member
      refine ⟨pattern, ?_, rfl⟩
      rw [same]
      by_cases isMain : agentKey = defaultAgentId
      · have nothing : writtenPatterns (agentOf file "default").allowlist = [] := by
          rw [agentOf_of_absent (noOther isMain)]
          rfl
        simpa [listedFor, isMain, nothing] using member
      · simpa [listedFor, isMain] using member
    have noMerge : agentKey = defaultAgentId → ¬ Merges file := by
      intro isMain merges
      simp [noOther isMain, Merges] at merges
    constructor
    · exact fun _ => ⟨fun isLegacy => absurd isLegacy notLegacy,
        fun isMain merges => absurd merges (noMerge isMain)⟩
    · exact fun _ pattern member => .inr (kept pattern member)
  | replaced isMain absent isLegacy =>
    subst isMain
    have kept : ∀ pattern ∈ listedFor file defaultAgentId,
        ∃ kept ∈ writtenPatterns ((moved.get? defaultAgentId).getD emptyAgent).allowlist,
          SamePattern host pattern kept := by
      intro pattern member
      refine ⟨pattern, ?_, rfl⟩
      have nothing : writtenPatterns (agentOf file defaultAgentId).allowlist = [] := by
        rw [agentOf_of_absent absent]
        rfl
      simpa [listedFor, nothing, agentOf_of_get? isLegacy] using member
    have noMerge : ¬ Merges file := fun merges => by simp [absent, Merges] at merges
    constructor
    · exact fun _ => ⟨fun isLegacy => absurd isLegacy (by simp [defaultAgentId]),
        fun _ merges => absurd merges noMerge⟩
    · exact fun _ pattern member => .inr (kept pattern member)
  | merged isMain merges merged =>
    subst isMain
    obtain ⟨own, inherited, pushed, isOwn, isInherited, isPushed, shape⟩ :=
      mergeLegacyAgent_eq_some merged
    have items : mergedItems file = own ++ inherited := by
      rw [mergedItems, isOwn, isInherited]
      rfl
    have mergedPatterns : writtenPatterns
        ((moved.get? defaultAgentId).getD emptyAgent).allowlist =
          pushed.filterMap writtenPattern := by
      rw [shape, writtenPatterns]
      cases pushed <;> rfl
    have isFirst : ∀ item, item ∈ pushed ↔ FirstOfKey host (mergedItems file) item := by
      intro item
      rw [mem_pushEntries_iff isPushed, firstOfKey_iff, items]
      simp
    have listed : listedFor file defaultAgentId =
        (arrayItems (agentOf file defaultAgentId).allowlist ++
          arrayItems (agentOf file "default").allowlist).filterMap writtenPattern := by
      rw [listedFor, if_pos rfl, filterMap_append]
      rfl
    rw [listed, mergedPatterns]
    constructor
    · intro resolved
      refine ⟨fun isLegacy => absurd isLegacy (by simp [defaultAgentId]), ?_⟩
      intro _ _ item isItem pattern isPattern _
      refine (resolved pattern (mem_filterMap.mpr ⟨item, isItem, isPattern⟩)).imp_right ?_
      rintro ⟨kept, member, same⟩
      obtain ⟨other, isOther, isKept⟩ := mem_filterMap.mp member
      exact ⟨other, kept, (isFirst other).mp isOther, isKept, same⟩
    · rintro ⟨-, leftOut⟩ pattern member
      obtain ⟨item, isItem, isPattern⟩ := mem_filterMap.mp member
      by_cases first : FirstOfKey host (mergedItems file) item
      · exact .inr ⟨pattern, mem_filterMap.mpr ⟨item, (isFirst item).mpr first, isPattern⟩, rfl⟩
      · refine (leftOut rfl merges item isItem pattern isPattern first).imp_right ?_
        rintro ⟨other, kept, isOther, isKept, same⟩
        exact ⟨kept, mem_filterMap.mpr ⟨other, (isFirst other).mpr isOther, isKept⟩, same⟩

theorem isDefault_security (defaults : ExecApprovalsDefaults)
    (overrides : ExecApprovalsDefaultOverrides) :
    (execSecurity? defaults.security).getD (resolveDefaults defaults overrides).security =
      (resolveDefaults defaults overrides).security := by
  rw [resolveDefaults]
  cases execSecurity? defaults.security <;> rfl

theorem isDefault_ask (defaults : ExecApprovalsDefaults)
    (overrides : ExecApprovalsDefaultOverrides) :
    (execAsk? defaults.ask).getD (resolveDefaults defaults overrides).ask =
      (resolveDefaults defaults overrides).ask := by
  rw [resolveDefaults]
  cases execAsk? defaults.ask <;> rfl

theorem isDefault_askFallback (defaults : ExecApprovalsDefaults)
    (overrides : ExecApprovalsDefaultOverrides) :
    (execSecurity? defaults.askFallback).getD (resolveDefaults defaults overrides).askFallback =
      (resolveDefaults defaults overrides).askFallback := by
  cases nullish : isNullish defaults.askFallback with
  | true =>
    have missing : execSecurity? defaults.askFallback = none := by
      rcases found : defaults.askFallback with - | value
      · rfl
      · rw [found] at nullish
        cases value <;> first | rfl | cases nullish
    rw [missing, Option.getD_none]
  | false =>
    simp only [resolveDefaults, orNullish, nullish, Bool.false_eq_true, if_false]
    cases execSecurity? defaults.askFallback <;> rfl

theorem resolved_eq {rawFile : ExecApprovalsFile} {agentId path socketPath token : Option String}
    {overrides : ExecApprovalsDefaultOverrides} {resolved : ExecApprovalsResolved}
    (isNormal : normalizeExecApprovals host rawFile = some normal)
    (isResolved : resolveExecApprovalsFromFile host rawFile agentId overrides path socketPath
      token = some resolved) :
    resolved.agent =
        { security := (resolveAgentField execSecurity? SecurityField.security.name
            ExecApprovalsDefaults.security normal.defaults
            (agentsOf rawFile normal (agentId.getD defaultAgentId))
            (resolveDefaults normal.defaults overrides).security).value
          ask := (resolveAgentField execAsk? "ask" ExecApprovalsDefaults.ask normal.defaults
            (agentsOf rawFile normal (agentId.getD defaultAgentId))
            (resolveDefaults normal.defaults overrides).ask).value
          askFallback := (resolveAgentField execSecurity? SecurityField.askFallback.name
            ExecApprovalsDefaults.askFallback normal.defaults
            (agentsOf rawFile normal (agentId.getD defaultAgentId))
            (resolveDefaults normal.defaults overrides).askFallback).value
          autoAllowSkills :=
            orNullish (agentOf normal (agentId.getD defaultAgentId)).autoAllowSkills
              (orNullish (agentOf normal "*").autoAllowSkills
                (resolveDefaults normal.defaults overrides).autoAllowSkills) } ∧
      resolved.allowlist = arrayItems (agentOf normal "*").allowlist ++
        arrayItems (agentOf normal (agentId.getD defaultAgentId)).allowlist := by
  rw [resolveExecApprovalsFromFile, isNormal] at isResolved
  obtain rfl := Option.some.inj isResolved
  exact ⟨rfl, rfl⟩

theorem sameAgent_iff {overrides : ExecApprovalsDefaultOverrides}
    {agentId path socketPath token : Option String} {resolved again : ExecApprovalsResolved}
    (isNormal : normalizeExecApprovals host file = some normal)
    (isResolved : resolveExecApprovalsFromFile host file agentId overrides path socketPath token =
      some resolved)
    (isAgain : resolveExecApprovalsFromFile host normal agentId overrides path socketPath token =
      some again) :
    again.agent = resolved.agent ↔
      SettingKept execSecurity? ExecApprovalsDefaults.security file
          (agentId.getD defaultAgentId)
          (resolveDefaults (sanitizeExecApprovalPolicy file.defaults) overrides).security ∧
        SettingKept execAsk? ExecApprovalsDefaults.ask file (agentId.getD defaultAgentId)
          (resolveDefaults (sanitizeExecApprovalPolicy file.defaults) overrides).ask ∧
        SettingKept execSecurity? ExecApprovalsDefaults.askFallback file
          (agentId.getD defaultAgentId)
          (resolveDefaults (sanitizeExecApprovalPolicy file.defaults) overrides).askFallback := by
  have normalAgain := normalizeExecApprovals_idempotent isNormal host
  have isDefaults : normal.defaults = sanitizeExecApprovalPolicy file.defaults := by
    obtain ⟨moved, -, rfl⟩ := normalizeExecApprovals_eq_some_iff.mp isNormal
    rfl
  rw [(resolved_eq isNormal isResolved).1, (resolved_eq normalAgain isAgain).1,
    ResolvedPolicy.mk.injEq, ← isDefaults,
    ← value_eq_iff_settingKept isSetting_security isNormal SecurityField.security.name
      (isDefault_security normal.defaults overrides),
    ← value_eq_iff_settingKept isSetting_ask isNormal "ask"
      (isDefault_ask normal.defaults overrides),
    ← value_eq_iff_settingKept isSetting_askFallback isNormal SecurityField.askFallback.name
      (isDefault_askFallback normal.defaults overrides)]
  simp

/-- A file and its normal form give an agent the same policy exactly when it is unambiguous. -/
theorem keepsPolicy_iff (host : ApprovalsHost) (file : ExecApprovalsFile)
    (agentId : Option String) (overrides : ExecApprovalsDefaultOverrides)
    (path socketPath token : Option String) :
    KeepsPolicy host file agentId overrides path socketPath token ↔
      Unambiguous host file (agentId.getD defaultAgentId) overrides := by
  constructor
  · rintro ⟨normal, resolved, again, isNormal, -, isResolved, isAgain, sameAgent, -, listed⟩
    rw [(resolved_eq isNormal isResolved).2, listed_iff isNormal] at listed
    obtain ⟨security, ask, askFallback⟩ := (sameAgent_iff isNormal isResolved isAgain).mp sameAgent
    exact
      { mergeable := isSome_normalizeExecApprovals_iff.mp (Option.isSome_of_eq_some isNormal)
        security := security
        ask := ask
        askFallback := askFallback
        legacyPatterns := listed.1
        mergedPatterns := listed.2 }
  · intro unambiguous
    obtain ⟨normal, isNormal⟩ := Option.isSome_iff_exists.mp
      (isSome_normalizeExecApprovals_iff.mpr unambiguous.mergeable)
    have normalAgain := normalizeExecApprovals_idempotent isNormal
    obtain ⟨resolved, isResolved⟩ : ∃ resolved, resolveExecApprovalsFromFile host file agentId
        overrides path socketPath token = some resolved := by
      rw [resolveExecApprovalsFromFile, isNormal]
      exact ⟨_, rfl⟩
    obtain ⟨again, isAgain⟩ : ∃ again, resolveExecApprovalsFromFile host normal agentId
        overrides path socketPath token = some again := by
      rw [resolveExecApprovalsFromFile, normalAgain host]
      exact ⟨_, rfl⟩
    refine ⟨normal, resolved, again, isNormal, normalAgain, isResolved, isAgain, ?_, ?_, ?_⟩
    · exact (sameAgent_iff isNormal isResolved isAgain).mpr
        ⟨unambiguous.security, unambiguous.ask, unambiguous.askFallback⟩
    · rw [(resolved_eq (normalAgain host) isAgain).2, (resolved_eq isNormal isResolved).2]
    · rw [(resolved_eq isNormal isResolved).2, listed_iff isNormal]
      exact ⟨unambiguous.legacyPatterns, unambiguous.mergedPatterns⟩

end Main

section MaskedSetting

/-- A host without capitals. -/
def plainHost : ApprovalsHost where
  toLowerCase text := text
  toLowerCase_ne_empty _ nonempty := nonempty
  randomUUID agentId index := "id " ++ agentId ++ toString index
  randomUUID_ne_empty agentId index := by
    rw [String.append_assoc]
    simp
  generateToken := "token"
  resolveExecApprovalsPath := "/home/.openclaw/exec-approvals.json"
  resolveExecApprovalsSocketPath := "/home/.openclaw/exec-approvals.sock"
  expandHomePrefix path := path

/-- The agent `*` is denied, and the main agent has a setting that does not count. -/
def maskedSetting : ExecApprovalsFile :=
  { emptyFile with
    agents :=
      (OrderedMap.empty.set "*" { emptyAgent with security := some (.string "deny") }).set "main"
        { emptyAgent with security := some (.string "none") } }

def noOverrides : ExecApprovalsDefaultOverrides where
  security := none
  ask := none
  askFallback := none
  autoAllowSkills := none

/-- The parsed file gives the main agent everything, and its normal form gives it nothing. -/
theorem not_keepsPolicy_maskedSetting :
    ¬ KeepsPolicy plainHost maskedSetting none noOverrides none none none := by
  rintro ⟨normal, resolved, again, isNormal, -, isResolved, isAgain, sameAgent, -⟩
  have parsed : (resolveExecApprovalsFromFile plainHost maskedSetting none noOverrides none none
      none).map (fun resolved => resolved.agent.security) = some .full := by
    decide +kernel
  have normalized : ((normalizeExecApprovals plainHost maskedSetting).bind fun normal =>
      (resolveExecApprovalsFromFile plainHost normal none noOverrides none none none).map
        fun resolved => resolved.agent.security) = some .deny := by
    decide +kernel
  rw [isResolved] at parsed
  rw [isNormal, Option.bind_some, isAgain, Option.map_some, sameAgent] at normalized
  rw [Option.map_some, normalized] at parsed
  cases parsed

end MaskedSetting

end ApprovalsFile
