import AieClaw.ExecApprovals

/-!
# The decisions in an approvals file

The file holds agents, the commands granted to them, and policy values. Reading the
file keeps these decisions, and each write of a run changes few of them.
-/

namespace ExecApprovals

open JsString List

/-- What an entry grants, without its bookkeeping. -/
structure Grant where
  pattern : String
  argPattern : Option String
  allowAlways : Bool
  deriving DecidableEq

def ExecAllowlistEntry.grant (entry : ExecAllowlistEntry) : Grant where
  pattern := entry.pattern
  argPattern := entry.argPattern
  allowAlways := entry.allowAlways

def ExecApprovalsAgent.grants (agent : ExecApprovalsAgent) : List Grant :=
  (agent.allowlist.getD []).map ExecAllowlistEntry.grant

inductive PolicyValue where
  | security (value : ExecSecurity)
  | ask (value : ExecAsk)
  | askFallback (value : ExecSecurity)
  | autoAllowSkills (value : Bool)

def ExecApprovalsDefaults.Has (policy : ExecApprovalsDefaults) : PolicyValue → Prop
  | .security value => policy.security = some value
  | .ask value => policy.ask = some value
  | .askFallback value => policy.askFallback = some value
  | .autoAllowSkills value => policy.autoAllowSkills = some value

inductive Decision where
  | agent (agentId : String)
  | entry (agentId : String) (grant : Grant)
  /-- A value of an agent, or of the defaults. -/
  | policy (agentId : Option String) (value : PolicyValue)

def ExecApprovalsFile.agentNamed (file : ExecApprovalsFile) (agentId : String) :
    ExecApprovalsAgent :=
  (file.agents.get? agentId).getD emptyAgent

def ExecApprovalsFile.Holds (file : ExecApprovalsFile) : Decision → Prop
  | .agent agentId => (file.agents.get? agentId).isSome
  | .entry agentId grant => grant ∈ (file.agentNamed agentId).grants
  | .policy agentId value =>
    (agentId.elim file.defaults fun agentId => (file.agentNamed agentId).policy).Has value

/-- The file has no agent of the old name. -/
def ExecApprovalsFile.NoLegacy (file : ExecApprovalsFile) : Prop :=
  file.agents.get? "default" = none

theorem not_holds_legacy_iff {file : ExecApprovalsFile} :
    ¬ file.Holds (.agent "default") ↔ file.NoLegacy := by
  simp [ExecApprovalsFile.Holds, ExecApprovalsFile.NoLegacy]

theorem agentOf_eq (file : ExecApprovalsFile) (agentId : Option String) :
    agentOf file agentId = file.agentNamed (agentId.getD defaultAgentId) :=
  rfl

section Reading

variable {host : ApprovalsHost} {file : ExecApprovalsFile}

theorem getD_filter_ne_nil (entries : List ExecAllowlistEntry) :
    ((some entries).filter (· ≠ [])).getD [] = entries := by
  cases entries with
  | nil => rfl
  | cons _ _ => rfl

theorem coerceAllowlistEntries_getD (allowlist : Option (List ExecAllowlistEntry)) :
    (coerceAllowlistEntries allowlist).getD [] =
      (allowlist.getD []).filter fun entry => decide (trim entry.pattern ≠ "") := by
  cases allowlist with
  | none => rfl
  | some entries =>
    simp only [coerceAllowlistEntries, Option.bind_some, Option.getD_some]
    by_cases whole : (entries.filter fun entry => decide (trim entry.pattern ≠ "")).length =
          entries.length
    · rw [if_pos whole, Option.getD_some]
      exact (filter_sublist.eq_of_length whole).symm
    · rw [if_neg whole]
      exact getD_filter_ne_nil _

theorem grants_normalizeAgent (agentId : String) (agent : ExecApprovalsAgent) :
    (normalizeAgent host agentId agent).grants =
      agent.grants.filter fun grant => decide (trim grant.pattern ≠ "") := by
  have stripped : ∀ entries : List ExecAllowlistEntry,
      (stripAllowlistCommandText (ensureAllowlistIds host agentId entries)).map
          ExecAllowlistEntry.grant = entries.map ExecAllowlistEntry.grant := by
    intro entries
    refine ext_getElem (by simp [stripAllowlistCommandText, ensureAllowlistIds]) ?_
    intro index _ _
    simp only [stripAllowlistCommandText, ensureAllowlistIds, getElem_map, getElem_mapIdx]
    split <;> rfl
  calc (normalizeAgent host agentId agent).grants
      = ((coerceAllowlistEntries agent.allowlist).getD []).map ExecAllowlistEntry.grant := by
        simp only [normalizeAgent, ExecApprovalsAgent.grants]
        cases coerceAllowlistEntries agent.allowlist with
        | none => rfl
        | some entries => exact stripped entries
    _ = agent.grants.filter fun grant => decide (trim grant.pattern ≠ "") := by
        rw [coerceAllowlistEntries_getD, ExecApprovalsAgent.grants, filter_map]
        rfl

theorem noLegacy_normalizeExecApprovals : (normalizeExecApprovals host file).NoLegacy := by
  simp only [ExecApprovalsFile.NoLegacy, normalizeExecApprovals, OrderedMap.get?_mapEntries,
    Option.map_eq_none_iff, moveLegacyAgent]
  cases legacy : file.agents.get? "default" with
  | none => exact legacy
  | some agent => exact OrderedMap.get?_delete_self _ _

theorem get?_normalizeExecApprovals (noLegacy : file.NoLegacy) (agentId : String) :
    (normalizeExecApprovals host file).agents.get? agentId =
      (file.agents.get? agentId).map (normalizeAgent host agentId) := by
  have unmoved : moveLegacyAgent host file.agents = file.agents := by
    rw [moveLegacyAgent, show file.agents.get? "default" = none from noLegacy]
    rfl
  simp only [normalizeExecApprovals, unmoved, OrderedMap.get?_mapEntries]

theorem agentNamed_normalizeExecApprovals (noLegacy : file.NoLegacy) (agentId : String) :
    ((normalizeExecApprovals host file).agentNamed agentId).policy =
        (file.agentNamed agentId).policy ∧
      ((normalizeExecApprovals host file).agentNamed agentId).grants =
        (file.agentNamed agentId).grants.filter fun grant => decide (trim grant.pattern ≠ "") := by
  simp only [ExecApprovalsFile.agentNamed, get?_normalizeExecApprovals noLegacy]
  cases file.agents.get? agentId with
  | none => exact ⟨rfl, rfl⟩
  | some agent => exact ⟨rfl, grants_normalizeAgent agentId agent⟩

/-- A grant needs a pattern; the other decisions always count. -/
def Decision.Counts : Decision → Prop
  | .entry _ grant => trim grant.pattern ≠ ""
  | _ => True

theorem holds_normalizeExecApprovals_iff (noLegacy : file.NoLegacy) {decision : Decision} :
    (normalizeExecApprovals host file).Holds decision ↔ file.Holds decision ∧ decision.Counts := by
  cases decision with
  | agent agentId =>
    simp [ExecApprovalsFile.Holds, Decision.Counts, get?_normalizeExecApprovals noLegacy]
  | entry agentId grant =>
    simp [ExecApprovalsFile.Holds, Decision.Counts,
      (agentNamed_normalizeExecApprovals noLegacy agentId).2]
  | policy agentId value =>
    cases agentId with
    | none => simp [ExecApprovalsFile.Holds, Decision.Counts, normalizeExecApprovals]
    | some agentId =>
      simp [ExecApprovalsFile.Holds, Decision.Counts,
        (agentNamed_normalizeExecApprovals noLegacy agentId).1]

theorem noLegacy_ensureExecApprovals (disk : Option ExecApprovalsFile) :
    (ensureExecApprovals host disk).NoLegacy := by
  have noLegacy : (normalizeExecApprovals host (loadExecApprovals host disk)).NoLegacy :=
    noLegacy_normalizeExecApprovals
  exact noLegacy

theorem holds_of_same {other : ExecApprovalsFile} (sameDefaults : other.defaults = file.defaults)
    (sameAgents : other.agents = file.agents) (decision : Decision) :
    other.Holds decision ↔ file.Holds decision := by
  cases decision <;>
    simp [ExecApprovalsFile.Holds, ExecApprovalsFile.agentNamed, sameDefaults, sameAgents]

theorem holds_ensureExecApprovals_iff {disk : Option ExecApprovalsFile} {decision : Decision} :
    (ensureExecApprovals host disk).Holds decision ↔
      (loadExecApprovals host disk).Holds decision ∧ decision.Counts := by
  have sameDecisions : (ensureExecApprovals host disk).Holds decision ↔
      (normalizeExecApprovals host (loadExecApprovals host disk)).Holds decision :=
    holds_of_same rfl rfl decision
  have noLegacy : (loadExecApprovals host disk).NoLegacy := noLegacy_normalizeExecApprovals
  rw [sameDecisions]
  exact holds_normalizeExecApprovals_iff noLegacy

end Reading

section Writing

variable {host : ApprovalsHost} {held : Held} {agentId : Option String} {file : ExecApprovalsFile}
  {allowlist : List ExecAllowlistEntry} {argPattern : Option String}

theorem saveAllowlist_holds_agent {other : String} :
    (saveAllowlist file agentId allowlist).file.Holds (.agent other) ↔
      other = agentId.getD defaultAgentId ∨ file.Holds (.agent other) := by
  simp only [ExecApprovalsFile.Holds, saveAllowlist, OrderedMap.get?_set]
  by_cases same : other = agentId.getD defaultAgentId
  · simp [same]
  · simp [same]

theorem saveAllowlist_holds_entry {other : String} {grant : Grant} :
    (saveAllowlist file agentId allowlist).file.Holds (.entry other grant) ↔
      if other = agentId.getD defaultAgentId then grant ∈ allowlist.map ExecAllowlistEntry.grant
      else
        file.Holds (.entry other grant) := by
  simp only [ExecApprovalsFile.Holds, ExecApprovalsFile.agentNamed, saveAllowlist,
    OrderedMap.get?_set]
  by_cases same : other = agentId.getD defaultAgentId
  · simp [same, ExecApprovalsAgent.grants]
  · simp [same]

theorem saveAllowlist_holds_policy {other : Option String} {value : PolicyValue} :
    (saveAllowlist file agentId allowlist).file.Holds (.policy other value) ↔
      file.Holds (.policy other value) := by
  cases other with
  | none => rfl
  | some other =>
    simp only [ExecApprovalsFile.Holds, ExecApprovalsFile.agentNamed, saveAllowlist,
      OrderedMap.get?_set, Option.elim_some]
    by_cases same : other = agentId.getD defaultAgentId
    · simp [same, agentOf]
    · simp [same]

theorem grants_markUsed (used : ExecAllowlistEntry) (command : String)
    (resolvedPath : Option String) (entries : List ExecAllowlistEntry) :
    (entries.mapIdx fun index item =>
        if item.pattern = used.pattern ∧ item.argPattern = used.argPattern then
          markUsed host agentId command resolvedPath index item
        else item).map ExecAllowlistEntry.grant = entries.map ExecAllowlistEntry.grant := by
  refine ext_getElem (by simp) ?_
  intro index _ _
  simp only [getElem_map, getElem_mapIdx]
  split <;> rfl

theorem holds_recordAllowlistUse_iff {used : ExecAllowlistEntry} {command : String}
    {resolvedPath : Option String} {decision : Decision} :
    (recordAllowlistUse host held agentId used command resolvedPath).file.Holds decision ↔
      held.file.Holds decision ∨ decision = .agent (agentId.getD defaultAgentId) := by
  rw [recordAllowlistUse]
  cases decision with
  | agent other => rw [saveAllowlist_holds_agent, or_comm, Decision.agent.injEq]
  | entry other grant =>
    rw [saveAllowlist_holds_entry, grants_markUsed, agentOf_eq]
    by_cases same : other = agentId.getD defaultAgentId
    · simp [same, ExecApprovalsFile.Holds, ExecApprovalsAgent.grants]
    · simp [same]
  | policy other value => simp [saveAllowlist_holds_policy]

/-- What an approver of a pattern grants. -/
def approvedGrant (pattern : String) (argPattern : Option String) : Grant where
  pattern := trim pattern
  argPattern := normalizeOptionalString argPattern
  allowAlways := true

def existingEntry (file : ExecApprovalsFile) (agentId : Option String) (pattern : String)
    (argPattern : Option String) : Option ExecAllowlistEntry :=
  ((agentOf file agentId).allowlist.getD []).find? fun entry =>
    decide (entry.pattern = trim pattern ∧ entry.argPattern = normalizeOptionalString argPattern)

/-- The pattern is not blank, and the entry found for it is not allowed for good yet. -/
def addChanges (file : ExecApprovalsFile) (agentId : Option String) (pattern : String)
    (argPattern : Option String) : Bool :=
  trim pattern ≠ "" &&
    !(existingEntry file agentId pattern argPattern).any ExecAllowlistEntry.allowAlways

/--
The entry found is not allowed for good, and one of the same pattern with other
arguments is.
-/
def Overwrites (file : ExecApprovalsFile) (agentId : Option String) (pattern : String)
    (argPattern : Option String) : Prop :=
  (existingEntry file agentId pattern argPattern).isSome ∧
    ∃ grant ∈ (agentOf file agentId).grants,
      grant.pattern = trim pattern ∧ grant.allowAlways = true ∧
        grant.argPattern ≠ normalizeOptionalString argPattern

theorem addAllowlistEntry_of_not_changes {saved : Bool} {pattern : String}
    (unchanged : addChanges file agentId pattern argPattern = false) :
    addAllowlistEntry host ⟨file, saved⟩ agentId pattern argPattern = ⟨file, saved⟩ := by
  rw [addAllowlistEntry]
  by_cases blank : trim pattern = ""
  · rw [if_pos blank]
  · rw [if_neg blank]
    have allowed : (existingEntry file agentId pattern argPattern).any
        ExecAllowlistEntry.allowAlways = true := by
      simpa [addChanges, blank] using unchanged
    cases found : existingEntry file agentId pattern argPattern with
    | none =>
      rw [found] at allowed
      exact absurd allowed (by simp)
    | some existing =>
      rw [found] at allowed
      rw [existingEntry] at found
      simp only [found]
      exact if_pos allowed

/-- The list of entries that adding saves. -/
def addedTo (host : ApprovalsHost) (file : ExecApprovalsFile) (agentId : Option String)
    (pattern : String) (argPattern : Option String) : List ExecAllowlistEntry :=
  let allowlist := (agentOf file agentId).allowlist.getD []
  if (existingEntry file agentId pattern argPattern).isSome then
    allowlist.map fun entry =>
      if entry.pattern = trim pattern then
        { entry with
          argPattern := normalizeOptionalString argPattern
          allowAlways := true
          lastUsedAt := some host.now }
      else entry
  else
    allowlist ++
      [{ id := some (host.newId (agentId.getD defaultAgentId) allowlist.length)
         pattern := trim pattern
         allowAlways := true
         commandText := none
         argPattern := normalizeOptionalString argPattern
         lastUsedAt := some host.now
         lastUsedCommand := none
         lastResolvedPath := none }]

theorem addAllowlistEntry_of_changes {saved : Bool} {pattern : String}
    (changes : addChanges file agentId pattern argPattern = true) :
    addAllowlistEntry host ⟨file, saved⟩ agentId pattern argPattern =
      saveAllowlist file agentId (addedTo host file agentId pattern argPattern) := by
  obtain ⟨notBlank, notAllowed⟩ := Bool.and_eq_true_iff.mp changes
  rw [addAllowlistEntry, if_neg (of_decide_eq_true notBlank)]
  cases found : existingEntry file agentId pattern argPattern with
  | none =>
    simp only [addedTo, found]
    rw [existingEntry] at found
    simp only [found]
    rfl
  | some existing =>
    rw [found] at notAllowed
    simp only [addedTo, found]
    rw [existingEntry] at found
    simp only [found]
    exact if_neg (by simpa using notAllowed)

section Adding

variable {file : ExecApprovalsFile} {pattern : String} {argPattern : Option String}

theorem approvedGrant_mem_addedTo : approvedGrant pattern argPattern ∈
      (addedTo host file agentId pattern argPattern).map ExecAllowlistEntry.grant := by
  cases found : existingEntry file agentId pattern argPattern with
  | none => simp [addedTo, found, ExecAllowlistEntry.grant, approvedGrant]
  | some existing =>
    have known : existing ∈ (agentOf file agentId).allowlist.getD [] :=
      mem_of_find?_eq_some found
    have samePattern : existing.pattern = trim pattern := by
      have matching := find?_some found
      exact (of_decide_eq_true matching).1
    simp only [addedTo, found, Option.isSome_some, if_true, map_map]
    refine mem_map.mpr ⟨existing, known, ?_⟩
    rw [Function.comp_apply, if_pos samePattern]
    simp [ExecAllowlistEntry.grant, approvedGrant, samePattern]

theorem of_mem_addedTo {grant : Grant}
    (member : grant ∈ (addedTo host file agentId pattern argPattern).map ExecAllowlistEntry.grant) :
    grant ∈ (agentOf file agentId).grants ∨ grant = approvedGrant pattern argPattern := by
  cases found : existingEntry file agentId pattern argPattern with
  | none =>
    simp only [addedTo, found, Option.isSome_none, Bool.false_eq_true, if_false,
      map_append, mem_append, map_cons, map_nil, mem_singleton] at member
    exact member
  | some existing =>
    simp only [addedTo, found, Option.isSome_some, if_true, map_map] at member
    obtain ⟨entry, known, rfl⟩ := mem_map.mp member
    rw [Function.comp_apply]
    by_cases samePattern : entry.pattern = trim pattern
    · rw [if_pos samePattern]
      right
      simp [ExecAllowlistEntry.grant, approvedGrant, samePattern]
    · rw [if_neg samePattern]
      exact Or.inl (mem_map_of_mem known)

theorem mem_addedTo {grant : Grant} (kept : ¬ Overwrites file agentId pattern argPattern)
    (forGood : grant.allowAlways = true) (member : grant ∈ (agentOf file agentId).grants) :
    grant ∈ (addedTo host file agentId pattern argPattern).map ExecAllowlistEntry.grant := by
  cases found : existingEntry file agentId pattern argPattern with
  | none =>
    simp only [addedTo, found, Option.isSome_none, Bool.false_eq_true, if_false,
      map_append, mem_append]
    exact Or.inl member
  | some existing =>
    simp only [addedTo, found, Option.isSome_some, if_true, map_map]
    obtain ⟨entry, known, rfl⟩ := mem_map.mp member
    refine mem_map.mpr ⟨entry, known, ?_⟩
    rw [Function.comp_apply]
    by_cases samePattern : entry.pattern = trim pattern
    · have sameArguments : entry.argPattern = normalizeOptionalString argPattern := by
        by_contra differs
        exact kept ⟨by simp [found], entry.grant, member, samePattern, forGood, differs⟩
      rw [if_pos samePattern]
      simp only [ExecAllowlistEntry.grant, Grant.mk.injEq, true_and]
      exact ⟨sameArguments.symm, forGood.symm⟩
    · rw [if_neg samePattern]

end Adding

variable {pattern : String} {argPattern : Option String}

theorem holds_approvedGrant {file : ExecApprovalsFile} {saved : Bool}
    (changes : addChanges file agentId pattern argPattern = true) :
    (addAllowlistEntry host ⟨file, saved⟩ agentId pattern argPattern).file.Holds
      (.entry (agentId.getD defaultAgentId) (approvedGrant pattern argPattern)) := by
  rw [addAllowlistEntry_of_changes changes, saveAllowlist_holds_entry, if_pos rfl]
  exact approvedGrant_mem_addedTo

theorem holds_of_addAllowlistEntry {decision : Decision}
    (holds : (addAllowlistEntry host held agentId pattern argPattern).file.Holds decision) :
    held.file.Holds decision ∨ decision = .agent (agentId.getD defaultAgentId) ∨
      decision = .entry (agentId.getD defaultAgentId) (approvedGrant pattern argPattern) := by
  obtain ⟨file, saved⟩ := held
  cases changes : addChanges file agentId pattern argPattern with
  | false =>
    rw [addAllowlistEntry_of_not_changes changes] at holds
    exact Or.inl holds
  | true =>
    rw [addAllowlistEntry_of_changes changes] at holds
    cases decision with
    | agent other =>
      rcases saveAllowlist_holds_agent.mp holds with same | known
      · exact Or.inr (Or.inl (congrArg _ same))
      · exact Or.inl known
    | entry other grant =>
      rw [saveAllowlist_holds_entry] at holds
      by_cases same : other = agentId.getD defaultAgentId
      · rw [if_pos same] at holds
        subst same
        rcases of_mem_addedTo holds with known | rfl
        · exact Or.inl known
        · exact Or.inr (Or.inr rfl)
      · rw [if_neg same] at holds
        exact Or.inl holds
    | policy other value => exact Or.inl (saveAllowlist_holds_policy.mp holds)

theorem addAllowlistEntry_holds_entry
    {other : String} {grant : Grant} (kept : ¬ Overwrites held.file agentId pattern argPattern)
    (forGood : grant.allowAlways = true) (holds : held.file.Holds (.entry other grant)) :
    (addAllowlistEntry host held agentId pattern argPattern).file.Holds (.entry other grant) := by
  obtain ⟨file, saved⟩ := held
  cases changes : addChanges file agentId pattern argPattern with
  | false =>
    rw [addAllowlistEntry_of_not_changes changes]
    exact holds
  | true =>
    rw [addAllowlistEntry_of_changes changes, saveAllowlist_holds_entry]
    by_cases same : other = agentId.getD defaultAgentId
    · rw [if_pos same]
      subst same
      exact mem_addedTo kept forGood holds
    · rw [if_neg same]
      exact holds

end Writing

end ExecApprovals
