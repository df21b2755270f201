import AieClaw.ToolPolicyReadings

/-!
# Denied tools stay away

A policy denies what one of its deny entries stands for and, when its allow list has an
entry, what no allow entry stands for. The pipeline rewrites the entries before it
matches them, and the injected tools do not pass it. A run respects its policies exactly
when no denied tool is injected and no tool that the rewritten policies let through is
judged by a reading that the rewriting loses or adds.
-/

namespace ToolPolicies

open List Option

section PluginGroups

variable {lower : LowerCase} {tool : Tool} {groups : PluginToolGroups}

theorem pluginKey_eq_some_iff {key : String} : tool.pluginKey lower = some key ↔
      ∃ id, tool.pluginId = some id ∧ normalizeLowercaseStringOrEmpty lower id = key ∧
        key ≠ "" := by
  unfold Tool.pluginKey
  rw [filter_eq_some_iff, map_eq_some_iff, decide_eq_true_eq]
  constructor
  · rintro ⟨⟨id, isId, isKey⟩, nonempty⟩
    exact ⟨id, isId, isKey, nonempty⟩
  · rintro ⟨id, isId, isKey, nonempty⟩
    exact ⟨⟨id, isId, isKey⟩, nonempty⟩

theorem addPluginTool_of_pluginId_eq_none (noPlugin : tool.pluginId = none)
    (groups : PluginToolGroups) : addPluginTool lower groups tool = groups := by
  unfold addPluginTool
  rw [noPlugin]

theorem mem_all_addPluginTool {name : ToolName} : name ∈ (addPluginTool lower groups tool).all ↔
      name ∈ groups.all ∨ (tool.pluginId.isSome ∧ name = normalizeToolName lower tool.name) := by
  rcases eq_none_or_eq_some tool.pluginId with noPlugin | ⟨id, isId⟩
  · rw [addPluginTool_of_pluginId_eq_none noPlugin, noPlugin]
    simp
  · unfold addPluginTool
    rw [isId]
    dsimp only
    split
    · simp
    · simp

theorem mem_toolsOf_addPluginTool {name : ToolName} {key : String} :
    name ∈ (addPluginTool lower groups tool).toolsOf (.text key) ↔
      name ∈ groups.toolsOf (.text key) ∨
        (tool.pluginKey lower = some key ∧ name = normalizeToolName lower tool.name) := by
  rcases eq_none_or_eq_some tool.pluginId with noPlugin | ⟨id, isId⟩
  · rw [addPluginTool_of_pluginId_eq_none noPlugin, pluginKey_eq_some_iff, noPlugin]
    simp
  · have isKey : tool.pluginKey lower = some key ↔
        normalizeLowercaseStringOrEmpty lower id = key ∧ key ≠ "" := by
      rw [pluginKey_eq_some_iff, isId]
      simp
    rw [isKey]
    unfold addPluginTool PluginToolGroups.toolsOf
    rw [isId]
    dsimp only
    split
    · rename_i blank
      rw [blank]
      simp only [iff_self_or, and_imp]
      exact fun isBlank nonempty => absurd isBlank.symm nonempty
    · rename_i nonempty
      dsimp only
      rw [OrderedMap.get?_set]
      split
      · rename_i same
        rw [getD_some, mem_append, mem_singleton, ← same]
        simp [nonempty, same]
      · rename_i other
        simp only [iff_self_or, and_imp]
        exact fun same => absurd same.symm other

theorem mem_buildPluginToolGroups (lower : LowerCase) (tools : List Tool) :
    (∀ name, name ∈ (buildPluginToolGroups lower tools).all ↔
        ∃ tool ∈ tools, tool.pluginId.isSome ∧ name = normalizeToolName lower tool.name) ∧
      ∀ key name, name ∈ (buildPluginToolGroups lower tools).toolsOf (.text key) ↔
        ∃ tool ∈ tools, tool.pluginKey lower = some key ∧
          name = normalizeToolName lower tool.name := by
  unfold buildPluginToolGroups
  induction tools using List.reverseRecOn with
  | nil => simp [PluginToolGroups.toolsOf]
  | append_singleton earlier tool inductionHypothesis =>
    rw [foldl_append, foldl_cons, foldl_nil]
    constructor
    · intro name
      rw [mem_all_addPluginTool, inductionHypothesis.1]
      simp
    · intro key name
      rw [mem_toolsOf_addPluginTool, inductionHypothesis.2]
      simp

end PluginGroups

section Rewriting

variable {lower : LowerCase}

def Replaces (lower : LowerCase) (entry : String) (tool : Tool) : Prop :=
  (spelling lower entry = "group:plugins" ∧ tool.pluginId.isSome) ∨
    (spelling lower entry ≠ "group:plugins" ∧
      isInheritedMember (spelling lower entry) = false ∧
        tool.pluginKey lower = some (spelling lower entry))

theorem normalizeToolName_eq_groupPlugins_iff (entry : String) :
    normalizeToolName lower entry = .text "group:plugins" ↔
      spelling lower entry = "group:plugins" := by
  rw [normalizeToolName_eq_text_iff]
  exact and_iff_left (by decide)

theorem mem_ite_of_nonempty {α : Type} {given fallback : List α} {element : α} :
    element ∈ (if given ≠ [] then given else fallback) ↔
      element ∈ given ∨ ((∀ other, other ∉ given) ∧ element ∈ fallback) := by
  by_cases isEmpty : given = []
  · subst isEmpty
    simp
  · rw [if_pos isEmpty]
    obtain ⟨other, member⟩ := exists_mem_of_ne_nil given isEmpty
    exact ⟨Or.inl, fun either => either.elim id fun none => absurd member (none.1 other)⟩

/-- An entry is replaced by the plugin tools it names, and stays when there is none. -/
theorem mem_expandPluginGroup {tools : List Tool} {entry : String} {name : ToolName} :
    name ∈ expandPluginGroup lower (buildPluginToolGroups lower tools) entry ↔
      (∃ tool ∈ tools, Replaces lower entry tool ∧ name = normalizeToolName lower tool.name) ∨
        ((∀ tool ∈ tools, ¬Replaces lower entry tool) ∧ name = normalizeToolName lower entry) := by
  obtain ⟨mem_all, mem_toolsOf⟩ := mem_buildPluginToolGroups lower tools
  unfold expandPluginGroup
  dsimp only
  by_cases isAll : spelling lower entry = "group:plugins"
  · have replaces (tool : Tool) : Replaces lower entry tool ↔ tool.pluginId.isSome := by
      simp [Replaces, isAll]
    rw [if_pos ((normalizeToolName_eq_groupPlugins_iff entry).mpr isAll), mem_ite_of_nonempty,
      mem_all, mem_singleton]
    simp only [mem_all, replaces, not_exists, not_and]
    refine or_congr_right (and_congr_left fun _ => ?_)
    exact ⟨fun none tool member isPlugin => none _ tool member isPlugin rfl,
      fun none _ tool member isPlugin _ => none tool member isPlugin⟩
  · rw [if_neg fun same => isAll ((normalizeToolName_eq_groupPlugins_iff entry).mp same),
      mem_ite_of_nonempty, mem_singleton]
    by_cases inherited : isInheritedMember (spelling lower entry) = true
    · have replaces (tool : Tool) : ¬Replaces lower entry tool := by
        simp [Replaces, isAll, inherited]
      have isMember : normalizeToolName lower entry = .inherited (spelling lower entry) := by
        rw [normalizeToolName_eq, if_pos inherited]
      have noTools : (buildPluginToolGroups lower tools).toolsOf
          (.inherited (spelling lower entry)) = [] := rfl
      rw [isMember, noTools]
      simp [replaces]
    · have notInherited := Bool.eq_false_of_not_eq_true inherited
      have replaces (tool : Tool) : Replaces lower entry tool ↔
          tool.pluginKey lower = some (spelling lower entry) := by
        simp [Replaces, isAll, notInherited]
      have isText : normalizeToolName lower entry = .text (spelling lower entry) :=
        normalizeToolName_eq_text_iff.mpr ⟨rfl, notInherited⟩
      rw [isText]
      simp only [mem_toolsOf, replaces, not_exists, not_and]
      refine or_congr_right (and_congr_left fun _ => ?_)
      exact ⟨fun none tool member isKey => none _ tool member isKey rfl,
        fun none _ tool member isKey _ => none tool member isKey⟩

end Rewriting

section Matching

variable {lower : LowerCase} {tools : List Tool}

/-- The list that a list of entries is rewritten to. -/
def rewritten (lower : LowerCase) (tools : List Tool) (list : Option (List String)) :
    List ToolName :=
  (expandPluginGroups lower list (buildPluginToolGroups lower tools)).getD []

variable {list : Option (List String)}

theorem mem_rewritten {name : ToolName} :
    name ∈ rewritten lower tools list ↔ ∃ entry ∈ list.getD [],
        name ∈ expandPluginGroup lower (buildPluginToolGroups lower tools) entry := by
  unfold rewritten expandPluginGroups
  cases list with
  | none => simp
  | some entries => simp [mem_eraseDups]

theorem isNormalized_rewritten (list : Option (List String)) :
    IsNormalized lower (rewritten lower tools list) := by
  intro name member
  obtain ⟨entry, -, expanded⟩ := mem_rewritten.mp member
  rcases mem_expandPluginGroup.mp expanded with ⟨tool, -, -, same⟩ | ⟨-, same⟩
  · exact ⟨tool.name, same.symm⟩
  · exact ⟨entry, same.symm⟩

/-- A rewritten list, compiled, matches a value. -/
def Matches (lower : LowerCase) (tools : List Tool) (list : Option (List String))
    (value : ToolName) : Prop :=
  matchesAnyGlobPattern value
    (compileGlobPatterns lower (expandToolGroups lower (rewritten lower tools list))) = true

/-- A text that stands in the rewritten list for an entry. -/
def Source (lower : LowerCase) (tools : List Tool) (entry source : String) : Prop :=
  (∃ tool ∈ tools, Replaces lower entry tool ∧ normalizeToolName lower tool.name = .text source) ∨
    ((∀ tool ∈ tools, ¬Replaces lower entry tool) ∧ normalizeToolName lower entry = .text source)

theorem text_mem_rewritten {source : String} : .text source ∈ rewritten lower tools list ↔
      ∃ entry ∈ list.getD [], Source lower tools entry source := by
  rw [mem_rewritten]
  refine exists_congr fun entry => and_congr_right fun _ => ?_
  rw [mem_expandPluginGroup, Source]
  refine or_congr (exists_congr fun tool => and_congr_right fun _ => ?_) ?_
  · exact and_congr_right fun _ => eq_comm
  · exact and_congr_right fun _ => eq_comm

theorem matches_iff {value : ToolName} :
    Matches lower tools list value ↔ ∃ entry ∈ list.getD [], ∃ source,
        Source lower tools entry source ∧ source ≠ "" ∧ Reads source value := by
  rw [Matches, matchesAnyGlobPattern_iff (isNormalized_rewritten list)]
  simp only [text_mem_rewritten]
  constructor
  · rintro ⟨source, ⟨entry, member, isSource⟩, nonempty, reads⟩
    exact ⟨entry, member, source, isSource, nonempty, reads⟩
  · rintro ⟨entry, member, source, isSource, nonempty, reads⟩
    exact ⟨source, ⟨entry, member, isSource⟩, nonempty, reads⟩

/-- No entry of a list leaves a text to match. -/
def IsVoid (lower : LowerCase) (tools : List Tool) (list : Option (List String)) : Prop :=
  ∀ entry ∈ list.getD [], ∀ source, Source lower tools entry source → source = ""

theorem compile_rewritten_eq_nil_iff :
    compileGlobPatterns lower (expandToolGroups lower (rewritten lower tools list)) = [] ↔
      IsVoid lower tools list := by
  rw [compileGlobPatterns_eq_nil_iff (isNormalized_rewritten list)]
  simp only [text_mem_rewritten]
  constructor
  · intro blank entry member source isSource
    exact blank source ⟨entry, member, isSource⟩
  · rintro void source ⟨entry, member, isSource⟩
    exact void entry member source isSource

/-- The matcher of a rewritten policy lets a name through. -/
def Passes (lower : LowerCase) (tools : List Tool) (policy : ToolPolicyLike String)
    (name : String) : Prop :=
  isToolAllowedByPolicyName lower name
    (expandPolicyWithPluginGroups lower policy (buildPluginToolGroups lower tools)) = true

theorem passes_iff {policy : ToolPolicyLike String} {name : String} :
    Passes lower tools policy name ↔
      ¬Matches lower tools policy.deny (normalizeToolName lower name) ∧
        (IsVoid lower tools policy.allow ∨
          Matches lower tools policy.allow (normalizeToolName lower name) ∨
            (normalizeToolName lower name = .text "apply_patch" ∧
              Matches lower tools policy.allow (.text "write"))) := by
  have unfolded : Passes lower tools policy name ↔
      (if matchesAnyGlobPattern (normalizeToolName lower name) (compileGlobPatterns lower
              (expandToolGroups lower (rewritten lower tools policy.deny))) then
          false
        else if compileGlobPatterns lower
            (expandToolGroups lower (rewritten lower tools policy.allow)) = [] then
          true
        else if matchesAnyGlobPattern (normalizeToolName lower name) (compileGlobPatterns lower
              (expandToolGroups lower (rewritten lower tools policy.allow))) then
          true
        else
          decide (normalizeToolName lower name = .text "apply_patch") &&
            matchesAnyGlobPattern (.text "write") (compileGlobPatterns lower
                (expandToolGroups lower (rewritten lower tools policy.allow)))) = true :=
    Iff.rfl
  rw [unfolded, ← compile_rewritten_eq_nil_iff]
  unfold Matches
  split
  · rename_i denied
    simp [denied]
  · rename_i notDenied
    split
    · rename_i isNil
      simp [notDenied, isNil]
    · rename_i nonempty
      split
      · rename_i allowed
        simp [notDenied, allowed]
      · rename_i notAllowed
        simp [notDenied, nonempty, notAllowed]

end Matching

section Pipeline

variable {lower : LowerCase}

theorem policy_analyzeAllowlistByToolType (policy : ToolPolicyLike String)
    (groups : PluginToolGroups) (coreTools : List ToolName) :
    (analyzeAllowlistByToolType lower policy groups coreTools).policy = policy := by
  unfold analyzeAllowlistByToolType
  dsimp only
  split
  · rfl
  · rfl

theorem mem_applyStep {groups : PluginToolGroups} {coreTools : List ToolName}
    {filtered : List Tool} {step : ToolPolicyPipelineStep} {tool : Tool} :
    tool ∈ applyStep lower groups coreTools filtered step ↔ tool ∈ filtered ∧
        ∀ policy, step.policy = some policy →
          isToolAllowedByPolicyName lower tool.name
            (expandPolicyWithPluginGroups lower policy groups) = true := by
  unfold applyStep
  rcases eq_none_or_eq_some step.policy with noPolicy | ⟨policy, isPolicy⟩
  · rw [noPolicy]
    simp
  · rw [isPolicy]
    dsimp only
    rw [policy_analyzeAllowlistByToolType, ite_self, filterToolsByPolicy, mem_filter]
    simp

theorem mem_applyToolPolicyPipeline {tools : List Tool}
    {steps : List ToolPolicyPipelineStep} {tool : Tool} :
    tool ∈ applyToolPolicyPipeline lower tools steps ↔ tool ∈ tools ∧
        ∀ policy ∈ steps.filterMap (·.policy), Passes lower tools policy tool.name := by
  have general (filtered : List Tool) : tool ∈ steps.foldl
          (applyStep lower (buildPluginToolGroups lower tools) (coreToolNames lower tools))
          filtered ↔ tool ∈ filtered ∧ ∀ step ∈ steps, ∀ policy, step.policy = some policy →
            Passes lower tools policy tool.name := by
    induction steps generalizing filtered with
    | nil => simp
    | cons step rest inductionHypothesis =>
      rw [foldl_cons, inductionHypothesis, mem_applyStep, forall_mem_cons, and_assoc]
      rfl
  unfold applyToolPolicyPipeline
  rw [general]
  refine and_congr_right fun _ => ?_
  simp only [mem_filterMap]
  constructor
  · rintro passes policy ⟨step, member, isPolicy⟩
    exact passes step member policy isPolicy
  · intro passes step member policy isPolicy
    exact passes policy ⟨step, member, isPolicy⟩

end Pipeline

section Runs

variable (lower : LowerCase) (run : ToolRun)

/-- The policies that the pipeline applies, extended by what the run forces. -/
def ToolRun.effectivePolicies : List (ToolPolicyLike String) :=
  (run.steps lower).filterMap fun step => step.policy

/-- No returned tool is denied, and what was not injected is allowed. -/
def RespectsPolicies : Prop :=
  (∀ tool ∈ createOpenClawCodingTools lower run, ∀ policy ∈ run.effectivePolicies lower,
      ¬Denies lower run.tools policy (spelling lower tool.name)) ∧
    ∀ tool ∈ (createOpenClawCodingTools lower run).drop run.injected.length,
      ∀ policy ∈ run.effectivePolicies lower, policy.allow.getD [] ≠ [] →
        Allows lower run.tools policy (spelling lower tool.name)

/-- A name that no text of a rewritten list reaches, or that reads as a group. -/
def HasNoAddress (name : String) : Prop :=
  name = "" ∨ isInheritedMember name = true ∨ TOOL_GROUPS.get? name ≠ none

/-- The rewriting may lose the reading by which an entry stands for a tool. -/
inductive Loses (entry : String) (tool : Tool) : Prop where
  /-- The entry is read as a plugin that has no tool of this name. -/
  | asPlugin :
      (∃ other ∈ run.toolsForModelProvider lower, Replaces lower entry other) →
        (∀ other ∈ run.toolsForModelProvider lower, Replaces lower entry other →
          spelling lower other.name ≠ spelling lower tool.name) →
          Loses entry tool
  /-- The entry is an alias, and a plugin may be named as it is written. -/
  | asAlias : spelling lower entry ≠ normalizeLowercaseStringOrEmpty lower entry → Loses entry tool
  /-- The entry names a member of objects. -/
  | asMember : isInheritedMember (spelling lower entry) = true → Loses entry tool
  /-- The tool's own name is blank, a member of objects or the name of a group. -/
  | noAddress : HasNoAddress (spelling lower tool.name) → Loses entry tool
  /-- A star does not cross the end of a line in the tool's name. -/
  | lineBreak :
      (∃ character ∈ (spelling lower tool.name).toList,
        JsString.isLineTerminator character = true) →
        Loses entry tool
  /-- A plugin tool of this name was taken out in front of the pipeline. -/
  | withdrawn :
      (∃ other ∈ run.tools, other ∉ run.toolsForModelProvider lower ∧
        other.pluginId.isSome ∧ spelling lower other.name = spelling lower tool.name) →
        Loses entry tool

/-- The rewriting may let a policy allow a tool that none of its entries stands for. -/
inductive Widens (policy : ToolPolicyLike String) (tool : Tool) : Prop where
  /-- Nothing of the allow list is left, which allows everything. -/
  | isVoid : IsVoid lower (run.toolsForModelProvider lower) policy.allow → Widens policy tool
  /-- The name of a plugin's tool is read again, as a group or as a glob. -/
  | rereads :
      (∃ entry ∈ policy.allow.getD [], ∃ other ∈ run.toolsForModelProvider lower,
        Replaces lower entry other ∧
          (TOOL_GROUPS.get? (spelling lower other.name) ≠ none ∨
            '*' ∈ (spelling lower other.name).toList)) →
        Widens policy tool
  /-- The tool is named like a member of objects and is matched by what that shows. -/
  | shows : isInheritedMember (spelling lower tool.name) = true → Widens policy tool

/-- Every rewritten policy lets a tool through. -/
def PassesAll (tool : Tool) : Prop :=
  ∀ policy ∈ run.effectivePolicies lower,
    Passes lower (run.toolsForModelProvider lower) policy tool.name

/--
No denied tool is injected, and no tool that the rewritten policies let through is denied
by a reading that is lost or allowed by one that is added.
-/
structure SuitsPolicies : Prop where
  injected :
    ∀ tool ∈ run.injected, ∀ policy ∈ run.effectivePolicies lower,
      ¬Denies lower run.tools policy (spelling lower tool.name)
  lost :
    ∀ tool ∈ run.toolsForModelProvider lower, PassesAll lower run tool →
      ∀ policy ∈ run.effectivePolicies lower, ∀ entry ∈ policy.deny.getD [],
        Loses lower run entry tool → ¬StandsFor lower run.tools entry (spelling lower tool.name)
  added :
    ∀ tool ∈ run.toolsForModelProvider lower, PassesAll lower run tool →
      ∀ policy ∈ run.effectivePolicies lower, policy.allow.getD [] ≠ [] →
        Widens lower run policy tool → Allows lower run.tools policy (spelling lower tool.name)

end Runs

section Readings

variable {lower : LowerCase} {run : ToolRun}

theorem mem_tools_of_mem_toolsForModelProvider {tool : Tool}
    (member : tool ∈ run.toolsForModelProvider lower) : tool ∈ run.tools := by
  have fromFlush {tools : List Tool} (kept : tool ∈ toolsForMemoryFlush tools run.options) :
      tool ∈ tools := by
    unfold toolsForMemoryFlush at kept
    split at kept
    · exact mem_of_mem_filter kept
    · exact kept
  have fromProvider {tools : List Tool}
      (kept : tool ∈ applyModelProviderToolPolicy tools run.options) : tool ∈ tools := by
    unfold applyModelProviderToolPolicy at kept
    dsimp only at kept
    split at kept <;> split at kept
    · exact mem_of_mem_filter (mem_of_mem_filter kept)
    · exact mem_of_mem_filter kept
    · exact mem_of_mem_filter kept
    · exact kept
  exact fromFlush (mem_of_mem_filter (fromProvider member))

theorem mem_subagentFiltered {tool : Tool} : tool ∈ run.subagentFiltered lower ↔
      tool ∈ run.toolsForModelProvider lower ∧ PassesAll lower run tool :=
  mem_applyToolPolicyPipeline

theorem standsFor_of_replaces {entry : String} {tool : Tool} (member : tool ∈ run.tools)
    (replaces : Replaces lower entry tool) :
    StandsFor lower run.tools entry (spelling lower tool.name) := by
  rcases replaces with ⟨isAll, isPlugin⟩ | ⟨-, -, isKey⟩
  · exact .plugins isAll member isPlugin
  · exact .plugin member isKey (Or.inl rfl)

theorem reads_self {name : String} (hasAddress : ¬HasNoAddress name) : Reads name (.text name) :=
  Or.inr ⟨by_contra fun isGroup => hasAddress (Or.inr (Or.inr isGroup)), Or.inr (Or.inl rfl)⟩

/-- A reading that is not lost makes the rewritten list match. -/
theorem matches_of_standsFor {list : Option (List String)} {entry : String}
    (member : entry ∈ list.getD []) {tool : Tool} (kept : ¬Loses lower run entry tool)
    (stands : StandsFor lower run.tools entry (spelling lower tool.name)) :
    Matches lower (run.toolsForModelProvider lower) list (normalizeToolName lower tool.name) := by
  have hasAddress : ¬HasNoAddress (spelling lower tool.name) := fun none => kept (.noAddress none)
  have nonempty : spelling lower tool.name ≠ "" := fun isEmpty => hasAddress (Or.inl isEmpty)
  have isText : normalizeToolName lower tool.name = .text (spelling lower tool.name) :=
    normalizeToolName_eq_text_iff.mpr
      ⟨rfl, Bool.eq_false_of_not_eq_true fun inherited => hasAddress (Or.inr (Or.inl inherited))⟩
  have entryText : normalizeToolName lower entry = .text (spelling lower entry) :=
    normalizeToolName_eq_text_iff.mpr
      ⟨rfl, Bool.eq_false_of_not_eq_true fun inherited => kept (.asMember inherited)⟩
  rw [isText, matches_iff]
  -- A plugin tool of the same name that the entry is replaced by matches by its name.
  have byTool {other : Tool} (available : other ∈ run.toolsForModelProvider lower)
      (replaces : Replaces lower entry other)
      (sameName : spelling lower other.name = spelling lower tool.name) :
      ∃ entry ∈ list.getD [], ∃ source,
        Source lower (run.toolsForModelProvider lower) entry source ∧
        source ≠ "" ∧ Reads source (.text (spelling lower tool.name)) := by
    have otherText : normalizeToolName lower other.name = .text (spelling lower tool.name) := by
      rw [← isText, normalizeToolName_eq, normalizeToolName_eq, sameName]
    exact ⟨entry, member, _, Or.inl ⟨other, available, replaces, otherText⟩, nonempty,
      reads_self hasAddress⟩
  by_cases replaced : ∃ other ∈ run.toolsForModelProvider lower, Replaces lower entry other
  · by_contra notMatched
    refine kept (.asPlugin replaced ?_)
    intro other available replaces sameName
    exact notMatched (byTool available replaces sameName)
  · have stays : Source lower (run.toolsForModelProvider lower) entry (spelling lower entry) :=
      Or.inr ⟨fun other available replaces => replaced ⟨other, available, replaces⟩, entryText⟩
    have bySelf (entryNonempty : spelling lower entry ≠ "")
        (reads : Reads (spelling lower entry) (.text (spelling lower tool.name))) :
        ∃ entry ∈ list.getD [], ∃ source,
          Source lower (run.toolsForModelProvider lower) entry source ∧
            source ≠ "" ∧ Reads source (.text (spelling lower tool.name)) :=
      ⟨entry, member, _, stays, entryNonempty, reads⟩
    generalize sameName : spelling lower tool.name = name at stands
    cases stands with
    | pattern entryNonempty glob =>
      rw [← sameName] at glob ⊢
      refine bySelf entryNonempty ?_
      rcases eq_none_or_eq_some (TOOL_GROUPS.get? (spelling lower entry)) with
        notGroup | ⟨members, isGroup⟩
      · refine Or.inr ⟨notGroup, ?_⟩
        by_cases hasStar : '*' ∈ (spelling lower entry).toList
        · refine Or.inr (Or.inr ⟨hasStar, glob.strengthen ?_⟩)
          intro character inName
          by_contra crossed
          refine kept (.lineBreak ⟨character, inName, ?_⟩)
          simpa [matchesDot] using crossed
        · have same := String.toList_inj.mp (glob.eq_of_not_mem hasStar)
          exact Or.inr (Or.inl (congrArg ToolName.text same.symm))
      · have same := String.toList_inj.mp (glob.eq_of_not_mem (toolGroups_of_get? isGroup).2.1)
        rw [same] at isGroup
        exact absurd (Or.inr (Or.inr (isGroup ▸ some_ne_none members))) hasAddress
    | group isGroup isMember =>
      rw [← sameName] at isMember ⊢
      exact bySelf (toolGroups_of_get? isGroup).1 (Or.inl ⟨_, isGroup, _, isMember, rfl⟩)
    | plugin inTools isKey named =>
      rename_i other key
      exfalso
      obtain ⟨id, isId, -, -⟩ := pluginKey_eq_some_iff.mp isKey
      have isPlugin : other.pluginId.isSome := by rw [isId]; rfl
      have available : other ∈ run.toolsForModelProvider lower := by
        by_contra withdrawn
        exact kept (.withdrawn ⟨other, inTools, withdrawn, isPlugin, sameName.symm⟩)
      have isEntry : key = spelling lower entry := by
        by_contra notEntry
        exact kept (.asAlias fun same => notEntry (same ▸ named.resolve_left notEntry))
      refine replaced ⟨other, available, ?_⟩
      by_cases isAll : spelling lower entry = "group:plugins"
      · exact Or.inl ⟨isAll, isPlugin⟩
      · exact Or.inr ⟨isAll, (normalizeToolName_eq_text_iff.mp entryText).2, isEntry ▸ isKey⟩
    | plugins isAll inTools isPlugin =>
      rename_i other
      exfalso
      have available : other ∈ run.toolsForModelProvider lower := by
        by_contra withdrawn
        exact kept (.withdrawn ⟨other, inTools, withdrawn, isPlugin, sameName.symm⟩)
      exact replaced ⟨other, available, Or.inl ⟨isAll, isPlugin⟩⟩

end Readings

section Verdicts

variable {lower : LowerCase} {run : ToolRun}

/-- When no name of a plugin's tool is read again, a match stands for the name. -/
theorem standsFor_of_matches {list : Option (List String)} {name : String}
    (notRead : ¬∃ entry ∈ list.getD [], ∃ other ∈ run.toolsForModelProvider lower,
        Replaces lower entry other ∧
          (TOOL_GROUPS.get? (spelling lower other.name) ≠ none ∨
            '*' ∈ (spelling lower other.name).toList))
    (matched : Matches lower (run.toolsForModelProvider lower) list (.text name)) :
    ∃ entry ∈ list.getD [], StandsFor lower run.tools entry name := by
  obtain ⟨entry, member, source, isSource, nonempty, reads⟩ := matches_iff.mp matched
  refine ⟨entry, member, ?_⟩
  rcases isSource with ⟨other, available, replaces, otherText⟩ | ⟨-, entryText⟩
  · obtain ⟨spelled, -⟩ := normalizeToolName_eq_text_iff.mp otherText
    have noGroup : TOOL_GROUPS.get? source = none := by
      by_contra isGroup
      exact notRead ⟨entry, member, other, available, replaces, Or.inl (spelled ▸ isGroup)⟩
    have noStar : '*' ∉ source.toList := fun hasStar =>
      notRead ⟨entry, member, other, available, replaces, Or.inr (spelled ▸ hasStar)⟩
    rcases reads with ⟨members, isGroup, -⟩ | ⟨-, isStar | same | ⟨hasStar, -⟩⟩
    · rw [noGroup] at isGroup
      cases isGroup
    · exact absurd (by rw [isStar]; decide) noStar
    · rw [ToolName.text.inj same, ← spelled]
      exact standsFor_of_replaces (mem_tools_of_mem_toolsForModelProvider available) replaces
    · exact absurd hasStar noStar
  · obtain ⟨spelled, -⟩ := normalizeToolName_eq_text_iff.mp entryText
    have entryNonempty : spelling lower entry ≠ "" := spelled ▸ nonempty
    rcases reads with ⟨members, isGroup, tool, isMember, same⟩ | ⟨-, isStar | same | ⟨-, glob⟩⟩
    · rw [ToolName.text.inj same]
      exact .group (spelled ▸ isGroup) isMember
    · refine .pattern entryNonempty ?_
      rw [spelled, isStar]
      exact GlobPatterns.standsFor_wild name.toList
    · refine .pattern entryNonempty ?_
      rw [spelled, ToolName.text.inj same]
      exact GlobPatterns.standsFor_self rfl _
    · refine .pattern entryNonempty ?_
      rw [spelled]
      exact glob.weaken fun _ _ => rfl

theorem allows_of_passes {policy : ToolPolicyLike String} {tool : Tool}
    (passes : Passes lower (run.toolsForModelProvider lower) policy tool.name)
    (kept : ¬Widens lower run policy tool) :
    Allows lower run.tools policy (spelling lower tool.name) := by
  have isText : normalizeToolName lower tool.name = .text (spelling lower tool.name) :=
    normalizeToolName_eq_text_iff.mpr
      ⟨rfl, Bool.eq_false_of_not_eq_true fun inherited => kept (.shows inherited)⟩
  have notRead := fun reread => kept (.rereads reread)
  rcases (passes_iff.mp passes).2 with void | matched | ⟨isApplyPatch, matched⟩
  · exact absurd (.isVoid void) kept
  · rw [isText] at matched
    exact Or.inl (standsFor_of_matches notRead matched)
  · rw [isText] at isApplyPatch
    exact Or.inr ⟨ToolName.text.inj isApplyPatch, standsFor_of_matches notRead matched⟩

theorem not_standsFor_of_passes {policy : ToolPolicyLike String} {tool : Tool}
    (passes : Passes lower (run.toolsForModelProvider lower) policy tool.name)
    {entry : String} (member : entry ∈ policy.deny.getD []) (kept : ¬Loses lower run entry tool) :
    ¬StandsFor lower run.tools entry (spelling lower tool.name) := fun stands =>
  (passes_iff.mp passes).1 (matches_of_standsFor member kept stands)

/--
A run returns no denied tool and, apart from what is injected, only allowed ones, exactly
when no denied tool is injected and no tool that passes depends on a lost or an added reading.
-/
theorem respectsPolicies_iff_suitsPolicies (lower : LowerCase) (run : ToolRun) :
    RespectsPolicies lower run ↔ SuitsPolicies lower run := by
  have returned {tool : Tool} : tool ∈ createOpenClawCodingTools lower run ↔ tool ∈ run.injected ∨
        (tool ∈ run.toolsForModelProvider lower ∧ PassesAll lower run tool) := by
    rw [createOpenClawCodingTools, mem_append, mem_subagentFiltered]
  have notInjected : (createOpenClawCodingTools lower run).drop run.injected.length =
      run.subagentFiltered lower := drop_left
  rw [RespectsPolicies, notInjected]
  simp only [mem_subagentFiltered, and_imp]
  constructor
  · rintro ⟨undenied, allowed⟩
    refine ⟨?_, ?_, ?_⟩
    · intro tool isInjected
      exact undenied tool (returned.mpr (Or.inl isInjected))
    · intro tool available passes policy isPolicy entry member _ stands
      exact undenied tool (returned.mpr (Or.inr ⟨available, passes⟩)) policy isPolicy
        ⟨entry, member, stands⟩
    · intro tool available passes policy isPolicy nonempty _
      exact allowed tool available passes policy isPolicy nonempty
  · intro suits
    constructor
    · intro tool isReturned policy isPolicy
      rcases returned.mp isReturned with isInjected | ⟨available, passes⟩
      · exact suits.injected tool isInjected policy isPolicy
      · rintro ⟨entry, member, stands⟩
        by_cases kept : Loses lower run entry tool
        · exact suits.lost tool available passes policy isPolicy entry member kept stands
        · exact not_standsFor_of_passes (passes policy isPolicy) member kept stands
    · intro tool available passes policy isPolicy nonempty
      by_cases kept : Widens lower run policy tool
      · exact suits.added tool available passes policy isPolicy nonempty kept
      · exact allows_of_passes (passes policy isPolicy) kept

end Verdicts

section Examples

def noPolicies : RunPolicies where
  profilePolicy := none
  providerProfilePolicy := none
  globalPolicy := none
  globalProviderPolicy := none
  agentPolicy := none
  agentProviderPolicy := none
  groupPolicy := none
  senderPolicy := none
  sandboxToolPolicy := none
  subagentPolicy := none
  inheritedToolPolicy := none
  profileAlsoAllow := []
  providerProfileAlsoAllow := []

def plainOptions : RunOptions where
  forceMessageTool := false
  messageToolOnly := false
  enableHeartbeatTool := false
  forceHeartbeatTool := false
  heartbeatReplies := false
  toolSearchControlsEnabled := false
  runtimeToolAllowlist := none
  memoryFlush := false
  messageProvider := none
  localModelLean := false
  suppressManagedWebSearch := false

/-- The core tools `read` and `exec`, and the tool that the integration injects. -/
def sendInjected : ToolRun where
  policies :=
    { noPolicies with
      globalPolicy := some { allow := none, deny := some ["aiemas_sessions_send"] } }
  options := plainOptions
  tools := [⟨"read", none⟩, ⟨"exec", none⟩]
  injected := [⟨"aiemas_sessions_send", none⟩]

/-- The denied tool is returned: it is injected behind the pipeline. -/
theorem not_respectsPolicies_sendInjected :
    (createOpenClawCodingTools LowerCase.ascii sendInjected).map (·.name) =
        ["aiemas_sessions_send", "read", "exec"] ∧
      ¬RespectsPolicies LowerCase.ascii sendInjected := by
  refine ⟨by decide +kernel, ?_⟩
  rintro ⟨undenied, -⟩
  have isReturned : (⟨"aiemas_sessions_send", none⟩ : Tool) ∈
      createOpenClawCodingTools LowerCase.ascii sendInjected := mem_append_left _ (by decide)
  have isPolicy :
      ({ allow := none, deny := some ["aiemas_sessions_send"] } : ToolPolicyLike String) ∈
      sendInjected.effectivePolicies LowerCase.ascii := by decide +kernel
  refine undenied _ isReturned _ isPolicy ⟨_, mem_singleton_self _, ?_⟩
  exact .pattern (by decide +kernel) (GlobPatterns.standsFor_self rfl _)

end Examples

end ToolPolicies
