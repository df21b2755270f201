import AieClaw.ToolPolicyDenials

/-!
# Tools of spawned sessions

A run hands two lists to the sessions it spawns: the deny entries of its policies and, when
some allow list is restrictive, the names of the tools that passed its pipeline. They are
stored with the child session (`src/agents/inherited-tool-deny.ts`, `subagent-spawn.ts`)
and come back as the inherited policy of its runs. A chain of spawns gains no tool as long
as no run of it hands on less than it enforces.
-/

namespace ToolPolicies

open List

/-- The policies of a run before they are extended. -/
def RunPolicies.configured (policies : RunPolicies) : List (ToolPolicyLike String) :=
  [policies.profilePolicy, policies.providerProfilePolicy, policies.globalPolicy,
    policies.globalProviderPolicy, policies.agentPolicy, policies.agentProviderPolicy,
    policies.groupPolicy, policies.senderPolicy, policies.sandboxToolPolicy,
    policies.subagentPolicy, policies.inheritedToolPolicy].filterMap id

def collectExplicitDenylist (policies : List (ToolPolicyLike String)) : List String :=
  policies.flatMap fun policy =>
    ((policy.deny.getD []).map JsString.trim).filter fun entry => entry ≠ ""

def ToolRun.inheritedToolDenylist (run : ToolRun) : List String :=
  collectExplicitDenylist run.policies.configured

/-- The policy that a runtime allow list amounts to. -/
def RunOptions.runtimePolicy (options : RunOptions) : Option (ToolPolicyLike String) :=
  options.runtimeToolAllowlist.map fun allow => { allow := some allow, deny := none }

/-- What is stored about inherited tools with a session. -/
structure InheritedToolLists where
  inheritedToolAllow : List ToolName
  inheritedToolDeny : List ToolName

/-- The text that a stored entry is, if it is one. -/
def ToolName.text? : ToolName → Option String
  | .text value => some value
  | .inherited _ => none

section Inheritance

variable (lower : LowerCase) (run : ToolRun)

def ToolRun.shouldInheritEffectiveToolAllowlist : Bool :=
  (run.options.runtimePolicy.toList ++ run.policies.configured).any fun policy =>
    hasRestrictiveAllowPolicy lower (some policy)

def replaceWithEffectiveToolAllowlist (tools : List Tool) : List ToolName :=
  ((tools.map fun tool => normalizeToolName lower tool.name).filter fun name =>
    name.isTruthy).eraseDups

def ToolRun.inheritedToolAllowlist : List ToolName :=
  if run.shouldInheritEffectiveToolAllowlist lower then
    replaceWithEffectiveToolAllowlist lower (run.subagentFiltered lower)
  else []

def normalizeInheritedToolDenylist (value : List ToolName) : List ToolName :=
  (((value.filterMap ToolName.text?).map (normalizeToolName lower)).filter fun name =>
    name.isTruthy).eraseDups

def initialChildSessionPatch : InheritedToolLists :=
  let patched := fun value =>
    normalizeInheritedToolDenylist lower (normalizeInheritedToolDenylist lower value)
  { inheritedToolAllow := patched (run.inheritedToolAllowlist lower)
    inheritedToolDeny := patched (run.inheritedToolDenylist.map ToolName.text) }

def resolveInheritedToolPolicyForSession (entry : InheritedToolLists) :
    Option (ToolPolicyLike String) :=
  let texts := fun value => (normalizeInheritedToolDenylist lower value).filterMap ToolName.text?
  let inheritedToolAllow := texts entry.inheritedToolAllow
  let inheritedToolDeny := texts entry.inheritedToolDeny
  if inheritedToolAllow = [] ∧ inheritedToolDeny = [] then none
  else
    some
      { allow := if inheritedToolAllow = [] then none else some inheritedToolAllow
        deny := if inheritedToolDeny = [] then none else some inheritedToolDeny }

/-- A run belongs to a session that another run has spawned. -/
structure Spawns (parent child : ToolRun) : Prop where
  inherited :
    child.policies.inheritedToolPolicy =
      resolveInheritedToolPolicyForSession lower (initialChildSessionPatch lower parent)
  samePlugins :
    ∀ tool, tool.pluginId.isSome →
      (tool ∈ child.toolsForModelProvider lower ↔ tool ∈ parent.toolsForModelProvider lower)

/-- The runtime allow list of a run lets a name through. -/
def AdmitsAtRuntime (name : String) : Prop :=
  ∀ toolsAllow, run.options.runtimeToolAllowlist = some toolsAllow →
    toolsAllow ≠ [] ∧
      ((∃ entry ∈ toolsAllow, normalizeToolName lower entry = .text "*") ∨
        Passes lower (run.toolsForModelProvider lower) { allow := some toolsAllow, deny := none }
          name)

def LetsThrough (name : String) : Prop :=
  (∀ policy ∈ run.effectivePolicies lower,
      Passes lower (run.toolsForModelProvider lower) policy name) ∧
    AdmitsAtRuntime lower run name

/-- A name is let through, or is `apply_patch` where `write` is, or is a search control. -/
def GainsNothing (name : String) : Prop :=
  LetsThrough lower run name ∨
    (spelling lower name = "apply_patch" ∧ LetsThrough lower run "write") ∨
      spelling lower name ∈ TOOL_SEARCH_CONTROLS

/-- An allow list that holds nobody back: nothing is left of it, or it has the star. -/
def IsOpen (tools : List Tool) (allow : Option (List String)) : Prop :=
  IsVoid lower tools allow ∨ ∃ entry ∈ allow.getD [], Source lower tools entry "*"

/-- A name that means itself in every list of a run. -/
def IsOwnSource (tools : List Tool) (name : String) : Prop :=
  (∀ tool ∈ tools, ¬Replaces lower name tool) ∧ TOOL_GROUPS.get? name = none ∧ '*' ∉ name.toList

/--
A run hands on what it enforces. With a restrictive allow list, some tool passes the
pipeline, and every tool that does is let through at runtime and has a name that means
itself. Without one, all its allow lists are open.
-/
def HandsOn : Prop :=
  if run.shouldInheritEffectiveToolAllowlist lower then
    (∃ tool ∈ run.subagentFiltered lower, spelling lower tool.name ≠ "" ∧
        isInheritedMember (spelling lower tool.name) = false) ∧
      ∀ tool ∈ run.subagentFiltered lower,
        AdmitsAtRuntime lower run tool.name ∧
          IsOwnSource lower (run.toolsForModelProvider lower) (spelling lower tool.name)
  else
    (∀ policy ∈ run.effectivePolicies lower,
        IsOpen lower (run.toolsForModelProvider lower) policy.allow) ∧
      ∀ name, AdmitsAtRuntime lower run name

end Inheritance

section Spawn

variable {lower : LowerCase} {parent child : ToolRun} {policy : ToolPolicyLike String}
  {name other : String} {value : List ToolName}

theorem passes_congr {tools : List Tool}
    (same : normalizeToolName lower name = normalizeToolName lower other) :
    Passes lower tools policy name ↔ Passes lower tools policy other := by
  rw [passes_iff, passes_iff, same]

theorem letsThrough_congr {run : ToolRun}
    (same : normalizeToolName lower name = normalizeToolName lower other)
    (through : LetsThrough lower run name) : LetsThrough lower run other := by
  refine ⟨fun policy member => (passes_congr same).mp (through.1 policy member), ?_⟩
  intro toolsAllow isAllow
  obtain ⟨nonempty, admits⟩ := through.2 toolsAllow isAllow
  exact ⟨nonempty, admits.imp id (passes_congr same).mp⟩

theorem spelling_trim (name : String) :
    spelling lower (JsString.trim name) = spelling lower name := by
  have same : normalizeLowercaseStringOrEmpty lower (JsString.trim name) =
      normalizeLowercaseStringOrEmpty lower name := by
    rw [normalizeLowercaseStringOrEmpty_eq, normalizeLowercaseStringOrEmpty_eq, JsString.trim_trim]
  unfold spelling
  dsimp only
  rw [same]

theorem spelling_empty : spelling lower "" = "" := by
  have isEmpty : normalizeLowercaseStringOrEmpty lower "" = "" := by
    rw [normalizeLowercaseStringOrEmpty_eq]
    exact lower.toLowerCase_of_small "" (by decide)
  unfold spelling
  dsimp only
  rw [isEmpty]
  decide

theorem source_congr {first second : List Tool}
    (samePlugins : ∀ tool, tool.pluginId.isSome → (tool ∈ second ↔ tool ∈ first))
    {entry source : String} (same : spelling lower entry = spelling lower other)
    (isSource : Source lower first entry source) : Source lower second other source := by
  have replaces (tool : Tool) : Replaces lower other tool ↔ Replaces lower entry tool := by
    rw [Replaces, Replaces, same]
  have isPlugin {tool : Tool} (isReplaced : Replaces lower entry tool) : tool.pluginId.isSome := by
    rcases isReplaced with ⟨-, isPlugin⟩ | ⟨-, -, isKey⟩
    · exact isPlugin
    · obtain ⟨id, isId, -, -⟩ := pluginKey_eq_some_iff.mp isKey
      rw [isId]
      rfl
  rcases isSource with ⟨tool, available, isReplaced, isText⟩ | ⟨notReplaced, isText⟩
  · exact Or.inl ⟨tool, (samePlugins tool (isPlugin isReplaced)).mpr available,
      (replaces tool).mpr isReplaced, isText⟩
  · refine Or.inr ⟨fun tool available isReplaced => ?_, ?_⟩
    · have entryReplaced := (replaces tool).mp isReplaced
      exact notReplaced tool ((samePlugins tool (isPlugin entryReplaced)).mp available)
        entryReplaced
    · rw [normalizeToolName_eq, ← same, ← normalizeToolName_eq, isText]

theorem spelling_of_source {tools : List Tool} {entry source : String}
    (isSource : Source lower tools entry source) (nonempty : source ≠ "") :
    spelling lower entry ≠ "" ∧ isInheritedMember (spelling lower entry) = false := by
  rcases isSource with ⟨tool, -, ⟨isAll, -⟩ | ⟨-, notInherited, isKey⟩, -⟩ | ⟨-, isText⟩
  · rw [isAll]
    decide
  · obtain ⟨-, -, -, keyNonempty⟩ := pluginKey_eq_some_iff.mp isKey
    exact ⟨keyNonempty, notInherited⟩
  · obtain ⟨spelled, notInherited⟩ := normalizeToolName_eq_text_iff.mp isText
    rw [spelled]
    exact ⟨nonempty, notInherited⟩

/-! ### Stored lists -/

theorem text_mem_normalizeInheritedToolDenylist :
    .text name ∈ normalizeInheritedToolDenylist lower value ↔
      name ≠ "" ∧ ∃ raw, .text raw ∈ value ∧ normalizeToolName lower raw = .text name := by
  have isText (entry : ToolName) (raw : String) : entry.text? = some raw ↔ entry = .text raw := by
    cases entry with
    | text given => simp [ToolName.text?]
    | inherited member => simp [ToolName.text?]
  unfold normalizeInheritedToolDenylist
  simp [ToolName.isTruthy, isText, and_comm]

/-- A list as it is read from the session that it was stored with. -/
def readBack (lower : LowerCase) (value : List ToolName) : List String :=
  (normalizeInheritedToolDenylist lower (normalizeInheritedToolDenylist lower
    (normalizeInheritedToolDenylist lower value))).filterMap ToolName.text?

theorem mem_readBack : name ∈ readBack lower value ↔
      name ≠ "" ∧ ∃ raw, .text raw ∈ value ∧ normalizeToolName lower raw = .text name := by
  have read {list : List ToolName} : name ∈ list.filterMap ToolName.text? ↔ .text name ∈ list := by
    rw [mem_filterMap]
    constructor
    · rintro ⟨entry, member, isText⟩
      cases entry with
      | text given => exact Option.some.inj isText ▸ member
      | inherited => cases isText
    · intro member
      exact ⟨_, member, rfl⟩
  have again {list : List ToolName} :
      .text name ∈
          normalizeInheritedToolDenylist lower (normalizeInheritedToolDenylist lower list) ↔
        .text name ∈ normalizeInheritedToolDenylist lower list := by
    rw [text_mem_normalizeInheritedToolDenylist]
    constructor
    · rintro ⟨nonempty, raw, member, isText⟩
      obtain ⟨-, given, -, isRaw⟩ := text_mem_normalizeInheritedToolDenylist.mp member
      have same : ToolName.text raw = .text name :=
        (normalize_of_normalizeToolName_eq_text isRaw).symm.trans isText
      exact same ▸ member
    · intro member
      obtain ⟨nonempty, raw, -, isText⟩ := text_mem_normalizeInheritedToolDenylist.mp member
      exact ⟨nonempty, name, member, normalize_of_normalizeToolName_eq_text isText⟩
  rw [readBack, read, again, again, text_mem_normalizeInheritedToolDenylist]

/-- A child that is handed anything is under a policy with the two lists. -/
theorem exists_inheritedPolicy (spawns : Spawns lower parent child)
    (handed : ¬(readBack lower (parent.inheritedToolAllowlist lower) = [] ∧
        readBack lower (parent.inheritedToolDenylist.map ToolName.text) = [])) :
    ∃ policy ∈ child.effectivePolicies lower,
      policy.allow.getD [] = readBack lower (parent.inheritedToolAllowlist lower) ∧
        policy.deny.getD [] = readBack lower (parent.inheritedToolDenylist.map ToolName.text) := by
  have getD_ite (list : List String) :
      (if list = [] then none else some list : Option (List String)).getD [] = list := by
    split
    · rename_i isNil
      exact isNil.symm
    · rfl
  have isPolicy : child.policies.inheritedToolPolicy = some
        { allow :=
            if readBack lower (parent.inheritedToolAllowlist lower) = [] then none
            else some (readBack lower (parent.inheritedToolAllowlist lower))
          deny :=
            if readBack lower (parent.inheritedToolDenylist.map ToolName.text) = [] then none
            else some (readBack lower (parent.inheritedToolDenylist.map ToolName.text)) } := by
    rw [spawns.inherited]
    exact if_neg handed
  generalize readBack lower (parent.inheritedToolAllowlist lower) = allow at isPolicy ⊢
  generalize readBack lower (parent.inheritedToolDenylist.map ToolName.text) = deny at isPolicy ⊢
  refine
    ⟨{ allow := if allow = [] then none else some allow
       deny := if deny = [] then none else some deny }, ?_, getD_ite allow, getD_ite deny⟩
  unfold ToolRun.effectivePolicies ToolRun.steps
  refine mem_filterMap.mpr
    ⟨{ policy := child.policies.inheritedToolPolicy, stripPluginOnlyAllowlist := false }, ?_,
      isPolicy⟩
  exact mem_append_right _ (by simp)

theorem map_deny_effectivePolicies (lower : LowerCase) (run : ToolRun) :
    (run.effectivePolicies lower).map (·.deny) =
      run.policies.configured.map fun policy => policy.deny := by
  have merged (policy : Option (ToolPolicyLike String)) (alsoAllow : List String) :
      (mergeAlsoAllowPolicy policy alsoAllow).map (·.deny) =
        policy.map fun given => given.deny := by
    unfold mergeAlsoAllowPolicy
    cases policy with
    | none => rfl
    | some given =>
      simp only [Option.map_some]
      split
      · rfl
      · rfl
  have mapped (list : List (Option (ToolPolicyLike String))) : (list.filterMap id).map (·.deny) =
        (list.map (Option.map fun policy => policy.deny)).filterMap id := by
    rw [map_filterMap, filterMap_map]
    rfl
  have asList : run.effectivePolicies lower =
      ((run.steps lower).map fun step => step.policy).filterMap id := by
    rw [filterMap_map]
    rfl
  rw [asList, RunPolicies.configured, mapped, mapped]
  simp only [ToolRun.steps, buildDefaultToolPolicyPipelineSteps, ToolRun.withToolSearchControls,
    map_cons, map_nil, merged, cons_append, nil_append]

theorem not_matches_deny_of_spawns (spawns : Spawns lower parent child)
    (passes : ∀ policy ∈ child.effectivePolicies lower,
      Passes lower (child.toolsForModelProvider lower) policy name)
    (isPolicy : policy ∈ parent.effectivePolicies lower) :
    ¬Matches lower (parent.toolsForModelProvider lower) policy.deny
      (normalizeToolName lower name) := by
  intro denied
  obtain ⟨entry, member, source, isSource, nonempty, reads⟩ := matches_iff.mp denied
  obtain ⟨spelledNonempty, notInherited⟩ := spelling_of_source isSource nonempty
  have isDeny : policy.deny ∈ parent.policies.configured.map fun given => given.deny := by
    rw [← map_deny_effectivePolicies lower]
    exact mem_map_of_mem isPolicy
  obtain ⟨given, isGiven, sameDeny⟩ := mem_map.mp isDeny
  have trimmed : JsString.trim entry ≠ "" := by
    intro blank
    rw [← spelling_trim, blank] at spelledNonempty
    exact spelledNonempty spelling_empty
  have collected : JsString.trim entry ∈ parent.inheritedToolDenylist := by
    refine mem_flatMap.mpr ⟨given, isGiven, ?_⟩
    rw [sameDeny]
    exact mem_filter.mpr ⟨mem_map_of_mem member, decide_eq_true trimmed⟩
  have held : spelling lower entry ∈
      readBack lower (parent.inheritedToolDenylist.map ToolName.text) := by
    refine mem_readBack.mpr ⟨spelledNonempty, _, mem_map_of_mem collected, ?_⟩
    exact normalizeToolName_eq_text_iff.mpr ⟨spelling_trim entry, notInherited⟩
  obtain ⟨handed, inChild, -, sameEntries⟩ := exists_inheritedPolicy spawns fun none =>
    not_mem_nil (none.2 ▸ held)
  refine (passes_iff.mp (passes handed inChild)).1 (matches_iff.mpr ?_)
  exact ⟨_, sameEntries ▸ held, source,
    source_congr spawns.samePlugins (spelling_spelling entry).symm isSource, nonempty, reads⟩

/-- What a run lets through, its spawner lets through, when it hands on what it enforces. -/
theorem letsThrough_of_spawns (spawns : Spawns lower parent child) (handsOn : HandsOn lower parent)
    (passes : ∀ policy ∈ child.effectivePolicies lower,
      Passes lower (child.toolsForModelProvider lower) policy name) :
    LetsThrough lower parent name ∨
      (spelling lower name = "apply_patch" ∧ LetsThrough lower parent "write") := by
  unfold HandsOn at handsOn
  split at handsOn
  · rename_i restrictive
    obtain ⟨⟨some_, available, nonempty, notInherited⟩, all⟩ := handsOn
    have isList : parent.inheritedToolAllowlist lower =
        replaceWithEffectiveToolAllowlist lower (parent.subagentFiltered lower) :=
      if_pos restrictive
    have mem_list {value : String} : value ∈ readBack lower (parent.inheritedToolAllowlist lower) ↔
          value ≠ "" ∧ ∃ tool ∈ parent.subagentFiltered lower,
            normalizeToolName lower tool.name = .text value := by
      rw [mem_readBack, isList]
      unfold replaceWithEffectiveToolAllowlist
      simp only [mem_eraseDups, mem_filter, mem_map]
      refine and_congr_right fun valueNonempty => ?_
      constructor
      · rintro ⟨raw, ⟨⟨tool, member, isRaw⟩, -⟩, isText⟩
        refine ⟨tool, member, isRaw.trans ?_⟩
        exact (normalize_of_normalizeToolName_eq_text isRaw).symm.trans isText
      · rintro ⟨tool, member, isText⟩
        exact ⟨value, ⟨⟨tool, member, isText⟩,
          decide_eq_true fun same => valueNonempty (ToolName.text.inj same)⟩,
          normalize_of_normalizeToolName_eq_text isText⟩
    have held : spelling lower some_.name ∈ readBack lower (parent.inheritedToolAllowlist lower) :=
      mem_list.mpr ⟨nonempty, some_, available,
        normalizeToolName_eq_text_iff.mpr ⟨rfl, notInherited⟩⟩
    obtain ⟨handed, inChild, sameEntries, -⟩ := exists_inheritedPolicy spawns fun none =>
      not_mem_nil (none.1 ▸ held)
    -- A name of the list means itself, to the child as to its spawner.
    have ownSource {value : String}
        (inList : value ∈ readBack lower (parent.inheritedToolAllowlist lower)) :
        IsOwnSource lower (parent.toolsForModelProvider lower) value ∧
          Source lower (parent.toolsForModelProvider lower) value value := by
      obtain ⟨-, tool, member, isText⟩ := mem_list.mp inList
      have own := (all tool member).2
      rw [(normalizeToolName_eq_text_iff.mp isText).1] at own
      exact ⟨own, Or.inr ⟨own.1, normalize_of_normalizeToolName_eq_text isText⟩⟩
    have matched {value : ToolName}
        (isMatch : Matches lower (child.toolsForModelProvider lower) handed.allow value) :
        ∃ tool ∈ parent.subagentFiltered lower, normalizeToolName lower tool.name = value := by
      obtain ⟨entry, inList, source, isSource, -, reads⟩ := matches_iff.mp isMatch
      rw [sameEntries] at inList
      obtain ⟨⟨notReplaced, notGroup, noStar⟩, -⟩ := ownSource inList
      obtain ⟨-, tool, member, isText⟩ := mem_list.mp inList
      obtain ⟨other, otherAvailable, isReplaced, -⟩ | ⟨-, isEntry⟩ :=
        source_congr (fun tool isPlugin => (spawns.samePlugins tool isPlugin).symm) rfl isSource
      · exact absurd isReplaced (notReplaced other otherAvailable)
      · have same : ToolName.text entry = .text source :=
          (normalize_of_normalizeToolName_eq_text isText).symm.trans isEntry
        obtain rfl := ToolName.text.inj same
        refine ⟨tool, member, isText.trans ?_⟩
        rcases reads with ⟨members, isGroup, -⟩ | ⟨-, isStar | isValue | ⟨hasStar, -⟩⟩
        · rw [notGroup] at isGroup
          cases isGroup
        · exact absurd (by rw [isStar]; decide) noStar
        · exact isValue.symm
        · exact absurd hasStar noStar
    have through {tool : Tool} (member : tool ∈ parent.subagentFiltered lower) :
        LetsThrough lower parent tool.name :=
      ⟨(mem_subagentFiltered.mp member).2, (all tool member).1⟩
    rcases (passes_iff.mp (passes handed inChild)).2 with void | isMatch | ⟨isPatch, isMatch⟩
    · exact absurd
        (void _ (sameEntries ▸ held) _ (source_congr spawns.samePlugins rfl (ownSource held).2))
        nonempty
    · obtain ⟨tool, member, same⟩ := matched isMatch
      exact Or.inl (letsThrough_congr same (through member))
    · obtain ⟨tool, member, same⟩ := matched isMatch
      have isWrite : normalizeToolName lower "write" = .text "write" :=
        normalizeToolName_eq_text_iff.mpr
          ⟨spelling_of_isPlainName (by decide +kernel), by decide +kernel⟩
      exact Or.inr ⟨(normalizeToolName_eq_text_iff.mp isPatch).1,
        letsThrough_congr (same.trans isWrite.symm) (through member)⟩
  · obtain ⟨isOpen, admits⟩ := handsOn
    refine Or.inl ⟨?_, admits name⟩
    intro policy isPolicy
    refine passes_iff.mpr ⟨not_matches_deny_of_spawns spawns passes isPolicy, ?_⟩
    rcases isOpen policy isPolicy with void | ⟨entry, member, isStar⟩
    · exact Or.inl void
    · refine Or.inr (Or.inl (matches_iff.mpr ⟨entry, member, "*", isStar, by decide, ?_⟩))
      exact Or.inr ⟨by decide +kernel, Or.inl rfl⟩

end Spawn

/--
Along every chain of spawns in which each spawning run hands on what it enforces, a tool of
the last run is let through by the policies and the runtime allow list of every run above it.
-/
theorem gainsNothing_of_spawned {lower : LowerCase} {ancestor descendant : ToolRun}
    (chain :
      Relation.TransGen (fun parent child => Spawns lower parent child ∧ HandsOn lower parent)
        ancestor descendant)
    {tool : Tool} (available : tool ∈ descendant.subagentFiltered lower) :
    GainsNothing lower ancestor tool.name := by
  have passes := (mem_subagentFiltered.mp available).2
  induction chain using Relation.TransGen.head_induction_on with
  | single spawned =>
    rcases letsThrough_of_spawns spawned.1 spawned.2 passes with through | patch
    · exact Or.inl through
    · exact Or.inr (Or.inl patch)
  | head spawned _ inductionHypothesis =>
    rcases inductionHypothesis with through | ⟨isPatch, write⟩ | control
    · rcases letsThrough_of_spawns spawned.1 spawned.2 through.1 with above | patch
      · exact Or.inl above
      · exact Or.inr (Or.inl patch)
    · refine Or.inr (Or.inl ⟨isPatch, ?_⟩)
      rcases letsThrough_of_spawns spawned.1 spawned.2 write.1 with above | ⟨same, -⟩
      · exact above
      · rw [spelling_of_isPlainName (by decide +kernel)] at same
        exact absurd same (by decide)
    · exact Or.inr (Or.inr control)

section Examples

def readExecSpawn : List Tool := [⟨"read", none⟩, ⟨"exec", none⟩, ⟨"sessions_spawn", none⟩]

/-- A run that allows two of its three tools. -/
def limitedRun : ToolRun where
  policies :=
    { noPolicies with
      globalPolicy := some { allow := some ["read", "sessions_spawn"], deny := none } }
  options := plainOptions
  tools := readExecSpawn
  injected := []

def limitedChild : ToolRun where
  policies :=
    { noPolicies with
      inheritedToolPolicy := some { allow := some ["read", "sessions_spawn"], deny := none } }
  options := plainOptions
  tools := readExecSpawn
  injected := []

theorem noPlugins_readExecSpawn {tool : Tool} (member : tool ∈ readExecSpawn) :
    tool.pluginId = none := by
  have all : ∀ tool ∈ readExecSpawn, tool.pluginId = none := by decide
  exact all tool member

theorem spawns_limitedRun : Spawns LowerCase.ascii limitedRun limitedChild where
  inherited := by decide +kernel
  samePlugins := fun _ _ => Iff.rfl

/-- The child spawns with the same list again. -/
theorem spawns_limitedChild : Spawns LowerCase.ascii limitedChild limitedChild where
  inherited := by decide +kernel
  samePlugins := fun _ _ => Iff.rfl

theorem handsOn_readAndSpawn {run : ToolRun} (tools : run.tools = readExecSpawn)
    (noRuntimeList : run.options.runtimeToolAllowlist = none)
    (restrictive : run.shouldInheritEffectiveToolAllowlist LowerCase.ascii = true)
    (filtered : run.subagentFiltered LowerCase.ascii =
      [⟨"read", none⟩, ⟨"sessions_spawn", none⟩]) : HandsOn LowerCase.ascii run := by
  have notReplaced (name : String) : ∀ tool ∈ run.toolsForModelProvider LowerCase.ascii,
        ¬Replaces LowerCase.ascii name tool := by
    intro tool member isReplaced
    have inTools := mem_tools_of_mem_toolsForModelProvider member
    rw [tools] at inTools
    have noPlugin := noPlugins_readExecSpawn inTools
    rcases isReplaced with ⟨-, isPlugin⟩ | ⟨-, -, isKey⟩
    · rw [noPlugin] at isPlugin
      cases isPlugin
    · obtain ⟨id, isId, -⟩ := pluginKey_eq_some_iff.mp isKey
      rw [noPlugin] at isId
      cases isId
  have own (name : String) (plain : isPlainName name = true)
      (notGroup : TOOL_GROUPS.get? name = none) (noStar : '*' ∉ name.toList) :
      AdmitsAtRuntime LowerCase.ascii run name ∧
        IsOwnSource LowerCase.ascii (run.toolsForModelProvider LowerCase.ascii)
          (spelling LowerCase.ascii name) := by
    rw [spelling_of_isPlainName plain]
    refine ⟨fun toolsAllow isAllow => ?_, notReplaced name, notGroup, noStar⟩
    cases noRuntimeList.symm.trans isAllow
  unfold HandsOn
  rw [if_pos restrictive, filtered]
  refine ⟨⟨_, .head _, by decide +kernel, by decide +kernel⟩, ?_⟩
  simp only [forall_mem_cons]
  exact ⟨own "read" (by decide +kernel) (by decide +kernel) (by decide),
    own "sessions_spawn" (by decide +kernel) (by decide +kernel) (by decide), by simp⟩

/-- A grandchild of the limited run can read, as the limited run can. -/
theorem gainsNothing_of_spawned_limitedRun : GainsNothing LowerCase.ascii limitedRun "read" := by
  have available : (⟨"read", none⟩ : Tool) ∈ limitedChild.subagentFiltered LowerCase.ascii := by
    decide +kernel
  have handsOn : HandsOn LowerCase.ascii limitedRun :=
    handsOn_readAndSpawn rfl rfl (by decide +kernel) (by decide +kernel)
  have childHandsOn : HandsOn LowerCase.ascii limitedChild :=
    handsOn_readAndSpawn rfl rfl (by decide +kernel) (by decide +kernel)
  have gains := gainsNothing_of_spawned
    (.head ⟨spawns_limitedRun, handsOn⟩ (.single ⟨spawns_limitedChild, childHandsOn⟩)) available
  exact gains

/-- A run that is limited at runtime only, and spawns. -/
def runtimeLimited : ToolRun where
  policies := noPolicies
  options := { plainOptions with runtimeToolAllowlist := some ["read", "sessions_spawn"] }
  tools := readExecSpawn
  injected := []

/-- A run of the session that it spawns, under what it inherits. -/
def runtimeLimitedChild : ToolRun where
  policies :=
    { noPolicies with
      inheritedToolPolicy :=
        some { allow := some ["read", "exec", "sessions_spawn"], deny := none } }
  options := plainOptions
  tools := readExecSpawn
  injected := []

/-- The pipeline of the child lets `exec` through, which its spawner's run does not have. -/
theorem not_gainsNothing_runtimeLimited :
    Spawns LowerCase.ascii runtimeLimited runtimeLimitedChild ∧
      (⟨"exec", none⟩ : Tool) ∈ runtimeLimitedChild.subagentFiltered LowerCase.ascii ∧
        ¬GainsNothing LowerCase.ascii runtimeLimited "exec" := by
  refine ⟨⟨by decide +kernel, fun _ _ => Iff.rfl⟩, by decide +kernel, ?_⟩
  rintro (⟨-, admits⟩ | ⟨isPatch, -⟩ | control)
  · rcases (admits _ rfl).2 with isStar | passes
    · exact absurd isStar (by decide +kernel)
    · unfold Passes at passes
      exact absurd passes (by decide +kernel)
  · exact absurd isPatch (by decide +kernel)
  · exact absurd control (by decide +kernel)

end Examples

end ToolPolicies
