import AieClaw.CodingTools

/-!
# What the entries of a policy stand for

An entry of a policy stands for tools as a name or a glob, as a named group, as a plugin or
as all plugins. This is said here without the rewriting of the pipeline, in terms of the
tools of a run. The lists that the pipeline compiles are then described entry by entry.
-/

namespace ToolPolicies

open List

section Readings

variable (lower : LowerCase)

/-- The name that a text spells: without surrounding blanks, in small letters, unaliased. -/
def spelling (name : String) : String :=
  let normalized := normalizeLowercaseStringOrEmpty lower name
  (TOOL_NAME_ALIASES.lookup normalized).getD normalized

/-- The id by which the plugin of a tool is named. -/
def Tool.pluginKey (tool : Tool) : Option String :=
  (tool.pluginId.map (normalizeLowercaseStringOrEmpty lower)).filter fun id => id ≠ ""

/-- An entry stands for a name, given all tools of a run. -/
inductive StandsFor (tools : List Tool) (entry : String) : String → Prop where
  | pattern {name : String} :
      spelling lower entry ≠ "" →
        GlobPatterns.StandsFor '*' (fun _ => true) (spelling lower entry).toList name.toList →
          StandsFor tools entry name
  | group {members : List String} {name : String} :
      TOOL_GROUPS.get? (spelling lower entry) = some members →
        name ∈ members → StandsFor tools entry name
  | plugin {tool : Tool} {id : String} :
      tool ∈ tools →
        tool.pluginKey lower = some id →
          (id = spelling lower entry ∨ id = normalizeLowercaseStringOrEmpty lower entry) →
            StandsFor tools entry (spelling lower tool.name)
  | plugins {tool : Tool} :
      spelling lower entry = "group:plugins" →
        tool ∈ tools → tool.pluginId.isSome → StandsFor tools entry (spelling lower tool.name)

/-- Some deny entry stands for a name. -/
def Denies (tools : List Tool) (policy : ToolPolicyLike String) (name : String) : Prop :=
  ∃ entry ∈ policy.deny.getD [], StandsFor lower tools entry name

/-- Some allow entry stands for a name, or for `write` when the name is `apply_patch`. -/
def Allows (tools : List Tool) (policy : ToolPolicyLike String) (name : String) : Prop :=
  (∃ entry ∈ policy.allow.getD [], StandsFor lower tools entry name) ∨
    (name = "apply_patch" ∧ ∃ entry ∈ policy.allow.getD [], StandsFor lower tools entry "write")

end Readings

section Names

variable {lower : LowerCase} {name : String}

theorem normalizeLowercaseStringOrEmpty_eq (value : String) :
    normalizeLowercaseStringOrEmpty lower value = lower.toLowerCase (JsString.trim value) := by
  have empty : lower.toLowerCase "" = "" := lower.toLowerCase_of_small "" (by decide)
  unfold normalizeLowercaseStringOrEmpty SessionKeys.normalizeLowercaseStringOrEmpty
    SessionKeys.normalizeOptionalString
  dsimp only
  split
  · rename_i blank
    rw [blank, empty]
    rfl
  · rfl

@[simp] theorem normalizeLowercaseStringOrEmpty_idem (value : String) :
    normalizeLowercaseStringOrEmpty lower (normalizeLowercaseStringOrEmpty lower value) =
      normalizeLowercaseStringOrEmpty lower value := by
  simp only [normalizeLowercaseStringOrEmpty_eq]
  rw [lower.trim_toLowerCase, JsString.trim_trim, lower.toLowerCase_toLowerCase]

/-- A text that normalizing leaves alone, with any `toLowerCase`. -/
def isPlainName (name : String) : Bool :=
  JsString.isSmallAscii name && decide (JsString.trim name = name) &&
    (TOOL_NAME_ALIASES.lookup name).isNone &&
    !isInheritedMember name && decide (name ≠ "") &&
    !name.toList.contains '*'

theorem spelling_of_isPlainName (plain : isPlainName name = true) : spelling lower name = name := by
  simp only [isPlainName, Bool.and_eq_true, decide_eq_true_eq] at plain
  obtain ⟨⟨⟨⟨⟨small, trimmed⟩, noAlias⟩, -⟩, -⟩, -⟩ := plain
  have same : normalizeLowercaseStringOrEmpty lower name = name := by
    rw [normalizeLowercaseStringOrEmpty_eq, trimmed, lower.toLowerCase_of_small name small]
  unfold spelling
  dsimp only
  rw [same, Option.isNone_iff_eq_none.mp noAlias, Option.getD_none]

theorem isPlainName_of_lookup {canonical : String}
    (found : TOOL_NAME_ALIASES.lookup name = some canonical) : isPlainName canonical = true := by
  have all : ∀ entry ∈ TOOL_NAME_ALIASES, isPlainName entry.2 = true := by decide +kernel
  obtain ⟨before, after, split, -⟩ := lookup_eq_some_iff.mp found
  exact all (name, canonical) (split ▸ mem_append_right before mem_cons_self)

theorem spelling_of_lookup_eq_some {canonical : String}
    (found :
      TOOL_NAME_ALIASES.lookup (normalizeLowercaseStringOrEmpty lower name) = some canonical) :
    spelling lower name = canonical := by
  unfold spelling
  dsimp only
  rw [found, Option.getD_some]

theorem spelling_of_lookup_eq_none
    (notFound : TOOL_NAME_ALIASES.lookup (normalizeLowercaseStringOrEmpty lower name) = none) :
    spelling lower name = normalizeLowercaseStringOrEmpty lower name := by
  unfold spelling
  dsimp only
  rw [notFound, Option.getD_none]

theorem spelling_spelling (name : String) :
    spelling lower (spelling lower name) = spelling lower name := by
  rcases Option.eq_none_or_eq_some
    (TOOL_NAME_ALIASES.lookup (normalizeLowercaseStringOrEmpty lower name)) with
    notFound | ⟨canonical, found⟩
  · rw [spelling_of_lookup_eq_none notFound]
    refine (spelling_of_lookup_eq_none ?_).trans (normalizeLowercaseStringOrEmpty_idem name)
    rw [normalizeLowercaseStringOrEmpty_idem, notFound]
  · rw [spelling_of_lookup_eq_some found, spelling_of_isPlainName (isPlainName_of_lookup found)]

theorem normalizeToolName_eq (name : String) : normalizeToolName lower name =
      if isInheritedMember (spelling lower name) then .inherited (spelling lower name)
      else
        .text (spelling lower name) := by
  rcases Option.eq_none_or_eq_some
    (TOOL_NAME_ALIASES.lookup (normalizeLowercaseStringOrEmpty lower name)) with
    notFound | ⟨canonical, found⟩
  · rw [spelling_of_lookup_eq_none notFound]
    unfold normalizeToolName
    dsimp only
    rw [notFound]
  · have plain := isPlainName_of_lookup found
    simp only [isPlainName, Bool.and_eq_true, Bool.not_eq_true'] at plain
    have notInherited : isInheritedMember canonical = false := plain.1.1.2
    rw [spelling_of_lookup_eq_some found, notInherited, if_neg Bool.false_ne_true]
    unfold normalizeToolName
    dsimp only
    rw [found]

theorem normalizeToolName_eq_text_iff {value : String} :
    normalizeToolName lower name = .text value ↔
      spelling lower name = value ∧ isInheritedMember value = false := by
  rw [normalizeToolName_eq]
  constructor
  · intro same
    by_cases inherited : isInheritedMember (spelling lower name) = true
    · rw [if_pos inherited] at same
      cases same
    · rw [if_neg inherited] at same
      obtain rfl := ToolName.text.inj same
      exact ⟨rfl, Bool.eq_false_of_not_eq_true inherited⟩
  · rintro ⟨rfl, notInherited⟩
    rw [notInherited, if_neg Bool.false_ne_true]

theorem normalize_of_normalizeToolName_eq_text {value : String}
    (normal : normalizeToolName lower name = .text value) :
    (ToolName.text value).normalize lower = .text value := by
  obtain ⟨spelled, notInherited⟩ := normalizeToolName_eq_text_iff.mp normal
  have again : normalizeToolName lower value = .text value :=
    normalizeToolName_eq_text_iff.mpr ⟨spelled ▸ spelling_spelling name, notInherited⟩
  exact again

theorem normalize_normalizeToolName_cases (lower : LowerCase) (name : String) :
    (∃ value, normalizeToolName lower name = .text value ∧
        (normalizeToolName lower name).normalize lower = .text value) ∨
      (∃ member, normalizeToolName lower name = .inherited member) ∧
        (normalizeToolName lower name).normalize lower = .text "" := by
  generalize shape : normalizeToolName lower name = normal
  cases normal with
  | text value => exact Or.inl ⟨value, rfl, normalize_of_normalizeToolName_eq_text shape⟩
  | inherited member => exact Or.inr ⟨⟨member, rfl⟩, rfl⟩

end Names

section Patterns

variable {lower : LowerCase}

theorem toolGroups_entries : ∀ entry ∈ TOOL_GROUPS.entries,
      entry.1 ≠ "" ∧ '*' ∉ entry.1.toList ∧ entry.2 ≠ [] ∧
        ∀ member ∈ entry.2, isPlainName member = true := by
  decide +kernel

theorem toolGroups_of_get? {name : String} {members : List String}
    (found : TOOL_GROUPS.get? name = some members) :
    name ≠ "" ∧ '*' ∉ name.toList ∧ members ≠ [] ∧ ∀ member ∈ members, isPlainName member = true :=
  toolGroups_entries (name, members) (OrderedMap.get?_eq_some_iff.mp found)

def PatternMatches (source : String) (value : ToolName) : Prop :=
  source = "*" ∨ value = .text source ∨
    ('*' ∈ source.toList ∧ GlobPatterns.StandsFor '*' matchesDot source.toList value.shown.toList)

def Reads (entry : String) (value : ToolName) : Prop :=
  (∃ members, TOOL_GROUPS.get? entry = some members ∧ ∃ member ∈ members, value = .text member) ∨
    (TOOL_GROUPS.get? entry = none ∧ PatternMatches entry value)

theorem compileGlobPattern_of_normal {source : String}
    (normal : (ToolName.text source).normalize lower = .text source) (nonempty : source ≠ "") :
    compileGlobPattern lower (.text source) =
      if source = "*" then .all
      else if !JsString.includes source '*' then .exact (.text source)
      else
        .regex source := by
  unfold compileGlobPattern
  rw [normal]
  exact if_neg nonempty

theorem matches_compileGlobPattern {source : String}
    (normal : (ToolName.text source).normalize lower = .text source)
    (nonempty : source ≠ "") (value : ToolName) :
    compileGlobPattern lower (.text source) ≠ .exact (.text "") ∧
      ((compileGlobPattern lower (.text source)).matches value = true ↔
        PatternMatches source value) := by
  rw [compileGlobPattern_of_normal normal nonempty, PatternMatches]
  by_cases isStar : source = "*"
  · rw [if_pos isStar]
    exact ⟨nofun, iff_of_true rfl (Or.inl isStar)⟩
  · rw [if_neg isStar]
    by_cases hasStar : '*' ∈ source.toList
    · have included : JsString.includes source '*' = true := contains_iff_mem.mpr hasStar
      rw [included, Bool.not_true, if_neg Bool.false_ne_true]
      refine ⟨nofun, ?_⟩
      rw [CompiledGlobPattern.matches, GlobPatterns.test_eq_true_iff]
      constructor
      · intro stands
        exact Or.inr (Or.inr ⟨hasStar, stands⟩)
      · rintro (isAll | same | ⟨-, stands⟩)
        · exact absurd isAll isStar
        · rw [same]
          exact GlobPatterns.standsFor_self (by decide) _
        · exact stands
    · have notIncluded : JsString.includes source '*' = false := by
        rw [← Bool.not_eq_true]
        exact fun included => hasStar (contains_iff_mem.mp included)
      rw [notIncluded, Bool.not_false, if_pos rfl]
      refine ⟨fun same => nonempty (ToolName.text.inj (CompiledGlobPattern.exact.inj same)), ?_⟩
      rw [CompiledGlobPattern.matches, decide_eq_true_eq]
      constructor
      · intro same
        exact Or.inr (Or.inl same)
      · rintro (isAll | same | ⟨isIncluded, -⟩)
        · exact absurd isAll isStar
        · exact same
        · exact absurd isIncluded hasStar

end Patterns

section Lists

variable {lower : LowerCase}

/-- Every element of a list was normalized. -/
def IsNormalized (lower : LowerCase) (list : List ToolName) : Prop :=
  ∀ name ∈ list, ∃ given, normalizeToolName lower given = name

variable {list : List ToolName} {raw : ToolName}

theorem IsNormalized.normalize_text
    (normalized : IsNormalized lower list) {value : String} (member : .text value ∈ list) :
    (ToolName.text value).normalize lower = .text value := by
  obtain ⟨given, isText⟩ := normalized (.text value) member
  exact normalize_of_normalizeToolName_eq_text isText

theorem mem_expandToolGroup {value : String} : raw ∈ expandToolGroup (.text value) ↔
      (∃ members, TOOL_GROUPS.get? value = some members ∧ ∃ member ∈ members, raw = .text member) ∨
        (TOOL_GROUPS.get? value = none ∧ raw = .text value) := by
  rcases Option.eq_none_or_eq_some (TOOL_GROUPS.get? value) with notFound | ⟨members, found⟩
  · have alone : expandToolGroup (.text value) = [.text value] := by
      unfold expandToolGroup
      dsimp only
      rw [notFound]
    rw [alone, mem_singleton, notFound]
    simp
  · have group : expandToolGroup (.text value) = members.map ToolName.text := by
      unfold expandToolGroup
      dsimp only
      rw [found]
    rw [group, mem_map, found]
    simp only [Option.some.injEq, exists_eq_left', reduceCtorEq, false_and, or_false]
    exact exists_congr fun member => and_congr_right fun _ => eq_comm

theorem mem_expandToolGroups (normalized : IsNormalized lower list)
 : raw ∈ expandToolGroups lower list ↔
      ∃ value, .text value ∈ list ∧ value ≠ "" ∧ raw ∈ expandToolGroup (.text value) := by
  unfold expandToolGroups normalizeToolList
  simp only [mem_eraseDups, mem_flatMap, mem_filter, mem_map]
  constructor
  · rintro ⟨name, ⟨⟨entry, member, rfl⟩, truthy⟩, expanded⟩
    obtain ⟨given, rfl⟩ := normalized entry member
    rcases normalize_normalizeToolName_cases lower given with ⟨value, isText, again⟩ | ⟨-, isEmpty⟩
    · rw [again] at truthy expanded
      refine ⟨value, isText ▸ member, ?_, expanded⟩
      rintro rfl
      exact Bool.false_ne_true truthy
    · rw [isEmpty] at truthy
      exact absurd truthy Bool.false_ne_true
  · rintro ⟨value, member, nonempty, expanded⟩
    have normal := normalized.normalize_text member
    have truthy : (ToolName.text value).isTruthy = true :=
      decide_eq_true fun same => nonempty (ToolName.text.inj same)
    exact ⟨.text value, ⟨⟨.text value, member, normal⟩, truthy⟩, expanded⟩

theorem exists_text_of_mem_expandToolGroups (normalized : IsNormalized lower list)
    (member : raw ∈ expandToolGroups lower list) : ∃ source, raw = .text source ∧ source ≠ "" ∧
      (ToolName.text source).normalize lower = .text source := by
  obtain ⟨value, inList, nonempty, expanded⟩ := (mem_expandToolGroups normalized).mp member
  rcases mem_expandToolGroup.mp expanded with ⟨members, found, tool, isMember, rfl⟩ | ⟨-, rfl⟩
  · have plain := (toolGroups_of_get? found).2.2.2 tool isMember
    have flags := plain
    simp only [isPlainName, Bool.and_eq_true, Bool.not_eq_true', decide_eq_true_eq] at flags
    have normal : normalizeToolName lower tool = .text tool :=
      normalizeToolName_eq_text_iff.mpr ⟨spelling_of_isPlainName plain, flags.1.1.2⟩
    exact ⟨tool, rfl, flags.1.2, normal⟩
  · exact ⟨value, rfl, nonempty, normalized.normalize_text inList⟩

theorem mem_compileGlobPatterns {pattern : CompiledGlobPattern} :
    pattern ∈ compileGlobPatterns lower list ↔
      ∃ raw ∈ list, compileGlobPattern lower raw = pattern ∧ pattern ≠ .exact (.text "") := by
  unfold compileGlobPatterns
  rw [mem_filter, mem_map, decide_eq_true_eq]
  constructor
  · rintro ⟨⟨raw, member, compiled⟩, kept⟩
    exact ⟨raw, member, compiled, kept⟩
  · rintro ⟨raw, member, compiled, kept⟩
    exact ⟨⟨raw, member, compiled⟩, kept⟩

theorem patternMatches_of_mem_group {group member : String} {members : List String}
    (found : TOOL_GROUPS.get? group = some members) (isMember : member ∈ members)
    {value : ToolName} : PatternMatches member value ↔ value = .text member := by
  have plain := (toolGroups_of_get? found).2.2.2 member isMember
  simp only [isPlainName, Bool.and_eq_true, Bool.not_eq_true', decide_eq_true_eq] at plain
  have noStar : '*' ∉ member.toList := fun hasStar =>
    absurd (contains_iff_mem.mpr hasStar) (by rw [plain.2]; exact Bool.false_ne_true)
  constructor
  · rintro (rfl | same | ⟨hasStar, -⟩)
    · exact absurd (by decide) noStar
    · exact same
    · exact absurd hasStar noStar
  · intro same
    exact Or.inr (Or.inl same)

theorem matchesAnyGlobPattern_iff (normalized : IsNormalized lower list) {value : ToolName} :
    matchesAnyGlobPattern value (compileGlobPatterns lower (expandToolGroups lower list)) = true ↔
      ∃ entry, .text entry ∈ list ∧ entry ≠ "" ∧ Reads entry value := by
  unfold matchesAnyGlobPattern
  rw [any_eq_true]
  constructor
  · rintro ⟨pattern, compiled, matched⟩
    obtain ⟨raw, member, rfl, -⟩ := mem_compileGlobPatterns.mp compiled
    obtain ⟨source, rfl, nonempty, normal⟩ := exists_text_of_mem_expandToolGroups normalized member
    have patternMatched := ((matches_compileGlobPattern normal nonempty value).2).mp matched
    obtain ⟨entry, inList, entryNonempty, expanded⟩ := (mem_expandToolGroups normalized).mp member
    refine ⟨entry, inList, entryNonempty, ?_⟩
    rcases mem_expandToolGroup.mp expanded with
      ⟨members, found, tool, isMember, same⟩ | ⟨none, same⟩
    · obtain rfl := ToolName.text.inj same
      exact Or.inl ⟨members, found, source, isMember,
        (patternMatches_of_mem_group found isMember).mp patternMatched⟩
    · obtain rfl := ToolName.text.inj same
      exact Or.inr ⟨none, patternMatched⟩
  · rintro ⟨entry, inList, entryNonempty, reads⟩
    have matched (source : String) (expanded : .text source ∈ expandToolGroup (.text entry))
        (isMatch : PatternMatches source value) :
        ∃ pattern ∈ compileGlobPatterns lower (expandToolGroups lower list),
          pattern.matches value = true := by
      have member := (mem_expandToolGroups normalized).mpr ⟨entry, inList, entryNonempty, expanded⟩
      obtain ⟨text, same, nonempty, normal⟩ :=
        exists_text_of_mem_expandToolGroups normalized member
      obtain rfl := ToolName.text.inj same
      obtain ⟨kept, matches_iff⟩ := matches_compileGlobPattern normal nonempty value
      exact ⟨_, mem_compileGlobPatterns.mpr ⟨_, member, rfl, kept⟩, matches_iff.mpr isMatch⟩
    rcases reads with ⟨members, found, tool, isMember, isValue⟩ | ⟨notGroup, isMatch⟩
    · exact matched tool (mem_expandToolGroup.mpr (Or.inl ⟨members, found, tool, isMember, rfl⟩))
        (Or.inr (Or.inl isValue))
    · exact matched entry (mem_expandToolGroup.mpr (Or.inr ⟨notGroup, rfl⟩)) isMatch

theorem compileGlobPatterns_eq_nil_iff (normalized : IsNormalized lower list) :
    compileGlobPatterns lower (expandToolGroups lower list) = [] ↔
      ∀ entry, .text entry ∈ list → entry = "" := by
  rw [eq_nil_iff_forall_not_mem]
  constructor
  · intro none entry inList
    by_contra nonempty
    have expands : ∃ raw, raw ∈ expandToolGroup (.text entry) := by
      rcases Option.eq_none_or_eq_some (TOOL_GROUPS.get? entry) with notFound | ⟨members, found⟩
      · exact ⟨_, mem_expandToolGroup.mpr (Or.inr ⟨notFound, rfl⟩)⟩
      · obtain ⟨tool, isMember⟩ :=
          exists_mem_of_ne_nil members (toolGroups_of_get? found).2.2.1
        exact ⟨_, mem_expandToolGroup.mpr (Or.inl ⟨members, found, tool, isMember, rfl⟩)⟩
    obtain ⟨raw, expanded⟩ := expands
    have member := (mem_expandToolGroups normalized).mpr ⟨entry, inList, nonempty, expanded⟩
    obtain ⟨source, rfl, sourceNonempty, normal⟩ :=
      exists_text_of_mem_expandToolGroups normalized member
    exact none _ (mem_compileGlobPatterns.mpr
      ⟨_, member, rfl, (matches_compileGlobPattern normal sourceNonempty (.text "")).1⟩)
  · intro blank pattern compiled
    obtain ⟨raw, member, -, -⟩ := mem_compileGlobPatterns.mp compiled
    obtain ⟨entry, inList, nonempty, -⟩ := (mem_expandToolGroups normalized).mp member
    exact nonempty (blank entry inList)

end Lists

end ToolPolicies
