import AieClaw.SystemRunForwarding
import Mathlib.Tactic

/-!
# Plans and bindings that match

A plan that was normalized once is its own normal form, so the plan of a record is read
back unchanged when a call is forwarded. A binding matches only when the environment
entries behind the two hashes are the same list.
-/

namespace SystemRunApprovals

open JsonValue Option

variable {host : SystemRunHost}

/-- A text that is its own normal form, or none. -/
def IsNormalText (text : Option String) : Prop :=
  text.bind SessionKeys.normalizeOptionalString = text

variable {value : Option JsonValue} {operand : SystemRunApprovalFileOperand}
  {plan : SystemRunApprovalPlan} {actualEnvKeys : List String}

theorem isNormalText_normalizeNonEmptyString (value : Option JsonValue) :
    IsNormalText (normalizeNonEmptyString value) := by
  unfold IsNormalText
  cases normalized : normalizeNonEmptyString value with
  | none => rfl
  | some text =>
    obtain ⟨raw, _, isNormal⟩ := bind_eq_some_iff.mp normalized
    exact SessionKeys.normalizeOptionalString_of_eq_some isNormal

theorem isNormalText_bind (text : Option String) :
    IsNormalText (text.bind SessionKeys.normalizeOptionalString) := by
  unfold IsNormalText
  cases normalized : text.bind SessionKeys.normalizeOptionalString with
  | none => rfl
  | some normal =>
    obtain ⟨raw, _, isNormal⟩ := bind_eq_some_iff.mp normalized
    exact SessionKeys.normalizeOptionalString_of_eq_some isNormal

theorem normalizeNonEmptyString_nullable {text : Option String} (normal : IsNormalText text) :
    normalizeNonEmptyString (some (nullable text)) = text := by
  cases text with
  | none => rfl
  | some text => exact normal

/-- A plan whose texts are trimmed and whose arguments are not missing. -/
structure SystemRunApprovalPlan.Normal (plan : SystemRunApprovalPlan) : Prop where
  argv : plan.argv ≠ []
  cwd : IsNormalText plan.cwd
  commandText : IsNormalText (some plan.commandText)
  commandPreview : IsNormalText plan.commandPreview
  agentId : IsNormalText plan.agentId
  sessionKey : IsNormalText plan.sessionKey
  operand :
    ∀ operand, plan.mutableFileOperand = some operand →
      IsNormalText (some operand.path) ∧ IsNormalText (some operand.sha256)

theorem normal_operand
    (normalized : (normalizeSystemRunApprovalFileOperand value).join = some operand) :
    IsNormalText (some operand.path) ∧ IsNormalText (some operand.sha256) := by
  cases value with
  | none => simp [normalizeSystemRunApprovalFileOperand] at normalized
  | some candidate =>
    simp only [normalizeSystemRunApprovalFileOperand, map_some, join_some] at normalized
    split at normalized
    · obtain ⟨argvIndex, _, rest⟩ := bind_eq_some_iff.mp normalized
      obtain ⟨path, isPath, rest⟩ := bind_eq_some_iff.mp rest
      obtain ⟨sha256, isSha256, rfl⟩ := map_eq_some_iff.mp rest
      have pathNormal := isNormalText_normalizeNonEmptyString (candidate.member? "path")
      have shaNormal := isNormalText_normalizeNonEmptyString (candidate.member? "sha256")
      rw [isPath] at pathNormal
      rw [isSha256] at shaNormal
      exact ⟨pathNormal, shaNormal⟩
    · exact absurd normalized (by simp)

theorem normal_of_normalizeSystemRunApprovalPlan
    (normalized : normalizeSystemRunApprovalPlan host value = some plan) : plan.Normal := by
  obtain ⟨candidate, _, isPlan⟩ := bind_eq_some_iff.mp normalized
  split at isPlan
  · dsimp only at isPlan
    split at isPlan
    · exact absurd isPlan (by simp)
    next argv =>
      split at isPlan
      · exact absurd isPlan (by simp)
      · obtain ⟨commandText, isText, rfl⟩ := map_eq_some_iff.mp isPlan
        refine ⟨argv, isNormalText_normalizeNonEmptyString _, ?_,
          isNormalText_normalizeNonEmptyString _, isNormalText_normalizeNonEmptyString _,
          isNormalText_normalizeNonEmptyString _, ?_⟩
        · rw [← isText]
          cases first : normalizeNonEmptyString (candidate.member? "commandText") with
          | none => exact isNormalText_normalizeNonEmptyString _
          | some text =>
            have normal := isNormalText_normalizeNonEmptyString (candidate.member? "commandText")
            rwa [first] at normal
        · intro operand isOperand
          exact normal_operand isOperand
  · exact absurd isPlan (by simp)

theorem normalizeSystemRunApprovalFileOperand_toJson (path : IsNormalText (some operand.path))
    (sha256 : IsNormalText (some operand.sha256)) :
    normalizeSystemRunApprovalFileOperand (some operand.toJson) = some (some operand) := by
  have isPath : normalizeNonEmptyString (some (.string operand.path)) = some operand.path := path
  have isSha256 : normalizeNonEmptyString (some (.string operand.sha256)) = some operand.sha256 :=
    sha256
  simp [normalizeSystemRunApprovalFileOperand, SystemRunApprovalFileOperand.toJson,
    isRecord, member?, asIndex?, asFinite?, isPath, isSha256]

theorem normalizeSystemRunApprovalPlan_toJson (normal : plan.Normal) :
    normalizeSystemRunApprovalPlan host (some plan.toJson) = some plan := by
  have texts : plan.argv.map (host.stringOf ∘ string) = plan.argv := by
    have same : host.stringOf ∘ string = id := rfl
    rw [same, List.map_id]
  have isText : normalizeNonEmptyString (some (.string plan.commandText)) = some plan.commandText :=
    normal.commandText
  cases operand : plan.mutableFileOperand with
  | none =>
    simp [normalizeSystemRunApprovalPlan, SystemRunApprovalPlan.toJson, operand,
      isRecord, member?, normalizeStringArray, texts, normal.argv,
      normalizeSystemRunApprovalFileOperand, isText, normalizeNonEmptyString_nullable normal.cwd,
      normalizeNonEmptyString_nullable normal.commandPreview,
      normalizeNonEmptyString_nullable normal.agentId,
      normalizeNonEmptyString_nullable normal.sessionKey]
    rw [← operand]
  | some operand' =>
    obtain ⟨path, sha256⟩ := normal.operand operand' operand
    simp [normalizeSystemRunApprovalPlan, SystemRunApprovalPlan.toJson, operand,
      isRecord, member?, normalizeStringArray, texts, normal.argv,
      normalizeSystemRunApprovalFileOperand_toJson path sha256, isText,
      normalizeNonEmptyString_nullable normal.cwd,
      normalizeNonEmptyString_nullable normal.commandPreview,
      normalizeNonEmptyString_nullable normal.agentId,
      normalizeNonEmptyString_nullable normal.sessionKey]
    rw [← operand]

theorem eq_of_argvMatches {expected actual : List String} (matched : argvMatches expected actual) :
    expected = actual := by
  unfold argvMatches at matched
  split at matched
  · exact absurd matched (by simp)
  next sizes =>
    simp only [Bool.or_eq_true, decide_eq_true_eq, not_or, not_not] at sizes
    apply List.ext_getElem sizes.2
    intro index first second
    have same := List.all_eq_true.mp matched (expected[index], actual[index])
      (List.mem_iff_getElem.mpr ⟨index, by simp [first, second], by simp⟩)
    simpa using same

theorem entries_eq_of_hash_eq (injective : Function.Injective host.sha256)
    {expected actual : List (String × String)}
    (same : hashSystemRunEnvEntries host expected = hashSystemRunEnvEntries host actual) :
    expected = actual := by
  unfold hashSystemRunEnvEntries at same
  by_cases noExpected : expected = [] <;> by_cases noActual : actual = []
  · rw [noExpected, noActual]
  · simp [noExpected, noActual] at same
  · simp [noExpected, noActual] at same
  · simp only [noExpected, noActual, if_false, Option.some.injEq] at same
    exact injective same

theorem envHash_eq_of_match {expectedEnvHash actualEnvHash : Option Digest}
    (matched : matchSystemRunApprovalEnvHash expectedEnvHash actualEnvHash actualEnvKeys = none) :
    expectedEnvHash = actualEnvHash := by
  unfold matchSystemRunApprovalEnvHash at matched
  cases expectedEnvHash with
  | none =>
    cases actualEnvHash with
    | none => rfl
    | some actual => simp at matched
  | some expected =>
    by_contra differs
    simp [differs] at matched

theorem eq_of_matchSystemRunApprovalBinding {expected actual : SystemRunApprovalBinding}
    (matched : matchSystemRunApprovalBinding expected actual actualEnvKeys = none) :
    expected = actual := by
  unfold matchSystemRunApprovalBinding at matched
  split at matched
  · exact absurd matched (by simp)
  next argv =>
    split at matched
    · exact absurd matched (by simp)
    next cwd =>
      split at matched
      · exact absurd matched (by simp)
      next agentId =>
        split at matched
        · exact absurd matched (by simp)
        next sessionKey =>
          have sameArgv := eq_of_argvMatches (by simpa using argv)
          have sameHash := envHash_eq_of_match matched
          cases expected
          cases actual
          simp_all

theorem get?_pickSystemRunParams (raw : JsonRecord) (key : String) :
    (pickSystemRunParams raw).get? key = if key ∈ forwardedKeys then raw.get? key else none := by
  have picked : ∀ (keys : List String) (next : JsonRecord), (keys.foldl
            (fun next key => (raw.get? key).elim next fun value => next.set key value)
            next).get? key =
          if key ∈ keys ∧ (raw.get? key).isSome then raw.get? key else next.get? key := by
    intro keys
    induction keys with
    | nil => simp
    | cons first rest inductionHypothesis =>
      intro next
      rw [List.foldl_cons, inductionHypothesis]
      by_cases same : key = first
      · subst same
        cases found : raw.get? key with
        | none => simp
        | some value => simp
      · cases found : raw.get? first with
        | none => simp [same]
        | some value => simp [same, OrderedMap.get?_set_of_ne same]
  unfold pickSystemRunParams
  rw [picked]
  by_cases member : key ∈ forwardedKeys
  · cases found : raw.get? key <;> simp [member]
  · simp [member]

theorem get?_putText (next : JsonRecord) (key other : String) (text : Option String) :
    (putText next key text).get? other =
      if other = key then text.map string else next.get? other := by
  cases text with
  | none => simp [putText, OrderedMap.get?_delete]
  | some text => simp [putText, OrderedMap.get?_set]

theorem get?_approve_applyPlan (next : JsonRecord) (plan : SystemRunApprovalPlan)
    (decision : ExecApprovalDecision) : let forwarded := approve (applyPlan next plan) decision
    forwarded.get? "command" = some (.array (plan.argv.map string)) ∧
      forwarded.get? "rawCommand" = some (.string plan.commandText) ∧
      forwarded.get? "cwd" = plan.cwd.map string ∧
      forwarded.get? "agentId" = plan.agentId.map string ∧
      forwarded.get? "sessionKey" = plan.sessionKey.map string ∧
      forwarded.get? "env" = next.get? "env" := by
  simp [approve, applyPlan, get?_putText, OrderedMap.get?_set]

end SystemRunApprovals
