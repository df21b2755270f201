import AieClaw.JsString

/-!
# Roles and scopes of devices

Scopes are kept as sorted lists of trimmed texts. The operator scopes imply one
another: whoever may administer may also write and read, and whoever may write
may read. A list of scopes is asked for under a role; for the operator the
implied scopes count as granted, any other role is held to scopes that begin
with its own name.
-/

namespace DeviceAuth

open JsString List

def operatorRole : String := "operator"

def operatorAdminScope : String := "operator.admin"

def operatorReadScope : String := "operator.read"

def operatorWriteScope : String := "operator.write"

/-- `Set.add` on the texts in the order in which they were added. -/
def addText (out : List String) (text : String) : List String :=
  if text ∈ out then out else out ++ [text]

theorem mem_addText {out : List String} {added text : String} :
    text ∈ addText out added ↔ text ∈ out ∨ text = added := by
  unfold addText
  split
  · rename_i present
    constructor
    · exact Or.inl
    · rintro (member | rfl)
      · exact member
      · exact present
  · simp

theorem nodup_addText {out : List String} (distinct : out.Nodup) (added : String) :
    (addText out added).Nodup := by
  unfold addText
  split
  · exact distinct
  · rename_i absent
    refine nodup_append.mpr ⟨distinct, nodup_singleton added, ?_⟩
    rintro text member other isAdded rfl
    rw [mem_singleton] at isAdded
    exact absent (isAdded ▸ member)

/-- The trimmed texts that are not empty, each once. -/
def trimmedTexts (texts : List String) : List String :=
  texts.foldl
    (fun out text =>
      let trimmed := trim text
      if trimmed = "" then out else addText out trimmed)
    []

theorem mem_trimmedTexts {texts : List String} {text : String} : text ∈ trimmedTexts texts ↔
      text ≠ "" ∧ ∃ original ∈ texts, trim original = text := by
  have onward : ∀ (texts out : List String), (text ∈ texts.foldl (fun out text =>
            let trimmed := trim text
            if trimmed = "" then out else addText out trimmed)
          out ↔
        text ∈ out ∨ text ≠ "" ∧ ∃ original ∈ texts, trim original = text) := by
    intro texts
    induction texts with
    | nil =>
      intro out
      simp
    | cons first rest inductionHypothesis =>
      intro out
      rw [foldl_cons, inductionHypothesis]
      by_cases blank : trim first = ""
      · simp only [blank, if_true, exists_mem_cons_iff]
        constructor
        · rintro (member | ⟨nonEmpty, later⟩)
          · exact Or.inl member
          · exact Or.inr ⟨nonEmpty, Or.inr later⟩
        · rintro (member | ⟨nonEmpty, isEmpty | later⟩)
          · exact Or.inl member
          · exact absurd isEmpty.symm nonEmpty
          · exact Or.inr ⟨nonEmpty, later⟩
      · simp only [blank, if_false, mem_addText, exists_mem_cons_iff]
        constructor
        · rintro ((member | rfl) | ⟨nonEmpty, later⟩)
          · exact Or.inl member
          · exact Or.inr ⟨blank, Or.inl rfl⟩
          · exact Or.inr ⟨nonEmpty, Or.inr later⟩
        · rintro (member | ⟨nonEmpty, isFirst | later⟩)
          · exact Or.inl (Or.inl member)
          · exact Or.inl (Or.inr isFirst.symm)
          · exact Or.inr ⟨nonEmpty, later⟩
  rw [trimmedTexts, onward]
  simp

theorem nodup_trimmedTexts (texts : List String) : (trimmedTexts texts).Nodup := by
  have onward : ∀ (texts out : List String), out.Nodup → (texts.foldl (fun out text =>
          let trimmed := trim text
          if trimmed = "" then out else addText out trimmed)
        out).Nodup := by
    intro texts
    induction texts with
    | nil =>
      intro out distinct
      exact distinct
    | cons first rest inductionHypothesis =>
      intro out distinct
      rw [foldl_cons]
      apply inductionHypothesis
      by_cases blank : trim first = ""
      · simpa [blank] using distinct
      · simpa [blank] using nodup_addText distinct (trim first)
  exact onward texts [] nodup_nil

theorem trimmedTexts_eq_self {texts : List String} (distinct : texts.Nodup)
    (trimmed : ∀ text ∈ texts, trim text = text ∧ text ≠ "") : trimmedTexts texts = texts := by
  have onward : ∀ (later out : List String), (out ++ later).Nodup →
        (∀ text ∈ later, trim text = text ∧ text ≠ "") → later.foldl (fun out text =>
                let trimmed := trim text
                if trimmed = "" then out else addText out trimmed)
              out =
            out ++ later := by
    intro later
    induction later with
    | nil =>
      intro out _ _
      simp
    | cons first rest inductionHypothesis =>
      intro out distinct trimmed
      obtain ⟨isTrimmed, nonEmpty⟩ := trimmed first mem_cons_self
      have fresh : first ∉ out := by
        intro member
        exact (nodup_append.mp distinct).2.2 first member first mem_cons_self rfl
      have step : addText out first = out ++ [first] := if_neg fresh
      rw [foldl_cons]
      simp only [isTrimmed, nonEmpty, if_false, step]
      rw [inductionHypothesis (out ++ [first]) (by simpa using distinct)
        (fun text member => trimmed text (.tail first member))]
      simp
  exact onward texts [] distinct trimmed

def normalizeDeviceAuthRole (role : String) : String := trim role

def normalizeDeviceAuthScopes (scopes : List String) : List String :=
  let out := trimmedTexts scopes
  let withImplied :=
    if operatorAdminScope ∈ out then addText (addText out operatorReadScope) operatorWriteScope
    else if operatorWriteScope ∈ out then addText out operatorReadScope
    else out
  toSorted withImplied

/-- A scope is among the texts, or one of them implies it. -/
def Implied (texts : List String) (scope : String) : Prop :=
  scope ∈ texts ∨
    scope = operatorReadScope ∧ (operatorAdminScope ∈ texts ∨ operatorWriteScope ∈ texts) ∨
      scope = operatorWriteScope ∧ operatorAdminScope ∈ texts

theorem mem_normalizeDeviceAuthScopes {scopes : List String} {scope : String} :
    scope ∈ normalizeDeviceAuthScopes scopes ↔ Implied (trimmedTexts scopes) scope := by
  simp only [normalizeDeviceAuthScopes, Implied, mem_toSorted]
  generalize trimmedTexts scopes = out
  by_cases admin : operatorAdminScope ∈ out
  · simp only [if_pos admin, mem_addText]
    constructor
    · rintro ((member | isRead) | isWrite)
      · exact Or.inl member
      · exact Or.inr (Or.inl ⟨isRead, Or.inl admin⟩)
      · exact Or.inr (Or.inr ⟨isWrite, admin⟩)
    · rintro (member | ⟨isRead, -⟩ | ⟨isWrite, -⟩)
      · exact Or.inl (Or.inl member)
      · exact Or.inl (Or.inr isRead)
      · exact Or.inr isWrite
  · by_cases write : operatorWriteScope ∈ out
    · simp only [if_neg admin, if_pos write, mem_addText]
      simp [admin, write]
    · simp [admin, write]

/-- Scopes as they are kept: sorted, trimmed, distinct, with the implied ones. -/
structure NormalScopes (scopes : List String) : Prop where
  sorted : scopes.Pairwise fun left right => isAtMost left right = true
  distinct : scopes.Nodup
  trimmed : ∀ scope ∈ scopes, trim scope = scope ∧ scope ≠ ""
  closed : ∀ scope, Implied scopes scope → scope ∈ scopes

theorem normalScopes_nil : NormalScopes [] := by
  constructor
  · exact List.Pairwise.nil
  · exact nodup_nil
  · intro scope member
    cases member
  · intro scope implied
    simp [Implied] at implied

theorem normalScopes_normalizeDeviceAuthScopes (scopes : List String) :
    NormalScopes (normalizeDeviceAuthScopes scopes) := by
  constructor
  · exact pairwise_toSorted _
  · unfold normalizeDeviceAuthScopes
    extract_lets out withImplied
    apply nodup_toSorted
    have distinct : out.Nodup := nodup_trimmedTexts scopes
    by_cases admin : operatorAdminScope ∈ out
    · simpa only [withImplied, if_pos admin] using nodup_addText (nodup_addText distinct _) _
    · by_cases write : operatorWriteScope ∈ out
      · simpa only [withImplied, if_neg admin, if_pos write] using nodup_addText distinct _
      · simpa only [withImplied, if_neg admin, if_neg write] using distinct
  · intro scope member
    rcases mem_normalizeDeviceAuthScopes.mp member with isText | ⟨rfl, -⟩ | ⟨rfl, -⟩
    · obtain ⟨nonEmpty, original, -, rfl⟩ := mem_trimmedTexts.mp isText
      exact ⟨trim_trim original, nonEmpty⟩
    · exact ⟨by decide +kernel, by decide⟩
    · exact ⟨by decide +kernel, by decide⟩
  · intro scope isImplied
    have admin : operatorAdminScope ∈ normalizeDeviceAuthScopes scopes →
        operatorAdminScope ∈ trimmedTexts scopes := by
      intro member
      rcases mem_normalizeDeviceAuthScopes.mp member with
        isText | ⟨impossible, -⟩ | ⟨impossible, -⟩
      · exact isText
      · exact absurd impossible (by decide)
      · exact absurd impossible (by decide)
    rcases isImplied with member | ⟨rfl, byAdmin | byWrite⟩ | ⟨rfl, byAdmin⟩
    · exact member
    · exact mem_normalizeDeviceAuthScopes.mpr (Or.inr (Or.inl ⟨rfl, Or.inl (admin byAdmin)⟩))
    · rcases mem_normalizeDeviceAuthScopes.mp byWrite with isText | ⟨impossible, -⟩ | ⟨-, byAdmin⟩
      · exact mem_normalizeDeviceAuthScopes.mpr (Or.inr (Or.inl ⟨rfl, Or.inr isText⟩))
      · exact absurd impossible (by decide)
      · exact mem_normalizeDeviceAuthScopes.mpr (Or.inr (Or.inl ⟨rfl, Or.inl byAdmin⟩))
    · exact mem_normalizeDeviceAuthScopes.mpr (Or.inr (Or.inr ⟨rfl, admin byAdmin⟩))

theorem NormalScopes.normalize_eq {scopes : List String} (normal : NormalScopes scopes) :
    normalizeDeviceAuthScopes scopes = scopes := by
  have texts : trimmedTexts scopes = scopes := trimmedTexts_eq_self normal.distinct normal.trimmed
  unfold normalizeDeviceAuthScopes
  rw [texts]
  have sorted := toSorted_eq_self normal.sorted
  have read : operatorAdminScope ∈ scopes ∨ operatorWriteScope ∈ scopes →
      addText scopes operatorReadScope = scopes := fun implies =>
    if_pos (normal.closed _ (Or.inr (Or.inl ⟨rfl, implies⟩)))
  by_cases admin : operatorAdminScope ∈ scopes
  · have write : addText scopes operatorWriteScope = scopes :=
      if_pos (normal.closed _ (Or.inr (Or.inr ⟨rfl, admin⟩)))
    simp only [if_pos admin, read (Or.inl admin), write, sorted]
  · by_cases write : operatorWriteScope ∈ scopes
    · simp only [if_neg admin, if_pos write, read (Or.inr write), sorted]
    · simp only [if_neg admin, if_neg write, sorted]

def normalizeScopeList (scopes : List String) : List String := trimmedTexts scopes

def operatorScopeSatisfied (requestedScope : String) (granted : List String) : Bool :=
  if !startsWith requestedScope "operator." then false
  else if operatorAdminScope ∈ granted then true
  else if requestedScope = operatorReadScope then
    decide (operatorReadScope ∈ granted) || decide (operatorWriteScope ∈ granted)
  else if requestedScope = operatorWriteScope then decide (operatorWriteScope ∈ granted)
  else decide (requestedScope ∈ granted)

def roleScopesAllow (role : String) (requestedScopes allowedScopes : List String) : Bool :=
  let requested := normalizeScopeList requestedScopes
  if requested.isEmpty then true
  else
    let allowed := normalizeScopeList allowedScopes
    if allowed.isEmpty then false
    else if trim role ≠ operatorRole then
      requested.all fun scope =>
        startsWith scope (trim role ++ ".") && decide (scope ∈ allowed)
    else requested.all fun scope => operatorScopeSatisfied scope allowed

/-- The first scope that is not allowed. -/
def resolveMissingRequestedScope (role : String) (requestedScopes allowedScopes : List String) :
    Option String :=
  requestedScopes.find? fun scope => !roleScopesAllow role [scope] allowedScopes

/-- The first scope that belongs to none of the roles. -/
def resolveScopeOutsideRequestedRoles (requestedRoles requestedScopes : List String) :
    Option String :=
  requestedScopes.find? fun scope =>
    !requestedRoles.any fun role => roleScopesAllow role [scope] [scope]

end DeviceAuth
