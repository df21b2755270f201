import AieClaw.DeviceBootstrap

/-!
# Facts about profiles and keys

Normal profiles are kept as they are by everything that loads or stores them.
One normal profile satisfies another exactly when it has each of its roles with
each of the scopes that a handoff of this role carries.
-/

namespace DeviceBootstrap

open DeviceAuth JsString List

/-- Roles and scopes in the form in which they are kept. -/
structure NormalProfile (profile : DeviceBootstrapProfile) : Prop where
  sortedRoles : profile.roles.Pairwise fun left right => isAtMost left right = true
  distinctRoles : profile.roles.Nodup
  trimmedRoles : ∀ role ∈ profile.roles, trim role = role ∧ role ≠ ""
  scopes : NormalScopes profile.scopes

theorem mem_normalizeBootstrapRoles {roles : List String} {role : String} :
    role ∈ normalizeBootstrapRoles (some roles) ↔
      role ≠ "" ∧ ∃ original ∈ roles, trim original = role := by
  rw [normalizeBootstrapRoles, mem_toSorted]
  exact mem_trimmedTexts

theorem normalProfile_normalize (input : Option DeviceBootstrapProfileInput) :
    NormalProfile (normalizeDeviceBootstrapProfile input) := by
  constructor
  · exact pairwise_toSorted _
  · exact nodup_toSorted (nodup_trimmedTexts _)
  · intro role member
    obtain ⟨nonEmpty, original, -, rfl⟩ := mem_trimmedTexts.mp (mem_toSorted.mp member)
    exact ⟨trim_trim original, nonEmpty⟩
  · exact normalScopes_normalizeDeviceAuthScopes _

theorem NormalProfile.normalize_eq {profile : DeviceBootstrapProfile}
    (normal : NormalProfile profile) :
    normalizeDeviceBootstrapProfile (some profile.asInput) = profile := by
  obtain ⟨roles, scopes⟩ := profile
  obtain ⟨sorted, distinct, trimmed, normalScopes⟩ := normal
  have sameRoles : normalizeBootstrapRoles (some roles) = roles := by
    rw [normalizeBootstrapRoles, Option.getD_some,
      trimmedTexts_eq_self distinct trimmed, toSorted_eq_self sorted]
  have sameScopes := normalScopes.normalize_eq
  simp only at sameScopes
  simp [normalizeDeviceBootstrapProfile, DeviceBootstrapProfile.asInput, sameRoles, sameScopes]

theorem normalProfile_resolveIssued (params : IssueParams) :
    NormalProfile (resolveIssuedBootstrapProfile params) := by
  unfold resolveIssuedBootstrapProfile
  split
  · rename_i input _
    obtain ⟨sorted, distinct, trimmed, -⟩ := normalProfile_normalize (some input)
    exact ⟨sorted, distinct, trimmed, normalScopes_normalizeDeviceAuthScopes _⟩
  · have own : normalizeDeviceBootstrapProfile
        (some pairingSetupBootstrapProfile.asInput) = pairingSetupBootstrapProfile := by
      decide +kernel
    rw [← own]
    exact normalProfile_normalize _

theorem mem_resolveBootstrapProfileScopesForRole {role scope : String} {scopes : List String} :
    scope ∈ resolveBootstrapProfileScopesForRole role scopes ↔ trim role = operatorRole ∧
        scope ∈ normalizeDeviceAuthScopes scopes ∧ scope ∈ bootstrapHandoffOperatorScopes := by
  by_cases operator : trim role = operatorRole
  · simp [resolveBootstrapProfileScopesForRole, normalizeDeviceAuthRole, operator]
  · simp [resolveBootstrapProfileScopesForRole, normalizeDeviceAuthRole, operator]

theorem not_admin_of_handoff : operatorAdminScope ∉ bootstrapHandoffOperatorScopes := by
  decide

theorem normalScopes_resolveForRole (role : String) (scopes : List String) :
    NormalScopes (resolveBootstrapProfileScopesForRole role scopes) := by
  have all := normalScopes_normalizeDeviceAuthScopes scopes
  by_cases operator : trim role = operatorRole
  · have shape : resolveBootstrapProfileScopesForRole role scopes =
        (normalizeDeviceAuthScopes scopes).filter
          fun scope => decide (scope ∈ bootstrapHandoffOperatorScopes) := by
      simp [resolveBootstrapProfileScopesForRole, normalizeDeviceAuthRole, operator]
    constructor
    · rw [shape]
      exact all.sorted.sublist filter_sublist
    · rw [shape]
      exact all.distinct.sublist filter_sublist
    · intro scope member
      exact all.trimmed scope (mem_resolveBootstrapProfileScopesForRole.mp member).2.1
    · intro scope implied
      have noAdmin : operatorAdminScope ∉
          resolveBootstrapProfileScopesForRole role scopes := fun member =>
        not_admin_of_handoff (mem_resolveBootstrapProfileScopesForRole.mp member).2.2
      rcases implied with member | ⟨rfl, admin | write⟩ | ⟨rfl, admin⟩
      · exact member
      · exact absurd admin noAdmin
      · obtain ⟨-, isScope, -⟩ := mem_resolveBootstrapProfileScopesForRole.mp write
        refine mem_resolveBootstrapProfileScopesForRole.mpr ⟨operator, ?_, by decide⟩
        exact all.closed _ (Or.inr (Or.inl ⟨rfl, Or.inr isScope⟩))
      · exact absurd admin noAdmin
  · have shape : resolveBootstrapProfileScopesForRole role scopes = [] := by
      simp [resolveBootstrapProfileScopesForRole, normalizeDeviceAuthRole, operator]
    rw [shape]
    exact normalScopes_nil

theorem mem_normalize_append {left right : List String} {scope : String}
    (normalLeft : NormalScopes left) (normalRight : NormalScopes right) :
    scope ∈ normalizeDeviceAuthScopes (left ++ right) ↔ scope ∈ left ∨ scope ∈ right := by
  have texts : ∀ text, text ∈ trimmedTexts (left ++ right) ↔ text ∈ left ∨ text ∈ right := by
    intro text
    rw [mem_trimmedTexts]
    constructor
    · rintro ⟨-, original, member, rfl⟩
      rcases mem_append.mp member with inLeft | inRight
      · exact Or.inl ((normalLeft.trimmed _ inLeft).1.symm ▸ inLeft)
      · exact Or.inr ((normalRight.trimmed _ inRight).1.symm ▸ inRight)
    · rintro (inLeft | inRight)
      · obtain ⟨trimmed, nonEmpty⟩ := normalLeft.trimmed text inLeft
        exact ⟨nonEmpty, text, mem_append_left right inLeft, trimmed⟩
      · obtain ⟨trimmed, nonEmpty⟩ := normalRight.trimmed text inRight
        exact ⟨nonEmpty, text, mem_append_right left inRight, trimmed⟩
  rw [mem_normalizeDeviceAuthScopes]
  simp only [Implied, texts]
  constructor
  · rintro (member | ⟨isRead, (admin | admin) | (write | write)⟩ | ⟨isWrite, admin | admin⟩)
    · exact member
    · exact Or.inl (normalLeft.closed _ (Or.inr (Or.inl ⟨isRead, Or.inl admin⟩)))
    · exact Or.inr (normalRight.closed _ (Or.inr (Or.inl ⟨isRead, Or.inl admin⟩)))
    · exact Or.inl (normalLeft.closed _ (Or.inr (Or.inl ⟨isRead, Or.inr write⟩)))
    · exact Or.inr (normalRight.closed _ (Or.inr (Or.inl ⟨isRead, Or.inr write⟩)))
    · exact Or.inl (normalLeft.closed _ (Or.inr (Or.inr ⟨isWrite, admin⟩)))
    · exact Or.inr (normalRight.closed _ (Or.inr (Or.inr ⟨isWrite, admin⟩)))
  · exact Or.inl

theorem roleScopesAllow_handoff {role : String} {requested allowed : List String}
    (operator : trim role = operatorRole) (normalRequested : NormalScopes requested)
    (handoff : ∀ scope ∈ requested, scope ∈ bootstrapHandoffOperatorScopes)
    (normalAllowed : NormalScopes allowed) (noAdmin : operatorAdminScope ∉ allowed) :
    roleScopesAllow role requested allowed = true ↔ ∀ scope ∈ requested, scope ∈ allowed := by
  have satisfied : ∀ scope ∈ requested,
      operatorScopeSatisfied scope allowed = decide (scope ∈ allowed) := by
    intro scope member
    have inHandoff := handoff scope member
    simp only [bootstrapHandoffOperatorScopes, mem_cons, not_mem_nil, or_false] at inHandoff
    rcases inHandoff with rfl | rfl | rfl
    · have starts : startsWith "operator.approvals" "operator." = true := by
        decide +kernel
      simp [operatorScopeSatisfied, starts, noAdmin, operatorReadScope, operatorWriteScope]
    · have starts : startsWith "operator.read" "operator." = true := by
        decide +kernel
      have closed : operatorWriteScope ∈ allowed → operatorReadScope ∈ allowed :=
        fun write => normalAllowed.closed _ (Or.inr (Or.inl ⟨rfl, Or.inr write⟩))
      have same : (operatorReadScope ∈ allowed ∨ operatorWriteScope ∈ allowed) ↔
          operatorReadScope ∈ allowed := ⟨fun either => either.elim id closed, Or.inl⟩
      have isRead : "operator.read" = operatorReadScope := rfl
      rw [isRead] at starts ⊢
      rw [operatorScopeSatisfied, starts]
      simp only [Bool.not_true, Bool.false_eq_true, if_false, if_neg noAdmin, if_true,
        ← Bool.decide_or, same]
    · have starts : startsWith "operator.write" "operator." = true := by
        decide +kernel
      simp [operatorScopeSatisfied, starts, noAdmin, operatorReadScope, operatorWriteScope]
      rfl
  have sameRequested : normalizeScopeList requested = requested :=
    trimmedTexts_eq_self normalRequested.distinct normalRequested.trimmed
  have sameAllowed : normalizeScopeList allowed = allowed :=
    trimmedTexts_eq_self normalAllowed.distinct normalAllowed.trimmed
  unfold roleScopesAllow
  rw [sameRequested, sameAllowed]
  cases requested with
  | nil => simp
  | cons first rest =>
    cases isAllowed : allowed with
    | nil =>
      simp only [isEmpty_cons, isEmpty_nil, Bool.false_eq_true, if_false,
        if_true, not_mem_nil, false_iff]
      exact fun all => all first mem_cons_self
    | cons one others =>
      rw [← isAllowed]
      have notEmpty : allowed.isEmpty = false := by
        rw [isAllowed]
        rfl
      simp only [isEmpty_cons, Bool.false_eq_true, if_false, notEmpty,
        operator, ne_eq, not_true_eq_false, all_eq_true]
      constructor
      · intro all scope member
        simpa [satisfied scope member] using all scope member
      · intro all scope member
        simpa [satisfied scope member] using all scope member

theorem bootstrapProfileSatisfiesProfile_iff {actual required : DeviceBootstrapProfile}
    (normal : NormalScopes actual.scopes) (noAdmin : operatorAdminScope ∉ actual.scopes) :
    bootstrapProfileSatisfiesProfile actual required = true ↔ ∀ role ∈ required.roles,
        role ∈ actual.roles ∧
          ∀ scope ∈ resolveBootstrapProfileScopesForRole role required.scopes,
            scope ∈ actual.scopes := by
  unfold bootstrapProfileSatisfiesProfile
  rw [all_eq_true]
  refine forall₂_congr fun role member => ?_
  rw [Bool.and_eq_true, decide_eq_true_eq]
  refine and_congr_right fun isActual => ?_
  by_cases operator : trim role = operatorRole
  · have allows := roleScopesAllow_handoff operator
      (normalScopes_resolveForRole role required.scopes)
      (fun scope isScope => (mem_resolveBootstrapProfileScopesForRole.mp isScope).2.2)
      normal noAdmin
    rw [Bool.or_eq_true, bootstrapProfileAllowsRequest, decide_eq_true isActual,
      Bool.true_and, allows]
    constructor
    · rintro (isEmpty | all)
      · intro scope isScope
        rw [isEmpty_iff.mp isEmpty] at isScope
        cases isScope
      · exact all
    · exact Or.inr
  · have none_ : resolveBootstrapProfileScopesForRole role required.scopes = [] := by
      simp [resolveBootstrapProfileScopesForRole, normalizeDeviceAuthRole, operator]
    simp [none_]

theorem mem_base64UrlEncodeBytes {bytes : List UInt8} {character : Char}
    (member : character ∈ base64UrlEncodeBytes bytes) : character ∈ base64UrlDigits := by
  have digit : ∀ value, base64UrlDigit value ∈ base64UrlDigits := by
    intro value
    rw [base64UrlDigit, getD_eq_getElem?_getD]
    cases found : base64UrlDigits[value]? with
    | none => decide
    | some character => exact mem_of_getElem? found
  induction bytes using base64UrlEncodeBytes.induct with
  | case1 => cases member
  | case2 first =>
    simp only [base64UrlEncodeBytes, mem_cons, not_mem_nil, or_false] at member
    rcases member with rfl | rfl
    · exact digit _
    · exact digit _
  | case3 first second =>
    simp only [base64UrlEncodeBytes, mem_cons, not_mem_nil, or_false] at member
    rcases member with rfl | rfl | rfl
    · exact digit _
    · exact digit _
    · exact digit _
  | case4 first second third rest inductionHypothesis =>
    simp only [base64UrlEncodeBytes, mem_cons] at member
    rcases member with rfl | rfl | rfl | rfl | later
    · exact digit _
    · exact digit _
    · exact digit _
    · exact digit _
    · exact inductionHypothesis later

theorem base64UrlDigits_plain : ∀ character ∈ base64UrlDigits,
      isWhitespace character = false ∧ character ≠ ' ' ∧ character ∉ ['+', '/', '='] := by
  intro character member
  have checked : base64UrlDigits.all (fun character => isWhitespace character == false &&
        (character != ' ' && decide (character ∉ ['+', '/', '=']))) = true := by
    decide +kernel
  simpa using all_eq_true.mp checked character member

/-- A normal key is its own normal form. -/
theorem normalizeBootstrapPublicKey_idem {host : KeyHost} (readsPem : host.ReadsPem)
    (publicKey : String) :
    normalizeBootstrapPublicKey host (normalizeBootstrapPublicKey host publicKey) =
      normalizeBootstrapPublicKey host publicKey := by
  have encoded : ∀ bytes, normalizeBootstrapPublicKey host (base64UrlEncode bytes) =
        base64UrlEncode bytes := by
    intro bytes
    have digits : ∀ character ∈ (base64UrlEncode bytes).toList,
        isWhitespace character = false ∧ character ≠ ' ' ∧ character ∉ ['+', '/', '='] := by
      intro character member
      rw [base64UrlEncode, String.toList_ofList] at member
      exact base64UrlDigits_plain character (mem_base64UrlEncodeBytes member)
    have trimmed := trim_of_plain fun character member => (digits character member).1
    have noMarks : (base64UrlEncode bytes).toList.any
        (fun character => character ∈ ['+', '/', '=']) = false := by
      rw [any_eq_false]
      intro character member
      simpa using (digits character member).2.2
    have noPem : derivePublicKeyRaw host (base64UrlEncode bytes) = none := by
      rw [derivePublicKeyRaw, readsPem, Option.map_none]
      exact fun member => (digits ' ' member).2.1 rfl
    simp only [normalizeBootstrapPublicKey, trimmed, noMarks, Bool.or_false]
    split
    · rename_i isEmpty
      exact isEmpty.symm
    · split
      · rename_i begins
        simp [normalizeDevicePublicKeyBase64Url, begins, noPem]
      · rfl
  have unchanged : ∀ text, normalizeBootstrapPublicKey host (trim text) =
        normalizeBootstrapPublicKey host text := by
    intro text
    simp [normalizeBootstrapPublicKey, trim_trim]
  have shape : normalizeBootstrapPublicKey host publicKey = trim publicKey ∨
      ∃ bytes, normalizeBootstrapPublicKey host publicKey = base64UrlEncode bytes := by
    unfold normalizeBootstrapPublicKey
    extract_lets trimmed
    split
    · rename_i isEmpty
      exact Or.inl isEmpty.symm
    · split
      · unfold normalizeDevicePublicKeyBase64Url
        split
        · cases derivePublicKeyRaw host trimmed with
          | none => exact Or.inl rfl
          | some raw => exact Or.inr ⟨raw, rfl⟩
        · extract_lets raw
          split
          · exact Or.inl rfl
          · exact Or.inr ⟨_, rfl⟩
      · exact Or.inl rfl
  rcases shape with isTrimmed | ⟨bytes, isEncoded⟩
  · conv_lhs => rw [isTrimmed, unchanged]
  · rw [isEncoded, encoded]

end DeviceBootstrap
