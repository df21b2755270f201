import AieClaw.DeviceBootstrapProfiles
import AieClaw.DevicePairing

/-!
# What a baseline grants

A list of scopes grants a scope to a role: to the operator everything that one
of its operator scopes implies, to any other role the scopes of the list that
begin with the role's name. Scopes are allowed when each of them is granted.
-/

namespace DevicePairing

open DeviceAuth DeviceBootstrap JsString List

def isOperatorScope (scope : String) : Bool := startsWith scope operatorScopePrefix

/-- A trimmed role is granted a scope by the trimmed texts of a list. -/
def Grants (role : String) (texts : List String) (scope : String) : Prop :=
  if role = operatorRole then
    isOperatorScope scope = true ∧
      (operatorAdminScope ∈ texts ∨ scope ∈ texts ∨
        scope = operatorReadScope ∧ operatorWriteScope ∈ texts)
  else startsWith scope (role ++ ".") = true ∧ scope ∈ texts

variable {scope role : String} {scopes : Option (List String)}
  {items : List (Option (List String))}

theorem grants_operator {texts : List String} : Grants operatorRole texts scope ↔
      isOperatorScope scope = true ∧
        (operatorAdminScope ∈ texts ∨ scope ∈ texts ∨
          scope = operatorReadScope ∧ operatorWriteScope ∈ texts) := by
  simp [Grants]

theorem grants_other {texts : List String} (other : role ≠ operatorRole) : Grants role texts scope ↔
      startsWith scope (role ++ ".") = true ∧ scope ∈ texts := by
  simp [Grants, other]

theorem Grants.mono {texts more : List String}
    (granted : Grants role texts scope) (subset : ∀ text ∈ texts, text ∈ more) :
    Grants role more scope := by
  by_cases operator : role = operatorRole
  · subst operator
    rw [grants_operator] at granted ⊢
    obtain ⟨isOperator, admin | member | ⟨isRead, write⟩⟩ := granted
    · exact ⟨isOperator, Or.inl (subset _ admin)⟩
    · exact ⟨isOperator, Or.inr (Or.inl (subset _ member))⟩
    · exact ⟨isOperator, Or.inr (Or.inr ⟨isRead, subset _ write⟩)⟩
  · rw [grants_other operator] at granted ⊢
    exact ⟨granted.1, subset _ granted.2⟩

/-- What two lists grant the operator together, one of them grants. -/
theorem grants_operator_append {left right both : List String}
    (subset : ∀ text ∈ both, text ∈ left ∨ text ∈ right)
    (granted : Grants operatorRole both scope) :
    Grants operatorRole left scope ∨ Grants operatorRole right scope := by
  simp only [grants_operator] at granted ⊢
  obtain ⟨isOperator, admin | member | ⟨isRead, write⟩⟩ := granted
  · rcases subset _ admin with inLeft | inRight
    · exact Or.inl ⟨isOperator, Or.inl inLeft⟩
    · exact Or.inr ⟨isOperator, Or.inl inRight⟩
  · rcases subset _ member with inLeft | inRight
    · exact Or.inl ⟨isOperator, Or.inr (Or.inl inLeft)⟩
    · exact Or.inr ⟨isOperator, Or.inr (Or.inl inRight)⟩
  · rcases subset _ write with inLeft | inRight
    · exact Or.inl ⟨isOperator, Or.inr (Or.inr ⟨isRead, inLeft⟩)⟩
    · exact Or.inr ⟨isOperator, Or.inr (Or.inr ⟨isRead, inRight⟩)⟩

/-- Granting follows through a list whose operator scopes are all granted. -/
theorem grants_operator_trans {texts middle : List String}
    (all : ∀ text ∈ middle, isOperatorScope text = true → Grants operatorRole texts text)
    (granted : Grants operatorRole middle scope) : Grants operatorRole texts scope := by
  have admin : operatorAdminScope ∈ middle → operatorAdminScope ∈ texts := by
    intro member
    have isGranted := all _ member (by decide +kernel)
    rw [grants_operator] at isGranted
    rcases isGranted.2 with isAdmin | isAdmin | ⟨impossible, -⟩
    · exact isAdmin
    · exact isAdmin
    · exact absurd impossible (by decide)
  rw [grants_operator] at granted
  obtain ⟨isOperator, isAdmin | member | ⟨isRead, write⟩⟩ := granted
  · exact grants_operator.mpr ⟨isOperator, Or.inl (admin isAdmin)⟩
  · exact all scope member isOperator
  · have isGranted := all _ write (by decide +kernel)
    rw [grants_operator] at isGranted ⊢
    rcases isGranted.2 with isAdmin | isWrite | ⟨impossible, -⟩
    · exact ⟨isOperator, Or.inl isAdmin⟩
    · exact ⟨isOperator, Or.inr (Or.inr ⟨isRead, isWrite⟩)⟩
    · exact absurd impossible (by decide)

theorem operatorScopeSatisfied_iff {texts : List String} :
    operatorScopeSatisfied scope texts = true ↔ Grants operatorRole texts scope := by
  rw [grants_operator]
  unfold operatorScopeSatisfied isOperatorScope operatorScopePrefix
  cases starts : startsWith scope "operator." with
  | false => simp
  | true =>
    by_cases admin : operatorAdminScope ∈ texts
    · simp [admin]
    · by_cases isRead : scope = operatorReadScope
      · subst isRead
        simp [admin]
      · by_cases isWrite : scope = operatorWriteScope
        · subst isWrite
          simp [admin, isRead]
        · simp [admin, isRead, isWrite]

/-- Scopes are allowed when each of them is granted. -/
theorem roleScopesAllow_iff {requested allowed : List String} :
    roleScopesAllow role requested allowed = true ↔ ∀ scope ∈ trimmedTexts requested,
        Grants (trim role) (trimmedTexts allowed) scope := by
  unfold roleScopesAllow normalizeScopeList
  generalize trimmedTexts requested = asked
  generalize trimmedTexts allowed = texts
  cases asked with
  | nil => simp
  | cons first rest =>
    by_cases operator : trim role = operatorRole
    · simp only [isEmpty_cons, Bool.false_eq_true, if_false, operator, ne_eq, not_true_eq_false]
      cases texts with
      | nil =>
        simp only [isEmpty_nil, if_true, Bool.false_eq_true, false_iff]
        intro all
        have granted := all first mem_cons_self
        simp [grants_operator] at granted
      | cons one others =>
        simp [operatorScopeSatisfied_iff]
    · simp only [isEmpty_cons, Bool.false_eq_true, if_false, operator, ne_eq,
        not_false_eq_true, if_true, grants_other operator]
      cases texts with
      | nil =>
        simp only [isEmpty_nil, if_true, Bool.false_eq_true, false_iff]
        intro all
        have granted := all first mem_cons_self
        simp at granted
      | cons one others =>
        simp

theorem mem_trimmedTexts_of_normal {scopes : List String} (normal : NormalScopes scopes) :
    trimmedTexts scopes = scopes :=
  trimmedTexts_eq_self normal.distinct normal.trimmed

theorem toList_operatorScopePrefix : operatorScopePrefix.toList = operatorRole.toList ++ ['.'] := by
  decide

/-- A scope of a role other than the operator that looks like an operator scope. -/
theorem role_of_operatorScope (isRole : startsWith scope (role ++ ".") = true)
    (isOperator : isOperatorScope scope = true) :
    role = operatorRole ∨ startsWith role operatorScopePrefix = true := by
  have roleStarts : role.toList ++ ['.'] <+: scope.toList := by
    simpa [startsWith] using isRole
  have operatorStarts : operatorRole.toList ++ ['.'] <+: scope.toList := by
    simpa [isOperatorScope, startsWith, toList_operatorScopePrefix] using isOperator
  rcases Nat.le_total (role.toList ++ ['.']).length
      (operatorRole.toList ++ ['.']).length with shorter | longer
  · have within := prefix_of_prefix_length_le roleStarts operatorStarts shorter
    rcases prefix_concat_iff.mp within with same | inside
    · exact Or.inl (String.toList_inj.mp (append_cancel_right same))
    · have dot : '.' ∈ operatorRole.toList :=
        inside.subset (mem_append_right _ mem_cons_self)
      exact absurd dot (by decide)
  · have within := prefix_of_prefix_length_le operatorStarts roleStarts longer
    rcases prefix_concat_iff.mp within with same | inside
    · exact Or.inl (String.toList_inj.mp (append_cancel_right same)).symm
    · refine Or.inr ?_
      simpa [startsWith, toList_operatorScopePrefix] using inside

/-- A normal form grants what its texts grant. -/
theorem grants_normalize_iff {scopes : List String} :
    Grants role (normalizeDeviceAuthScopes scopes) scope ↔
      Grants role (trimmedTexts scopes) scope := by
  have subset : ∀ text ∈ trimmedTexts scopes,
      text ∈ normalizeDeviceAuthScopes scopes := fun text member =>
    mem_normalizeDeviceAuthScopes.mpr (Or.inl member)
  constructor
  · intro granted
    by_cases operator : role = operatorRole
    · subst operator
      refine grants_operator_trans (fun text member isOperator => ?_) granted
      rw [grants_operator]
      rcases mem_normalizeDeviceAuthScopes.mp member with
        isText | ⟨isRead, admin | write⟩ | ⟨isWrite, admin⟩
      · exact ⟨isOperator, Or.inr (Or.inl isText)⟩
      · exact ⟨isOperator, Or.inl admin⟩
      · exact ⟨isOperator, Or.inr (Or.inr ⟨isRead, write⟩)⟩
      · exact ⟨isOperator, Or.inl admin⟩
    · rw [grants_other operator] at granted ⊢
      obtain ⟨starts, member⟩ := granted
      refine ⟨starts, ?_⟩
      have implied : ∀ other, other = operatorReadScope ∨ other = operatorWriteScope →
          scope ≠ other := by
        rintro other isOther rfl
        have roleStarts : role.toList ++ ['.'] <+: scope.toList := by
          simpa [startsWith] using starts
        have isOperator : isOperatorScope scope = true := by
          rcases isOther with rfl | rfl
          · decide +kernel
          · decide +kernel
        rcases role_of_operatorScope starts isOperator with isRole | longer
        · exact operator isRole
        · have tail : operatorRole.toList ++ ['.'] <+: role.toList := by
            simpa [startsWith, toList_operatorScopePrefix] using longer
          have dots : 2 ≤ scope.toList.count '.' := by
            have counted := roleStarts.sublist.count_le '.'
            have inner := tail.sublist.count_le '.'
            have one : (operatorRole.toList ++ ['.']).count '.' = 1 := by
              decide
            rw [count_append, count_singleton_self] at counted
            omega
          rcases isOther with rfl | rfl
          · exact absurd dots (by decide)
          · exact absurd dots (by decide)
      rcases mem_normalizeDeviceAuthScopes.mp member with isText | ⟨isRead, -⟩ | ⟨isWrite, -⟩
      · exact isText
      · exact absurd rfl (implied scope (Or.inl isRead))
      · exact absurd rfl (implied scope (Or.inr isWrite))
  · intro granted
    exact granted.mono subset

/-- The trimmed texts of a list that may be missing. -/
def texts (scopes : Option (List String)) : List String := trimmedTexts (scopes.getD [])

theorem mem_trimmedTexts_trimmedTexts {scopes : List String} {text : String} :
    text ∈ trimmedTexts (trimmedTexts scopes) ↔ text ∈ trimmedTexts scopes := by
  rw [mem_trimmedTexts]
  constructor
  · rintro ⟨-, original, member, rfl⟩
    obtain ⟨nonEmpty, first, inScopes, rfl⟩ := mem_trimmedTexts.mp member
    rw [trim_trim]
    exact member
  · intro member
    obtain ⟨nonEmpty, original, inScopes, rfl⟩ := mem_trimmedTexts.mp member
    exact ⟨nonEmpty, _, member, trim_trim original⟩

theorem mem_texts_mergeScopes {text : String} :
    text ∈ texts (mergeScopes items) ↔ ∃ item ∈ items, text ∈ texts item := by
  have merged : text ∈ texts (mergeScopes items) ↔
      text ∈ trimmedTexts (items.flatMap fun item => item.getD []) := by
    unfold mergeScopes texts
    extract_lets scopes
    split
    · rename_i isEmpty
      have none_ : trimmedTexts (items.flatMap fun item => item.getD []) = [] :=
        isEmpty_iff.mp isEmpty
      rw [none_]
      split
      · exact Iff.rfl
      · exact Iff.rfl
    · exact mem_trimmedTexts_trimmedTexts
  rw [merged]
  simp only [texts, mem_trimmedTexts, mem_flatMap]
  constructor
  · rintro ⟨nonEmpty, original, ⟨item, isItem, member⟩, isText⟩
    exact ⟨item, isItem, nonEmpty, original, member, isText⟩
  · rintro ⟨item, isItem, nonEmpty, original, member, isText⟩
    exact ⟨nonEmpty, original, ⟨item, isItem, member⟩, isText⟩

theorem isSome_mergeScopes
    {item : Option (List String)} (member : item ∈ items) (given : item.isSome = true) :
    (mergeScopes items).isSome = true := by
  unfold mergeScopes
  extract_lets scopes
  split
  · rw [if_pos (any_eq_true.mpr ⟨item, member, given⟩)]
    rfl
  · rfl

theorem mem_mergeRoles {items : List (List String)} {role : String} :
    role ∈ (mergeRoles items).getD [] ↔ role ∈ trimmedTexts items.flatten := by
  unfold mergeRoles
  extract_lets roles
  split
  · rename_i isEmpty
    have none_ : trimmedTexts items.flatten = [] := isEmpty_iff.mp isEmpty
    rw [none_]
    rfl
  · rfl

theorem mem_resolveRoleScopedDeviceTokenScopes :
    scope ∈ resolveRoleScopedDeviceTokenScopes role scopes ↔
      scope ∈ normalizeDeviceAuthScopes (scopes.getD []) ∧
        (isOperatorScope scope = true ↔ role = operatorRole) := by
  unfold resolveRoleScopedDeviceTokenScopes isOperatorScope
  by_cases operator : role = operatorRole
  · simp [operator]
  · simp [operator]

theorem normalScopes_resolveRoleScoped (role : String) (scopes : Option (List String)) :
    NormalScopes (resolveRoleScopedDeviceTokenScopes role scopes) := by
  have all := normalScopes_normalizeDeviceAuthScopes (scopes.getD [])
  have sublist : List.Sublist (resolveRoleScopedDeviceTokenScopes role scopes)
      (normalizeDeviceAuthScopes (scopes.getD [])) := by
    unfold resolveRoleScopedDeviceTokenScopes
    extract_lets normalized
    split
    · exact filter_sublist
    · exact filter_sublist
  constructor
  · exact all.sorted.sublist sublist
  · exact all.distinct.sublist sublist
  · intro scope member
    exact all.trimmed scope (sublist.subset member)
  · intro scope implied
    have operatorScopes : ∀ other, other ∈ resolveRoleScopedDeviceTokenScopes role scopes →
          isOperatorScope other = true → role = operatorRole := fun other member =>
      (mem_resolveRoleScopedDeviceTokenScopes.mp member).2.mp
    have inAll : scope ∈ normalizeDeviceAuthScopes (scopes.getD []) := by
      refine all.closed scope ?_
      rcases implied with member | ⟨isRead, admin | write⟩ | ⟨isWrite, admin⟩
      · exact Or.inl (sublist.subset member)
      · exact Or.inr (Or.inl ⟨isRead, Or.inl (sublist.subset admin)⟩)
      · exact Or.inr (Or.inl ⟨isRead, Or.inr (sublist.subset write)⟩)
      · exact Or.inr (Or.inr ⟨isWrite, sublist.subset admin⟩)
    rcases implied with member | ⟨rfl, admin | write⟩ | ⟨rfl, admin⟩
    · exact member
    · have operator := operatorScopes _ admin (by decide +kernel)
      have isOperator : isOperatorScope operatorReadScope = true := by decide +kernel
      exact mem_resolveRoleScopedDeviceTokenScopes.mpr
        ⟨inAll, ⟨fun _ => operator, fun _ => isOperator⟩⟩
    · have operator := operatorScopes _ write (by decide +kernel)
      have isOperator : isOperatorScope operatorReadScope = true := by decide +kernel
      exact mem_resolveRoleScopedDeviceTokenScopes.mpr
        ⟨inAll, ⟨fun _ => operator, fun _ => isOperator⟩⟩
    · have operator := operatorScopes _ admin (by decide +kernel)
      have isOperator : isOperatorScope operatorWriteScope = true := by decide +kernel
      exact mem_resolveRoleScopedDeviceTokenScopes.mpr
        ⟨inAll, ⟨fun _ => operator, fun _ => isOperator⟩⟩

/-- The operator's scopes of a list are granted by its texts. -/
theorem grants_of_mem_operatorScoped
    (member : scope ∈ resolveRoleScopedDeviceTokenScopes operatorRole scopes) :
    Grants operatorRole (texts scopes) scope := by
  obtain ⟨isScope, isOperator⟩ := mem_resolveRoleScopedDeviceTokenScopes.mp member
  rw [texts, ← grants_normalize_iff, grants_operator]
  exact ⟨isOperator.mpr rfl, Or.inr (Or.inl isScope)⟩

/-- Another role's scopes of a list are texts of it. -/
theorem mem_texts_of_mem_roleScoped (other : role ≠ operatorRole)
    (member : scope ∈ resolveRoleScopedDeviceTokenScopes role scopes) :
    scope ∈ texts scopes ∧ isOperatorScope scope = false := by
  obtain ⟨isScope, isOperator⟩ := mem_resolveRoleScopedDeviceTokenScopes.mp member
  have notOperator : isOperatorScope scope = false := by
    cases isOp : isOperatorScope scope with
    | false => rfl
    | true => exact absurd (isOperator.mp isOp) other
  refine ⟨?_, notOperator⟩
  rcases mem_normalizeDeviceAuthScopes.mp isScope with isText | ⟨rfl, -⟩ | ⟨rfl, -⟩
  · exact isText
  · exact absurd notOperator (by decide +kernel)
  · exact absurd notOperator (by decide +kernel)

theorem mem_roleScoped_of_mem_texts (other : role ≠ operatorRole) (member : scope ∈ texts scopes)
    (notOperator : isOperatorScope scope = false) :
    scope ∈ resolveRoleScopedDeviceTokenScopes role scopes := by
  refine mem_resolveRoleScopedDeviceTokenScopes.mpr
    ⟨mem_normalizeDeviceAuthScopes.mpr (Or.inl member), ?_⟩
  simp [notOperator, other]

end DevicePairing
