import AieClaw.DevicePairingRuns

/-!
# What an approval grants

The scopes of a role's new token are what the request adds to the approved
baseline, together with the scopes of the role's earlier token. A token may hold
less than the baseline, and then a request for what the baseline lists already
is approved without being granted.
-/

namespace DevicePairing

open DeviceAuth JsString OrderedMap TransitionSystem List Option

/-- The requested scopes that belong to a role. -/
def requestedFor (pending : DevicePairingPendingRequest) (role : String) : List String :=
  (resolveRequestedScopes pending.toDevicePairingRequest).filter fun scope =>
    roleScopesAllow role [scope] [scope]

/-- Where the scopes of a role's new token may come from. -/
def scopeSources (pending : DevicePairingPendingRequest) (existing : Option PairedDevice)
    (role : String) : List String :=
  pending.scopes.getD [] ++
    (((existingTokens existing).get? role).map DeviceAuthToken.scopes).getD
      (if (requestedFor pending role).isEmpty then (existing.bind PairedDevice.baseline).getD []
      else [])

/-- The new token of a role is what was approved. -/
structure GrantsRequested (pending : DevicePairingPendingRequest)
    (existing : Option PairedDevice) (role : String) (entry : DeviceAuthToken) : Prop where
  notRevoked : entry.isRevoked = false
  differs : ∀ before, (existingTokens existing).get? role = some before → entry.token ≠ before.token
  allows : roleScopesAllow role (requestedFor pending role) entry.scopes = true
  within : ∀ scope ∈ entry.scopes, Implied (trimmedTexts (scopeSources pending existing role)) scope

/--
A requested operator scope is the operator's, and one that the baseline lists
already is allowed by the earlier token and what the request adds.
-/
def KeepsRequested (pending : DevicePairingPendingRequest) (existing : Option PairedDevice)
    (role : String) : Prop :=
  ∀ scope ∈ requestedFor pending role,
    (isOperatorScope scope = true → role = operatorRole) ∧
      ∀ before, (existingTokens existing).get? role = some before →
        scope ∈ resolveRoleScopedDeviceTokenScopes role (existing.bind PairedDevice.baseline) →
          roleScopesAllow role [scope]
            (before.scopes ++ newTokenScopes role pending existing) = true

/-- The token of a role that the files hold for a device. -/
def tokenFor (files : DevicePairingStateFile) (deviceId role : String) : Option DeviceAuthToken :=
  (files.pairedByDeviceId.get? deviceId).bind fun device => device.token? role

/-- A request is approved, with tokens unlike those in the files. -/
structure GoesThrough (newToken : String → String) (nowMs : ℤ) (requestId : String)
    (callerScopes : Option (List String)) (files : DevicePairingStateFile)
    (pending : DevicePairingPendingRequest) : Prop where
  isPending : (loadState nowMs files).pendingById.get? requestId = some pending
  isApproved :
    (approveDevicePairing newToken nowMs requestId callerScopes files).1.isApproved = true
  fresh :
    ∀ role deviceId other before,
      tokenFor files deviceId other = some before → newToken role ≠ before.token

def GrantsAll (pending : DevicePairingPendingRequest)
    (files next : DevicePairingStateFile) : Prop :=
  ∀ role ∈ resolveRequestedRoles pending.toDevicePairingRequest,
    ∃ entry, tokenFor next pending.deviceId role = some entry ∧
      GrantsRequested pending (files.pairedByDeviceId.get? pending.deviceId) role entry

variable {pending : DevicePairingPendingRequest} {existing : Option PairedDevice}
  {role scope : String} {list : Option (List String)} {newToken : String → String} {nowMs : ℤ}
  {requestId : String} {callerScopes : Option (List String)} {files : DevicePairingStateFile}

theorem allows_singleton_iff {all allowed : List String} (normal : NormalScopes all)
    (member : scope ∈ all) (named : trim role = role) :
    roleScopesAllow role [scope] allowed = true ↔ Grants role (trimmedTexts allowed) scope := by
  rw [roleScopesAllow_iff, trimmedTexts_of_sublist normal (singleton_sublist.mpr member),
    forall_mem_singleton, named]

theorem mem_trimmedTexts_append {left right : List String} {text : String} :
    text ∈ trimmedTexts (left ++ right) ↔ text ∈ trimmedTexts left ∨ text ∈ trimmedTexts right := by
  simp only [mem_trimmedTexts, mem_append, or_and_right, exists_or, and_or_left]

theorem trim_of_requested
    (requested : role ∈ resolveRequestedRoles pending.toDevicePairingRequest) :
    trim role = role := by
  rw [resolveRequestedRoles, mem_mergeRoles, mem_trimmedTexts] at requested
  obtain ⟨-, original, -, rfl⟩ := requested
  exact trim_trim original

theorem mem_requestedFor (named : trim role = role) :
    scope ∈ requestedFor pending role ↔
      scope ∈ resolveRequestedScopes pending.toDevicePairingRequest ∧
        Grants role [scope] scope := by
  rw [requestedFor, mem_filter]
  refine and_congr_right fun member => ?_
  have normal := normalScopes_normalizeDeviceAuthScopes (pending.scopes.getD [])
  rw [allows_singleton_iff normal member named,
    trimmedTexts_of_sublist normal (singleton_sublist.mpr member)]

theorem asked_of_requested (named : trim role = role)
    (requested : scope ∈ requestedFor pending role)
    (belongs : isOperatorScope scope = true → role = operatorRole) :
    (isOperatorScope scope = true ↔ role = operatorRole) ∧
      scope ∈ resolveRoleScopedDeviceTokenScopes role pending.scopes := by
  obtain ⟨member, own⟩ := (mem_requestedFor named).mp requested
  have isOwn : isOperatorScope scope = true ↔ role = operatorRole := by
    refine ⟨belongs, ?_⟩
    rintro rfl
    exact (grants_operator.mp own).1
  exact ⟨isOwn, mem_resolveRoleScopedDeviceTokenScopes.mpr ⟨member, isOwn⟩⟩

theorem Grants.of_mem {granting : List String} (own : Grants role [scope] scope)
    (member : scope ∈ granting) : Grants role granting scope :=
  own.mono (by simpa using member)

theorem grants_roleScoped_iff (belongs : isOperatorScope scope = true ↔ role = operatorRole) :
    Grants role (resolveRoleScopedDeviceTokenScopes role list) scope ↔
      Grants role (texts list) scope := by
  by_cases operator : role = operatorRole
  · subst operator
    constructor
    · exact grants_operator_trans fun text member _ => grants_of_mem_operatorScoped member
    · intro granted
      refine grants_operator_trans (fun text isText isOperator => ?_) granted
      refine grants_operator.mpr ⟨isOperator, Or.inr (Or.inl ?_)⟩
      exact mem_resolveRoleScopedDeviceTokenScopes.mpr
        ⟨mem_normalizeDeviceAuthScopes.mpr (Or.inl isText), by simp [isOperator]⟩
  · have notOperator : isOperatorScope scope = false := by
      simpa [operator] using belongs
    rw [grants_other operator, grants_other operator]
    refine and_congr_right fun _ => ⟨fun member => ?_, fun member => ?_⟩
    · exact (mem_texts_of_mem_roleScoped operator member).1
    · exact mem_roleScoped_of_mem_texts operator member notOperator

theorem mem_newTokenScopes
    (asked : scope ∈ resolveRoleScopedDeviceTokenScopes role pending.scopes) :
    scope ∈ newTokenScopes role pending existing ↔
      ∀ before, (existingTokens existing).get? role = some before →
        scope ∉ resolveRoleScopedDeviceTokenScopes role
          (existing.bind PairedDevice.baseline) := by
  have asks := isEmpty_eq_false_iff.mpr (ne_nil_of_mem asked)
  rw [newTokenScopes_of_asked existing asks]
  cases (existingTokens existing).get? role with
  | none => simp [asked]
  | some before =>
    cases resolveRoleScopedDeviceTokenScopes role (existing.bind PairedDevice.baseline) with
    | nil => simp [asked]
    | cons first rest => simp [asked]

/-- The new token allows what is requested for its role when none of it gets lost. -/
theorem allows_callerTokenScopes_iff (named : trim role = role) :
    roleScopesAllow role (requestedFor pending role) (callerTokenScopes pending existing role) =
        true ↔
      KeepsRequested pending existing role := by
  have normal : NormalScopes (callerTokenScopes pending existing role) :=
    normalScopes_resolveApprovedTokenScopes role pending _ _ existing
  have normalRequest : NormalScopes (resolveRequestedScopes pending.toDevicePairingRequest) :=
    normalScopes_normalizeDeviceAuthScopes _
  rw [roleScopesAllow_iff, requestedFor, trimmedTexts_of_sublist normalRequest filter_sublist,
    mem_trimmedTexts_of_normal normal, named]
  obtain ⟨list, isScopes, isText⟩ := callerTokenScopes_roleScoped role pending existing
  refine forall₂_congr fun scope requested => ?_
  obtain ⟨member, own⟩ := (mem_requestedFor named).mp requested
  rw [isScopes]
  by_cases belongs : isOperatorScope scope = true → role = operatorRole
  · obtain ⟨isOwn, asked⟩ := asked_of_requested named requested belongs
    have asks := isEmpty_eq_false_iff.mpr (ne_nil_of_mem asked)
    simp only [asks, Bool.false_eq_true, if_false] at isText
    rw [grants_roleScoped_iff isOwn, and_iff_right belongs]
    by_cases isNew : scope ∈ newTokenScopes role pending existing
    · have notListed := (mem_newTokenScopes asked).mp isNew
      exact iff_of_true (own.of_mem ((isText scope).mpr (Or.inr isNew)))
        fun before isToken listed => absurd listed (notListed before isToken)
    · rw [mem_newTokenScopes asked] at isNew
      simp only [not_forall, not_not] at isNew
      obtain ⟨before, isToken, listed⟩ := isNew
      rw [isToken] at isText ⊢
      simp only [Option.some.injEq, forall_eq', listed, forall_const]
      rw [allows_singleton_iff normalRequest member named]
      have sameTexts : ∀ text, text ∈ texts list ↔
          text ∈ trimmedTexts (before.scopes ++ newTokenScopes role pending existing) := by
        intro text
        rw [mem_trimmedTexts_append, isText, trimmedTexts_of_sublist
          (normalScopes_resolveRoleScoped role pending.scopes)
          (newTokenScopes_sublist existing asks)]
        rfl
      exact ⟨fun granted => granted.mono fun text => (sameTexts text).mp,
        fun granted => granted.mono fun text => (sameTexts text).mpr⟩
  · refine iff_of_false (fun granted => ?_) fun kept => belongs kept.1
    obtain ⟨isOperator, other⟩ := Classical.not_imp.mp belongs
    have isMember := ((grants_other other).mp granted).2
    exact other ((mem_resolveRoleScopedDeviceTokenScopes.mp isMember).2.mp isOperator)

theorem implied_mono {fewer more : List String} (implied : Implied fewer scope)
    (subset : ∀ text ∈ fewer, text ∈ more) : Implied more scope := by
  rcases implied with member | ⟨isRead, admin | write⟩ | ⟨isWrite, admin⟩
  · exact Or.inl (subset _ member)
  · exact Or.inr (Or.inl ⟨isRead, Or.inl (subset _ admin)⟩)
  · exact Or.inr (Or.inl ⟨isRead, Or.inr (subset _ write)⟩)
  · exact Or.inr (Or.inr ⟨isWrite, subset _ admin⟩)

/-- The new token has its scopes from the request, the earlier token or the baseline. -/
theorem callerTokenScopes_sources (kept : KeepsRequested pending existing role)
    (named : trim role = role) :
    ∀ scope ∈ callerTokenScopes pending existing role,
      Implied (trimmedTexts (scopeSources pending existing role)) scope := by
  obtain ⟨list, isScopes, isSource⟩ := callerTokenScopes_roleScoped role pending existing
  intro scope member
  rw [isScopes] at member
  have inList := (mem_resolveRoleScopedDeviceTokenScopes.mp member).1
  rw [← mem_normalizeDeviceAuthScopes]
  refine (normalScopes_normalizeDeviceAuthScopes _).closed scope
    (implied_mono (mem_normalizeDeviceAuthScopes.mp inList) fun text isText => ?_)
  rw [mem_normalizeDeviceAuthScopes]
  rcases (isSource text).mp isText with ofToken | given
  · refine Or.inl (mem_trimmedTexts_append.mpr (Or.inr ?_))
    cases isToken : (existingTokens existing).get? role with
    | some before =>
      rw [isToken] at ofToken
      exact ofToken
    | none =>
      rw [isToken] at ofToken
      cases ofToken
  split at given
  · rename_i isEmpty
    have noneRequested : requestedFor pending role = [] := by
      refine eq_nil_iff_forall_not_mem.mpr fun scope requested => ?_
      have asked := (asked_of_requested named requested (kept scope requested).1).2
      exact absurd asked (by simp [isEmpty_iff.mp isEmpty])
    refine Or.inl (mem_trimmedTexts_append.mpr ?_)
    rw [given.1, Option.map_none, noneRequested]
    exact (mem_texts_approved.mp given.2).symm
  · rename_i asks
    have asked := (newTokenScopes_sublist existing (Bool.not_eq_true _ ▸ asks)).subset given
    have inRequest := (mem_resolveRoleScopedDeviceTokenScopes.mp asked).1
    exact implied_mono (mem_normalizeDeviceAuthScopes.mp inRequest)
      fun text isText => mem_trimmedTexts_append.mpr (Or.inl isText)

/--
An approval that goes through gives every requested role what was approved
exactly when none of it gets lost.
-/
theorem grantsAll_iff
    (through : GoesThrough newToken nowMs requestId callerScopes files pending) :
    GrantsAll pending files (approveDevicePairing newToken nowMs requestId callerScopes files).2 ↔
      ∀ role ∈ resolveRequestedRoles pending.toDevicePairingRequest,
        KeepsRequested pending (files.pairedByDeviceId.get? pending.deviceId) role := by
  obtain ⟨isPending, isApproved, fresh⟩ := through
  rcases approveDevicePairing_cases newToken nowMs requestId callerScopes files with
    ⟨refused, -⟩ | ⟨found, isFound, -, -, next⟩
  · rw [isApproved] at refused
    cases refused
  cases isFound.symm.trans isPending
  rw [next]
  refine forall₂_congr fun role requested => ?_
  have named := trim_of_requested requested
  obtain ⟨notRequested, -⟩ | ⟨-, before, rotatedAtMs, isEntry⟩ := get?_setTokens newToken nowMs
      (callerTokenScopes pending (files.pairedByDeviceId.get? pending.deviceId))
      (resolveRequestedRoles pending.toDevicePairingRequest)
      (existingTokens (files.pairedByDeviceId.get? pending.deviceId)) role
  · exact absurd requested notRequested
  simp only [tokenFor, storeApproved, approvedDevice, get?_set_self, bind_some,
    PairedDevice.token?, existingTokens] at isEntry ⊢
  rw [← allows_callerTokenScopes_iff named]
  simp only [isEntry, getD_some, Option.some.injEq, exists_eq_left']
  refine ⟨GrantsRequested.allows, fun allowed => ⟨rfl, ?_, allowed, ?_⟩⟩
  · intro earlier isEarlier
    obtain ⟨device, isDevice, isStored⟩ := exists_of_existingTokens isEarlier
    exact fresh role pending.deviceId role earlier (by rw [tokenFor, isDevice]; exact isStored)
  · exact callerTokenScopes_sources ((allows_callerTokenScopes_iff named).mp allowed) named

private theorem fresh_of_all {text : String} (all : (files.pairedByDeviceId.values.all fun device =>
      (existingTokens (some device)).values.all fun entry => decide (text ≠ entry.token)) = true)
    (_ deviceId other : String) (before : DeviceAuthToken)
    (stored : tokenFor files deviceId other = some before) : text ≠ before.token := by
  obtain ⟨device, isDevice, isToken⟩ := bind_eq_some_iff.mp stored
  have ofDevice := all_eq_true.mp all device (mem_values_of_get? isDevice)
  exact of_decide_eq_true (all_eq_true.mp ofDevice before (mem_values_of_get? isToken))

private def pendingWrites (isRepair : Bool) : DevicePairingPendingRequest :=
  { readerRequest with
    scopes := some ["operator.write"]
    requestId := "request-a"
    isRepair := some isRepair
    ts := 0 }

private def writer : Option (List String) := some ["operator.write"]

/-- The first approval of a device that may write. -/
theorem grantsAll_first :
    GrantsAll (pendingWrites false) (askedFor ["operator"] writer).files
      (approveDevicePairing (fun _ => "token-a") 0 "request-a" writer
        (askedFor ["operator"] writer).files).2 := by
  refine (grantsAll_iff ⟨by decide +kernel, by decide +kernel, fresh_of_all
    (by decide +kernel)⟩).mpr ?_
  intro role requested scope _
  refine ⟨fun _ => ?_, fun before isToken => ?_⟩
  · have roles : resolveRequestedRoles (pendingWrites false).toDevicePairingRequest =
        ["operator"] := by
      decide +kernel
    rw [roles] at requested
    exact mem_singleton.mp requested
  · have isNew : (askedFor ["operator"] writer).files.pairedByDeviceId.get?
        (pendingWrites false).deviceId = none :=
      isNone_iff_eq_none.mp (by decide +kernel)
    rw [isNew] at isToken
    cases isToken

private def narrowed : System :=
  ((approvedFor ["operator"] writer writer).after 0
        (.rotate { text := "token-b", notBlank := by decide +kernel } "device-a" "operator"
          (some ["operator.read"]) none)).after
    0 (asking ["operator"] writer)

/-- The approval of what the baseline lists already leaves the narrowed token as it was. -/
theorem not_grantsAll :
    ¬∀ system actions, Run Step .initial actions system →
        ∀ newToken nowMs requestId callerScopes pending,
          GoesThrough newToken nowMs requestId callerScopes system.files pending →
            GrantsAll pending system.files
              (approveDevicePairing newToken nowMs requestId callerScopes system.files).2 := by
  intro grants
  have run : Run Step .initial _ narrowed :=
    ((approvedFor_run ["operator"] writer writer).snoc (step_after _ _ _)).snoc (step_after _ _ _)
  have through : GoesThrough (fun _ => "token-c") 0 "request-a" writer narrowed.files
      (pendingWrites true) :=
    ⟨by decide +kernel, by decide +kernel, fresh_of_all (by decide +kernel)⟩
  obtain ⟨entry, isEntry, granted⟩ := grants narrowed _ run _ _ _ _ _ through "operator"
    (by decide +kernel)
  have notAllowed : (tokenFor
      (approveDevicePairing (fun _ => "token-c") 0 "request-a" writer narrowed.files).2
      (pendingWrites true).deviceId "operator").any (fun entry => roleScopesAllow "operator"
        (requestedFor (pendingWrites true) "operator") entry.scopes) = false := by
    decide +kernel
  rw [isEntry, Option.any_some, granted.allows] at notAllowed
  cases notAllowed

end DevicePairing
