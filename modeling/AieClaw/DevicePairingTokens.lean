import AieClaw.DevicePairingScopes

/-!
# Records that fit their approvals

A token fits its device when its role is approved there, and the baseline of the
device grants the role each of the token's scopes. A device fits when its tokens
do, and when whatever its baseline grants the operator was put there by someone
who was allowed to. Approvals and updates of tokens keep a device fitting,
approvals under a condition on what they approve.
-/

namespace DevicePairing

open DeviceAuth DeviceBootstrap JsString List

/-- What an approval put into a baseline, and by which scopes it was allowed to. -/
structure Grant where
  put : List String
  authority : Option (List String)
  deriving DecidableEq

def PairedDevice.texts (device : PairedDevice) : List String := DevicePairing.texts device.baseline

def PairedDevice.token? (device : PairedDevice) (role : String) : Option DeviceAuthToken :=
  (existingTokens (some device)).get? role

structure EntryFits (device : PairedDevice) (role : String) (entry : DeviceAuthToken) : Prop where
  named : trim role = role ∧ role ≠ ""
  approved : role ∈ listApprovedPairedDeviceRoles device
  token : trim entry.token ≠ ""
  normal : NormalScopes entry.scopes
  within : ∀ scope ∈ entry.scopes, Grants role device.texts scope

def PutBy (grants : List Grant) (scope : String) : Prop :=
  ∃ grant ∈ grants, ∃ authority,
    grant.authority = some authority ∧
      Grants operatorRole (trimmedTexts grant.put) scope ∧
        Grants operatorRole (trimmedTexts authority) scope

structure DeviceFits (device : PairedDevice) (grants : List Grant) : Prop where
  named : trim device.deviceId = device.deviceId
  listed : ∀ {role entry}, device.token? role = some entry → device.baseline.isSome = true
  entries : ∀ {role entry}, device.token? role = some entry → EntryFits device role entry
  granted : ∀ {scope}, Grants operatorRole device.texts scope → PutBy grants scope

variable {grants : List Grant} {device : PairedDevice} {role : String} {entry : DeviceAuthToken}

theorem PutBy.cons {scope : String} (putBy : PutBy grants scope)
    (grant : Grant) : PutBy (grant :: grants) scope := by
  obtain ⟨earlier, member, rest⟩ := putBy
  exact ⟨earlier, .tail grant member, rest⟩

theorem scopesWithinBaseline_iff {scopes : List String} :
    scopesWithinApprovedDeviceBaseline role scopes
        (resolveApprovedDeviceScopeBaseline device) = true ↔ device.baseline.isSome = true ∧
        ∀ scope ∈ trimmedTexts scopes, Grants (trim role) device.texts scope := by
  unfold scopesWithinApprovedDeviceBaseline resolveApprovedDeviceScopeBaseline
    PairedDevice.texts texts
  cases device.baseline with
  | none => simp
  | some baseline =>
    have same : trimmedTexts (normalizeDeviceAuthScopes baseline) =
        normalizeDeviceAuthScopes baseline :=
      mem_trimmedTexts_of_normal (normalScopes_normalizeDeviceAuthScopes baseline)
    simp [roleScopesAllow_iff, same, grants_normalize_iff]

theorem verify_of_fits {files : DevicePairingStateFile} (fits : DeviceFits device grants)
    (stored : files.pairedByDeviceId.get? device.deviceId = some device)
    (isEntry : device.token? role = some entry) (notRevoked : entry.isRevoked = false) (nowMs : ℤ) :
    (verifyDeviceToken nowMs device.deviceId entry.token role entry.scopes files).1 =
      none := by
  obtain ⟨⟨trimmed, nonEmpty⟩, -, token, normal, within⟩ := fits.entries isEntry
  have found : getPairedDeviceFromState (loadState nowMs files) device.deviceId = some device := by
    simp only [getPairedDeviceFromState, normalizeDeviceId, fits.named, loadState, stored]
  have isRole : normalizeRole (some role) = some role := by
    simp [normalizeRole, trimmed, nonEmpty]
  have isStored : (existingTokens (some device)).get? role = some entry := isEntry
  have sameToken : verifyPairingToken entry.token entry.token = true := by
    simp [verifyPairingToken, token]
  have withinBaseline : scopesWithinApprovedDeviceBaseline role entry.scopes
      (resolveApprovedDeviceScopeBaseline device) = true := by
    rw [scopesWithinBaseline_iff, mem_trimmedTexts_of_normal normal, trimmed]
    exact ⟨fits.listed isEntry, within⟩
  have ownScopes : roleScopesAllow role (normalizeDeviceAuthScopes entry.scopes)
      entry.scopes = true := by
    rw [normal.normalize_eq, roleScopesAllow_iff, mem_trimmedTexts_of_normal normal, trimmed]
    intro scope member
    have granted := within scope member
    by_cases operator : role = operatorRole
    · subst operator
      exact grants_operator.mpr ⟨(grants_operator.mp granted).1, Or.inr (Or.inl member)⟩
    · exact (grants_other operator).mpr ⟨((grants_other operator).mp granted).1, member⟩
  simp [verifyDeviceToken, found, isRole, isStored, notRevoked, sameToken, withinBaseline,
    ownScopes]

theorem DeviceFits.setToken (fits : DeviceFits device grants)
    (listed : device.baseline.isSome = true) (entryFits : EntryFits device role entry) : DeviceFits
      { deviceId := device.deviceId
        publicKey := device.publicKey
        client := device.client
        role := device.role
        roles := device.roles
        scopes := device.scopes
        approvedScopes := device.approvedScopes
        tokens := some ((existingTokens (some device)).set role entry)
        createdAtMs := device.createdAtMs
        approvedAtMs := device.approvedAtMs }
      grants := by
  constructor
  · exact fits.named
  · intro _ _ _
    exact listed
  · intro other stored isStored
    have isSet : ((existingTokens (some device)).set role entry).get? other =
        some stored := isStored
    by_cases same : other = role
    · subst same
      rw [OrderedMap.get?_set_self] at isSet
      cases isSet
      exact ⟨entryFits.named, entryFits.approved, entryFits.token, entryFits.normal,
        entryFits.within⟩
    · rw [OrderedMap.get?_set_of_ne same] at isSet
      have original := fits.entries isSet
      exact ⟨original.named, original.approved, original.token, original.normal, original.within⟩
  · exact fits.granted

theorem get?_setTokens (newToken : String → String) (nowMs : ℤ)
    (scopesFor : String → List String) (roles : List String)
    (tokens : OrderedMap String DeviceAuthToken) (role : String) : (role ∉ roles ∧
        (setTokens newToken nowMs scopesFor roles tokens).get? role = tokens.get? role) ∨
      role ∈ roles ∧
        ∃ existing rotatedAtMs, (setTokens newToken nowMs scopesFor roles tokens).get? role = some
              (buildDeviceAuthToken (newToken role) role (scopesFor role) existing nowMs
                rotatedAtMs) := by
  unfold setTokens
  induction roles generalizing tokens with
  | nil => exact Or.inl ⟨not_mem_nil, rfl⟩
  | cons first rest inductionHypothesis =>
    rw [foldl_cons]
    rcases inductionHypothesis (tokens.set first
          (buildDeviceAuthToken (newToken first) first (scopesFor first)
            (tokens.get? first) nowMs ((tokens.get? first).map fun _ => nowMs))) with
      ⟨notLater, unchanged⟩ | ⟨later, found⟩
    · by_cases same : role = first
      · subst same
        refine Or.inr ⟨.head _, tokens.get? role, (tokens.get? role).map fun _ => nowMs, ?_⟩
        rw [unchanged]
        exact OrderedMap.get?_set_self _ _ _
      · refine Or.inl ⟨?_, ?_⟩
        · intro member
          rcases mem_cons.mp member with isFirst | isLater
          · exact same isFirst
          · exact notLater isLater
        · rw [unchanged]
          exact OrderedMap.get?_set_of_ne same
    · exact Or.inr ⟨.tail first later, found⟩

/-- The scopes that an approval newly gives to a role's token. -/
def newTokenScopes (role : String) (pending : DevicePairingPendingRequest)
    (existing : Option PairedDevice) : List String :=
  let asked := resolveRoleScopedDeviceTokenScopes role pending.scopes
  let approved := resolveRoleScopedDeviceTokenScopes role (existing.bind PairedDevice.baseline)
  if ((existingTokens existing).get? role).isSome then
    if approved.isEmpty then asked
    else asked.filter fun scope => decide (scope ∉ approved)
  else if asked.isEmpty then approved
  else asked

/--
What an approval may approve: there is a scope list if there is a role, operator
scopes come with the operator's role, and the scopes that another role's token
is newly given begin with the name of the role.
-/
structure ApprovalFits (pending : DevicePairingPendingRequest) (existing : Option PairedDevice) :
    Prop where
  listed :
    resolveRequestedRoles pending.toDevicePairingRequest = [] ∨
      pending.scopes.isSome = true ∨ (existing.bind PairedDevice.baseline).isSome = true
  operatorAsked :
    ∀ scope ∈ resolveRequestedScopes pending.toDevicePairingRequest,
      isOperatorScope scope = true →
        operatorRole ∈ resolveRequestedRoles pending.toDevicePairingRequest
  ownScopes :
    ∀ role ∈ resolveRequestedRoles pending.toDevicePairingRequest,
      role ≠ operatorRole →
        ∀ scope ∈ newTokenScopes role pending existing, startsWith scope (role ++ ".") = true

theorem mergeScopes_eq_some {items : List (Option (List String))} {merged : List String}
    (isMerged : mergeScopes items = some merged) :
    merged = trimmedTexts (items.flatMap fun item => item.getD []) := by
  unfold mergeScopes at isMerged
  extract_lets scopes at isMerged
  split at isMerged
  · rename_i isEmpty
    split at isMerged
    · rw [← Option.some.inj isMerged]
      exact (isEmpty_iff.mp isEmpty).symm
    · cases isMerged
  · exact (Option.some.inj isMerged).symm

section Approve

variable {pending : DevicePairingPendingRequest} {existing : Option PairedDevice}
  {grants : List Grant} {role : String} {callerScopes : Option (List String)}

theorem normalScopes_resolveApprovedTokenScopes (role : String)
    (pending : DevicePairingPendingRequest) (token? : Option DeviceAuthToken)
    (approvedScopes : Option (List String)) (existing : Option PairedDevice) : NormalScopes
      (resolveApprovedTokenScopes role pending token? approvedScopes existing) := by
  unfold resolveApprovedTokenScopes
  extract_lets asked baseline delta
  clear_value delta
  split
  · exact normalScopes_resolveRoleScoped _ _
  · split
    · exact normalScopes_resolveRoleScoped _ _
    · exact normalScopes_resolveRoleScoped _ _

/-- The scopes that an approval makes the baseline of the device. -/
def callerBaseline (pending : DevicePairingPendingRequest) (existing : Option PairedDevice) :
    Option (List String) :=
  mergeScopes [existing.bind PairedDevice.baseline, pending.scopes]

/-- The scopes that an approval gives to the token of a role. -/
def callerTokenScopes (pending : DevicePairingPendingRequest)
    (existing : Option PairedDevice) (role : String) : List String :=
  resolveApprovedTokenScopes role pending ((existingTokens existing).get? role)
    (callerBaseline pending existing) existing

theorem mem_texts_approved {text : String} : text ∈ texts (callerBaseline pending existing) ↔
      text ∈ texts (existing.bind PairedDevice.baseline) ∨ text ∈ texts pending.scopes := by
  rw [callerBaseline, mem_texts_mergeScopes]
  simp

theorem mem_texts_some_normal {scopes : List String} (normal : NormalScopes scopes)
    {text : String} : text ∈ texts (some scopes) ↔ text ∈ scopes := by
  rw [texts, Option.getD_some, mem_trimmedTexts_of_normal normal]

theorem roleScoped_within {list : Option (List String)} {granting : List String}
    (within : ∀ text ∈ texts list, (isOperatorScope text = true ↔ role = operatorRole) →
      Grants role granting text) {scope : String}
    (member : scope ∈ resolveRoleScopedDeviceTokenScopes role list) :
    Grants role granting scope := by
  by_cases operator : role = operatorRole
  · subst operator
    exact grants_operator_trans (fun text isText isOperator =>
      within text isText (by simp [isOperator])) (grants_of_mem_operatorScoped member)
  · obtain ⟨isText, notOperator⟩ := mem_texts_of_mem_roleScoped operator member
    exact within scope isText (by simp [notOperator, operator])

theorem newTokenScopes_of_asked (existing : Option PairedDevice)
    (asks : (resolveRoleScopedDeviceTokenScopes role pending.scopes).isEmpty = false) :
    newTokenScopes role pending existing =
      if ((existingTokens existing).get? role).isSome && !(resolveRoleScopedDeviceTokenScopes role
            (existing.bind PairedDevice.baseline)).isEmpty then
        (resolveRoleScopedDeviceTokenScopes role pending.scopes).filter fun scope => decide (scope ∉
            resolveRoleScopedDeviceTokenScopes role (existing.bind PairedDevice.baseline))
      else
        resolveRoleScopedDeviceTokenScopes role pending.scopes := by
  unfold newTokenScopes
  cases hasToken : ((existingTokens existing).get? role).isSome with
  | false => simp only [asks, Bool.false_and, Bool.false_eq_true, if_false]
  | true =>
    cases isEmpty : (resolveRoleScopedDeviceTokenScopes role
        (existing.bind PairedDevice.baseline)).isEmpty with
    | false =>
      simp [isEmpty]
    | true =>
      simp [isEmpty]

theorem newTokenScopes_sublist (existing : Option PairedDevice)
    (asks : (resolveRoleScopedDeviceTokenScopes role pending.scopes).isEmpty = false) :
    List.Sublist (newTokenScopes role pending existing)
      (resolveRoleScopedDeviceTokenScopes role pending.scopes) := by
  rw [newTokenScopes_of_asked existing asks]
  split
  · exact filter_sublist
  · exact .refl _

theorem trimmedTexts_of_sublist {scopes all : List String} (normal : NormalScopes all)
    (sublist : List.Sublist scopes all) : trimmedTexts scopes = scopes :=
  trimmedTexts_eq_self (normal.distinct.sublist sublist)
    fun scope member => normal.trimmed scope (sublist.subset member)

theorem texts_callerBaseline_or (text : String) :
    text ∈ texts ((callerBaseline pending existing).or (existing.bind PairedDevice.baseline)) ↔
      text ∈ texts (callerBaseline pending existing) := by
  cases isMerged : callerBaseline pending existing with
  | some merged => rfl
  | none =>
    cases isBaseline : existing.bind PairedDevice.baseline with
    | none => rfl
    | some baseline =>
      have isSome : (callerBaseline pending existing).isSome = true :=
        isSome_mergeScopes mem_cons_self (by rw [isBaseline]; rfl)
      rw [isMerged] at isSome
      cases isSome

/--
A token's scopes are those for the role in one list, of the earlier token and
either what is new or, when neither is there, what is approved.
-/
theorem callerTokenScopes_roleScoped (role : String) (pending : DevicePairingPendingRequest)
    (existing : Option PairedDevice) :
    ∃ list, callerTokenScopes pending existing role = resolveRoleScopedDeviceTokenScopes role list ∧
      ∀ text, text ∈ texts list ↔
        text ∈ texts (((existingTokens existing).get? role).map DeviceAuthToken.scopes) ∨
          if (resolveRoleScopedDeviceTokenScopes role pending.scopes).isEmpty then
            (existingTokens existing).get? role = none ∧
              text ∈ texts (callerBaseline pending existing)
          else text ∈ newTokenScopes role pending existing := by
  unfold callerTokenScopes resolveApprovedTokenScopes
  cases asks : (resolveRoleScopedDeviceTokenScopes role pending.scopes).isEmpty with
  | true =>
    simp only [asks, if_true]
    refine ⟨_, rfl, fun text => ?_⟩
    cases isToken : (existingTokens existing).get? role with
    | some entry => simp
    | none =>
      rw [Option.map_none, Option.none_or, texts_callerBaseline_or]
      simp [texts, trimmedTexts]
  | false =>
    have new := newTokenScopes_of_asked existing asks
    have newTexts := trimmedTexts_of_sublist (normalScopes_resolveRoleScoped role pending.scopes)
      (newTokenScopes_sublist existing asks)
    simp only [asks, Bool.false_eq_true, if_false, ← new]
    cases isToken : (existingTokens existing).get? role with
    | none =>
      refine ⟨_, rfl, fun text => ?_⟩
      rw [mem_texts_mergeScopes]
      simp [texts, newTexts]
    | some entry =>
      cases isNew : newTokenScopes role pending existing with
      | nil => exact ⟨_, rfl, by simp⟩
      | cons scope rest =>
        refine ⟨_, rfl, fun text => ?_⟩
        rw [mem_texts_mergeScopes, ← isNew]
        simp [texts, newTexts]

/-- Every scope of an approved token is granted by the merged list. -/
theorem callerTokenScopes_within
    (tokenFits : ∀ entry, (existingTokens existing).get? role = some entry →
      NormalScopes entry.scopes ∧
        ∀ scope ∈ entry.scopes, Grants role (texts (existing.bind PairedDevice.baseline)) scope)
    (ownScopes : role ≠ operatorRole → ∀ scope ∈ newTokenScopes role pending existing,
      startsWith scope (role ++ ".") = true) : ∀ scope ∈ callerTokenScopes pending existing role,
      Grants role (texts (callerBaseline pending existing)) scope := by
  intro scope member
  obtain ⟨list, resolved, isSource⟩ := callerTokenScopes_roleScoped role pending existing
  rw [resolved] at member
  refine roleScoped_within (fun text isText ofRole => ?_) member
  rcases (isSource text).mp isText with ofToken | given
  · cases isEntry : (existingTokens existing).get? role with
    | none =>
      rw [isEntry] at ofToken
      cases ofToken
    | some entry =>
      rw [isEntry] at ofToken
      obtain ⟨normal, within⟩ := tokenFits entry isEntry
      exact (within text ((mem_texts_some_normal normal).mp ofToken)).mono fun other inBaseline =>
        mem_texts_approved.mpr (Or.inl inBaseline)
  split at given
  · rename_i asksNothing
    obtain ⟨isEntry, inMerged⟩ := given
    by_cases operator : role = operatorRole
    · subst operator
      exact grants_operator.mpr ⟨ofRole.mpr rfl, Or.inr (Or.inl inMerged)⟩
    · have notOperator : isOperatorScope text = false := by simpa [operator] using ofRole
      refine (grants_other operator).mpr ⟨ownScopes operator text ?_, inMerged⟩
      have isNew : newTokenScopes role pending existing = resolveRoleScopedDeviceTokenScopes role
            (existing.bind PairedDevice.baseline) := by
        simp [newTokenScopes, isEntry, asksNothing]
      rw [isNew]
      rcases mem_texts_approved.mp inMerged with inBaseline | inPending
      · exact mem_roleScoped_of_mem_texts operator inBaseline notOperator
      · have asked := mem_roleScoped_of_mem_texts operator inPending notOperator
        rw [isEmpty_iff.mp asksNothing] at asked
        cases asked
  · rename_i asks
    have asked := (newTokenScopes_sublist existing (Bool.not_eq_true _ ▸ asks)).subset given
    by_cases operator : role = operatorRole
    · subst operator
      exact (grants_of_mem_operatorScoped asked).mono fun other inPending =>
        mem_texts_approved.mpr (Or.inr inPending)
    · exact (grants_other operator).mpr ⟨ownScopes operator text given, mem_texts_approved.mpr
        (Or.inr (mem_texts_of_mem_roleScoped operator asked).1)⟩

theorem caller_allowed {nextScopes : List String}
    (notForbidden : callerForbids callerScopes pending operatorRole nextScopes = none)
    (given : nextScopes ≠ []) {scope : String}
    (asked : scope ∈ resolveRoleScopedDeviceTokenScopes operatorRole pending.scopes) :
    ∃ caller, callerScopes = some caller ∧ Grants operatorRole (trimmedTexts caller) scope := by
  unfold callerForbids at notForbidden
  rw [if_pos ⟨rfl, given⟩] at notForbidden
  extract_lets required at notForbidden
  cases isCaller : callerScopes with
  | none =>
    rw [isCaller] at notForbidden
    cases notForbidden
  | some caller =>
    rw [isCaller] at notForbidden
    have noneMissing : resolveMissingRequestedScope operatorRole required caller =
        none := by
      simpa using notForbidden
    have normal := normalScopes_resolveRoleScoped operatorRole pending.scopes
    have inTexts : scope ∈ texts (mergeScopes
          [some (resolveRoleScopedDeviceTokenScopes operatorRole pending.scopes),
            some nextScopes]) :=
      mem_texts_mergeScopes.mpr ⟨_, .head _, (mem_texts_some_normal normal).mpr asked⟩
    have isRequired : scope ∈ required := by
      have isMerged : mergeScopes
          [some (resolveRoleScopedDeviceTokenScopes operatorRole pending.scopes),
            some nextScopes] = some required := by
        have isSome := isSome_mergeScopes (.head _ :
            some (resolveRoleScopedDeviceTokenScopes operatorRole pending.scopes) ∈
              [some (resolveRoleScopedDeviceTokenScopes operatorRole pending.scopes),
                some nextScopes]) rfl
        obtain ⟨merged, isMerged⟩ := Option.isSome_iff_exists.mp isSome
        simp [required, isMerged]
      have merged := mergeScopes_eq_some isMerged
      rw [isMerged, texts, Option.getD_some, merged] at inTexts
      rw [merged]
      exact mem_trimmedTexts_trimmedTexts.mp inTexts
    refine ⟨caller, rfl, ?_⟩
    have allowed := find?_eq_none.mp noneMissing scope isRequired
    rw [Bool.not_eq_true', Bool.not_eq_false, roleScopesAllow_iff] at allowed
    obtain ⟨trimmed, nonEmpty⟩ := normal.trimmed scope asked
    refine allowed scope (mem_trimmedTexts.mpr ⟨nonEmpty, scope, ?_, trimmed⟩)
    exact .head _

/-- New operator scopes of a baseline were allowed by the caller. -/
theorem approved_granted (fits : ApprovalFits pending existing)
    (notForbidden : operatorRole ∈ resolveRequestedRoles pending.toDevicePairingRequest →
        callerForbids callerScopes pending operatorRole
          (callerTokenScopes pending existing operatorRole) = none)
    {scope : String} (granted : Grants operatorRole (texts pending.scopes) scope) :
    Grants operatorRole (texts (existing.bind PairedDevice.baseline)) scope ∨
      ∃ caller, callerScopes = some caller ∧ Grants operatorRole (trimmedTexts caller) scope := by
  have askedOf : ∀ text ∈ texts pending.scopes, isOperatorScope text = true →
      text ∈ resolveRoleScopedDeviceTokenScopes operatorRole pending.scopes := by
    intro text isText isOperator
    exact mem_resolveRoleScopedDeviceTokenScopes.mpr
      ⟨mem_normalizeDeviceAuthScopes.mpr (Or.inl isText), by simp [isOperator]⟩
  have someText : ∃ text ∈ texts pending.scopes, isOperatorScope text = true := by
    obtain ⟨isOperator, admin | member | ⟨-, write⟩⟩ := grants_operator.mp granted
    · exact ⟨_, admin, by decide +kernel⟩
    · exact ⟨scope, member, isOperator⟩
    · exact ⟨_, write, by decide +kernel⟩
  obtain ⟨text, isText, isOperator⟩ := someText
  have isAsked := askedOf text isText isOperator
  have operatorRequested := fits.operatorAsked text
    (mem_normalizeDeviceAuthScopes.mpr (Or.inl isText)) isOperator
  have allowed := notForbidden operatorRequested
  have asks := isEmpty_eq_false_iff.mpr (ne_nil_of_mem isAsked)
  cases isNew : newTokenScopes operatorRole pending existing with
  | nil =>
    -- Nothing is new: the baseline has each of these scopes already.
    refine Or.inl (grants_operator_trans (fun other isOther otherOperator => ?_) granted)
    have otherAsked := askedOf other isOther otherOperator
    rw [newTokenScopes_of_asked existing asks] at isNew
    split at isNew
    · have inBaseline := filter_eq_nil_iff.mp isNew other otherAsked
      rw [decide_eq_true_eq, Classical.not_not] at inBaseline
      exact grants_of_mem_operatorScoped inBaseline
    · rw [isNew] at isAsked
      cases isAsked
  | cons new rest =>
    have given : callerTokenScopes pending existing operatorRole ≠ [] := by
      obtain ⟨list, resolved, isSource⟩ :=
        callerTokenScopes_roleScoped operatorRole pending existing
      have member : new ∈ newTokenScopes operatorRole pending existing := by
        rw [isNew]
        exact mem_cons_self
      have newAsked := (newTokenScopes_sublist existing asks).subset member
      have newOperator := (mem_resolveRoleScopedDeviceTokenScopes.mp newAsked).2
      have inList := (isSource new).mpr (Or.inr (by simpa [asks] using member))
      rw [resolved]
      exact ne_nil_of_mem (mem_resolveRoleScopedDeviceTokenScopes.mpr
        ⟨mem_normalizeDeviceAuthScopes.mpr (Or.inl inList), newOperator⟩)
    obtain ⟨caller, isCaller, -⟩ := caller_allowed allowed given isAsked
    refine Or.inr ⟨caller, isCaller, ?_⟩
    refine grants_operator_trans (fun other isOther otherOperator => ?_) granted
    obtain ⟨sameCaller, isSame, otherGranted⟩ :=
      caller_allowed allowed given (askedOf other isOther otherOperator)
    cases isCaller.symm.trans isSame
    exact otherGranted

end Approve

section Approved

variable {pending : DevicePairingPendingRequest} {existing : Option PairedDevice}
  {grants : List Grant} {newToken : String → String} {nowMs : ℤ} {scope : String}
  {approvedScopes : Option (List String)} {allowed : List String}

theorem mem_listApproved_approvedDevice
    {tokens : OrderedMap String DeviceAuthToken} {role : String}
    (member : role ∈ resolveRequestedRoles pending.toDevicePairingRequest ∨
        ∃ device, existing = some device ∧ role ∈ listApprovedPairedDeviceRoles device) :
    role ∈ listApprovedPairedDeviceRoles
      (approvedDevice nowMs pending existing approvedScopes tokens) := by
  have merged : role ∈ (approvedDevice nowMs pending existing approvedScopes
      tokens).roles.getD [] := by
    rw [approvedDevice, mem_mergeRoles, mem_trimmedTexts]
    rcases member with requested | ⟨device, rfl, approved⟩
    · rw [resolveRequestedRoles, mem_mergeRoles, mem_trimmedTexts] at requested
      obtain ⟨nonEmpty, original, inRoles, trimmed⟩ := requested
      refine ⟨nonEmpty, original, ?_, trimmed⟩
      rw [flatten_append]
      exact mem_append_right _ inRoles
    · rw [listApprovedPairedDeviceRoles, mem_mergeRoles, mem_trimmedTexts] at approved
      obtain ⟨nonEmpty, original, inRoles, trimmed⟩ := approved
      refine ⟨nonEmpty, original, ?_, trimmed⟩
      rw [flatten_append]
      exact mem_append_left _ inRoles
  have named : trim role = role ∧ role ≠ "" := by
    rw [approvedDevice, mem_mergeRoles, mem_trimmedTexts] at merged
    obtain ⟨nonEmpty, original, -, rfl⟩ := merged
    exact ⟨trim_trim original, nonEmpty⟩
  rw [listApprovedPairedDeviceRoles, mem_mergeRoles, mem_trimmedTexts]
  refine ⟨named.2, role, ?_, named.1⟩
  rw [rolesOf, flatten_cons]
  exact mem_append_left _ merged

theorem exists_of_existingTokens {role : String} {entry : DeviceAuthToken}
    (found : (existingTokens existing).get? role = some entry) :
    ∃ device, existing = some device ∧ device.token? role = some entry := by
  cases existing with
  | none => cases found
  | some device => exact ⟨device, rfl, found⟩

section

variable (existingFits : ∀ device, existing = some device → DeviceFits device grants)
include existingFits

theorem putBy_of_baseline
    (granted : Grants operatorRole (texts (existing.bind PairedDevice.baseline)) scope) :
    PutBy grants scope := by
  cases existing with
  | none => simp [grants_operator, texts, trimmedTexts] at granted
  | some device => exact (existingFits device rfl).granted granted

/-- A record fits when its kept and its new tokens do. -/
theorem approvedDevice_fits {scopesFor : String → List String} {nextGrants : List Grant}
    (named : trim pending.deviceId = pending.deviceId)
    (notBlank : ∀ role, trim (newToken role) ≠ "")
    (listed :
      resolveRequestedRoles pending.toDevicePairingRequest = [] ∨ approvedScopes.isSome = true)
    (keptList : (existing.bind PairedDevice.baseline).isSome = true → approvedScopes.isSome = true)
    (kept : ∀ device role entry, existing = some device →
        device.token? role = some entry →
          role ∉ resolveRequestedRoles pending.toDevicePairingRequest →
            ∀ scope ∈ entry.scopes, Grants role (texts approvedScopes) scope)
    (new :
      ∀ role ∈ resolveRequestedRoles pending.toDevicePairingRequest, NormalScopes (scopesFor role) ∧
          ∀ scope ∈ scopesFor role, Grants role (texts approvedScopes) scope)
    (granted : ∀ scope, Grants operatorRole (texts approvedScopes) scope → PutBy nextGrants scope) :
    DeviceFits (approvedDevice nowMs pending existing approvedScopes
        (setTokens newToken nowMs scopesFor (resolveRequestedRoles pending.toDevicePairingRequest)
          (existingTokens existing)))
      nextGrants := by
  have baseline : (approvedDevice nowMs pending existing approvedScopes
      (setTokens newToken nowMs scopesFor (resolveRequestedRoles pending.toDevicePairingRequest)
        (existingTokens existing))).baseline = approvedScopes := by
    simp [approvedDevice, PairedDevice.baseline]
  constructor
  · exact named
  · intro role entry found
    rw [baseline]
    rcases get?_setTokens newToken nowMs scopesFor
        (resolveRequestedRoles pending.toDevicePairingRequest) (existingTokens existing) role with
      ⟨-, unchanged⟩ | ⟨requested, -⟩
    · obtain ⟨device, isExisting, isEntry⟩ :=
        exists_of_existingTokens (unchanged.symm.trans found)
      refine keptList ?_
      rw [isExisting]
      exact (existingFits device isExisting).listed isEntry
    · rcases listed with noRoles | isSome
      · rw [noRoles] at requested
        cases requested
      · exact isSome
  · intro role entry found
    rcases get?_setTokens newToken nowMs scopesFor
        (resolveRequestedRoles pending.toDevicePairingRequest) (existingTokens existing) role with
      ⟨notRequested, unchanged⟩ | ⟨requested, existingToken, rotatedAtMs, isNew⟩
    · obtain ⟨device, isExisting, isEntry⟩ :=
        exists_of_existingTokens (unchanged.symm.trans found)
      have original := (existingFits device isExisting).entries isEntry
      refine ⟨original.named,
        mem_listApproved_approvedDevice (Or.inr ⟨device, isExisting, original.approved⟩),
        original.token, original.normal, ?_⟩
      rw [PairedDevice.texts, baseline]
      exact kept device role entry isExisting isEntry notRequested
    · cases Option.some.inj (isNew.symm.trans found)
      have trimmed : trim role = role ∧ role ≠ "" := by
        have isRequested := requested
        rw [resolveRequestedRoles, mem_mergeRoles, mem_trimmedTexts] at isRequested
        obtain ⟨nonEmpty, original, -, rfl⟩ := isRequested
        exact ⟨trim_trim original, nonEmpty⟩
      obtain ⟨normal, within⟩ := new role requested
      refine ⟨trimmed, mem_listApproved_approvedDevice (Or.inl requested), notBlank role,
        normal, ?_⟩
      rw [PairedDevice.texts, baseline]
      exact within
  · intro scope isGranted
    rw [PairedDevice.texts, baseline] at isGranted
    exact granted scope isGranted

theorem callerApproved_fits {callerScopes : Option (List String)}
    (named : trim pending.deviceId = pending.deviceId)
    (notBlank : ∀ role, trim (newToken role) ≠ "") (fits : ApprovalFits pending existing)
    (notForbidden : ∀ role ∈ resolveRequestedRoles pending.toDevicePairingRequest,
        callerForbids callerScopes pending role (callerTokenScopes pending existing role) = none) :
    DeviceFits (approvedDevice nowMs pending existing (callerBaseline pending existing)
        (setTokens newToken nowMs (callerTokenScopes pending existing)
          (resolveRequestedRoles pending.toDevicePairingRequest) (existingTokens existing)))
      ({ put := pending.scopes.getD [], authority := callerScopes } :: grants) := by
  have isItem : existing.bind PairedDevice.baseline ∈
      [existing.bind PairedDevice.baseline, pending.scopes] := .head _
  have pendingItem : pending.scopes ∈ [existing.bind PairedDevice.baseline, pending.scopes] :=
    .tail _ mem_cons_self
  refine approvedDevice_fits existingFits named notBlank ?_ (isSome_mergeScopes isItem) ?_ ?_ ?_
  · rcases fits.listed with noRoles | pendingList | existingList
    · exact Or.inl noRoles
    · exact Or.inr (isSome_mergeScopes pendingItem pendingList)
    · exact Or.inr (isSome_mergeScopes isItem existingList)
  · intro device role entry isExisting isEntry _ scope member
    have original := (existingFits device isExisting).entries isEntry
    refine (original.within scope member).mono fun text isText => ?_
    refine mem_texts_approved.mpr (Or.inl ?_)
    rw [isExisting]
    exact isText
  · intro role requested
    refine ⟨normalScopes_resolveApprovedTokenScopes role pending _ _ existing,
      callerTokenScopes_within (fun entry found => ?_) (fits.ownScopes role requested)⟩
    obtain ⟨device, rfl, isEntry⟩ := exists_of_existingTokens found
    have original := (existingFits device rfl).entries isEntry
    exact ⟨original.normal, original.within⟩
  · intro scope isGranted
    rcases grants_operator_append (fun text => mem_texts_approved.mp) isGranted with
      inBaseline | inPending
    · exact (putBy_of_baseline existingFits inBaseline).cons _
    · rcases approved_granted fits (notForbidden operatorRole) inPending with
        inBaseline | ⟨caller, isCaller, allowed⟩
      · exact (putBy_of_baseline existingFits inBaseline).cons _
      · exact ⟨_, .head _, caller, isCaller, inPending, allowed⟩

end

/--
What a bootstrap approval keeps: the token of an earlier role that looks like an
operator scope has no scopes, unless the operator's scopes are kept as well.
-/
def BootstrapFits (pending : DevicePairingPendingRequest) (existing : Option PairedDevice) : Prop :=
  ∀ device role entry, existing = some device → device.token? role = some entry →
    role ≠ operatorRole → startsWith role operatorScopePrefix = true →
      role ∉ resolveRequestedRoles pending.toDevicePairingRequest →
        entry.scopes = [] ∨
          operatorRole ∈ listApprovedPairedDeviceRoles device ∧
            operatorRole ∉ resolveRequestedRoles pending.toDevicePairingRequest

/-- The scopes that a bootstrap approval keeps for the other roles. -/
def preservedScopes (pending : DevicePairingPendingRequest) (existing : Option PairedDevice) :
    List String :=
  ((mergeRoles
      (rolesOf (existing.bind PairedDevice.roles)
        (existing.bind PairedDevice.role))).getD []).flatMap
    fun existingRole =>
      if existingRole ∈ resolveRequestedRoles pending.toDevicePairingRequest then []
      else preserveRoleScopedApprovalScopes existingRole (existing.bind PairedDevice.baseline)

/-- The scopes that a bootstrap approval grants. -/
def grantedScopes (pending : DevicePairingPendingRequest) : List String :=
  resolveBootstrapProfileScopesForRoles
    (resolveRequestedRoles pending.toDevicePairingRequest) (pending.scopes.getD [])

theorem mem_preserveRoleScoped {role : String} {scopes : Option (List String)} :
    scope ∈ preserveRoleScopedApprovalScopes role scopes ↔
      scope ∈ texts scopes ∧ (isOperatorScope scope = true ↔ role = operatorRole) := by
  unfold preserveRoleScopedApprovalScopes texts isOperatorScope
  by_cases operator : role = operatorRole
  · simp [operator]
  · simp [operator]

theorem mem_texts_preserved {device : PairedDevice} {role : String}
    (approved : role ∈ listApprovedPairedDeviceRoles device)
    (notRequested : role ∉ resolveRequestedRoles pending.toDevicePairingRequest)
    (member : scope ∈ device.texts) (ofRole : isOperatorScope scope = true ↔ role = operatorRole) :
    scope ∈ texts (some (preservedScopes pending (some device))) := by
  obtain ⟨nonEmpty, original, -, rfl⟩ := mem_trimmedTexts.mp member
  refine mem_trimmedTexts.mpr ⟨nonEmpty, _, ?_, trim_trim original⟩
  refine mem_flatMap.mpr ⟨role, approved, ?_⟩
  rw [if_neg notRequested]
  exact mem_preserveRoleScoped.mpr ⟨member, ofRole⟩

theorem mem_texts_of_preserved (member : scope ∈ texts (some (preservedScopes pending existing))) :
    scope ∈ texts (existing.bind PairedDevice.baseline) := by
  obtain ⟨nonEmpty, original, isPreserved, rfl⟩ := mem_trimmedTexts.mp member
  obtain ⟨role, -, inRole⟩ := mem_flatMap.mp isPreserved
  split at inRole
  · cases inRole
  · have inTexts := (mem_preserveRoleScoped.mp inRole).1
    obtain ⟨-, first, -, rfl⟩ := mem_trimmedTexts.mp inTexts
    rw [trim_trim]
    exact inTexts

theorem mem_texts_nextApproved {text : String} : text ∈ texts
        (mergeScopes [some (preservedScopes pending existing), some (grantedScopes pending)]) ↔
      text ∈ texts (some (preservedScopes pending existing)) ∨
        text ∈ texts (some (grantedScopes pending)) := by
  rw [mem_texts_mergeScopes]
  simp

theorem grants_of_grantedScopes (noneMissing : resolveMissingRequestedScope operatorRole
          ((resolveRequestedScopes pending.toDevicePairingRequest).filter fun scope =>
            startsWith scope operatorScopePrefix) allowed = none)
    (granted : Grants operatorRole (texts (some (grantedScopes pending))) scope) :
    Grants operatorRole (trimmedTexts allowed) scope := by
  have normal : NormalScopes (grantedScopes pending) := normalScopes_normalizeDeviceAuthScopes _
  have sameTexts : texts (some (grantedScopes pending)) = grantedScopes pending :=
    mem_trimmedTexts_of_normal normal
  rw [sameTexts, grantedScopes, resolveBootstrapProfileScopesForRoles,
    grants_normalize_iff] at granted
  refine grants_operator_trans (fun text isText isOperator => ?_) granted
  obtain ⟨nonEmpty, original, member, rfl⟩ := mem_trimmedTexts.mp isText
  obtain ⟨role, -, inRole⟩ := mem_flatMap.mp member
  obtain ⟨-, isScope, -⟩ := mem_resolveBootstrapProfileScopesForRole.mp inRole
  have trimmed := ((normalScopes_normalizeDeviceAuthScopes _).trimmed _ isScope).1
  rw [trimmed] at isOperator nonEmpty ⊢
  have notMissing := find?_eq_none.mp noneMissing original (mem_filter.mpr ⟨isScope, isOperator⟩)
  rw [Bool.not_eq_true', Bool.not_eq_false, roleScopesAllow_iff] at notMissing
  exact notMissing original (mem_trimmedTexts.mpr ⟨nonEmpty, original, .head _, trimmed⟩)

/-- A record that a bootstrap profile approves fits. -/
theorem bootstrapApproved_fits
    (existingFits : ∀ device, existing = some device → DeviceFits device grants)
    (named : trim pending.deviceId = pending.deviceId)
    (notBlank : ∀ role, trim (newToken role) ≠ "") (fits : BootstrapFits pending existing)
    (noneMissing : resolveMissingRequestedScope operatorRole
          ((resolveRequestedScopes pending.toDevicePairingRequest).filter fun scope =>
            startsWith scope operatorScopePrefix) allowed = none) : DeviceFits
      (approvedDevice nowMs pending existing
        (mergeScopes [some (preservedScopes pending existing), some (grantedScopes pending)])
        (setTokens newToken nowMs (fun role =>
            if role = operatorRole then
              resolveBootstrapProfileScopesForRole role (grantedScopes pending)
            else []) (resolveRequestedRoles pending.toDevicePairingRequest)
          (existingTokens existing)))
      ({ put := grantedScopes pending, authority := some allowed } :: grants) := by
  have isSome : (mergeScopes
      [some (preservedScopes pending existing), some (grantedScopes pending)]).isSome = true :=
    isSome_mergeScopes mem_cons_self rfl
  refine approvedDevice_fits existingFits named notBlank (Or.inr isSome) (fun _ => isSome) ?_ ?_ ?_
  · rintro device role entry rfl isEntry notRequested scope member
    have original := (existingFits device rfl).entries isEntry
    have within := original.within scope member
    have preserved : ∀ {kept : String}, kept ∈ listApprovedPairedDeviceRoles device →
          kept ∉ resolveRequestedRoles pending.toDevicePairingRequest →
            ∀ text ∈ device.texts, (isOperatorScope text = true ↔ kept = operatorRole) →
              text ∈ texts (mergeScopes [some (preservedScopes pending (some device)),
                    some (grantedScopes pending)]) := by
      intro kept approved notKept text isText ofRole
      exact mem_texts_nextApproved.mpr (Or.inl (mem_texts_preserved approved notKept isText ofRole))
    by_cases operator : role = operatorRole
    · subst operator
      refine grants_operator_trans (fun text isText isOperator => ?_) within
      refine grants_operator.mpr ⟨isOperator, Or.inr (Or.inl ?_)⟩
      exact preserved original.approved notRequested text isText (by simp [isOperator])
    · obtain ⟨starts, inTexts⟩ := (grants_other operator).mp within
      refine (grants_other operator).mpr ⟨starts, ?_⟩
      cases isOperator : isOperatorScope scope with
      | false =>
        exact preserved original.approved notRequested scope inTexts
          (by simp [isOperator, operator])
      | true =>
        rcases role_of_operatorScope starts isOperator with isRole | longer
        · exact absurd isRole operator
        · rcases fits device role entry rfl isEntry operator longer notRequested with
            noScopes | ⟨operatorApproved, operatorKept⟩
          · rw [noScopes] at member
            cases member
          · exact preserved operatorApproved operatorKept scope inTexts (by simp [isOperator])
  · intro role _
    by_cases operator : role = operatorRole
    · rw [if_pos operator]
      refine ⟨normalScopes_resolveForRole role _, fun scope member => ?_⟩
      obtain ⟨-, isScope, inHandoff⟩ := mem_resolveBootstrapProfileScopesForRole.mp member
      have isOperator : isOperatorScope scope = true := by
        simp only [bootstrapHandoffOperatorScopes, mem_cons, not_mem_nil, or_false] at inHandoff
        rcases inHandoff with rfl | rfl | rfl
        · decide +kernel
        · decide +kernel
        · decide +kernel
      subst operator
      have byGranted : Grants operatorRole (texts (some (grantedScopes pending)))
          scope := by
        rw [texts, Option.getD_some, ← grants_normalize_iff, grants_operator]
        exact ⟨isOperator, Or.inr (Or.inl isScope)⟩
      exact byGranted.mono fun text isText => mem_texts_nextApproved.mpr (Or.inr isText)
    · rw [if_neg operator]
      refine ⟨normalScopes_nil, fun scope member => ?_⟩
      cases member
  · intro scope isGranted
    rcases grants_operator_append (fun text => mem_texts_nextApproved.mp) isGranted with
      inPreserved | inGranted
    · have inBaseline := inPreserved.mono fun text => mem_texts_of_preserved
      exact (putBy_of_baseline existingFits inBaseline).cons _
    · exact ⟨_, .head _, allowed, rfl, inGranted, grants_of_grantedScopes noneMissing inGranted⟩

end Approved

end DevicePairing
