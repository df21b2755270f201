import AieClaw.DevicePairingTokens
import AieClaw.TransitionSystem

/-!
# Runs of device pairing

Any calls by any devices and callers, in any order and by any clock. A call that
is not granted leaves the files as they are. Every device of a run fits its
approvals, as long as the approvals that go through are of requests that fit.
-/

namespace DevicePairing

open DeviceAuth DeviceBootstrap JsString OrderedMap TransitionSystem List Option

/-- A token as it is generated: random digits, so never blank. -/
structure GeneratedToken where
  text : String
  notBlank : trim text ≠ ""

inductive Call where
  | request (newRequestId : String) (incoming : DevicePairingRequest)
  | reject (requestId : String)
  | approve (newToken : String → GeneratedToken) (requestId : String)
      (callerScopes : Option (List String))
  | approveBootstrap (newToken : String → GeneratedToken) (requestId : String)
      (bootstrapProfile : DeviceBootstrapProfile)
  | remove (deviceId : String)
  | verify (deviceId token role : String) (scopes : List String)
  | ensure (newToken : GeneratedToken) (deviceId role : String) (scopes : List String)
  | rotate (newToken : GeneratedToken) (deviceId role : String)
      (scopes callerScopes : Option (List String))
  | revoke (deviceId role : String) (callerScopes : Option (List String))

def ApproveDevicePairingResult.isApproved : ApproveDevicePairingResult → Bool
  | .approved _ _ => true
  | _ => false

/-- Whether a call was granted, and the files afterwards. -/
def Call.perform (nowMs : ℤ) (files : DevicePairingStateFile) : Call → Bool × DevicePairingStateFile
  | .request newRequestId incoming =>
    ((requestDevicePairing nowMs newRequestId incoming files).1.isSome,
      (requestDevicePairing nowMs newRequestId incoming files).2)
  | .reject requestId =>
    ((rejectDevicePairing nowMs requestId files).1.isSome,
      (rejectDevicePairing nowMs requestId files).2)
  | .approve newToken requestId callerScopes =>
    ((approveDevicePairing (fun role => (newToken role).text) nowMs requestId
        callerScopes files).1.isApproved,
      (approveDevicePairing (fun role => (newToken role).text) nowMs requestId
        callerScopes files).2)
  | .approveBootstrap newToken requestId bootstrapProfile =>
    ((approveBootstrapDevicePairing (fun role => (newToken role).text) nowMs requestId
        bootstrapProfile files).1.isApproved,
      (approveBootstrapDevicePairing (fun role => (newToken role).text) nowMs requestId
        bootstrapProfile files).2)
  | .remove deviceId =>
    ((removePairedDevice nowMs deviceId files).1.isSome,
      (removePairedDevice nowMs deviceId files).2)
  | .verify deviceId token role scopes =>
    ((verifyDeviceToken nowMs deviceId token role scopes files).1.isNone,
      (verifyDeviceToken nowMs deviceId token role scopes files).2)
  | .ensure newToken deviceId role scopes =>
    ((ensureDeviceToken newToken.text nowMs deviceId role scopes files).1.isSome,
      (ensureDeviceToken newToken.text nowMs deviceId role scopes files).2)
  | .rotate newToken deviceId role scopes callerScopes =>
    ((rotateDeviceToken newToken.text nowMs deviceId role scopes callerScopes files).1.isOk,
      (rotateDeviceToken newToken.text nowMs deviceId role scopes callerScopes files).2)
  | .revoke deviceId role callerScopes =>
    ((revokeDeviceToken nowMs deviceId role callerScopes files).1.isOk,
      (revokeDeviceToken nowMs deviceId role callerScopes files).2)

/-- A caller may approve the request. -/
def CallerApproves (callerScopes : Option (List String))
    (pending : DevicePairingPendingRequest) (existing : Option PairedDevice) : Prop :=
  resolveScopeOutsideRequestedRoles
        (resolveRequestedRoles pending.toDevicePairingRequest)
        (resolveRequestedScopes pending.toDevicePairingRequest) =
      none ∧
    ∀ role ∈ resolveRequestedRoles pending.toDevicePairingRequest,
      callerForbids callerScopes pending role (callerTokenScopes pending existing role) = none

/-- The scopes that a bootstrap profile allows. -/
def profileScopes (bootstrapProfile : DeviceBootstrapProfile) : List String :=
  resolveBootstrapProfileScopesForRoles ((mergeRoles [bootstrapProfile.roles]).getD [])
    bootstrapProfile.scopes

/-- A bootstrap profile approves the request. -/
def ProfileApproves (bootstrapProfile : DeviceBootstrapProfile)
    (pending : DevicePairingPendingRequest) : Prop :=
  (∀ role ∈ resolveRequestedRoles pending.toDevicePairingRequest,
      role ∈ (mergeRoles [bootstrapProfile.roles]).getD []) ∧
    resolveMissingRequestedScope operatorRole
        ((resolveRequestedScopes pending.toDevicePairingRequest).filter fun scope =>
          startsWith scope operatorScopePrefix)
        (profileScopes bootstrapProfile) =
      none

theorem approveDevicePairing_cases (newToken : String → String) (nowMs : ℤ)
    (requestId : String) (callerScopes : Option (List String)) (files : DevicePairingStateFile) :
    ((approveDevicePairing newToken nowMs requestId callerScopes files).1.isApproved = false ∧
        (approveDevicePairing newToken nowMs requestId callerScopes files).2 = files) ∨
      ∃ pending, (loadState nowMs files).pendingById.get? requestId = some pending ∧
          CallerApproves callerScopes pending (files.pairedByDeviceId.get? pending.deviceId) ∧
            (approveDevicePairing newToken nowMs requestId callerScopes files).1.isApproved = true ∧
              (approveDevicePairing newToken nowMs requestId callerScopes files).2 =
                storeApproved requestId (approvedDevice nowMs pending
                    (files.pairedByDeviceId.get? pending.deviceId)
                    (callerBaseline pending (files.pairedByDeviceId.get? pending.deviceId))
                    (setTokens newToken nowMs
                      (callerTokenScopes pending (files.pairedByDeviceId.get? pending.deviceId))
                      (resolveRequestedRoles pending.toDevicePairingRequest)
                      (existingTokens (files.pairedByDeviceId.get? pending.deviceId))))
                  (loadState nowMs files) := by
  unfold approveDevicePairing
  extract_lets state
  cases isPending : state.pendingById.get? requestId with
  | none => exact Or.inl ⟨rfl, rfl⟩
  | some pending =>
    simp only
    cases outside : resolveScopeOutsideRequestedRoles
        (resolveRequestedRoles pending.toDevicePairingRequest)
        (resolveRequestedScopes pending.toDevicePairingRequest) with
    | some scope => exact Or.inl ⟨rfl, rfl⟩
    | none =>
      simp only
      split
      · exact Or.inl ⟨rfl, rfl⟩
      · rename_i noneForbids
        exact Or.inr ⟨pending, rfl, ⟨outside, fun role requested =>
            findSome?_eq_none_iff.mp noneForbids role requested⟩,
          rfl, rfl⟩

theorem approveBootstrapDevicePairing_cases (newToken : String → String) (nowMs : ℤ)
    (requestId : String) (bootstrapProfile : DeviceBootstrapProfile)
    (files : DevicePairingStateFile) :
    ((approveBootstrapDevicePairing newToken nowMs requestId bootstrapProfile
          files).1.isApproved = false ∧
        (approveBootstrapDevicePairing newToken nowMs requestId bootstrapProfile files).2 = files) ∨
      ∃ pending, (loadState nowMs files).pendingById.get? requestId = some pending ∧
          ProfileApproves bootstrapProfile pending ∧
            (approveBootstrapDevicePairing newToken nowMs requestId bootstrapProfile
                  files).1.isApproved = true ∧
              (approveBootstrapDevicePairing newToken nowMs requestId bootstrapProfile files).2 =
                storeApproved requestId (approvedDevice nowMs pending
                    (files.pairedByDeviceId.get? pending.deviceId) (mergeScopes [some
                          (preservedScopes pending (files.pairedByDeviceId.get? pending.deviceId)),
                        some (grantedScopes pending)]) (setTokens newToken nowMs (fun role =>
                        if role = operatorRole then
                          resolveBootstrapProfileScopesForRole role (grantedScopes pending)
                        else []) (resolveRequestedRoles pending.toDevicePairingRequest)
                      (existingTokens (files.pairedByDeviceId.get? pending.deviceId))))
                  (loadState nowMs files) := by
  unfold approveBootstrapDevicePairing
  extract_lets approvedRoles approvedScopes state
  cases isPending : state.pendingById.get? requestId with
  | none => exact Or.inl ⟨rfl, rfl⟩
  | some pending =>
    simp only
    split
    · exact Or.inl ⟨rfl, rfl⟩
    · rename_i noneOutside
      split
      · exact Or.inl ⟨rfl, rfl⟩
      · rename_i noneMissing
        refine Or.inr ⟨pending, rfl, ⟨fun role requested => ?_, noneMissing⟩, rfl, rfl⟩
        simpa using find?_eq_none.mp noneOutside role requested

/-- The files with a token stored for a role, whenever the device fits. -/
def StoresFitting (nowMs : ℤ) (files next : DevicePairingStateFile) : Prop :=
  ∃ deviceId device role entry,
    files.pairedByDeviceId.get? deviceId = some device ∧
      next = storeToken device role entry (loadState nowMs files) ∧
        ∀ grants, DeviceFits device grants →
          device.baseline.isSome = true ∧ EntryFits device role entry

/-- A call that is refused changes nothing, any other stores at most one token. -/
def TokenOutcome (nowMs : ℤ) (files : DevicePairingStateFile) (granted : Bool)
    (next : DevicePairingStateFile) : Prop :=
  next = files ∨ granted = true ∧ StoresFitting nowMs files next

variable (nowMs : ℤ) {system : System} (deviceId : String)
  {pendingById : OrderedMap String DevicePairingPendingRequest} {requestId : String}
  {pending : DevicePairingPendingRequest} {device : PairedDevice} {role : String}
  {entry : DeviceAuthToken} {files next : DevicePairingStateFile}

theorem normalizeRole_eq_some {named : String} : normalizeRole (some role) = some named ↔
      trim role = named ∧ named ≠ "" := by
  unfold normalizeRole
  rw [filter_eq_some_iff, map_some, some_inj, decide_eq_true_eq]

theorem resolveDeviceTokenUpdateContext_eq_some {state : DevicePairingStateFile}
    {deviceId : String} {named : String}
    (resolved : resolveDeviceTokenUpdateContext state deviceId role = some (device, named)) :
    state.pairedByDeviceId.get? (normalizeDeviceId deviceId) = some device ∧
      (trim named = named ∧ named ≠ "") ∧ named ∈ listApprovedPairedDeviceRoles device := by
  unfold resolveDeviceTokenUpdateContext at resolved
  obtain ⟨found, isFound, rest⟩ := bind_eq_some_iff.mp resolved
  obtain ⟨trimmed, isTrimmed, chosen⟩ := bind_eq_some_iff.mp rest
  obtain ⟨rfl, nonEmpty⟩ := normalizeRole_eq_some.mp isTrimmed
  split at chosen
  · rename_i approved
    cases chosen
    exact ⟨isFound, ⟨trim_trim role, nonEmpty⟩, approved⟩
  · cases chosen

theorem entryFits_of_within {scopes : List String} (named : trim role = role ∧ role ≠ "")
    (approved : role ∈ listApprovedPairedDeviceRoles device) (notBlank : trim entry.token ≠ "")
    (normalized : entry.scopes = normalizeDeviceAuthScopes scopes)
    (within : scopesWithinApprovedDeviceBaseline role (normalizeDeviceAuthScopes scopes)
          (resolveApprovedDeviceScopeBaseline device) = true) :
    device.baseline.isSome = true ∧ EntryFits device role entry := by
  have normal := normalScopes_normalizeDeviceAuthScopes scopes
  obtain ⟨listed, granted⟩ := scopesWithinBaseline_iff.mp within
  rw [mem_trimmedTexts_of_normal normal, named.1] at granted
  refine ⟨listed, named, approved, notBlank, ?_, ?_⟩
  · rw [normalized]
    exact normal
  · rw [normalized]
    exact granted

theorem storesFitting_of_same {nowMs : ℤ} {deviceId : String}
    {updated : DeviceAuthToken} (found : files.pairedByDeviceId.get? deviceId = some device)
    (isEntry : device.token? role = some entry) (sameToken : updated.token = entry.token)
    (sameScopes : updated.scopes = entry.scopes) :
    StoresFitting nowMs files (storeToken device role updated (loadState nowMs files)) := by
  refine ⟨deviceId, device, role, updated, found, rfl, fun grants fits => ?_⟩
  have original := fits.entries isEntry
  refine ⟨fits.listed isEntry, original.named, original.approved, ?_, ?_, ?_⟩
  · rw [sameToken]
    exact original.token
  · rw [sameScopes]
    exact original.normal
  · rw [sameScopes]
    exact original.within

theorem verifyDeviceToken_outcome (token role : String) (scopes : List String)
    (files : DevicePairingStateFile) : TokenOutcome nowMs files
      (verifyDeviceToken nowMs deviceId token role scopes files).1.isNone
      (verifyDeviceToken nowMs deviceId token role scopes files).2 := by
  unfold verifyDeviceToken
  extract_lets state
  split
  · exact Or.inl rfl
  · rename_i device found
    split
    · exact Or.inl rfl
    · rename_i named _
      split
      · exact Or.inl rfl
      · rename_i entry isEntry
        split
        · exact Or.inl rfl
        · split
          · exact Or.inl rfl
          · split
            · exact Or.inl rfl
            · split
              · exact Or.inl rfl
              · exact Or.inr ⟨rfl, storesFitting_of_same found isEntry rfl rfl⟩

theorem ensureDeviceToken_outcome (newToken : GeneratedToken) (nowMs : ℤ)
    (deviceId role : String) (scopes : List String) (files : DevicePairingStateFile) :
    TokenOutcome nowMs files
      (ensureDeviceToken newToken.text nowMs deviceId role scopes files).1.isSome
      (ensureDeviceToken newToken.text nowMs deviceId role scopes files).2 := by
  unfold ensureDeviceToken
  extract_lets state requestedScopes
  split
  · exact Or.inl rfl
  · rename_i device named resolved
    obtain ⟨found, isNamed, approved⟩ := resolveDeviceTokenUpdateContext_eq_some resolved
    extract_lets approvedScopes existing
    split
    · exact Or.inl rfl
    · rename_i notOutside
      have within : scopesWithinApprovedDeviceBaseline named (normalizeDeviceAuthScopes scopes)
          (resolveApprovedDeviceScopeBaseline device) = true := by
        simpa using notOutside
      split
      · exact Or.inl rfl
      · exact Or.inr ⟨rfl, _, device, named, _, found, rfl, fun _ _ =>
          entryFits_of_within isNamed approved newToken.notBlank rfl within⟩

theorem rotateDeviceToken_outcome (newToken : GeneratedToken) (nowMs : ℤ)
    (deviceId role : String) (scopes callerScopes : Option (List String))
    (files : DevicePairingStateFile) : TokenOutcome nowMs files
      (rotateDeviceToken newToken.text nowMs deviceId role scopes callerScopes files).1.isOk
      (rotateDeviceToken newToken.text nowMs deviceId role scopes callerScopes files).2 := by
  unfold rotateDeviceToken
  extract_lets state
  split
  · exact Or.inl rfl
  · rename_i device named resolved
    obtain ⟨found, isNamed, approved⟩ := resolveDeviceTokenUpdateContext_eq_some resolved
    extract_lets existing requestedScopes
    split
    · exact Or.inl rfl
    · rename_i approvedScopes isBaseline
      split
      · exact Or.inl rfl
      · rename_i notOutside
        have within : scopesWithinApprovedDeviceBaseline named requestedScopes
            (resolveApprovedDeviceScopeBaseline device) = true := by
          rw [isBaseline]
          simpa using notOutside
        split
        · exact Or.inl rfl
        · exact Or.inr ⟨rfl, _, device, named, _, found, rfl, fun _ _ =>
            entryFits_of_within isNamed approved newToken.notBlank rfl within⟩

theorem revokeDeviceToken_outcome (role : String) (callerScopes : Option (List String))
    (files : DevicePairingStateFile) : TokenOutcome nowMs files
      (revokeDeviceToken nowMs deviceId role callerScopes files).1.isOk
      (revokeDeviceToken nowMs deviceId role callerScopes files).2 := by
  unfold revokeDeviceToken
  extract_lets state
  split
  · exact Or.inl rfl
  · rename_i device named resolved
    obtain ⟨found, -, -⟩ := resolveDeviceTokenUpdateContext_eq_some resolved
    split
    · exact Or.inl rfl
    · rename_i existing isEntry
      extract_lets targetScopes
      split
      · exact Or.inl rfl
      · exact Or.inr ⟨rfl, storesFitting_of_same found isEntry rfl rfl⟩

theorem get?_deletes {pendings : List DevicePairingPendingRequest}
    (found : (pendings.foldl (fun pendingById pending => pendingById.delete pending.requestId)
          pendingById).get? requestId = some pending) :
    pendingById.get? requestId = some pending := by
  induction pendings generalizing pendingById with
  | nil => exact found
  | cons first rest inductionHypothesis =>
    have earlier := inductionHypothesis found
    rw [get?_delete] at earlier
    split at earlier
    · cases earlier
    · exact earlier

/-- The pending requests are of devices with trimmed ids. -/
def PendingsTrimmed (pendingById : OrderedMap String DevicePairingPendingRequest) : Prop :=
  ∀ requestId pending, pendingById.get? requestId = some pending →
    trim pending.deviceId = pending.deviceId

theorem PendingsTrimmed.of_subset {next : OrderedMap String DevicePairingPendingRequest}
    (trimmed : PendingsTrimmed pendingById)
    (subset : ∀ {requestId pending}, next.get? requestId = some pending →
        pendingById.get? requestId = some pending) : PendingsTrimmed next :=
  fun requestId pending found => trimmed requestId pending (subset found)

theorem get?_of_loaded {nowMs : ℤ}
    (found : (loadState nowMs files).pendingById.get? requestId = some pending) :
    files.pendingById.get? requestId = some pending :=
  (get?_filter_eq_some_iff.mp found).1

theorem get?_of_deleted {deleted : String}
    (found : (pendingById.delete deleted).get? requestId = some pending) :
    pendingById.get? requestId = some pending := by
  rw [get?_delete] at found
  split at found
  · cases found
  · exact found

theorem requestDevicePairing_cases (newRequestId : String) (request : DevicePairingRequest)
    (files : DevicePairingStateFile) :
    (requestDevicePairing nowMs newRequestId request files).2 = files ∨
      (requestDevicePairing nowMs newRequestId request files).1.isSome = true ∧
        (requestDevicePairing nowMs newRequestId request files).2.pairedByDeviceId =
            files.pairedByDeviceId ∧
          (PendingsTrimmed files.pendingById →
            PendingsTrimmed
              (requestDevicePairing nowMs newRequestId request files).2.pendingById) := by
  unfold requestDevicePairing
  extract_lets state deviceId isRepair existing remaining replacement replaced
  have loaded : PendingsTrimmed files.pendingById → PendingsTrimmed state.pendingById :=
    fun trimmed => trimmed.of_subset get?_of_loaded
  have replacedOutcome : replaced.1.isSome = true ∧
      replaced.2.pairedByDeviceId = files.pairedByDeviceId ∧ (PendingsTrimmed files.pendingById →
          PendingsTrimmed replaced.2.pendingById) := by
    refine ⟨rfl, rfl, fun trimmed requestId pending found => ?_⟩
    have isSet : (remaining.set replacement.requestId replacement).get? requestId =
        some pending := found
    rw [get?_set] at isSet
    split at isSet
    · cases isSet
      exact trim_trim request.deviceId
    · exact loaded trimmed _ _ (get?_deletes isSet)
  have existingTrimmed : PendingsTrimmed files.pendingById → ∀ pending ∈ existing,
      trim pending.deviceId = pending.deviceId := by
    intro trimmed pending isPending
    have inValues : pending ∈ state.pendingById.values :=
      (mem_filter.mp ((mergeSort_perm _ _).mem_iff.mp isPending)).1
    obtain ⟨_, isStored⟩ := exists_get?_of_mem_values inValues
    exact loaded trimmed _ _ isStored
  clear_value replaced replacement remaining existing
  split
  · exact Or.inl rfl
  · refine Or.inr ?_
    split
    · rename_i single
      split
      · refine ⟨rfl, rfl, fun trimmed requestId pending found => ?_⟩
        have isSet : (state.pendingById.set single.requestId
            (refreshPendingDevicePairingRequest single request isRepair)).get? requestId =
              some pending := found
        rw [get?_set] at isSet
        split at isSet
        · cases isSet
          exact existingTrimmed trimmed single mem_cons_self
        · exact loaded trimmed _ _ isSet
      · exact replacedOutcome
    · exact replacedOutcome

theorem rejectDevicePairing_cases (requestId : String) (files : DevicePairingStateFile) :
    (rejectDevicePairing nowMs requestId files).2 = files ∨
      (rejectDevicePairing nowMs requestId files).1.isSome = true ∧
        (rejectDevicePairing nowMs requestId files).2 =
          { pendingById := (loadState nowMs files).pendingById.delete requestId
            pairedByDeviceId := files.pairedByDeviceId } := by
  unfold rejectDevicePairing
  extract_lets state
  cases state.pendingById.get? requestId with
  | none => exact Or.inl rfl
  | some pending => exact Or.inr ⟨rfl, rfl⟩

theorem removePairedDevice_cases (files : DevicePairingStateFile) :
    ((removePairedDevice nowMs deviceId files).1.isSome = false ∧
        (removePairedDevice nowMs deviceId files).2 = files) ∨
      (removePairedDevice nowMs deviceId files).1.isSome = true ∧
        (removePairedDevice nowMs deviceId files).2 =
          { pendingById :=
              (loadState nowMs files).pendingById.filter fun entry =>
                decide (entry.2.deviceId ≠ normalizeDeviceId deviceId)
            pairedByDeviceId :=
              files.pairedByDeviceId.delete (normalizeDeviceId deviceId) } := by
  unfold removePairedDevice
  extract_lets state normalized
  split
  · exact Or.inl ⟨rfl, rfl⟩
  · exact Or.inr ⟨rfl, rfl⟩

/-- A call that is not granted leaves the files as they are. -/
theorem perform_refused {nowMs : ℤ} {call : Call}
    (refused : (call.perform nowMs files).1 = false) : (call.perform nowMs files).2 = files := by
  have ofOutcome : TokenOutcome nowMs files (call.perform nowMs files).1
      (call.perform nowMs files).2 → (call.perform nowMs files).2 = files := by
    rintro (unchanged | ⟨granted, -⟩)
    · exact unchanged
    · rw [refused] at granted
      cases granted
  cases call with
  | request newRequestId incoming =>
    simp only [Call.perform] at refused ⊢
    rcases requestDevicePairing_cases nowMs newRequestId incoming files with
      unchanged | ⟨granted, -⟩
    · exact unchanged
    · exact absurd (granted.symm.trans refused) (by decide)
  | reject requestId =>
    rcases rejectDevicePairing_cases nowMs requestId files with unchanged | ⟨granted, -⟩
    · exact unchanged
    · exact absurd (granted.symm.trans refused) (by decide)
  | approve newToken requestId callerScopes =>
    rcases approveDevicePairing_cases (fun role => (newToken role).text) nowMs requestId
        callerScopes files with
      ⟨-, unchanged⟩ | ⟨_, -, -, granted, -⟩
    · exact unchanged
    · exact absurd (granted.symm.trans refused) (by decide)
  | approveBootstrap newToken requestId bootstrapProfile =>
    rcases approveBootstrapDevicePairing_cases (fun role => (newToken role).text) nowMs
        requestId bootstrapProfile files with
      ⟨-, unchanged⟩ | ⟨_, -, -, granted, -⟩
    · exact unchanged
    · exact absurd (granted.symm.trans refused) (by decide)
  | remove deviceId =>
    simp only [Call.perform] at refused ⊢
    rcases removePairedDevice_cases nowMs deviceId files with ⟨-, unchanged⟩ | ⟨granted, -⟩
    · exact unchanged
    · exact absurd (granted.symm.trans refused) (by decide)
  | verify deviceId token role scopes =>
    exact ofOutcome (verifyDeviceToken_outcome nowMs deviceId token role scopes files)
  | ensure newToken deviceId role scopes =>
    exact ofOutcome (ensureDeviceToken_outcome newToken nowMs deviceId role scopes files)
  | rotate newToken deviceId role scopes callerScopes =>
    exact ofOutcome
      (rotateDeviceToken_outcome newToken nowMs deviceId role scopes callerScopes files)
  | revoke deviceId role callerScopes =>
    exact ofOutcome (revokeDeviceToken_outcome nowMs deviceId role callerScopes files)

/-- The files, and what approvals put into the baselines of the paired devices. -/
structure System where
  files : DevicePairingStateFile
  grants : String → List Grant

def System.initial : System :=
  { files := { pendingById := .empty, pairedByDeviceId := .empty }
    grants := fun _ => [] }

/-- What a granted call puts into baselines, and what it takes away. -/
def Call.grants (nowMs : ℤ) (files : DevicePairingStateFile) (grants : String → List Grant) :
    Call → String → List Grant
  | .approve _ requestId callerScopes =>
    ((loadState nowMs files).pendingById.get? requestId).elim grants fun pending =>
      Function.update grants pending.deviceId
        ({ put := pending.scopes.getD [], authority := callerScopes } :: grants pending.deviceId)
  | .approveBootstrap _ requestId bootstrapProfile =>
    ((loadState nowMs files).pendingById.get? requestId).elim grants fun pending =>
      Function.update grants pending.deviceId
        ({ put := grantedScopes pending
           authority := some (profileScopes bootstrapProfile) } ::
          grants pending.deviceId)
  | .remove deviceId => Function.update grants (normalizeDeviceId deviceId) []
  | _ => grants

/-- The system after a call at some time. -/
def System.after (system : System) (nowMs : ℤ) (call : Call) : System :=
  { files := (call.perform nowMs system.files).2
    grants :=
      if (call.perform nowMs system.files).1 then call.grants nowMs system.files system.grants
      else system.grants }

def Step (source : System) (action : ℤ × Call) (target : System) : Prop :=
  target = source.after action.1 action.2

/-- Approvals that go through are of requests that fit. -/
def Proper (source : System) : ℤ × Call → Prop
  | (nowMs, .approve _ requestId callerScopes) =>
    ∀ pending,
      (loadState nowMs source.files).pendingById.get? requestId = some pending →
        CallerApproves callerScopes pending (source.files.pairedByDeviceId.get? pending.deviceId) →
          ApprovalFits pending (source.files.pairedByDeviceId.get? pending.deviceId)
  | (nowMs, .approveBootstrap _ requestId bootstrapProfile) =>
    ∀ pending,
      (loadState nowMs source.files).pendingById.get? requestId = some pending →
        ProfileApproves bootstrapProfile pending →
          BootstrapFits pending (source.files.pairedByDeviceId.get? pending.deviceId)
  | _ => True

theorem System.after_of_granted (system : System) (nowMs : ℤ) (call : Call)
    (granted : (call.perform nowMs system.files).1 = true) : system.after nowMs call =
      { files := (call.perform nowMs system.files).2
        grants := call.grants nowMs system.files system.grants } := by
  rw [System.after, if_pos granted]

theorem System.after_of_refused (system : System) (nowMs : ℤ) (call : Call)
    (refused : (call.perform nowMs system.files).1 = false) : system.after nowMs call = system := by
  have isRefused : ¬(call.perform nowMs system.files).1 = true := by
    rw [refused]
    decide
  rw [System.after, if_neg isRefused, perform_refused refused]

theorem System.after_of_same (system : System) (nowMs : ℤ) (call : Call)
    (sameGrants : call.grants nowMs system.files system.grants = system.grants) :
    system.after nowMs call =
      { files := (call.perform nowMs system.files).2
        grants := system.grants } := by
  rw [System.after, sameGrants, ite_self]

structure System.Fits (system : System) : Prop where
  trimmed : PendingsTrimmed system.files.pendingById
  devices :
    ∀ {deviceId device},
      system.files.pairedByDeviceId.get? deviceId = some device →
        device.deviceId = deviceId ∧ DeviceFits device (system.grants deviceId)

theorem System.fits_initial : System.Fits .initial := by
  constructor
  · intro requestId pending found
    cases found
  · intro deviceId device found
    cases found

section

variable (fits : system.Fits)
include fits

theorem System.Fits.set {grants : String → List Grant} (trimmed : PendingsTrimmed pendingById)
    (deviceFits : DeviceFits device (grants device.deviceId))
    (others : ∀ deviceId, deviceId ≠ device.deviceId → grants deviceId = system.grants deviceId) :
    System.Fits
      { files :=
          { pendingById := pendingById
            pairedByDeviceId := system.files.pairedByDeviceId.set device.deviceId device }
        grants := grants } := by
  refine ⟨trimmed, ?_⟩
  intro deviceId stored found
  have isSet : (system.files.pairedByDeviceId.set device.deviceId device).get? deviceId =
      some stored := found
  by_cases same : deviceId = device.deviceId
  · subst same
    rw [get?_set_self] at isSet
    cases isSet
    exact ⟨rfl, deviceFits⟩
  · rw [get?_set_of_ne same] at isSet
    have original := fits.devices isSet
    refine ⟨original.1, ?_⟩
    simp only [others deviceId same]
    exact original.2

theorem System.Fits.of_outcome {nowMs : ℤ} {granted : Bool}
    (outcome : TokenOutcome nowMs system.files granted next) :
    System.Fits { files := next, grants := system.grants } := by
  rcases outcome with rfl | ⟨-, deviceId, device, role, entry, found, rfl, stores⟩
  · exact fits
  · obtain ⟨isNamed, deviceFits⟩ := fits.devices found
    obtain ⟨listed, entryFits⟩ := stores _ deviceFits
    have trimmed : PendingsTrimmed (loadState nowMs system.files).pendingById :=
      fits.trimmed.of_subset get?_of_loaded
    subst isNamed
    exact fits.set trimmed (deviceFits.setToken listed entryFits) fun _ _ => rfl

theorem System.Fits.of_approved {nowMs : ℤ} {grant : Grant}
    (isNamed : device.deviceId = pending.deviceId)
    (deviceFits : DeviceFits device (grant :: system.grants pending.deviceId)) : System.Fits
      { files := storeApproved requestId device (loadState nowMs system.files)
        grants :=
          Function.update system.grants pending.deviceId
            (grant :: system.grants pending.deviceId) } := by
  refine fits.set ?_ ?_ ?_
  · exact fits.trimmed.of_subset fun found => get?_of_loaded (get?_of_deleted found)
  · rw [isNamed, Function.update_self]
    exact deviceFits
  · intro deviceId other
    rw [isNamed] at other
    exact Function.update_of_ne other _ _

theorem System.Fits.approve {nowMs : ℤ} {newToken : String → GeneratedToken}
    {callerScopes : Option (List String)}
    (proper : Proper system (nowMs, .approve newToken requestId callerScopes)) :
    (system.after nowMs (.approve newToken requestId callerScopes)).Fits := by
  rcases approveDevicePairing_cases (fun role => (newToken role).text) nowMs requestId
      callerScopes system.files with
    ⟨refused, -⟩ | ⟨pending, isPending, approves, granted, next⟩
  · rw [System.after_of_refused system nowMs (.approve newToken requestId callerScopes) refused]
    exact fits
  · rw [System.after_of_granted system nowMs (.approve newToken requestId callerScopes) granted]
    simp only [Call.perform, Call.grants, next, isPending, elim_some]
    refine fits.of_approved rfl ?_
    refine callerApproved_fits ?_ (fits.trimmed _ _ (get?_of_loaded isPending))
      (fun role => (newToken role).notBlank) (proper pending isPending approves) approves.2
    exact fun device found => (fits.devices found).2

theorem System.Fits.approveBootstrap {nowMs : ℤ} {newToken : String → GeneratedToken}
    {bootstrapProfile : DeviceBootstrapProfile}
    (proper : Proper system (nowMs, .approveBootstrap newToken requestId bootstrapProfile)) :
    (system.after nowMs (.approveBootstrap newToken requestId bootstrapProfile)).Fits := by
  rcases approveBootstrapDevicePairing_cases (fun role => (newToken role).text) nowMs
      requestId bootstrapProfile system.files with
    ⟨refused, -⟩ | ⟨pending, isPending, approves, granted, next⟩
  · rw [System.after_of_refused system nowMs
      (.approveBootstrap newToken requestId bootstrapProfile) refused]
    exact fits
  · rw [System.after_of_granted system nowMs
      (.approveBootstrap newToken requestId bootstrapProfile) granted]
    simp only [Call.perform, Call.grants, next, isPending, elim_some]
    refine fits.of_approved rfl ?_
    refine bootstrapApproved_fits ?_ (fits.trimmed _ _ (get?_of_loaded isPending))
      (fun role => (newToken role).notBlank) (proper pending isPending approves) approves.2
    exact fun device found => (fits.devices found).2

theorem System.Fits.remove {nowMs : ℤ} {deviceId : String} :
    (system.after nowMs (.remove deviceId)).Fits := by
  rcases removePairedDevice_cases nowMs deviceId system.files with ⟨refused, -⟩ | ⟨granted, next⟩
  · have isRefused : (Call.perform nowMs system.files (.remove deviceId)).1 = false := by
      simp only [Call.perform]
      exact refused
    rw [System.after_of_refused system nowMs (.remove deviceId) isRefused]
    exact fits
  · have isGranted : (Call.perform nowMs system.files (.remove deviceId)).1 = true := by
      simp only [Call.perform]
      exact granted
    rw [System.after_of_granted system nowMs (.remove deviceId) isGranted]
    simp only [Call.perform, Call.grants, next]
    constructor
    · refine fits.trimmed.of_subset fun found => ?_
      exact get?_of_loaded (get?_filter_eq_some_iff.mp found).1
    · intro other device found
      have isKept : (system.files.pairedByDeviceId.delete
          (normalizeDeviceId deviceId)).get? other = some device := found
      rw [get?_delete] at isKept
      split at isKept
      · cases isKept
      · rename_i differs
        simp only [Function.update_of_ne differs]
        exact fits.devices isKept

theorem System.Fits.of_pendings (samePaired : next.pairedByDeviceId = system.files.pairedByDeviceId)
    (trimmed : PendingsTrimmed next.pendingById) :
    System.Fits { files := next, grants := system.grants } := by
  refine ⟨trimmed, fun {deviceId device} found => fits.devices ?_⟩
  rw [← samePaired]
  exact found

end

/-- Every proper call keeps the devices fitting. -/
theorem fits_preserved : Preserves (Restricted Step Proper)
      System.Fits := by
  rintro system ⟨nowMs, call⟩ target ⟨proper, rfl⟩ fits
  have ofOutcome : call.grants nowMs system.files system.grants = system.grants →
      TokenOutcome nowMs system.files (call.perform nowMs system.files).1
        (call.perform nowMs system.files).2 →
        (system.after nowMs call).Fits := by
    intro sameGrants outcome
    rw [System.after_of_same system nowMs call sameGrants]
    exact fits.of_outcome outcome
  cases call with
  | request newRequestId incoming =>
    rw [System.after_of_same system nowMs (.request newRequestId incoming) rfl]
    simp only [Call.perform]
    rcases requestDevicePairing_cases nowMs newRequestId incoming system.files with
      unchanged | ⟨-, samePaired, trimmed⟩
    · rw [unchanged]
      exact fits
    · exact fits.of_pendings samePaired (trimmed fits.trimmed)
  | reject requestId =>
    rw [System.after_of_same system nowMs (.reject requestId) rfl]
    simp only [Call.perform]
    rcases rejectDevicePairing_cases nowMs requestId system.files with unchanged | ⟨-, next⟩
    · rw [unchanged]
      exact fits
    · have trimmed : PendingsTrimmed
          ((loadState nowMs system.files).pendingById.delete requestId) :=
        fits.trimmed.of_subset fun found => get?_of_loaded (get?_of_deleted found)
      rw [next]
      exact fits.of_pendings rfl trimmed
  | approve newToken requestId callerScopes => exact fits.approve proper
  | approveBootstrap newToken requestId bootstrapProfile => exact fits.approveBootstrap proper
  | remove deviceId => exact fits.remove
  | verify deviceId token role scopes =>
    exact ofOutcome rfl (verifyDeviceToken_outcome nowMs deviceId token role scopes system.files)
  | ensure newToken deviceId role scopes =>
    exact ofOutcome rfl (ensureDeviceToken_outcome newToken nowMs deviceId role scopes system.files)
  | rotate newToken deviceId role scopes callerScopes =>
    exact ofOutcome rfl
      (rotateDeviceToken_outcome newToken nowMs deviceId role scopes callerScopes system.files)
  | revoke deviceId role callerScopes =>
    exact ofOutcome rfl (revokeDeviceToken_outcome nowMs deviceId role callerScopes system.files)

/--
Tokens that are not revoked are usable, operator scopes were put into a baseline
by someone who was allowed to, and a call that is not granted changes nothing.
-/
structure Inside (system : System) : Prop where
  usable :
    ∀ {deviceId device role entry},
      system.files.pairedByDeviceId.get? deviceId = some device →
        device.token? role = some entry →
          entry.isRevoked = false →
            role ∈ listApprovedPairedDeviceRoles device ∧
              ∀ nowMs,
                (verifyDeviceToken nowMs deviceId entry.token role entry.scopes system.files).1 =
                  none
  granted :
    ∀ {deviceId device scope},
      system.files.pairedByDeviceId.get? deviceId = some device →
        isOperatorScope scope = true →
          scopesWithinApprovedDeviceBaseline operatorRole [scope]
              (resolveApprovedDeviceScopeBaseline device) =
            true →
            ∃ grant ∈ system.grants deviceId, ∃ authority,
              grant.authority = some authority ∧
                roleScopesAllow operatorRole [scope] grant.put = true ∧
                  roleScopesAllow operatorRole [scope] authority = true
  unchanged :
    ∀ {nowMs} {call : Call}, (call.perform nowMs system.files).1 = false →
      (call.perform nowMs system.files).2 = system.files

theorem trim_operatorScope_ne {scope : String} (isOperator : isOperatorScope scope = true) :
    trim scope ≠ "" := by
  have starts : operatorScopePrefix.toList <+: scope.toList := by
    simpa [isOperatorScope, startsWith] using isOperator
  obtain ⟨rest, isScope⟩ := starts
  intro blank
  have visible : isWhitespace 'o' = false := by
    decide
  have isList : scope.toList = 'o' :: ("perator.".toList ++ rest) := isScope.symm
  rw [trim_eq_empty_iff.mp blank 'o' (by simp [isList])] at visible
  cases visible

theorem System.Fits.inside (fits : system.Fits) : Inside system := by
  constructor
  · intro deviceId device role entry found isEntry notRevoked
    obtain ⟨rfl, deviceFits⟩ := fits.devices found
    refine ⟨(deviceFits.entries isEntry).approved, ?_⟩
    exact verify_of_fits deviceFits found isEntry notRevoked
  · intro deviceId device scope found isOperator within
    have nonEmpty := trim_operatorScope_ne isOperator
    have asked : trimmedTexts [scope] = [trim scope] := by
      simp [trimmedTexts, addText, nonEmpty]
    have operatorTrimmed : trim operatorRole = operatorRole := by
      decide +kernel
    have isGranted := (scopesWithinBaseline_iff.mp within).2
    rw [asked, forall_mem_singleton, operatorTrimmed] at isGranted
    obtain ⟨grant, member, authority, isAuthority, put, allowed⟩ :=
      (fits.devices found).2.granted isGranted
    refine ⟨grant, member, authority, isAuthority, ?_, ?_⟩
    · rw [roleScopesAllow_iff, asked, forall_mem_singleton, operatorTrimmed]
      exact put
    · rw [roleScopesAllow_iff, asked, forall_mem_singleton, operatorTrimmed]
      exact allowed
  · intro nowMs call refused
    exact perform_refused refused

/--
From an empty store, after any calls of which the approvals that go through are of
requests that fit, tokens stay inside approvals and stay usable.
-/
theorem inside_of_run {system : System} {actions : List (ℤ × Call)}
    (run : Run (Restricted Step Proper) .initial actions system) :
    Inside system :=
  (run.invariant fits_preserved System.fits_initial).inside

def asking (roles : List String) (scopes : Option (List String)) : Call :=
  .request "request-a"
    { deviceId := "device-a"
      publicKey := "key-a"
      client :=
        { displayName := none
          platform := none
          deviceFamily := none
          clientId := none
          clientMode := none
          remoteIp := none }
      role := none
      roles := some roles
      scopes := scopes
      silent := none }

def approving (callerScopes : Option (List String)) : Call :=
  .approve (fun _ => { text := "token", notBlank := by decide +kernel }) "request-a" callerScopes

def askedFor (roles : List String) (scopes : Option (List String)) : System :=
  System.initial.after 0 (asking roles scopes)

def approvedFor (roles : List String) (scopes callerScopes : Option (List String)) : System :=
  (askedFor roles scopes).after 0 (approving callerScopes)

def readerRequest : DevicePairingRequest :=
  { deviceId := "device-a"
    publicKey := "key-a"
    client :=
      { displayName := none
        platform := none
        deviceFamily := none
        clientId := none
        clientMode := none
        remoteIp := none }
    role := none
    roles := some ["operator"]
    scopes := some ["operator.read"]
    silent := some false }

/-- The run of an operator who may write and approves a device that may read. -/
theorem inside_approvedOperator :
    Inside (approvedFor ["operator"] (some ["operator.read"]) (some ["operator.write"])) := by
  have asked : (loadState 0
      (askedFor ["operator"] (some ["operator.read"])).files).pendingById.get? "request-a" = some
          { readerRequest with
            requestId := "request-a"
            isRepair := some false
            ts := 0 } := by
    decide +kernel
  have proper : Proper (askedFor ["operator"] (some ["operator.read"]))
      (0, approving (some ["operator.write"])) := by
    intro pending isPending _
    cases asked.symm.trans isPending
    refine ⟨Or.inr (Or.inl rfl), ?_, ?_⟩
    · intro _ _ _
      decide +kernel
    · intro role requested notOperator
      have isOperator : role ∈ ["operator"] := by
        have roles : resolveRequestedRoles readerRequest = ["operator"] := by
          decide +kernel
        rw [← roles]
        exact requested
      exact absurd (mem_singleton.mp isOperator) notOperator
  have requested : Restricted Step Proper .initial (0, asking ["operator"] (some ["operator.read"]))
      (askedFor ["operator"] (some ["operator.read"])) := ⟨trivial, rfl⟩
  exact inside_of_run ((TransitionSystem.Run.single requested).snoc ⟨proper, rfl⟩)

theorem step_after (source : System) (nowMs : ℤ) (call : Call) :
    Step source (nowMs, call) (source.after nowMs call) := rfl

theorem approvedFor_run (roles : List String) (scopes callerScopes : Option (List String)) :
    Run Step .initial [(0, asking roles scopes), (0, approving callerScopes)]
      (approvedFor roles scopes callerScopes) :=
  (TransitionSystem.Run.single rfl).snoc rfl

private def storedToken (system : System) (role : String) : Option DeviceAuthToken :=
  (system.files.pairedByDeviceId.get? "device-a").bind fun device => device.token? role

private def isRejected (system : System) (role : String) : Bool :=
  (storedToken system role).any fun entry =>
    !entry.isRevoked &&
      decide
        ((verifyDeviceToken 0 "device-a" entry.token role entry.scopes system.files).1 =
          some .scopeMismatch)

private theorem not_inside_of_rejected (rejected : isRejected system role = true) :
    ¬Inside system := by
  intro inside
  obtain ⟨entry, isEntry, verified⟩ := (any_eq_true _ _).mp rejected
  obtain ⟨device, found, isToken⟩ := bind_eq_some_iff.mp isEntry
  rw [Bool.and_eq_true, Bool.not_eq_true', decide_eq_true_eq] at verified
  have accepted := (inside.usable found isToken verified.1).2 0
  rw [verified.2] at accepted
  cases accepted

/--
A token that is approved without a list of scopes is not accepted, and neither is a
token of one role that holds another role's scope. A role that looks like an operator
scope carries an operator scope into the baseline past the caller.
-/
theorem not_inside :
    (∀ roles scopes callerScopes,
        ∃ actions, Run Step .initial actions (approvedFor roles scopes callerScopes)) ∧
      ¬Inside (approvedFor ["node"] none none) ∧
        ¬Inside (approvedFor ["node", "canvas"] (some ["node.run", "canvas.draw"]) none) ∧
          ¬Inside (approvedFor ["operator.talk"] (some ["operator.talk.secrets"]) none) := by
  refine ⟨fun roles scopes callerScopes =>
    ⟨_, approvedFor_run roles scopes callerScopes⟩, ?_, ?_, ?_⟩
  · have rejected : isRejected (approvedFor ["node"] none none) "node" = true := by
      decide +kernel
    exact not_inside_of_rejected rejected
  · have rejected : isRejected
        (approvedFor ["node", "canvas"] (some ["node.run", "canvas.draw"]) none) "node" = true := by
      decide +kernel
    exact not_inside_of_rejected rejected
  · intro inside
    have within : ((approvedFor ["operator.talk"] (some ["operator.talk.secrets"])
        none).files.pairedByDeviceId.get? "device-a").any (fun device =>
          scopesWithinApprovedDeviceBaseline operatorRole ["operator.talk.secrets"]
            (resolveApprovedDeviceScopeBaseline device)) = true := by
      decide +kernel
    obtain ⟨device, found, isWithin⟩ := (any_eq_true _ _).mp within
    obtain ⟨grant, member, authority, isAuthority, -⟩ :=
      inside.granted found (by decide +kernel) isWithin
    have grants : (approvedFor ["operator.talk"] (some ["operator.talk.secrets"])
        none).grants "device-a" = [{ put := ["operator.talk.secrets"], authority := none }] := by
      decide +kernel
    rw [grants, mem_singleton] at member
    rw [member] at isAuthority
    cases isAuthority

end DevicePairing
