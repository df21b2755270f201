import AieClaw.DeviceBootstrap

/-!
# Pairing devices

A device asks to be paired under some roles and scopes, and the request is
approved by a caller, or by the profile of a bootstrap token. The record of a
paired device keeps the roles and scopes that were approved for it, and one
token for each role; tokens are ensured, rotated and revoked within what was
approved. Pending requests and paired devices are two files, which an operation
reads at its start and writes when it succeeds.
-/

namespace DevicePairing

open DeviceAuth DeviceBootstrap

/-- What a device says about itself. -/
structure ClientInfo where
  displayName : Option String
  platform : Option String
  deviceFamily : Option String
  clientId : Option String
  clientMode : Option String
  remoteIp : Option String
  deriving DecidableEq

structure DevicePairingRequest where
  deviceId : String
  publicKey : String
  client : ClientInfo
  role : Option String
  roles : Option (List String)
  scopes : Option (List String)
  silent : Option Bool
  deriving DecidableEq

structure DevicePairingPendingRequest extends DevicePairingRequest where
  requestId : String
  isRepair : Option Bool
  ts : ℤ
  deriving DecidableEq

structure DeviceAuthToken where
  token : String
  role : String
  scopes : List String
  createdAtMs : ℤ
  rotatedAtMs : Option ℤ
  revokedAtMs : Option ℤ
  lastUsedAtMs : Option ℤ

structure PairedDevice where
  deviceId : String
  publicKey : String
  client : ClientInfo
  role : Option String
  roles : Option (List String)
  scopes : Option (List String)
  approvedScopes : Option (List String)
  tokens : Option (OrderedMap String DeviceAuthToken)
  createdAtMs : ℤ
  approvedAtMs : ℤ

structure DevicePairingStateFile where
  pendingById : OrderedMap String DevicePairingPendingRequest
  pairedByDeviceId : OrderedMap String PairedDevice

def pendingTtlMs : ℤ := 5 * 60 * 1000

def operatorScopePrefix : String := "operator."

/-- The files as an operation sees them: requests expire. -/
def loadState (nowMs : ℤ) (files : DevicePairingStateFile) : DevicePairingStateFile :=
  { pendingById := files.pendingById.filter fun entry => decide (nowMs - entry.2.ts ≤ pendingTtlMs)
    pairedByDeviceId := files.pairedByDeviceId }

def normalizeDeviceId (deviceId : String) : String := JsString.trim deviceId

def normalizeRole (role : Option String) : Option String :=
  (role.map JsString.trim).filter (· ≠ "")

def mergeRoles (items : List (List String)) : Option (List String) :=
  let roles := trimmedTexts items.flatten
  if roles.isEmpty then none else some roles

def rolesOf (roles : Option (List String)) (role : Option String) : List (List String) :=
  [roles.getD [], role.toList]

def listApprovedPairedDeviceRoles (device : PairedDevice) : List String :=
  (mergeRoles (rolesOf device.roles device.role)).getD []

def mergeScopes (items : List (Option (List String))) : Option (List String) :=
  let scopes := trimmedTexts (items.flatMap fun item => item.getD [])
  if scopes.isEmpty then if items.any Option.isSome then some [] else none
  else some scopes

def sameStringSet (left right : List String) : Bool :=
  decide (left.length = right.length) && left.all fun value => decide (value ∈ right)

def resolveRequestedRoles (request : DevicePairingRequest) : List String :=
  (mergeRoles (rolesOf request.roles request.role)).getD []

def resolveRequestedScopes (request : DevicePairingRequest) : List String :=
  normalizeDeviceAuthScopes (request.scopes.getD [])

def samePendingApprovalSnapshot (existing incoming : DevicePairingRequest) : Bool :=
  decide (existing.publicKey = incoming.publicKey) &&
    decide (normalizeRole existing.role = normalizeRole incoming.role) &&
      (sameStringSet (resolveRequestedRoles existing) (resolveRequestedRoles incoming) &&
        sameStringSet (resolveRequestedScopes existing) (resolveRequestedScopes incoming))

def ClientInfo.refresh (existing incoming : ClientInfo) : ClientInfo :=
  { displayName := incoming.displayName.or existing.displayName
    platform := incoming.platform.or existing.platform
    deviceFamily := incoming.deviceFamily.or existing.deviceFamily
    clientId := incoming.clientId.or existing.clientId
    clientMode := incoming.clientMode.or existing.clientMode
    remoteIp := incoming.remoteIp.or existing.remoteIp }

def refreshPendingDevicePairingRequest (existing : DevicePairingPendingRequest)
    (incoming : DevicePairingRequest) (isRepair : Bool) : DevicePairingPendingRequest :=
  { existing with
    publicKey := incoming.publicKey
    client := existing.client.refresh incoming.client
    silent := some (existing.silent.getD false && incoming.silent.getD false)
    isRepair := if existing.isRepair.getD false then existing.isRepair else some isRepair }

def resolveSupersededPendingSilent (existing : List DevicePairingPendingRequest)
    (incomingSilent : Option Bool) : Bool :=
  incomingSilent.getD false && existing.all fun pending => decide (pending.silent = some true)

def buildPendingDevicePairingRequest (nowMs : ℤ) (requestId deviceId : String)
    (isRepair : Bool) (request : DevicePairingRequest) : DevicePairingPendingRequest :=
  let role := normalizeRole request.role
  { deviceId := deviceId
    publicKey := request.publicKey
    client := request.client
    role := role
    roles := mergeRoles (rolesOf request.roles role)
    scopes := mergeScopes [request.scopes]
    silent := request.silent
    requestId := requestId
    isRepair := some isRepair
    ts := nowMs }

/--
The pending request, or no value where the source throws. A single pending
request that asks for the same is refreshed; others are replaced by one that
asks for all of it.
-/
def requestDevicePairing (nowMs : ℤ) (newRequestId : String)
    (request : DevicePairingRequest) (files : DevicePairingStateFile) :
    Option DevicePairingPendingRequest × DevicePairingStateFile :=
  let state := loadState nowMs files
  let deviceId := normalizeDeviceId request.deviceId
  if deviceId = "" then (none, files)
  else
    let isRepair := (state.pairedByDeviceId.get? deviceId).isSome
    let existing :=
      (state.pendingById.values.filter fun pending =>
          decide (pending.deviceId = deviceId)).mergeSort
        fun left right => decide (right.ts ≤ left.ts)
    let remaining :=
      existing.foldl (fun pendingById pending => pendingById.delete pending.requestId)
        state.pendingById
    let replacement :=
      buildPendingDevicePairingRequest nowMs newRequestId deviceId isRepair
        { request with
          role := (normalizeRole request.role).or (existing.head?.bind fun pending => pending.role)
          roles :=
            mergeRoles
              ((existing.flatMap fun pending => rolesOf pending.roles pending.role) ++
                rolesOf request.roles request.role)
          scopes := mergeScopes ((existing.map fun pending => pending.scopes) ++ [request.scopes])
          silent := some (resolveSupersededPendingSilent existing request.silent) }
    let replaced :=
      (some replacement,
        { state with pendingById := remaining.set replacement.requestId replacement })
    match existing with
    | [pending] =>
      if samePendingApprovalSnapshot pending.toDevicePairingRequest request then
        let refreshed := refreshPendingDevicePairingRequest pending request isRepair
        (some refreshed,
          { state with
            pendingById := state.pendingById.set refreshed.requestId refreshed })
      else replaced
    | _ => replaced

/-- The deleted request, or no value. -/
def rejectDevicePairing (nowMs : ℤ) (requestId : String) (files : DevicePairingStateFile) :
    Option DevicePairingPendingRequest × DevicePairingStateFile :=
  let state := loadState nowMs files
  match state.pendingById.get? requestId with
  | none => (none, files)
  | some pending =>
    (some pending, { state with pendingById := state.pendingById.delete requestId })

inductive DevicePairingForbiddenReason where
  | callerScopesRequired
  | callerMissingScope
  | scopeOutsideRequestedRoles
  | bootstrapRoleNotAllowed
  | bootstrapScopeNotAllowed
  deriving DecidableEq

structure DevicePairingForbiddenResult where
  reason : DevicePairingForbiddenReason
  scope : Option String
  role : Option String

inductive ApproveDevicePairingResult where
  | approved (requestId : String) (device : PairedDevice)
  | forbidden (result : DevicePairingForbiddenResult)
  | missing

def resolveRoleScopedDeviceTokenScopes (role : String) (scopes : Option (List String)) :
    List String :=
  let normalized := normalizeDeviceAuthScopes (scopes.getD [])
  if role = operatorRole then
    normalized.filter fun scope => JsString.startsWith scope operatorScopePrefix
  else normalized.filter fun scope => !JsString.startsWith scope operatorScopePrefix

def preserveRoleScopedApprovalScopes (role : String) (scopes : Option (List String)) :
    List String :=
  (trimmedTexts (scopes.getD [])).filter fun scope =>
    if role = operatorRole then JsString.startsWith scope operatorScopePrefix
    else !JsString.startsWith scope operatorScopePrefix

/-- The scope list that an earlier approval left in a record. -/
def PairedDevice.baseline (device : PairedDevice) : Option (List String) :=
  device.approvedScopes.or device.scopes

def resolveApprovedTokenScopes (role : String) (pending : DevicePairingPendingRequest)
    (existingToken : Option DeviceAuthToken) (approvedScopes : Option (List String))
    (existing : Option PairedDevice) : List String :=
  let pendingScopes := resolveRoleScopedDeviceTokenScopes role pending.scopes
  if pendingScopes.isEmpty then
    resolveRoleScopedDeviceTokenScopes role
      (((existingToken.map DeviceAuthToken.scopes).or approvedScopes).or
        (existing.bind PairedDevice.baseline))
  else
    let approvedBaseline :=
      resolveRoleScopedDeviceTokenScopes role (existing.bind PairedDevice.baseline)
    let requestedScopeDelta :=
      if existingToken.isSome && !approvedBaseline.isEmpty then
        pendingScopes.filter fun scope => decide (scope ∉ approvedBaseline)
      else pendingScopes
    match existingToken, requestedScopeDelta with
    | some token, [] => resolveRoleScopedDeviceTokenScopes role (some token.scopes)
    | _, _ =>
      resolveRoleScopedDeviceTokenScopes role
        (mergeScopes [existingToken.map DeviceAuthToken.scopes, some requestedScopeDelta])

def buildDeviceAuthToken (newToken role : String) (scopes : List String)
    (existing : Option DeviceAuthToken) (nowMs : ℤ) (rotatedAtMs : Option ℤ) : DeviceAuthToken :=
  { token := newToken
    role := role
    scopes := scopes
    createdAtMs := (existing.map DeviceAuthToken.createdAtMs).getD nowMs
    rotatedAtMs := rotatedAtMs
    revokedAtMs := none
    lastUsedAtMs := existing.bind DeviceAuthToken.lastUsedAtMs }

def callerForbids (callerScopes : Option (List String))
    (pending : DevicePairingPendingRequest) (role : String) (nextScopes : List String) :
    Option DevicePairingForbiddenResult :=
  if role = operatorRole ∧ nextScopes ≠ [] then
    let callerRequiredScopes :=
      (mergeScopes
        [some (resolveRoleScopedDeviceTokenScopes role pending.scopes),
          some nextScopes]).getD nextScopes
    match callerScopes with
    | none =>
      some
        { reason := .callerScopesRequired
          scope := callerRequiredScopes.head?
          role := none }
    | some callerScopes =>
      (resolveMissingRequestedScope operatorRole callerRequiredScopes callerScopes).map fun scope =>
        { reason := .callerMissingScope
          scope := some scope
          role := none }
  else none

/-- The tokens of the device, with a new one for each of the roles. -/
def setTokens (newToken : String → String) (nowMs : ℤ) (scopesFor : String → List String)
    (roles : List String) (tokens : OrderedMap String DeviceAuthToken) :
    OrderedMap String DeviceAuthToken :=
  roles.foldl
    (fun tokens role =>
      let existingToken := tokens.get? role
      tokens.set role
        (buildDeviceAuthToken (newToken role) role (scopesFor role) existingToken nowMs
          (existingToken.map fun _ => nowMs)))
    tokens

/-- The record that an approval writes. -/
def approvedDevice (nowMs : ℤ) (pending : DevicePairingPendingRequest)
    (existing : Option PairedDevice) (approvedScopes : Option (List String))
    (tokens : OrderedMap String DeviceAuthToken) : PairedDevice :=
  { deviceId := pending.deviceId
    publicKey := pending.publicKey
    client := pending.client
    role := pending.role
    roles :=
      mergeRoles
        (rolesOf (existing.bind PairedDevice.roles) (existing.bind PairedDevice.role) ++
          rolesOf pending.roles pending.role)
    scopes := approvedScopes
    approvedScopes := approvedScopes
    tokens := some tokens
    createdAtMs := (existing.map PairedDevice.createdAtMs).getD nowMs
    approvedAtMs := nowMs }

/-- The files after an approval. -/
def storeApproved (requestId : String) (device : PairedDevice) (state : DevicePairingStateFile) :
    DevicePairingStateFile :=
  { pendingById := state.pendingById.delete requestId
    pairedByDeviceId := state.pairedByDeviceId.set device.deviceId device }

def existingTokens (existing : Option PairedDevice) : OrderedMap String DeviceAuthToken :=
  (existing.bind PairedDevice.tokens).getD .empty

def approveDevicePairing (newToken : String → String) (nowMs : ℤ) (requestId : String)
    (callerScopes : Option (List String)) (files : DevicePairingStateFile) :
    ApproveDevicePairingResult × DevicePairingStateFile :=
  let state := loadState nowMs files
  match state.pendingById.get? requestId with
  | none => (.missing, files)
  | some pending =>
    let requestedRoles := resolveRequestedRoles pending.toDevicePairingRequest
    let requestedScopes := resolveRequestedScopes pending.toDevicePairingRequest
    match resolveScopeOutsideRequestedRoles requestedRoles requestedScopes with
    | some scope =>
      (.forbidden
          { reason := .scopeOutsideRequestedRoles
            scope := some scope
            role := none },
        files)
    | none =>
      let existing := state.pairedByDeviceId.get? pending.deviceId
      let approvedScopes := mergeScopes [existing.bind PairedDevice.baseline, pending.scopes]
      let tokens := existingTokens existing
      let nextScopes (role : String) : List String :=
        resolveApprovedTokenScopes role pending (tokens.get? role) approvedScopes existing
      match requestedRoles.findSome? fun role =>
          callerForbids callerScopes pending role (nextScopes role) with
      | some result => (.forbidden result, files)
      | none =>
        let device :=
          approvedDevice nowMs pending existing approvedScopes
            (setTokens newToken nowMs nextScopes requestedRoles tokens)
        (.approved requestId device, storeApproved requestId device state)

def approveBootstrapDevicePairing (newToken : String → String) (nowMs : ℤ)
    (requestId : String) (bootstrapProfile : DeviceBootstrapProfile)
    (files : DevicePairingStateFile) : ApproveDevicePairingResult × DevicePairingStateFile :=
  let approvedRoles := (mergeRoles [bootstrapProfile.roles]).getD []
  let approvedScopes := resolveBootstrapProfileScopesForRoles approvedRoles bootstrapProfile.scopes
  let state := loadState nowMs files
  match state.pendingById.get? requestId with
  | none => (.missing, files)
  | some pending =>
    let requestedRoles := resolveRequestedRoles pending.toDevicePairingRequest
    match requestedRoles.find? fun role => decide (role ∉ approvedRoles) with
    | some role =>
      (.forbidden
          { reason := .bootstrapRoleNotAllowed
            scope := none
            role := some role },
        files)
    | none =>
      let requestedOperatorScopes :=
        (resolveRequestedScopes pending.toDevicePairingRequest).filter fun scope =>
          JsString.startsWith scope operatorScopePrefix
      match resolveMissingRequestedScope operatorRole requestedOperatorScopes approvedScopes with
      | some scope =>
        (.forbidden
            { reason := .bootstrapScopeNotAllowed
              scope := some scope
              role := none },
          files)
      | none =>
        let existing := state.pairedByDeviceId.get? pending.deviceId
        let grantedRoles := requestedRoles
        let grantedScopes :=
          resolveBootstrapProfileScopesForRoles grantedRoles (pending.scopes.getD [])
        let existingRoles :=
          (mergeRoles
            (rolesOf (existing.bind PairedDevice.roles) (existing.bind PairedDevice.role))).getD []
        let preservedExistingScopes :=
          existingRoles.flatMap fun existingRole =>
            if existingRole ∈ grantedRoles then []
            else
              preserveRoleScopedApprovalScopes existingRole (existing.bind PairedDevice.baseline)
        let nextApprovedScopes := mergeScopes [some preservedExistingScopes, some grantedScopes]
        let tokenScopes (role : String) : List String :=
          if role = operatorRole then resolveBootstrapProfileScopesForRole role grantedScopes
          else []
        let device :=
          approvedDevice nowMs pending existing nextApprovedScopes
            (setTokens newToken nowMs tokenScopes grantedRoles (existingTokens existing))
        (.approved requestId device, storeApproved requestId device state)

/-- The id of the removed device, or no value. -/
def removePairedDevice (nowMs : ℤ) (deviceId : String) (files : DevicePairingStateFile) :
    Option String × DevicePairingStateFile :=
  let state := loadState nowMs files
  let normalized := normalizeDeviceId deviceId
  if normalized = "" || (state.pairedByDeviceId.get? normalized).isNone then (none, files)
  else
    (some normalized,
      { pendingById := state.pendingById.filter fun entry => decide (entry.2.deviceId ≠ normalized)
        pairedByDeviceId := state.pairedByDeviceId.delete normalized })

def resolveApprovedDeviceScopeBaseline (device : PairedDevice) : Option (List String) :=
  device.baseline.map normalizeDeviceAuthScopes

def scopesWithinApprovedDeviceBaseline (role : String) (scopes : List String)
    (approvedScopes : Option (List String)) : Bool :=
  approvedScopes.any fun allowed => roleScopesAllow role scopes allowed

/-- `revokedAtMs` counts when it is there and not zero. -/
def DeviceAuthToken.isRevoked (entry : DeviceAuthToken) : Bool := entry.revokedAtMs.any (· ≠ 0)

def getPairedDeviceFromState (state : DevicePairingStateFile) (deviceId : String) :
    Option PairedDevice :=
  state.pairedByDeviceId.get? (normalizeDeviceId deviceId)

/-- The files with another token for a role of a device. -/
def storeToken (device : PairedDevice) (role : String) (entry : DeviceAuthToken)
    (state : DevicePairingStateFile) : DevicePairingStateFile :=
  { state with
    pairedByDeviceId :=
      state.pairedByDeviceId.set device.deviceId
        { device with tokens := some ((existingTokens (some device)).set role entry) } }

inductive VerifyDeviceTokenReason where
  | deviceNotPaired
  | roleMissing
  | tokenMissing
  | tokenRevoked
  | tokenMismatch
  | scopeMismatch
  deriving DecidableEq

/-- Without a reason the token is accepted. -/
def verifyDeviceToken (nowMs : ℤ) (deviceId token role : String) (scopes : List String)
    (files : DevicePairingStateFile) : Option VerifyDeviceTokenReason × DevicePairingStateFile :=
  let state := loadState nowMs files
  match getPairedDeviceFromState state deviceId with
  | none => (some .deviceNotPaired, files)
  | some device =>
    match normalizeRole (some role) with
    | none => (some .roleMissing, files)
    | some role =>
      match (existingTokens (some device)).get? role with
      | none => (some .tokenMissing, files)
      | some entry =>
        if entry.isRevoked then (some .tokenRevoked, files)
        else if !verifyPairingToken token entry.token then (some .tokenMismatch, files)
        else if !scopesWithinApprovedDeviceBaseline role entry.scopes
            (resolveApprovedDeviceScopeBaseline device) then
          (some .scopeMismatch, files)
        else if !roleScopesAllow role (normalizeDeviceAuthScopes scopes) entry.scopes then
          (some .scopeMismatch, files)
        else (none, storeToken device role { entry with lastUsedAtMs := some nowMs } state)

/-- The device and the role, when the role is approved for the device. -/
def resolveDeviceTokenUpdateContext (state : DevicePairingStateFile) (deviceId role : String) :
    Option (PairedDevice × String) :=
  (getPairedDeviceFromState state deviceId).bind fun device =>
    (normalizeRole (some role)).bind fun role =>
      if role ∈ listApprovedPairedDeviceRoles device then some (device, role)
      else none

/-- The token for the role, or no value. -/
def ensureDeviceToken (newToken : String) (nowMs : ℤ) (deviceId role : String)
    (scopes : List String) (files : DevicePairingStateFile) :
    Option DeviceAuthToken × DevicePairingStateFile :=
  let state := loadState nowMs files
  let requestedScopes := normalizeDeviceAuthScopes scopes
  match resolveDeviceTokenUpdateContext state deviceId role with
  | none => (none, files)
  | some (device, role) =>
    let approvedScopes := resolveApprovedDeviceScopeBaseline device
    let existing := (existingTokens (some device)).get? role
    if !scopesWithinApprovedDeviceBaseline role requestedScopes approvedScopes then (none, files)
    else
      match existing.filter fun entry =>
          !entry.isRevoked &&
            (scopesWithinApprovedDeviceBaseline role entry.scopes approvedScopes &&
              roleScopesAllow role requestedScopes entry.scopes) with
      | some entry => (some entry, files)
      | none =>
        let next :=
          buildDeviceAuthToken newToken role requestedScopes existing nowMs
            (existing.map fun _ => nowMs)
        (some next, storeToken device role next state)

inductive DeviceTokenDenyReason where
  | unknownDeviceOrRole
  | missingApprovedScopeBaseline
  | scopeOutsideApprovedBaseline
  | callerMissingScope (scope : String)

def rotateDeviceToken (newToken : String) (nowMs : ℤ) (deviceId role : String)
    (scopes callerScopes : Option (List String)) (files : DevicePairingStateFile) :
    Except DeviceTokenDenyReason DeviceAuthToken × DevicePairingStateFile :=
  let state := loadState nowMs files
  match resolveDeviceTokenUpdateContext state deviceId role with
  | none => (.error .unknownDeviceOrRole, files)
  | some (device, role) =>
    let existing := (existingTokens (some device)).get? role
    let requestedScopes :=
      normalizeDeviceAuthScopes
        (((scopes.or (existing.map DeviceAuthToken.scopes)).or device.scopes).getD [])
    match resolveApprovedDeviceScopeBaseline device with
    | none => (.error .missingApprovedScopeBaseline, files)
    | some approvedScopes =>
      if !scopesWithinApprovedDeviceBaseline role requestedScopes (some approvedScopes) then
        (.error .scopeOutsideApprovedBaseline, files)
      else
        match callerScopes.bind (resolveMissingRequestedScope role requestedScopes) with
        | some scope => (.error (.callerMissingScope scope), files)
        | none =>
          let next :=
            buildDeviceAuthToken newToken role requestedScopes existing nowMs (some nowMs)
          (.ok next, storeToken device role next state)

def revokeDeviceToken (nowMs : ℤ) (deviceId role : String)
    (callerScopes : Option (List String)) (files : DevicePairingStateFile) :
    Except DeviceTokenDenyReason DeviceAuthToken × DevicePairingStateFile :=
  let state := loadState nowMs files
  match resolveDeviceTokenUpdateContext state deviceId role with
  | none => (.error .unknownDeviceOrRole, files)
  | some (device, role) =>
    match (existingTokens (some device)).get? role with
    | none => (.error .unknownDeviceOrRole, files)
    | some existing =>
      let targetScopes := normalizeDeviceAuthScopes existing.scopes
      match callerScopes.bind (resolveMissingRequestedScope role targetScopes) with
      | some scope => (.error (.callerMissingScope scope), files)
      | none =>
        let entry := { existing with revokedAtMs := some nowMs }
        (.ok entry, storeToken device role entry state)

end DevicePairing
