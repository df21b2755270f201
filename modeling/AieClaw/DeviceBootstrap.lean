import AieClaw.DeviceAuth
import AieClaw.OrderedMap

/-!
# Bootstrap tokens of devices

A bootstrap token is issued with a profile of roles and scopes. The first device
that proves to know it binds it; from then on only that device may use it, and a
use that was verified stays pending until what it asked for has been redeemed.
The records live in one file, which every operation reads, and writes back when
it changes something.
-/

namespace DeviceBootstrap

open DeviceAuth JsString

structure DeviceBootstrapProfile where
  roles : List String
  scopes : List String
  deriving DecidableEq

structure DeviceBootstrapProfileInput where
  roles : Option (List String)
  scopes : Option (List String)

def bootstrapHandoffOperatorScopes : List String :=
  ["operator.approvals", "operator.read", "operator.write"]

def pairingSetupBootstrapProfile : DeviceBootstrapProfile :=
  { roles := ["node", "operator"]
    scopes := bootstrapHandoffOperatorScopes }

def resolveBootstrapProfileScopesForRole (role : String) (scopes : List String) : List String :=
  let normalizedRole := normalizeDeviceAuthRole role
  let normalizedScopes := normalizeDeviceAuthScopes scopes
  if normalizedRole = operatorRole then
    normalizedScopes.filter fun scope => decide (scope ∈ bootstrapHandoffOperatorScopes)
  else []

def resolveBootstrapProfileScopesForRoles (roles scopes : List String) : List String :=
  normalizeDeviceAuthScopes
    (roles.flatMap fun role => resolveBootstrapProfileScopesForRole role scopes)

def normalizeBootstrapRoles (roles : Option (List String)) : List String :=
  toSorted (trimmedTexts (roles.getD []))

def normalizeDeviceBootstrapProfile (input : Option DeviceBootstrapProfileInput) :
    DeviceBootstrapProfile :=
  { roles := normalizeBootstrapRoles (input.bind DeviceBootstrapProfileInput.roles)
    scopes := normalizeDeviceAuthScopes ((input.bind DeviceBootstrapProfileInput.scopes).getD []) }

def normalizeDeviceBootstrapHandoffProfile (input : Option DeviceBootstrapProfileInput) :
    DeviceBootstrapProfile :=
  let profile := normalizeDeviceBootstrapProfile input
  { roles := profile.roles
    scopes := resolveBootstrapProfileScopesForRoles profile.roles profile.scopes }

/-- A profile where an input is expected. -/
def DeviceBootstrapProfile.asInput (profile : DeviceBootstrapProfile) :
    DeviceBootstrapProfileInput :=
  { roles := some profile.roles
    scopes := some profile.scopes }

def resolveRequestedBootstrapProfile (role : String) (scopes : List String) :
    DeviceBootstrapProfile :=
  normalizeDeviceBootstrapProfile
    (some
      { roles := some [role]
        scopes := some (resolveBootstrapProfileScopesForRole role scopes) })

/-- Both lists are compared item by item. -/
def sameBootstrapProfile (left right : DeviceBootstrapProfile) : Bool :=
  decide (left.roles = right.roles) && decide (left.scopes = right.scopes)

def bootstrapProfileAllowsRequest (allowedProfile : DeviceBootstrapProfile)
    (requestedRole : String) (requestedScopes : List String) : Bool :=
  decide (requestedRole ∈ allowedProfile.roles) &&
    roleScopesAllow requestedRole requestedScopes allowedProfile.scopes

def bootstrapProfileSatisfiesProfile (actualProfile requiredProfile : DeviceBootstrapProfile) :
    Bool :=
  requiredProfile.roles.all fun requiredRole =>
    let requiredScopes := resolveBootstrapProfileScopesForRole requiredRole requiredProfile.scopes
    decide (requiredRole ∈ actualProfile.roles) &&
      (requiredScopes.isEmpty ||
        bootstrapProfileAllowsRequest actualProfile requiredRole requiredScopes)

/-- What the host does with keys. -/
structure KeyHost where
  /-- `Buffer.from(text, "base64")`. -/
  bufferFromBase64 : String → List UInt8
  /-- The `spki` export of the key that a text holds in PEM form. -/
  createPublicKeySpki : String → Option (List UInt8)

variable (host : KeyHost)

def KeyHost.ReadsPem : Prop :=
  ∀ text, ' ' ∉ text.toList → host.createPublicKeySpki text = none

def base64UrlDigits : List Char :=
  "ABCDEFGHIJKLMNOPQRSTUVWXYZabcdefghijklmnopqrstuvwxyz0123456789-_".toList

def base64UrlDigit (value : ℕ) : Char := base64UrlDigits.getD value 'A'

/-- The digits of some bytes, without the padding that the source cuts off again. -/
def base64UrlEncodeBytes : List UInt8 → List Char
  | [] => []
  | [first] => [base64UrlDigit (first.toNat / 4), base64UrlDigit (first.toNat % 4 * 16)]
  | [first, second] =>
    [base64UrlDigit (first.toNat / 4),
      base64UrlDigit (first.toNat % 4 * 16 + second.toNat / 16),
      base64UrlDigit (second.toNat % 16 * 4)]
  | first :: second :: third :: rest =>
    base64UrlDigit (first.toNat / 4) ::
      base64UrlDigit (first.toNat % 4 * 16 + second.toNat / 16) ::
        base64UrlDigit (second.toNat % 16 * 4 + third.toNat / 64) ::
          base64UrlDigit (third.toNat % 64) :: base64UrlEncodeBytes rest

def base64UrlEncode (bytes : List UInt8) : String := String.ofList (base64UrlEncodeBytes bytes)

def base64UrlDecode (input : String) : List UInt8 :=
  let normalized := input.toList.map fun character =>
    if character = '-' then '+' else if character = '_' then '/' else character
  let padding := (4 - length (String.ofList normalized) % 4) % 4
  host.bufferFromBase64 (String.ofList (normalized ++ List.replicate padding '='))

def ed25519SpkiPrefix : List UInt8 :=
  [0x30, 0x2a, 0x30, 0x05, 0x06, 0x03, 0x2b, 0x65, 0x70, 0x03, 0x21, 0x00]

/-- Without a value where reading the key throws. -/
def derivePublicKeyRaw (publicKeyPem : String) : Option (List UInt8) :=
  (host.createPublicKeySpki publicKeyPem).map fun spki =>
    if spki.length = ed25519SpkiPrefix.length + 32 ∧
        spki.take ed25519SpkiPrefix.length = ed25519SpkiPrefix then
      spki.drop ed25519SpkiPrefix.length
    else spki

def normalizeDevicePublicKeyBase64Url (publicKey : String) : Option String :=
  if includesText publicKey "BEGIN" then
    (derivePublicKeyRaw host publicKey).map base64UrlEncode
  else
    let raw := base64UrlDecode host publicKey
    if raw.isEmpty then none else some (base64UrlEncode raw)

def normalizeBootstrapPublicKey (publicKey : String) : String :=
  let trimmed := trim publicKey
  if trimmed = "" then ""
  else if includesText trimmed "BEGIN" ||
      trimmed.toList.any (fun character => character ∈ ['+', '/', '=']) then
    (normalizeDevicePublicKeyBase64Url host trimmed).getD trimmed
  else trimmed

structure DeviceBootstrapTokenRecord where
  token : String
  ts : ℤ
  deviceId : Option String
  publicKey : Option String
  profile : Option DeviceBootstrapProfile
  redeemedProfile : Option DeviceBootstrapProfile
  pendingProfile : Option DeviceBootstrapProfile
  roles : Option (List String)
  scopes : Option (List String)
  issuedAtMs : ℤ
  lastUsedAtMs : Option ℤ
  deriving DecidableEq

abbrev DeviceBootstrapStateFile := OrderedMap String DeviceBootstrapTokenRecord

def deviceBootstrapTokenTtlMs : ℤ := 10 * 60 * 1000

/-- The input that an issue call gives: a profile, or roles and scopes. -/
structure IssueParams where
  profile : Option DeviceBootstrapProfileInput
  roles : Option (List String)
  scopes : Option (List String)

def resolveIssuedBootstrapProfileInput (params : IssueParams) :
    Option DeviceBootstrapProfileInput :=
  match params.profile with
  | some profile => some profile
  | none =>
    if params.roles.isSome || params.scopes.isSome then
      some { roles := params.roles, scopes := params.scopes }
    else none

def resolveIssuedBootstrapProfile (params : IssueParams) : DeviceBootstrapProfile :=
  match resolveIssuedBootstrapProfileInput params with
  | some input => normalizeDeviceBootstrapHandoffProfile (some input)
  | none => pairingSetupBootstrapProfile

def resolvePersistedBootstrapProfile (record : DeviceBootstrapTokenRecord) :
    DeviceBootstrapProfile :=
  normalizeDeviceBootstrapProfile
    (some
      (match record.profile with
      | some profile => profile.asInput
      | none => { roles := record.roles, scopes := record.scopes }))

def resolvePersistedRedeemedProfile (record : DeviceBootstrapTokenRecord) :
    DeviceBootstrapProfile :=
  normalizeDeviceBootstrapProfile (record.redeemedProfile.map DeviceBootstrapProfile.asInput)

def resolvePersistedPendingProfile (record : DeviceBootstrapTokenRecord) :
    Option DeviceBootstrapProfile :=
  record.pendingProfile.map fun profile => normalizeDeviceBootstrapProfile (some profile.asInput)

/-- A record of the file as the operations see it. -/
def loadRecord (tokenKey : String) (record : DeviceBootstrapTokenRecord) :
    DeviceBootstrapTokenRecord :=
  { token := if trim record.token = "" then tokenKey else record.token
    ts := record.ts
    deviceId := record.deviceId
    publicKey := record.publicKey
    profile := some (resolvePersistedBootstrapProfile record)
    redeemedProfile := some (resolvePersistedRedeemedProfile record)
    pendingProfile := resolvePersistedPendingProfile record
    roles := none
    scopes := none
    issuedAtMs := record.issuedAtMs
    lastUsedAtMs := record.lastUsedAtMs }

def loadState (nowMs : ℤ) (file : DeviceBootstrapStateFile) : DeviceBootstrapStateFile :=
  (file.mapEntries loadRecord).filter fun entry =>
    decide (nowMs - entry.2.ts ≤ deviceBootstrapTokenTtlMs)

def verifyPairingToken (provided expected : String) : Bool :=
  if trim provided = "" || trim expected = "" then false
  else decide (provided = expected)

/-- The first entry whose token is the provided one. -/
def findToken? (providedToken : String) (state : DeviceBootstrapStateFile) :
    Option (String × DeviceBootstrapTokenRecord) :=
  state.entries.find? fun entry => verifyPairingToken providedToken entry.2.token

def issueDeviceBootstrapToken (nowMs : ℤ) (generatedToken : String) (params : IssueParams)
    (file : DeviceBootstrapStateFile) : DeviceBootstrapStateFile :=
  (loadState nowMs file).set generatedToken
    { token := generatedToken
      ts := nowMs
      deviceId := none
      publicKey := none
      profile := some (resolveIssuedBootstrapProfile params)
      redeemedProfile := some (normalizeDeviceBootstrapProfile none)
      pendingProfile := none
      roles := none
      scopes := none
      issuedAtMs := nowMs
      lastUsedAtMs := none }

/-- The record that was removed, and the file afterwards. -/
def revokeDeviceBootstrapToken (nowMs : ℤ) (token : String) (file : DeviceBootstrapStateFile) :
    Option DeviceBootstrapTokenRecord × DeviceBootstrapStateFile :=
  let providedToken := trim token
  if providedToken = "" then (none, file)
  else
    let state := loadState nowMs file
    match findToken? providedToken state with
    | none => (none, file)
    | some (tokenKey, record) => (some record, state.delete tokenKey)

def restoreDeviceBootstrapToken (nowMs : ℤ) (record : DeviceBootstrapTokenRecord)
    (file : DeviceBootstrapStateFile) : DeviceBootstrapStateFile :=
  (loadState nowMs file).set record.token record

structure Redemption where
  recorded : Bool
  fullyRedeemed : Bool
  deriving DecidableEq

def redeemDeviceBootstrapTokenProfile (nowMs : ℤ) (token role : String)
    (scopes : List String) (file : DeviceBootstrapStateFile) :
    Redemption × DeviceBootstrapStateFile :=
  let providedToken := trim token
  if providedToken = "" then ({ recorded := false, fullyRedeemed := false }, file)
  else
    let state := loadState nowMs file
    match findToken? providedToken state with
    | none => ({ recorded := false, fullyRedeemed := false }, file)
    | some (tokenKey, record) =>
      let issuedProfile := resolvePersistedBootstrapProfile record
      let pendingProfile := resolvePersistedPendingProfile record
      let persistedRedeemed := resolvePersistedRedeemedProfile record
      let redeemedProfile :=
        normalizeDeviceBootstrapProfile
          (some
            { roles := some (persistedRedeemed.roles ++ [role])
              scopes :=
                some
                  (persistedRedeemed.scopes ++ resolveBootstrapProfileScopesForRole role scopes) })
      let nextPendingProfile :=
        pendingProfile.filter fun pending =>
          !bootstrapProfileSatisfiesProfile redeemedProfile pending
      let nextRecord :=
        { record with
          profile := some issuedProfile
          redeemedProfile := some redeemedProfile
          pendingProfile := nextPendingProfile }
      ({ recorded := true
         fullyRedeemed := bootstrapProfileSatisfiesProfile redeemedProfile issuedProfile },
        state.set tokenKey nextRecord)

/-- The device that a record is bound to. -/
def boundDeviceId (record : DeviceBootstrapTokenRecord) : Option String :=
  record.deviceId.map trim

def boundPublicKey (record : DeviceBootstrapTokenRecord) : Option String :=
  record.publicKey.map (normalizeBootstrapPublicKey host)

/-- A text counts when it is there and not empty. -/
def isTruthy (text : Option String) : Bool := text.any (· ≠ "")

/-- Whether the verification succeeded, and the file afterwards. -/
def verifyDeviceBootstrapToken (nowMs : ℤ)
    (token deviceId publicKey role : String) (scopes : List String)
    (file : DeviceBootstrapStateFile) : Bool × DeviceBootstrapStateFile :=
  let state := loadState nowMs file
  let providedToken := trim token
  if providedToken = "" then (false, file)
  else
    match findToken? providedToken state with
    | none => (false, file)
    | some (tokenKey, record) =>
      let deviceId := trim deviceId
      let publicKey := normalizeBootstrapPublicKey host publicKey
      let role := trim role
      if deviceId = "" || publicKey = "" || role = "" then (false, file)
      else
        let allowedProfile := resolvePersistedBootstrapProfile record
        if allowedProfile.roles.isEmpty ||
            !bootstrapProfileAllowsRequest allowedProfile role scopes then
          (false, file)
        else
          let requestedProfile := resolveRequestedBootstrapProfile role scopes
          if isTruthy (boundDeviceId record) ||
              isTruthy (boundPublicKey host record) then
            if boundDeviceId record ≠ some deviceId ||
                boundPublicKey host record ≠ some publicKey then
              (false, file)
            else
              let pendingProfile := resolvePersistedPendingProfile record
              if pendingProfile.any fun pending =>
                  !sameBootstrapProfile pending requestedProfile then
                (false, file)
              else
                (true,
                  state.set tokenKey
                    { record with
                      profile := some allowedProfile
                      pendingProfile := some (pendingProfile.getD requestedProfile)
                      deviceId := some deviceId
                      publicKey := some publicKey
                      lastUsedAtMs := some nowMs })
          else
            (true,
              state.set tokenKey
                { record with
                  profile := some allowedProfile
                  pendingProfile := some requestedProfile
                  deviceId := some deviceId
                  publicKey := some publicKey
                  lastUsedAtMs := some nowMs })

/-- How many tokens were removed, and the file afterwards. -/
def clearDeviceBootstrapTokens (nowMs : ℤ) (file : DeviceBootstrapStateFile) :
    ℕ × DeviceBootstrapStateFile :=
  ((loadState nowMs file).entries.length, .empty)

def revokeDeviceBootstrapTokensForDevice (nowMs : ℤ)
    (deviceId publicKey : String) (file : DeviceBootstrapStateFile) :
    ℕ × DeviceBootstrapStateFile :=
  let deviceId := trim deviceId
  let publicKey := normalizeBootstrapPublicKey host publicKey
  if deviceId = "" || publicKey = "" then (0, file)
  else
    let state := loadState nowMs file
    let isOfDevice (record : DeviceBootstrapTokenRecord) : Bool :=
      decide (boundDeviceId record = some deviceId) &&
        decide (boundPublicKey host record = some publicKey)
    let removed := state.entries.countP fun entry => isOfDevice entry.2
    if removed = 0 then (0, file)
    else (removed, state.filter fun entry => !isOfDevice entry.2)

end DeviceBootstrap
