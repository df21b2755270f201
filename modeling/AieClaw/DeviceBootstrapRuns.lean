import AieClaw.DeviceBootstrapProfiles

/-!
# Runs of bootstrap tokens

Any devices issue, verify, redeem, revoke and restore tokens in any order. The
history keeps the calls that were granted, the latest first. A record is in one
place only, in the file or with whoever revoked it, and it knows everything
about its token's history that the next call is decided by.
-/

namespace DeviceBootstrap

open DeviceAuth JsString

/-- What holds when a verification succeeds. -/
structure Verified (host : KeyHost) (nowMs : ℤ) (token deviceId publicKey role : String)
    (scopes : List String) (file : DeviceBootstrapStateFile) (tokenKey : String)
    (record : DeviceBootstrapTokenRecord) : Prop where
  found : findToken? (trim token) (loadState nowMs file) = some (tokenKey, record)
  namesDevice : trim deviceId ≠ ""
  namesKey : normalizeBootstrapPublicKey host publicKey ≠ ""
  allowed :
    bootstrapProfileAllowsRequest (resolvePersistedBootstrapProfile record)
      (trim role) scopes = true
  bound :
    isTruthy (boundDeviceId record) = false ∧ isTruthy (boundPublicKey host record) = false ∨
      boundDeviceId record = some (trim deviceId) ∧
        boundPublicKey host record = some (normalizeBootstrapPublicKey host publicKey) ∧
          ∀ pending, resolvePersistedPendingProfile record = some pending →
            pending = resolveRequestedBootstrapProfile (trim role) scopes
  after :
    (verifyDeviceBootstrapToken host nowMs token deviceId publicKey role scopes file).2 =
      (loadState nowMs file).set tokenKey
        { token := record.token
          ts := record.ts
          deviceId := some (trim deviceId)
          publicKey := some (normalizeBootstrapPublicKey host publicKey)
          profile := some (resolvePersistedBootstrapProfile record)
          redeemedProfile := record.redeemedProfile
          pendingProfile := some (resolveRequestedBootstrapProfile (trim role) scopes)
          roles := record.roles
          scopes := record.scopes
          issuedAtMs := record.issuedAtMs
          lastUsedAtMs := some nowMs }

theorem sameBootstrapProfile_iff {left right : DeviceBootstrapProfile} :
    sameBootstrapProfile left right = true ↔ left = right := by
  obtain ⟨leftRoles, leftScopes⟩ := left
  obtain ⟨rightRoles, rightScopes⟩ := right
  simp [sameBootstrapProfile]

/-- A verification succeeds for a record that allows it, or changes nothing. -/
theorem verifyDeviceBootstrapToken_cases (host : KeyHost) (nowMs : ℤ)
    (token deviceId publicKey role : String) (scopes : List String)
    (file : DeviceBootstrapStateFile) :
    verifyDeviceBootstrapToken host nowMs token deviceId publicKey role scopes file =
        (false, file) ∨
      (verifyDeviceBootstrapToken host nowMs token deviceId publicKey role scopes file).1 = true ∧
        ∃ tokenKey record, Verified host nowMs token deviceId publicKey role scopes file tokenKey
            record := by
  by_cases noToken : trim token = ""
  · exact Or.inl (by simp [verifyDeviceBootstrapToken, noToken])
  cases found : findToken? (trim token) (loadState nowMs file) with
  | none => exact Or.inl (by simp [verifyDeviceBootstrapToken, noToken, found])
  | some entry =>
    obtain ⟨tokenKey, record⟩ := entry
    by_cases missing : (decide (trim deviceId = "") ||
        decide (normalizeBootstrapPublicKey host publicKey = "") || decide (trim role = "")) = true
    · exact Or.inl (by
        simp only [verifyDeviceBootstrapToken, noToken, found, missing, if_false, if_true])
    by_cases refused : ((resolvePersistedBootstrapProfile record).roles.isEmpty ||
          !bootstrapProfileAllowsRequest (resolvePersistedBootstrapProfile record)
            (trim role) scopes) = true
    · exact Or.inl (by
        simp only [verifyDeviceBootstrapToken, noToken, found, missing, refused,
          Bool.false_eq_true, if_false, if_true])
    have given : trim deviceId ≠ "" ∧ normalizeBootstrapPublicKey host publicKey ≠ "" := by
      simp only [Bool.or_eq_true, decide_eq_true_eq, not_or] at missing
      exact missing.1
    have allowed : bootstrapProfileAllowsRequest
        (resolvePersistedBootstrapProfile record) (trim role) scopes =
          true := by
      simp only [Bool.or_eq_true, not_or, Bool.not_eq_true', Bool.not_eq_false] at refused
      exact refused.2
    by_cases isBound : (isTruthy (boundDeviceId record) ||
        isTruthy (boundPublicKey host record)) = true
    · by_cases differs : (decide (boundDeviceId record ≠ some (trim deviceId)) ||
            decide (boundPublicKey host record ≠
              some (normalizeBootstrapPublicKey host publicKey))) = true
      · exact Or.inl (by
        simp only [verifyDeviceBootstrapToken, noToken, found, missing, refused,
            isBound, differs, Bool.false_eq_true, if_false, if_true])
      by_cases otherPending : ((resolvePersistedPendingProfile record).any fun pending =>
            !sameBootstrapProfile pending
              (resolveRequestedBootstrapProfile (trim role) scopes)) = true
      · exact Or.inl (by
        simp only [verifyDeviceBootstrapToken, noToken, found, missing, refused,
            isBound, differs, otherPending, Bool.false_eq_true, if_false, if_true])
      have samePending : ∀ pending, resolvePersistedPendingProfile record = some pending →
            pending = resolveRequestedBootstrapProfile (trim role) scopes := by
        intro pending isPending
        rw [isPending, Option.any_some, Bool.not_eq_true', Bool.not_eq_false] at otherPending
        exact sameBootstrapProfile_iff.mp otherPending
      have sameDevice : boundDeviceId record = some (trim deviceId) ∧
            boundPublicKey host record = some (normalizeBootstrapPublicKey host publicKey) := by
        simpa using differs
      have nextPending : (resolvePersistedPendingProfile record).getD
              (resolveRequestedBootstrapProfile (trim role) scopes) =
            resolveRequestedBootstrapProfile (trim role) scopes := by
        cases isPending : resolvePersistedPendingProfile record with
        | none => rfl
        | some pending => exact samePending pending isPending
      refine Or.inr ⟨?_, tokenKey, record, found, given.1, given.2, allowed,
        Or.inr ⟨sameDevice.1, sameDevice.2, samePending⟩, ?_⟩
      · simp only [verifyDeviceBootstrapToken, noToken, found, missing, refused,
          isBound, differs, otherPending, Bool.false_eq_true, if_false, if_true]
      · simp only [verifyDeviceBootstrapToken, noToken, found, missing, refused,
          isBound, differs, otherPending, nextPending, Bool.false_eq_true, if_false, if_true]
    · refine Or.inr ⟨?_, tokenKey, record, found, given.1, given.2, allowed, Or.inl ?_, ?_⟩
      · simp [verifyDeviceBootstrapToken, noToken, found, missing, refused, isBound]
      · simpa using isBound
      · simp [verifyDeviceBootstrapToken, noToken, found, missing, refused, isBound]

/-- What the redemption makes of the redeemed profile. -/
def nextRedeemedProfile (record : DeviceBootstrapTokenRecord) (role : String)
    (scopes : List String) : DeviceBootstrapProfile :=
  normalizeDeviceBootstrapProfile
    (some
      { roles := some ((resolvePersistedRedeemedProfile record).roles ++ [role])
        scopes :=
          some
            ((resolvePersistedRedeemedProfile record).scopes ++
              resolveBootstrapProfileScopesForRole role scopes) })

/-- A redemption is recorded with a record of the file, or changes nothing. -/
theorem redeemDeviceBootstrapTokenProfile_cases (nowMs : ℤ) (token role : String)
    (scopes : List String) (file : DeviceBootstrapStateFile) :
    redeemDeviceBootstrapTokenProfile nowMs token role scopes file =
        ({ recorded := false, fullyRedeemed := false }, file) ∨
      ∃ tokenKey record,
        findToken? (trim token) (loadState nowMs file) = some (tokenKey, record) ∧
          redeemDeviceBootstrapTokenProfile nowMs token role scopes file =
            ({ recorded := true
               fullyRedeemed :=
                 bootstrapProfileSatisfiesProfile
                   (nextRedeemedProfile record role scopes)
                   (resolvePersistedBootstrapProfile record) },
              (loadState nowMs file).set tokenKey
                { token := record.token
                  ts := record.ts
                  deviceId := record.deviceId
                  publicKey := record.publicKey
                  profile := some (resolvePersistedBootstrapProfile record)
                  redeemedProfile := some (nextRedeemedProfile record role scopes)
                  pendingProfile :=
                    (resolvePersistedPendingProfile record).filter fun pending =>
                      !bootstrapProfileSatisfiesProfile
                        (nextRedeemedProfile record role scopes) pending
                  roles := record.roles
                  scopes := record.scopes
                  issuedAtMs := record.issuedAtMs
                  lastUsedAtMs := record.lastUsedAtMs }) := by
  by_cases noToken : trim token = ""
  · exact Or.inl (by simp [redeemDeviceBootstrapTokenProfile, noToken])
  · cases found : findToken? (trim token) (loadState nowMs file) with
    | none => exact Or.inl (by simp [redeemDeviceBootstrapTokenProfile, noToken, found])
    | some entry =>
      obtain ⟨tokenKey, record⟩ := entry
      refine Or.inr ⟨tokenKey, record, rfl, ?_⟩
      simp [redeemDeviceBootstrapTokenProfile, noToken, found, nextRedeemedProfile]

theorem revokeDeviceBootstrapToken_cases (nowMs : ℤ) (token : String)
    (file : DeviceBootstrapStateFile) : revokeDeviceBootstrapToken nowMs token file = (none, file) ∨
      ∃ tokenKey record, findToken? (trim token) (loadState nowMs file) = some (tokenKey, record) ∧
          revokeDeviceBootstrapToken nowMs token file =
            (some record, (loadState nowMs file).delete tokenKey) := by
  by_cases noToken : trim token = ""
  · exact Or.inl (by simp [revokeDeviceBootstrapToken, noToken])
  · cases found : findToken? (trim token) (loadState nowMs file) with
    | none => exact Or.inl (by simp [revokeDeviceBootstrapToken, noToken, found])
    | some entry =>
      obtain ⟨tokenKey, record⟩ := entry
      refine Or.inr ⟨tokenKey, record, rfl, ?_⟩
      simp [revokeDeviceBootstrapToken, noToken, found]

theorem findToken?_spec {providedToken tokenKey : String} {state : DeviceBootstrapStateFile}
    {record : DeviceBootstrapTokenRecord}
    (found : findToken? providedToken state = some (tokenKey, record)) :
    state.get? tokenKey = some record ∧ record.token = providedToken := by
  refine ⟨OrderedMap.get?_eq_some_iff.mpr (List.mem_of_find?_eq_some found), ?_⟩
  have verified := List.find?_some found
  simp only [verifyPairingToken] at verified
  split at verified
  · cases verified
  · simpa using (of_decide_eq_true verified).symm

/-- A call that was granted. -/
inductive Event where
  | issued (token : String) (profile : DeviceBootstrapProfile)
  | verified (token deviceId publicKey role : String) (scopes : List String)
  | redeemed (token role : String) (scopes : List String) (fullyRedeemed : Bool)

def Event.token : Event → String
  | .issued token _ => token
  | .verified token _ _ _ _ => token
  | .redeemed token _ _ _ => token

/-- A role was redeemed with the token. -/
def RedeemedRole (token : String) (history : List Event) (role : String) : Prop :=
  role ≠ "" ∧ ∃ given scopes fully, .redeemed token given scopes fully ∈ history ∧ trim given = role

def RedeemedScope (token : String) (history : List Event) (role scope : String) : Prop :=
  ∃ given scopes fully,
    .redeemed token given scopes fully ∈ history ∧
      trim given = role ∧ scope ∈ resolveBootstrapProfileScopesForRole given scopes

def Covers (token : String) (history : List Event) (profile : DeviceBootstrapProfile) : Prop :=
  ∀ role ∈ profile.roles,
    RedeemedRole token history role ∧
      ∀ scope ∈ resolveBootstrapProfileScopesForRole role profile.scopes,
        RedeemedScope token history role scope

/-- The profile that a verification asks for. -/
def requestedProfile (role : String) (scopes : List String) : DeviceBootstrapProfile :=
  resolveRequestedBootstrapProfile (trim role) scopes

/--
A verification for the profile succeeded, and no redemption since then has
satisfied it. The latest event stands first.
-/
def Outstanding (token : String) (profile : DeviceBootstrapProfile) : List Event → Prop
  | [] => False
  | event :: earlier =>
    (∃ deviceId publicKey role scopes,
        event = .verified token deviceId publicKey role scopes ∧
          requestedProfile role scopes = profile) ∨
      Outstanding token profile earlier ∧
        ¬((∃ role scopes fully, event = .redeemed token role scopes fully) ∧
          Covers token (event :: earlier) profile)

/-- What holds of the calls that were granted. -/
structure BoundOnce (host : KeyHost) (history : List Event) : Prop where
  issuedOnce :
    ∀ {token profile other},
      .issued token profile ∈ history → .issued token other ∈ history → profile = other
  oneDevice :
    ∀ {token deviceId publicKey role scopes deviceId' publicKey' role' scopes'},
      .verified token deviceId publicKey role scopes ∈ history →
        .verified token deviceId' publicKey' role' scopes' ∈ history →
          trim deviceId = trim deviceId' ∧
            normalizeBootstrapPublicKey host publicKey = normalizeBootstrapPublicKey host publicKey'
  allowed :
    ∀ {token deviceId publicKey role scopes},
      .verified token deviceId publicKey role scopes ∈ history →
        ∃ profile,
          .issued token profile ∈ history ∧
            trim role ∈ profile.roles ∧ roleScopesAllow (trim role) scopes profile.scopes = true
  pending :
    ∀ {token deviceId publicKey role scopes later earlier},
      history = later ++ .verified token deviceId publicKey role scopes :: earlier →
        ∀ profile, Outstanding token profile earlier → requestedProfile role scopes = profile
  fullyRedeemed :
    ∀ {token role scopes fully later earlier},
      history = later ++ .redeemed token role scopes fully :: earlier →
        ∃ profile,
          .issued token profile ∈ history ∧
            (fully = true ↔ Covers token (.redeemed token role scopes fully :: earlier) profile)

end DeviceBootstrap
