import AieClaw.DeviceBootstrapRuns

/-!
# Bootstrap tokens are bound once

The invariant of a run: the records of the file and those that were revoked and
not yet restored are of different tokens, and each tracks what the history says
about its own token. Every call keeps it, so every history of a run is one of
tokens that are bound once.
-/

namespace DeviceBootstrap

open DeviceAuth JsString OrderedMap List Option

/-- The file, the records that revocations returned, and the calls granted. -/
structure System where
  file : DeviceBootstrapStateFile
  revoked : List DeviceBootstrapTokenRecord
  history : List Event

def System.initial : System :=
  { file := .empty
    revoked := []
    history := [] }

/--
One call. Generated tokens are new, and a record that a revocation returned is
restored at most once.
-/
inductive Step (host : KeyHost) : System → System → Prop
  | issue (nowMs : ℤ) (token : String) (params : IssueParams) (system : System)
      (isNew : ∀ event ∈ system.history, event.token ≠ token) :
      Step host system
        { file := issueDeviceBootstrapToken nowMs token params system.file
          revoked := system.revoked
          history := .issued token (resolveIssuedBootstrapProfile params) :: system.history }
  | verify (nowMs : ℤ) (token deviceId publicKey role : String)
      (scopes : List String) (system : System) :
      Step host system
        { file :=
            (verifyDeviceBootstrapToken host nowMs token deviceId publicKey role
              scopes system.file).2
          revoked := system.revoked
          history :=
            if (verifyDeviceBootstrapToken host nowMs token deviceId publicKey role
                scopes system.file).1 then
              .verified (trim token) deviceId publicKey role scopes :: system.history
            else system.history }
  | redeem (nowMs : ℤ) (token role : String) (scopes : List String)
      (system : System) :
      Step host system
        { file := (redeemDeviceBootstrapTokenProfile nowMs token role scopes system.file).2
          revoked := system.revoked
          history :=
            if (redeemDeviceBootstrapTokenProfile nowMs token role scopes
                system.file).1.recorded then
              .redeemed (trim token) role scopes
                  (redeemDeviceBootstrapTokenProfile nowMs token role scopes
                    system.file).1.fullyRedeemed ::
                system.history
            else system.history }
  | revoke (nowMs : ℤ) (token : String) (system : System) :
      Step host system
        { file := (revokeDeviceBootstrapToken nowMs token system.file).2
          revoked :=
            (revokeDeviceBootstrapToken nowMs token system.file).1.toList ++ system.revoked
          history := system.history }
  | restore (nowMs : ℤ) (record : DeviceBootstrapTokenRecord) (system : System)
      (returned : record ∈ system.revoked) :
      Step host system
        { file := restoreDeviceBootstrapToken nowMs record system.file
          revoked := system.revoked.erase record
          history := system.history }
  | revokeForDevice (nowMs : ℤ) (deviceId publicKey : String) (system : System) :
      Step host system
        { file :=
            (revokeDeviceBootstrapTokensForDevice host nowMs deviceId publicKey system.file).2
          revoked := system.revoked
          history := system.history }
  | clear (nowMs : ℤ) (system : System) :
      Step host system
        { file := (clearDeviceBootstrapTokens nowMs system.file).2
          revoked := system.revoked
          history := system.history }

def Reachable (host : KeyHost) : System → Prop := Relation.ReflTransGen (Step host) .initial

/-- The record is not bound, or bound to the device of every verification. -/
def TracksDevice (host : KeyHost) (history : List Event) (record : DeviceBootstrapTokenRecord) :
    Prop :=
  (record.deviceId = none ∧ record.publicKey = none ∧
      ∀ deviceId publicKey role scopes,
        .verified record.token deviceId publicKey role scopes ∉ history) ∨
    ∃ bound key,
      record.deviceId = some bound ∧ record.publicKey = some key ∧
        (bound ≠ "" ∧ trim bound = bound) ∧
          (key ≠ "" ∧ normalizeBootstrapPublicKey host key = key) ∧
            ∀ deviceId publicKey role scopes,
              .verified record.token deviceId publicKey role scopes ∈ history →
                trim deviceId = bound ∧ normalizeBootstrapPublicKey host publicKey = key

/-- The redeemed profile is what was redeemed with the token. -/
structure TracksRedeemed (history : List Event) (token : String)
    (redeemed : DeviceBootstrapProfile) : Prop where
  normal : NormalProfile redeemed
  roles : ∀ role, role ∈ redeemed.roles ↔ RedeemedRole token history role
  scopes : ∀ scope, scope ∈ redeemed.scopes ↔ ∃ role, RedeemedScope token history role scope

structure Tracks (host : KeyHost) (history : List Event) (record : DeviceBootstrapTokenRecord) :
    Prop where
  noLists : record.roles = none ∧ record.scopes = none
  profile :
    ∃ profile,
      record.profile = some profile ∧ NormalProfile profile ∧ .issued record.token profile ∈ history
  redeemed :
    ∃ redeemed,
      record.redeemedProfile = some redeemed ∧ TracksRedeemed history record.token redeemed
  device : TracksDevice host history record
  normalPending : ∀ profile, record.pendingProfile = some profile → NormalProfile profile
  pending :
    ∀ profile, Outstanding record.token profile history → record.pendingProfile = some profile

/-- The invariant of a run. -/
structure Invariant (host : KeyHost) (system : System) : Prop where
  keyed :
    ∀ {key record}, system.file.get? key = some record →
      record.token = key ∧ Tracks host system.history record
  absent : ∀ record ∈ system.revoked, system.file.get? record.token = none
  revoked : ∀ record ∈ system.revoked, Tracks host system.history record
  revokedOnce : (system.revoked.map DeviceBootstrapTokenRecord.token).Nodup
  boundOnce : BoundOnce host system.history

variable {record : DeviceBootstrapTokenRecord}

theorem persistedProfile_eq
    {profile : DeviceBootstrapProfile} (isProfile : record.profile = some profile)
    (normal : NormalProfile profile) : resolvePersistedBootstrapProfile record = profile := by
  simp only [resolvePersistedBootstrapProfile, isProfile, normal.normalize_eq]

theorem persistedRedeemed_eq
    {redeemed : DeviceBootstrapProfile} (isRedeemed : record.redeemedProfile = some redeemed)
    (normal : NormalProfile redeemed) : resolvePersistedRedeemedProfile record = redeemed := by
  simp [resolvePersistedRedeemedProfile, isRedeemed, normal.normalize_eq]

theorem persistedPending_eq
    (normal : ∀ profile, record.pendingProfile = some profile → NormalProfile profile) :
    resolvePersistedPendingProfile record = record.pendingProfile := by
  unfold resolvePersistedPendingProfile
  cases isPending : record.pendingProfile with
  | none => rfl
  | some pending => rw [map_some, (normal pending isPending).normalize_eq]

theorem Tracks.loadRecord_eq {host : KeyHost} {history : List Event}
    (tracks : Tracks host history record) : loadRecord record.token record = record := by
  obtain ⟨⟨noRoles, noScopes⟩, ⟨profile, isProfile, normal, -⟩,
    ⟨redeemed, isRedeemed, tracksRedeemed⟩, -, normalPending, -⟩ := tracks
  have sameToken : (if trim record.token = "" then record.token
      else record.token) = record.token := by
    split
    · rfl
    · rfl
  rw [loadRecord, persistedPending_eq normalPending, persistedProfile_eq isProfile normal,
    persistedRedeemed_eq isRedeemed tracksRedeemed.normal, sameToken, ← isProfile, ← isRedeemed]
  cases record
  cases noRoles
  cases noScopes
  rfl

variable {system : System} {event : Event} {host : KeyHost} {nowMs : ℤ}
  {record : DeviceBootstrapTokenRecord} {token : String} {history : List Event}
  {profile : DeviceBootstrapProfile}

theorem Invariant.loaded (invariant : Invariant host system) {key : String}
    (found : (loadState nowMs system.file).get? key = some record) :
    system.file.get? key = some record := by
  rw [loadState, get?_filter_eq_some_iff, get?_mapEntries] at found
  obtain ⟨original, isOriginal, rfl⟩ := map_eq_some_iff.mp found.1
  obtain ⟨isKey, tracks⟩ := invariant.keyed isOriginal
  rw [← isKey, tracks.loadRecord_eq, isKey]
  exact isOriginal

theorem Invariant.foundRecord (invariant : Invariant host system) {providedToken tokenKey : String}
    (found : findToken? providedToken (loadState nowMs system.file) = some (tokenKey, record)) :
    system.file.get? tokenKey = some record ∧
      tokenKey = providedToken ∧ record.token = providedToken ∧
        Tracks host system.history record := by
  obtain ⟨stored, isProvided⟩ := findToken?_spec found
  have inFile := invariant.loaded stored
  obtain ⟨isKey, tracks⟩ := invariant.keyed inFile
  exact ⟨inFile, isKey.symm.trans isProvided, isProvided, tracks⟩

section

variable (isOther : event.token ≠ token)
include isOther

theorem mem_cons_of_otherToken {other : Event} (own : other.token = token) :
    other ∈ event :: history ↔ other ∈ history := by
  constructor
  · intro member
    rcases mem_cons.mp member with rfl | earlier
    · exact absurd own isOther
    · exact earlier
  · exact .tail event

theorem redeemed_mem_cons_of_otherToken {given : String} {scopes : List String} {fully : Bool} :
    .redeemed token given scopes fully ∈ event :: history ↔
      .redeemed token given scopes fully ∈ history :=
  mem_cons_of_otherToken isOther rfl

theorem redeemedRole_cons_of_otherToken {role : String} :
    RedeemedRole token (event :: history) role ↔ RedeemedRole token history role := by
  simp only [RedeemedRole, redeemed_mem_cons_of_otherToken isOther]

theorem redeemedScope_cons_of_otherToken {role scope : String}
    : RedeemedScope token (event :: history) role scope ↔
      RedeemedScope token history role scope := by
  simp only [RedeemedScope, redeemed_mem_cons_of_otherToken isOther]

theorem outstanding_cons_of_otherToken : Outstanding token profile (event :: history) ↔
      Outstanding token profile history := by
  rw [Outstanding]
  constructor
  · rintro (⟨deviceId, publicKey, role, scopes, rfl, -⟩ | ⟨earlier, -⟩)
    · exact absurd rfl isOther
    · exact earlier
  · intro earlier
    refine Or.inr ⟨earlier, ?_⟩
    rintro ⟨⟨role, scopes, fully, rfl⟩, -⟩
    exact isOther rfl

end

theorem Tracks.cons_of_otherToken (tracks : Tracks host history record)
    (isOther : event.token ≠ record.token) : Tracks host (event :: history) record := by
  obtain ⟨noLists, ⟨profile, isProfile, normal, issued⟩,
    ⟨redeemed, isRedeemed, normalRedeemed, roles, scopes⟩, device, normalPending,
    pending⟩ := tracks
  constructor
  · exact noLists
  · exact ⟨profile, isProfile, normal, .tail event issued⟩
  · refine ⟨redeemed, isRedeemed, normalRedeemed, ?_, ?_⟩
    · intro role
      rw [redeemedRole_cons_of_otherToken isOther, roles]
    · intro scope
      simp only [redeemedScope_cons_of_otherToken isOther, scopes]
  · have own : ∀ deviceId publicKey role scopes,
        Event.verified record.token deviceId publicKey role scopes ∈ event :: history ↔
          Event.verified record.token deviceId publicKey role scopes ∈ history :=
      fun _ _ _ _ => mem_cons_of_otherToken isOther rfl
    simpa only [TracksDevice, own] using device
  · exact normalPending
  · intro profile isOutstanding
    exact pending profile ((outstanding_cons_of_otherToken isOther).mp isOutstanding)

theorem exists_verified_of_outstanding (outstanding : Outstanding token profile history) :
    ∃ deviceId publicKey role scopes, .verified token deviceId publicKey role scopes ∈ history := by
  induction history with
  | nil => cases outstanding
  | cons event earlier inductionHypothesis =>
    rcases outstanding with ⟨deviceId, publicKey, role, scopes, rfl, -⟩ | ⟨before, -⟩
    · exact ⟨deviceId, publicKey, role, scopes, .head _⟩
    · obtain ⟨deviceId, publicKey, role, scopes, member⟩ := inductionHypothesis before
      exact ⟨deviceId, publicKey, role, scopes, .tail event member⟩

/-- A fresh record tracks a history that knows nothing but its issue. -/
theorem tracks_issued {params : IssueParams} (isNew : ∀ event ∈ history, event.token ≠ token) :
    Tracks host (.issued token (resolveIssuedBootstrapProfile params) :: history)
      { token := token
        ts := nowMs
        deviceId := none
        publicKey := none
        profile := some (resolveIssuedBootstrapProfile params)
        redeemedProfile := some (normalizeDeviceBootstrapProfile none)
        pendingProfile := none
        roles := none
        scopes := none
        issuedAtMs := nowMs
        lastUsedAtMs := none } := by
  have noVerified : ∀ deviceId publicKey role scopes,
      Event.verified token deviceId publicKey role scopes ∉
        .issued token (resolveIssuedBootstrapProfile params) :: history := by
    intro deviceId publicKey role scopes member
    rcases mem_cons.mp member with impossible | earlier
    · cases impossible
    · exact isNew _ earlier rfl
  constructor
  · exact ⟨rfl, rfl⟩
  · exact ⟨_, rfl, normalProfile_resolveIssued params, .head _⟩
  · refine ⟨_, rfl, normalProfile_normalize none, ?_, ?_⟩
    · intro role
      have noRole : role ∉ (normalizeDeviceBootstrapProfile none).roles := by
        simp [normalizeDeviceBootstrapProfile, normalizeBootstrapRoles, trimmedTexts, toSorted]
      simp only [noRole, false_iff]
      rintro ⟨-, given, scopes, fully, member, -⟩
      rcases mem_cons.mp member with impossible | earlier
      · cases impossible
      · exact isNew _ earlier rfl
    · intro scope
      have noScope : scope ∉ (normalizeDeviceBootstrapProfile none).scopes := by
        rw [normalizeDeviceBootstrapProfile, mem_normalizeDeviceAuthScopes]
        simp [Implied, trimmedTexts]
      simp only [noScope, false_iff]
      rintro ⟨role, given, scopes, fully, member, -⟩
      rcases mem_cons.mp member with impossible | earlier
      · cases impossible
      · exact isNew _ earlier rfl
  · exact Or.inl ⟨rfl, rfl, noVerified⟩
  · intro profile impossible
    cases impossible
  · intro profile isOutstanding
    obtain ⟨deviceId, publicKey, role, scopes, member⟩ :=
      exists_verified_of_outstanding isOutstanding
    exact absurd member (noVerified _ _ _ _)

/-- What holds of an event after those before it. -/
def Event.Follows (host : KeyHost) (history : List Event) : Event → Prop
  | .issued token _ => ∀ event ∈ history, event.token ≠ token
  | .verified token deviceId publicKey role scopes =>
    (∀ deviceId' publicKey' role' scopes',
        .verified token deviceId' publicKey' role' scopes' ∈ history →
          trim deviceId' = trim deviceId ∧
            normalizeBootstrapPublicKey host publicKey' =
              normalizeBootstrapPublicKey host publicKey) ∧
      (∃ profile,
        .issued token profile ∈ history ∧
          trim role ∈ profile.roles ∧ roleScopesAllow (trim role) scopes profile.scopes = true) ∧
      ∀ profile, Outstanding token profile history → requestedProfile role scopes = profile
  | .redeemed token role scopes fully =>
    ∃ profile,
      .issued token profile ∈ history ∧
        (fully = true ↔ Covers token (.redeemed token role scopes fully :: history) profile)

theorem BoundOnce.cons (boundOnce : BoundOnce host history) (follows : event.Follows host history) :
    BoundOnce host (event :: history) := by
  constructor
  · intro token profile other first second
    rcases mem_cons.mp first with rfl | isFirst
    · rcases mem_cons.mp second with again | isSecond
      · exact (Event.issued.inj again).2.symm
      · exact absurd rfl (follows _ isSecond)
    · rcases mem_cons.mp second with rfl | isSecond
      · exact absurd rfl (follows _ isFirst)
      · exact boundOnce.issuedOnce isFirst isSecond
  · intro token device key role scopes device' key' role' scopes' first second
    rcases mem_cons.mp first with rfl | isFirst
    · rcases mem_cons.mp second with again | isSecond
      · cases again
        exact ⟨rfl, rfl⟩
      · exact (follows.1 _ _ _ _ isSecond).imp Eq.symm Eq.symm
    · rcases mem_cons.mp second with rfl | isSecond
      · exact follows.1 _ _ _ _ isFirst
      · exact boundOnce.oneDevice isFirst isSecond
  · intro token device key role scopes member
    refine Exists.imp (fun _ => And.imp_left (.tail event)) ?_
    rcases mem_cons.mp member with rfl | earlier
    · exact follows.2.1
    · exact boundOnce.allowed earlier
  · intro token device key role scopes later earlier split
    cases later with
    | nil =>
      obtain ⟨rfl, rfl⟩ := List.cons.inj split
      exact follows.2.2
    | cons other later => exact boundOnce.pending (List.cons.inj split).2
  · intro token role scopes fully later earlier split
    refine Exists.imp (fun _ => And.imp_left (.tail event)) ?_
    cases later with
    | nil =>
      obtain ⟨rfl, rfl⟩ := List.cons.inj split
      exact follows
    | cons other later => exact boundOnce.fullyRedeemed (List.cons.inj split).2

section Verify

variable {host : KeyHost} {nowMs : ℤ} {token deviceId publicKey role : String}
  {scopes : List String} {file : DeviceBootstrapStateFile} {tokenKey : String}
  {record : DeviceBootstrapTokenRecord} {history : List Event}
  (verified : Verified host nowMs token deviceId publicKey role scopes file tokenKey record)
  (tracks : Tracks host history record)
include verified tracks

theorem verified_sameDevice
    {deviceId' publicKey' role' : String} {scopes' : List String}
    (earlier : .verified record.token deviceId' publicKey' role' scopes' ∈ history) :
    trim deviceId' = trim deviceId ∧
      normalizeBootstrapPublicKey host publicKey' = normalizeBootstrapPublicKey host publicKey := by
  rcases tracks.device with ⟨-, -, noVerified⟩ |
    ⟨bound, key, isBound, isKey, ⟨nonEmpty, trimmed⟩, ⟨-, normal⟩, all⟩
  · exact absurd earlier (noVerified _ _ _ _)
  · obtain ⟨sameDevice, sameKey⟩ := all _ _ _ _ earlier
    rcases verified.bound with ⟨unbound, -⟩ | ⟨isDevice, isPublicKey, -⟩
    · simp [isTruthy, boundDeviceId, isBound, trimmed, nonEmpty] at unbound
    · rw [boundDeviceId, isBound, map_some, trimmed] at isDevice
      rw [boundPublicKey, isKey, map_some, normal] at isPublicKey
      exact ⟨sameDevice.trans (Option.some.inj isDevice),
        sameKey.trans (Option.some.inj isPublicKey)⟩

theorem verified_pending {profile : DeviceBootstrapProfile}
    (outstanding : Outstanding record.token profile history) :
    requestedProfile role scopes = profile := by
  have isPending := tracks.pending profile outstanding
  rw [← persistedPending_eq tracks.normalPending] at isPending
  rcases verified.bound with ⟨unbound, -⟩ | ⟨-, -, samePending⟩
  · obtain ⟨_, _, _, _, earlier⟩ := exists_verified_of_outstanding outstanding
    rcases tracks.device with ⟨-, -, noVerified⟩ |
      ⟨bound, key, isBound, -, ⟨nonEmpty, trimmed⟩, -, -⟩
    · exact absurd earlier (noVerified _ _ _ _)
    · simp [isTruthy, boundDeviceId, isBound, trimmed, nonEmpty] at unbound
  · exact (samePending profile isPending).symm

theorem tracks_verified (readsPem : host.ReadsPem) :
    Tracks host (.verified record.token deviceId publicKey role scopes :: history)
      { token := record.token
        ts := record.ts
        deviceId := some (trim deviceId)
        publicKey := some (normalizeBootstrapPublicKey host publicKey)
        profile := some (resolvePersistedBootstrapProfile record)
        redeemedProfile := record.redeemedProfile
        pendingProfile := some (resolveRequestedBootstrapProfile (trim role) scopes)
        roles := record.roles
        scopes := record.scopes
        issuedAtMs := record.issuedAtMs
        lastUsedAtMs := some nowMs } := by
  have redeemedEvents : ∀ given scopes' fully, Event.redeemed record.token given scopes' fully ∈
          .verified record.token deviceId publicKey role scopes :: history ↔
        Event.redeemed record.token given scopes' fully ∈ history := by
    simp
  constructor
  · exact tracks.noLists
  · obtain ⟨profile, isProfile, normal, issued⟩ := tracks.profile
    refine ⟨profile, ?_, normal, .tail _ issued⟩
    rw [persistedProfile_eq isProfile normal]
  · obtain ⟨redeemed, isRedeemed, normal, roles, redeemedScopes⟩ := tracks.redeemed
    refine ⟨redeemed, isRedeemed, normal, ?_, ?_⟩
    · intro role
      simp only [roles, RedeemedRole, redeemedEvents]
    · intro scope
      simp only [redeemedScopes, RedeemedScope, redeemedEvents]
  · refine Or.inr ⟨_, _, rfl, rfl, ⟨verified.namesDevice, trim_trim deviceId⟩,
      ⟨verified.namesKey, normalizeBootstrapPublicKey_idem readsPem publicKey⟩, ?_⟩
    intro deviceId' publicKey' role' scopes' member
    rcases mem_cons.mp member with isNew | earlier
    · cases isNew
      exact ⟨rfl, rfl⟩
    · exact verified_sameDevice verified tracks earlier
  · intro profile isPending
    rw [← Option.some.inj isPending, resolveRequestedBootstrapProfile]
    exact normalProfile_normalize _
  · intro profile outstanding
    rcases outstanding with ⟨_, _, _, _, isEvent, isRequested⟩ | ⟨earlier, -⟩
    · cases isEvent
      exact congrArg some isRequested
    · exact congrArg some (verified_pending verified tracks earlier)

theorem follows_verified :
    Event.Follows host history (.verified record.token deviceId publicKey role scopes) := by
  refine ⟨fun _ _ _ _ => verified_sameDevice verified tracks, ?_,
    fun _ => verified_pending verified tracks⟩
  obtain ⟨profile, isProfile, normal, issued⟩ := tracks.profile
  have allowed := verified.allowed
  rw [persistedProfile_eq isProfile normal, bootstrapProfileAllowsRequest,
    Bool.and_eq_true, decide_eq_true_eq] at allowed
  exact ⟨profile, issued, allowed⟩

end Verify

section Redeem

variable {host : KeyHost} {role : String} {scopes : List String}
  {record : DeviceBootstrapTokenRecord} {history : List Event}

/-- The next redeemed profile is what was redeemed with this redemption. -/
theorem tracksRedeemed_next (tracks : Tracks host history record) (fully : Bool) :
    TracksRedeemed (.redeemed record.token role scopes fully :: history) record.token
      (nextRedeemedProfile record role scopes) := by
  obtain ⟨redeemed, isRedeemed, normal, roles, redeemedScopes⟩ := tracks.redeemed
  have persisted := persistedRedeemed_eq isRedeemed normal
  constructor
  · exact normalProfile_normalize _
  · intro other
    rw [nextRedeemedProfile, persisted]
    simp only [normalizeDeviceBootstrapProfile, bind_some]
    rw [mem_normalizeBootstrapRoles, RedeemedRole]
    refine and_congr_right fun nonEmpty => ?_
    constructor
    · rintro ⟨original, member, isOther⟩
      rcases mem_append.mp member with earlier | new
      · obtain ⟨-, given, givenScopes, givenFully, isEvent, isGiven⟩ := (roles original).mp earlier
        have trimmed := (normal.trimmedRoles original earlier).1
        exact ⟨given, givenScopes, givenFully, .tail _ isEvent,
          isGiven.trans (trimmed.symm.trans isOther)⟩
      · rw [mem_singleton] at new
        subst new
        exact ⟨original, scopes, fully, .head _, isOther⟩
    · rintro ⟨given, givenScopes, givenFully, isEvent, isGiven⟩
      rcases mem_cons.mp isEvent with new | earlier
      · cases new
        exact ⟨role, mem_append_right _ mem_cons_self, isGiven⟩
      · have isRole := (roles other).mpr
          ⟨nonEmpty, given, givenScopes, givenFully, earlier, isGiven⟩
        exact ⟨other, mem_append_left _ isRole, (normal.trimmedRoles other isRole).1⟩
  · intro scope
    rw [nextRedeemedProfile, persisted]
    simp only [normalizeDeviceBootstrapProfile, bind_some, getD_some]
    rw [mem_normalize_append normal.scopes (normalScopes_resolveForRole role scopes),
      redeemedScopes]
    constructor
    · rintro (⟨other, given, givenScopes, givenFully, isEvent, isGiven⟩ | new)
      · exact ⟨other, given, givenScopes, givenFully, .tail _ isEvent, isGiven⟩
      · exact ⟨trim role, role, scopes, fully, .head _, rfl, new⟩
    · rintro ⟨other, given, givenScopes, givenFully, isEvent, isGiven, isScope⟩
      rcases mem_cons.mp isEvent with new | earlier
      · cases new
        exact Or.inr isScope
      · exact Or.inl ⟨other, given, givenScopes, givenFully, earlier, isGiven, isScope⟩

theorem satisfies_iff_covers {token : String} {redeemed required : DeviceBootstrapProfile}
    (tracks : TracksRedeemed history token redeemed) (normal : NormalProfile required) :
    bootstrapProfileSatisfiesProfile redeemed required = true ↔ Covers token history required := by
  have noAdmin : operatorAdminScope ∉ redeemed.scopes := by
    intro member
    obtain ⟨role, given, scopes, fully, -, -, isScope⟩ := (tracks.scopes _).mp member
    exact not_admin_of_handoff (mem_resolveBootstrapProfileScopesForRole.mp isScope).2.2
  rw [bootstrapProfileSatisfiesProfile_iff tracks.normal.scopes noAdmin, Covers]
  refine forall₂_congr fun role isRole => ?_
  rw [tracks.roles]
  refine and_congr_right fun _ => forall₂_congr fun scope isScope => ?_
  rw [tracks.scopes]
  constructor
  · rintro ⟨other, given, givenScopes, fully, isEvent, -, inHandoff⟩
    have operator := (mem_resolveBootstrapProfileScopesForRole.mp inHandoff).1
    have isOperator := (mem_resolveBootstrapProfileScopesForRole.mp isScope).1
    have trimmed := (normal.trimmedRoles role isRole).1
    exact ⟨given, givenScopes, fully, isEvent,
      operator.trans (isOperator.symm.trans trimmed), inHandoff⟩
  · intro redeemedScope
    exact ⟨role, redeemedScope⟩

theorem tracks_redeemed (tracks : Tracks host history record) (fully : Bool) :
    Tracks host (.redeemed record.token role scopes fully :: history)
      { token := record.token
        ts := record.ts
        deviceId := record.deviceId
        publicKey := record.publicKey
        profile := some (resolvePersistedBootstrapProfile record)
        redeemedProfile := some (nextRedeemedProfile record role scopes)
        pendingProfile :=
          (resolvePersistedPendingProfile record).filter fun pending =>
            !bootstrapProfileSatisfiesProfile (nextRedeemedProfile record role scopes) pending
        roles := record.roles
        scopes := record.scopes
        issuedAtMs := record.issuedAtMs
        lastUsedAtMs := record.lastUsedAtMs } := by
  have next : TracksRedeemed (.redeemed record.token role scopes fully :: history)
      record.token (nextRedeemedProfile record role scopes) :=
    tracksRedeemed_next tracks fully
  have verifiedEvents : ∀ deviceId publicKey given givenScopes,
      Event.verified record.token deviceId publicKey given givenScopes ∈
          .redeemed record.token role scopes fully :: history ↔
        Event.verified record.token deviceId publicKey given givenScopes ∈ history := by
    simp
  have kept := persistedPending_eq tracks.normalPending
  constructor
  · exact tracks.noLists
  · obtain ⟨profile, isProfile, normal, issued⟩ := tracks.profile
    refine ⟨profile, ?_, normal, .tail _ issued⟩
    rw [persistedProfile_eq isProfile normal]
  · exact ⟨_, rfl, next⟩
  · simpa only [TracksDevice, verifiedEvents] using tracks.device
  · intro profile isPending
    rw [kept] at isPending
    exact tracks.normalPending profile (filter_eq_some_iff.mp isPending).1
  · intro profile outstanding
    rcases outstanding with ⟨_, _, _, _, impossible, -⟩ | ⟨earlier, notCovered⟩
    · cases impossible
    · have isPending := tracks.pending profile earlier
      rw [kept]
      refine filter_eq_some_iff.mpr ⟨isPending, ?_⟩
      rw [Bool.not_eq_true', ← Bool.not_eq_true,
        satisfies_iff_covers next (tracks.normalPending profile isPending)]
      exact fun covers => notCovered ⟨⟨role, scopes, fully, rfl⟩, covers⟩

theorem follows_redeemed (tracks : Tracks host history record) : Event.Follows host history
      (.redeemed record.token role scopes
        (bootstrapProfileSatisfiesProfile (nextRedeemedProfile record role scopes)
          (resolvePersistedBootstrapProfile record))) := by
  obtain ⟨profile, isProfile, normal, issued⟩ := tracks.profile
  refine ⟨profile, issued, ?_⟩
  rw [persistedProfile_eq isProfile normal]
  exact satisfies_iff_covers (tracksRedeemed_next tracks _) normal

end Redeem

variable {host : KeyHost} {record : DeviceBootstrapTokenRecord}

section

variable (invariant : Invariant host system)
include invariant

/-- A record is stored for a call that was granted. -/
theorem Invariant.store (nowMs : ℤ)
    (tracks : Tracks host (event :: system.history) record) (own : event.token = record.token)
    (notRevoked : ∀ other ∈ system.revoked, other.token ≠ record.token)
    (boundOnce : BoundOnce host (event :: system.history)) : Invariant host
      { file := (loadState nowMs system.file).set record.token record
        revoked := system.revoked
        history := event :: system.history } := by
  constructor
  · intro key stored found
    by_cases same : key = record.token
    · subst same
      rw [get?_set_self] at found
      cases found
      exact ⟨rfl, tracks⟩
    · rw [get?_set_of_ne same] at found
      obtain ⟨isKey, storedTracks⟩ := invariant.keyed (invariant.loaded found)
      refine ⟨isKey, storedTracks.cons_of_otherToken ?_⟩
      rw [own, isKey]
      exact Ne.symm same
  · intro other isRevoked
    rw [get?_set_of_ne (notRevoked other isRevoked)]
    exact eq_none_iff_forall_ne_some.mpr fun stored found => by
      have absent := invariant.absent other isRevoked
      rw [invariant.loaded found] at absent
      cases absent
  · intro other isRevoked
    refine (invariant.revoked other isRevoked).cons_of_otherToken ?_
    rw [own]
    exact (notRevoked other isRevoked).symm
  · exact invariant.revokedOnce
  · exact boundOnce

theorem Invariant.shrink {file : DeviceBootstrapStateFile}
    (within : ∀ key record, file.get? key = some record → system.file.get? key = some record) :
    Invariant host
      { file := file
        revoked := system.revoked
        history := system.history } := by
  constructor
  · intro key record found
    exact invariant.keyed (within key record found)
  · intro other isRevoked
    exact eq_none_iff_forall_ne_some.mpr fun stored found => by
      have absent := invariant.absent other isRevoked
      rw [within _ _ found] at absent
      cases absent
  · exact invariant.revoked
  · exact invariant.revokedOnce
  · exact invariant.boundOnce

/-- A revoked record is nowhere but with whoever revoked it. -/
theorem Invariant.revoke {nowMs : ℤ} {providedToken tokenKey : String}
    (found : findToken? providedToken (loadState nowMs system.file) = some (tokenKey, record)) :
    Invariant host
      { file := (loadState nowMs system.file).delete tokenKey
        revoked := record :: system.revoked
        history := system.history } := by
  obtain ⟨inFile, isProvided, isToken, tracks⟩ := invariant.foundRecord found
  have isKey : record.token = tokenKey := isToken.trans isProvided.symm
  have apart : ∀ other ∈ system.revoked, other.token ≠ record.token := by
    intro other isRevoked same
    have absent := invariant.absent other isRevoked
    rw [same, isKey, inFile] at absent
    cases absent
  have shrunk := invariant.shrink (fun key stored isStored => by
      by_cases same : key = tokenKey
      · rw [same, get?_delete_self] at isStored
        cases isStored
      · rw [get?_delete_of_ne same] at isStored
        exact invariant.loaded isStored : ∀ key stored,
        ((loadState nowMs system.file).delete tokenKey).get? key = some stored →
          system.file.get? key = some stored)
  constructor
  · exact shrunk.keyed
  · intro other isRevoked
    rcases mem_cons.mp isRevoked with rfl | earlier
    · rw [isKey]
      exact get?_delete_self _ _
    · exact shrunk.absent other earlier
  · intro other isRevoked
    rcases mem_cons.mp isRevoked with rfl | earlier
    · exact tracks
    · exact invariant.revoked other earlier
  · rw [map_cons, nodup_cons]
    refine ⟨?_, invariant.revokedOnce⟩
    intro member
    obtain ⟨other, isRevoked, same⟩ := mem_map.mp member
    exact apart other isRevoked same
  · exact invariant.boundOnce

/-- A restored record is in the file again, and nowhere else. -/
theorem Invariant.restore (nowMs : ℤ) (returned : record ∈ system.revoked) : Invariant host
      { file := restoreDeviceBootstrapToken nowMs record system.file
        revoked := system.revoked.erase record
        history := system.history } := by
  have split := perm_cons_erase returned
  have tokens := (split.map DeviceBootstrapTokenRecord.token).nodup_iff.mp invariant.revokedOnce
  rw [map_cons, nodup_cons] at tokens
  obtain ⟨once, othersOnce⟩ := tokens
  have isOther : ∀ other ∈ system.revoked.erase record,
      other ∈ system.revoked ∧ other.token ≠ record.token := by
    intro other member
    refine ⟨mem_of_mem_erase member, ?_⟩
    intro same
    exact once (mem_map.mpr ⟨other, member, same⟩)
  unfold restoreDeviceBootstrapToken
  constructor
  · intro key stored found
    by_cases same : key = record.token
    · subst same
      rw [get?_set_self] at found
      cases found
      exact ⟨rfl, invariant.revoked record returned⟩
    · rw [get?_set_of_ne same] at found
      exact invariant.keyed (invariant.loaded found)
  · intro other member
    obtain ⟨isRevoked, differs⟩ := isOther other member
    rw [get?_set_of_ne differs]
    exact eq_none_iff_forall_ne_some.mpr fun stored found => by
      have absent := invariant.absent other isRevoked
      rw [invariant.loaded found] at absent
      cases absent
  · intro other member
    exact invariant.revoked other (isOther other member).1
  · exact othersOnce
  · exact invariant.boundOnce

end

theorem Invariant.initial (host : KeyHost) : Invariant host .initial := by
  constructor
  · intro key record found
    cases found
  · intro record isRevoked
    cases isRevoked
  · intro record isRevoked
    cases isRevoked
  · exact nodup_nil
  · constructor
    · intro token profile other member
      cases member
    · intro token _ _ _ _ _ _ _ _ member
      cases member
    · intro token _ _ _ _ member
      cases member
    · intro token _ _ _ _ later earlier split
      cases later with
      | nil => cases split
      | cons event later => cases split
    · intro token _ _ _ later earlier split
      cases later with
      | nil => cases split
      | cons event later => cases split

/-- Every call keeps the invariant. -/
theorem Invariant.step (readsPem : host.ReadsPem) {next : System}
    (step : Step host system next) (invariant : Invariant host system) : Invariant host next := by
  have notRevoked : ∀ {tokenKey : String} {record : DeviceBootstrapTokenRecord},
      system.file.get? tokenKey = some record → record.token = tokenKey →
        ∀ other ∈ system.revoked, other.token ≠ record.token := by
    intro tokenKey record inFile isKey other isRevoked same
    have absent := invariant.absent other isRevoked
    rw [same, isKey, inFile] at absent
    cases absent
  cases step with
  | issue nowMs token params _ isNew =>
    refine invariant.store nowMs (tracks_issued isNew) rfl ?_ (invariant.boundOnce.cons isNew)
    intro other isRevoked same
    obtain ⟨profile, -, -, issued⟩ := (invariant.revoked other isRevoked).profile
    exact isNew _ issued same
  | verify nowMs token deviceId publicKey role scopes =>
    rcases verifyDeviceBootstrapToken_cases host nowMs token deviceId publicKey role
        scopes system.file with
      refused | ⟨succeeded, tokenKey, record, verified⟩
    · rw [refused]
      exact invariant
    · obtain ⟨inFile, isProvided, isToken, tracks⟩ := invariant.foundRecord verified.found
      have apart := notRevoked inFile (isToken.trans isProvided.symm)
      rw [if_pos succeeded, verified.after, isProvided, ← isToken]
      exact invariant.store nowMs (tracks_verified verified tracks readsPem) rfl
        apart (invariant.boundOnce.cons (follows_verified verified tracks))
  | redeem nowMs token role scopes =>
    rcases redeemDeviceBootstrapTokenProfile_cases nowMs token role scopes system.file with
      refused | ⟨tokenKey, record, found, redeemed⟩
    · rw [refused]
      exact invariant
    · obtain ⟨inFile, isProvided, isToken, tracks⟩ := invariant.foundRecord found
      have apart := notRevoked inFile (isToken.trans isProvided.symm)
      rw [redeemed, isProvided, ← isToken]
      exact invariant.store nowMs (tracks_redeemed tracks _) rfl apart
        (invariant.boundOnce.cons (follows_redeemed tracks))
  | revoke nowMs token =>
    rcases revokeDeviceBootstrapToken_cases nowMs token system.file with
      refused | ⟨tokenKey, record, found, revoked⟩
    · rw [refused]
      exact invariant
    · rw [revoked]
      exact invariant.revoke found
  | restore nowMs record _ returned => exact invariant.restore nowMs returned
  | revokeForDevice nowMs deviceId publicKey =>
    refine invariant.shrink fun key record found => ?_
    unfold revokeDeviceBootstrapTokensForDevice at found
    extract_lets trimmed normalKey state isOfDevice removed at found
    split at found
    · exact found
    · split at found
      · exact found
      · exact invariant.loaded (get?_filter_eq_some_iff.mp found).1
  | clear nowMs =>
    refine invariant.shrink fun key record found => ?_
    cases found

/-- In every run tokens are bound once. -/
theorem boundOnce_of_reachable (host : KeyHost) (readsPem : host.ReadsPem) {system : System}
    (reachable : Reachable host system) : BoundOnce host system.history := by
  have invariant : Invariant host system := by
    induction reachable with
    | refl => exact Invariant.initial host
    | tail _ step inductionHypothesis => exact inductionHypothesis.step readsPem step
  exact invariant.boundOnce

private def plainKeyHost : KeyHost :=
  { bufferFromBase64 := fun _ => []
    createPublicKeySpki := fun _ => none }

private def nodeParams : IssueParams :=
  { profile := some { roles := some ["node"], scopes := none }
    roles := none
    scopes := none }

private def verifiedBy (deviceId publicKey : String) (file : DeviceBootstrapStateFile) :
    Bool × DeviceBootstrapStateFile :=
  verifyDeviceBootstrapToken plainKeyHost 0 "token" deviceId publicKey "node" [] file

private def issuedSystem : System :=
  { file := issueDeviceBootstrapToken 0 "token" nodeParams .empty
    revoked := []
    history := [.issued "token" (resolveIssuedBootstrapProfile nodeParams)] }

private def checkedBy (system : System) (deviceId publicKey : String) : System :=
  { file := (verifiedBy deviceId publicKey system.file).2
    revoked := system.revoked
    history :=
      if (verifiedBy deviceId publicKey system.file).1 then
        .verified (trim "token") deviceId publicKey "node" [] :: system.history
      else system.history }

/-- One device verifies the token twice, and another one tries in between. -/
private def triedByTwo : System :=
  checkedBy (checkedBy (checkedBy issuedSystem "device-a" "key-a") "device-b" "key-b")
    "device-a" "key-a"

theorem verified_token_boundOnce :
    triedByTwo.history.length = 3 ∧ BoundOnce plainKeyHost triedByTwo.history := by
  have issued : Reachable plainKeyHost issuedSystem :=
    .tail .refl (.issue 0 "token" nodeParams .initial fun _ member => by cases member)
  have tried {system : System} (reachable : Reachable plainKeyHost system)
      (deviceId publicKey : String) :
      Reachable plainKeyHost (checkedBy system deviceId publicKey) :=
    .tail reachable (.verify 0 "token" deviceId publicKey "node" [] system)
  exact ⟨by decide +kernel,
    boundOnce_of_reachable plainKeyHost (fun _ _ => rfl) (tried (tried (tried issued _ _) _ _) _ _)⟩

private def issuedFile : DeviceBootstrapStateFile :=
  issueDeviceBootstrapToken 0 "token" nodeParams .empty

private def revokedToken : Option DeviceBootstrapTokenRecord × DeviceBootstrapStateFile :=
  revokeDeviceBootstrapToken 0 "token" issuedFile

private def restoredTo (file : DeviceBootstrapStateFile) : DeviceBootstrapStateFile :=
  revokedToken.1.elim file fun record => restoreDeviceBootstrapToken 0 record file

private def redeemedNode (file : DeviceBootstrapStateFile) :
    Redemption × DeviceBootstrapStateFile :=
  redeemDeviceBootstrapTokenProfile 0 "token" "node" [] file

private def boundToken : Bool × DeviceBootstrapStateFile :=
  verifiedBy "device-a" "key-a" (restoredTo revokedToken.2)

private def redeemedToken : Redemption × DeviceBootstrapStateFile := redeemedNode issuedFile

/--
Restoring the same record a second time lets another device bind the token, a
device id may be given with blanks around it, and a token that is gone is never
reported as fully redeemed.
-/
theorem restored_twice_rebinds :
    (boundToken.1 = true ∧
        (verifiedBy " device-a" "key-a" boundToken.2).1 = true ∧
          (verifiedBy "device-b" "key-b" (restoredTo boundToken.2)).1 = true) ∧
      redeemedToken.1.fullyRedeemed = true ∧
        (redeemedNode (revokeDeviceBootstrapToken 0 "token" redeemedToken.2).2).1 =
          { recorded := false, fullyRedeemed := false } := by
  decide +kernel

end DeviceBootstrap
