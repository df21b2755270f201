import AieClaw.OrderedMap
import AieClaw.SessionKeys
import Mathlib.Algebra.Order.Ring.Rat

/-!
# Usage of auth profiles

A profile carries three windows in which it is not used: a cooldown after failures, a
disabled window after billing and permanent authorization failures, and a block until a
known time. The reason and the model of the cooldown decide whether another model may use
the profile all the same.
-/

namespace AuthProfiles

inductive FailureReason where
  | auth
  | authPermanent
  | format
  | overloaded
  | rateLimit
  | billing
  | timeout
  | modelNotFound
  | sessionExpired
  | emptyResponse
  | noErrorDetails
  | unclassified
  | unknown
  deriving DecidableEq

inductive BlockedReason where
  | subscriptionLimit
  deriving DecidableEq

inductive BlockedSource where
  | codexRateLimits
  | wham
  deriving DecidableEq

structure ProfileUsageStats where
  lastUsed : Option ℚ := none
  blockedUntil : Option ℚ := none
  blockedReason : Option BlockedReason := none
  blockedSource : Option BlockedSource := none
  blockedModel : Option String := none
  cooldownUntil : Option ℚ := none
  cooldownReason : Option FailureReason := none
  cooldownModel : Option String := none
  disabledUntil : Option ℚ := none
  disabledReason : Option FailureReason := none
  errorCount : Option ℕ := none
  failureCounts : Option (OrderedMap FailureReason ℕ) := none
  lastFailureAt : Option ℚ := none

/-- A store: the providers of its profiles, and their usage. -/
structure AuthProfileStore where
  profiles : OrderedMap String String
  usageStats : OrderedMap String ProfileUsageStats

section Providers

variable (toLowerCase : String → String)

def normalizeProviderId (provider : String) : String :=
  let normalized := SessionKeys.normalizeLowercaseStringOrEmpty toLowerCase provider
  if normalized = "modelstudio" ∨ normalized = "qwencloud" then "qwen"
  else if normalized = "z.ai" ∨ normalized = "z-ai" then "zai"
  else if normalized = "opencode-zen" then "opencode"
  else if normalized = "opencode-go-auth" then "opencode-go"
  else if normalized = "anthropic-cli" then "claude-cli"
  else if normalized = "kimi" ∨ normalized = "kimi-code" ∨ normalized = "kimi-coding" then "kimi"
  else if normalized = "moonshotai" ∨ normalized = "moonshot-ai" then "moonshot"
  else if normalized = "bedrock" ∨ normalized = "aws-bedrock" then "amazon-bedrock"
  else if normalized = "bytedance" ∨ normalized = "doubao" then "volcengine"
  else normalized

def isAuthCooldownBypassedForProvider (provider : Option String) : Bool :=
  let normalized := normalizeProviderId toLowerCase (provider.getD "")
  normalized = "openrouter" || normalized = "kilocode"

end Providers

def isTruthyText (text : Option String) : Bool := text.any fun text => text ≠ ""

def isActiveUnusableWindow (until_ : Option ℚ) (now : ℚ) : Bool :=
  until_.any fun until_ => 0 < until_ && now < until_

namespace ProfileUsageStats

def resolveProfileUnusableUntil (stats : ProfileUsageStats) : Option ℚ :=
  (([stats.blockedUntil, stats.cooldownUntil, stats.disabledUntil].filterMap id).filter
    fun value => 0 < value).max?

def shouldBypassModelScopedCooldown (stats : ProfileUsageStats) (now : ℚ)
    (forModel : Option String) : Bool :=
  isTruthyText forModel && stats.cooldownReason = some .rateLimit &&
    isTruthyText stats.cooldownModel && stats.cooldownModel ≠ forModel &&
    !isActiveUnusableWindow stats.disabledUntil now

/-- The part of `isProfileInCooldown` that reads the usage of the profile. -/
def inCooldown (stats : ProfileUsageStats) (now : ℚ) (forModel : Option String) : Bool :=
  if stats.shouldBypassModelScopedCooldown now forModel then false
  else stats.resolveProfileUnusableUntil.any fun unusableUntil => now < unusableUntil

end ProfileUsageStats

variable (toLowerCase : String → String)

def isProfileInCooldown (store : AuthProfileStore)
    (profileId : String) (now : ℚ) (forModel : Option String) : Bool :=
  if isAuthCooldownBypassedForProvider toLowerCase (store.profiles.get? profileId) then false
  else
    match store.usageStats.get? profileId with
    | none => false
    | some stats => stats.inCooldown now forModel

/-- Whether a window has an end that has passed. -/
def isExpired (until_ : Option ℚ) (now : ℚ) : Bool :=
  until_.any fun until_ => 0 < until_ && until_ ≤ now

/-- What `clearExpiredCooldowns` does to one profile. -/
def ProfileUsageStats.clearExpired (stats : ProfileUsageStats) (now : ℚ) : ProfileUsageStats :=
  let cooldownExpired := isExpired stats.cooldownUntil now
  let blockedExpired := isExpired stats.blockedUntil now
  let disabledExpired := isExpired stats.disabledUntil now
  let stats :=
    if cooldownExpired then
      { stats with cooldownUntil := none, cooldownReason := none, cooldownModel := none }
    else stats
  let stats :=
    if blockedExpired then
      { stats with
        blockedUntil := none
        blockedReason := none
        blockedSource := none
        blockedModel := none }
    else stats
  let stats :=
    if disabledExpired then { stats with disabledUntil := none, disabledReason := none }
    else stats
  if (cooldownExpired || blockedExpired || disabledExpired) &&
      stats.resolveProfileUnusableUntil.isNone then
    { stats with errorCount := some 0, failureCounts := none }
  else stats

def clearExpiredCooldowns (store : AuthProfileStore) (now : ℚ) : AuthProfileStore :=
  { store with usageStats := store.usageStats.mapValues fun stats => stats.clearExpired now }

def calculateAuthProfileCooldownMs (errorCount : ℕ) : ℚ :=
  let normalized := max 1 errorCount
  if normalized ≤ 1 then 30000
  else if normalized ≤ 2 then 60000
  else 5 * 60000

structure CooldownsConfig where
  billingBackoffHoursByProvider : Option (OrderedMap String ℚ) := none
  billingBackoffHours : Option ℚ := none
  billingMaxHours : Option ℚ := none
  authPermanentBackoffMinutes : Option ℚ := none
  authPermanentMaxMinutes : Option ℚ := none
  failureWindowHours : Option ℚ := none

structure ResolvedAuthCooldownConfig where
  billingBackoffMs : ℚ
  billingMaxMs : ℚ
  authPermanentBackoffMs : ℚ
  authPermanentMaxMs : ℚ
  failureWindowMs : ℚ

def resolvePositiveNumber (value : Option ℚ) (fallback : ℚ) : ℚ :=
  (value.filter fun value => 0 < value).getD fallback

def resolveAuthCooldownConfig (cooldowns : CooldownsConfig)
    (providerId : String) : ResolvedAuthCooldownConfig :=
  let billingOverride := cooldowns.billingBackoffHoursByProvider.bind fun map =>
    (map.entries.find? fun entry => normalizeProviderId toLowerCase entry.1 = providerId).map
      Prod.snd
  { billingBackoffMs :=
      resolvePositiveNumber (billingOverride <|> cooldowns.billingBackoffHours) 5 * 60 * 60 * 1000
    billingMaxMs := resolvePositiveNumber cooldowns.billingMaxHours 24 * 60 * 60 * 1000
    authPermanentBackoffMs :=
      resolvePositiveNumber cooldowns.authPermanentBackoffMinutes 10 * 60 * 1000
    authPermanentMaxMs := resolvePositiveNumber cooldowns.authPermanentMaxMinutes 60 * 60 * 1000
    failureWindowMs := resolvePositiveNumber cooldowns.failureWindowHours 24 * 60 * 60 * 1000 }

def calculateDisabledLaneBackoffMs (errorCount : ℕ) (baseMs maxMs : ℚ) : ℚ :=
  let normalized := max 1 errorCount
  let baseMs := max 60000 baseMs
  let maxMs := max baseMs maxMs
  let exponent := min (normalized - 1) 10
  min maxMs (baseMs * 2 ^ exponent)

def keepActiveWindowOrRecompute (existingUntil : Option ℚ) (now recomputedUntil : ℚ) : ℚ :=
  (existingUntil.filter fun existingUntil => now < existingUntil).getD recomputedUntil

def ResolvedAuthCooldownConfig.disabledBackoff (cfgResolved : ResolvedAuthCooldownConfig) :
    FailureReason → Option (ℚ × ℚ)
  | .billing => some (cfgResolved.billingBackoffMs, cfgResolved.billingMaxMs)
  | .authPermanent => some (cfgResolved.authPermanentBackoffMs, cfgResolved.authPermanentMaxMs)
  | _ => none

/-- The model of the cooldown after another failure during an active window. -/
def widenCooldownModel (cooldownModel : Option String) (reason : FailureReason)
    (modelId : Option String) : Option String :=
  if isTruthyText cooldownModel ∧ isTruthyText modelId ∧ cooldownModel ≠ modelId then none
  else if reason = .rateLimit ∧ ¬ isTruthyText modelId ∧ isTruthyText cooldownModel then none
  else if reason ≠ .rateLimit then none
  else cooldownModel

def computeNextProfileUsageStats (existing : ProfileUsageStats) (now : ℚ)
    (reason : FailureReason) (cfgResolved : ResolvedAuthCooldownConfig) (modelId : Option String) :
    ProfileUsageStats :=
  let windowExpired := existing.lastFailureAt.any fun lastFailureAt =>
    0 < lastFailureAt && cfgResolved.failureWindowMs < now - lastFailureAt
  let previousCooldownExpired := existing.resolveProfileUnusableUntil.any fun unusableUntil =>
    unusableUntil ≤ now
  let shouldResetCounters := windowExpired || previousCooldownExpired
  let baseErrorCount := if shouldResetCounters then 0 else existing.errorCount.getD 0
  let nextErrorCount := baseErrorCount + 1
  let kept :=
    if shouldResetCounters then OrderedMap.empty
    else existing.failureCounts.getD OrderedMap.empty
  let failureCounts := kept.set reason ((kept.get? reason).getD 0 + 1)
  let updatedStats :=
    { existing with
      errorCount := some nextErrorCount
      failureCounts := some failureCounts
      lastFailureAt := some now }
  match cfgResolved.disabledBackoff reason with
  | some (baseMs, maxMs) =>
    let backoffMs :=
      calculateDisabledLaneBackoffMs ((failureCounts.get? reason).getD 1) baseMs maxMs
    { updatedStats with
      disabledUntil :=
        some (keepActiveWindowOrRecompute existing.disabledUntil now (now + backoffMs))
      disabledReason := some reason }
  | none =>
    let backoffMs := calculateAuthProfileCooldownMs nextErrorCount
    let existingCooldownActive := existing.cooldownUntil.any fun cooldownUntil =>
      now < cooldownUntil
    { updatedStats with
      cooldownUntil :=
        some (keepActiveWindowOrRecompute existing.cooldownUntil now (now + backoffMs))
      cooldownReason := some reason
      cooldownModel :=
        if existingCooldownActive then widenCooldownModel existing.cooldownModel reason modelId
        else if reason = .rateLimit then modelId
        else none }

/-- What the usage probe of a provider answers. -/
structure WhamCooldownProbeResult where
  cooldownMs : ℚ
  blockedUntil : Option ℚ := none
  blockedSource : Option BlockedSource := none

/-- The end of a window that is active, else zero. -/
def activeUntil (until_ : Option ℚ) (now : ℚ) : ℚ :=
  (until_.filter fun until_ => now < until_).getD 0

/-- The time until which an answer of the probe blocks the profile. -/
def WhamCooldownProbeResult.blocks (whamResult : WhamCooldownProbeResult) : Option ℚ :=
  whamResult.blockedUntil.filter fun blockedUntil => blockedUntil ≠ 0

def applyWhamCooldownResult (existing computed : ProfileUsageStats) (now : ℚ)
    (whamResult : WhamCooldownProbeResult) : ProfileUsageStats :=
  match whamResult.blocks with
  | some blockedUntil =>
    { computed with
      blockedUntil := some (max (activeUntil existing.blockedUntil now) blockedUntil)
      blockedReason := some .subscriptionLimit
      blockedSource := some (whamResult.blockedSource.getD .wham)
      blockedModel := none
      cooldownUntil := none
      cooldownReason := none
      cooldownModel := none }
  | none =>
    { computed with
      cooldownUntil :=
        some (max (activeUntil existing.cooldownUntil now) (now + whamResult.cooldownMs)) }

def shouldProbeWhamForFailure (provider : String)
    (reason : FailureReason) : Bool :=
  normalizeProviderId toLowerCase provider = "openai-codex" &&
    (reason = .rateLimit || reason = .emptyResponse || reason = .noErrorDetails ||
      reason = .unclassified || reason = .unknown)

/-- What `markAuthProfileFailure` stores for a profile of a provider. -/
def ProfileUsageStats.fail (existing : ProfileUsageStats) (now : ℚ) (reason : FailureReason)
    (cfgResolved : ResolvedAuthCooldownConfig) (modelId : Option String)
    (whamResult : Option WhamCooldownProbeResult) : ProfileUsageStats :=
  let computed := computeNextProfileUsageStats existing now reason cfgResolved modelId
  match whamResult with
  | some whamResult => applyWhamCooldownResult existing computed now whamResult
  | none => computed

def updateUsageStatsEntry (store : AuthProfileStore) (profileId : String)
    (updater : ProfileUsageStats → ProfileUsageStats) : AuthProfileStore :=
  { store with
    usageStats :=
      store.usageStats.set profileId (updater ((store.usageStats.get? profileId).getD {})) }

/-- The answer of the probe, when one is made. -/
def probed (provider : String) (reason : FailureReason)
    (whamResult : Option WhamCooldownProbeResult) : Option WhamCooldownProbeResult :=
  whamResult.filter fun _ => shouldProbeWhamForFailure toLowerCase provider reason

def markAuthProfileFailure (store : AuthProfileStore)
    (profileId : String) (reason : FailureReason) (cfg : CooldownsConfig)
    (modelId : Option String) (whamResult : Option WhamCooldownProbeResult) (now : ℚ) :
    AuthProfileStore :=
  match store.profiles.get? profileId with
  | none => store
  | some provider =>
    if isAuthCooldownBypassedForProvider toLowerCase (some provider) then store
    else
      let cfgResolved :=
        resolveAuthCooldownConfig toLowerCase cfg (normalizeProviderId toLowerCase provider)
      updateUsageStatsEntry store profileId fun existing =>
        existing.fail now reason cfgResolved modelId (probed toLowerCase provider reason whamResult)

/-- What `markAuthProfileBlockedUntil` stores for a profile. -/
def ProfileUsageStats.block (previousStats : ProfileUsageStats) (now blockedUntil : ℚ)
    (source : BlockedSource) (modelId : Option String) : ProfileUsageStats :=
  let counts := previousStats.failureCounts.getD OrderedMap.empty
  { previousStats with
    blockedUntil := some (max (activeUntil previousStats.blockedUntil now) blockedUntil)
    blockedReason := some .subscriptionLimit
    blockedSource := some source
    blockedModel := modelId
    cooldownUntil := none
    cooldownReason := none
    cooldownModel := none
    lastFailureAt := some now
    failureCounts := some (counts.set .rateLimit ((counts.get? .rateLimit).getD 0 + 1)) }

/-- A block that is over when the call begins is not recorded. -/
def markAuthProfileBlockedUntil (store : AuthProfileStore)
    (profileId : String) (blockedUntil : ℚ) (source : BlockedSource)
    (modelId : Option String) (calledAt now : ℚ) : AuthProfileStore :=
  match store.profiles.get? profileId with
  | none => store
  | some provider =>
    if isAuthCooldownBypassedForProvider toLowerCase (some provider) ∨ blockedUntil ≤ calledAt then
      store
    else
      updateUsageStatsEntry store profileId fun previousStats =>
        previousStats.block now blockedUntil source modelId

inductive Call where
  | failure
      (profileId : String) (reason : FailureReason) (cfg : CooldownsConfig)
      (modelId : Option String) (whamResult : Option WhamCooldownProbeResult) (now : ℚ)
  | blockedUntil
      (profileId : String) (blockedUntil : ℚ) (source : BlockedSource)
      (modelId : Option String) (calledAt now : ℚ)
  | clearExpired (now : ℚ)

/-- The time at which the call changes the store. -/
def Call.now : Call → ℚ
  | .failure _ _ _ _ _ now => now
  | .blockedUntil _ _ _ _ _ now => now
  | .clearExpired now => now

def AuthProfileStore.perform (store : AuthProfileStore) :
    Call → AuthProfileStore
  | .failure profileId reason cfg modelId whamResult now =>
    markAuthProfileFailure toLowerCase store profileId reason cfg modelId whamResult now
  | .blockedUntil profileId blockedUntil source modelId calledAt now =>
    markAuthProfileBlockedUntil toLowerCase store profileId blockedUntil source modelId calledAt now
  | .clearExpired now => clearExpiredCooldowns store now

end AuthProfiles
