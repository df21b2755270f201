import AieClaw.AuthProfileUsage

/-!
# Cooldowns that are not undercut

When a call may leave a profile usable sooner, or for more models, than it was before. Only
the disabled window overrides the scope of a cooldown, so a block is lost on other models
when a rate limit names a model; and a block takes the place of a cooldown that may last
longer.
-/

namespace AuthProfiles

open AuthProfileStore Option

/-- The window still lasts at a time. -/
def Active (until_ : Option ℚ) (time : ℚ) : Prop := ∃ stop, until_ = some stop ∧ time < stop

variable {until_ : Option ℚ} {time recomputedUntil : ℚ}

theorem Active.anti {earlier later : ℚ} (active : Active until_ later) (before : earlier ≤ later) :
    Active until_ earlier := by
  obtain ⟨stop, isStop, lasts⟩ := active
  exact ⟨stop, isStop, lt_of_le_of_lt before lasts⟩

theorem active_some {stop : ℚ} : Active (some stop) time ↔ time < stop :=
  ⟨fun ⟨_, isStop, lasts⟩ => Option.some.inj isStop ▸ lasts, fun lasts => ⟨stop, rfl, lasts⟩⟩

theorem not_active_none : ¬ Active none time :=
  fun ⟨_, isStop, _⟩ => absurd isStop (by simp)

theorem isActiveUnusableWindow_iff (notBefore : 0 ≤ time) :
    isActiveUnusableWindow until_ time = true ↔ Active until_ time := by
  cases until_ with
  | none => exact ⟨fun absurd_ => absurd absurd_ (by simp [isActiveUnusableWindow]),
      fun active => absurd active not_active_none⟩
  | some stop =>
    rw [active_some, isActiveUnusableWindow, any_some, Bool.and_eq_true,
      decide_eq_true_eq, decide_eq_true_eq]
    exact ⟨And.right, fun lasts => ⟨lt_of_le_of_lt notBefore lasts, lasts⟩⟩

theorem isActiveUnusable_iff :
    (until_.any fun until_ => time < until_) = true ↔ Active until_ time := by
  cases until_ with
  | none => exact ⟨fun absurd_ => absurd absurd_ (by simp),
      fun active => absurd active not_active_none⟩
  | some stop => rw [active_some, any_some, decide_eq_true_eq]

theorem active_keepActiveWindowOrRecompute
    {now : ℚ} (active : Active until_ time) (later : now ≤ time) :
    Active (some (keepActiveWindowOrRecompute until_ now recomputedUntil)) time := by
  obtain ⟨stop, rfl, lasts⟩ := active
  rw [active_some, keepActiveWindowOrRecompute, filter_some,
    if_pos (decide_eq_true (lt_of_le_of_lt later lasts)), getD_some]
  exact lasts

theorem keepActiveWindowOrRecompute_of_active {now : ℚ} (active : Active until_ now) :
    some (keepActiveWindowOrRecompute until_ now recomputedUntil) = until_ := by
  obtain ⟨stop, rfl, lasts⟩ := active
  rw [keepActiveWindowOrRecompute, filter_some, if_pos (decide_eq_true lasts), getD_some]

theorem lt_activeUntil {now : ℚ} (active : Active until_ time)
    (later : now ≤ time) : time < activeUntil until_ now := by
  obtain ⟨stop, rfl, lasts⟩ := active
  rw [activeUntil, filter_some, if_pos (decide_eq_true (lt_of_le_of_lt later lasts)), getD_some]
  exact lasts

namespace ProfileUsageStats

variable {stats : ProfileUsageStats} {time : ℚ}

/-- One of the three windows still lasts. -/
def Unusable (stats : ProfileUsageStats) (time : ℚ) : Prop :=
  Active stats.blockedUntil time ∨ Active stats.cooldownUntil time ∨ Active stats.disabledUntil time

/-- The cooldown holds for one model only. -/
def Scoped (stats : ProfileUsageStats) : Prop :=
  stats.cooldownReason = some .rateLimit ∧ isTruthyText stats.cooldownModel = true

/-- The cooldown holds for another model only. -/
def ScopedAway (stats : ProfileUsageStats) (forModel : Option String) : Prop :=
  stats.Scoped ∧ isTruthyText forModel = true ∧ stats.cooldownModel ≠ forModel

theorem shouldBypass_iff {forModel : Option String} (notBefore : 0 ≤ time) :
    stats.shouldBypassModelScopedCooldown time forModel = true ↔
      stats.ScopedAway forModel ∧ ¬ Active stats.disabledUntil time := by
  rw [← isActiveUnusableWindow_iff notBefore]
  simp only [shouldBypassModelScopedCooldown, ScopedAway, Scoped, Bool.and_eq_true,
    decide_eq_true_eq, Bool.not_eq_true']
  rw [Bool.not_eq_true]
  tauto

theorem resolveProfileUnusableUntil_iff (notBefore : 0 ≤ time) :
    (stats.resolveProfileUnusableUntil.any fun unusableUntil => time < unusableUntil) = true ↔
      stats.Unusable time := by
  have values : ∀ stop, stop ∈ ([stats.blockedUntil, stats.cooldownUntil,
      stats.disabledUntil].filterMap id).filter (fun value => 0 < value) ↔
        (stats.blockedUntil = some stop ∨ stats.cooldownUntil = some stop ∨
          stats.disabledUntil = some stop) ∧ 0 < stop := by
    intro stop
    simp [eq_comm]
  rw [resolveProfileUnusableUntil, any_eq_true]
  constructor
  · rintro ⟨stop, isLargest, lasts⟩
    have lasts := of_decide_eq_true lasts
    obtain ⟨isStop, _⟩ := (values stop).mp ((List.max?_eq_some_iff.mp isLargest).1)
    rcases isStop with isBlocked | isCooldown | isDisabled
    · exact Or.inl ⟨stop, isBlocked, lasts⟩
    · exact Or.inr (Or.inl ⟨stop, isCooldown, lasts⟩)
    · exact Or.inr (Or.inr ⟨stop, isDisabled, lasts⟩)
  · intro unusable
    obtain ⟨stop, isStop, lasts⟩ : ∃ stop, (stats.blockedUntil = some stop ∨
        stats.cooldownUntil = some stop ∨ stats.disabledUntil = some stop) ∧ time < stop := by
      rcases unusable with ⟨stop, isStop, lasts⟩ | ⟨stop, isStop, lasts⟩ | ⟨stop, isStop, lasts⟩
      · exact ⟨stop, Or.inl isStop, lasts⟩
      · exact ⟨stop, Or.inr (Or.inl isStop), lasts⟩
      · exact ⟨stop, Or.inr (Or.inr isStop), lasts⟩
    have member := (values stop).mpr ⟨isStop, lt_of_le_of_lt notBefore lasts⟩
    obtain ⟨largest, isLargest⟩ := isSome_iff_exists.mp (List.isSome_max?_of_mem member)
    refine ⟨largest, isLargest, decide_eq_true (lt_of_lt_of_le lasts ?_)⟩
    exact (List.max?_eq_some_iff.mp isLargest).2 stop member

theorem inCooldown_iff {forModel : Option String} (notBefore : 0 ≤ time) :
    stats.inCooldown time forModel = true ↔
      (stats.ScopedAway forModel → Active stats.disabledUntil time) ∧ stats.Unusable time := by
  rw [inCooldown, ← resolveProfileUnusableUntil_iff notBefore]
  have bypass : stats.shouldBypassModelScopedCooldown time forModel = true ↔
      stats.ScopedAway forModel ∧ ¬ Active stats.disabledUntil time :=
    shouldBypass_iff notBefore
  split
  · rename_i bypasses
    have away := bypass.mp bypasses
    exact ⟨fun absurd_ => absurd absurd_ (by simp), fun both => absurd (both.1 away.1) away.2⟩
  · rename_i holds
    refine ⟨fun lasts => ⟨fun away => ?_, lasts⟩, And.right⟩
    by_contra inactive
    exact holds (bypass.mpr ⟨away, inactive⟩)

def HonoursWindows (stats : ProfileUsageStats) (now : ℚ) : Prop :=
  ∀ time, now ≤ time → ∀ forModel,
    Active stats.blockedUntil time ∨ Active stats.disabledUntil time →
      stats.inCooldown time forModel = true

/-- A cooldown of a model that lasts without a gap still lasts so long. -/
def Keeps (before after : ProfileUsageStats) (now : ℚ) : Prop :=
  ∀ forModel stop,
    (∀ time, now ≤ time → time ≤ stop → before.inCooldown time forModel = true) →
      ∀ time, now ≤ time → time ≤ stop → after.inCooldown time forModel = true

/-- The ends of active windows do not move. -/
structure KeepsEnds (before after : ProfileUsageStats) (now : ℚ) : Prop where
  cooldown : Active before.cooldownUntil now → after.cooldownUntil = before.cooldownUntil
  disabled : Active before.disabledUntil now → after.disabledUntil = before.disabledUntil

/-- A cooldown of one model does not stand beside a block that is longer than a disable. -/
def Unmasked (stats : ProfileUsageStats) (now : ℚ) : Prop :=
  stats.Scoped → ∀ time, now ≤ time → Active stats.blockedUntil time →
    Active stats.disabledUntil time

theorem Unmasked.later {now later : ℚ} (unmasked : stats.Unmasked now) (before : now ≤ later) :
    stats.Unmasked later :=
  fun isScoped time after => unmasked isScoped time (le_trans before after)

theorem exists_otherModel (model : Option String) :
    ∃ other, isTruthyText other = true ∧ model ≠ other := by
  refine ⟨some (model.getD "" ++ "x"), ?_, ?_⟩
  · simp [isTruthyText]
  · cases model with
    | none => simp
    | some text =>
      intro same
      have lengths := congrArg String.length (Option.some.inj same)
      simp at lengths

theorem honoursWindows_iff {now : ℚ} (notBefore : 0 ≤ now) :
    stats.HonoursWindows now ↔ stats.Unmasked now := by
  constructor
  · intro honours isScoped time later blocked
    obtain ⟨other, truthy, differs⟩ := exists_otherModel stats.cooldownModel
    have held := honours time later other (Or.inl blocked)
    exact ((inCooldown_iff (le_trans notBefore later)).mp held).1 ⟨isScoped, truthy, differs⟩
  · intro unmasked time later forModel windows
    refine (inCooldown_iff (le_trans notBefore later)).mpr ⟨fun away => ?_, ?_⟩
    · exact windows.elim (unmasked away.1 time later) id
    · exact windows.elim Or.inl fun disabled => Or.inr (Or.inr disabled)

section Steps

variable
  {before after : ProfileUsageStats} {now blockedUntil : ℚ} {reason : FailureReason}
  {modelId : Option String}

/--
A rate limit that names a model leaves the other models no window to lose: without an
active cooldown the block is no longer than the disabled window, and beside one that held
for all models no window is.
-/
def KeepsScope (stats : ProfileUsageStats) (now : ℚ) (reason : FailureReason)
    (modelId : Option String) : Prop :=
  reason = .rateLimit → isTruthyText modelId = true →
    (¬ Active stats.cooldownUntil now → ∀ time, now ≤ time →
      Active stats.blockedUntil time → Active stats.disabledUntil time) ∧
    (Active stats.cooldownUntil now → stats.cooldownModel = modelId →
      stats.cooldownReason ≠ some .rateLimit → ∀ time, now ≤ time →
        Active stats.blockedUntil time ∨ Active stats.cooldownUntil time →
          Active stats.disabledUntil time)

/-- The cooldown ends no later than the new block or the disabled window. -/
def KeepsBlocked (stats : ProfileUsageStats) (now blockedUntil : ℚ) : Prop :=
  ∀ time, now ≤ time → Active stats.cooldownUntil time →
    time < max (activeUntil stats.blockedUntil now) blockedUntil ∨ Active stats.disabledUntil time

/-- A failure of the kind that prolongs the cooldown has been recorded. -/
structure CooledDown (before after : ProfileUsageStats) (now : ℚ) (reason : FailureReason)
    (modelId : Option String) : Prop where
  blocked : after.blockedUntil = before.blockedUntil
  disabled : after.disabledUntil = before.disabledUntil
  cooldown : ∀ time, now ≤ time → Active before.cooldownUntil time → Active after.cooldownUntil time
  newReason : after.cooldownReason = some reason
  newModel : after.cooldownModel =
    if before.cooldownUntil.any fun cooldownUntil => now < cooldownUntil then
      widenCooldownModel before.cooldownModel reason modelId
    else if reason = .rateLimit then modelId
    else none

variable {model : Option String}

theorem widenCooldownModel_truthy_iff :
    isTruthyText (widenCooldownModel model .rateLimit modelId) = true ↔
      isTruthyText modelId = true ∧ model = modelId := by
  unfold widenCooldownModel
  cases truthyModel : isTruthyText model with
  | true =>
    cases truthyId : isTruthyText modelId with
    | true =>
      by_cases same : model = modelId
      · simp [same, truthyId]
      · simp [same, isTruthyText]
    | false => simp [isTruthyText]
  | false =>
    simp only [Bool.false_eq_true, false_and, and_false, if_false, ne_eq, not_true_eq_false]
    rw [truthyModel]
    refine ⟨fun absurd_ => absurd absurd_ Bool.false_ne_true, fun both => ?_⟩
    rw [both.2] at truthyModel
    exact absurd (both.1.symm.trans truthyModel) (by decide)

theorem widenCooldownModel_of_truthy
    (truthy : isTruthyText (widenCooldownModel model .rateLimit modelId) = true) :
    widenCooldownModel model .rateLimit modelId = modelId := by
  obtain ⟨truthyId, rfl⟩ := widenCooldownModel_truthy_iff.mp truthy
  simp [widenCooldownModel, truthyId]

section

variable (cooledDown : CooledDown before after now reason modelId)
include cooledDown

theorem CooledDown.scoped_iff : after.Scoped ↔ reason = .rateLimit ∧ isTruthyText modelId = true ∧
      (Active before.cooldownUntil now → before.cooldownModel = modelId) := by
  rw [Scoped, cooledDown.newReason, cooledDown.newModel, some_inj]
  refine and_congr_right fun isRateLimit => ?_
  subst isRateLimit
  have activeIff : (before.cooldownUntil.any fun until_ => now < until_) = true ↔
      Active before.cooldownUntil now :=
    isActiveUnusable_iff
  split
  · rename_i active
    rw [widenCooldownModel_truthy_iff]
    exact and_congr_right fun _ => ⟨fun same _ => same, fun same => same (activeIff.mp active)⟩
  · rename_i inactive
    rw [if_pos rfl]
    exact ⟨fun truthy => ⟨truthy, fun active => absurd (activeIff.mpr active) inactive⟩, And.left⟩

theorem CooledDown.model_of_scoped (isScoped : after.Scoped) : after.cooldownModel = modelId := by
  obtain ⟨rfl, _, _⟩ := cooledDown.scoped_iff.mp isScoped
  have truthy := isScoped.2
  rw [cooledDown.newModel] at truthy ⊢
  split
  · rename_i active
    rw [if_pos active] at truthy
    exact widenCooldownModel_of_truthy truthy
  · exact if_pos rfl

theorem CooledDown.unusable (later : now ≤ time) (unusable : before.Unusable time) :
    after.Unusable time := by
  rcases unusable with blocked | cooldown | disabled
  · exact Or.inl (cooledDown.blocked ▸ blocked)
  · exact Or.inr (Or.inl (cooledDown.cooldown time later cooldown))
  · exact Or.inr (Or.inr (cooledDown.disabled ▸ disabled))

end

theorem KeepsScope.disabled_of_scoped (keepsScope : before.KeepsScope now reason modelId)
    (cooledDown : CooledDown before after now reason modelId) (isScoped : after.Scoped)
    (later : now ≤ time)
    (lasts : Active before.blockedUntil time ∨ Active before.cooldownUntil time)
    (sameScope : Active before.cooldownUntil now → before.Scoped →
      Active before.disabledUntil time) : Active before.disabledUntil time := by
  obtain ⟨isRateLimit, truthyId, sameModel⟩ := cooledDown.scoped_iff.mp isScoped
  obtain ⟨fresh, widened⟩ := keepsScope isRateLimit truthyId
  by_cases active : Active before.cooldownUntil now
  · by_cases wasRateLimit : before.cooldownReason = some .rateLimit
    · refine sameScope active ⟨wasRateLimit, ?_⟩
      rw [sameModel active]
      exact truthyId
    · exact widened active (sameModel active) wasRateLimit time later lasts
  · refine fresh active time later (lasts.resolve_right fun cooldown => ?_)
    exact active (cooldown.anti later)

/-- A failure undercuts nothing exactly when it keeps the scope. -/
theorem CooledDown.keeps_iff (cooledDown : CooledDown before after now reason modelId)
    (notBefore : 0 ≤ now) (unmasked : before.Unmasked now) :
    before.Keeps after now ∧ after.Unmasked now ↔ before.KeepsScope now reason modelId := by
  constructor
  · rintro ⟨keeps, unmaskedAfter⟩ isRateLimit truthyId
    constructor
    · intro inactive time later blocked
      have isScoped : after.Scoped := cooledDown.scoped_iff.mpr
        ⟨isRateLimit, truthyId, fun active => absurd active inactive⟩
      have held := unmaskedAfter isScoped time later (cooledDown.blocked.symm ▸ blocked)
      exact cooledDown.disabled ▸ held
    · intro active sameModel otherReason time later lasts
      have isScoped : after.Scoped := cooledDown.scoped_iff.mpr
        ⟨isRateLimit, truthyId, fun _ => sameModel⟩
      obtain ⟨other, truthyOther, differs⟩ := exists_otherModel after.cooldownModel
      have lastsUntil : ∀ earlier, now ≤ earlier → earlier ≤ time →
          before.inCooldown earlier other = true := by
        intro earlier after_ before_
        refine (inCooldown_iff (le_trans notBefore after_)).mpr
          ⟨fun away => absurd away.1.1 otherReason, ?_⟩
        rcases lasts with blocked | cooldown
        · exact Or.inl (blocked.anti before_)
        · exact Or.inr (Or.inl (cooldown.anti before_))
      have kept := keeps other time lastsUntil time later le_rfl
      have held := ((inCooldown_iff (le_trans notBefore later)).mp kept).1
        ⟨isScoped, truthyOther, differs⟩
      exact cooledDown.disabled ▸ held
  · intro keepsScope
    constructor
    · intro forModel stop held time later inTime
      have notNegative := le_trans notBefore later
      obtain ⟨notAway, unusable⟩ := (inCooldown_iff notNegative).mp (held time later inTime)
      refine (inCooldown_iff notNegative).mpr ⟨fun away => ?_, cooledDown.unusable later unusable⟩
      rw [cooledDown.disabled]
      rcases or_assoc.mpr unusable with lasts | disabled
      · refine keepsScope.disabled_of_scoped cooledDown away.1 later lasts
          fun active wasScoped => notAway ⟨wasScoped, away.2.1, ?_⟩
        have sameModel := (cooledDown.scoped_iff.mp away.1).2.2 active
        rw [sameModel, ← cooledDown.model_of_scoped away.1]
        exact away.2.2
      · exact disabled
    · intro isScoped time later blocked
      rw [cooledDown.blocked] at blocked
      rw [cooledDown.disabled]
      exact keepsScope.disabled_of_scoped cooledDown isScoped later (Or.inl blocked)
        fun _ wasScoped => unmasked wasScoped time later blocked

/-- A failure of the kind that disables the profile has been recorded. -/
structure Disabled (before after : ProfileUsageStats) (now : ℚ) : Prop where
  blocked : after.blockedUntil = before.blockedUntil
  cooldown : after.cooldownUntil = before.cooldownUntil
  disabled : ∀ time, now ≤ time → Active before.disabledUntil time → Active after.disabledUntil time
  sameReason : after.cooldownReason = before.cooldownReason
  sameModel : after.cooldownModel = before.cooldownModel

theorem Disabled.scopedAway_iff (disabled : Disabled before after now) {forModel : Option String} :
    after.ScopedAway forModel ↔ before.ScopedAway forModel := by
  rw [ScopedAway, ScopedAway, Scoped, Scoped, disabled.sameReason, disabled.sameModel]

theorem Disabled.keeps (disabled : Disabled before after now) (notBefore : 0 ≤ now)
    (unmasked : before.Unmasked now) : before.Keeps after now ∧ after.Unmasked now := by
  constructor
  · intro forModel stop held time later inTime
    have notNegative := le_trans notBefore later
    obtain ⟨notAway, unusable⟩ := (inCooldown_iff notNegative).mp (held time later inTime)
    refine (inCooldown_iff notNegative).mpr ⟨fun away => ?_, ?_⟩
    · exact disabled.disabled time later (notAway (disabled.scopedAway_iff.mp away))
    · rw [Unusable, disabled.blocked, disabled.cooldown]
      exact unusable.imp_right (Or.imp_right (disabled.disabled time later))
  · intro isScoped time later blocked
    rw [Scoped, disabled.sameReason, disabled.sameModel] at isScoped
    rw [disabled.blocked] at blocked
    exact disabled.disabled time later (unmasked isScoped time later blocked)

/-- A block has been recorded. -/
structure Blocked (before after : ProfileUsageStats) (now blockedUntil : ℚ) : Prop where
  blocked : after.blockedUntil = some (max (activeUntil before.blockedUntil now) blockedUntil)
  cooldown : after.cooldownUntil = none
  noReason : after.cooldownReason = none
  disabled : after.disabledUntil = before.disabledUntil

/-- A block undercuts nothing exactly when the cooldown that it replaces is no longer. -/
theorem Blocked.keeps_iff (blocked : Blocked before after now blockedUntil) (notBefore : 0 ≤ now) :
    before.Keeps after now ∧ after.Unmasked now ↔ before.KeepsBlocked now blockedUntil := by
  have notScoped : ¬ after.Scoped := fun isScoped =>
    absurd (blocked.noReason.symm.trans isScoped.1) (by simp)
  have unusable : ∀ time, after.Unusable time ↔
      time < max (activeUntil before.blockedUntil now) blockedUntil ∨
        Active before.disabledUntil time := by
    intro time
    rw [Unusable, blocked.blocked, blocked.cooldown, blocked.disabled, active_some,
      or_iff_right (a := Active none time) not_active_none]
  constructor
  · rintro ⟨keeps, _⟩ time later cooldown
    have lastsUntil : ∀ earlier, now ≤ earlier → earlier ≤ time →
        before.inCooldown earlier none = true := by
      intro earlier after_ before_
      refine (inCooldown_iff (le_trans notBefore after_)).mpr
        ⟨fun away => absurd away.2.1 (by decide), ?_⟩
      exact Or.inr (Or.inl (cooldown.anti before_))
    have kept := keeps none time lastsUntil time later le_rfl
    exact (unusable time).mp ((inCooldown_iff (le_trans notBefore later)).mp kept).2
  · intro keepsBlocked
    refine ⟨?_, fun isScoped => absurd isScoped notScoped⟩
    intro forModel stop held time later inTime
    have notNegative := le_trans notBefore later
    obtain ⟨_, lasts⟩ := (inCooldown_iff notNegative).mp (held time later inTime)
    refine (inCooldown_iff notNegative).mpr ⟨fun away => absurd away.1 notScoped, ?_⟩
    rw [unusable]
    rcases lasts with wasBlocked | cooldown | disabled
    · exact Or.inl (lt_max_of_lt_left (lt_activeUntil wasBlocked later))
    · exact keepsBlocked time later cooldown
    · exact Or.inr disabled

variable {cfgResolved : ResolvedAuthCooldownConfig} {whamResult : Option WhamCooldownProbeResult}

theorem cooledDown_compute (notDisabling : cfgResolved.disabledBackoff reason = none) :
    CooledDown before (computeNextProfileUsageStats before now reason cfgResolved modelId) now
      reason modelId := by
  unfold computeNextProfileUsageStats
  dsimp only
  rw [notDisabling]
  exact ⟨rfl, rfl, fun _ later active => active_keepActiveWindowOrRecompute active later, rfl, rfl⟩

theorem disabled_compute {backoff : ℚ × ℚ}
    (disabling : cfgResolved.disabledBackoff reason = some backoff) :
    Disabled before (computeNextProfileUsageStats before now reason cfgResolved modelId) now := by
  unfold computeNextProfileUsageStats
  dsimp only
  rw [disabling]
  exact ⟨rfl, rfl, fun _ later active => active_keepActiveWindowOrRecompute active later, rfl, rfl⟩

theorem keepsEnds_compute (cfgResolved : ResolvedAuthCooldownConfig) :
    KeepsEnds before (computeNextProfileUsageStats before now reason cfgResolved modelId) now := by
  unfold computeNextProfileUsageStats
  dsimp only
  split
  · exact ⟨fun _ => rfl, fun active => keepActiveWindowOrRecompute_of_active active⟩
  · exact ⟨fun active => keepActiveWindowOrRecompute_of_active active, fun _ => rfl⟩

theorem cooledDown_fail (notDisabling : cfgResolved.disabledBackoff reason = none)
    (noBlock : whamResult.bind WhamCooldownProbeResult.blocks = none) :
    CooledDown before (before.fail now reason cfgResolved modelId whamResult) now reason
      modelId := by
  have computed : CooledDown before
      (computeNextProfileUsageStats before now reason cfgResolved modelId) now reason modelId :=
    cooledDown_compute notDisabling
  cases whamResult with
  | none => exact computed
  | some result =>
    rw [bind_some] at noBlock
    rw [fail, applyWhamCooldownResult, noBlock]
    refine ⟨computed.blocked, computed.disabled, fun time later active => ?_,
      computed.newReason, computed.newModel⟩
    rw [active_some]
    exact lt_max_of_lt_left (lt_activeUntil active later)

theorem blocked_fail (notDisabling : cfgResolved.disabledBackoff reason = none)
    (blocks : whamResult.bind WhamCooldownProbeResult.blocks = some blockedUntil) :
    Blocked before (before.fail now reason cfgResolved modelId whamResult) now blockedUntil := by
  obtain ⟨result, rfl, isBlock⟩ := bind_eq_some_iff.mp blocks
  have computed : CooledDown before
      (computeNextProfileUsageStats before now reason cfgResolved modelId) now reason modelId :=
    cooledDown_compute notDisabling
  rw [fail, applyWhamCooldownResult, isBlock]
  exact ⟨rfl, rfl, rfl, computed.disabled⟩

theorem blocked_block (source : BlockedSource) :
    Blocked before (before.block now blockedUntil source modelId) now blockedUntil :=
  ⟨rfl, rfl, rfl, rfl⟩

section Clearing

variable (stats : ProfileUsageStats) (now : ℚ)

theorem blockedUntil_clearExpired : (stats.clearExpired now).blockedUntil =
      if isExpired stats.blockedUntil now then none else stats.blockedUntil := by
  simp [clearExpired, apply_ite blockedUntil]

theorem disabledUntil_clearExpired : (stats.clearExpired now).disabledUntil =
      if isExpired stats.disabledUntil now then none else stats.disabledUntil := by
  simp [clearExpired, apply_ite disabledUntil]

theorem cooldownReason_clearExpired : (stats.clearExpired now).cooldownReason =
      if isExpired stats.cooldownUntil now then none else stats.cooldownReason := by
  simp [clearExpired, apply_ite cooldownReason]

theorem cooldownModel_clearExpired : (stats.clearExpired now).cooldownModel =
      if isExpired stats.cooldownUntil now then none else stats.cooldownModel := by
  simp [clearExpired, apply_ite cooldownModel]

end Clearing

theorem scoped_of_clearExpired (isScoped : (before.clearExpired now).Scoped) : before.Scoped := by
  rw [Scoped, cooldownReason_clearExpired, cooldownModel_clearExpired] at isScoped
  split at isScoped
  · exact absurd isScoped.1 (by simp)
  · exact isScoped

theorem not_isExpired_of_active {until_ : Option ℚ} {time : ℚ} (active : Active until_ time)
    (later : now ≤ time) : ¬ isExpired until_ now = true := by
  obtain ⟨stop, rfl, lasts⟩ := active
  rw [isExpired, any_some, Bool.and_eq_true, not_and]
  intro _ isOver
  exact absurd (of_decide_eq_true isOver) (not_le_of_gt (lt_of_le_of_lt later lasts))

theorem unmasked_clearExpired (unmasked : before.Unmasked now) :
    (before.clearExpired now).Unmasked now := by
  intro isScoped time later blocked
  rw [blockedUntil_clearExpired] at blocked
  split at blocked
  · exact absurd blocked not_active_none
  · have disabled := unmasked (scoped_of_clearExpired isScoped) time later blocked
    rw [disabledUntil_clearExpired, if_neg (not_isExpired_of_active disabled later)]
    exact disabled

def SuitsFailure (stats : ProfileUsageStats) (now : ℚ) (reason : FailureReason)
    (modelId : Option String) (whamResult : Option WhamCooldownProbeResult) : Prop :=
  match whamResult.bind WhamCooldownProbeResult.blocks with
  | some blockedUntil => stats.KeepsBlocked now blockedUntil
  | none => stats.KeepsScope now reason modelId

theorem fail_keeps_iff (probes : whamResult ≠ none → cfgResolved.disabledBackoff reason = none)
    (notBefore : 0 ≤ now) (unmasked : before.Unmasked now) :
    before.Keeps (before.fail now reason cfgResolved modelId whamResult) now ∧
        (before.fail now reason cfgResolved modelId whamResult).Unmasked now ↔
      before.SuitsFailure now reason modelId whamResult := by
  rw [SuitsFailure]
  cases disabling : cfgResolved.disabledBackoff reason with
  | none =>
    cases blocks : whamResult.bind WhamCooldownProbeResult.blocks with
    | none => exact (cooledDown_fail disabling blocks).keeps_iff notBefore unmasked
    | some blockedUntil => exact (blocked_fail disabling blocks).keeps_iff notBefore
  | some backoff =>
    cases whamResult with
    | some result => exact absurd (disabling.symm.trans (probes (by simp))) (by simp)
    | none =>
      refine ⟨fun _ isRateLimit => ?_, fun _ =>
        (disabled_compute disabling).keeps notBefore unmasked⟩
      rw [isRateLimit] at disabling
      exact absurd disabling (by simp [ResolvedAuthCooldownConfig.disabledBackoff])

end Steps

end ProfileUsageStats

section Store

variable (toLowerCase : String → String)

namespace AuthProfileStore

def statsOf (store : AuthProfileStore) (profileId : String) : ProfileUsageStats :=
  (store.usageStats.get? profileId).getD {}

def HonoursWindows (store : AuthProfileStore) (profileId : String) (now : ℚ) : Prop :=
  ∀ time, now ≤ time → ∀ forModel,
    Active (store.statsOf profileId).blockedUntil time ∨
        Active (store.statsOf profileId).disabledUntil time →
      isProfileInCooldown toLowerCase store profileId time forModel = true

/-- A cooldown of a model that lasts without a gap still lasts so long. -/
def Keeps (store next : AuthProfileStore) (profileId : String) (now : ℚ) : Prop :=
  ∀ forModel stop,
    (∀ time, now ≤ time → time ≤ stop →
      isProfileInCooldown toLowerCase store profileId time forModel = true) →
    ∀ time, now ≤ time → time ≤ stop →
      isProfileInCooldown toLowerCase next profileId time forModel = true

def WithoutProbe (store : AuthProfileStore) : Call → Prop
  | .failure profileId reason _ _ whamResult _ =>
    ∀ provider, store.profiles.get? profileId = some provider →
      probed toLowerCase provider reason whamResult = none
  | _ => False

/-- A mark shortens no cooldown, and without the probe it moves no end. -/
structure UndercutsNothing (store : AuthProfileStore) (profileId : String)
    (call : Call) : Prop where
  keeps : (∀ now, call ≠ .clearExpired now) →
    store.Keeps toLowerCase (store.perform toLowerCase call) profileId call.now
  keepsEnds : store.WithoutProbe toLowerCase call →
    (store.statsOf profileId).KeepsEnds
      ((store.perform toLowerCase call).statsOf profileId) call.now

section

variable (store : AuthProfileStore)

/-- When a call on the profile undercuts nothing. -/
def Suits (profileId : String) : Call → Prop
  | .failure failedId reason _ modelId whamResult now =>
    failedId = profileId → ∀ provider, store.profiles.get? profileId = some provider →
      (store.statsOf profileId).SuitsFailure now reason modelId
        (probed toLowerCase provider reason whamResult)
  | .blockedUntil blockedId blockedUntil _ _ calledAt now =>
    blockedId = profileId → (store.profiles.get? profileId).isSome → calledAt < blockedUntil →
      (store.statsOf profileId).KeepsBlocked now blockedUntil
  | .clearExpired _ => True

theorem statsOf_updateUsageStatsEntry (changedId profileId : String)
    (updater : ProfileUsageStats → ProfileUsageStats) :
    (updateUsageStatsEntry store changedId updater).statsOf profileId =
      if profileId = changedId then updater (store.statsOf profileId)
      else store.statsOf profileId := by
  rw [statsOf, updateUsageStatsEntry, OrderedMap.get?_set]
  split
  · rename_i isChanged
    rw [isChanged, getD_some, statsOf]
  · rfl

theorem statsOf_clearExpiredCooldowns (profileId : String) (now : ℚ) :
    (clearExpiredCooldowns store now).statsOf profileId =
      (store.statsOf profileId).clearExpired now := by
  rw [statsOf, statsOf, clearExpiredCooldowns, OrderedMap.get?_mapValues]
  cases store.usageStats.get? profileId with
  | none => rfl
  | some stats => rfl

theorem profiles_perform (call : Call) :
    (store.perform toLowerCase call).profiles = store.profiles := by
  cases call with
  | failure failedId reason cfg modelId whamResult now =>
    rw [perform, markAuthProfileFailure]
    split
    · rfl
    · split
      · rfl
      · rfl
  | blockedUntil blockedId blockedUntil source modelId calledAt now =>
    rw [perform, markAuthProfileBlockedUntil]
    split
    · rfl
    · split
      · rfl
      · rfl
  | clearExpired now => rfl

end

variable
  {toLowerCase : String → String} {store next : AuthProfileStore} {profileId : String}

/-- The provider of the profile takes part in cooldowns. -/
def Cools (toLowerCase : String → String) (store : AuthProfileStore) (profileId : String) : Prop :=
  isAuthCooldownBypassedForProvider toLowerCase (store.profiles.get? profileId) = false

section

variable (cools : store.Cools toLowerCase profileId)
include cools

theorem isProfileInCooldown_eq (time : ℚ)
    (forModel : Option String) : isProfileInCooldown toLowerCase store profileId time forModel =
      (store.statsOf profileId).inCooldown time forModel := by
  rw [isProfileInCooldown, cools, if_neg Bool.false_ne_true, statsOf]
  cases store.usageStats.get? profileId with
  | none =>
    symm
    rw [getD_none, ProfileUsageStats.inCooldown]
    split
    · rfl
    · rfl
  | some stats => rfl

theorem honoursWindows_iff {now : ℚ} (notBefore : 0 ≤ now) :
    store.HonoursWindows toLowerCase profileId now ↔ (store.statsOf profileId).Unmasked now := by
  rw [← ProfileUsageStats.honoursWindows_iff notBefore, HonoursWindows]
  simp only [isProfileInCooldown_eq cools]
  rfl

theorem keeps_iff {now : ℚ}
    (nextCools : next.Cools toLowerCase profileId) : store.Keeps toLowerCase next profileId now ↔
      (store.statsOf profileId).Keeps (next.statsOf profileId) now := by
  rw [Keeps]
  simp only [isProfileInCooldown_eq cools, isProfileInCooldown_eq nextCools]
  rfl

theorem Cools.perform (call : Call) :
    (store.perform toLowerCase call).Cools toLowerCase profileId := by
  rw [Cools, profiles_perform]
  exact cools

theorem undercutsNothing_of_same {call : Call}
    (same : (store.perform toLowerCase call).statsOf profileId = store.statsOf profileId) :
    store.UndercutsNothing toLowerCase profileId call := by
  refine ⟨fun _ => (keeps_iff cools (cools.perform call)).mpr ?_, fun _ => ?_⟩
  · rw [same]
    exact fun _ _ held => held
  · rw [same]
    exact ⟨fun _ => rfl, fun _ => rfl⟩

end

theorem disabledBackoff_of_probed {provider : String} {reason : FailureReason}
    {whamResult : Option WhamCooldownProbeResult} (cfgResolved : ResolvedAuthCooldownConfig)
    (isProbed : probed toLowerCase provider reason whamResult ≠ none) :
    cfgResolved.disabledBackoff reason = none := by
  obtain ⟨result, isResult⟩ := ne_none_iff_exists'.mp isProbed
  have probes := (mem_filter_iff.mp isResult).2
  rw [shouldProbeWhamForFailure, Bool.and_eq_true] at probes
  cases reason with
  | billing => exact absurd probes.2 (by decide)
  | authPermanent => exact absurd probes.2 (by decide)
  | _ => rfl

theorem suits_iff {call : Call} (cools : store.Cools toLowerCase profileId)
    (notBefore : 0 ≤ call.now) (unmasked : (store.statsOf profileId).Unmasked call.now) :
    store.UndercutsNothing toLowerCase profileId call ∧
        ((store.perform toLowerCase call).statsOf profileId).Unmasked call.now ↔
      store.Suits toLowerCase profileId call := by
  have untouched : (store.perform toLowerCase call).statsOf profileId = store.statsOf profileId →
      store.UndercutsNothing toLowerCase profileId call ∧
        ((store.perform toLowerCase call).statsOf profileId).Unmasked call.now :=
    fun same => ⟨undercutsNothing_of_same cools same, same.symm ▸ unmasked⟩
  have marked : (∀ now, call ≠ .clearExpired now) →
      (store.WithoutProbe toLowerCase call → (store.statsOf profileId).KeepsEnds
        ((store.perform toLowerCase call).statsOf profileId) call.now) →
      (store.UndercutsNothing toLowerCase profileId call ↔
        (store.statsOf profileId).Keeps ((store.perform toLowerCase call).statsOf profileId)
          call.now) := by
    intro isMark ends
    rw [← keeps_iff cools (cools.perform call)]
    exact ⟨fun undercuts => undercuts.keeps isMark, fun keeps => ⟨fun _ => keeps, ends⟩⟩
  cases call with
  | clearExpired now =>
    refine ⟨fun _ => trivial, fun _ => ⟨⟨fun isMark => absurd rfl (isMark now), False.elim⟩, ?_⟩⟩
    rw [perform, statsOf_clearExpiredCooldowns]
    exact ProfileUsageStats.unmasked_clearExpired unmasked
  | failure failedId reason cfg modelId whamResult now =>
    by_cases isProfile : failedId = profileId
    · subst isProfile
      cases isProvider : store.profiles.get? failedId with
      | none =>
        refine ⟨fun _ _ provider known => ?_, fun _ => untouched ?_⟩
        · exact absurd (isProvider.symm.trans known) (by simp)
        · rw [perform, markAuthProfileFailure, isProvider]
      | some provider =>
        have notExempt : isAuthCooldownBypassedForProvider toLowerCase (some provider) =
            false := isProvider ▸ cools
        have stats : (store.perform toLowerCase (.failure failedId reason cfg modelId
            whamResult now)).statsOf failedId = (store.statsOf failedId).fail now reason
                (resolveAuthCooldownConfig toLowerCase cfg
                  (normalizeProviderId toLowerCase provider))
                modelId (probed toLowerCase provider reason whamResult) := by
          rw [perform, markAuthProfileFailure, isProvider]
          dsimp only
          rw [notExempt, if_neg Bool.false_ne_true, statsOf_updateUsageStatsEntry, if_pos rfl]
        rw [marked (by simp) ?_, stats]
        · refine (ProfileUsageStats.fail_keeps_iff (disabledBackoff_of_probed _) notBefore
            unmasked).trans ?_
          refine ⟨fun suits _ other isOther => ?_, fun suits => suits rfl provider isProvider⟩
          exact Option.some.inj (isProvider.symm.trans isOther) ▸ suits
        · intro withoutProbe
          rw [stats, withoutProbe provider isProvider]
          exact ProfileUsageStats.keepsEnds_compute _
    · refine ⟨fun _ same => absurd same isProfile, fun _ => untouched ?_⟩
      rw [perform, markAuthProfileFailure]
      split
      · rfl
      · split
        · rfl
        · rw [statsOf_updateUsageStatsEntry, if_neg fun same => isProfile same.symm]
  | blockedUntil blockedId blockedUntil source modelId calledAt now =>
    by_cases isProfile : blockedId = profileId
    · subst isProfile
      cases isProvider : store.profiles.get? blockedId with
      | none =>
        refine ⟨fun _ _ known => ?_, fun _ => untouched ?_⟩
        · exact absurd known (by rw [isProvider]; simp)
        · rw [perform, markAuthProfileBlockedUntil, isProvider]
      | some provider =>
        have notExempt : isAuthCooldownBypassedForProvider toLowerCase (some provider) =
            false := isProvider ▸ cools
        by_cases isOver : blockedUntil ≤ calledAt
        · refine ⟨fun _ _ _ lasts => absurd isOver (not_le_of_gt lasts), fun _ => untouched ?_⟩
          rw [perform, markAuthProfileBlockedUntil, isProvider]
          dsimp only
          rw [if_pos (Or.inr isOver)]
        · have stats : (store.perform toLowerCase (.blockedUntil blockedId blockedUntil source
              modelId calledAt now)).statsOf blockedId =
                (store.statsOf blockedId).block now blockedUntil source modelId := by
            rw [perform, markAuthProfileBlockedUntil, isProvider]
            dsimp only
            rw [if_neg (by simp [notExempt, isOver]), statsOf_updateUsageStatsEntry, if_pos rfl]
          rw [marked (by simp) False.elim, stats]
          refine ((ProfileUsageStats.blocked_block source).keeps_iff notBefore).trans ?_
          refine ⟨fun suits _ _ _ => suits, fun suits => suits rfl ?_ (not_le.mp isOver)⟩
          rw [isProvider]
          rfl
    · refine ⟨fun _ same => absurd same isProfile, fun _ => untouched ?_⟩
      rw [perform, markAuthProfileBlockedUntil]
      split
      · rfl
      · split
        · rfl
        · rw [statsOf_updateUsageStatsEntry, if_neg fun same => isProfile same.symm]

/-- The calls come at times that do not decrease. -/
def Timed : ℚ → List Call → Prop
  | _, [] => True
  | now, call :: rest => now ≤ call.now ∧ Timed call.now rest

variable (toLowerCase profileId) in
/-- No state of the run lets the profile be used too soon, and no call brings it about. -/
def NeverUndercut : AuthProfileStore → ℚ → List Call → Prop
  | store, now, [] => store.HonoursWindows toLowerCase profileId now
  | store, now, call :: rest =>
    store.HonoursWindows toLowerCase profileId now ∧
      store.UndercutsNothing toLowerCase profileId call ∧
        NeverUndercut (store.perform toLowerCase call) call.now rest

variable (toLowerCase profileId) in
def AllSuit : AuthProfileStore → List Call → Prop
  | _, [] => True
  | store, call :: rest =>
    store.Suits toLowerCase profileId call ∧ AllSuit (store.perform toLowerCase call) rest

/--
A run undercuts nothing exactly when the cooldown that it starts with masks no block and
every call suits: a failure keeps the scope, and a block is no shorter than the cooldown
that it replaces.
-/
theorem neverUndercut_iff {start : ℚ} {calls : List Call}
    (cools : store.Cools toLowerCase profileId) (notBefore : 0 ≤ start)
    (timed : Timed start calls) :
    NeverUndercut toLowerCase profileId store start calls ↔
      (store.statsOf profileId).Unmasked start ∧ AllSuit toLowerCase profileId store calls := by
  induction calls generalizing store start with
  | nil => exact (honoursWindows_iff cools notBefore).trans (and_true _).symm.to_iff
  | cons call rest inductionHypothesis =>
    obtain ⟨later, timedRest⟩ := timed
    have notBefore' := le_trans notBefore later
    rw [NeverUndercut, AllSuit, honoursWindows_iff cools notBefore,
      inductionHypothesis (cools.perform call) notBefore' timedRest]
    refine and_congr_right fun unmasked => ?_
    rw [← suits_iff cools notBefore' (unmasked.later later), and_assoc]

end AuthProfileStore

end Store

section Examples

/-- One profile that was never used. -/
def unusedProfile : AuthProfileStore where
  profiles := OrderedMap.empty.set "p" "anthropic"
  usageStats := OrderedMap.empty

def rateLimited (modelId : String) (now : ℚ) : Call :=
  .failure "p" .rateLimit {} (some modelId) none now

theorem cools_unusedProfile : unusedProfile.Cools id "p" := by
  unfold Cools
  decide +kernel

end Examples

/-- Rate limits of two models; once their cooldown is over, the profile is blocked. -/
def limitedThenBlocked : List Call :=
  [rateLimited "m1" 10, rateLimited "m2" 20, .clearExpired 10000000,
    .blockedUntil "p" 20000000 .codexRateLimits none 10000000 10000000]

theorem neverUndercut_iff_limitedThenBlocked :
    NeverUndercut id "p" unusedProfile 0 limitedThenBlocked := by
  have timed : Timed 0 limitedThenBlocked := by
    show (0 : ℚ) ≤ 10 ∧ (10 : ℚ) ≤ 20 ∧ (20 : ℚ) ≤ 10000000 ∧ (10000000 : ℚ) ≤ 10000000 ∧ True
    decide +kernel
  refine (neverUndercut_iff cools_unusedProfile le_rfl timed).mpr
    ⟨fun isScoped => ?_, ?_, ?_, trivial, ?_, trivial⟩
  · exact absurd isScoped.1 (by decide +kernel)
  · intro _ provider _ _ _
    exact ⟨fun _ _ _ blocked => absurd blocked not_active_none,
      fun active => absurd active not_active_none⟩
  · intro _ provider _ _ _
    refine ⟨fun _ _ _ blocked => absurd blocked not_active_none, fun _ sameModel => ?_⟩
    exact absurd sameModel (by decide +kernel)
  · intro _ _ _ time _ cooldown
    have cleared : ((((unusedProfile.perform id (rateLimited "m1" 10)).perform id
        (rateLimited "m2" 20)).perform id (.clearExpired 10000000)).statsOf "p").cooldownUntil =
        none := by
      decide +kernel
    rw [cleared] at cooldown
    exact absurd cooldown not_active_none

/-- A rate limit of one model lets the others use a profile that is blocked. -/
theorem not_neverUndercut_blocked :
    ¬ ∀ (toLowerCase : String → String) (store : AuthProfileStore) (profileId : String)
        (start : ℚ) (calls : List Call),
        store.Cools toLowerCase profileId → 0 ≤ start → Timed start calls →
          NeverUndercut toLowerCase profileId store start calls := by
  intro never
  have undercut := never id unusedProfile "p" 0
    [.blockedUntil "p" 100 .codexRateLimits none 0 0, rateLimited "m1" 10] cools_unusedProfile
    le_rfl (show (0 : ℚ) ≤ 0 ∧ (0 : ℚ) ≤ 10 ∧ True by decide +kernel)
  have held := undercut.2.2.2.2 60 (by decide +kernel) (some "m2")
    (Or.inl ⟨100, by decide +kernel, by decide +kernel⟩)
  revert held
  decide +kernel

end AuthProfiles
