import Mathlib.Data.Rat.Floor

/-!
# Next and previous runs of a cron job

`computeNextRunAtMs` and `computePreviousRunAtMs` of `src/cron/schedule.ts`, and the next run,
the stagger and the repair of a job of `src/cron/service/jobs.ts`. Times are whole
milliseconds; the pattern library is a parameter, and a pattern that is blank is missing.
-/

namespace CronTimes

open Option

/-- A parsed pattern: its first run after a time and its last run before one. -/
structure Croner where
  nextRun : ℤ → Option ℤ
  previousRun : ℤ → Option ℤ

/-- A number that is not finite, or a time that does not parse, is missing. -/
inductive CronSchedule where
  | at_ (atMs : Option ℤ)
  | every (everyMs anchorMs : Option ℚ)
  | cron (pattern : Option Croner)

/-- The steps are rounded up, and there is at least one of them. -/
def nextIntervalPoint (everyMs anchor nowMs : ℤ) : ℤ :=
  if nowMs < anchor then anchor
  else anchor + max 1 ((nowMs - anchor + everyMs - 1) / everyMs) * everyMs

def computeNextRunAtMs (schedule : CronSchedule) (nowMs : ℤ) : Option ℤ :=
  match schedule with
  | .at_ atMs => atMs.filter (nowMs < ·)
  | .every everyMsRaw anchorRaw => everyMsRaw.map fun everyMsRaw =>
    nextIntervalPoint (max 1 ⌊everyMsRaw⌋) (max 0 ((anchorRaw.map Int.floor).getD nowMs)) nowMs
  | .cron pattern => pattern.bind fun cron => (cron.nextRun nowMs).bind fun nextMs =>
    -- The library may answer with a past year; it is asked again from later times.
    if nextMs ≤ nowMs then
      ((cron.nextRun (nowMs / 1000 * 1000 + 1000)).filter (nowMs < ·)).or
        ((cron.nextRun (nowMs / 86400000 * 86400000 + 86400000)).filter (nowMs < ·))
    else some nextMs

def computePreviousRunAtMs (schedule : CronSchedule) (nowMs : ℤ) : Option ℤ :=
  match schedule with
  | .cron pattern => (pattern.bind fun cron => cron.previousRun nowMs).filter (· < nowMs)
  | _ => none

inductive RunStatus where
  | ok | error | skipped
  deriving DecidableEq

structure CronJobState where
  nextRunAtMs : Option ℤ := none
  runningAtMs : Option ℤ := none
  lastRunAtMs : Option ℤ := none
  lastStatus : Option RunStatus := none
  lastDurationMs : Option ℤ := none
  consecutiveErrors : Option ℤ := none

/-- `offsetMs` is the stable offset that the id and the stagger of a job give. -/
structure CronJob where
  enabled : Bool := true
  createdAtMs : Option ℤ := none
  schedule : CronSchedule
  offsetMs : ℕ := 0
  isAgentTurn : Bool := false
  state : CronJobState := {}

/-- A run that has lasted longer than two hours counts as stuck. -/
def STUCK_RUN_MS : ℤ := 7200000

def errorBackoffMs (consecutiveErrors : ℤ) (scheduleMs : List ℤ) : ℤ :=
  (scheduleMs[(min (consecutiveErrors - 1) (scheduleMs.length - 1)).toNat]?).getD 30000

/-- Only a positive time stands for a scheduled run. -/
def hasScheduledNextRunAtMs (value : Option ℤ) : Bool := value.any (0 < ·)

def resolveEveryAnchorMs (anchorMs : Option ℚ) (fallbackAnchorMs : ℤ) : ℤ :=
  max 0 ((anchorMs.map Int.floor).getD fallbackAnchorMs)

namespace CronJob

variable (job : CronJob)

def computeStaggeredCronNextRunAtMs (nowMs : ℤ) : Option ℤ :=
  match job.schedule with
  | .cron _ =>
    if job.offsetMs = 0 then computeNextRunAtMs job.schedule nowMs
    else attempts 4 (max 0 (nowMs - job.offsetMs))
  | _ => computeNextRunAtMs job.schedule nowMs
where
  attempts : ℕ → ℤ → Option ℤ
    | 0, _ => none
    | left + 1, cursorMs => (computeNextRunAtMs job.schedule cursorMs).bind fun baseNext =>
      if nowMs < baseNext + job.offsetMs then some (baseNext + job.offsetMs)
      else attempts left (max (cursorMs + 1) (baseNext + 1000))

def computeStaggeredCronPreviousRunAtMs (nowMs : ℤ) : Option ℤ :=
  match job.schedule with
  | .cron _ =>
    if job.offsetMs = 0 then computePreviousRunAtMs job.schedule nowMs
    else attempts 4 (max 0 (nowMs - job.offsetMs))
  | _ => none
where
  attempts : ℕ → ℤ → Option ℤ
    | 0, _ => none
    | left + 1, cursorMs => (computePreviousRunAtMs job.schedule cursorMs).bind fun basePrevious =>
      if basePrevious + job.offsetMs ≤ nowMs then some (basePrevious + job.offsetMs)
      else attempts left (max 0 (basePrevious - 1000))

def isStaggeredCronRunAtMs (runAtMs : ℤ) : Bool :=
  job.computeStaggeredCronPreviousRunAtMs (runAtMs + 1) = some runAtMs

def computeJobNextRunAtMs (nowMs : ℤ) : Option ℤ :=
  if ¬job.enabled then none
  else
    match job.schedule with
    | .every everyMsRaw anchorMs => everyMsRaw.bind fun everyMsRaw =>
      let everyMs := max 1 ⌊everyMsRaw⌋
      let nextFromLastRun := job.state.lastRunAtMs.map (· + everyMs)
      if nextFromLastRun.any (nowMs < ·) then nextFromLastRun
      else
        let anchorMs := resolveEveryAnchorMs anchorMs (job.createdAtMs.getD nowMs)
        computeNextRunAtMs (.every (some everyMs) (some anchorMs)) nowMs
    | .at_ atMs =>
      let lastRunAtMs := job.state.lastRunAtMs.getD 0
      if job.state.lastStatus = some .ok ∧ lastRunAtMs ≠ 0 then atMs.filter (lastRunAtMs < ·)
      else atMs
    | .cron _ => (job.computeStaggeredCronNextRunAtMs nowMs).or
        (job.computeStaggeredCronNextRunAtMs (nowMs / 1000 * 1000 + 1000))

def errorCount : ℤ := max 1 (job.state.consecutiveErrors.getD 1)

variable (backoffMs : List ℤ)

def isPendingErrorBackoffSlot (nextRunAtMs nowMs : ℤ) : Bool :=
  job.state.lastStatus = some .error && job.state.lastRunAtMs.any fun lastRunAtMs =>
    let backoffFloor := lastRunAtMs + max 0 (job.state.lastDurationMs.getD 0) +
      errorBackoffMs job.errorCount backoffMs
    nowMs < backoffFloor && nextRunAtMs ≤ backoffFloor

def shouldRepairFutureCronNextRunAtMs (nowMs : ℤ) : Bool :=
  match job.schedule, job.state.nextRunAtMs with
  | .cron _, some nextRun =>
    if nextRun ≤ 0 ∨ nextRun ≤ nowMs ∨ job.state.runningAtMs.isSome ∨
        job.isPendingErrorBackoffSlot backoffMs nextRun nowMs then false
    else
      match job.computeStaggeredCronNextRunAtMs nowMs with
      | none => false
      | some naturalNext =>
        if job.isStaggeredCronRunAtMs nextRun then false
        else if nextRun < naturalNext then !job.isAgentTurn
        else if nextRun = naturalNext then false
        else (job.computeStaggeredCronNextRunAtMs naturalNext).any fun following =>
          0 < following - naturalNext && following + (following - naturalNext) ≤ nextRun
  | _, _ => false

def recomputeJobNextRunAtMs (nowMs : ℤ) : Option ℤ :=
  let newNext := job.computeJobNextRunAtMs nowMs
  match job.schedule, job.state.lastStatus, job.state.lastRunAtMs with
  | .at_ _, _, _ => newNext
  | _, some .error, some lastRunAtMs =>
    newNext.map (max · (lastRunAtMs + errorBackoffMs job.errorCount backoffMs))
  | _, _, _ => newNext

def alreadyExecutedSlot : Bool :=
  job.state.nextRunAtMs.any fun slot =>
    0 < slot && job.state.lastRunAtMs.any (slot ≤ ·)

/-- The job as a tick leaves it, and whether the tick passes it by. -/
def normalizeJobTickState (nowMs : ℤ) : CronJob × Bool :=
  let job := match job.schedule with
    | .every everyMs anchorMs =>
      let anchor := resolveEveryAnchorMs anchorMs (job.createdAtMs.getD nowMs)
      { job with schedule := .every everyMs (some anchor) }
    | _ => job
  let { state, .. } := job
  -- A job that is switched off keeps neither its next run nor a running mark.
  if ¬job.enabled then
    ({ job with state := { state with nextRunAtMs := none, runningAtMs := none } }, true)
  else
    let state := { state with nextRunAtMs := state.nextRunAtMs.filter (0 < ·) }
    if state.runningAtMs.any fun runningAt => STUCK_RUN_MS < nowMs - runningAt then
      ({ job with state := { state with runningAtMs := none } }, !job.alreadyExecutedSlot)
    else ({ job with state }, false)

/-- The next run of the job after a maintenance tick. -/
def recomputeNextRunsForMaintenance
    (recomputeExpired repairFutureCronNextRunAtMs : Bool) (nowMs : ℤ) : Option ℤ :=
  let tick := job.normalizeJobTickState nowMs
  let job := tick.1
  if ¬tick.2 ∧
      (¬hasScheduledNextRunAtMs job.state.nextRunAtMs ∨
        (repairFutureCronNextRunAtMs ∧ job.shouldRepairFutureCronNextRunAtMs backoffMs nowMs) ∨
        (recomputeExpired ∧ job.state.nextRunAtMs.any (· ≤ nowMs) ∧
          job.state.runningAtMs = none ∧ job.alreadyExecutedSlot)) then
    job.recomputeJobNextRunAtMs backoffMs nowMs
  else job.state.nextRunAtMs

end CronJob

/-- The points an interval schedule runs at, from its anchor on. -/
def gridOf (everyMs : ℚ) (anchor : ℤ) : Set ℤ :=
  {point | ∃ k : ℕ, point = anchor + k * max 1 ⌊everyMs⌋}

def CronJob.anchorAt (job : CronJob) (anchorMs : Option ℚ) (now : ℤ) : ℤ :=
  resolveEveryAnchorMs anchorMs (job.createdAtMs.getD now)

/--
An interval schedule gives the first point of its grid after the clock, and its job is not due
again at once. The other kinds give a later time.
-/
def CronJob.StaysAhead (job : CronJob) (now : ℤ) : Prop :=
  match job.schedule with
  | .every (some everyMs) anchorMs =>
    (∃ next, computeNextRunAtMs (.every everyMs (some (job.anchorAt anchorMs now))) now =
        some next ∧
      IsLeast {point ∈ gridOf everyMs (job.anchorAt anchorMs now) | now < point} next) ∧
    ∀ next, job.computeJobNextRunAtMs now = some next → now < next
  | schedule => ∀ next, computeNextRunAtMs schedule now = some next → now < next

/-- The clock does not stand on a point of the grid behind the anchor. -/
def CronJob.OffGrid (job : CronJob) (now : ℤ) : Prop :=
  ∀ everyMs anchorMs, job.schedule = .every (some everyMs) anchorMs →
    ∀ k : ℕ, now ≠ job.anchorAt anchorMs now + (k + 1) * max 1 ⌊everyMs⌋

theorem ceiling_bounds {every : ℤ} (positive : 0 < every) (elapsed : ℤ) :
    elapsed ≤ (elapsed + every - 1) / every * every ∧
      ((elapsed + every - 1) / every - 1) * every < elapsed := by
  have below := Int.ediv_mul_le (elapsed + every - 1) positive.ne'
  have above := Int.lt_ediv_add_one_mul_self (elapsed + every - 1) positive
  constructor <;> linarith

theorem isLeast_nextIntervalPoint_iff {every : ℤ} (positive : 0 < every) (anchor now : ℤ) :
    IsLeast {point | (∃ k : ℕ, point = anchor + k * every) ∧ now < point}
        (nextIntervalPoint every anchor now) ↔ ∀ k : ℕ, now ≠ anchor + (k + 1) * every := by
  unfold nextIntervalPoint
  split_ifs with early
  · refine iff_of_true ⟨⟨⟨0, by simp⟩, early⟩, ?_⟩ fun k onGrid => ?_
    · rintro point ⟨⟨k, rfl⟩, -⟩
      have := mul_nonneg (Int.natCast_nonneg k) positive.le
      linarith
    · have := mul_nonneg (by omega : (0 : ℤ) ≤ k + 1) positive.le
      linarith
  obtain ⟨reaches, first⟩ := ceiling_bounds positive (now - anchor)
  generalize (now - anchor + every - 1) / every = steps at reaches first
  constructor
  · rintro ⟨⟨-, later⟩, -⟩ k onGrid
    -- On the grid the number of steps is exact, and the point found is the clock itself.
    have atMost : steps ≤ k + 1 := by
      have := lt_of_mul_lt_mul_right
        (show (steps - 1) * every < (k + 1) * every by linarith) positive.le
      omega
    rw [max_eq_right (by
      have := le_of_mul_le_mul_right (show (k + 1 : ℤ) * every ≤ steps * every by linarith) positive
      omega)] at later
    have := mul_le_mul_of_nonneg_right atMost positive.le
    linarith
  · intro offGrid
    refine ⟨⟨⟨(max 1 steps).toNat, ?_⟩, ?_⟩, ?_⟩
    · rw [Int.toNat_of_nonneg (by omega)]
    · rcases le_or_gt steps 0 with none | some
      · have := mul_nonpos_of_nonpos_of_nonneg none positive.le
        rw [max_eq_left (by omega)]
        linarith
      · have here := offGrid (steps - 1).toNat
        rw [Int.toNat_of_nonneg (by omega), sub_add_cancel] at here
        rw [max_eq_right (by omega)]
        rcases lt_or_eq_of_le reaches with below | same
        · linarith
        · exact absurd (by linarith) here
    · rintro point ⟨⟨k, rfl⟩, later⟩
      have further : (0 : ℤ) < k := by
        have := lt_of_mul_lt_mul_right (show (0 : ℤ) * every < k * every by linarith) positive.le
        omega
      have atLeast : steps ≤ k := by
        have := lt_of_mul_lt_mul_right
          (show (steps - 1) * every < k * every by linarith) positive.le
        omega
      have := mul_le_mul_of_nonneg_right (max_le further atLeast : max 1 steps ≤ k) positive.le
      linarith

theorem computeNextRunAtMs_every (everyMs : ℚ) {anchor : ℤ} (now : ℤ) (counted : 0 ≤ anchor) :
    computeNextRunAtMs (.every (some everyMs) (some anchor)) now =
      some (nextIntervalPoint (max 1 ⌊everyMs⌋) anchor now) := by
  simp [computeNextRunAtMs, Int.floor_intCast, max_eq_right counted]

theorem lt_computeNextRunAtMs {schedule : CronSchedule} {now next : ℤ}
    (found : computeNextRunAtMs schedule now = some next)
    (notEvery : ∀ everyMs anchorMs, schedule ≠ .every (some everyMs) anchorMs) : now < next := by
  cases schedule with
  | at_ atMs => simpa using (filter_eq_some_iff.mp found).2
  | every everyMs anchorMs =>
    cases everyMs with
    | none => cases found
    | some everyMs => exact absurd rfl (notEvery everyMs anchorMs)
  | cron pattern =>
    obtain ⟨cron, -, found⟩ := bind_eq_some_iff.mp found
    obtain ⟨nextMs, -, found⟩ := bind_eq_some_iff.mp found
    split_ifs at found with past
    · rcases or_eq_some_iff.mp found with first | ⟨-, second⟩
      · simpa using (filter_eq_some_iff.mp first).2
      · simpa using (filter_eq_some_iff.mp second).2
    · cases found
      omega

/-- A job stays ahead of the clock unless it stands on its grid behind the anchor. -/
theorem staysAhead_iff_offGrid (job : CronJob) (now : ℤ) :
    job.StaysAhead now ↔ job.OffGrid now := by
  unfold CronJob.StaysAhead CronJob.OffGrid
  split
  case h_1 everyMs anchorMs isEvery =>
    have positive : 0 < max 1 ⌊everyMs⌋ := by omega
    have counted : 0 ≤ job.anchorAt anchorMs now := le_max_left _ _
    have least_iff := isLeast_nextIntervalPoint_iff positive (job.anchorAt anchorMs now) now
    rw [computeNextRunAtMs_every everyMs now counted]
    simp only [Option.some.injEq, exists_eq_left', isEvery, CronSchedule.every.injEq]
    constructor
    · rintro ⟨least, -⟩ _ _ ⟨rfl, rfl⟩
      exact least_iff.mp least
    · intro offGrid
      have least := least_iff.mpr (offGrid everyMs anchorMs ⟨rfl, rfl⟩)
      refine ⟨least, fun next found => ?_⟩
      simp only [CronJob.computeJobNextRunAtMs, isEvery, bind_some] at found
      split_ifs at found with disabled recent
      · rw [found] at recent
        simpa using recent
      · have again := computeNextRunAtMs_every (max 1 ⌊everyMs⌋ : ℤ) now counted
        rw [Int.floor_intCast, max_eq_right (by omega : 1 ≤ max 1 ⌊everyMs⌋)] at again
        rw [← Option.some.inj (again.symm.trans found)]
        exact least.1.2
  case h_2 schedule other =>
    refine iff_of_true (fun next found => lt_computeNextRunAtMs found other) ?_
    intro everyMs anchorMs isEvery
    exact absurd isEvery (other everyMs anchorMs)

/-- An hourly job of which a run ends on the hour is due again on that hour. -/
theorem not_staysAhead_onGrid :
    ¬CronJob.StaysAhead { schedule := .every (some 3600000) (some 0) } 3600000 := by
  rintro ⟨-, later⟩
  exact absurd (later 3600000 (by decide +kernel)) (lt_irrefl _)

/-- The library searches the schedule times of the pattern, forward and backward. -/
structure Croner.Searches (cron : Croner) (times : Set ℤ) : Prop where
  nextRun_iff : ∀ now run, cron.nextRun now = some run ↔ IsLeast {time ∈ times | now < time} run
  previousRun_iff :
    ∀ now run, cron.previousRun now = some run ↔ IsGreatest {time ∈ times | time < now} run

/--
The staggered searches find the neighbours of the clock among the shifted times, and a next run
found so is a scheduled slot that maintenance keeps until it is due; only a job that is switched
off has no next run any more.
-/
structure CronJob.FollowsShifted (job : CronJob) (times : Set ℤ) (now : ℤ) : Prop where
  next_iff : ∀ run, job.computeStaggeredCronNextRunAtMs now = some run ↔
    IsLeast {run : ℤ | run - job.offsetMs ∈ times ∧ now < run} run
  previous_iff : ∀ run, job.computeStaggeredCronPreviousRunAtMs now = some run ↔
    IsGreatest {run : ℤ | run - job.offsetMs ∈ times ∧ run < now} run
  isSlot : ∀ run, job.computeStaggeredCronNextRunAtMs now = some run →
    job.isStaggeredCronRunAtMs run = true
  kept : ∀ run, job.computeStaggeredCronNextRunAtMs now = some run →
    ∀ state : CronJobState, state.nextRunAtMs = some run → ∀ backoffMs later,
      CronJob.shouldRepairFutureCronNextRunAtMs { job with state } backoffMs later = false ∧
      ∀ recomputeExpired repairs, later < run →
        CronJob.recomputeNextRunsForMaintenance { job with state } backoffMs recomputeExpired
          repairs later = if job.enabled then some run else none

variable {cron : Croner} {times : Set ℤ} {job : CronJob} {now : ℤ}

section

variable (searches : cron.Searches times)
include searches

theorem computeNextRunAtMs_cron (now : ℤ) :
    computeNextRunAtMs (.cron (some cron)) now = cron.nextRun now := by
  cases found : cron.nextRun now with
  | none => simp [computeNextRunAtMs, found]
  | some run =>
    have later := ((searches.nextRun_iff now run).mp found).1.2
    simp [computeNextRunAtMs, found, not_le.mpr later]

theorem computePreviousRunAtMs_cron (now : ℤ) :
    computePreviousRunAtMs (.cron (some cron)) now = cron.previousRun now := by
  cases found : cron.previousRun now with
  | none => simp [computePreviousRunAtMs, found]
  | some run =>
    have earlier := ((searches.previousRun_iff now run).mp found).1.2
    simpa [computePreviousRunAtMs, found, filter_some] using earlier

theorem computeStaggeredCronNextRunAtMs_eq
    (isCron : job.schedule = .cron (some cron)) (clock : job.offsetMs ≤ now) :
    job.computeStaggeredCronNextRunAtMs now =
      (cron.nextRun (now - job.offsetMs)).map (· + (job.offsetMs : ℤ)) := by
  simp only [CronJob.computeStaggeredCronNextRunAtMs, isCron]
  split_ifs with unshifted
  · simp [unshifted, computeNextRunAtMs_cron searches]
  · rw [CronJob.computeStaggeredCronNextRunAtMs.attempts, isCron,
      computeNextRunAtMs_cron searches, max_eq_right (by omega)]
    cases found : cron.nextRun (now - job.offsetMs) with
    | none => rfl
    | some run =>
      have later := ((searches.nextRun_iff _ run).mp found).1.2
      rw [bind_some, if_pos (by omega), map_some]

theorem computeStaggeredCronPreviousRunAtMs_eq
    (isCron : job.schedule = .cron (some cron)) (clock : job.offsetMs ≤ now) :
    job.computeStaggeredCronPreviousRunAtMs now =
      (cron.previousRun (now - job.offsetMs)).map (· + (job.offsetMs : ℤ)) := by
  simp only [CronJob.computeStaggeredCronPreviousRunAtMs, isCron]
  split_ifs with unshifted
  · simp [unshifted, computePreviousRunAtMs_cron searches]
  · rw [CronJob.computeStaggeredCronPreviousRunAtMs.attempts, isCron,
      computePreviousRunAtMs_cron searches, max_eq_right (by omega)]
    cases found : cron.previousRun (now - job.offsetMs) with
    | none => rfl
    | some run =>
      have earlier := ((searches.previousRun_iff _ run).mp found).1.2
      rw [bind_some, if_pos (by omega), map_some]

end

theorem map_add_eq_some_iff {found : Option ℤ} {offset run : ℤ} :
    found.map (· + offset) = some run ↔ found = some (run - offset) := by
  cases found <;> simp [eq_sub_iff_add_eq]

theorem staggered_next_iff (searches : cron.Searches times)
    (isCron : job.schedule = .cron (some cron)) (clock : job.offsetMs ≤ now) (run : ℤ) :
    job.computeStaggeredCronNextRunAtMs now = some run ↔
      IsLeast {run : ℤ | run - job.offsetMs ∈ times ∧ now < run} run := by
  rw [computeStaggeredCronNextRunAtMs_eq searches isCron clock, map_add_eq_some_iff,
    searches.nextRun_iff]
  refine and_congr (and_congr Iff.rfl (by omega)) ⟨?_, ?_⟩
  · rintro least other ⟨isTime, later⟩
    have := least ⟨isTime, by omega⟩
    omega
  · rintro least time ⟨isTime, later⟩
    have := least (a := time + job.offsetMs) ⟨by simpa using isTime, by omega⟩
    omega

theorem staggered_previous_iff (searches : cron.Searches times)
    (isCron : job.schedule = .cron (some cron)) (clock : job.offsetMs ≤ now) (run : ℤ) :
    job.computeStaggeredCronPreviousRunAtMs now = some run ↔
      IsGreatest {run : ℤ | run - job.offsetMs ∈ times ∧ run < now} run := by
  rw [computeStaggeredCronPreviousRunAtMs_eq searches isCron clock, map_add_eq_some_iff,
    searches.previousRun_iff]
  refine and_congr (and_congr Iff.rfl (by omega)) ⟨?_, ?_⟩
  · rintro greatest other ⟨isTime, earlier⟩
    have := greatest ⟨isTime, by omega⟩
    omega
  · rintro greatest time ⟨isTime, earlier⟩
    have := greatest (a := time + job.offsetMs) ⟨by simpa using isTime, by omega⟩
    omega

theorem shouldRepair_of_isSlot {run : ℤ} {backoffMs : List ℤ} {later : ℤ}
    (isNext : job.state.nextRunAtMs = some run) (isSlot : job.isStaggeredCronRunAtMs run = true) :
    job.shouldRepairFutureCronNextRunAtMs backoffMs later = false := by
  unfold CronJob.shouldRepairFutureCronNextRunAtMs
  rw [isNext]
  split
  case h_1 pattern nextRun isCron isRun =>
    cases isRun
    split_ifs
    · rfl
    · cases job.computeStaggeredCronNextRunAtMs later <;> simp
  case h_2 => rfl

theorem schedule_normalizeJobTickState (isCron : job.schedule = .cron (some cron)) (now : ℤ) :
    (job.normalizeJobTickState now).1.schedule = .cron (some cron) := by
  unfold CronJob.normalizeJobTickState
  rw [isCron]
  dsimp only
  split_ifs <;> exact isCron

theorem offsetMs_normalizeJobTickState (job : CronJob) (now : ℤ) :
    (job.normalizeJobTickState now).1.offsetMs = job.offsetMs := by
  unfold CronJob.normalizeJobTickState
  cases job.schedule <;> dsimp only <;> split_ifs <;> rfl

theorem nextRunAtMs_normalizeJobTickState {run : ℤ} (positive : 0 < run)
    (isNext : job.state.nextRunAtMs = some run) (now : ℤ) :
    (job.normalizeJobTickState now).1.state.nextRunAtMs =
      if job.enabled then some run else none := by
  have kept : job.state.nextRunAtMs.filter (0 < ·) = some run := by
    rw [isNext, filter_some]
    exact if_pos (decide_eq_true positive)
  unfold CronJob.normalizeJobTickState
  cases job.schedule <;> dsimp only <;> split_ifs <;> simp_all

theorem skips_of_disabled (disabled : ¬job.enabled) (now : ℤ) :
    (job.normalizeJobTickState now).2 = true := by
  unfold CronJob.normalizeJobTickState
  cases job.schedule <;> dsimp only <;> exact congrArg Prod.snd (if_pos disabled)

/-- The slot test reads nothing but the schedule and the offset of a job. -/
theorem isStaggeredCronRunAtMs_congr {other : CronJob} (schedule : other.schedule = job.schedule)
    (offset : other.offsetMs = job.offsetMs) (run : ℤ) :
    other.isStaggeredCronRunAtMs run = job.isStaggeredCronRunAtMs run := by
  have attempts : ∀ left cursor,
      CronJob.computeStaggeredCronPreviousRunAtMs.attempts other (run + 1) left cursor =
        CronJob.computeStaggeredCronPreviousRunAtMs.attempts job (run + 1) left cursor := by
    intro left
    induction left with
    | zero => exact fun _ => rfl
    | succ left ih =>
      intro cursor
      simp only [CronJob.computeStaggeredCronPreviousRunAtMs.attempts, schedule, offset, ih]
  have search : other.computeStaggeredCronPreviousRunAtMs (run + 1) =
      job.computeStaggeredCronPreviousRunAtMs (run + 1) := by
    unfold CronJob.computeStaggeredCronPreviousRunAtMs
    rw [schedule, offset]
    cases job.schedule with
    | at_ atMs => rfl
    | every everyMs anchorMs => rfl
    | cron pattern => simp only [attempts]
  rw [CronJob.isStaggeredCronRunAtMs, CronJob.isStaggeredCronRunAtMs, search]

/-- Maintenance does not move a slot that is not due yet. -/
theorem maintenance_of_isSlot {run later : ℤ} (isCron : job.schedule = .cron (some cron))
    (isNext : job.state.nextRunAtMs = some run) (isSlot : job.isStaggeredCronRunAtMs run = true)
    (positive : 0 < run) (waiting : later < run) (backoffMs : List ℤ)
    (recomputeExpired repairs : Bool) :
    job.recomputeNextRunsForMaintenance backoffMs recomputeExpired repairs later =
      if job.enabled then some run else none := by
  have next := nextRunAtMs_normalizeJobTickState positive isNext later
  unfold CronJob.recomputeNextRunsForMaintenance
  dsimp only
  rw [if_neg]
  · exact next
  rintro ⟨passed, moved⟩
  have enabled : job.enabled = true := by
    by_contra disabled
    exact passed (skips_of_disabled disabled later)
  rw [if_pos enabled] at next
  have stillSlot : (job.normalizeJobTickState later).1.isStaggeredCronRunAtMs run = true := by
    rw [isStaggeredCronRunAtMs_congr ((schedule_normalizeJobTickState isCron later).trans
      isCron.symm) (offsetMs_normalizeJobTickState job later) run]
    exact isSlot
  rcases moved with missing | ⟨-, repaired⟩ | ⟨-, due, -⟩
  · exact missing (by rw [next]; exact decide_eq_true positive)
  · rw [shouldRepair_of_isSlot next stillSlot] at repaired
    exact Bool.false_ne_true repaired
  · rw [next] at due
    exact absurd (of_decide_eq_true due) (not_le.mpr waiting)

/-- A clock that is not before the offset finds the shifted times, and they stay. -/
theorem followsShifted_of_searches (searches : cron.Searches times)
    (isCron : job.schedule = .cron (some cron)) (clock : job.offsetMs ≤ now) :
    job.FollowsShifted times now := by
  have slot : ∀ run, job.computeStaggeredCronNextRunAtMs now = some run →
      now < run ∧ job.isStaggeredCronRunAtMs run = true := by
    intro run found
    obtain ⟨⟨isTime, later⟩, -⟩ := (staggered_next_iff searches isCron clock run).mp found
    refine ⟨later, decide_eq_true ?_⟩
    refine (staggered_previous_iff searches isCron (by omega) run).mpr ⟨⟨isTime, by omega⟩, ?_⟩
    rintro other ⟨-, before⟩
    omega
  refine ⟨staggered_next_iff searches isCron clock, staggered_previous_iff searches isCron clock,
    fun run found => (slot run found).2, fun run found state isNext backoffMs later => ?_⟩
  obtain ⟨after, isSlot⟩ := slot run found
  refine ⟨shouldRepair_of_isSlot isNext isSlot, fun recomputeExpired repairs waiting => ?_⟩
  exact @maintenance_of_isSlot cron { job with state } run later isCron isNext isSlot (by omega)
    waiting backoffMs recomputeExpired repairs

/-- A pattern with a time at every hundredth millisecond, shifted by 7. -/
theorem followsShifted_hundreds :
    CronJob.FollowsShifted
      { schedule := .cron (some ⟨fun now => some ((now / 100 + 1) * 100),
          fun now => some ((now - 1) / 100 * 100)⟩), offsetMs := 7 }
      {time | ∃ step : ℤ, time = step * 100} 1250 :=
  followsShifted_of_searches
    ⟨fun now run => by
      constructor
      · rintro ⟨⟩
        refine ⟨⟨⟨now / 100 + 1, rfl⟩, by omega⟩, ?_⟩
        rintro time ⟨⟨step, rfl⟩, later⟩
        omega
      · rintro ⟨⟨⟨step, rfl⟩, later⟩, least⟩
        have earliest := least ⟨⟨now / 100 + 1, rfl⟩, by omega⟩
        exact congrArg some (by omega),
    fun now run => by
      constructor
      · rintro ⟨⟩
        refine ⟨⟨⟨(now - 1) / 100, rfl⟩, by omega⟩, ?_⟩
        rintro time ⟨⟨step, rfl⟩, earlier⟩
        omega
      · rintro ⟨⟨⟨step, rfl⟩, earlier⟩, greatest⟩
        have latest := greatest ⟨⟨(now - 1) / 100, rfl⟩, by omega⟩
        exact congrArg some (by omega)⟩
    rfl (by decide)

end CronTimes
