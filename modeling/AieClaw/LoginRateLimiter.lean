import AieClaw.OrderedMap
import Mathlib.Data.List.Induction

/-!
# The login rate limiter

The sliding window of `src/auth/rate-limiter.ts`: failures recorded for an address, the check
before an attempt, and the wait that a refused attempt is told. A failure is recorded whether
or not the check allowed the attempt, so a window may hold more of them than the limit.
-/

namespace LoginRateLimiter

open List

inductive Decision where
  | allowed
  /-- Without a failure in the window the hint is not a number. -/
  | denied (retryAfterMs : Option ℤ)
  deriving DecidableEq

structure RateLimiter where
  windowMs : ℤ := 60000
  maxFailures : ℤ := 10
  failureMap : OrderedMap String (List ℤ) := .empty

inductive Call where
  | check (ip : String)
  | recordFailure (ip : String)
  deriving DecidableEq

/-- A call and the time of the clock when it is made. -/
abbrev Event := ℤ × Call

namespace RateLimiter

variable (limiter : RateLimiter)

def timestamps (ip : String) (now : ℤ) : List ℤ :=
  ((limiter.failureMap.get? ip).getD []).filter (now - limiter.windowMs < ·)

/-- The decision, and the limiter with the stale entries of the address pruned. -/
def check (ip : String) (now : ℤ) : Decision × RateLimiter :=
  let timestamps := limiter.timestamps ip now
  (if limiter.maxFailures ≤ timestamps.length then
      .denied (timestamps.head?.map fun oldest => max (oldest + limiter.windowMs - now) 0)
    else .allowed,
    { limiter with failureMap := limiter.failureMap.set ip timestamps })

def recordFailure (ip : String) (now : ℤ) : RateLimiter :=
  { limiter with
    failureMap := limiter.failureMap.set ip (limiter.timestamps ip now ++ [now]) }

def next (event : Event) : RateLimiter :=
  match event.2 with
  | .check ip => (limiter.check ip event.1).2
  | .recordFailure ip => limiter.recordFailure ip event.1

def after (events : List Event) : RateLimiter := events.foldl next limiter

/-- What a check answers after a history of calls. -/
def decisionAfter (events : List Event) (ip : String) (now : ℤ) : Decision :=
  ((limiter.after events).check ip now).1

end RateLimiter

section History

/-- The failures that a history records for an address. -/
def failuresOf (ip : String) (events : List Event) : List ℤ :=
  events.filterMap fun event => if event.2 = .recordFailure ip then some event.1 else none

variable (limiter : RateLimiter)

/-- Those inside the last window. -/
def recentFailures (events : List Event) (ip : String) (now : ℤ) : List ℤ :=
  (failuresOf ip events).filter (now - limiter.windowMs < ·)

/-- The clock never went back, and stands at `now`. -/
def Clocked (events : List Event) (now : ℤ) : Prop :=
  events.Pairwise (fun earlier later => earlier.1 ≤ later.1) ∧ ∀ event ∈ events, event.1 ≤ now

/-- A wait is right: it ends the first moment an attempt is allowed again. -/
def WaitsFor (events : List Event) (ip : String) (now wait : ℤ) : Prop :=
  ∀ later, failuresOf ip later = [] → ∀ moment, now ≤ moment →
    Clocked (events ++ (now, .check ip) :: later) moment →
    (moment = now + wait →
      limiter.decisionAfter (events ++ (now, .check ip) :: later) ip moment = .allowed) ∧
    (moment < now + wait → ∃ hint,
      limiter.decisionAfter (events ++ (now, .check ip) :: later) ip moment = .denied hint)

/-- The check counts the window, and every wait it tells is right. -/
def Limits (events : List Event) (ip : String) (now : ℤ) : Prop :=
  (limiter.decisionAfter events ip now = .allowed ↔
    ((recentFailures limiter events ip now).length : ℤ) < limiter.maxFailures) ∧
  ∀ hint, limiter.decisionAfter events ip now = .denied hint →
    ∃ wait, hint = some wait ∧ WaitsFor limiter events ip now wait

/-- The failures of the window that are younger than its oldest one. -/
def youngerFailures (events : List Event) (ip : String) (now : ℤ) :
    List ℤ :=
  let recent := recentFailures limiter events ip now
  recent.filter (recent.headD 0 < ·)

end History

variable {windowMs maxFailures now : ℤ} {ip : String} {events later : List Event}

theorem after_concat (limiter : RateLimiter) (event : Event) :
    limiter.after (events ++ [event]) = (limiter.after events).next event := by
  simp [RateLimiter.after, foldl_append]

theorem settings_after (limiter : RateLimiter) (events : List Event) :
    (limiter.after events).windowMs = limiter.windowMs ∧
      (limiter.after events).maxFailures = limiter.maxFailures := by
  induction events using List.reverseRecOn with
  | nil => exact ⟨rfl, rfl⟩
  | append_singleton events event inductionHypothesis =>
    rw [after_concat]
    obtain ⟨time, call⟩ := event
    cases call <;> exact inductionHypothesis

theorem filter_filter_above {low high : ℤ} (below : low ≤ high) (times : List ℤ) :
    (times.filter (low < ·)).filter (high < ·) = times.filter (high < ·) := by
  rw [filter_filter]
  refine filter_congr fun time _ => ?_
  rw [Bool.and_eq_left_iff_imp, decide_eq_true_iff, decide_eq_true_iff]
  omega

theorem timestamps_after (clocked : Clocked events now) :
    (RateLimiter.after { windowMs, maxFailures } events).timestamps ip now =
      recentFailures { windowMs, maxFailures } events ip now := by
  induction events using List.reverseRecOn with
  | nil => rfl
  | append_singleton events event inductionHypothesis =>
    obtain ⟨ordered, past⟩ := clocked
    have before := inductionHypothesis
      ⟨(pairwise_append.mp ordered).1, fun other member => past other (by simp [member])⟩
    have present : event.1 ≤ now := past event (by simp)
    have window := (settings_after { windowMs, maxFailures } events).1
    obtain ⟨time, call⟩ := event
    rw [after_concat]
    simp only [RateLimiter.timestamps, recentFailures, failuresOf, window] at before ⊢
    cases call with
    | check other =>
      simp only [RateLimiter.next, RateLimiter.check, RateLimiter.timestamps, window,
        OrderedMap.get?_set, filterMap_append]
      by_cases same : other = ip
      · subst other
        simpa [filter_filter_above (by omega : time - windowMs ≤ now - windowMs)] using before
      · simpa [same, Ne.symm same] using before
    | recordFailure other =>
      simp only [RateLimiter.next, RateLimiter.recordFailure, RateLimiter.timestamps, window,
        OrderedMap.get?_set, filterMap_append]
      by_cases same : other = ip
      · subst other
        simpa [filter_filter_above (by omega : time - windowMs ≤ now - windowMs)] using before
      · simpa [same, Ne.symm same] using before

theorem decisionAfter_eq (clocked : Clocked events now) :
    RateLimiter.decisionAfter { windowMs, maxFailures } events ip now =
      if maxFailures ≤ (recentFailures { windowMs, maxFailures } events ip now).length then
        .denied ((recentFailures { windowMs, maxFailures } events ip now).head?.map fun oldest =>
          max (oldest + windowMs - now) 0)
      else .allowed := by
  obtain ⟨window, limit⟩ := settings_after { windowMs, maxFailures } events
  simp only [RateLimiter.decisionAfter, RateLimiter.check, timestamps_after clocked, window, limit]

theorem failuresOf_append_quiet (quiet : failuresOf ip later = []) :
    failuresOf ip (events ++ (now, .check ip) :: later) = failuresOf ip events := by
  unfold failuresOf at quiet ⊢
  simp [filterMap_append, quiet]

theorem pairwise_failuresOf (ip : String) (clocked : Clocked events now) :
    (failuresOf ip events).Pairwise (· ≤ ·) := by
  refine clocked.1.filterMap _ fun first second before time isFirst other isSecond => ?_
  split at isFirst <;> split at isSecond <;> simp_all

/-- A wait is right when few enough failures of the window outlive its oldest one. -/
theorem waitsFor_oldest_iff {oldest : ℤ} {rest : List ℤ} (clocked : Clocked events now)
    (recent : recentFailures { windowMs, maxFailures } events ip now = oldest :: rest)
    (full : maxFailures ≤ (recentFailures { windowMs, maxFailures } events ip now).length) :
    WaitsFor { windowMs, maxFailures } events ip now (oldest + windowMs - now) ↔
      ((youngerFailures { windowMs, maxFailures } events ip now).length : ℤ) < maxFailures := by
  have isRecent : now - windowMs < oldest := by
    have member : oldest ∈ recentFailures { windowMs, maxFailures } events ip now := by
      simp [recent]
    simpa using (mem_filter.mp member).2
  have present : oldest ≤ now := by
    have member : oldest ∈ failuresOf ip events :=
      mem_of_mem_filter (recent ▸ mem_cons_self)
    obtain ⟨event, isEvent, isFailure⟩ := mem_filterMap.mp member
    have past := clocked.2 event isEvent
    split at isFailure <;> simp_all
  have younger : youngerFailures { windowMs, maxFailures } events ip now =
      (failuresOf ip events).filter (oldest < ·) := by
    simp only [youngerFailures, recent, headD_cons]
    rw [← recent]
    exact filter_filter_above isRecent.le _
  -- Later checks count the same failures above a bound that moves with the clock.
  have later_eq {later : List Event} (quiet : failuresOf ip later = []) (moment : ℤ) :
      recentFailures { windowMs, maxFailures } (events ++ (now, .check ip) :: later) ip moment =
        (failuresOf ip events).filter (moment - windowMs < ·) := by
    rw [recentFailures, failuresOf_append_quiet quiet]
  rw [younger]
  constructor
  · intro waits
    have clockedNow : Clocked (events ++ [(now, .check ip)]) (oldest + windowMs) := by
      refine ⟨pairwise_append.mpr ⟨clocked.1, by simp, ?_⟩, ?_⟩
      · simpa using fun time call member => clocked.2 (time, call) member
      · intro event member
        rcases mem_append.mp member with earlier | last
        · have := clocked.2 event earlier
          omega
        · rw [mem_singleton.mp last]
          dsimp only
          omega
    have allowed := (waits [] rfl (oldest + windowMs) (by omega) clockedNow).1 (by omega)
    rw [decisionAfter_eq clockedNow, later_eq rfl, ite_eq_right_iff] at allowed
    rw [Int.add_sub_cancel] at allowed
    by_contra many
    cases allowed (by omega)
  · intro few later quiet moment _ clockedLater
    rw [decisionAfter_eq clockedLater, later_eq quiet]
    refine ⟨?_, fun early => ⟨_, if_pos ?_⟩⟩
    · rintro rfl
      rw [show now + (oldest + windowMs - now) - windowMs = oldest by omega]
      exact if_neg (by omega)
    · -- Before the wait is over every failure of the refused window still counts.
      have kept : ∀ failure ∈ failuresOf ip events, decide (now - windowMs < failure) = true →
          decide (moment - windowMs < failure) = true := by
        intro failure member inside
        have sorted := (pairwise_failuresOf ip clocked).filter
          fun time => decide (now - windowMs < time)
        have inRecent : failure ∈ oldest :: rest := recent ▸ mem_filter.mpr ⟨member, inside⟩
        rw [show List.filter _ _ = oldest :: rest from recent] at sorted
        have least : oldest ≤ failure := by
          rcases mem_cons.mp inRecent with rfl | behind
          · exact le_rfl
          · exact rel_of_pairwise_cons sorted behind
        rw [decide_eq_true_iff]
        omega
      have grows := countP_mono_left kept
      rw [countP_eq_length_filter, countP_eq_length_filter] at grows
      have counted : maxFailures ≤
          ((failuresOf ip events).filter (now - windowMs < ·)).length := full
      omega

/--
The check always counts the window. The wait it tells is computed from the oldest failure of
the window, and is right exactly when fewer failures than the limit are younger than that one.
-/
theorem limits_iff_youngerFailures (clocked : Clocked events now) :
    Limits { windowMs, maxFailures } events ip now ↔
      ((youngerFailures { windowMs, maxFailures } events ip now).length : ℤ) < maxFailures := by
  have shorter : (youngerFailures { windowMs, maxFailures } events ip now).length ≤
      (recentFailures { windowMs, maxFailures } events ip now).length :=
    length_filter_le _ _
  rw [Limits, decisionAfter_eq clocked]
  by_cases full : maxFailures ≤ (recentFailures { windowMs, maxFailures } events ip now).length
  · have counts : ¬((recentFailures { windowMs, maxFailures } events ip now).length : ℤ) <
        maxFailures := by omega
    simp only [if_pos full, counts, reduceCtorEq, true_and, Decision.denied.injEq, forall_eq']
    cases recent : recentFailures { windowMs, maxFailures } events ip now with
    | nil =>
      simp only [recent, length_nil] at full shorter
      simp only [head?_nil, Option.map_none, reduceCtorEq, false_and, exists_false, false_iff]
      omega
    | cons oldest rest =>
      have isRecent : now - windowMs < oldest := by
        have member : oldest ∈ recentFailures { windowMs, maxFailures } events ip now := by
          simp [recent]
        simpa using (mem_filter.mp member).2
      simp only [head?_cons, Option.map_some, Option.some.injEq, exists_eq_left']
      rw [max_eq_left (by omega)]
      exact waitsFor_oldest_iff clocked recent full
  · have counts : ((recentFailures { windowMs, maxFailures } events ip now).length : ℤ) <
        maxFailures := by omega
    simp only [if_neg full, counts, reduceCtorEq, false_implies, implies_true, and_true]
    exact iff_of_true trivial (by omega)

/-- Two failures a while apart under a limit of two. -/
theorem limits_atLimit :
    Limits { windowMs := 10, maxFailures := 2 }
      [(0, .recordFailure "10.0.0.1"), (5, .recordFailure "10.0.0.1")] "10.0.0.1" 6 :=
  (limits_iff_youngerFailures ⟨by decide, by decide⟩).mpr (by decide)

/-- Under a limit of one, the wait ends with the older failure while the other still counts. -/
theorem not_limits_beyondLimit :
    ¬Limits { windowMs := 10, maxFailures := 1 }
      [(0, .recordFailure "10.0.0.1"), (5, .recordFailure "10.0.0.1")] "10.0.0.1" 6 := by
  intro limits
  obtain ⟨wait, isWait, waits⟩ := limits.2 (some 4) (by decide)
  cases isWait
  have allowed := (waits [] rfl 10 (by decide) ⟨by decide, by decide⟩).1 rfl
  exact absurd allowed (by decide)

end LoginRateLimiter
