import AieClaw.AuthRateLimiter
import Mathlib.Tactic.Linarith
import Mathlib.Tactic.NormNum

/-!
# Looking does not count

Every call changes the entry of a key on its own, and a check answers from what the entry
means at that moment: locked until some instant, or open with some attempts. Looks keep that
meaning. A failure keeps two entries of one meaning alike as long as none of them carries a
lockout that is over.
-/

namespace AuthRateLimiter

open List

/-- What an entry means for a check. -/
inductive View where
  | locked (lockedUntil : ℚ)
  | unlocked (attempts : List ℕ)
  deriving DecidableEq, Repr

section Keys

variable (config : RateLimitConfig) (reader : AddressReader)

/-- What a call does to the entry of a key. -/
def entryNext (key : String) (entry : Option RateLimitEntry) (event : Event) :
    Option RateLimitEntry :=
  match event.2 with
  | .check ip scope =>
    if isExempt config reader ip = false ∧ resolveKey reader ip scope = key then
      entry.map fun entry => entry.checked config event.1
    else entry
  | .recordFailure ip scope =>
    if concerns config reader key (.recordFailure ip scope) then
      some ((entry.getD .empty).recorded config event.1)
    else entry
  | .reset ip scope => if resolveKey reader ip scope = key then none else entry
  | .prune => entry.bind fun entry => entry.pruned config event.1

variable {config reader} {entries : Entries} {key : String}

theorem get?_prune (now : ℕ) : (prune config entries now).get? key =
    (entries.get? key).bind fun entry => entry.pruned config now := by
  rw [prune, OrderedMap.get?_mapValues]
  cases found : entries.get? key with
  | none =>
    have dropped : (entries.filter fun entry => (entry.2.pruned config now).isSome).get? key =
        none := by
      rw [OrderedMap.get?_eq_none_iff] at found ⊢
      intro entry member
      exact found entry (mem_of_mem_filter member)
    rw [dropped]
    rfl
  | some entry =>
    rw [Option.bind_some]
    cases left : entry.pruned config now with
    | none =>
      have dropped : (entries.filter fun entry => (entry.2.pruned config now).isSome).get? key =
          none := by
        rw [Option.eq_none_iff_forall_ne_some]
        intro other isOther
        obtain ⟨isEntry, kept⟩ := OrderedMap.get?_filter_eq_some_iff.mp isOther
        obtain rfl : entry = other := Option.some.inj (found.symm.trans isEntry)
        simp [left] at kept
      rw [dropped]
      rfl
    | some remaining =>
      have kept : (entries.filter fun entry => (entry.2.pruned config now).isSome).get? key =
          some entry :=
        OrderedMap.get?_filter_eq_some_iff.mpr ⟨found, by simp [left]⟩
      rw [kept, Option.map_some, left]
      rfl

/-- A call changes each key on its own. -/
theorem get?_next (event : Event) : (next config reader entries event).get? key =
    entryNext config reader key (entries.get? key) event := by
  obtain ⟨now, call⟩ := event
  cases call with
  | check ip scope =>
    simp only [next, check, entryNext]
    cases exempt : isExempt config reader ip with
    | true => simp
    | false =>
      by_cases same : resolveKey reader ip scope = key
      · subst same
        cases found : entries.get? (resolveKey reader ip scope) with
        | none => simp [found]
        | some entry => simp
      · cases entries.get? (resolveKey reader ip scope) with
        | none => simp [same]
        | some entry => simp [same, OrderedMap.get?_set_of_ne (Ne.symm same)]
  | recordFailure ip scope =>
    simp only [next, recordFailure, entryNext, concerns]
    by_cases exempt : isExempt config reader ip = true
    · simp [exempt]
    · by_cases same : resolveKey reader ip scope = key
      · subst same
        simp [exempt]
      · simp [exempt, same, OrderedMap.get?_set_of_ne (Ne.symm same)]
  | reset ip scope =>
    simp only [next, reset, entryNext]
    by_cases same : resolveKey reader ip scope = key
    · subst same
      simp
    · simp [same, OrderedMap.get?_delete_of_ne (Ne.symm same)]
  | prune => exact get?_prune now

theorem after_concat (run : List Event) (event : Event) :
    after config reader (run ++ [event]) = next config reader (after config reader run) event := by
  simp [after, foldl_append]

end Keys

section Views

open RateLimitEntry

variable (config : RateLimitConfig)

/-- What an entry means at a moment. -/
def view (entry : Option RateLimitEntry) (now : ℕ) : View :=
  match entry with
  | none => .unlocked []
  | some entry =>
    match entry.lock with
    | some lockedUntil => if (now : ℚ) < lockedUntil then .locked lockedUntil else .unlocked []
    | none => .unlocked (slideWindow config now entry.attempts)

namespace View

/-- The same meaning at a later moment. -/
def later (now : ℕ) : View → View
  | .locked lockedUntil => if (now : ℚ) < lockedUntil then .locked lockedUntil else .unlocked []
  | .unlocked attempts => .unlocked (slideWindow config now attempts)

/-- One more failure. -/
def recorded (now : ℕ) : View → View
  | .locked lockedUntil => .locked lockedUntil
  | .unlocked attempts =>
    if config.maxAttempts ≤ (attempts ++ [now]).length then .locked (now + config.lockoutMs)
    else .unlocked (attempts ++ [now])

/-- What a check answers. -/
def result (now : ℕ) : View → RateLimitCheckResult
  | .locked lockedUntil =>
    { allowed := false, remaining := 0, retryAfterMs := lockedUntil - now }
  | .unlocked attempts =>
    let remaining := max 0 (config.maxAttempts - attempts.length)
    { allowed := decide (0 < remaining), remaining := remaining, retryAfterMs := 0 }

end View

variable {config} {entry : RateLimitEntry} {now moment : ℕ} {attempts : List ℕ}

theorem slideWindow_slideWindow (passes : now ≤ moment) :
    slideWindow config moment (slideWindow config now attempts) =
      slideWindow config moment attempts := by
  rw [slideWindow, slideWindow, filter_filter]
  refine filter_congr fun attempt _ => ?_
  rw [Bool.and_eq_left_iff_imp, decide_eq_true_iff, decide_eq_true_iff]
  intro inside
  have passes : (now : ℚ) ≤ moment := Nat.cast_le.mpr passes
  linarith

theorem slideWindow_concat (positive : config.Positive) :
    slideWindow config now (slideWindow config now attempts ++ [now]) =
      slideWindow config now attempts ++ [now] := by
  have inside : decide ((now : ℚ) - config.windowMs < now) = true := by
    have := positive.windowMs
    exact decide_eq_true (by linarith)
  rw [slideWindow, filter_append, ← slideWindow, slideWindow_slideWindow le_rfl, filter_cons,
    if_pos inside, filter_nil]

theorem isLocked_iff : entry.isLocked now = true ↔
    ∃ lockedUntil, entry.lock = some lockedUntil ∧ (now : ℚ) < lockedUntil := by
  simp [isLocked, Option.any_eq_true]

theorem view_of_isLocked {lockedUntil : ℚ} (isLock : entry.lock = some lockedUntil)
    (inside : (now : ℚ) < lockedUntil) : view config (some entry) now = .locked lockedUntil := by
  simp [view, isLock, inside]

theorem view_later (entry : Option RateLimitEntry) (passes : now ≤ moment) :
    view config entry moment = (view config entry now).later config moment := by
  cases entry with
  | none => rfl
  | some entry =>
    have passes' : (now : ℚ) ≤ moment := Nat.cast_le.mpr passes
    cases isLock : entry.lock with
    | none => simp only [view, isLock, View.later, slideWindow_slideWindow passes]
    | some lockedUntil =>
      simp only [view, isLock]
      by_cases inside : (now : ℚ) < lockedUntil
      · rw [if_pos inside]
        rfl
      · rw [if_neg inside, if_neg (by linarith)]
        rfl

theorem view_checked : view config (some (entry.checked config now)) now =
    view config (some entry) now := by
  rw [checked]
  by_cases locked : entry.isLocked now = true
  · rw [if_pos locked]
  · rw [if_neg locked]
    cases isLock : entry.lock with
    | none =>
      have stays : ({ entry with attempts := slideWindow config now entry.attempts } :
          RateLimitEntry).lock = none := isLock
      simp only [Option.isSome_none, Bool.false_eq_true, if_false, view, stays, isLock,
        slideWindow_slideWindow le_rfl]
    | some lockedUntil =>
      have passed : ¬(now : ℚ) < lockedUntil := fun inside =>
        locked (isLocked_iff.mpr ⟨lockedUntil, isLock, inside⟩)
      simp only [Option.isSome_some, if_true, view, isLock, if_neg passed]
      rfl

theorem view_pruned : view config (entry.pruned config now) now =
    view config (some entry) now := by
  rw [pruned]
  by_cases locked : entry.isLocked now = true
  · rw [if_pos locked]
  · rw [if_neg locked]
    have stays : ({ entry with attempts := slideWindow config now entry.attempts } :
        RateLimitEntry).lock = entry.lock := rfl
    cases isLock : entry.lock with
    | none =>
      by_cases nothing : slideWindow config now entry.attempts = []
      · simp [view, isLock, nothing]
      · simp only [if_neg nothing, view, stays, isLock, slideWindow_slideWindow le_rfl]
    | some lockedUntil =>
      have passed : ¬(now : ℚ) < lockedUntil := fun inside =>
        locked (isLocked_iff.mpr ⟨lockedUntil, isLock, inside⟩)
      by_cases nothing : slideWindow config now entry.attempts = []
      · simp [view, isLock, nothing, passed]
      · simp only [if_neg nothing, view, stays, isLock, if_neg passed]

/-- An entry carries no lockout that is over. -/
def NotOver (entry : Option RateLimitEntry) (now : ℕ) : Prop :=
  ∀ stored lockedUntil, entry = some stored → stored.lock = some lockedUntil →
    (now : ℚ) < lockedUntil

theorem lock_some_of_ne_zero {attempts : List ℕ} {lockedUntil : ℚ} (nonzero : lockedUntil ≠ 0) :
    ({ attempts := attempts, lockedUntil := some lockedUntil } : RateLimitEntry).lock =
      some lockedUntil := by
  simp [lock, nonzero]

theorem lockout_ne_zero (positive : config.Positive) : (now : ℚ) + config.lockoutMs ≠ 0 := by
  have := positive.lockoutMs
  have : (0 : ℚ) ≤ now := Nat.cast_nonneg now
  linarith

theorem recorded_of_not_locked (unlocked : entry.isLocked now = false) :
    entry.recorded config now =
      { attempts := slideWindow config now entry.attempts ++ [now]
        lockedUntil :=
          if config.maxAttempts ≤ (slideWindow config now entry.attempts ++ [now]).length then
            some (now + config.lockoutMs)
          else entry.lockedUntil } := by
  simp only [recorded, unlocked, Bool.false_eq_true, if_false]

theorem lock_recorded (positive : config.Positive) (unlocked : entry.isLocked now = false) :
    (entry.recorded config now).lock =
      if config.maxAttempts ≤ (slideWindow config now entry.attempts ++ [now]).length then
        some ((now : ℚ) + config.lockoutMs)
      else entry.lock := by
  rw [recorded_of_not_locked unlocked]
  by_cases enough :
    config.maxAttempts ≤ (slideWindow config now entry.attempts ++ [now]).length
  · simp only [if_pos enough]
    exact lock_some_of_ne_zero (lockout_ne_zero positive)
  · simp only [if_neg enough]
    rfl

/-- A single failure that is enough locks whatever the entry was. -/
theorem view_recorded_of_not_locked (positive : config.Positive)
    (unlocked : entry.isLocked now = false)
    (fresh : config.maxAttempts ≤ 1 ∨ entry.lock = none) :
    view config (some (entry.recorded config now)) now =
      (view config (some entry) now).recorded config now := by
  have later : (now : ℚ) < now + config.lockoutMs := by
    have := positive.lockoutMs
    linarith
  have isLock := lock_recorded positive unlocked
  have one : ((slideWindow config now entry.attempts ++ [now]).length : ℚ) =
      (slideWindow config now entry.attempts).length + 1 := by
    simp
  have some_attempts : (0 : ℚ) ≤ (slideWindow config now entry.attempts).length :=
    Nat.cast_nonneg _
  cases found : entry.lock with
  | some lockedUntil =>
    have single : config.maxAttempts ≤ 1 := by
      rcases fresh with single | none
      · exact single
      · simp [none] at found
    have passed : ¬(now : ℚ) < lockedUntil := by
      intro inside
      have locked := isLocked_iff.mpr ⟨lockedUntil, found, inside⟩
      simp [unlocked] at locked
    rw [if_pos (by linarith)] at isLock
    rw [view_of_isLocked isLock later]
    simp [view, found, passed, View.recorded, single]
  | none =>
    by_cases enough :
      config.maxAttempts ≤ (slideWindow config now entry.attempts ++ [now]).length
    · rw [if_pos enough] at isLock
      rw [view_of_isLocked isLock later]
      simp only [view, found, View.recorded, if_pos enough]
    · rw [if_neg enough, found] at isLock
      have attempts : (entry.recorded config now).attempts =
          slideWindow config now entry.attempts ++ [now] := by
        rw [recorded_of_not_locked unlocked]
      simp only [view, isLock, found, attempts, slideWindow_concat positive, View.recorded,
        if_neg enough]

theorem recorded_of_locked (locked : entry.isLocked now = true) :
    entry.recorded config now = entry := by
  rw [recorded, if_pos locked]

theorem view_empty : view config (some .empty) now = view config none now := rfl

theorem view_recorded (positive : config.Positive) {entry : Option RateLimitEntry}
    (fresh : config.maxAttempts ≤ 1 ∨ NotOver entry now) :
    view config (some ((entry.getD .empty).recorded config now)) now =
      (view config entry now).recorded config now := by
  cases entry with
  | none =>
    rw [← view_empty]
    exact view_recorded_of_not_locked positive rfl (.inr rfl)
  | some entry =>
    rw [Option.getD_some]
    cases unlocked : entry.isLocked now with
    | true =>
      obtain ⟨lockedUntil, isLock, inside⟩ := isLocked_iff.mp unlocked
      rw [recorded_of_locked unlocked, view_of_isLocked isLock inside]
      rfl
    | false =>
      refine view_recorded_of_not_locked positive unlocked (fresh.imp_right fun notOver => ?_)
      by_contra locked
      obtain ⟨lockedUntil, isLock⟩ := Option.ne_none_iff_exists'.mp locked
      have inside := isLocked_iff.mpr ⟨lockedUntil, isLock, notOver _ _ rfl isLock⟩
      simp [unlocked] at inside

end Views

section Agreement

open RateLimitEntry

variable {config : RateLimitConfig} {reader : AddressReader} {key : String} {now moment : ℕ}

/-- An entry means what another one means, and has no lockout that the other does not have. -/
structure Agrees (config : RateLimitConfig) (now : ℕ) (entry other : Option RateLimitEntry) :
    Prop where
  sameView : view config entry now = view config other now
  noOtherLock : ∀ stored lockedUntil, entry = some stored → stored.lock = some lockedUntil →
    ∃ storedOther, other = some storedOther ∧ storedOther.lock = some lockedUntil

theorem Agrees.later {entry other : Option RateLimitEntry} (agrees : Agrees config now entry other)
    (passes : now ≤ moment) : Agrees config moment entry other where
  sameView := by rw [view_later entry passes, agrees.sameView, ← view_later other passes]
  noOtherLock := agrees.noOtherLock

theorem Agrees.notOver {entry other : Option RateLimitEntry}
    (agrees : Agrees config now entry other) (notOver : NotOver other now) : NotOver entry now := by
  intro stored lockedUntil isEntry isLock
  obtain ⟨storedOther, isOther, otherLock⟩ := agrees.noOtherLock stored lockedUntil isEntry isLock
  exact notOver storedOther lockedUntil isOther otherLock

theorem lock_checked {entry : RateLimitEntry} {lockedUntil : ℚ}
    (isLock : (entry.checked config now).lock = some lockedUntil) :
    entry.lock = some lockedUntil := by
  rw [checked] at isLock
  by_cases locked : entry.isLocked now = true
  · rwa [if_pos locked] at isLock
  · rw [if_neg locked] at isLock
    by_cases passed : entry.lock.isSome = true
    · rw [if_pos passed] at isLock
      cases isLock
    · rwa [if_neg passed] at isLock

theorem lock_pruned {entry left : RateLimitEntry} (isLeft : entry.pruned config now = some left) :
    left.lock = entry.lock := by
  rw [pruned] at isLeft
  by_cases locked : entry.isLocked now = true
  · rw [if_pos locked] at isLeft
    rw [← Option.some.inj isLeft]
  · rw [if_neg locked] at isLeft
    by_cases nothing : slideWindow config now entry.attempts = []
    · simp [nothing] at isLeft
    · rw [if_neg nothing] at isLeft
      rw [← Option.some.inj isLeft]
      rfl

theorem Agrees.look {entry other : Option RateLimitEntry} {event : Event}
    (agrees : Agrees config event.1 entry other) (look : event.2.isLook = true) :
    Agrees config event.1 (entryNext config reader key entry event) other := by
  obtain ⟨now, call⟩ := event
  cases call with
  | check ip scope =>
    simp only [entryNext]
    by_cases isKey : isExempt config reader ip = false ∧ resolveKey reader ip scope = key
    · rw [if_pos isKey]
      cases entry with
      | none => exact agrees
      | some entry =>
        refine ⟨view_checked.trans agrees.sameView, ?_⟩
        rintro _ lockedUntil ⟨⟩ isLock
        exact agrees.noOtherLock entry lockedUntil rfl (lock_checked isLock)
    · rw [if_neg isKey]
      exact agrees
  | prune =>
    simp only [entryNext]
    cases entry with
    | none => exact agrees
    | some entry =>
      refine ⟨view_pruned.trans agrees.sameView, ?_⟩
      intro left lockedUntil isLeft isLock
      exact agrees.noOtherLock entry lockedUntil rfl (by rwa [lock_pruned isLeft] at isLock)
  | recordFailure ip scope => simp [Call.isLook] at look
  | reset ip scope => simp [Call.isLook] at look

theorem Agrees.recordFailure (positive : config.Positive) {entry other : Option RateLimitEntry}
    (agrees : Agrees config now entry other)
    (fresh : config.maxAttempts ≤ 1 ∨ NotOver other now) :
    Agrees config now (some ((entry.getD .empty).recorded config now))
      (some ((other.getD .empty).recorded config now)) := by
  have views : view config (some (entry.getD .empty)) now =
      view config (some (other.getD .empty)) now := by
    have ofEmpty : ∀ entry : Option RateLimitEntry,
        view config (some (entry.getD .empty)) now = view config entry now := by
      rintro (_ | entry) <;> rfl
    rw [ofEmpty, ofEmpty, agrees.sameView]
  have viewsAfter := (view_recorded positive (fresh.imp_right agrees.notOver)).trans
    ((congrArg (View.recorded config now) agrees.sameView).trans
      (view_recorded positive fresh).symm)
  refine ⟨viewsAfter, ?_⟩
  rintro _ lockedUntil ⟨⟩ isLock
  refine ⟨_, rfl, ?_⟩
  by_cases inside : (now : ℚ) < lockedUntil
  · -- the lockout of the moment is what the views show
    rw [view_of_isLocked isLock inside] at viewsAfter
    cases otherLock : ((other.getD .empty).recorded config now).lock with
    | none => simp [view, otherLock] at viewsAfter
    | some otherUntil =>
      by_cases otherInside : (now : ℚ) < otherUntil
      · rw [view_of_isLocked otherLock otherInside] at viewsAfter
        rw [View.locked.inj viewsAfter]
      · simp [view, otherLock, otherInside] at viewsAfter
  · exfalso
    cases unlocked : (entry.getD .empty).isLocked now with
    | true =>
      rw [recorded_of_locked unlocked] at isLock
      obtain ⟨stored, isStored, storedInside⟩ := isLocked_iff.mp unlocked
      rw [isLock] at isStored
      exact inside (Option.some.inj isStored ▸ storedInside)
    | false =>
      rw [lock_recorded positive unlocked] at isLock
      by_cases enough : config.maxAttempts ≤
          (slideWindow config now (entry.getD .empty).attempts ++ [now]).length
      · rw [if_pos enough] at isLock
        have := positive.lockoutMs
        have := Option.some.inj isLock
        exact inside (by linarith)
      · rw [if_neg enough] at isLock
        rcases fresh with single | notOver
        · apply enough
          have : (0 : ℚ) ≤
              (slideWindow config now (entry.getD .empty).attempts).length := Nat.cast_nonneg _
          rw [length_append, length_singleton, Nat.cast_add, Nat.cast_one]
          linarith
        · cases entry with
          | none => simp [RateLimitEntry.empty, RateLimitEntry.lock] at isLock
          | some stored => exact inside (agrees.notOver notOver stored lockedUntil rfl isLock)

end Agreement

section Runs

open RateLimitEntry

variable {config : RateLimitConfig} {reader : AddressReader} {key : String} {now : ℕ}
  {run : List Event}

theorem writesOf_append (run later : List Event) :
    writesOf (run ++ later) = writesOf run ++ writesOf later :=
  filter_append ..

theorem writesOf_of_leavesOut {fewer : List Event} (leaves : LeavesOut run fewer) :
    writesOf fewer = writesOf run := by
  induction leaves with
  | nil => rfl
  | keep event rest inductionHypothesis =>
    change writesOf ([event] ++ _) = writesOf ([event] ++ _)
    rw [writesOf_append, writesOf_append, inductionHypothesis]
  | leave event look rest inductionHypothesis =>
    rw [inductionHypothesis, writesOf, writesOf, filter_cons, look]
    rfl

theorem sublist_of_leavesOut {fewer : List Event} (leaves : LeavesOut run fewer) :
    fewer <+ run := by
  induction leaves with
  | nil => exact .refl []
  | keep event rest inductionHypothesis => exact inductionHypothesis.cons_cons event
  | leave event look rest inductionHypothesis => exact inductionHypothesis.cons event

theorem NeverFailsAfterLockout.prefix {later : List Event}
    (never : NeverFailsAfterLockout config reader (run ++ later)) :
    NeverFailsAfterLockout config reader run := by
  intro key before event rest split
  exact never key before event (rest ++ later) (by rw [split]; simp)

theorem isLook_eq_false_of_concerns {call : Call}
    (concern : concerns config reader key call = true) :
    call.isLook = false := by
  cases call <;> first | rfl | cases concern

/-- Every run agrees with its writes alone, at each of its keys. -/
theorem agrees_writesOf (positive : config.Positive) (clocked : Clocked run)
    (fresh : config.maxAttempts ≤ 1 ∨ NeverFailsAfterLockout config reader (writesOf run))
    (reached : ∀ event ∈ run, event.1 ≤ now) :
    Agrees config now ((after config reader run).get? key)
      ((after config reader (writesOf run)).get? key) := by
  induction run using List.reverseRecOn generalizing now with
  | nil => exact ⟨rfl, fun _ lockedUntil isEntry => by cases isEntry⟩
  | append_singleton run event inductionHypothesis =>
    obtain ⟨clockedRun, -, ordered⟩ := pairwise_append.mp clocked
    rw [writesOf_append] at fresh ⊢
    have agreed := inductionHypothesis clockedRun
      (fresh.imp_right NeverFailsAfterLockout.prefix)
      (fun earlier member => ordered earlier member event (mem_singleton_self event))
    refine Agrees.later ?_ (reached event (by simp))
    rw [after_concat, get?_next]
    cases look : event.2.isLook with
    | true =>
      have none : writesOf [event] = [] := by simp [writesOf, look]
      rw [none, append_nil]
      exact agreed.look look
    | false =>
      have one : writesOf [event] = [event] := by simp [writesOf, look]
      rw [one] at fresh ⊢
      rw [after_concat, get?_next]
      obtain ⟨time, call⟩ := event
      cases call with
      | check ip scope => cases look
      | prune => cases look
      | reset ip scope =>
        simp only [entryNext]
        by_cases isKey : resolveKey reader ip scope = key
        · rw [if_pos isKey, if_pos isKey]
          exact ⟨rfl, fun _ lockedUntil isEntry => by cases isEntry⟩
        · rw [if_neg isKey, if_neg isKey]
          exact agreed
      | recordFailure ip scope =>
        simp only [entryNext]
        by_cases concern : concerns config reader key (.recordFailure ip scope) = true
        · rw [if_pos concern, if_pos concern]
          refine agreed.recordFailure positive (fresh.imp_right fun never => ?_)
          intro stored lockedUntil isStored isLock
          exact never key _ _ [] rfl concern stored lockedUntil isStored isLock
        · rw [if_neg concern, if_neg concern]
          exact agreed

theorem checkResult_eq_result (positive : config.Positive) {entries : Entries}
    {ip scope : Option String} (counted : isExempt config reader ip = false) :
    checkResult config reader entries now ip scope =
      (view config (entries.get? (resolveKey reader ip scope)) now).result config now := by
  rw [checkResult, if_neg (by simp [counted])]
  cases entries.get? (resolveKey reader ip scope) with
  | none =>
    have := positive.maxAttempts
    simp [view, View.result, freshResult, this, this.le]
  | some entry =>
    rw [Option.elim_some, entryResult]
    cases locked : entry.isLocked now with
    | true =>
      obtain ⟨lockedUntil, isLock, inside⟩ := isLocked_iff.mp locked
      rw [if_pos rfl, view_of_isLocked isLock inside, isLock]
      rfl
    | false =>
      rw [if_neg (by simp), RateLimitEntry.checked, if_neg (by simp [locked])]
      cases isLock : entry.lock with
      | none => simp [view, isLock, View.result]
      | some lockedUntil =>
        have passed : ¬(now : ℚ) < lockedUntil := by
          intro inside
          have := isLocked_iff.mpr ⟨lockedUntil, isLock, inside⟩
          simp [locked] at this
        simp [view, isLock, passed, View.result]

theorem sameAnswers_of_fresh (positive : config.Positive) (clocked : Clocked run)
    (fresh : config.maxAttempts ≤ 1 ∨ NeverFailsAfterLockout config reader (writesOf run))
    {before later fewer : List Event} {ip scope : Option String}
    (split : run = before ++ (now, .check ip scope) :: later) (leaves : LeavesOut before fewer) :
    checkResult config reader (after config reader fewer) now ip scope =
      checkResult config reader (after config reader before) now ip scope := by
  cases exempt : isExempt config reader ip with
  | true => simp [checkResult, exempt]
  | false =>
    subst split
    obtain ⟨clockedBefore, -, ordered⟩ := pairwise_append.mp clocked
    have reached : ∀ event ∈ before, event.1 ≤ now := fun event member =>
      ordered event member _ mem_cons_self
    have freshBefore : config.maxAttempts ≤ 1 ∨
        NeverFailsAfterLockout config reader (writesOf before) := by
      rw [writesOf_append] at fresh
      exact fresh.imp_right NeverFailsAfterLockout.prefix
    have fewerSublist := sublist_of_leavesOut leaves
    have sameWrites := writesOf_of_leavesOut leaves
    rw [checkResult_eq_result positive exempt, checkResult_eq_result positive exempt,
      (agrees_writesOf positive clockedBefore freshBefore reached).sameView,
      (agrees_writesOf positive (clockedBefore.sublist fewerSublist) (sameWrites ▸ freshBefore)
        fun event member => reached event (fewerSublist.subset member)).sameView, sameWrites]

/-- What a call records for a key. -/
def recordedBy (config : RateLimitConfig) (reader : AddressReader) (key : String)
    (entry : Option RateLimitEntry) (event : Event) : List ℕ :=
  if concerns config reader key event.2 && !(entry.getD .empty).isLocked event.1 then [event.1]
  else []

theorem recordedFailures_append (entries : Entries) (run later : List Event) :
    recordedFailures config reader key entries (run ++ later) =
      recordedFailures config reader key entries run ++
        recordedFailures config reader key (run.foldl (next config reader) entries) later := by
  induction run generalizing entries with
  | nil => rfl
  | cons event run inductionHypothesis =>
    simp only [cons_append, recordedFailures, inductionHypothesis, foldl_cons, append_assoc]

theorem recordedFailures_concat (entries : Entries) (run : List Event) (event : Event) :
    recordedFailures config reader key entries (run ++ [event]) =
      recordedFailures config reader key entries run ++
        recordedBy config reader key ((run.foldl (next config reader) entries).get? key) event := by
  rw [recordedFailures_append]
  simp only [recordedFailures, append_nil]
  rfl

/-- An entry that a lockout left holds that lockout or only failures recorded since. -/
def HoldsSince (entry : Option RateLimitEntry) (failures : List ℕ) : Prop :=
  ∀ stored, entry = some stored → stored.lock.isSome = true ∨ stored.attempts <+ failures

theorem HoldsSince.append {entry : Option RateLimitEntry} {failures : List ℕ}
    (holds : HoldsSince entry failures) (more : List ℕ) : HoldsSince entry (failures ++ more) :=
  fun stored isStored => (holds stored isStored).imp_right fun sublist =>
    sublist.trans (sublist_append_left failures more)

theorem holdsSince_some {entry : RateLimitEntry} {failures : List ℕ} :
    HoldsSince (some entry) failures ↔
      (entry.lock.isSome = true ∨ entry.attempts <+ failures) := by
  simp [HoldsSince]

theorem slideWindow_sublist (attempts : List ℕ) : slideWindow config now attempts <+ attempts :=
  filter_sublist

theorem HoldsSince.checked {entry : RateLimitEntry} {failures : List ℕ}
    (holds : HoldsSince (some entry) failures) :
    HoldsSince (some (entry.checked config now)) failures := by
  rw [RateLimitEntry.checked]
  by_cases locked : entry.isLocked now = true
  · rwa [if_pos locked]
  · rw [if_neg locked]
    by_cases passed : entry.lock.isSome = true
    · rw [if_pos passed]
      exact holdsSince_some.mpr (.inr (nil_sublist failures))
    · rw [if_neg passed]
      refine holdsSince_some.mpr (.inr ?_)
      exact (slideWindow_sublist _).trans ((holdsSince_some.mp holds).resolve_left passed)

theorem HoldsSince.pruned {entry : RateLimitEntry} {failures : List ℕ}
    (holds : HoldsSince (some entry) failures) :
    HoldsSince (entry.pruned config now) failures := by
  rw [RateLimitEntry.pruned]
  by_cases locked : entry.isLocked now = true
  · rwa [if_pos locked]
  · rw [if_neg locked]
    by_cases nothing : slideWindow config now entry.attempts = []
    · simp [nothing, HoldsSince]
    · rw [if_neg nothing]
      exact holdsSince_some.mpr ((holdsSince_some.mp holds).imp_right
        (slideWindow_sublist _).trans)

theorem HoldsSince.recorded {entry : Option RateLimitEntry} {failures : List ℕ}
    (holds : HoldsSince entry failures) (notOver : NotOver entry now) :
    HoldsSince (some ((entry.getD .empty).recorded config now))
      (failures ++ if (entry.getD .empty).isLocked now then [] else [now]) := by
  refine holdsSince_some.mpr ?_
  cases locked : (entry.getD .empty).isLocked now with
  | true =>
    obtain ⟨lockedUntil, isLock, -⟩ := isLocked_iff.mp locked
    exact .inl (by rw [recorded_of_locked locked, isLock, Option.isSome_some])
  | false =>
    have unlocked : ∀ stored, entry = some stored → stored.lock = none := by
      rintro stored rfl
      by_contra isSome
      obtain ⟨lockedUntil, isLock⟩ := Option.ne_none_iff_exists'.mp isSome
      have := isLocked_iff.mpr ⟨lockedUntil, isLock, notOver _ _ rfl isLock⟩
      simp [Option.getD_some, this] at locked
    have attempts : (entry.getD .empty).attempts <+ failures := by
      cases entry with
      | none => exact nil_sublist failures
      | some stored =>
        exact (holdsSince_some.mp holds).resolve_left (by simp [unlocked stored rfl])
    rw [recorded_of_not_locked locked]
    exact .inr (((slideWindow_sublist _).trans attempts).append (.refl [now]))

/-- A call keeps it. -/
theorem HoldsSince.next {entry : Option RateLimitEntry} {failures : List ℕ} {event : Event}
    (holds : HoldsSince entry failures)
    (notOver : concerns config reader key event.2 = true → NotOver entry event.1) :
    HoldsSince (entryNext config reader key entry event)
      (failures ++ recordedBy config reader key entry event) := by
  obtain ⟨time, call⟩ := event
  cases call with
  | check ip scope =>
    refine HoldsSince.append ?_ _
    simp only [entryNext]
    by_cases isKey : isExempt config reader ip = false ∧ resolveKey reader ip scope = key
    · rw [if_pos isKey]
      cases entry with
      | none => exact holds
      | some entry => exact holds.checked
    · rwa [if_neg isKey]
  | prune =>
    refine HoldsSince.append ?_ _
    simp only [entryNext]
    cases entry with
    | none => exact holds
    | some entry => exact holds.pruned
  | reset ip scope =>
    refine HoldsSince.append ?_ _
    simp only [entryNext]
    by_cases isKey : resolveKey reader ip scope = key
    · simp [isKey, HoldsSince]
    · rwa [if_neg isKey]
  | recordFailure ip scope =>
    simp only [entryNext]
    by_cases concern : concerns config reader key (.recordFailure ip scope) = true
    · rw [if_pos concern]
      have recorded : HoldsSince (some ((entry.getD .empty).recorded config time)) _ :=
        holds.recorded (notOver concern)
      cases locked : (entry.getD .empty).isLocked time <;>
        simpa [recordedBy, concern, locked] using recorded
    · rw [if_neg concern]
      exact holds.append _

/-- Failures of a run that find no lockout that is over. -/
def FindsNoneOver (config : RateLimitConfig) (reader : AddressReader) (key : String)
    (entries : Entries) (run : List Event) : Prop :=
  ∀ before (event : Event) later, run = before ++ event :: later →
    concerns config reader key event.2 = true →
    NotOver ((before.foldl (next config reader) entries).get? key) event.1

theorem holdsSince_foldl {entries : Entries} {failures : List ℕ}
    (holds : HoldsSince (entries.get? key) failures)
    (notOver : FindsNoneOver config reader key entries run) :
    HoldsSince ((run.foldl (next config reader) entries).get? key)
      (failures ++ recordedFailures config reader key entries run) := by
  induction run using List.reverseRecOn with
  | nil => exact holds.append _
  | append_singleton run event inductionHypothesis =>
    have earlier := inductionHypothesis fun before other later split =>
      notOver before other (later ++ [event]) (by rw [split]; simp)
    rw [foldl_append, recordedFailures_concat, ← append_assoc]
    change HoldsSince ((next config reader _ event).get? key) _
    rw [get?_next]
    exact earlier.next fun concern => notOver run event [] rfl concern

theorem enough_of_locks (positive : config.Positive) {entries : Entries} {event : Event}
    (isLock : locks config reader key entries event = true) :
    (((entries.get? key).getD .empty).isLocked event.1 = false) ∧
      concerns config reader key event.2 = true ∧
      config.maxAttempts ≤ (slideWindow config event.1
        ((entries.get? key).getD .empty).attempts ++ [event.1]).length := by
  rw [locks, records, Bool.and_eq_true, Bool.and_eq_true, Bool.not_eq_true'] at isLock
  obtain ⟨⟨concern, unlocked⟩, isLocked⟩ := isLock
  refine ⟨unlocked, concern, ?_⟩
  obtain ⟨time, call⟩ := event
  cases call with
  | check ip scope => cases concern
  | reset ip scope => cases concern
  | prune => cases concern
  | recordFailure ip scope =>
    simp only [get?_next, entryNext] at isLocked
    rw [if_pos concern, Option.any_some, isLocked_iff] at isLocked
    obtain ⟨lockedUntil, isLock, inside⟩ := isLocked
    rw [lock_recorded positive unlocked] at isLock
    by_contra few
    rw [if_neg few] at isLock
    have := isLocked_iff.mpr ⟨lockedUntil, isLock, inside⟩
    simp [unlocked] at this

/-- Enough new failures lie in the window of a lockout after another one. -/
theorem apart_of_findsNoneOver (positive : config.Positive) {entries : Entries} {second : Event}
    (holds : HoldsSince (entries.get? key) [])
    (fresh : config.maxAttempts ≤ 1 ∨
      FindsNoneOver config reader key entries (run ++ [second]))
    (isLock : locks config reader key (run.foldl (next config reader) entries) second = true) :
    config.maxAttempts ≤ (slideWindow config second.1
      (recordedFailures config reader key entries (run ++ [second]))).length := by
  obtain ⟨unlocked, concern, enough⟩ := enough_of_locks positive isLock
  have recordsSecond : recordedBy config reader key
      ((run.foldl (next config reader) entries).get? key) second = [second.1] := by
    rw [recordedBy, concern, unlocked]
    rfl
  have inside : slideWindow config second.1 [second.1] = [second.1] :=
    @slideWindow_concat config second.1 [] positive
  rw [recordedFailures_concat, recordsSecond, slideWindow, filter_append, ← slideWindow,
    ← slideWindow, inside]
  rcases fresh with single | notOver
  · have : (0 : ℚ) ≤ (slideWindow config second.1
        (recordedFailures config reader key entries run)).length := Nat.cast_nonneg _
    rw [length_append, length_singleton, Nat.cast_add, Nat.cast_one]
    linarith
  · have notOverRun : FindsNoneOver config reader key entries run := by
      intro before event later split
      exact notOver before event (later ++ [second]) (by rw [split]; simp)
    have since := holdsSince_foldl holds notOverRun
    have attempts : ((((run.foldl (next config reader) entries).get? key)).getD
        .empty).attempts <+ recordedFailures config reader key entries run := by
      cases found : (run.foldl (next config reader) entries).get? key with
      | none => exact nil_sublist _
      | some stored =>
        refine (since stored found).resolve_left fun isSome => ?_
        obtain ⟨lockedUntil, storedLock⟩ := Option.isSome_iff_exists.mp isSome
        have now := notOver run second [] rfl concern stored lockedUntil found storedLock
        have := isLocked_iff.mpr ⟨lockedUntil, storedLock, now⟩
        simp [found, this] at unlocked
    refine enough.trans (Nat.cast_le.mpr ?_)
    exact ((attempts.filter _).append (.refl [second.1])).length_le

theorem holdsSince_of_locks {entries : Entries} {event : Event}
    (isLock : locks config reader key entries event = true) :
    HoldsSince ((next config reader entries event).get? key) [] := by
  rw [locks, Bool.and_eq_true, Option.any_eq_true] at isLock
  obtain ⟨-, entry, found, locked⟩ := isLock
  obtain ⟨lockedUntil, isLock, -⟩ := isLocked_iff.mp locked
  rw [found, holdsSince_some, isLock]
  exact .inl rfl

theorem findsNoneOver (positive : config.Positive) (clocked : Clocked run)
    (never : NeverFailsAfterLockout config reader (writesOf run)) :
    FindsNoneOver config reader key .empty run := by
  intro before event later split concern
  subst split
  obtain ⟨clockedBefore, -, ordered⟩ := pairwise_append.mp clocked
  have isWrite : writesOf (event :: later) = event :: writesOf later := by
    rw [writesOf, filter_cons, isLook_eq_false_of_concerns concern]
    rfl
  rw [writesOf_append, isWrite] at never
  refine Agrees.notOver (agrees_writesOf positive clockedBefore (.inr never.prefix)
    fun earlier member => ordered earlier member event mem_cons_self) ?_
  intro stored lockedUntil found storedLock
  exact never key _ event _ rfl concern stored lockedUntil found storedLock

theorem meetsContract_of_fresh (positive : config.Positive) (clocked : Clocked run)
    (fresh : config.maxAttempts ≤ 1 ∨ NeverFailsAfterLockout config reader (writesOf run)) :
    MeetsContract config reader run where
  sameAnswers _ _ _ _ _ _ split leaves := sameAnswers_of_fresh positive clocked fresh split leaves
  apart key before first between second later split isFirst isSecond := by
    have entriesFirst : after config reader (before ++ first :: between) =
        between.foldl (next config reader) (after config reader (before ++ [first])) := by
      simp [after, foldl_append]
    rw [entriesFirst] at isSecond
    refine apart_of_findsNoneOver positive ?_ (fresh.imp_right fun never => ?_) isSecond
    · rw [after_concat]
      exact holdsSince_of_locks isFirst
    · intro earlier event rest splitBetween concern
      have noneOver : FindsNoneOver config reader key .empty run :=
        findsNoneOver positive clocked never
      have splitRun : run = (before ++ first :: earlier) ++ event :: (rest ++ later) := by
        have := congrArg (before ++ first :: · ++ later) splitBetween
        simpa [split] using this
      have := noneOver _ event _ splitRun concern
      simpa [after, foldl_append] using this

/-- A check before a failure that finds a lockout that is over changes what is left. -/
theorem checked_recorded_ne (positive : config.Positive) (several : 1 < config.maxAttempts)
    {entry : RateLimitEntry} {lockedUntil : ℚ} (isLock : entry.lock = some lockedUntil)
    (passed : ¬(now : ℚ) < lockedUntil) :
    (view config (some (entry.recorded config now)) now).result config now ≠
      (view config (some ((entry.checked config now).recorded config now)) now).result config
        now := by
  have unlocked : entry.isLocked now = false := by
    by_contra locked
    obtain ⟨other, isOther, inside⟩ := isLocked_iff.mp (by simpa using locked)
    rw [isLock] at isOther
    exact passed (Option.some.inj isOther ▸ inside)
  have cleared : entry.checked config now = .empty := by
    rw [RateLimitEntry.checked, unlocked, isLock]
    rfl
  have single : view config (some (RateLimitEntry.empty.recorded config now)) now =
      .unlocked [now] := by
    rw [view_recorded_of_not_locked positive rfl (.inr rfl)]
    change View.recorded config now (.unlocked []) = _
    rw [View.recorded, if_neg (by simpa using several)]
    rfl
  rw [cleared, single]
  have shown := lock_recorded positive unlocked
  have later : (now : ℚ) < now + config.lockoutMs := by
    have := positive.lockoutMs
    linarith
  by_cases enough :
    config.maxAttempts ≤ (slideWindow config now entry.attempts ++ [now]).length
  · rw [if_pos enough] at shown
    rw [view_of_isLocked shown later]
    simp [View.result, several]
  · rw [if_neg enough, isLock] at shown
    have nothing : view config (some (entry.recorded config now)) now = .unlocked [] := by
      simp only [view, shown, if_neg passed]
    rw [nothing]
    intro same
    have remaining := congrArg RateLimitCheckResult.remaining same
    simp only [View.result, length_nil, length_singleton, Nat.cast_zero, Nat.cast_one,
      sub_zero] at remaining
    rw [max_eq_right positive.maxAttempts.le, max_eq_right (by linarith)] at remaining
    linarith

/-- Looks change no answer, and lockouts are apart, exactly when a failure never finds a lockout
of its key that is over, or when every failure locks anyway. -/
theorem meetsContract_iff_neverFails (positive : config.Positive) (clocked : Clocked run) :
    (∀ other, Clocked other → writesOf other = writesOf run →
        MeetsContract config reader other) ↔
      (config.maxAttempts ≤ 1 ∨ NeverFailsAfterLockout config reader (writesOf run)) := by
  refine ⟨fun meets => ?_, fun fresh other clockedOther sameWrites =>
    meetsContract_of_fresh positive clockedOther (sameWrites ▸ fresh)⟩
  rw [or_iff_not_imp_left, not_le]
  intro several key before event later split concern entry lockedUntil found isLock
  by_contra passed
  obtain ⟨now, call⟩ := event
  cases call with
  | check ip scope => cases concern
  | reset ip scope => cases concern
  | prune => cases concern
  | recordFailure ip scope =>
    have isKey : isExempt config reader ip = false ∧ resolveKey reader ip scope = key := by
      simpa [concerns] using concern
    obtain ⟨counted, rfl⟩ := isKey
    -- the key is checked right before and right after its failure
    let checks : Event := (now, .check ip scope)
    let fails : Event := (now, .recordFailure ip scope)
    have writes : writesOf (before ++ checks :: fails :: checks :: later) = writesOf run := by
      have looked := congrArg writesOf split
      have again : writesOf (writesOf run) = writesOf run := by simp [writesOf]
      rw [again] at looked
      rw [looked, writesOf_append, writesOf_append]
      rfl
    have clockedWrites : Clocked (before ++ fails :: later) := by
      rw [← split]
      exact Pairwise.sublist filter_sublist clocked
    have clockedOther : Clocked (before ++ checks :: fails :: checks :: later) := by
      obtain ⟨clockedBefore, clockedLater, ordered⟩ := pairwise_append.mp clockedWrites
      obtain ⟨fromNow, clockedRest⟩ := pairwise_cons.mp clockedLater
      have atNow : ∀ other ∈ fails :: checks :: later, now ≤ other.1 := by
        simpa [fails, checks] using fun other time member => fromNow (other, time) member
      refine pairwise_append.mpr ⟨clockedBefore, pairwise_cons.mpr ⟨atNow, pairwise_cons.mpr
        ⟨fun other member => atNow other (mem_cons_of_mem fails member), pairwise_cons.mpr
          ⟨fromNow, clockedRest⟩⟩⟩, fun earlier member other isOther => ?_⟩
      have upToNow : earlier.1 ≤ now := ordered earlier member fails mem_cons_self
      rcases mem_cons.mp isOther with rfl | isOther
      · exact upToNow
      · exact upToNow.trans (atNow other isOther)
    have leaves : LeavesOut (before ++ [checks, fails]) (before ++ [fails]) := by
      have rest : LeavesOut [checks, fails] [fails] := .leave checks rfl (.keep fails .nil)
      clear * - rest
      induction before with
      | nil => exact rest
      | cons event before inductionHypothesis => exact .keep event inductionHypothesis
    have same := (meets _ clockedOther writes).sameAnswers (before ++ [checks, fails]) now ip scope
      later (before ++ [fails]) (by simp [checks]) leaves
    have withoutCheck : (after config reader (before ++ [fails])).get?
        (resolveKey reader ip scope) = some (entry.recorded config now) := by
      rw [after_concat, get?_next, found]
      simp [entryNext, fails, concerns, counted]
    have withCheck : (after config reader (before ++ [checks, fails])).get?
        (resolveKey reader ip scope) = some ((entry.checked config now).recorded config now) := by
      rw [append_cons, after_concat, after_concat, get?_next, get?_next, found]
      simp [entryNext, checks, fails, concerns, counted]
    rw [checkResult_eq_result positive counted, checkResult_eq_result positive counted,
      withoutCheck, withCheck] at same
    exact checked_recorded_ne positive several isLock passed same

end Runs

section LockoutOver

def twoAttempts : RateLimitConfig where
  maxAttempts := 2

def plainReader : AddressReader where
  resolveClientIp ip := ip
  isLoopbackAddress address := decide (address = "127.0.0.1")

/-- Two failures lock the address out, and a third one comes when that lockout is over. -/
def thirdFailure : List Event :=
  [(0, .recordFailure (some "10.0.0.1") none), (1, .recordFailure (some "10.0.0.1") none),
    (300001, .check (some "10.0.0.1") none), (300001, .recordFailure (some "10.0.0.1") none)]

theorem twoAttempts_positive : twoAttempts.Positive where
  maxAttempts := by norm_num [twoAttempts]
  windowMs := by norm_num [twoAttempts]
  lockoutMs := by norm_num [twoAttempts]

theorem clocked_thirdFailure : Clocked thirdFailure := by
  unfold Clocked thirdFailure
  decide

theorem meetsContract_iff_neverFails_thirdFailure :
    (∀ other, Clocked other → writesOf other = writesOf thirdFailure →
        MeetsContract twoAttempts plainReader other) ↔
      (twoAttempts.maxAttempts ≤ 1 ∨
        NeverFailsAfterLockout twoAttempts plainReader (writesOf thirdFailure)) :=
  meetsContract_iff_neverFails twoAttempts_positive clocked_thirdFailure

/-- One attempt is left after the third failure, but two when nobody looked before it. -/
theorem not_meetsContract_thirdFailure : ¬ MeetsContract twoAttempts plainReader
    (thirdFailure ++ [(300002, .check (some "10.0.0.1") none)]) := by
  intro meets
  have leaves : LeavesOut thirdFailure (writesOf thirdFailure) :=
    .keep _ (.keep _ (.leave _ rfl (.keep _ .nil)))
  have same := meets.sameAnswers thirdFailure 300002 (some "10.0.0.1") none [] _ rfl leaves
  have looked : (checkResult twoAttempts plainReader (after twoAttempts plainReader thirdFailure)
      300002 (some "10.0.0.1") none).remaining = 1 := by
    decide +kernel
  have unlooked : (checkResult twoAttempts plainReader
      (after twoAttempts plainReader (writesOf thirdFailure)) 300002 (some "10.0.0.1")
      none).remaining = 2 := by
    decide +kernel
  rw [same, looked] at unlooked
  norm_num at unlooked

end LockoutOver

end AuthRateLimiter
