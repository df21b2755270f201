import AieClaw.JsString
import AieClaw.OrderedMap
import Mathlib.Algebra.Order.Ring.Rat
import Mathlib.Data.Rat.Cast.Order

/-!
# The rate limiter of the gateway's authentication

`src/gateway/auth-rate-limit.ts`: failed attempts are counted for a client address and a scope
in a sliding window, and too many of them lock the pair out for a while. Times are
milliseconds of the clock; the limits come from the configuration and may be any numbers.
-/

namespace AuthRateLimiter

open List

structure RateLimitConfig where
  maxAttempts : ℚ := 10
  windowMs : ℚ := 60000
  lockoutMs : ℚ := 300000
  exemptLoopback : Bool := true
  deriving DecidableEq, Repr

structure RateLimitConfig.Positive (config : RateLimitConfig) : Prop where
  maxAttempts : 0 < config.maxAttempts
  windowMs : 0 < config.windowMs
  lockoutMs : 0 < config.lockoutMs

/-- How client addresses are read. -/
structure AddressReader where
  /-- `resolveClientIp` of a remote address without forwarding headers. -/
  resolveClientIp : Option String → Option String
  isLoopbackAddress : String → Bool

structure RateLimitEntry where
  attempts : List ℕ
  lockedUntil : Option ℚ
  deriving DecidableEq, Repr

structure RateLimitCheckResult where
  allowed : Bool
  remaining : ℚ
  retryAfterMs : ℚ
  deriving DecidableEq, Repr

inductive Call where
  | check (ip scope : Option String)
  | recordFailure (ip scope : Option String)
  | reset (ip scope : Option String)
  | prune
  deriving DecidableEq, Repr

/-- A call and the time of the clock when it is made. -/
abbrev Event := ℕ × Call

abbrev Entries := OrderedMap String RateLimitEntry

def normalizeScope (scope : Option String) : String :=
  JsString.orElse (JsString.trim (scope.getD "default")) "default"

namespace RateLimitEntry

variable (config : RateLimitConfig) (entry : RateLimitEntry) (now : ℕ)

/-- The instant of a lockout; a zero counts as none. -/
def lock : Option ℚ := entry.lockedUntil.filter fun lockedUntil => decide (lockedUntil ≠ 0)

def isLocked : Bool := entry.lock.any fun lockedUntil => decide ((now : ℚ) < lockedUntil)

/-- The attempts inside the window that ends now. -/
def slideWindow (attempts : List ℕ) : List ℕ :=
  attempts.filter fun attempt => decide ((now : ℚ) - config.windowMs < attempt)

/-- An entry that was checked: an expired lockout is cleared with its attempts. -/
def checked : RateLimitEntry :=
  if entry.isLocked now then entry
  else if entry.lock.isSome then { attempts := [], lockedUntil := none }
  else { entry with attempts := slideWindow config now entry.attempts }

/-- An entry that one more failure was recorded in. -/
def recorded : RateLimitEntry :=
  if entry.isLocked now then entry
  else
    let attempts := slideWindow config now entry.attempts ++ [now]
    { attempts := attempts
      lockedUntil :=
        if config.maxAttempts ≤ attempts.length then some (now + config.lockoutMs)
        else entry.lockedUntil }

/-- An entry that was pruned, unless nothing is left of it. -/
def pruned : Option RateLimitEntry :=
  if entry.isLocked now then some entry
  else
    let slid := { entry with attempts := slideWindow config now entry.attempts }
    if slid.attempts = [] then none else some slid

def empty : RateLimitEntry where
  attempts := []
  lockedUntil := none

end RateLimitEntry

section Limiter

variable (config : RateLimitConfig) (reader : AddressReader)

def normalizeRateLimitClientIp (ip : Option String) : String :=
  match ip with
  | some address =>
    if JsString.startsWith address "browser-origin:" then address
    else (reader.resolveClientIp ip).getD "unknown"
  | none => (reader.resolveClientIp ip).getD "unknown"

def resolveKey (ip scope : Option String) : String :=
  normalizeScope scope ++ ":" ++ normalizeRateLimitClientIp reader ip

def isExempt (ip : Option String) : Bool :=
  config.exemptLoopback && reader.isLoopbackAddress (normalizeRateLimitClientIp reader ip)

/-- The answer for an address without an entry. -/
def freshResult : RateLimitCheckResult where
  allowed := true
  remaining := config.maxAttempts
  retryAfterMs := 0

/-- The answer for an entry, after the check has changed it. -/
def entryResult (entry : RateLimitEntry) (now : ℕ) : RateLimitCheckResult :=
  if entry.isLocked now then
    { allowed := false, remaining := 0, retryAfterMs := entry.lock.getD 0 - now }
  else
    let remaining := max 0 (config.maxAttempts - (entry.checked config now).attempts.length)
    { allowed := decide (0 < remaining), remaining := remaining, retryAfterMs := 0 }

variable (entries : Entries) (now : ℕ)

def checkResult (ip scope : Option String) : RateLimitCheckResult :=
  if isExempt config reader ip then freshResult config
  else (entries.get? (resolveKey reader ip scope)).elim (freshResult config) fun entry =>
    entryResult config entry now

def check (ip scope : Option String) : Entries :=
  if isExempt config reader ip then entries
  else (entries.get? (resolveKey reader ip scope)).elim entries fun entry =>
    entries.set (resolveKey reader ip scope) (entry.checked config now)

def recordFailure (ip scope : Option String) : Entries :=
  if isExempt config reader ip then entries
  else
    entries.set (resolveKey reader ip scope)
      (((entries.get? (resolveKey reader ip scope)).getD .empty).recorded config now)

def reset (ip scope : Option String) : Entries := entries.delete (resolveKey reader ip scope)

def prune : Entries :=
  (entries.filter fun entry => (entry.2.pruned config now).isSome).mapValues fun entry =>
    (entry.pruned config now).getD entry

/-- The entries after a call. -/
def next (event : Event) : Entries :=
  match event.2 with
  | .check ip scope => check config reader entries event.1 ip scope
  | .recordFailure ip scope => recordFailure config reader entries event.1 ip scope
  | .reset ip scope => reset reader entries ip scope
  | .prune => prune config entries event.1

/-- The entries of a new limiter after a run of calls. -/
def after (events : List Event) : Entries := events.foldl (next config reader) .empty

end Limiter

section Runs

/-- The calls that only look. -/
def Call.isLook : Call → Bool
  | .check _ _ => true
  | .prune => true
  | _ => false

/-- A run without some of the calls that only look. -/
inductive LeavesOut : List Event → List Event → Prop where
  | nil : LeavesOut [] []
  | keep (event : Event) {run fewer : List Event} (rest : LeavesOut run fewer) :
      LeavesOut (event :: run) (event :: fewer)
  | leave (event : Event) {run fewer : List Event} (look : event.2.isLook = true)
      (rest : LeavesOut run fewer) : LeavesOut (event :: run) fewer

/-- The failures and resets of a run. -/
def writesOf (run : List Event) : List Event := run.filter fun event => !event.2.isLook

/-- The clock never goes back. -/
def Clocked (run : List Event) : Prop := run.Pairwise fun earlier later => earlier.1 ≤ later.1

variable (config : RateLimitConfig) (reader : AddressReader)

/-- Whether a call is a failure that counts for a key. -/
def concerns (key : String) : Call → Bool
  | .recordFailure ip scope =>
    !isExempt config reader ip && decide (resolveKey reader ip scope = key)
  | _ => false

/-- Whether a call records a failure for a key, which is not locked out then. -/
def records (key : String) (entries : Entries) (event : Event) : Bool :=
  concerns config reader key event.2 && !((entries.get? key).getD .empty).isLocked event.1

/-- Whether a call locks a key out. -/
def locks (key : String) (entries : Entries) (event : Event) : Bool :=
  records config reader key entries event &&
    ((next config reader entries event).get? key).any fun entry => entry.isLocked event.1

/-- The times of the failures that a run records for a key. -/
def recordedFailures (key : String) : Entries → List Event → List ℕ
  | _, [] => []
  | entries, event :: rest =>
    (if records config reader key entries event then [event.1] else []) ++
      recordedFailures key (next config reader entries event) rest

/-- Looks change no answer, and a key is locked out again for new failures only. -/
structure MeetsContract (run : List Event) : Prop where
  /-- Looks that are left out before a check do not change what it answers. -/
  sameAnswers : ∀ before now ip scope later fewer, run = before ++ (now, .check ip scope) :: later →
    LeavesOut before fewer →
    checkResult config reader (after config reader fewer) now ip scope =
      checkResult config reader (after config reader before) now ip scope
  /-- Of the failures recorded since a lockout, enough for the next one lie in its window. -/
  apart : ∀ key before first between second later,
    run = before ++ first :: (between ++ second :: later) →
    locks config reader key (after config reader before) first = true →
    locks config reader key (after config reader (before ++ first :: between)) second = true →
    config.maxAttempts ≤ ((recordedFailures config reader key
      (after config reader (before ++ [first])) (between ++ [second])).filter
        fun time : ℕ => decide ((second.1 : ℚ) - config.windowMs < time)).length

/-- A failure of a run finds no lockout of its key that is over and was not reset. -/
def NeverFailsAfterLockout (run : List Event) : Prop :=
  ∀ key before (event : Event) later, run = before ++ event :: later →
    concerns config reader key event.2 = true →
    ∀ entry lockedUntil, (after config reader before).get? key = some entry →
      entry.lock = some lockedUntil → (event.1 : ℚ) < lockedUntil

end Runs

end AuthRateLimiter
