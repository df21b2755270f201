import AieClaw.JsString
import AieClaw.JsonRecord

/-!
# Schedule identities of cron jobs

A job is persisted as a record of members, and its schedule in more than one
shape. The identity of a job is the text of its enabled flag and of a normal
form of its schedule; two shapes of one schedule have the same identity. A
schedule that is missing what its kind needs has no identity.
-/

namespace Cron

/-- The normal form of a schedule. -/
inductive SchedulePayload where
  | at_ (at_ : String)
  | every (everyMs : ℚ) (anchorMs : Option ℚ)
  | cron (expr : String) (tz : Option String) (staggerMs : Option ℚ)
  deriving DecidableEq

/-- What the text of a schedule identity is written from. -/
structure ScheduleIdentity where
  enabled : Bool
  schedule : SchedulePayload

/-- How the host writes and reads the numbers, times and identities of schedules. -/
structure ScheduleHost where
  /-- `String` of a finite number. -/
  numberText : ℚ → String
  /-- `Number` of a text. -/
  numberOfText : String → JsNumber
  /-- `Date.parse` of a text. -/
  dateParse : String → JsNumber
  /-- `JSON.stringify` of a schedule identity. -/
  identityText : ScheduleIdentity → String

/-- The members of a record or of a value, by their keys. -/
abbrev Members := String → Option JsonValue

/-- `readString`: a text that is not blank, trimmed. -/
def readString (members : Members) (key : String) : Option String :=
  match members key with
  | some (.string value) => if JsString.trim value = "" then none else some (JsString.trim value)
  | _ => none

/-- `readNumber`: a number, unless it is infinite or not a number. -/
def readNumber (value : Option JsonValue) : Option ℚ := value.bind JsonValue.asFinite?

section

variable (host : ScheduleHost)

/-- The words for the kinds of schedules. -/
inductive ScheduleKind where
  | at_
  | every
  | cron
  deriving DecidableEq

/--
The kind that the word of a record names. No letter outside ASCII becomes one
of these words in lower case.
-/
def rawScheduleKind (members : Members) : Option ScheduleKind :=
  match (readString members "kind").map JsString.asciiLower with
  | some "at" => some .at_
  | some "every" => some .every
  | some "cron" => some .cron
  | _ => none

/--
`schedulePayloadFromRecord`: the kind is the one that the record names, or the
one that its members suggest. Only members that are numbers are read as such.
-/
def schedulePayloadFromRecord (members : Members) : Option SchedulePayload :=
  let expr := (readString members "expr").orElse fun _ => readString members "cron"
  let at_ := readString members "at"
  let atMs := readNumber (members "atMs")
  let everyMs := readNumber (members "everyMs")
  let kind := (rawScheduleKind members).orElse fun _ =>
    if at_.isSome || atMs.isSome then some .at_
    else if everyMs.isSome then some .every
    else if expr.isSome then some .cron
    else none
  match kind with
  | some .at_ => (at_.orElse fun _ => atMs.map host.numberText).map .at_
  | some .every => everyMs.map fun interval => .every interval (readNumber (members "anchorMs"))
  | some .cron =>
    expr.map fun text => .cron text (readString members "tz") (readNumber (members "staggerMs"))
  | none => none

/-- The record that holds the schedule of a job: the job itself, when it has no other. -/
def scheduleMembers (job : Members) : Members :=
  match job "schedule" with
  | some (.object members) => fun key => JsonValue.member? key (.object members)
  | _ => job

/-- `resolveSchedulePayload`. -/
def resolveSchedulePayload (job : Members) : Option SchedulePayload :=
  schedulePayloadFromRecord host (scheduleMembers job)

def enabledFlag (job : Members) : Bool :=
  match job "enabled" with
  | some (.bool enabled) => enabled
  | _ => true

/-- What the identity of a job is written from. -/
def scheduleIdentity? (job : Members) : Option ScheduleIdentity :=
  (resolveSchedulePayload host job).map fun schedule =>
    { enabled := enabledFlag job, schedule := schedule }

/-- `tryCronScheduleIdentity`. -/
def tryCronScheduleIdentity (job : Members) : Option String :=
  (scheduleIdentity? host job).map host.identityText

/-- `cronSchedulingInputsEqual`: jobs without an identity are never equal. -/
def cronSchedulingInputsEqual (previous next : Members) : Bool :=
  let previousIdentity := tryCronScheduleIdentity host previous
  previousIdentity.isSome && previousIdentity == tryCronScheduleIdentity host next

end

/-! ## What next runs are computed from -/

section

variable (host : ScheduleHost)

/-- `coerceFiniteScheduleNumber`: a number, also one that is written as text. -/
def coerceFiniteScheduleNumber : Option JsonValue → Option ℚ
  | some (.number (.finite value)) => some value
  | some (.string text) =>
    if JsString.trim text = "" then none
    else
      match host.numberOfText (JsString.trim text) with
      | .finite value => some value
      | _ => none
  | _ => none

/-- `normalizeCronStaggerMs`: a number, also one that is written as text, rounded down. -/
def normalizeCronStaggerMs (raw : Option JsonValue) : Option ℤ :=
  (coerceFiniteScheduleNumber host raw).map fun numeric => max 0 ⌊numeric⌋

/-- What stands behind the date, for a text that starts with `\d{4}-\d{2}-\d{2}`. -/
def behindIsoDate : List Char → Option (List Char)
  | y₁ :: y₂ :: y₃ :: y₄ :: '-' :: m₁ :: m₂ :: '-' :: d₁ :: d₂ :: rest =>
    if [y₁, y₂, y₃, y₄, m₁, m₂, d₁, d₂].all Char.isDigit then some rest else none
  | _ => none

/-- `ISO_TZ_RE`, on the text from its end: `Z` or an offset, with or without a colon. -/
def startsWithZone : List Char → Bool
  | 'Z' :: _ | 'z' :: _ => true
  | m₂ :: m₁ :: ':' :: h₂ :: h₁ :: sign :: _ =>
    [m₂, m₁, h₂, h₁].all Char.isDigit && (sign = '+' || sign = '-')
  | m₂ :: m₁ :: h₂ :: h₁ :: sign :: _ =>
    [m₂, m₁, h₂, h₁].all Char.isDigit && (sign = '+' || sign = '-')
  | _ => false

def normalizeUtcIso (raw : String) : String :=
  if startsWithZone raw.toList.reverse then raw
  else
    match behindIsoDate raw.toList with
    | some [] => raw ++ "T00:00:00Z"
    | some ('T' :: _) => raw ++ "Z"
    | _ => raw

/-- The finite value of a number. -/
def finiteValue? : JsNumber → Option ℚ
  | .finite value => some value
  | _ => none

/-- `parseAbsoluteTimeMs`: milliseconds written in digits, or a date. -/
def parseAbsoluteTimeMs (input : String) : Option ℚ :=
  let raw := JsString.trim input
  if raw = "" then none
  else
    let digits :=
      if raw.toList.all Char.isDigit then
        (finiteValue? (host.numberOfText raw)).filter (0 < ·)
      else none
    match digits with
    | some number => some ⌊number⌋
    | none => finiteValue? (host.dateParse (normalizeUtcIso raw))

/--
The time of an `at` schedule. `coerceSchedule` keeps the one of `atMs` in `at`,
as a date of whole milliseconds, and computing the next run reads it from there;
an `at` text stays when nothing can be read from a text in `atMs`.
-/
def scheduledTime (members : Members) : Option ℚ :=
  let at_ := (readString members "at").bind (parseAbsoluteTimeMs host)
  match members "atMs" with
  | some (.number atMs) =>
    (finiteValue? atMs).map fun time => if 0 ≤ time then (⌊time⌋ : ℚ) else (⌈time⌉ : ℚ)
  | some (.string atMs) => (parseAbsoluteTimeMs host atMs).orElse fun _ => at_
  | _ => at_

/-- The kind that `coerceSchedule` gives a schedule. -/
def coercedScheduleKind (members : Members) : Option ScheduleKind :=
  (rawScheduleKind members).orElse fun _ =>
    match members "atMs", members "at", members "everyMs" with
    | some (.number _), _, _ | some (.string _), _, _ | _, some (.string _), _ => some .at_
    | _, _, some (.number _) => some .every
    | _, _, _ =>
      ((readString members "expr").orElse fun _ => readString members "cron").map fun _ => .cron

/-- The values that next runs are computed from. -/
inductive ComputedSchedule where
  | at_ (time : ℚ)
  | every (everyMs : ℚ) (anchorMs : Option ℚ)
  | cron (expr : String) (tz : Option String) (staggerMs : Option ℤ)
  deriving DecidableEq

/--
What next runs of a job are computed from, after `coerceSchedule` and as
`computeJobNextRunAtMs` reads it; without it there is no next run.
-/
def computedSchedule (job : Members) : Option ComputedSchedule :=
  let members := scheduleMembers job
  match coercedScheduleKind members with
  | some .at_ => (scheduledTime host members).map .at_
  | some .every =>
    (coerceFiniteScheduleNumber host (members "everyMs")).map fun interval =>
      .every interval (coerceFiniteScheduleNumber host (members "anchorMs"))
  | some .cron =>
    ((readString members "expr").orElse fun _ => readString members "cron").map fun text =>
      .cron text (readString members "tz") (normalizeCronStaggerMs host (members "staggerMs"))
  | none => none

end

/-- The members of a job, or of its schedule, that decide when it runs. -/
def schedulingKeys : List String :=
  ["schedule", "enabled", "kind", "expr", "cron", "at", "atMs", "everyMs",
    "anchorMs", "tz", "staggerMs"]

/-- The records agree on everything that decides when a job runs. -/
def SameScheduling (left right : Members) : Prop := ∀ key ∈ schedulingKeys, left key = right key

variable {host : ScheduleHost} {left right : Members}

theorem readString_congr {key : String} (same : left key = right key) :
    readString left key = readString right key := by
  simp [readString, same]

section

variable (same : SameScheduling left right)
include same

theorem schedulePayloadFromRecord_congr :
    schedulePayloadFromRecord host left = schedulePayloadFromRecord host right := by
  have text : ∀ key ∈ schedulingKeys, readString left key = readString right key :=
    fun key listed => readString_congr (same key listed)
  simp only [schedulePayloadFromRecord, rawScheduleKind, text "kind" (by decide),
    text "expr" (by decide), text "cron" (by decide), text "at" (by decide), text "tz" (by decide),
    same "atMs" (by decide), same "everyMs" (by decide),
    same "anchorMs" (by decide), same "staggerMs" (by decide)]

theorem scheduleMembers_congr : SameScheduling (scheduleMembers left) (scheduleMembers right) := by
  unfold scheduleMembers
  rw [same "schedule" (by decide)]
  split
  · intro key _
    rfl
  · exact same

theorem enabledFlag_congr : enabledFlag left = enabledFlag right := by
  simp [enabledFlag, same "enabled" (by decide)]

theorem scheduleIdentity?_congr : scheduleIdentity? host left = scheduleIdentity? host right := by
  rw [scheduleIdentity?, scheduleIdentity?, resolveSchedulePayload, resolveSchedulePayload,
    schedulePayloadFromRecord_congr (scheduleMembers_congr same), enabledFlag_congr same]

theorem tryCronScheduleIdentity_congr :
    tryCronScheduleIdentity host left = tryCronScheduleIdentity host right := by
  rw [tryCronScheduleIdentity, scheduleIdentity?_congr same, ← tryCronScheduleIdentity]

theorem computedSchedule_congr : computedSchedule host left = computedSchedule host right := by
  have alike := scheduleMembers_congr same
  have text : ∀ key ∈ schedulingKeys,
      readString (scheduleMembers left) key = readString (scheduleMembers right) key :=
    fun key listed => readString_congr (alike key listed)
  simp only [computedSchedule, coercedScheduleKind, rawScheduleKind, scheduledTime,
    text "kind" (by decide), text "expr" (by decide), text "cron" (by decide),
    text "at" (by decide), text "tz" (by decide), alike "at" (by decide),
    alike "atMs" (by decide), alike "everyMs" (by decide),
    alike "anchorMs" (by decide), alike "staggerMs" (by decide)]

end

variable (members : Members)

/-- The members of a record that was written as text and parsed again. -/
def Members.written : Members :=
  fun key => (members key).map JsonValue.stringified

theorem readString_written (key : String) :
    readString members.written key = readString members key := by
  unfold readString Members.written
  cases members key with
  | none => rfl
  | some value =>
    cases value with
    | number number => cases number <;> rfl
    | _ => rfl

theorem readNumber_written (value : Option JsonValue) :
    readNumber (value.map JsonValue.stringified) = readNumber value := by
  cases value with
  | none => rfl
  | some value =>
    cases value with
    | number number => cases number <;> rfl
    | _ => rfl

theorem schedulePayloadFromRecord_written :
    schedulePayloadFromRecord host members.written = schedulePayloadFromRecord host members := by
  have number : ∀ key, readNumber (members.written key) = readNumber (members key) :=
    fun key => readNumber_written (members key)
  simp only [schedulePayloadFromRecord, rawScheduleKind, readString_written, number]

theorem scheduleMembers_written :
    scheduleMembers members.written = (scheduleMembers members).written := by
  unfold scheduleMembers Members.written
  cases members "schedule" with
  | none => rfl
  | some value =>
    cases value with
    | object inner =>
      funext key
      exact JsonValue.member?_stringified key (.object inner)
    | number number => cases number <;> rfl
    | _ => rfl

theorem enabledFlag_written :
    enabledFlag members.written = enabledFlag members := by
  unfold enabledFlag Members.written
  cases members "enabled" with
  | none => rfl
  | some value =>
    cases value with
    | number number => cases number <;> rfl
    | _ => rfl

theorem tryCronScheduleIdentity_written :
    tryCronScheduleIdentity host members.written = tryCronScheduleIdentity host members := by
  rw [tryCronScheduleIdentity, scheduleIdentity?, resolveSchedulePayload,
    scheduleMembers_written, schedulePayloadFromRecord_written, enabledFlag_written]
  rfl

end Cron
