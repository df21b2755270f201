import AieClaw.CronScheduleIdentity

/-!
# The files of the cron store

The jobs are written to two files: the configuration, without what changes from
run to run, and the state file, with the state of every job under its id. The
texts of the last load or save are kept in a cache, which decides what a save
has to write. A save writes the state file first.
-/

universe u

namespace Cron

open JsonValue

/-- How the host writes and reads JSON text and property keys. -/
structure CronStoreHost (Text : Type u) extends ScheduleHost where
  /-- `JSON.stringify`, indented. -/
  stringify : JsonValue → Text
  /-- `parseJsonWithJson5Fallback`, without a value where it throws. -/
  parse : Text → Option JsonValue
  /-- The key that a value stands for between brackets. -/
  propertyKey : Option JsonValue → String
  parse_stringify : ∀ value, parse (stringify value) = some value.stringified
  propertyKey_string : ∀ text, propertyKey (some (.string text)) = text

/-- The store file and the state file beside it, where they exist. -/
structure CronFiles (Text : Type u) where
  config : Option Text
  state : Option Text

structure SerializedStoreCacheEntry (Text : Type u) where
  configJson : Option Text
  stateJson : Option Text
  needsSplitMigration : Bool

/-- The files and what the process remembers of them. -/
structure CronStorage (Text : Type u) where
  files : CronFiles Text
  cache : Option (SerializedStoreCacheEntry Text)

inductive LoadError where
  /-- `Failed to parse cron store`. -/
  | unparsable
  deriving DecidableEq

variable {Text : Type u} (host : CronStoreHost Text)

/-- The state of a job, when it is an object. -/
def stateMembers? (job : JsonRecord) : Option (List (String × JsonValue)) :=
  match job.get? "state" with
  | some (.object members) => some members
  | _ => none

/-- `normalizeCronStoreFile`: the jobs that are objects. -/
def normalizeCronStoreFile (parsed : JsonValue) : List JsonRecord :=
  let rawJobs :=
    match parsed with
    | .array items => items
    | .object members =>
      match member? "jobs" (.object members) with
      | some (.array items) => items
      | _ => []
    | _ => []
  rawJobs.filterMap JsonRecord.ofJson?

/-- `stripRuntimeOnlyCronFields` of one job. -/
def stripRuntimeOnlyCronFields (job : JsonRecord) : JsonRecord :=
  ((job.delete "state").delete "updatedAtMs").set "state" (.object [])

def configValue (store : List JsonRecord) : JsonValue :=
  .object
    [("version", .number 1),
      ("jobs", .array (store.map fun job => JsonRecord.toJson (stripRuntimeOnlyCronFields job)))]

/-- What the state file says of one job; a missing member is not written. -/
def stateEntry (host : ScheduleHost) (job : JsonRecord) : JsonValue :=
  let state :=
    match job.get? "state" with
    | none => object []
    | some .null => .object []
    | some value => value
  .object
    (((job.get? "updatedAtMs").map fun value => ("updatedAtMs", value)).toList ++
      ((tryCronScheduleIdentity host job.get?).map fun identity =>
        ("scheduleIdentity", string identity)).toList ++
      [("state", state)])

/--
An assignment to a property of a plain object. Under the name `__proto__` it
changes the prototype, which is not written.
-/
def assignProperty (object : JsonRecord) (key : String) (value : JsonValue) : JsonRecord :=
  if key = "__proto__" then object else object.set key value

/-- `extractStateFile`. -/
def extractStateFile (store : List JsonRecord) : JsonRecord :=
  store.foldl
    (fun jobs job =>
      assignProperty jobs (host.propertyKey (job.get? "id")) (stateEntry host.toScheduleHost job))
    OrderedMap.empty

def stateValue (store : List JsonRecord) : JsonValue :=
  .object [("version", .number 1), ("jobs", JsonRecord.toJson (extractStateFile host store))]

/-- `loadStateFile`: the entries, unless the file is absent or corrupt. -/
def loadStateFile (file : Option Text) : Option (List (String × JsonValue)) :=
  match file.bind host.parse with
  | some (.object members) =>
    match member? "version" (.object members),
        member? "jobs" (.object members) with
    | some (.number (.finite 1)), some (.object jobs) => some jobs
    | _, _ => none
  | _ => none

/--
A property of the parsed entries. The prototype is an object without members
of interest; what else it provides is not an object.
-/
def stateFileEntry (jobs : List (String × JsonValue)) (key : String) : Option JsonValue :=
  (member? key (.object jobs)).orElse fun _ =>
    if key = "__proto__" then some (.object []) else none

/-- `hasInlineState`. -/
def hasInlineState (jobs : List JsonRecord) : Bool :=
  jobs.any fun job => (stateMembers? job).any fun members => !members.isEmpty

def ensureJobStateObject (job : JsonRecord) : JsonRecord :=
  if (stateMembers? job).isSome then job else job.set "state" (.object [])

/-- `backfillMissingRuntimeFields`. -/
def backfillMissingRuntimeFields (now : ℚ) (job : JsonRecord) : JsonRecord :=
  let job := ensureJobStateObject job
  match job.get? "updatedAtMs" with
  | some (.number _) => job
  | _ =>
    match job.get? "createdAtMs" with
    | some (.number created) => job.set "updatedAtMs" (.number created)
    | _ => job.set "updatedAtMs" (.number (.finite now))

/-- `resolveUpdatedAtMs`. -/
def resolveUpdatedAtMs (now : ℚ) (job : JsonRecord) (updatedAtMs : Option JsonValue) : ℚ :=
  match readNumber updatedAtMs, readNumber (job.get? "updatedAtMs"),
      readNumber (job.get? "createdAtMs") with
  | some updated, _, _ => updated
  | none, some own, _ => own
  | none, none, some created => created
  | none, none, none => now

/-- `mergeStateFileEntry`. -/
def mergeStateFileEntry (host : ScheduleHost) (now : ℚ) (job : JsonRecord) (entry : JsonValue) :
    JsonRecord :=
  if entry.isRecord then
    let state :=
      match member? "state" entry with
      | some (.object members) => members
      | _ => []
    let merged :=
      (job.set "updatedAtMs"
        (.number (.finite (resolveUpdatedAtMs now job (member? "updatedAtMs" entry))))).set
        "state" (.object state)
    match member? "scheduleIdentity" entry with
    | some (.string identity) =>
      if some identity = tryCronScheduleIdentity host merged.get? then merged
      else merged.set "state" (.object (removeMember "nextRunAtMs" state))
    | _ => merged
  else backfillMissingRuntimeFields now job

/-- What loading makes of a job of the store file. -/
def loadJob (now : ℚ) (stateFile : Option (List (String × JsonValue)))
    (hasLegacyInlineState : Bool) (job : JsonRecord) : JsonRecord :=
  ensureJobStateObject <|
    match stateFile with
    | some jobs =>
      match stateFileEntry jobs (host.propertyKey (job.get? "id")) with
      | some entry => mergeStateFileEntry host.toScheduleHost now job entry
      | none => backfillMissingRuntimeFields now job
    | none =>
      if hasLegacyInlineState then job
      else backfillMissingRuntimeFields now job

/-- `loadCronStore`. -/
def loadCronStore (now : ℚ) (storage : CronStorage Text) :
    Except LoadError (List JsonRecord × CronStorage Text) :=
  match storage.files.config with
  | none => .ok ([], { storage with cache := none })
  | some raw =>
    match host.parse raw with
    | none => .error .unparsable
    | some parsed =>
      let jobs := normalizeCronStoreFile parsed
      let stateFile := loadStateFile host storage.files.state
      let hasLegacyInlineState := stateFile.isNone && hasInlineState jobs
      let store := jobs.map (loadJob host now stateFile hasLegacyInlineState)
      .ok (store,
        { storage with
          cache := some
            { configJson := some (host.stringify (configValue store))
              stateJson := some (host.stringify (stateValue host store))
              needsSplitMigration := hasLegacyInlineState } })

section

variable [DecidableEq Text]

/-- `serializedFileNeedsWrite`. -/
def serializedFileNeedsWrite (file : Option Text) (expectedJson : Text) (contentChanged : Bool) :
    Bool :=
  contentChanged || file ≠ some expectedJson

/-- The points at which the process can stop: after each of the two writes. -/
structure SavePoints (Text : Type u) where
  stateWritten : CronStorage Text
  finished : CronStorage Text

/-- `saveCronStore`; a state-only save leaves the configuration alone. -/
def saveCronStore (stateOnly : Bool) (store : List JsonRecord) (storage : CronStorage Text) :
    SavePoints Text :=
  let configJson := host.stringify (configValue store)
  let stateJson := host.stringify (stateValue host store)
  let cache := storage.cache
  let configChanged := !stateOnly && decide (cache.bind (·.configJson) ≠ some configJson)
  let stateChanged := decide (cache.bind (·.stateJson) ≠ some stateJson)
  let migrating := cache.any (·.needsSplitMigration)
  let configNeedsWrite :=
    !stateOnly && serializedFileNeedsWrite storage.files.config configJson configChanged
  let stateNeedsWrite := serializedFileNeedsWrite storage.files.state stateJson stateChanged
  if !configNeedsWrite && !stateNeedsWrite && !migrating then
    { stateWritten := storage, finished := storage }
  else
    let entry := cache.getD { configJson := none, stateJson := none, needsSplitMigration := false }
    -- The state goes first: a stripped configuration always has its state.
    let first : CronStorage Text :=
      if stateNeedsWrite || migrating then
        { files := { config := storage.files.config, state := some stateJson }
          cache := some { entry with stateJson := some stateJson } }
      else { storage with cache := some entry }
    let second : CronStorage Text :=
      if !stateOnly && (configNeedsWrite || migrating) then
        { files := { config := some configJson, state := first.files.state }
          cache := first.cache.map fun entry => { entry with configJson := some configJson } }
      else first
    { stateWritten := first
      finished :=
        { second with
          cache := second.cache.map fun entry =>
            { entry with needsSplitMigration := stateOnly && migrating } } }

end

end Cron
