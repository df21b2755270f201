import AieClaw.CronStore

/-!
# Loading what was saved

After a save the two files are those of the saved store, whatever was on disk or
in the cache before; after its first write the state file alone is. What a
later load makes of each job then depends on the job alone, except under one
name: an assignment to the property `__proto__` writes no entry, and reading it
finds the prototype.
-/

universe u

namespace Cron

open JsonValue JsonRecord OrderedMap List

variable {Text : Type u} {host : CronStoreHost Text}

section

variable [DecidableEq Text]

theorem file_of_not_needsWrite {file : Option Text} {expectedJson : Text} {contentChanged : Bool}
    (current : serializedFileNeedsWrite file expectedJson contentChanged = false) :
    file = some expectedJson := by
  simp only [serializedFileNeedsWrite, Bool.or_eq_false_iff,
    decide_eq_false_iff_not, not_not] at current
  exact current.2

theorem stateWritten_files (host : CronStoreHost Text) (stateOnly : Bool)
    (store : List JsonRecord) (storage : CronStorage Text) :
    (saveCronStore host stateOnly store storage).stateWritten.files =
      { config := storage.files.config
        state := some (host.stringify (stateValue host store)) } := by
  unfold saveCronStore
  extract_lets configJson stateJson cache configChanged stateChanged migrating
    configNeedsWrite stateNeedsWrite entry first second
  have keepsConfig : stateNeedsWrite = false →
      storage.files = { config := storage.files.config, state := some stateJson } := by
    intro current
    rw [← file_of_not_needsWrite current]
  split
  · rename_i nothing
    simp only [Bool.and_eq_true, Bool.not_eq_true'] at nothing
    exact keepsConfig nothing.1.2
  · by_cases writes : (stateNeedsWrite || migrating) = true
    · simp only [first, if_pos writes]
      rfl
    · simp only [first, if_neg writes]
      simp only [Bool.or_eq_true, not_or, Bool.not_eq_true] at writes
      exact keepsConfig writes.1

theorem finished_files (host : CronStoreHost Text) (store : List JsonRecord)
    (storage : CronStorage Text) : (saveCronStore host false store storage).finished.files =
      { config := some (host.stringify (configValue store))
        state := some (host.stringify (stateValue host store)) } := by
  have written := stateWritten_files host false store storage
  unfold saveCronStore at written ⊢
  extract_lets configJson stateJson cache configChanged stateChanged migrating
    configNeedsWrite stateNeedsWrite entry first second at written
  extract_lets
  have current : configNeedsWrite = false → storage.files.config = some configJson := by
    intro unchanged
    apply file_of_not_needsWrite
    simpa [configNeedsWrite] using unchanged
  split at written
  · rename_i nothing
    rw [if_pos nothing]
    simp only [Bool.and_eq_true, Bool.not_eq_true'] at nothing
    exact written.trans (by rw [current nothing.1.1])
  · rename_i something
    rw [if_neg something]
    simp only [second, Bool.not_false, Bool.true_and]
    split
    · exact congrArg (fun state => CronFiles.mk (some configJson) state)
        (congrArg CronFiles.state written)
    · rename_i unchanged
      simp only [Bool.or_eq_true, not_or, Bool.not_eq_true] at unchanged
      exact written.trans (by rw [current unchanged.1])

end

/-- A job of the store file that was written for a job. -/
def writtenConfig (job : JsonRecord) : JsonRecord :=
  ofMembers (stringifiedMembers (stripRuntimeOnlyCronFields job).entries)

variable {store : List JsonRecord} {job : JsonRecord}

theorem get?_writtenConfig (job : JsonRecord) (key : String) : (writtenConfig job).get? key =
      if key = "state" then some (.object [])
      else if key = "updatedAtMs" then none
      else
        (job.get? key).map stringified := by
  rw [writtenConfig, get?_ofMembers_stringified,
    stripRuntimeOnlyCronFields, get?_set, get?_delete, get?_delete]
  by_cases isState : key = "state"
  · rw [if_pos isState, if_pos isState]
    rfl
  · rw [if_neg isState, if_neg isState]
    by_cases isUpdated : key = "updatedAtMs"
    · simp [isUpdated]
    · rw [if_neg isUpdated, if_neg isUpdated, if_neg isState]

theorem normalizeCronStoreFile_configValue (store : List JsonRecord) :
    normalizeCronStoreFile (configValue store).stringified = store.map writtenConfig := by
  have jobs : (store.map fun job => toJson (stripRuntimeOnlyCronFields job)).map stringified =
      store.map fun job => object (stringifiedMembers
          (stripRuntimeOnlyCronFields job).entries) := by
    simp [Function.comp_def, stringified_toJson]
  simp only [configValue, stringified, stringifiedMembers,
    stringifiedItems_eq_map, jobs, normalizeCronStoreFile]
  simp [member?, filterMap_map, Function.comp_def, ofJson?, writtenConfig]

/-- The entries that a saved state file is parsed to. -/
def writtenEntries (host : CronStoreHost Text) (store : List JsonRecord) :
    List (String × JsonValue) :=
  stringifiedMembers (extractStateFile host store).entries

theorem loadStateFile_stateValue (host : CronStoreHost Text) (store : List JsonRecord) :
    loadStateFile host (some (host.stringify (stateValue host store))) =
      some (writtenEntries host store) := by
  rw [loadStateFile, Option.bind_some, host.parse_stringify]
  simp only [stateValue, stringified, stringifiedMembers, stringified_toJson]
  rfl

/-- The jobs of a store have distinct texts as ids, and typed runtime fields. -/
structure IsStore (store : List JsonRecord) : Prop where
  ids : ∀ job ∈ store, ∃ id, job.get? "id" = some (.string id)
  distinct : (store.map fun job => job.get? "id").Nodup
  updated : ∀ job ∈ store, ∃ time, job.get? "updatedAtMs" = some (.number (.finite time))
  states : ∀ job ∈ store, ∃ members, job.get? "state" = some (.object members)

theorem get?_assignProperty (object : JsonRecord) (key other : String) (value : JsonValue) :
    (assignProperty object key value).get? other =
      if other = key ∧ key ≠ "__proto__" then some value
      else
        object.get? other := by
  unfold assignProperty
  by_cases isProto : key = "__proto__"
  · simp [isProto]
  · by_cases same : other = key
    · simp [isProto, same]
    · simp [isProto, same, get?_set]

theorem get?_foldl_assignProperty {keyOf : JsonRecord → String}
    {valueOf : JsonRecord → JsonValue} {key : String} (store : List JsonRecord)
    (object : JsonRecord) (fresh : ∀ job ∈ store, keyOf job ≠ key) : (store.foldl
      (fun object job => assignProperty object (keyOf job) (valueOf job))
      object).get? key = object.get? key := by
  induction store generalizing object with
  | nil => rfl
  | cons job rest inductionHypothesis =>
    rw [foldl_cons, inductionHypothesis _ fun later member =>
      fresh later (.tail job member), get?_assignProperty]
    have differs : ¬ (key = keyOf job ∧ keyOf job ≠ "__proto__") :=
      fun both => fresh job mem_cons_self both.1.symm
    rw [if_neg differs]

/-- The state file has the entry of every job, except under `__proto__`. -/
theorem get?_extractStateFile {id : String}
    (isStore : IsStore store) (stored : job ∈ store) (named : job.get? "id" = some (.string id)) :
    (extractStateFile host store).get? id =
      if id = "__proto__" then none
      else
        some (stateEntry host.toScheduleHost job) := by
  obtain ⟨before, after, rfl⟩ := append_of_mem stored
  have distinct := isStore.distinct
  rw [map_append, map_cons, nodup_append] at distinct
  obtain ⟨-, ownDistinct, apart⟩ := distinct
  have keyOf : ∀ other ∈ before ++ job :: after, ∀ text, host.propertyKey (other.get? "id") = text →
        other.get? "id" = some (.string text) := by
    intro other member text same
    obtain ⟨own, read⟩ := isStore.ids other member
    rw [read, host.propertyKey_string] at same
    rw [read, same]
  have laterFresh : ∀ other ∈ after, host.propertyKey (other.get? "id") ≠ id := by
    intro other member same
    have read := keyOf other (by simp [member]) id same
    apply (nodup_cons.mp ownDistinct).1
    rw [named, ← read]
    exact mem_map_of_mem member
  have earlierFresh : ∀ other ∈ before, host.propertyKey (other.get? "id") ≠ id := by
    intro other member same
    have read := keyOf other (by simp [member]) id same
    refine apart _ (mem_map_of_mem member) (job.get? "id") (by simp) ?_
    rw [read, named]
  have ownKey : host.propertyKey (job.get? "id") = id := by
    rw [named, host.propertyKey_string]
  rw [extractStateFile, foldl_append, foldl_cons,
    get?_foldl_assignProperty after _ laterFresh, get?_assignProperty, ownKey,
    get?_foldl_assignProperty before _ earlierFresh]
  by_cases isProto : id = "__proto__"
  · simp [isProto]
  · simp [isProto]

theorem stateFileEntry_written (host : CronStoreHost Text)
    {id : String} (isStore : IsStore store) (stored : job ∈ store)
    (named : job.get? "id" = some (.string id)) : stateFileEntry (writtenEntries host store) id =
      if id = "__proto__" then some (.object [])
      else
        some (stateEntry host.toScheduleHost job).stringified := by
  rw [stateFileEntry, writtenEntries, ← stringified_toJson, member?_stringified, member?_toJson,
    get?_extractStateFile isStore stored named]
  by_cases isProto : id = "__proto__"
  · simp [isProto]
  · simp [isProto]

/-- The state that a state-file entry gives a job, with a stale next run cleared. -/
def mergedState (host : ScheduleHost) (job : JsonRecord) (entry : JsonValue) :
    List (String × JsonValue) :=
  let state :=
    match member? "state" entry with
    | some (.object members) => members
    | _ => []
  match member? "scheduleIdentity" entry with
  | some (.string identity) =>
    if some identity = tryCronScheduleIdentity host job.get? then state
    else removeMember "nextRunAtMs" state
  | _ => state

theorem sameScheduling_set {key : String}
    (runtime : key = "state" ∨ key = "updatedAtMs") (value : JsonValue) :
    SameScheduling (job.set key value).get? job.get? := by
  intro other listed
  apply get?_set_of_ne
  rintro rfl
  rcases runtime with rfl | rfl
  · simp [schedulingKeys] at listed
  · simp [schedulingKeys] at listed

theorem SameScheduling.trans {left middle right : Members}
    (first : SameScheduling left middle) (second : SameScheduling middle right) :
    SameScheduling left right :=
  fun key listed => (first key listed).trans (second key listed)

theorem get?_mergeStateFileEntry {entry : JsonValue} (host : ScheduleHost) (now : ℚ)
    (job : JsonRecord) (isRecord : entry.isRecord = true) (key : String) :
    (mergeStateFileEntry host now job entry).get? key =
      if key = "state" then some (.object (mergedState host job entry))
      else if key = "updatedAtMs" then
        some (.number (.finite (resolveUpdatedAtMs now job (member? "updatedAtMs" entry))))
      else
        job.get? key := by
  rw [mergeStateFileEntry, if_pos isRecord, mergedState]
  extract_lets state updated
  have identity : tryCronScheduleIdentity host updated.get? =
      tryCronScheduleIdentity host job.get? :=
    tryCronScheduleIdentity_congr
      ((sameScheduling_set (Or.inl rfl) _).trans (sameScheduling_set (Or.inr rfl) _))
  have reads : ∀ members, (updated.set "state" (.object members)).get? key =
        if key = "state" then some (.object members)
        else updated.get? key := fun members => get?_set _ _ _ _
  have own : updated.get? key = if key = "state" then some (.object state)
      else if key = "updatedAtMs" then
        some (.number (.finite (resolveUpdatedAtMs now job (member? "updatedAtMs" entry))))
      else
        job.get? key := by
    rw [get?_set, get?_set]
  cases member? "scheduleIdentity" entry with
  | none => exact own
  | some value =>
    cases value with
    | string text =>
      simp only [identity]
      by_cases current : some text = tryCronScheduleIdentity host job.get?
      · rw [if_pos current, if_pos current]
        exact own
      · rw [if_neg current, if_neg current, reads]
        by_cases isState : key = "state"
        · exact (if_pos isState).trans (if_pos isState).symm
        · rw [if_neg isState, own, if_neg isState, if_neg isState]
    | _ => exact own

theorem ensureJobStateObject_of_state {members : List (String × JsonValue)}
    (state : job.get? "state" = some (.object members)) : ensureJobStateObject job = job := by
  simp [ensureJobStateObject, stateMembers?, state]

section

variable {job : JsonRecord} {time : ℚ} {state : List (String × JsonValue)}

section

variable (host : ScheduleHost)

theorem isRecord_stringified_stateEntry (job : JsonRecord) :
    (stateEntry host job).stringified.isRecord = true := by
  rw [stateEntry, stringified]
  rfl

theorem member?_stateEntry_state (hasState : job.get? "state" = some (.object state)) :
    member? "state" (stateEntry host job) = some (.object state) := by
  simp [stateEntry, hasState, member?]

theorem member?_stateEntry_updatedAtMs
    (updated : job.get? "updatedAtMs" = some (.number (.finite time))) :
    member? "updatedAtMs" (stateEntry host job) = some (.number (.finite time)) := by
  cases identity : tryCronScheduleIdentity host job.get? with
  | none => simp [stateEntry, updated, identity, member?]
  | some text => simp [stateEntry, updated, identity, member?]

theorem member?_stateEntry_scheduleIdentity
    (updated : job.get? "updatedAtMs" = some (.number (.finite time))) :
    member? "scheduleIdentity" (stateEntry host job) =
      (tryCronScheduleIdentity host job.get?).map string := by
  cases identity : tryCronScheduleIdentity host job.get? with
  | none => simp [stateEntry, updated, identity, member?]
  | some text => simp [stateEntry, updated, identity, member?]

/-- The state that the entry of a saved job gives a job of the store file. -/
def restoredState (saved record : JsonRecord)
    (state : List (String × JsonValue)) : List (String × JsonValue) :=
  if (tryCronScheduleIdentity host saved.get?).isNone ∨
      tryCronScheduleIdentity host saved.get? = tryCronScheduleIdentity host record.get? then
    stringifiedMembers state
  else removeMember "nextRunAtMs" (stringifiedMembers state)

end

theorem mergedState_stateEntry {host : ScheduleHost} {saved record : JsonRecord}
    (updated : saved.get? "updatedAtMs" = some (.number (.finite time)))
    (hasState : saved.get? "state" = some (.object state)) :
    mergedState host record (stateEntry host saved).stringified =
      restoredState host saved record state := by
  rw [mergedState, restoredState, member?_stringified,
    member?_stringified, member?_stateEntry_state host hasState,
    member?_stateEntry_scheduleIdentity host updated]
  cases tryCronScheduleIdentity host saved.get? with
  | none => simp [stringified]
  | some text => simp [stringified]

end

end Cron
