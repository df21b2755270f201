import AieClaw.CronStoreRoundTrip

/-!
# Saving, stopping in between, and loading again

A finished save is read back as the saved jobs, and a save that stopped after
its first write as the old jobs with their new states, without the next runs
that were recorded for another schedule. Both fail for a job named `__proto__`,
whose entry is lost; and a next run survives a change of schedule when the
saved job has no identity, or the same one for another schedule.
-/

universe u

namespace Cron

open JsonValue List

variable {Text : Type u}

def SameJob (left right : JsonRecord) : Prop := ∀ key, left.get? key = right.get? key

def nextRunAtMs? (job : JsonRecord) : Option JsonValue :=
  (stateMembers? job).bind fun members => member? "nextRunAtMs" (.object members)

/-- The jobs of the store file, when it can be parsed. -/
def configRecords (host : CronStoreHost Text) (files : CronFiles Text) : List JsonRecord :=
  match files.config.bind host.parse with
  | some parsed => normalizeCronStoreFile parsed
  | none => []

/--
The states that files hold under an id: those of the state file or, where there
is none, those inside the jobs of the store file.
-/
def HeldState (host : CronStoreHost Text) (files : CronFiles Text) (id : String)
    (state : List (String × JsonValue)) : Prop :=
  match loadStateFile host files.state with
  | some jobs =>
    ∃ entry, member? id (.object jobs) = some entry ∧ member? "state" entry = some (.object state)
  | none =>
    ∃ record ∈ configRecords host files,
      record.get? "id" = some (.string id) ∧ record.get? "state" = some (.object state)

def RecordedState (host : CronStoreHost Text) (files : CronFiles Text) (saved : JsonRecord)
    (state : List (String × JsonValue)) : Prop :=
  (∃ members, saved.get? "state" = some (.object members) ∧
    state = stringifiedMembers members) ∨
    ∃ id, saved.get? "id" = some (.string id) ∧ HeldState host files id state

/-- The jobs run at the same times: next runs are computed from the same values. -/
def SameSchedule (host : ScheduleHost) (left right : JsonRecord) : Prop :=
  computedSchedule host left.get? = computedSchedule host right.get? ∧
    enabledFlag left.get? = enabledFlag right.get?

/-- What a load may make of a job whose save stopped between the two writes. -/
structure RecoversJob (host : CronStoreHost Text) (files : CronFiles Text)
    (saved loaded : JsonRecord) : Prop where
  state :
    ∃ members, RecordedState host files saved members ∧
      (loaded.get? "state" = some (.object members) ∨
        loaded.get? "state" = some (.object (removeMember "nextRunAtMs" members)))
  nextRun : nextRunAtMs? loaded ≠ none → SameSchedule host.toScheduleHost saved loaded

section

variable [DecidableEq Text]

/-- After a save, a load returns the saved jobs. -/
def ReturnsSaved (host : CronStoreHost Text) (store : List JsonRecord)
    (storage : CronStorage Text) : Prop :=
  ∀ now, ∃ loaded final,
    loadCronStore host now (saveCronStore host false store storage).finished = .ok (loaded, final) ∧
      List.Forall₂ SameJob loaded store

/-- What a restarted process finds after a save that stopped in between. -/
def stoppedSave (host : CronStoreHost Text) (store : List JsonRecord) (storage : CronStorage Text) :
    CronStorage Text :=
  { files := (saveCronStore host false store storage).stateWritten.files
    cache := none }

/-- After a save that stopped in between, a load recovers every saved job. -/
def RecoversSaved (host : CronStoreHost Text) (store : List JsonRecord)
    (storage : CronStorage Text) : Prop :=
  ∀ now loaded final,
    loadCronStore host now (stoppedSave host store storage) = .ok (loaded, final) →
      ∀ job ∈ loaded, ∀ saved ∈ store,
        job.get? "id" = saved.get? "id" → RecoversJob host storage.files saved job

end

/-- JSON text holds the job, and under `__proto__` there is nothing to lose. -/
structure SurvivesSave (saved : JsonRecord) : Prop where
  members : ∀ key value, saved.get? key = some value → value.stringified = value
  named :
    saved.get? "id" = some (.string "__proto__") →
      saved.get? "state" = some (.object []) ∧ saved.get? "createdAtMs" = saved.get? "updatedAtMs"

/--
The old job of the store file may take over the state of the saved one: it has
no next run, or the identities tell the schedules apart, or they are the same
schedule. Under `__proto__` no state but an empty one is read.
-/
def SurvivesStop (host : CronStoreHost Text) (files : CronFiles Text) (saved record : JsonRecord) :
    Prop :=
  (saved.get? "id" = some (.string "__proto__") →
    ∃ members, RecordedState host files saved members ∧ removeMember "nextRunAtMs" members = []) ∧
  (saved.get? "id" ≠ some (.string "__proto__") →
    nextRunAtMs? saved = none ∨
      (tryCronScheduleIdentity host.toScheduleHost saved.get? ≠ none ∧
        tryCronScheduleIdentity host.toScheduleHost saved.get? ≠
          tryCronScheduleIdentity host.toScheduleHost record.get?) ∨
      SameSchedule host.toScheduleHost saved record)

section

variable {host : CronStoreHost Text} {store : List JsonRecord} {saved record : JsonRecord}
  {id : String} {state members : List (String × JsonValue)} {loaded : JsonRecord}

theorem loadJob_of_entry {jobs : List (String × JsonValue)} {entry : JsonValue} (now : ℚ)
    (legacy : Bool) (named : record.get? "id" = some (.string id))
    (found : stateFileEntry jobs id = some entry) (isRecord : entry.isRecord = true) :
    loadJob host now (some jobs) legacy record =
      mergeStateFileEntry host.toScheduleHost now record entry := by
  have state : (mergeStateFileEntry host.toScheduleHost now record entry).get? "state" =
        some (.object (mergedState host.toScheduleHost record entry)) := by
    rw [get?_mergeStateFileEntry host.toScheduleHost now record isRecord]
    rfl
  simp only [loadJob, named, host.propertyKey_string, found]
  exact ensureJobStateObject_of_state state

theorem get?_loadJob_of_ordinary (host : CronStoreHost Text) {time : ℚ}
    (isStore : IsStore store) (stored : saved ∈ store)
    (savedNamed : saved.get? "id" = some (.string id))
    (named : record.get? "id" = some (.string id)) (ordinary : id ≠ "__proto__")
    (updated : saved.get? "updatedAtMs" = some (.number (.finite time)))
    (hasState : saved.get? "state" = some (.object state)) (now : ℚ) (legacy : Bool)
    (key : String) : (loadJob host now (some (writtenEntries host store)) legacy record).get? key =
      if key = "state" then some (.object (restoredState host.toScheduleHost saved record state))
      else if key = "updatedAtMs" then some (.number (.finite time))
      else
        record.get? key := by
  have found := stateFileEntry_written host isStore stored savedNamed
  rw [if_neg ordinary] at found
  have isRecord := isRecord_stringified_stateEntry host.toScheduleHost saved
  rw [loadJob_of_entry now legacy named found isRecord,
    get?_mergeStateFileEntry host.toScheduleHost now record isRecord,
    mergedState_stateEntry updated hasState, member?_stringified,
    member?_stateEntry_updatedAtMs host.toScheduleHost updated]
  rfl

theorem get?_loadJob_of_proto (host : CronStoreHost Text) (isStore : IsStore store)
    (stored : saved ∈ store) (savedNamed : saved.get? "id" = some (.string "__proto__"))
    (named : record.get? "id" = some (.string "__proto__")) (now : ℚ) (legacy : Bool)
    (key : String) : (loadJob host now (some (writtenEntries host store)) legacy record).get? key =
      if key = "state" then some (.object [])
      else if key = "updatedAtMs" then
        some (.number (.finite (resolveUpdatedAtMs now record none)))
      else
        record.get? key := by
  have found := stateFileEntry_written host isStore stored savedNamed
  rw [if_pos rfl] at found
  rw [loadJob_of_entry now legacy named found rfl,
    get?_mergeStateFileEntry host.toScheduleHost now record rfl]
  rfl

theorem tryCronScheduleIdentity_writtenConfig (host : ScheduleHost) (saved : JsonRecord) :
    tryCronScheduleIdentity host (writtenConfig saved).get? =
      tryCronScheduleIdentity host saved.get? := by
  have same : SameScheduling (writtenConfig saved).get? (Members.written saved.get?) := by
    intro key listed
    have notState : key ≠ "state" := by
      rintro rfl
      simp [schedulingKeys] at listed
    have notUpdated : key ≠ "updatedAtMs" := by
      rintro rfl
      simp [schedulingKeys] at listed
    rw [get?_writtenConfig, if_neg notState, if_neg notUpdated]
    rfl
  rw [tryCronScheduleIdentity_congr same, tryCronScheduleIdentity_written]

theorem restoredState_writtenConfig (host : ScheduleHost) (saved : JsonRecord)
    (state : List (String × JsonValue)) : restoredState host saved (writtenConfig saved) state =
      stringifiedMembers state := by
  rw [restoredState, tryCronScheduleIdentity_writtenConfig]
  exact if_pos (Or.inr rfl)

theorem writtenConfig_named (savedNamed : saved.get? "id" = some (.string id)) :
    (writtenConfig saved).get? "id" = some (.string id) := by
  rw [get?_writtenConfig, savedNamed]
  rfl

/--
A job read back from text is the saved one when its runtime fields are and JSON
text holds the other members.
-/
theorem sameJob_written_iff {resolved time : ℚ}
    (hasState : saved.get? "state" = some (.object state))
    (updated : saved.get? "updatedAtMs" = some (.number (.finite time)))
    (reads : ∀ key, loaded.get? key =
      if key = "state" then some (.object members)
      else if key = "updatedAtMs" then some (.number (.finite resolved))
      else (writtenConfig saved).get? key) : SameJob loaded saved ↔
      members = state ∧ resolved = time ∧
        ∀ key value, key ≠ "state" → key ≠ "updatedAtMs" →
          saved.get? key = some value → value.stringified = value := by
  constructor
  · intro same
    refine ⟨?_, ?_, ?_⟩
    · have atState := (reads "state").symm.trans (same "state")
      rw [hasState, if_pos rfl] at atState
      exact object.inj (Option.some.inj atState)
    · have atUpdated := (reads "updatedAtMs").symm.trans (same "updatedAtMs")
      rw [updated, if_neg (by decide), if_pos rfl] at atUpdated
      exact JsNumber.finite.inj (number.inj (Option.some.inj atUpdated))
    · intro key value notState notUpdated read
      have atKey := (reads key).symm.trans (same key)
      rw [if_neg notState, if_neg notUpdated, get?_writtenConfig,
        if_neg notState, if_neg notUpdated, read] at atKey
      exact Option.some.inj atKey
  · rintro ⟨rfl, rfl, survives⟩ key
    rw [reads]
    by_cases isState : key = "state"
    · rw [if_pos isState, isState, hasState]
    · rw [if_neg isState]
      by_cases isUpdated : key = "updatedAtMs"
      · rw [if_pos isUpdated, isUpdated, updated]
      · rw [if_neg isUpdated, get?_writtenConfig, if_neg isState, if_neg isUpdated]
        cases read : saved.get? key with
        | none => rfl
        | some value => rw [Option.map_some, survives key value isState isUpdated read]

theorem members_survive_iff {time : ℚ} (hasState : saved.get? "state" = some (.object state))
    (updated : saved.get? "updatedAtMs" = some (.number (.finite time))) :
    (∀ key value, saved.get? key = some value → value.stringified = value) ↔
      stringifiedMembers state = state ∧
        ∀ key value, key ≠ "state" → key ≠ "updatedAtMs" →
          saved.get? key = some value → value.stringified = value := by
  constructor
  · intro survives
    refine ⟨?_, fun key value _ _ read => survives key value read⟩
    have own := survives "state" _ hasState
    rw [stringified] at own
    exact object.inj own
  · rintro ⟨own, survives⟩ key value read
    by_cases isState : key = "state"
    · subst isState
      rw [hasState] at read
      cases read
      rw [stringified, own]
    · by_cases isUpdated : key = "updatedAtMs"
      · subst isUpdated
        rw [updated] at read
        cases read
        rfl
      · exact survives key value isState isUpdated read

theorem resolveUpdatedAtMs_writtenConfig (now : ℚ) (saved : JsonRecord) :
    resolveUpdatedAtMs now (writtenConfig saved) none =
      (readNumber (saved.get? "createdAtMs")).getD now := by
  have noTime : (writtenConfig saved).get? "updatedAtMs" = none := by
    rw [get?_writtenConfig]
    rfl
  have created : readNumber ((writtenConfig saved).get? "createdAtMs") =
      readNumber (saved.get? "createdAtMs") := by
    rw [get?_writtenConfig, if_neg (by decide), if_neg (by decide), readNumber_written]
  rw [resolveUpdatedAtMs, noTime, created]
  cases readNumber (saved.get? "createdAtMs") with
  | none => rfl
  | some value => rfl

theorem readNumber_eq_some_iff (member : Option JsonValue) (time : ℚ) :
    readNumber member = some time ↔ member = some (.number (.finite time)) := by
  constructor
  · intro read
    obtain ⟨value, rfl, finite⟩ := Option.bind_eq_some_iff.mp read
    cases value with
    | number number =>
      cases number with
      | finite value =>
        cases finite
        rfl
      | _ => cases finite
    | _ => cases finite
  · rintro rfl
    rfl

/-- A saved job comes back as it was exactly when it survives the save. -/
theorem sameJob_loadJob_iff (host : CronStoreHost Text) (isStore : IsStore store)
    (stored : saved ∈ store) : (∀ now, SameJob
        (loadJob host now (some (writtenEntries host store)) false (writtenConfig saved)) saved) ↔
      SurvivesSave saved := by
  obtain ⟨id, savedNamed⟩ := isStore.ids saved stored
  obtain ⟨time, updated⟩ := isStore.updated saved stored
  obtain ⟨state, hasState⟩ := isStore.states saved stored
  have named := writtenConfig_named savedNamed
  have others := members_survive_iff hasState updated
  by_cases isProto : id = "__proto__"
  · subst isProto
    have each : ∀ now, _ := fun now =>
      sameJob_written_iff hasState updated
        (get?_loadJob_of_proto host isStore stored savedNamed named now false)
    constructor
    · intro same
      obtain ⟨rfl, -, survives⟩ := (each 0).mp (same 0)
      refine ⟨others.mpr ⟨rfl, survives⟩, fun _ => ⟨hasState, ?_⟩⟩
      rw [updated, ← readNumber_eq_some_iff]
      have atNow : ∀ now, (readNumber (saved.get? "createdAtMs")).getD now =
          time := by
        intro now
        rw [← resolveUpdatedAtMs_writtenConfig]
        exact ((each now).mp (same now)).2.1
      cases created : readNumber (saved.get? "createdAtMs") with
      | none =>
        rw [created] at atNow
        have later : time + 1 = time := atNow (time + 1)
        linarith
      | some value =>
        rw [created] at atNow
        rw [← atNow 0]
        rfl
    · intro survives now
      obtain ⟨stateEmpty, sameTime⟩ := survives.named savedNamed
      have created : readNumber (saved.get? "createdAtMs") = some time := by
        rw [sameTime, updated]
        rfl
      have empty : [] = state := by
        rw [hasState] at stateEmpty
        exact (object.inj (Option.some.inj stateEmpty)).symm
      refine (each now).mpr ⟨empty, ?_, (others.mp survives.members).2⟩
      rw [resolveUpdatedAtMs_writtenConfig, created]
      rfl
  · have each : ∀ now, _ := fun now =>
      sameJob_written_iff hasState updated
        (get?_loadJob_of_ordinary host isStore stored savedNamed
          named isProto updated hasState now false)
    have notNamed : saved.get? "id" ≠ some (.string "__proto__") := by
      rw [savedNamed]
      rintro asProto
      cases asProto
      exact isProto rfl
    rw [forall_congr' each, restoredState_writtenConfig]
    constructor
    · intro same
      exact ⟨others.mpr ⟨(same 0).1, (same 0).2.2⟩, fun asProto => absurd asProto notNamed⟩
    · intro survives _
      obtain ⟨own, rest⟩ := others.mp survives.members
      exact ⟨own, rfl, rest⟩

theorem sameScheduling_of_reads {resolved : ℚ} (reads : ∀ key, loaded.get? key =
      if key = "state" then some (.object members)
      else if key = "updatedAtMs" then some (.number (.finite resolved))
      else record.get? key) : SameScheduling loaded.get? record.get? := by
  intro key listed
  have notState : key ≠ "state" := by
    rintro rfl
    simp [schedulingKeys] at listed
  have notUpdated : key ≠ "updatedAtMs" := by
    rintro rfl
    simp [schedulingKeys] at listed
  rw [reads, if_neg notState, if_neg notUpdated]

theorem nextRunAtMs?_of_state {job : JsonRecord}
    (state : job.get? "state" = some (.object members)) :
    nextRunAtMs? job = member? "nextRunAtMs" (.object members) := by
  simp [nextRunAtMs?, stateMembers?, state]

theorem nextRunAtMs?_stringified
    (hasState : saved.get? "state" = some (.object members)) : member? "nextRunAtMs"
        (.object (stringifiedMembers members)) = none ↔ nextRunAtMs? saved = none := by
  have written := member?_stringified "nextRunAtMs" (.object members)
  rw [stringified] at written
  rw [written, nextRunAtMs?_of_state hasState, Option.map_eq_none_iff]

theorem sameSchedule_congr (host : ScheduleHost) (saved : JsonRecord)
    (same : SameScheduling loaded.get? record.get?) :
    SameSchedule host saved loaded ↔ SameSchedule host saved record := by
  rw [SameSchedule, SameSchedule, computedSchedule_congr same, enabledFlag_congr same]

theorem restoredState_nextRun_iff (schedules : ScheduleHost) (record : JsonRecord)
    (hasState : saved.get? "state" = some (.object state)) :
    member? "nextRunAtMs" (.object (restoredState schedules saved record state)) = none ↔
      nextRunAtMs? saved = none ∨
        (tryCronScheduleIdentity schedules saved.get? ≠ none ∧
          tryCronScheduleIdentity schedules saved.get? ≠
            tryCronScheduleIdentity schedules record.get?) := by
  by_cases kept : (tryCronScheduleIdentity schedules saved.get?).isNone ∨
      tryCronScheduleIdentity schedules saved.get? = tryCronScheduleIdentity schedules record.get?
  · rw [restoredState, if_pos kept, nextRunAtMs?_stringified hasState]
    have notStale : ¬ (tryCronScheduleIdentity schedules saved.get? ≠ none ∧
        tryCronScheduleIdentity schedules saved.get? ≠
          tryCronScheduleIdentity schedules record.get?) := by
      rintro ⟨defined, differs⟩
      rcases kept with missing | same
      · exact defined (Option.isNone_iff_eq_none.mp missing)
      · exact differs same
    exact (or_iff_left notStale).symm
  · rw [restoredState, if_neg kept, member?_removeMember]
    rw [not_or, Option.isNone_iff_eq_none] at kept
    exact iff_of_true rfl (Or.inr kept)

/-- An old job recovers exactly when it may take over the saved state. -/
theorem recoversJob_loadJob_iff (files : CronFiles Text) (isStore : IsStore store)
    (stored : saved ∈ store) (sameId : record.get? "id" = saved.get? "id") (now : ℚ)
    (legacy : Bool) : RecoversJob host files saved
        (loadJob host now (some (writtenEntries host store)) legacy record) ↔
      SurvivesStop host files saved record := by
  obtain ⟨id, savedNamed⟩ := isStore.ids saved stored
  obtain ⟨time, updated⟩ := isStore.updated saved stored
  obtain ⟨state, hasState⟩ := isStore.states saved stored
  have named := sameId.trans savedNamed
  by_cases isProto : id = "__proto__"
  · subst isProto
    have reads := get?_loadJob_of_proto host isStore stored savedNamed named now legacy
    generalize loadJob host now _ legacy record = loaded at reads ⊢
    have atState : loaded.get? "state" = some (.object []) := reads "state"
    constructor
    · intro recovers
      refine ⟨fun _ => ?_, fun notNamed => absurd savedNamed notNamed⟩
      obtain ⟨members, recorded, isState | isCleared⟩ := recovers.state
      · rw [atState] at isState
        refine ⟨members, recorded, ?_⟩
        rw [← object.inj (Option.some.inj isState)]
        rfl
      · rw [atState] at isCleared
        exact ⟨members, recorded, (object.inj (Option.some.inj isCleared)).symm⟩
    · intro survives
      obtain ⟨members, recorded, bare⟩ := survives.1 savedNamed
      constructor
      · exact ⟨members, recorded, Or.inr (by rw [atState, bare])⟩
      · intro present
        exact absurd (nextRunAtMs?_of_state atState) present
  · have reads := get?_loadJob_of_ordinary host isStore stored
      savedNamed named isProto updated hasState now legacy
    generalize loadJob host now _ legacy record = loaded at reads ⊢
    have atState := reads "state"
    rw [if_pos rfl] at atState
    have sameSchedule := sameSchedule_congr host.toScheduleHost saved
      (sameScheduling_of_reads reads)
    have nextRun := restoredState_nextRun_iff host.toScheduleHost record hasState
    rw [← nextRunAtMs?_of_state atState] at nextRun
    have notNamed : saved.get? "id" ≠ some (.string "__proto__") := by
      rw [savedNamed]
      rintro asProto
      cases asProto
      exact isProto rfl
    have recorded : RecordedState host files saved (stringifiedMembers state) :=
      Or.inl ⟨state, hasState, rfl⟩
    constructor
    · intro recovers
      refine ⟨fun asProto => absurd asProto notNamed, fun _ => ?_⟩
      by_cases missing : nextRunAtMs? loaded = none
      · rcases nextRun.mp missing with absent | stale
        · exact Or.inl absent
        · exact Or.inr (Or.inl stale)
      · exact Or.inr (Or.inr (sameSchedule.mp (recovers.nextRun missing)))
    · intro survives
      constructor
      · refine ⟨stringifiedMembers state, recorded, ?_⟩
        rw [atState, restoredState]
        split
        · exact Or.inl rfl
        · exact Or.inr rfl
      · intro present
        rcases survives.2 notNamed with absent | stale | same
        · exact absurd (nextRun.mpr (Or.inl absent)) present
        · exact absurd (nextRun.mpr (Or.inr stale)) present
        · exact sameSchedule.mpr same

end

section

variable {host : CronStoreHost Text}

/-- Loading changes only the runtime fields of a job. -/
theorem get?_loadJob {key : String} (now : ℚ)
    (stateFile : Option (List (String × JsonValue))) (legacy : Bool) (record : JsonRecord)
    (config : key ≠ "state" ∧ key ≠ "updatedAtMs") :
    (loadJob host now stateFile legacy record).get? key = record.get? key := by
  obtain ⟨notState, notUpdated⟩ := config
  have ensured : ∀ job, (ensureJobStateObject job).get? key = job.get? key := by
    intro job
    unfold ensureJobStateObject
    split
    · rfl
    · exact OrderedMap.get?_set_of_ne notState
  have filled : (backfillMissingRuntimeFields now record).get? key = record.get? key := by
    rw [← ensured record]
    unfold backfillMissingRuntimeFields
    extract_lets job
    split
    · rfl
    · split
      · exact OrderedMap.get?_set_of_ne notUpdated
      · exact OrderedMap.get?_set_of_ne notUpdated
  have merged : ∀ entry, (mergeStateFileEntry host.toScheduleHost now record entry).get? key =
        record.get? key := by
    intro entry
    by_cases isRecord : entry.isRecord = true
    · rw [get?_mergeStateFileEntry host.toScheduleHost now record isRecord,
        if_neg notState, if_neg notUpdated]
    · rw [mergeStateFileEntry, if_neg isRecord, filled]
  unfold loadJob
  rw [ensured]
  cases stateFile with
  | none =>
    cases legacy with
    | true => rfl
    | false => exact filled
  | some jobs =>
    cases found : stateFileEntry jobs (host.propertyKey (record.get? "id")) with
    | none => simpa only [found] using filled
    | some entry => simpa only [found] using merged entry

variable [DecidableEq Text]

theorem loadCronStore_finished (host : CronStoreHost Text) (store : List JsonRecord)
    (storage : CronStorage Text) (now : ℚ) : ∃ final,
      loadCronStore host now (saveCronStore host false store storage).finished = .ok
          (store.map fun saved =>
            loadJob host now (some (writtenEntries host store)) false (writtenConfig saved),
            final) := by
  simp only [loadCronStore, finished_files, host.parse_stringify,
    loadStateFile_stateValue, normalizeCronStoreFile_configValue,
    Option.isNone_some, Bool.false_and, map_map]
  exact ⟨_, rfl⟩

theorem returnsSaved_iff {store : List JsonRecord} (isStore : IsStore store)
    (storage : CronStorage Text) :
    ReturnsSaved host store storage ↔ ∀ saved ∈ store, SurvivesSave saved := by
  have each : ∀ now, (∃ loaded final,
        loadCronStore host now (saveCronStore host false store storage).finished =
          .ok (loaded, final) ∧ List.Forall₂ SameJob loaded store) ↔ ∀ saved ∈ store, SameJob
          (loadJob host now (some (writtenEntries host store)) false (writtenConfig saved))
          saved := by
    intro now
    obtain ⟨final, loads⟩ := loadCronStore_finished host store storage now
    constructor
    · rintro ⟨loaded, other, otherwise, same⟩
      rw [loads] at otherwise
      cases otherwise
      rw [forall₂_map_left_iff, forall₂_same] at same
      exact same
    · intro same
      refine ⟨_, final, loads, ?_⟩
      rw [forall₂_map_left_iff, forall₂_same]
      exact same
  constructor
  · intro returns saved stored
    exact (sameJob_loadJob_iff host isStore stored).mp fun now =>
      (each now).mp (returns now) saved stored
  · intro survives now
    exact (each now).mpr fun saved stored =>
      (sameJob_loadJob_iff host isStore stored).mpr (survives saved stored) now

theorem recoversSaved_iff {store : List JsonRecord} (isStore : IsStore store)
    (storage : CronStorage Text) : RecoversSaved host store storage ↔
      ∀ record ∈ configRecords host storage.files, ∀ saved ∈ store,
        record.get? "id" = saved.get? "id" → SurvivesStop host storage.files saved record := by
  have files : (stoppedSave host store storage).files =
      { config := storage.files.config
        state := some (host.stringify (stateValue host store)) } :=
    stateWritten_files host false store storage
  cases raw : storage.files.config with
  | none =>
    have loads : ∀ now, loadCronStore host now (stoppedSave host store storage) =
        .ok ([], { stoppedSave host store storage with cache := none }) := by
      intro now
      simp only [loadCronStore, files, raw]
    simp [RecoversSaved, loads, configRecords, raw]
  | some text =>
    cases parsed : host.parse text with
    | none => simp [RecoversSaved, loadCronStore, files, configRecords, raw, parsed]
    | some value =>
      have loads : ∀ now, ∃ final, loadCronStore host now (stoppedSave host store storage) = .ok
              ((configRecords host storage.files).map
                (loadJob host now (some (writtenEntries host store)) false), final) := by
        intro now
        simp only [loadCronStore, files, raw, parsed,
          loadStateFile_stateValue, Option.isNone_some, Bool.false_and,
          configRecords, Option.bind_some]
        exact ⟨_, rfl⟩
      have idMember : "id" ≠ "state" ∧ "id" ≠ "updatedAtMs" := by decide
      constructor
      · intro recovers record listed saved stored sameId
        obtain ⟨final, loaded⟩ := loads 0
        apply (recoversJob_loadJob_iff storage.files isStore stored sameId 0 false).mp
        exact recovers 0 _ final loaded _ (mem_map_of_mem listed) saved
          stored ((get?_loadJob 0 _ false record idMember).trans sameId)
      · intro survives now loaded final loadedAs job member saved stored sameId
        obtain ⟨own, loadedOwn⟩ := loads now
        rw [loadedOwn] at loadedAs
        cases loadedAs
        obtain ⟨record, listed, rfl⟩ := mem_map.mp member
        have recordId := (get?_loadJob now _ false record idMember).symm.trans sameId
        exact (recoversJob_loadJob_iff storage.files isStore stored recordId
          now false).mpr (survives record listed saved stored recordId)

end

/-- A host whose texts are the values themselves. -/
def valueHost : CronStoreHost JsonValue where
  numberText _ := "60000"
  numberOfText _ := .nan
  dateParse _ := .nan
  identityText identity :=
    if identity.schedule = .every 60000 none then
      "\x7b\"version\":1,\"enabled\":true,\"schedule\":\x7b\"kind\":\"every\",\"everyMs\":60000\x7d\x7d"
    else
      "\x7b\"version\":1,\"enabled\":true,\"schedule\":\x7b\"kind\":\"every\",\"everyMs\":3600000\x7d\x7d"
  stringify := stringified
  parse value := some value
  propertyKey
    | some (.string text) => text
    | _ => "undefined"
  parse_stringify _ := rfl
  propertyKey_string _ := rfl

/-- A job that ran once and waits for its next run. -/
def runningJob (id : String) (everyMs : ℚ) : JsonRecord where
  entries :=
    [("id", .string id), ("enabled", .bool true),
      ("createdAtMs", .number 1000), ("updatedAtMs", .number 2000),
      ("schedule", .object [("kind", .string "every"), ("everyMs", .number (.finite everyMs))]),
      ("state", .object [("lastRunAtMs", .number 2000), ("nextRunAtMs", .number 62000)])]
  distinctKeys := by simp

theorem isStore_runningJob (id : String) (everyMs : ℚ) : IsStore [runningJob id everyMs] where
  ids job member := by
    rw [mem_singleton.mp member]
    exact ⟨id, rfl⟩
  distinct := nodup_singleton _
  updated job member := by
    rw [mem_singleton.mp member]
    exact ⟨2000, rfl⟩
  states job member := by
    rw [mem_singleton.mp member]
    exact ⟨_, rfl⟩

/-- Nothing is on disk and nothing in the cache. -/
def noFiles : CronStorage JsonValue where
  files := { config := none, state := none }
  cache := none

/-- A file from before the split: the job ran every hour, with its state inside. -/
def legacyFiles : CronStorage JsonValue where
  files :=
    { config := some (.array [(runningJob "digest" 3600000).toJson])
      state := none }
  cache := none

end Cron
