import AieClaw.ConfigModelRefs

/-!
# A write is a three-way merge

What the write persists has, at every path of keys, what the caller wrote where it
differs from the runtime configuration, and what the source has where it does not.
A key that only the prototype has makes the write fail when the caller removes it.
-/

namespace ConfigWrite

open JsonValue List Option

/--
What a three-way merge has at a path. Where the next configuration equals the
runtime configuration the source stays, and a key that only one of the two has was
added or removed.
-/
def mergedAt : List String → Option JsonValue → Option JsonValue → Option JsonValue → Option Node
  | path, source, none, none => source.bind (view path)
  | _, _, some _, none => none
  | path, _, none, some next => view path next
  | [], source, some runtime, some next =>
    if isDeepStrictEqual runtime next then source.map node else some next.node
  | key :: rest, source, some runtime, some next =>
    if runtime.isRecord && next.isRecord then
      mergedAt rest (source.bind fun value => value.membersOf.lookup key)
        (runtime.membersOf.lookup key) (next.membersOf.lookup key)
    else if isDeepStrictEqual runtime next then source.bind (view (key :: rest))
    else view (key :: rest) next

/-- Keys of objects are distinct and not blocked, and no member is `null`. -/
inductive Tidy : JsonValue → Prop where
  | leaf {value : JsonValue} (leaf : value.isRecord = false) : Tidy value
  | object
      {members : List (String × JsonValue)} (nodup : (members.map Prod.fst).Nodup)
      (unblocked : ∀ key ∈ members.map Prod.fst, isBlockedObjectKey key = false)
      (noNull : ∀ entry ∈ members, entry.2 ≠ .null) (each : ∀ entry ∈ members, Tidy entry.2) :
      Tidy (.object members)

/-- The runtime adds keys to objects and may replace what is no object. -/
inductive Extends : JsonValue → JsonValue → Prop where
  | leaf
      {source runtime : JsonValue} (sourceLeaf : source.isRecord = false)
      (runtimeLeaf : runtime.isRecord = false) : Extends source runtime
  | object
      {source runtime : List (String × JsonValue)}
      (keeps : ∀ key, runtime.lookup key = none → source.lookup key = none)
      (each : ∀ key sourceValue runtimeValue, source.lookup key = some sourceValue →
        runtime.lookup key = some runtimeValue → Extends sourceValue runtimeValue) :
      Extends (.object source) (.object runtime)

/--
At some path the runtime has a key of the prototype among its own keys, and the
caller's object there lacks it.
-/
def LosesInherited (runtime next : JsonValue) : Prop :=
  ∃ path runtimeMembers nextMembers key,
    at? path runtime = some (.object runtimeMembers) ∧
      at? path next = some (.object nextMembers) ∧ key ∈ inheritedKeys ∧
        (runtimeMembers.lookup key).isSome ∧ nextMembers.lookup key = none

section Merge

variable {members runtime : List (String × JsonValue)} {source : JsonValue}

theorem Tidy.nodup (tidy : Tidy (.object members)) : (members.map Prod.fst).Nodup := by
  cases tidy with
  | leaf leaf => exact absurd leaf (by simp [isRecord])
  | object nodup _ _ _ => exact nodup

theorem Tidy.unblocked (tidy : Tidy (.object members)) :
    ∀ key ∈ members.map Prod.fst, isBlockedObjectKey key = false := by
  cases tidy with
  | leaf leaf => exact absurd leaf (by simp [isRecord])
  | object _ unblocked _ _ => exact unblocked

theorem Tidy.distinctKeys {value : JsonValue} (tidy : Tidy value) : DistinctKeys value := by
  induction tidy with
  | leaf leaf => exact .leaf leaf
  | object nodup _ _ _ inductionHypothesis => exact .object nodup inductionHypothesis

theorem Tidy.ne_null_of_lookup (tidy : Tidy (.object members)) {key : String} {value : JsonValue}
    (found : members.lookup key = some value) : value ≠ .null := by
  cases tidy with
  | leaf leaf => exact absurd leaf (by simp [isRecord])
  | object _ _ noNull _ => exact noNull _ (mem_of_lookup found)

theorem Tidy.of_lookup (tidy : Tidy (.object members))
    {key : String} {value : JsonValue} (found : members.lookup key = some value) : Tidy value := by
  cases tidy with
  | leaf leaf => exact absurd leaf (by simp [isRecord])
  | object _ _ _ each => exact each _ (mem_of_lookup found)

theorem Extends.isRecord_eq {runtime : JsonValue} (extension : Extends source runtime) :
    source.isRecord = runtime.isRecord := by
  cases extension with
  | leaf sourceLeaf runtimeLeaf => rw [sourceLeaf, runtimeLeaf]
  | object _ _ => rfl

theorem Extends.lookup_eq_none (extension : Extends source (.object runtime)) {key : String}
    (missing : runtime.lookup key = none) : source.membersOf.lookup key = none := by
  cases extension with
  | leaf _ runtimeLeaf => exact absurd runtimeLeaf (by simp [isRecord])
  | object keeps _ => exact keeps key missing

theorem Extends.of_lookup (extension : Extends source (.object runtime)) {key : String}
    {sourceValue runtimeValue : JsonValue}
    (inSource : source.membersOf.lookup key = some sourceValue)
    (inRuntime : runtime.lookup key = some runtimeValue) : Extends sourceValue runtimeValue := by
  cases extension with
  | leaf _ runtimeLeaf => exact absurd runtimeLeaf (by simp [isRecord])
  | object _ each => exact each key sourceValue runtimeValue inSource inRuntime

mutual

theorem projectSourceOntoRuntimeShape_eq (source runtime : JsonValue) :
    projectSourceOntoRuntimeShape source runtime = source := by
  cases source with
  | object members =>
    cases runtime with
    | object others => rw [projectSourceOntoRuntimeShape, projectMembers_eq]
    | _ => rfl
  | _ => rw [projectSourceOntoRuntimeShape]; simp

theorem projectMembers_eq (source runtime : List (String × JsonValue)) :
    projectMembers source runtime = source := by
  cases source with
  | nil => rfl
  | cons entry rest =>
    obtain ⟨key, value⟩ := entry
    rw [projectMembers, projectMembers_eq rest]
    cases runtime.lookup key with
    | none => rfl
    | some runtimeValue => rw [elim_some, projectSourceOntoRuntimeShape_eq value]

end

section Patch

variable {runtime next entries : List (String × JsonValue)}

theorem createMergePatch_object {patch : JsonValue}
    (made : createMergePatch (.object runtime) (.object next) = .ok patch) :
    ∃ entries, patchMembers runtime next = .ok entries ∧
      patch = .object (entries ++ addedMembers runtime next) := by
  rw [createMergePatch] at made
  cases members : patchMembers runtime next with
  | error error =>
    rw [members] at made
    cases made
  | ok entries =>
    rw [members] at made
    exact ⟨entries, rfl, (Except.ok.inj made).symm⟩

theorem lookup_patch_of_absent (made : patchMembers runtime next = .ok entries)
    {key : String} (absent : runtime.lookup key = none) :
    (entries ++ addedMembers runtime next).lookup key = next.lookup key := by
  have notEntry : entries.lookup key = none :=
    lookup_eq_none_iff_not_mem_keys.mpr fun member =>
      lookup_eq_none_iff_not_mem_keys.mp absent ((patchMembers_keys made).subset member)
  rw [lookup_append, notEntry, none_or, lookup_addedMembers, absent]
  rfl

theorem lookup_patch_of_present (nodup : (runtime.map Prod.fst).Nodup)
    (made : patchMembers runtime next = .ok entries) {key : String} {value : JsonValue}
    (present : runtime.lookup key = some value) : ∃ entry,
      patchEntry key value (next.lookup key) (createMergePatch value) = .ok entry ∧
        (entries ++ addedMembers runtime next).lookup key = entry.lookup key := by
  obtain ⟨entry, madeEntry, sameLookup⟩ := lookup_patchMembers nodup made present
  refine ⟨entry, madeEntry, ?_⟩
  rw [lookup_append, sameLookup, lookup_addedMembers, present]
  exact or_none

theorem patch_nodup (runtimeNodup : (runtime.map Prod.fst).Nodup)
    (nextNodup : (next.map Prod.fst).Nodup) (made : patchMembers runtime next = .ok entries) :
    ((entries ++ addedMembers runtime next).map Prod.fst).Nodup := by
  rw [map_append, nodup_append']
  have added : ((addedMembers runtime next).map Prod.fst).Sublist (next.map Prod.fst) :=
    List.Sublist.map _ filter_sublist
  refine ⟨runtimeNodup.sublist (patchMembers_keys made), nextNodup.sublist added, ?_⟩
  intro key inEntries inAdded
  obtain ⟨entry, isAdded, rfl⟩ := mem_map.mp inAdded
  have absent := (mem_filter.mp isAdded).2
  have present := lookup_isSome_iff_mem_keys.mpr ((patchMembers_keys made).subset inEntries)
  rw [isNone_iff_eq_none.mp absent] at present
  exact absurd present (by simp)

theorem patch_unblocked (runtimeTidy : Tidy (.object runtime))
    (nextTidy : Tidy (.object next)) (made : patchMembers runtime next = .ok entries) :
    ∀ key ∈ (entries ++ addedMembers runtime next).map Prod.fst,
      isBlockedObjectKey key = false := by
  intro key member
  rw [map_append] at member
  rcases mem_append.mp member with inEntries | inAdded
  · exact runtimeTidy.unblocked key ((patchMembers_keys made).subset inEntries)
  · exact nextTidy.unblocked key ((List.Sublist.map Prod.fst filter_sublist).subset inAdded)

end Patch

variable {runtime next patch : JsonValue} {source : Option JsonValue}

theorem isEmptyRecord_object_iff {members : List (String × JsonValue)} :
    isEmptyRecord (.object members) = true ↔ ∀ key, members.lookup key = none := by
  cases members with
  | nil => simp [isEmptyRecord]
  | cons entry rest =>
    obtain ⟨key, value⟩ := entry
    refine ⟨fun empty => absurd empty (by simp [isEmptyRecord]), fun none => ?_⟩
    have atKey := none key
    rw [JsonValue.lookup_cons, if_pos rfl] at atKey
    exact absurd atKey (by simp)

/-- A patch is empty exactly when nothing changed. -/
theorem isEmptyRecord_createMergePatch (runtimeTidy : Tidy runtime) (nextTidy : Tidy next)
    (runtimeRecord : runtime.isRecord = true) (nextRecord : next.isRecord = true)
    (made : createMergePatch runtime next = .ok patch) :
    isEmptyRecord patch = true ↔ isDeepStrictEqual runtime next = true := by
  induction runtimeTidy generalizing next patch with
  | leaf leaf =>
    rw [leaf] at runtimeRecord
    exact absurd runtimeRecord Bool.false_ne_true
  | object nodup unblocked noNull each inductionHypothesis =>
    rename_i members
    obtain ⟨others, rfl⟩ := exists_of_isRecord nextRecord
    obtain ⟨entries, madeEntries, rfl⟩ := createMergePatch_object made
    rw [isEmptyRecord_object_iff, isDeepStrictEqual_object_iff nodup nextTidy.nodup]
    refine forall_congr' fun key => ?_
    cases inRuntime : members.lookup key with
    | none =>
      rw [lookup_patch_of_absent madeEntries inRuntime]
      exact deepEqualAt_none_left_iff.symm
    | some value =>
      obtain ⟨entry, madeEntry, sameLookup⟩ := lookup_patch_of_present nodup madeEntries inRuntime
      rw [sameLookup]
      rcases patchEntry_cases madeEntry with
        ⟨inNext, _, rfl⟩ | ⟨other, child, inNext, records, madeChild, rfl⟩ | ⟨other, inNext, _, rfl⟩
      · rw [inNext, JsonValue.lookup_cons, if_pos rfl]
        exact ⟨fun isNone => absurd isNone (by simp),
          fun equal => absurd equal (deepEqualAt_some_none value)⟩
      · rw [Bool.and_eq_true] at records
        rw [inNext, deepEqualAt_some_some_iff, ← inductionHypothesis _ (mem_of_lookup inRuntime)
            (nextTidy.of_lookup inNext) records.1 records.2 madeChild]
        cases empty : isEmptyRecord child with
        | true => simp
        | false => simp
      · rw [inNext, deepEqualAt_some_some_iff]
        cases equal : isDeepStrictEqual value other with
        | true => simp
        | false => simp

theorem applyMergePatch_of_not_isRecord (base : JsonValue)
    (leaf : patch.isRecord = false) : applyMergePatch base patch = patch := by
  cases patch with
  | object members => exact absurd leaf (by simp [isRecord])
  | _ => rfl

theorem patchedValue_some (old : Option JsonValue) {value : JsonValue} (notNull : value ≠ .null) :
    patchedValue old (some value) = some (applyMergePatch (old.getD (.object [])) value) := by
  cases value with
  | null => exact absurd rfl notNull
  | object members => rfl
  | _ => rfl

theorem view_applyMergePatch_of_empty {base : JsonValue} (empty : base.membersOf = [])
    (tidy : Tidy next) (path : List String) :
    view path (applyMergePatch base next) = view path next := by
  induction path generalizing base next with
  | nil =>
    cases next with
    | object members => rfl
    | _ => rfl
  | cons key rest inductionHypothesis =>
    cases record : next.isRecord with
    | false => rw [applyMergePatch_of_not_isRecord base record]
    | true =>
      obtain ⟨members, rfl⟩ := exists_of_isRecord record
      rw [applyMergePatch, view_cons, view_cons, membersOf_object, membersOf_object,
        empty, lookup_applyMembers tidy.nodup tidy.unblocked]
      cases inNext : members.lookup key with
      | none => rfl
      | some value =>
        rw [patchedValue_some _ (tidy.ne_null_of_lookup inNext), bind_some, bind_some]
        exact inductionHypothesis rfl (tidy.of_lookup inNext)

/-- Where nothing changed the reference keeps the source. -/
theorem mergedAt_of_isDeepStrictEqual (runtimeTidy : Tidy runtime) (nextTidy : Tidy next)
    (equal : isDeepStrictEqual runtime next = true) (source : Option JsonValue)
    (path : List String) :
    mergedAt path source (some runtime) (some next) = source.bind (view path) := by
  induction path generalizing runtime next source with
  | nil =>
    rw [mergedAt, if_pos equal]
    cases source with
    | none => rfl
    | some value => rfl
  | cons key rest inductionHypothesis =>
    rw [mergedAt]
    split
    · rename_i records
      rw [Bool.and_eq_true] at records
      obtain ⟨members, rfl⟩ := exists_of_isRecord records.1
      obtain ⟨others, rfl⟩ := exists_of_isRecord records.2
      have fromSource : source.bind (view (key :: rest)) =
          (source.bind fun value => value.membersOf.lookup key).bind (view rest) := by
        cases source with
        | none => rfl
        | some value => exact view_cons key rest value
      have equalAt := (isDeepStrictEqual_object_iff runtimeTidy.nodup nextTidy.nodup).mp equal key
      rw [fromSource, membersOf_object, membersOf_object]
      cases inRuntime : members.lookup key with
      | none =>
        rw [inRuntime, deepEqualAt_none_left_iff] at equalAt
        rw [equalAt, mergedAt]
      | some value =>
        cases inNext : others.lookup key with
        | none =>
          rw [inRuntime, inNext] at equalAt
          exact absurd equalAt (deepEqualAt_some_none value)
        | some other =>
          rw [inRuntime, inNext, deepEqualAt_some_some_iff] at equalAt
          exact inductionHypothesis (runtimeTidy.of_lookup inRuntime)
            (nextTidy.of_lookup inNext) equalAt _
    · rfl

theorem mergedAt_of_changed_leaf (notRecords : (runtime.isRecord && next.isRecord) = false)
    (differs : isDeepStrictEqual runtime next = false) (source : Option JsonValue)
    (path : List String) : mergedAt path source (some runtime) (some next) = view path next := by
  have notEqual : ¬ isDeepStrictEqual runtime next = true := by simp [differs]
  cases path with
  | nil =>
    rw [mergedAt, if_neg notEqual]
    rfl
  | cons key rest =>
    have notBoth : ¬ (runtime.isRecord && next.isRecord) = true := by simp [notRecords]
    rw [mergedAt, if_neg notBoth, if_neg notEqual]

theorem view_patched_of_leaf
    (runtimeTidy : Tidy runtime) (nextTidy : Tidy next) (notNull : next ≠ .null)
    (notRecords : (runtime.isRecord && next.isRecord) = false)
    (extension : ∀ value ∈ source, Extends value runtime) (key : String) (path : List String) :
    (patchedValue source (List.lookup key
        (if isDeepStrictEqual runtime next then [] else [(key, next)]))).bind (view path) =
      mergedAt path source (some runtime) (some next) := by
  cases equal : isDeepStrictEqual runtime next with
  | true =>
    rw [if_pos rfl, mergedAt_of_isDeepStrictEqual runtimeTidy nextTidy equal]
    rfl
  | false =>
    rw [if_neg Bool.false_ne_true, JsonValue.lookup_cons, if_pos rfl,
      patchedValue_some _ notNull, bind_some, mergedAt_of_changed_leaf notRecords equal]
    cases record : next.isRecord with
    | false => rw [applyMergePatch_of_not_isRecord _ record]
    | true =>
      rw [record, Bool.and_true] at notRecords
      refine view_applyMergePatch_of_empty ?_ nextTidy path
      cases source with
      | none => rfl
      | some value =>
        exact membersOf_of_not_isRecord ((extension value rfl).isRecord_eq.trans notRecords)

/--
The patch between two objects, applied to the source, has the reference at every
path. An empty patch is not applied to a missing source.
-/
theorem view_applyMergePatch (runtimeTidy : Tidy runtime) (nextTidy : Tidy next)
    (runtimeRecord : runtime.isRecord = true) (nextRecord : next.isRecord = true)
    (extension : ∀ value ∈ source, Extends value runtime)
    (made : createMergePatch runtime next = .ok patch)
    (applied : source.isSome ∨ isEmptyRecord patch = false) (path : List String) :
    view path (applyMergePatch (source.getD (.object [])) patch) =
      mergedAt path source (some runtime) (some next) := by
  induction path generalizing runtime next patch source with
  | nil =>
    have emptyIff := isEmptyRecord_createMergePatch runtimeTidy nextTidy runtimeRecord
      nextRecord made
    obtain ⟨members, rfl⟩ := exists_of_isRecord runtimeRecord
    obtain ⟨others, rfl⟩ := exists_of_isRecord nextRecord
    obtain ⟨entries, _, rfl⟩ := createMergePatch_object made
    rw [mergedAt]
    split
    · rename_i equal
      rw [emptyIff.mpr equal] at applied
      obtain ⟨value, rfl⟩ := isSome_iff_exists.mp (applied.resolve_right (by simp))
      obtain ⟨sourceMembers, rfl⟩ := exists_of_isRecord ((extension value rfl).isRecord_eq)
      rfl
    · rfl
  | cons key rest inductionHypothesis =>
    obtain ⟨members, rfl⟩ := exists_of_isRecord runtimeRecord
    obtain ⟨others, rfl⟩ := exists_of_isRecord nextRecord
    obtain ⟨entries, madeEntries, rfl⟩ := createMergePatch_object made
    have sourceMembers : ((source.getD (.object [])).membersOf.lookup key) =
        source.bind fun value => value.membersOf.lookup key := by
      cases source with
      | none => rfl
      | some value => rfl
    rw [applyMergePatch, view_cons, membersOf_object, lookup_applyMembers
        (patch_nodup runtimeTidy.nodup nextTidy.nodup madeEntries)
        (patch_unblocked runtimeTidy nextTidy madeEntries),
      sourceMembers, mergedAt, if_pos (by rfl), membersOf_object, membersOf_object]
    cases inRuntime : members.lookup key with
    | none =>
      have notInSource : (source.bind fun value => value.membersOf.lookup key) = none := by
        cases source with
        | none => rfl
        | some value => exact (extension value rfl).lookup_eq_none inRuntime
      rw [lookup_patch_of_absent madeEntries inRuntime, notInSource]
      cases inNext : others.lookup key with
      | none =>
        rw [mergedAt]
        rfl
      | some value =>
        rw [patchedValue_some _ (nextTidy.ne_null_of_lookup inNext), bind_some, mergedAt]
        exact view_applyMergePatch_of_empty rfl (nextTidy.of_lookup inNext) rest
    | some value =>
      have extended : ∀ sourceValue ∈ source.bind fun value => value.membersOf.lookup key,
          Extends sourceValue value := by
        intro sourceValue inSource
        obtain ⟨whole, rfl, isMember⟩ := bind_eq_some_iff.mp inSource
        exact (extension whole rfl).of_lookup isMember inRuntime
      obtain ⟨entry, madeEntry, sameLookup⟩ :=
        lookup_patch_of_present runtimeTidy.nodup madeEntries inRuntime
      rw [sameLookup]
      rcases patchEntry_cases madeEntry with
        ⟨inNext, _, rfl⟩ | ⟨other, child, inNext, records, madeChild, rfl⟩ |
          ⟨other, inNext, notRecords, rfl⟩
      · rw [inNext, JsonValue.lookup_cons, if_pos rfl, mergedAt]
        rfl
      · rw [Bool.and_eq_true] at records
        have valueTidy := runtimeTidy.of_lookup inRuntime
        have otherTidy := nextTidy.of_lookup inNext
        rw [inNext]
        cases empty : isEmptyRecord child with
        | true =>
          rw [if_pos rfl, mergedAt_of_isDeepStrictEqual valueTidy otherTidy
            ((isEmptyRecord_createMergePatch valueTidy otherTidy records.1 records.2
              madeChild).mp empty)]
          rfl
        | false =>
          obtain ⟨valueMembers, rfl⟩ := exists_of_isRecord records.1
          obtain ⟨otherMembers, rfl⟩ := exists_of_isRecord records.2
          have notNull : child ≠ .null := by
            obtain ⟨_, _, rfl⟩ := createMergePatch_object madeChild
            exact JsonValue.noConfusion
          rw [if_neg Bool.false_ne_true, JsonValue.lookup_cons, if_pos rfl,
            patchedValue_some _ notNull, bind_some]
          exact inductionHypothesis valueTidy otherTidy rfl rfl extended madeChild (Or.inr empty)
      · rw [inNext]
        exact view_patched_of_leaf (runtimeTidy.of_lookup inRuntime)
          (nextTidy.of_lookup inNext) (nextTidy.ne_null_of_lookup inNext) notRecords
          extended key rest

theorem not_losesInherited_of_leaf
    (notRecords : (runtime.isRecord && next.isRecord) = false) : ¬ LosesInherited runtime next := by
  rintro ⟨path, members, others, key, atRuntime, atNext, _, _, _⟩
  cases path with
  | nil =>
    rw [some_inj.mp atRuntime, some_inj.mp atNext] at notRecords
    exact absurd notRecords (by simp [isRecord])
  | cons first rest =>
    rw [at?] at atRuntime atNext
    rcases Bool.and_eq_false_iff.mp notRecords with leaf | leaf
    · rw [membersOf_of_not_isRecord leaf] at atRuntime
      exact absurd atRuntime (by simp)
    · rw [membersOf_of_not_isRecord leaf] at atNext
      exact absurd atNext (by simp)

theorem losesInherited_object_iff {runtime next : List (String × JsonValue)} :
    LosesInherited (.object runtime) (.object next) ↔ ∃ key value, runtime.lookup key = some value ∧
        ((key ∈ inheritedKeys ∧ next.lookup key = none) ∨
          ∃ other, next.lookup key = some other ∧ LosesInherited value other) := by
  constructor
  · rintro ⟨path, members, others, key, atRuntime, atNext, inherited, present, absent⟩
    cases path with
    | nil =>
      obtain rfl := JsonValue.object.inj (some_inj.mp atRuntime)
      obtain rfl := JsonValue.object.inj (some_inj.mp atNext)
      obtain ⟨value, isValue⟩ := isSome_iff_exists.mp present
      exact ⟨key, value, isValue, Or.inl ⟨inherited, absent⟩⟩
    | cons first rest =>
      obtain ⟨value, inRuntime, belowRuntime⟩ := bind_eq_some_iff.mp atRuntime
      obtain ⟨other, inNext, belowNext⟩ := bind_eq_some_iff.mp atNext
      exact ⟨first, value, inRuntime, Or.inr ⟨other, inNext, rest, members, others, key,
        belowRuntime, belowNext, inherited, present, absent⟩⟩
  · rintro ⟨key, value, inRuntime, ⟨inherited, absent⟩ | ⟨other, inNext, path, members,
      others, lost, belowRuntime, belowNext, below⟩⟩
    · exact ⟨[], runtime, next, key, rfl, rfl, inherited, isSome_of_eq_some inRuntime, absent⟩
    · refine ⟨key :: path, members, others, lost, ?_, ?_, below⟩
      · exact bind_eq_some_iff.mpr ⟨value, inRuntime, belowRuntime⟩
      · exact bind_eq_some_iff.mpr ⟨other, inNext, belowNext⟩

/-- The entry for a member can be made unless a key of the prototype is lost. -/
theorem patchEntry_isOk_iff {key : String} {value : JsonValue} {target : Option JsonValue}
    (childOk : ∀ other, (value.isRecord && other.isRecord) = true →
      ((∃ patch, createMergePatch value other = .ok patch) ↔ ¬ LosesInherited value other)) :
    (∃ entry, patchEntry key value target (createMergePatch value) = .ok entry) ↔
      ¬ ((key ∈ inheritedKeys ∧ target = none) ∨
        ∃ other, target = some other ∧ LosesInherited value other) := by
  cases target with
  | none =>
    unfold patchEntry
    by_cases inherited : key ∈ inheritedKeys
    · simp [inherited]
    · simp [inherited]
  | some other =>
    unfold patchEntry
    cases records : value.isRecord && other.isRecord with
    | true =>
      have isOk := childOk other records
      cases made : createMergePatch value other with
      | error error =>
        rw [made] at isOk
        have lost : LosesInherited value other := by
          by_contra kept
          obtain ⟨_, isOk⟩ := isOk.mpr kept
          cases isOk
        simp [records, made, lost, Except.map]
      | ok patch =>
        have kept := isOk.mp ⟨patch, made⟩
        simp [records, made, kept, Except.map]
    | false =>
      have kept := not_losesInherited_of_leaf records
      cases equal : isDeepStrictEqual value other with
      | true => simp [records, equal, kept]
      | false => simp [records, equal, kept]

theorem patchMembers_isOk_iff {runtime next : List (String × JsonValue)} :
    (∃ entries, patchMembers runtime next = .ok entries) ↔ ∀ member ∈ runtime, ∃ entry,
        patchEntry member.1 member.2 (next.lookup member.1) (createMergePatch member.2) =
          .ok entry := by
  induction runtime with
  | nil => simp [patchMembers]
  | cons member rest inductionHypothesis =>
    obtain ⟨key, value⟩ := member
    rw [forall_mem_cons, ← inductionHypothesis]
    constructor
    · rintro ⟨entries, made⟩
      obtain ⟨entry, others, madeEntry, madeOthers, _⟩ := patchMembers_cons made
      exact ⟨⟨entry, madeEntry⟩, others, madeOthers⟩
    · rintro ⟨⟨entry, madeEntry⟩, others, madeOthers⟩
      exact ⟨entry ++ others, by rw [patchMembers, madeEntry]; simp [madeOthers,
        Except.bind, Except.map]⟩

theorem createMergePatch_isOk_iff (distinct : DistinctKeys runtime) (next : JsonValue) :
    (∃ patch, createMergePatch runtime next = .ok patch) ↔ ¬ LosesInherited runtime next := by
  induction distinct generalizing next with
  | leaf leaf =>
    refine iff_of_true ?_ (not_losesInherited_of_leaf (by rw [leaf, Bool.false_and]))
    refine ⟨next, ?_⟩
    rw [createMergePatch]
    rintro base target rfl
    exact absurd leaf (by simp [isRecord])
  | object nodup each inductionHypothesis =>
    rename_i members
    cases record : next.isRecord with
    | false =>
      refine iff_of_true ⟨next, ?_⟩ (not_losesInherited_of_leaf (by rw [record, Bool.and_false]))
      rw [createMergePatch]
      rintro base target _ rfl
      exact absurd record (by simp [isRecord])
    | true =>
      obtain ⟨others, rfl⟩ := exists_of_isRecord record
      have patchIff : (∃ patch, createMergePatch (.object members) (.object others) =
          .ok patch) ↔ ∃ entries, patchMembers members others = .ok entries := by
        constructor
        · rintro ⟨patch, made⟩
          obtain ⟨entries, madeEntries, _⟩ := createMergePatch_object made
          exact ⟨entries, madeEntries⟩
        · rintro ⟨entries, madeEntries⟩
          exact ⟨_, by rw [createMergePatch, madeEntries]; rfl⟩
      rw [patchIff, patchMembers_isOk_iff, losesInherited_object_iff]
      constructor
      · rintro made ⟨key, value, inRuntime, lost⟩
        have member := mem_of_lookup inRuntime
        exact (patchEntry_isOk_iff fun other _ =>
          inductionHypothesis _ member other).mp (made _ member) lost
      · rintro kept ⟨key, value⟩ member
        refine (patchEntry_isOk_iff fun other _ =>
          inductionHypothesis _ member other).mpr fun lost => ?_
        exact kept ⟨key, value, lookup_of_mem nodup member, lost⟩

/-- The sections that the other steps of a write look at are missing. -/
structure Plain (config : JsonValue) : Prop where
  includes : ∀ path value, at? path config = some value → hasOwnIncludeKey value = false
  schema : at? [schemaKey] config = none
  agents : at? ["agents"] config = none
  models : at? ["models"] config = none
  toolModel : at? ["tools", "subagents", "model"] config = none

section Frames

variable {path : List String} {config : JsonValue}

theorem getPathValue_eq_at? (noNumbers : ∀ segment ∈ path, segmentIndex? segment = none)
    (value : JsonValue) : getPathValue value path = at? path value := by
  induction path generalizing value with
  | nil => rfl
  | cons segment rest inductionHypothesis =>
    rw [forall_mem_cons] at noNumbers
    rw [getPathValue, at?, funext fun child => inductionHypothesis noNumbers.2 child]
    refine congrArg (fun child => Option.bind child (at? rest)) ?_
    cases value with
    | array items => rw [child?, noNumbers.1]; rfl
    | object members => rfl
    | _ => rfl

theorem at?_append (first second : List String) (value : JsonValue) :
    at? (first ++ second) value = (at? first value).bind (at? second) := by
  induction first generalizing value with
  | nil => rfl
  | cons key rest inductionHypothesis =>
    rw [cons_append, at?, at?, bind_assoc, funext fun child => inductionHypothesis child]

theorem mapPath_of_missing (rewrite : JsonValue → JsonValue)
    (missing : getPathValue config path = none) : mapPath rewrite config path = config := by
  rw [mapPath, missing]
  rfl

end Frames

mutual

theorem collectIncludeOwnedPaths_eq_nil (config : JsonValue) (path : List String)
    (tidy : Tidy config)
    (plain : ∀ path value, at? path config = some value → hasOwnIncludeKey value = false) :
    collectIncludeOwnedPaths config path = [] := by
  cases config with
  | object members =>
    have notHere : ¬ (members.lookup includeKey).isSome = true :=
      Bool.eq_false_iff.mp (plain [] _ rfl)
    rw [collectIncludeOwnedPaths, if_neg notHere]
    refine collectOfMembers_eq_nil members path ?_ ?_
    · exact fun entry member => tidy.of_lookup (lookup_of_mem tidy.nodup member)
    · intro entry member below value atBelow
      refine plain (entry.1 :: below) value (bind_eq_some_iff.mpr ?_)
      exact ⟨entry.2, lookup_of_mem tidy.nodup member, atBelow⟩
  | _ => rw [collectIncludeOwnedPaths]; simp

theorem collectOfMembers_eq_nil (members : List (String × JsonValue)) (path : List String)
    (tidy : ∀ entry ∈ members, Tidy entry.2)
    (plain : ∀ entry ∈ members, ∀ path value, at? path entry.2 = some value →
      hasOwnIncludeKey value = false) : collectOfMembers members path = [] := by
  cases members with
  | nil => rw [collectOfMembers]
  | cons entry rest =>
    obtain ⟨key, child⟩ := entry
    rw [forall_mem_cons] at tidy plain
    rw [collectOfMembers, collectIncludeOwnedPaths_eq_nil child _ tidy.1 plain.1,
      collectOfMembers_eq_nil rest path tidy.2 plain.2]
    rfl

end

variable {runtime source next : JsonValue} {path : List String}

theorem at?_eq_none_of_start {first : List String} {value : JsonValue}
    (missing : at? first value = none) (second : List String) :
    at? (first ++ second) value = none := by
  rw [at?_append, missing]
  rfl

theorem normalizeModelRefsForWrite_of_missing (names : ModelNames) {config : JsonValue}
    (agents : at? ["agents"] config = none) (models : at? ["models"] config = none)
    (toolModel : at? ["tools", "subagents", "model"] config = none) :
    normalizeModelRefsForWrite names config = config := by
  have noDefaults : getPathValue config ["agents", "defaults"] = none :=
    (getPathValue_eq_at? (by decide) config).trans (at?_eq_none_of_start agents ["defaults"])
  have noList : getPathValue config ["agents", "list"] = none :=
    (getPathValue_eq_at? (by decide) config).trans (at?_eq_none_of_start agents ["list"])
  have noTool : getPathValue config ["tools", "subagents", "model"] = none :=
    (getPathValue_eq_at? (by decide) config).trans toolModel
  have noProviders : getPathValue config ["models", "providers"] = none :=
    (getPathValue_eq_at? (by decide) config).trans (at?_eq_none_of_start models ["providers"])
  have atDefaults :
      normalizeAgentModelRefsAtPathForWrite names config ["agents", "defaults"] = config := by
    unfold normalizeAgentModelRefsAtPathForWrite
    rw [noDefaults]
  rw [normalizeModelRefsForWrite, atDefaults, normalizeAgentListModelRefsForWrite,
    mapPath_of_missing _ noList, normalizeToolsModelRefsForWrite,
    normalizeModelConfigPathForWrite, mapPath_of_missing _ noTool,
    normalizeModelProviderCatalogRefsForWrite, mapPath_of_missing _ noProviders]

def plainParams (runtime source next : JsonValue) : PersistParams where
  runtimeConfig := runtime
  sourceConfig := source
  nextConfig := next
  rootAuthoredConfig := none
  unsetPaths := []
  explicitSetPaths := []
  explicitSetValueSource := none

/-- Without the sections they look at the other steps change nothing. -/
theorem resolvePersistCandidateForWrite_plain (names : ModelNames)
    (sourceTidy : Tidy source) (sourcePlain : Plain source)
    (missing : ∀ patch, createMergePatch runtime next = .ok patch →
      at? ["agents"] (applyMergePatch source patch) = none ∧
        at? ["models"] (applyMergePatch source patch) = none ∧
          at? ["tools", "subagents", "model"] (applyMergePatch source patch) = none) :
    resolvePersistCandidateForWrite names (plainParams runtime source next) =
      (createMergePatch runtime next).map (applyMergePatch source) := by
  have authored : (plainParams runtime source next).rootAuthored = source := rfl
  have noUri : readRootSchemaUri source = none := by
    have noSchema : source.membersOf.lookup schemaKey = none := by
      simpa [at?] using sourcePlain.schema
    rw [readRootSchemaUri, noSchema]
    rfl
  have noDefaults : getPathValue source ["agents", "defaults"] = none :=
    (getPathValue_eq_at? (by decide) source).trans
      (at?_eq_none_of_start sourcePlain.agents ["defaults"])
  unfold resolvePersistCandidateForWrite
  rw [authored, collectIncludeOwnedPaths_eq_nil source [] sourceTidy sourcePlain.includes]
  cases made : createMergePatch runtime next with
  | error error =>
    have failed : createMergePatch (plainParams runtime source next).runtimeConfig
        (plainParams runtime source next).nextConfig = .error error := made
    rw [failed]
    rfl
  | ok patch =>
    have isMade : createMergePatch (plainParams runtime source next).runtimeConfig
        (plainParams runtime source next).nextConfig = .ok patch := made
    obtain ⟨agents, models, toolModel⟩ := missing patch made
    have sameNames := normalizeModelRefsForWrite_of_missing names agents models toolModel
    have sameSchema (written : JsonValue) :
        preserveRootSchemaUri source next written = written := by
      rw [preserveRootSchemaUri, noUri]
      split
      · rfl
      · rfl
    have sameParams (written : JsonValue) :
        preserveAuthoredAgentParams names (plainParams runtime source next) written =
          written := by
      unfold preserveAuthoredAgentParams
      dsimp only [plainParams]
      rw [noDefaults]
    rw [isMade]
    simp only [bind, Except.bind, preserveUntouchedIncludes,
      projectSourceOntoRuntimeShape_eq, Except.map]
    dsimp only [plainParams]
    rw [injectExplicitlySetPaths]
    dsimp only
    rw [sameSchema]
    have whole := sameParams (applyMergePatch source patch)
    dsimp only [plainParams] at whole
    rw [whole, sameNames]

theorem mergedAt_eq_none {source next : Option JsonValue}
    (notInSource : source.bind (view path) = none)
    (notInNext : next.bind (view path) = none) (runtime : Option JsonValue) :
    mergedAt path source runtime next = none := by
  induction path generalizing source runtime next with
  | nil =>
    cases next with
    | some value => exact absurd notInNext (by simp [view, at?])
    | none =>
      cases runtime with
      | none => rw [mergedAt, notInSource]
      | some value => rw [mergedAt]
  | cons key rest inductionHypothesis =>
    cases next with
    | none =>
      cases runtime with
      | none => rw [mergedAt, notInSource]
      | some value => rw [mergedAt]
    | some nextValue =>
      cases runtime with
      | none => rw [mergedAt]; exact notInNext
      | some runtimeValue =>
        rw [mergedAt]
        split
        · refine inductionHypothesis ?_ ?_ _
          · cases source with
            | none => rfl
            | some value => exact (view_cons key rest value).symm.trans notInSource
          · exact (view_cons key rest nextValue).symm.trans notInNext
        · split
          · exact notInSource
          · exact notInNext

theorem view_written {patch : JsonValue} (runtimeTidy : Tidy runtime)
    (nextTidy : Tidy next) (extension : Extends source runtime)
    (made : createMergePatch runtime next = .ok patch) (path : List String) :
    view path (applyMergePatch source patch) =
      if runtime.isRecord && next.isRecord then
        mergedAt path (some source) (some runtime) (some next)
      else
        view path next := by
  split
  · rename_i records
    rw [Bool.and_eq_true] at records
    exact view_applyMergePatch runtimeTidy nextTidy records.1 records.2
      (fun value isSource => some_inj.mp isSource ▸ extension) made (Or.inl rfl) path
  · rename_i notRecords
    have isNext : patch = next := by
      rw [createMergePatch] at made
      · exact (Except.ok.inj made).symm
      · rintro base target rfl rfl
        exact notRecords rfl
    rw [isNext]
    cases record : next.isRecord with
    | false => rw [applyMergePatch_of_not_isRecord _ record]
    | true =>
      rw [record, Bool.and_true, Bool.not_eq_true] at notRecords
      exact view_applyMergePatch_of_empty
        (membersOf_of_not_isRecord (extension.isRecord_eq.trans notRecords)) nextTidy path

theorem at?_eq_none_of_view {value : JsonValue}
    (missing : view path value = none) : at? path value = none :=
  map_eq_none_iff.mp missing

theorem at?_written_eq_none {patch : JsonValue}
    (runtimeTidy : Tidy runtime) (nextTidy : Tidy next) (extension : Extends source runtime)
    (made : createMergePatch runtime next = .ok patch)
    (notInSource : at? path source = none) (notInNext : at? path next = none) :
    at? path (applyMergePatch source patch) = none := by
  have noSource : (some source).bind (view path) = none := map_eq_none_iff.mpr notInSource
  have noNext : (some next).bind (view path) = none := map_eq_none_iff.mpr notInNext
  refine at?_eq_none_of_view ?_
  rw [view_written runtimeTidy nextTidy extension made]
  split
  · exact mergedAt_eq_none noSource noNext _
  · exact noNext

theorem isRecord_eq_of_isDeepStrictEqual {left right : JsonValue}
    (equal : isDeepStrictEqual left right = true) : left.isRecord = right.isRecord := by
  cases left with
  | object members =>
    cases right with
    | object others => rfl
    | _ => exact absurd equal (by simp [isDeepStrictEqual])
  | _ =>
    cases right with
    | object others => exact absurd equal (by simp [isDeepStrictEqual])
    | _ => rfl

/--
A write persists the three-way merge exactly when the caller removes no key of the
prototype, and no configuration that is no object at all stays where the source has
another one.
-/
theorem writes_threeWayMerge_iff (names : ModelNames) {runtime source next : JsonValue}
    (runtimeTidy : Tidy runtime) (sourceTidy : Tidy source) (nextTidy : Tidy next)
    (extension : Extends source runtime) (sourcePlain : Plain source) (nextPlain : Plain next) :
    (∃ written,
      resolvePersistCandidateForWrite names (plainParams runtime source next) = .ok written ∧
        ∀ path, view path written = mergedAt path (some source) (some runtime) (some next)) ↔
      ¬ LosesInherited runtime next ∧
        (runtime.isRecord = false → isDeepStrictEqual runtime next = true → source = next) := by
  have sections (patch : JsonValue) (made : createMergePatch runtime next = .ok patch) :
      at? ["agents"] (applyMergePatch source patch) = none ∧
        at? ["models"] (applyMergePatch source patch) = none ∧
          at? ["tools", "subagents", "model"] (applyMergePatch source patch) = none :=
    ⟨at?_written_eq_none runtimeTidy nextTidy extension made sourcePlain.agents nextPlain.agents,
      at?_written_eq_none runtimeTidy nextTidy extension made sourcePlain.models nextPlain.models,
      at?_written_eq_none runtimeTidy nextTidy extension made sourcePlain.toolModel
        nextPlain.toolModel⟩
  rw [resolvePersistCandidateForWrite_plain names sourceTidy sourcePlain sections,
    ← createMergePatch_isOk_iff runtimeTidy.distinctKeys next]
  constructor
  · rintro ⟨written, isWritten, merged⟩
    cases made : createMergePatch runtime next with
    | error error =>
      rw [made] at isWritten
      cases isWritten
    | ok patch =>
      rw [made] at isWritten
      refine ⟨⟨patch, rfl⟩, fun leaf equal => ?_⟩
      have nextLeaf := (isRecord_eq_of_isDeepStrictEqual equal).symm.trans leaf
      have atRoot := merged []
      rw [← Except.ok.inj isWritten,
        view_written runtimeTidy nextTidy extension made, leaf, Bool.false_and,
        if_neg Bool.false_ne_true, mergedAt, if_pos equal, view, at?, map_some,
        map_some, node_of_not_isRecord nextLeaf,
        node_of_not_isRecord (extension.isRecord_eq.trans leaf)] at atRoot
      exact (Node.leaf.inj (some_inj.mp atRoot)).symm
  · rintro ⟨⟨patch, made⟩, sameLeaf⟩
    refine ⟨applyMergePatch source patch, by rw [made]; rfl, fun path => ?_⟩
    rw [view_written runtimeTidy nextTidy extension made]
    split
    · rfl
    · rename_i notRecords
      cases equal : isDeepStrictEqual runtime next with
      | true =>
        have leaf : runtime.isRecord = false := by
          rw [← isRecord_eq_of_isDeepStrictEqual equal, Bool.and_self,
            Bool.not_eq_true] at notRecords
          exact notRecords
        rw [mergedAt_of_isDeepStrictEqual runtimeTidy nextTidy equal, sameLeaf leaf equal]
        rfl
      | false => exact (mergedAt_of_changed_leaf (Bool.not_eq_true _ ▸ notRecords) equal _ _).symm

end Merge

section Examples

def keepNames : ModelNames where
  normalizeAgentModelRefForConfig := id
  normalizeConfiguredProviderCatalogModelId := fun _ model => model

def gatewayConfig (gateway : List (String × JsonValue)) : JsonValue :=
  .object [("gateway", .object gateway)]

variable {gateway : List (String × JsonValue)}
  (leaves : ∀ entry ∈ gateway, entry.2.isRecord = false)

include leaves

theorem tidy_gatewayConfig (nodup : (gateway.map Prod.fst).Nodup)
    (unblocked : ∀ key ∈ gateway.map Prod.fst, isBlockedObjectKey key = false)
    (noNull : ∀ entry ∈ gateway, entry.2 ≠ .null) : Tidy (gatewayConfig gateway) := by
  have tidy : Tidy (.object gateway) :=
    .object nodup unblocked noNull fun entry member => .leaf (leaves entry member)
  refine .object (by simp) (by simp [isBlockedObjectKey]) (by simp) ?_
  intro entry member
  rw [mem_singleton.mp member]
  exact tidy

theorem plain_gatewayConfig (noInclude : gateway.lookup includeKey = none) :
    Plain (gatewayConfig gateway) where
  includes := by
    intro path value atPath
    cases path with
    | nil =>
      rw [← some_inj.mp atPath]
      simp [hasOwnIncludeKey, gatewayConfig, includeKey]
    | cons first rest =>
      obtain ⟨child, isFirst, below⟩ := bind_eq_some_iff.mp atPath
      have isGateway := mem_of_lookup isFirst
      rw [gatewayConfig, membersOf_object, mem_singleton] at isGateway
      obtain ⟨_, rfl⟩ := Prod.ext_iff.mp isGateway
      cases rest with
      | nil =>
        rw [← some_inj.mp below, hasOwnIncludeKey, membersOf_object, noInclude]
        rfl
      | cons second later =>
        obtain ⟨leaf, isSecond, atLeaf⟩ := bind_eq_some_iff.mp below
        have isLeaf := leaves _ (mem_of_lookup isSecond)
        cases later with
        | nil =>
          rw [← some_inj.mp atLeaf, hasOwnIncludeKey, membersOf_of_not_isRecord isLeaf]
          rfl
        | cons _ _ =>
          rw [at?, membersOf_of_not_isRecord isLeaf] at atLeaf
          exact absurd atLeaf (by simp)
  schema := by simp [at?, gatewayConfig, schemaKey]
  agents := by simp [at?, gatewayConfig]
  models := by simp [at?, gatewayConfig]
  toolModel := by
    have noTools : at? ["tools"] (gatewayConfig gateway) = none := by
      simp [at?, gatewayConfig]
    exact at?_eq_none_of_start noTools ["subagents", "model"]

theorem extends_gatewayConfig {source : List (String × JsonValue)}
    (sourceLeaves : ∀ entry ∈ source, entry.2.isRecord = false)
    (keeps : ∀ key, gateway.lookup key = none → source.lookup key = none) :
    Extends (gatewayConfig source) (gatewayConfig gateway) := by
  have inner : Extends (.object source) (.object gateway) :=
    .object keeps fun key _ _ inSource inRuntime =>
      .leaf (sourceLeaves _ (mem_of_lookup inSource)) (leaves _ (mem_of_lookup inRuntime))
  refine .object (fun key missing => ?_) fun key sourceValue runtimeValue inSource inRuntime => ?_
  · rw [JsonValue.lookup_cons] at missing ⊢
    split at missing
    · cases missing
    · rename_i differs
      exact if_neg differs
  · have isSource := mem_singleton.mp (mem_of_lookup inSource)
    have isRuntime := mem_singleton.mp (mem_of_lookup inRuntime)
    obtain ⟨_, rfl⟩ := Prod.ext_iff.mp isSource
    obtain ⟨_, rfl⟩ := Prod.ext_iff.mp isRuntime
    exact inner

end Examples

/-- The caller moves the port; the bind address that the runtime added is not written. -/
theorem writes_threeWayMerge_gateway :
    ∃ written,
      resolvePersistCandidateForWrite keepNames
          (plainParams
            (gatewayConfig [("port", .number 1), ("bind", .string "loopback")])
            (gatewayConfig [("port", .number 1)])
            (gatewayConfig [("port", .number 2), ("bind", .string "loopback")])) =
          .ok written ∧
        ∀ path, view path written =
          mergedAt path (some (gatewayConfig [("port", .number 1)]))
            (some (gatewayConfig [("port", .number 1), ("bind", .string "loopback")]))
            (some (gatewayConfig [("port", .number 2), ("bind", .string "loopback")])) := by
  have runtimeTidy : Tidy (gatewayConfig [("port", .number 1), ("bind", .string "loopback")]) :=
    tidy_gatewayConfig (by simp [isRecord]) (by simp) (by simp [isBlockedObjectKey]) (by simp)
  refine (writes_threeWayMerge_iff keepNames runtimeTidy
    (tidy_gatewayConfig (by simp [isRecord]) (by simp) (by simp [isBlockedObjectKey]) (by simp))
    (tidy_gatewayConfig (by simp [isRecord]) (by simp) (by simp [isBlockedObjectKey]) (by simp))
    (extends_gatewayConfig (by simp [isRecord]) (by simp [isRecord]) ?_)
    (plain_gatewayConfig (by simp [isRecord]) (by decide))
    (plain_gatewayConfig (by simp [isRecord]) (by decide))).mpr ⟨?_, ?_⟩
  · intro key missing
    rw [JsonValue.lookup_cons] at missing ⊢
    split at missing
    · cases missing
    · rename_i differs
      exact if_neg differs
  · exact (createMergePatch_isOk_iff runtimeTidy.distinctKeys _).mp ⟨_, rfl⟩
  · exact fun leaf => absurd leaf (by decide)

/--
Removing a key that every object inherits fails: the merge has nothing there, but
the write clones the function of the prototype.
-/
theorem not_writes_threeWayMerge :
    ¬ ∃ written,
      resolvePersistCandidateForWrite keepNames
          (plainParams (gatewayConfig [("toString", .string "x")])
            (gatewayConfig [("toString", .string "x")]) (gatewayConfig [])) =
          .ok written ∧
        ∀ path, view path written =
          mergedAt path (some (gatewayConfig [("toString", .string "x")]))
            (some (gatewayConfig [("toString", .string "x")]))
            (some (gatewayConfig [])) := by
  rintro ⟨written, isWritten, _⟩
  have fails : resolvePersistCandidateForWrite keepNames
      (plainParams (gatewayConfig [("toString", .string "x")])
        (gatewayConfig [("toString", .string "x")]) (gatewayConfig [])) =
      .error (.dataClone "toString") := by
    rfl
  rw [fails] at isWritten
  cases isWritten

section Twice

variable {members : List (String × JsonValue)} {key : String} {value : JsonValue}

theorem distinctKeys_object_iff : DistinctKeys (.object members) ↔
      (members.map Prod.fst).Nodup ∧ ∀ entry ∈ members, DistinctKeys entry.2 := by
  constructor
  · intro distinct
    cases distinct with
    | leaf leaf => exact absurd leaf (by simp [isRecord])
    | object nodup each => exact ⟨nodup, each⟩
  · exact fun both => .object both.1 both.2

theorem distinctKeys_of_lookup (distinct : DistinctKeys (.object members))
    (found : members.lookup key = some value) : DistinctKeys value :=
  (distinctKeys_object_iff.mp distinct).2 _ (mem_of_lookup found)

/-- A patch that is applied for a second time changes nothing at any path. -/
theorem view_applyMergePatch_twice {base patch : JsonValue} (distinct : DistinctKeys patch)
    (path : List String) :
    view path (applyMergePatch (applyMergePatch base patch) patch) =
      view path (applyMergePatch base patch) := by
  induction path generalizing base patch with
  | nil =>
    cases patch with
    | object members => rfl
    | _ => rfl
  | cons key rest inductionHypothesis =>
    cases patch with
    | object members =>
      have after (result : List (String × JsonValue)) :=
        lookup_applyMembers_of_nodup (distinctKeys_object_iff.mp distinct).1 result key
      simp only [applyMergePatch, view_cons, membersOf_object, after]
      split
      · rfl
      · cases found : members.lookup key with
        | none => rfl
        | some value =>
          cases value with
          | object inner => exact inductionHypothesis (distinctKeys_of_lookup distinct found)
          | _ => rfl
    | _ => rfl

/-- The patch removes one member of an object and adds another. -/
theorem view_applyMergePatch_twice_gateway :
    let base := gatewayConfig [("port", .number 1)]
    let patch := gatewayConfig [("port", .null), ("bind", .string "loopback")]
    view ["gateway", "bind"] (applyMergePatch (applyMergePatch base patch) patch) =
      view ["gateway", "bind"] (applyMergePatch base patch) :=
  view_applyMergePatch_twice
    (.object (by simp) (by simpa [distinctKeys_object_iff] using ⟨.leaf rfl, .leaf rfl⟩)) _

end Twice

end ConfigWrite
