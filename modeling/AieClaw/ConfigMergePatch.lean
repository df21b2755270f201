import AieClaw.JsonTree

/-!
# Merge patches of configurations

A write computes what the caller changed in the runtime configuration and applies
it to the source configuration. A patch removes a key with `null`.
-/

namespace ConfigWrite

open JsonValue List

def isBlockedObjectKey (key : String) : Bool :=
  key = "__proto__" || key = "prototype" || key = "constructor"

/-- The keys that `in` finds on every object, as its prototype has them. -/
def inheritedKeys : List String :=
  ["constructor", "__defineGetter__", "__defineSetter__", "hasOwnProperty",
    "__lookupGetter__", "__lookupSetter__", "isPrototypeOf", "propertyIsEnumerable",
    "toString", "valueOf", "__proto__", "toLocaleString"]

inductive WriteError where
  /-- The value read under the key is a function, which cannot be cloned. -/
  | dataClone (key : String)
  /-- The write would flatten what the include at the path owns. -/
  | includeOwned (path : List String)

def isEmptyRecord : JsonValue → Bool
  | .object [] => true
  | _ => false

/--
The entry of a patch for a member of the base, if it needs one. A key that the
target lacks is still found by `in` when the prototype has it.
-/
def patchEntry (key : String) (baseValue : JsonValue) (targetValue : Option JsonValue)
    (childPatch : JsonValue → Except WriteError JsonValue) :
    Except WriteError (List (String × JsonValue)) :=
  match targetValue with
  | none => if key ∈ inheritedKeys then .error (.dataClone key) else .ok [(key, .null)]
  | some targetValue =>
    if baseValue.isRecord && targetValue.isRecord then
      (childPatch targetValue).map fun patch => if isEmptyRecord patch then [] else [(key, patch)]
    else if isDeepStrictEqual baseValue targetValue then .ok []
    else .ok [(key, targetValue)]

/-- The members of the target under keys that the base lacks. -/
def addedMembers (base target : List (String × JsonValue)) : List (String × JsonValue) :=
  target.filter fun entry => (base.lookup entry.1).isNone

mutual

def createMergePatch : JsonValue → JsonValue → Except WriteError JsonValue
  | .object base, .object target =>
    (patchMembers base target).map fun patch => .object (patch ++ addedMembers base target)
  | _, target => .ok target

def patchMembers : List (String × JsonValue) → List (String × JsonValue) →
      Except WriteError (List (String × JsonValue))
  | [], _ => .ok []
  | (key, baseValue) :: rest, target =>
    (patchEntry key baseValue (target.lookup key) fun targetValue =>
      createMergePatch baseValue targetValue).bind fun entry =>
        (patchMembers rest target).map fun others => entry ++ others

end

mutual

def projectSourceOntoRuntimeShape : JsonValue → JsonValue → JsonValue
  | .object source, .object runtime => .object (projectMembers source runtime)
  | source, _ => source

def projectMembers :
    List (String × JsonValue) → List (String × JsonValue) → List (String × JsonValue)
  | [], _ => []
  | (key, sourceValue) :: rest, runtime =>
    (key, (runtime.lookup key).elim sourceValue fun runtimeValue =>
      projectSourceOntoRuntimeShape sourceValue runtimeValue) :: projectMembers rest runtime

end

mutual

def applyMergePatch : JsonValue → JsonValue → JsonValue
  | base, .object patch => .object (applyMembers base.membersOf patch)
  | _, patch => patch

def applyMembers : List (String × JsonValue) → List (String × JsonValue) → List (String × JsonValue)
  | result, [] => result
  | result, (key, value) :: rest =>
    if isBlockedObjectKey key then applyMembers result rest
    else
      match value with
      | .null => applyMembers (removeMember key result) rest
      | .object patch =>
        applyMembers
          (setMember key
            (applyMergePatch ((result.lookup key).getD (.object [])) (.object patch))
            result)
          rest
      | _ => applyMembers (setMember key value result) rest

end

variable {key : String} {target : List (String × JsonValue)} {baseValue : JsonValue}
  {patch : List (String × JsonValue)} {targetValue : Option JsonValue}
  {entry base : List (String × JsonValue)}

/-- What the making of one entry comes to. -/
theorem patchEntry_cases {childPatch : JsonValue → Except WriteError JsonValue}
    (made : patchEntry key baseValue targetValue childPatch = .ok entry) :
    (targetValue = none ∧ key ∉ inheritedKeys ∧ entry = [(key, .null)]) ∨
      (∃ value patch, targetValue = some value ∧
        (baseValue.isRecord && value.isRecord) = true ∧ childPatch value = .ok patch ∧
          entry = if isEmptyRecord patch then [] else [(key, patch)]) ∨
      ∃ value, targetValue = some value ∧
        (baseValue.isRecord && value.isRecord) = false ∧
          entry = if isDeepStrictEqual baseValue value then [] else [(key, value)] := by
  unfold patchEntry at made
  cases targetValue with
  | none =>
    dsimp only at made
    split at made
    · cases made
    · rename_i notInherited
      exact Or.inl ⟨rfl, notInherited, (Except.ok.inj made).symm⟩
  | some value =>
    dsimp only at made
    split at made
    · rename_i records
      cases child : childPatch value with
      | error error =>
        rw [child] at made
        cases made
      | ok patch =>
        rw [child] at made
        exact Or.inr (Or.inl ⟨value, patch, rfl, records, child, (Except.ok.inj made).symm⟩)
    · rename_i notRecords
      refine Or.inr (Or.inr ⟨value, rfl, Bool.eq_false_iff.mpr notRecords, ?_⟩)
      split at made
      · rename_i equal
        rw [if_pos equal, Except.ok.inj made]
      · rename_i differs
        rw [if_neg differs, Except.ok.inj made]

theorem patchEntry_keys {childPatch : JsonValue → Except WriteError JsonValue}
    (made : patchEntry key baseValue targetValue childPatch = .ok entry) :
    (entry.map Prod.fst).Sublist [key] := by
  rcases patchEntry_cases made with ⟨_, _, rfl⟩ | ⟨_, patch, _, _, _, rfl⟩ | ⟨value, _, _, rfl⟩
  · exact .refl _
  · split
    · exact nil_sublist _
    · exact .refl _
  · split
    · exact nil_sublist _
    · exact .refl _

theorem patchMembers_cons {rest : List (String × JsonValue)}
    (made : patchMembers ((key, baseValue) :: rest) target = .ok patch) : ∃ entry others,
      patchEntry key baseValue (target.lookup key) (createMergePatch baseValue) = .ok entry ∧
        patchMembers rest target = .ok others ∧ patch = entry ++ others := by
  rw [patchMembers] at made
  cases first : patchEntry key baseValue (target.lookup key) (createMergePatch baseValue) with
  | error error =>
    rw [first] at made
    cases made
  | ok entry =>
    rw [first] at made
    cases later : patchMembers rest target with
    | error error =>
      rw [later] at made
      cases made
    | ok others =>
      rw [later] at made
      exact ⟨entry, others, rfl, rfl, (Except.ok.inj made).symm⟩

theorem patchMembers_keys (made : patchMembers base target = .ok patch) :
    (patch.map Prod.fst).Sublist (base.map Prod.fst) := by
  induction base generalizing patch with
  | nil =>
    rw [patchMembers] at made
    rw [← Except.ok.inj made]
  | cons member rest inductionHypothesis =>
    obtain ⟨key, baseValue⟩ := member
    obtain ⟨entry, others, madeEntry, madeOthers, rfl⟩ := patchMembers_cons made
    rw [map_append, map_cons]
    exact (patchEntry_keys madeEntry).append (inductionHypothesis madeOthers)

theorem lookup_patchMembers (nodup : (base.map Prod.fst).Nodup)
    (made : patchMembers base target = .ok patch) (found : base.lookup key = some baseValue) :
    ∃ entry, patchEntry key baseValue (target.lookup key) (createMergePatch baseValue) = .ok entry ∧
        patch.lookup key = entry.lookup key := by
  induction base generalizing patch with
  | nil => exact absurd found (by simp)
  | cons member rest inductionHypothesis =>
    obtain ⟨first, value⟩ := member
    obtain ⟨entry, others, madeEntry, madeOthers, rfl⟩ := patchMembers_cons made
    rw [map_cons, nodup_cons] at nodup
    rw [lookup_cons] at found
    split at found
    · rename_i same
      subst same
      rw [Option.some_inj.mp found] at madeEntry
      have notLater : others.lookup key = none :=
        lookup_eq_none_iff_not_mem_keys.mpr fun member =>
          nodup.1 ((patchMembers_keys madeOthers).subset member)
      exact ⟨entry, madeEntry, by rw [lookup_append, notLater, Option.or_none]⟩
    · rename_i differs
      have notFirst : entry.lookup key = none :=
        lookup_eq_none_iff_not_mem_keys.mpr fun member =>
          differs (mem_singleton.mp ((patchEntry_keys madeEntry).subset member))
      obtain ⟨later, madeLater, sameLookup⟩ := inductionHypothesis nodup.2 madeOthers found
      exact ⟨later, madeLater, by rw [lookup_append, notFirst, Option.none_or, sameLookup]⟩

theorem lookup_addedMembers (base target : List (String × JsonValue)) (key : String) :
    (addedMembers base target).lookup key =
      if (base.lookup key).isNone then target.lookup key else none := by
  unfold addedMembers
  induction target with
  | nil => simp
  | cons member rest inductionHypothesis =>
    obtain ⟨first, value⟩ := member
    rw [filter_cons, lookup_cons]
    by_cases isAdded : (base.lookup first).isNone = true
    · rw [if_pos isAdded, lookup_cons, inductionHypothesis]
      by_cases same : key = first
      · rw [if_pos same, if_pos same, same, if_pos isAdded]
      · rw [if_neg same, if_neg same]
    · rw [if_neg isAdded, inductionHypothesis]
      by_cases same : key = first
      · rw [same, if_neg isAdded, if_neg isAdded]
      · rw [if_neg same]

/-- What the entry of a patch makes of the value under its key. -/
def patchedValue (old : Option JsonValue) : Option JsonValue → Option JsonValue
  | none => old
  | some .null => none
  | some (.object patch) => some (applyMergePatch (old.getD (.object [])) (.object patch))
  | some value => some value

/-- A blocked key of a patch is passed over. -/
theorem lookup_applyMembers_of_nodup (nodup : (patch.map Prod.fst).Nodup)
    (result : List (String × JsonValue)) (key : String) : (applyMembers result patch).lookup key =
      if isBlockedObjectKey key then result.lookup key
      else patchedValue (result.lookup key) (patch.lookup key) := by
  induction patch generalizing result with
  | nil => exact (ite_self _).symm
  | cons entry rest inductionHypothesis =>
    obtain ⟨first, value⟩ := entry
    rw [map_cons, nodup_cons] at nodup
    have later := inductionHypothesis nodup.2
    have notLater : rest.lookup first = none := lookup_eq_none_iff_not_mem_keys.mpr nodup.1
    rw [lookup_cons]
    by_cases blocked : isBlockedObjectKey first = true
    · rw [applyMembers.eq_def]
      simp only [blocked, if_true, later]
      by_cases same : key = first
      · rw [same, if_pos blocked, if_pos blocked]
      · rw [if_neg same]
    · by_cases same : key = first
      · subst same
        rw [if_pos rfl, if_neg blocked]
        cases value with
        | null =>
          simp [applyMembers, if_neg blocked, later, notLater, patchedValue, lookup_removeMember]
        | object patch =>
          simp [applyMembers, if_neg blocked, later, notLater, patchedValue, lookup_setMember]
        | _ =>
          simp [applyMembers, if_neg blocked, later, notLater, patchedValue, lookup_setMember]
      · rw [if_neg same]
        cases value with
        | null => simp only [applyMembers, if_neg blocked, later, lookup_removeMember, if_neg same]
        | object patch =>
          simp only [applyMembers, if_neg blocked, later, lookup_setMember, if_neg same]
        | _ => simp only [applyMembers, if_neg blocked, later, lookup_setMember, if_neg same]

theorem lookup_applyMembers (nodup : (patch.map Prod.fst).Nodup)
    (unblocked : ∀ key ∈ patch.map Prod.fst, isBlockedObjectKey key = false)
    (result : List (String × JsonValue)) (key : String) : (applyMembers result patch).lookup key =
      patchedValue (result.lookup key) (patch.lookup key) := by
  rw [lookup_applyMembers_of_nodup nodup]
  split
  · rename_i blocked
    have absent : patch.lookup key = none :=
      lookup_eq_none_iff_not_mem_keys.mpr fun member => by
        rw [unblocked key member] at blocked
        exact Bool.noConfusion blocked
    rw [absent]
    rfl
  · rfl

end ConfigWrite
