import AieClaw.JsonRecord

/-!
# JSON trees

A tree of JSON objects is read along paths of keys: at the end of a path there is
nothing, an object, or a value that is not an object. Deep equality compares
objects whatever the order of their members.
-/

namespace JsonValue

open List

def membersOf : JsonValue → List (String × JsonValue)
  | .object members => members
  | _ => []

@[simp] theorem membersOf_object (members : List (String × JsonValue)) :
    (JsonValue.object members).membersOf = members :=
  rfl

variable {members : List (String × JsonValue)} (key other : String) {value : JsonValue}

theorem lookup_cons (key : String) (value : JsonValue) (members : List (String × JsonValue)) :
    List.lookup other ((key, value) :: members) =
      if other = key then some value else members.lookup other := by
  by_cases same : other = key
  · rw [if_pos same, same, lookup_cons_self]
  · have differs : (other == key) = false := beq_eq_false_iff_ne.mpr same
    rw [if_neg same, List.lookup_cons, differs]

theorem lookup_setMember (value : JsonValue) (members : List (String × JsonValue)) :
    (setMember key value members).lookup other =
      if other = key then some value else members.lookup other := by
  induction members with
  | nil => exact lookup_cons other key value []
  | cons entry rest inductionHypothesis =>
    obtain ⟨first, stored⟩ := entry
    unfold setMember
    by_cases isFirst : first = key
    · rw [if_pos isFirst, lookup_cons, lookup_cons, isFirst]
      split
      · rfl
      · rfl
    · rw [if_neg isFirst, lookup_cons, lookup_cons, inductionHypothesis]
      by_cases same : other = first
      · rw [if_pos same, if_neg (same ▸ isFirst), if_pos same]
      · rw [if_neg same, if_neg same]

theorem lookup_removeMember (members : List (String × JsonValue)) :
    (removeMember key members).lookup other =
      if other = key then none else members.lookup other := by
  induction members with
  | nil => simp [removeMember]
  | cons entry rest inductionHypothesis =>
    obtain ⟨first, stored⟩ := entry
    unfold removeMember at inductionHypothesis ⊢
    rw [filter_cons, lookup_cons]
    by_cases isFirst : first = key
    · rw [if_neg (by simp [isFirst]), inductionHypothesis, isFirst]
      split
      · rfl
      · rfl
    · rw [if_pos (by simp [isFirst]), lookup_cons, inductionHypothesis]
      by_cases same : other = first
      · rw [if_pos same, if_neg (same ▸ isFirst), if_pos same]
      · rw [if_neg same, if_neg same]

mutual

/-- Equal values, with the members of objects in any order. -/
def isDeepStrictEqual : JsonValue → JsonValue → Bool
  | .null, .null => true
  | .bool left, .bool right => left = right
  | .number left, .number right => left = right
  | .string left, .string right => left = right
  | .array left, .array right => itemsDeepEqual left right
  | .object left, .object right => left.length = right.length && membersDeepEqual left right
  | _, _ => false

def itemsDeepEqual : List JsonValue → List JsonValue → Bool
  | [], [] => true
  | left :: rest, right :: later => isDeepStrictEqual left right && itemsDeepEqual rest later
  | _, _ => false

/-- Every member is among the others, with an equal value. -/
def membersDeepEqual : List (String × JsonValue) → List (String × JsonValue) → Bool
  | [], _ => true
  | (key, value) :: rest, others =>
    (others.lookup key).elim false (fun other => isDeepStrictEqual value other) &&
      membersDeepEqual rest others

end

/-- What stands at the end of a path. -/
inductive Node where
  | object
  | leaf (value : JsonValue)

def node : JsonValue → Node
  | .object _ => .object
  | value => .leaf value

/-- The value at the end of a path of keys. -/
def at? : List String → JsonValue → Option JsonValue
  | [], value => some value
  | key :: rest, value => (value.membersOf.lookup key).bind (at? rest)

def view (path : List String) (value : JsonValue) : Option Node := (at? path value).map node

theorem view_cons (rest : List String) (value : JsonValue) :
    view (key :: rest) value = (value.membersOf.lookup key).bind (view rest) := by
  rw [view, at?, Option.map_bind]
  rfl

theorem membersOf_of_not_isRecord (leaf : value.isRecord = false) : value.membersOf = [] := by
  cases value with
  | object members => exact absurd leaf (by simp [isRecord])
  | _ => rfl

theorem exists_of_isRecord (record : value.isRecord = true) :
    ∃ members, value = .object members := by
  cases value with
  | object members => exact ⟨members, rfl⟩
  | _ => exact absurd record (by simp [isRecord])

theorem node_of_not_isRecord (leaf : value.isRecord = false) : value.node = .leaf value := by
  cases value with
  | object members => exact absurd leaf (by simp [isRecord])
  | _ => rfl

/-- No object along a path of keys has a key twice. -/
inductive DistinctKeys : JsonValue → Prop where
  | leaf {value : JsonValue} (leaf : value.isRecord = false) : DistinctKeys value
  | object
      {members : List (String × JsonValue)} (nodup : (members.map Prod.fst).Nodup)
      (each : ∀ entry ∈ members, DistinctKeys entry.2) : DistinctKeys (.object members)

theorem mem_of_lookup {key : String} (found : members.lookup key = some value) :
    (key, value) ∈ members := by
  induction members with
  | nil => exact absurd found (by simp)
  | cons entry rest inductionHypothesis =>
    obtain ⟨first, stored⟩ := entry
    rw [lookup_cons] at found
    split at found
    · rename_i same
      rw [same, Option.some_inj.mp found]
      exact .head _
    · exact .tail _ (inductionHypothesis found)

theorem lookup_isSome_iff_mem_keys {key : String} :
    (members.lookup key).isSome ↔ key ∈ members.map Prod.fst := by
  rw [lookup_isSome_iff, mem_map]
  constructor
  · rintro ⟨entry, member, isKey⟩
    exact ⟨entry, member, (beq_iff_eq.mp isKey).symm⟩
  · rintro ⟨entry, member, isKey⟩
    exact ⟨entry, member, beq_iff_eq.mpr isKey.symm⟩

theorem lookup_eq_none_iff_not_mem_keys {key : String} :
    members.lookup key = none ↔ key ∉ members.map Prod.fst := by
  rw [← lookup_isSome_iff_mem_keys, Option.not_isSome_iff_eq_none]

theorem lookup_of_mem (nodup : (members.map Prod.fst).Nodup) {key : String}
    (member : (key, value) ∈ members) : members.lookup key = some value := by
  induction members with
  | nil => exact absurd member not_mem_nil
  | cons entry rest inductionHypothesis =>
    obtain ⟨first, stored⟩ := entry
    rw [map_cons, nodup_cons] at nodup
    rw [lookup_cons]
    rcases mem_cons.mp member with isFirst | later
    · obtain ⟨rfl, rfl⟩ := Prod.ext_iff.mp isFirst
      exact if_pos rfl
    · rw [if_neg, inductionHypothesis nodup.2 later]
      rintro rfl
      exact nodup.1 (mem_map.mpr ⟨_, later, rfl⟩)

/-- Both keys are missing, or both have equal values. -/
def DeepEqualAt (left right : Option JsonValue) : Prop :=
  (left = none ∧ right = none) ∨
    ∃ value other, left = some value ∧ right = some other ∧ isDeepStrictEqual value other = true

theorem deepEqualAt_none_left_iff {right : Option JsonValue} :
    DeepEqualAt none right ↔ right = none := by
  constructor
  · rintro (⟨_, isNone⟩ | ⟨_, _, isSome, _⟩)
    · exact isNone
    · exact absurd isSome (by simp)
  · exact fun isNone => Or.inl ⟨rfl, isNone⟩

theorem deepEqualAt_some_none (value : JsonValue) : ¬ DeepEqualAt (some value) none := by
  rintro (⟨isNone, _⟩ | ⟨_, _, _, isSome, _⟩)
  · exact absurd isNone (by simp)
  · exact absurd isSome (by simp)

theorem deepEqualAt_some_some_iff {other : JsonValue} :
    DeepEqualAt (some value) (some other) ↔ isDeepStrictEqual value other = true := by
  constructor
  · rintro (⟨isNone, _⟩ | ⟨_, _, isValue, isOther, equal⟩)
    · exact absurd isNone (by simp)
    · rw [Option.some_inj.mp isValue, Option.some_inj.mp isOther]
      exact equal
  · exact fun equal => Or.inr ⟨value, other, rfl, rfl, equal⟩

theorem membersDeepEqual_iff {others : List (String × JsonValue)} :
    membersDeepEqual members others = true ↔
      ∀ entry ∈ members, ∃ other, others.lookup entry.1 = some other ∧
        isDeepStrictEqual entry.2 other = true := by
  induction members with
  | nil => simp [membersDeepEqual]
  | cons entry rest inductionHypothesis =>
    obtain ⟨key, value⟩ := entry
    rw [membersDeepEqual, Bool.and_eq_true, inductionHypothesis, forall_mem_cons]
    refine and_congr_left' ?_
    cases others.lookup key with
    | none => simp
    | some other => simp

theorem isDeepStrictEqual_object_iff {left right : List (String × JsonValue)}
    (leftNodup : (left.map Prod.fst).Nodup) (rightNodup : (right.map Prod.fst).Nodup) :
    isDeepStrictEqual (.object left) (.object right) = true ↔
      ∀ key, DeepEqualAt (left.lookup key) (right.lookup key) := by
  rw [isDeepStrictEqual, Bool.and_eq_true, decide_eq_true_iff, membersDeepEqual_iff]
  constructor
  · rintro ⟨sameLength, within⟩ key
    have isWithin : left.map Prod.fst ⊆ right.map Prod.fst := by
      intro other member
      obtain ⟨entry, inLeft, rfl⟩ := mem_map.mp member
      obtain ⟨value, found, _⟩ := within entry inLeft
      exact lookup_isSome_iff_mem_keys.mp (Option.isSome_of_eq_some found)
    have isPerm : (left.map Prod.fst).Perm (right.map Prod.fst) :=
      (subperm_of_subset leftNodup isWithin).perm_of_length_le
        (by rw [length_map, length_map, sameLength])
    cases inLeft : left.lookup key with
    | none =>
      refine Or.inl ⟨rfl, lookup_eq_none_iff_not_mem_keys.mpr fun member => ?_⟩
      exact lookup_eq_none_iff_not_mem_keys.mp inLeft (isPerm.mem_iff.mpr member)
    | some value =>
      obtain ⟨other, found, equal⟩ := within (key, value) (mem_of_lookup inLeft)
      exact Or.inr ⟨value, other, rfl, found, equal⟩
  · intro equalAt
    have sameKeys : ∀ key, key ∈ left.map Prod.fst ↔ key ∈ right.map Prod.fst := by
      intro key
      rw [← lookup_isSome_iff_mem_keys, ← lookup_isSome_iff_mem_keys]
      rcases equalAt key with ⟨noLeft, noRight⟩ | ⟨_, _, isLeft, isRight, _⟩
      · rw [noLeft, noRight]
      · rw [isLeft, isRight]
        exact Iff.rfl
    refine ⟨?_, ?_⟩
    · have isPerm := (perm_ext_iff_of_nodup leftNodup rightNodup).mpr sameKeys
      simpa using isPerm.length_eq
    · rintro ⟨key, value⟩ member
      rcases equalAt key with ⟨noLeft, _⟩ | ⟨stored, other, isLeft, isRight, equal⟩
      · exact absurd (noLeft.symm.trans (lookup_of_mem leftNodup member)) (by simp)
      · rw [lookup_of_mem leftNodup member] at isLeft
        exact ⟨other, isRight, Option.some_inj.mp isLeft ▸ equal⟩

end JsonValue
