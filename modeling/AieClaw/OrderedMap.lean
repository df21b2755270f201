import Mathlib.Data.List.Lookmap
import Mathlib.Data.List.Sort

/-!
# Insertion-ordered maps

An ordered map is a list of key-value entries in which no key occurs twice.
Writing an absent key appends its entry; writing a present key replaces the
value where it stands. Iteration follows the entries, so it is insertion order.

The same structure serves as a table with a primary key.
-/

universe u v w

/-- A finite map that remembers the order in which its keys were inserted. -/
structure OrderedMap (Key : Type u) (Value : Type v) where
  entries : List (Key × Value)
  distinctKeys : (entries.map Prod.fst).Nodup

namespace OrderedMap

open List

variable {Key : Type u} {Value : Type v} {Result : Type w}

@[ext]
theorem ext {left right : OrderedMap Key Value} (same : left.entries = right.entries) :
    left = right := by
  cases left
  cases right
  simp_all

instance [DecidableEq Key] [DecidableEq Value] : DecidableEq (OrderedMap Key Value) :=
  fun left right => decidable_of_iff (left.entries = right.entries) ⟨ext, fun same => same ▸ rfl⟩

/-- The map without entries. -/
def empty : OrderedMap Key Value where
  entries := []
  distinctKeys := nodup_nil

instance : Inhabited (OrderedMap Key Value) :=
  ⟨empty⟩

section

variable (map : OrderedMap Key Value)

/-- The keys in insertion order. -/
def keys : List Key := map.entries.map Prod.fst

/-- The values in insertion order. -/
def values : List Value := map.entries.map Prod.snd

/-- Keep the entries that satisfy `keep`. -/
def filter (keep : Key × Value → Bool) : OrderedMap Key Value where
  entries := map.entries.filter keep
  distinctKeys := map.distinctKeys.sublist (filter_sublist.map Prod.fst)

/-- Apply a function to every value. -/
def mapValues (change : Value → Result) : OrderedMap Key Result where
  entries := map.entries.map fun entry => (entry.1, change entry.2)
  distinctKeys := by
    simpa [map_map, Function.comp_def] using map.distinctKeys

/-- Apply a function of the key and the value to every entry. -/
def mapEntries (change : Key → Value → Result) :
    OrderedMap Key Result where
  entries := map.entries.map fun entry => (entry.1, change entry.1 entry.2)
  distinctKeys := by
    simpa [map_map, Function.comp_def] using map.distinctKeys

/-- The entries in the order of a relation. -/
def sort (before : Key × Value → Key × Value → Prop)
    [DecidableRel before] : OrderedMap Key Value where
  entries := map.entries.insertionSort before
  distinctKeys :=
    ((perm_insertionSort before map.entries).map Prod.fst).nodup_iff.mpr map.distinctKeys

end

section

variable [DecidableEq Key] (map : OrderedMap Key Value)

/-- The value stored under a key. -/
def get? (key : Key) : Option Value :=
  (map.entries.find? fun entry => entry.1 = key).map Prod.snd

/-- Whether a key is present. -/
def has (key : Key) : Bool := (map.get? key).isSome

/-- Replace the value of a present key in place, or append a new entry. -/
def setEntries (key : Key) (value : Value) : List (Key × Value) → List (Key × Value)
  | [] => [(key, value)]
  | entry :: rest =>
    if entry.1 = key then (key, value) :: rest
    else entry :: setEntries key value rest

private theorem mem_keys_setEntries {key other : Key} {value : Value}
    {entries : List (Key × Value)} : other ∈ (setEntries key value entries).map Prod.fst ↔
      other = key ∨ other ∈ entries.map Prod.fst := by
  induction entries with
  | nil => simp [setEntries]
  | cons entry rest inductionHypothesis =>
    by_cases same : entry.1 = key
    · simp [setEntries, same]
    · simp only [setEntries, same, if_false, map_cons, mem_cons, inductionHypothesis]
      tauto

private theorem nodup_setEntries {key : Key} {value : Value} {entries : List (Key × Value)}
    (distinct : (entries.map Prod.fst).Nodup) :
    ((setEntries key value entries).map Prod.fst).Nodup := by
  induction entries with
  | nil => simp [setEntries]
  | cons entry rest inductionHypothesis =>
    rw [map_cons, nodup_cons] at distinct
    obtain ⟨fresh, restDistinct⟩ := distinct
    by_cases same : entry.1 = key
    · subst same
      simpa [setEntries] using ⟨by simpa using fresh, restDistinct⟩
    · have headFresh : entry.1 ∉ (setEntries key value rest).map Prod.fst := by
        rw [mem_keys_setEntries, not_or]
        exact ⟨same, fresh⟩
      simp only [setEntries, same, if_false, map_cons]
      exact nodup_cons.mpr ⟨headFresh, inductionHypothesis restDistinct⟩

/-- Write a key, keeping the position of a key that is already present. -/
def set (key : Key) (value : Value) : OrderedMap Key Value where
  entries := setEntries key value map.entries
  distinctKeys := nodup_setEntries map.distinctKeys

/-- Change the value of a present key; an absent key stays absent. -/
def modify (key : Key) (change : Value → Value) :
    OrderedMap Key Value :=
  match map.get? key with
  | none => map
  | some value => map.set key (change value)

/-- Remove a key. -/
def delete (key : Key) : OrderedMap Key Value :=
  map.filter fun entry => entry.1 ≠ key

end

@[simp] theorem entries_empty : (empty : OrderedMap Key Value).entries = [] := rfl

@[simp] theorem entries_filter (map : OrderedMap Key Value) (keep : Key × Value → Bool) :
    (map.filter keep).entries = map.entries.filter keep :=
  rfl

@[simp] theorem entries_mapValues (map : OrderedMap Key Value) (change : Value → Result) :
    (map.mapValues change).entries = map.entries.map fun entry => (entry.1, change entry.2) :=
  rfl

@[simp] theorem values_mapValues (map : OrderedMap Key Value) (change : Value → Result) :
    (map.mapValues change).values = map.values.map change := by
  simp [values, Function.comp_def]

section

variable [DecidableEq Key]

@[simp] theorem get?_empty (key : Key) : (empty : OrderedMap Key Value).get? key = none := rfl

variable {map : OrderedMap Key Value} {key other : Key} {value stored : Value}
  {entries : List (Key × Value)}

theorem has_eq_false_iff : map.has key = false ↔ map.get? key = none := by
  simp [has]

theorem get?_eq_some_iff : map.get? key = some value ↔ (key, value) ∈ map.entries := by
  obtain ⟨entries, distinct⟩ := map
  simp only [get?]
  induction entries with
  | nil => simp
  | cons entry rest inductionHypothesis =>
    obtain ⟨first, stored⟩ := entry
    rw [map_cons, nodup_cons] at distinct
    obtain ⟨fresh, restDistinct⟩ := distinct
    by_cases same : first = key
    · subst same
      have absent : (first, value) ∉ rest := by
        intro member
        exact fresh (mem_map.mpr ⟨(first, value), member, rfl⟩)
      simp [absent, eq_comm]
    · have differs : ¬ key = first := fun equal => same equal.symm
      simp [same, differs, inductionHypothesis restDistinct]

theorem get?_eq_none_iff : map.get? key = none ↔ ∀ entry ∈ map.entries, entry.1 ≠ key := by
  simp [get?]

theorem mem_values_of_get? (found : map.get? key = some value) : value ∈ map.values :=
  mem_map_of_mem (get?_eq_some_iff.mp found)

theorem exists_get?_of_mem_values (member : value ∈ map.values) :
    ∃ key, map.get? key = some value := by
  obtain ⟨⟨key, stored⟩, inEntries, same⟩ := mem_map.mp member
  subst same
  exact ⟨key, get?_eq_some_iff.mpr inEntries⟩

private theorem find?_setEntries (key other : Key) (value : Value) (entries : List (Key × Value)) :
    ((setEntries key value entries).find? fun entry => entry.1 = other).map Prod.snd =
      if other = key then some value
      else
        (entries.find? fun entry => entry.1 = other).map Prod.snd := by
  induction entries with
  | nil =>
    by_cases same : other = key
    · simp [setEntries, same]
    · simp [setEntries, same, eq_comm]
  | cons entry rest inductionHypothesis =>
    by_cases atHead : entry.1 = key
    · by_cases same : other = key
      · simp [setEntries, atHead, same]
      · have differs : ¬ key = other := fun equal => same equal.symm
        simp [setEntries, atHead, same, differs]
    · by_cases found : entry.1 = other
      · have differs : ¬ other = key := by
          rintro rfl
          exact atHead found
        simp [setEntries, found, differs]
      · simpa [setEntries, atHead, found] using inductionHypothesis

theorem get?_set (map : OrderedMap Key Value) (key other : Key) (value : Value) :
    (map.set key value).get? other = if other = key then some value else map.get? other :=
  find?_setEntries key other value map.entries

@[simp] theorem get?_set_self (map : OrderedMap Key Value) (key : Key) (value : Value) :
    (map.set key value).get? key = some value := by
  simp [get?_set]

theorem get?_set_of_ne (differs : other ≠ key) :
    (map.set key value).get? other = map.get? other := by
  simp [get?_set, differs]

theorem get?_modify (map : OrderedMap Key Value) (key other : Key) (change : Value → Value) :
    (map.modify key change).get? other =
      if other = key then (map.get? key).map change
      else
        map.get? other := by
  unfold modify
  cases found : map.get? key with
  | none =>
    by_cases same : other = key
    · simp [same, found]
    · simp [same]
  | some value => simp [get?_set]

@[simp] theorem get?_modify_self (map : OrderedMap Key Value) (key : Key) (change : Value → Value) :
    (map.modify key change).get? key = (map.get? key).map change := by
  simp [get?_modify]

theorem get?_modify_of_ne (differs : other ≠ key) (change : Value → Value) :
    (map.modify key change).get? other = map.get? other := by
  simp [get?_modify, differs]

theorem get?_delete (map : OrderedMap Key Value) (key other : Key) : (map.delete key).get? other =
      if other = key then none else map.get? other := by
  apply Option.ext
  intro value
  rw [get?_eq_some_iff]
  by_cases same : other = key
  · simp [delete, same]
  · simp [delete, same, get?_eq_some_iff]

@[simp] theorem get?_delete_self (map : OrderedMap Key Value) (key : Key) :
    (map.delete key).get? key = none := by
  simp [get?_delete]

theorem get?_delete_of_ne (differs : other ≠ key) :
    (map.delete key).get? other = map.get? other := by
  simp [get?_delete, differs]

theorem get?_filter_eq_some_iff {keep : Key × Value → Bool} :
    (map.filter keep).get? key = some value ↔
      map.get? key = some value ∧ keep (key, value) = true := by
  simp [get?_eq_some_iff]

@[simp] theorem get?_mapValues (map : OrderedMap Key Value) (change : Value → Result) (key : Key) :
    (map.mapValues change).get? key = (map.get? key).map change := by
  simp [get?, mapValues, find?_map, Function.comp_def, Option.map_map]

@[simp] theorem get?_mapEntries (map : OrderedMap Key Value) (change : Key → Value → Result)
    (key : Key) : (map.mapEntries change).get? key = (map.get? key).map (change key) := by
  apply Option.ext
  intro result
  rw [get?_eq_some_iff, Option.map_eq_some_iff]
  constructor
  · intro member
    obtain ⟨⟨stored, value⟩, inEntries, same⟩ := mem_map.mp member
    obtain ⟨rfl, rfl⟩ := Prod.mk.inj same
    exact ⟨value, get?_eq_some_iff.mpr inEntries, rfl⟩
  · rintro ⟨value, found, rfl⟩
    exact mem_map.mpr ⟨(key, value), get?_eq_some_iff.mp found, rfl⟩

@[simp] theorem get?_sort (map : OrderedMap Key Value)
    (before : Key × Value → Key × Value → Prop) [DecidableRel before] (key : Key) :
    (map.sort before).get? key = map.get? key := by
  apply Option.ext
  intro value
  rw [get?_eq_some_iff, get?_eq_some_iff]
  exact (perm_insertionSort before map.entries).mem_iff

private theorem setEntries_of_not_mem (absent : ∀ entry ∈ entries, entry.1 ≠ key) :
    setEntries key value entries = entries ++ [(key, value)] := by
  induction entries with
  | nil => rfl
  | cons entry rest inductionHypothesis =>
    have headDiffers : entry.1 ≠ key := absent entry (by simp)
    have tailDiffers : ∀ later ∈ rest, later.1 ≠ key := by
      intro later member
      exact absent later (by simp [member])
    simp [setEntries, headDiffers, inductionHypothesis tailDiffers]

theorem entries_set_of_absent (absent : map.get? key = none) (value : Value) :
    (map.set key value).entries = map.entries ++ [(key, value)] :=
  setEntries_of_not_mem (get?_eq_none_iff.mp absent)

theorem values_set_of_absent (absent : map.get? key = none) (value : Value) :
    (map.set key value).values = map.values ++ [value] := by
  simp [values, entries_set_of_absent absent]

private theorem setEntries_split
    (member : (key, stored) ∈ entries) (distinct : (entries.map Prod.fst).Nodup) : ∃ before after,
      entries = before ++ (key, stored) :: after ∧
        ∀ value, setEntries key value entries = before ++ (key, value) :: after := by
  induction entries with
  | nil => simp at member
  | cons entry rest inductionHypothesis =>
    rw [map_cons, nodup_cons] at distinct
    rcases mem_cons.mp member with isHead | inRest
    · subst isHead
      exact ⟨[], rest, rfl, fun value => by simp [setEntries]⟩
    · have headDiffers : entry.1 ≠ key := by
        rintro rfl
        exact distinct.1 (mem_map.mpr ⟨_, inRest, rfl⟩)
      obtain ⟨before, after, shape, written⟩ := inductionHypothesis inRest distinct.2
      refine ⟨entry :: before, after, by simp [shape], ?_⟩
      intro value
      simp [setEntries, headDiffers, written value]

/--
The values around a present key: writing the key replaces its value where it
stands and leaves the values before and after it alone.
-/
theorem values_split (found : map.get? key = some stored) :
    ∃ before after, map.values = before ++ stored :: after ∧
        ∀ value, (map.set key value).values = before ++ value :: after := by
  obtain ⟨before, after, shape, written⟩ :=
    setEntries_split (get?_eq_some_iff.mp found) map.distinctKeys
  refine ⟨before.map Prod.snd, after.map Prod.snd, ?_, ?_⟩
  · simp [values, shape]
  · intro value
    simp [values, set, written value]

theorem values_modify_split (found : map.get? key = some stored) :
    ∃ before after, map.values = before ++ stored :: after ∧
        ∀ change, (map.modify key change).values = before ++ change stored :: after := by
  obtain ⟨before, after, shape, written⟩ := values_split found
  refine ⟨before, after, shape, ?_⟩
  intro change
  simp [modify, found, written]

end

end OrderedMap
