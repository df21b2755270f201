import AieClaw.OrderedMap
import Mathlib.Order.Std
import Mathlib.Order.MinMax

/-!
# Grouping a list by a key

Grouping puts the items of a list under their keys, in order of the first
occurrence of each key. Changing a map once for each group changes every key by
its own group alone, as a map has each key once.
-/

namespace OrderedMap

open List

universe u v w

variable {Key : Type u} {Value : Type v} {Item : Type w} [DecidableEq Key]

/-- Put an item at the end of its group. -/
def addToGroup (key : Item → Key) (groups : OrderedMap Key (List Item)) (item : Item) :
    OrderedMap Key (List Item) :=
  groups.set (key item) ((groups.get? (key item)).getD [] ++ [item])

/-- The items of a list under their keys. -/
def groupBy (key : Item → Key) (items : List Item) : OrderedMap Key (List Item) :=
  items.foldl (addToGroup key) .empty

variable (key : Item → Key) (items : List Item)

theorem getD_get?_addToGroup (groups : OrderedMap Key (List Item)) (item : Item) (other : Key) :
    ((addToGroup key groups item).get? other).getD [] = (groups.get? other).getD [] ++
        [item].filter (fun item => key item = other) := by
  simp only [addToGroup, get?_set]
  by_cases same : other = key item
  · simp [same]
  · have differs : ¬ key item = other := fun equal => same equal.symm
    simp [same, differs]

theorem get?_foldl_addToGroup_ne_some_nil {groups : OrderedMap Key (List Item)}
    (nonempty : ∀ other, groups.get? other ≠ some []) (other : Key) :
    (items.foldl (addToGroup key) groups).get? other ≠ some [] := by
  induction items generalizing groups with
  | nil => exact nonempty other
  | cons item rest inductionHypothesis =>
    apply inductionHypothesis
    intro other
    simp only [addToGroup, get?_set]
    by_cases same : other = key item
    · simp [same]
    · simpa [same] using nonempty other

theorem getD_get?_foldl_addToGroup (groups : OrderedMap Key (List Item)) (other : Key) :
    ((items.foldl (addToGroup key) groups).get? other).getD [] = (groups.get? other).getD [] ++
        items.filter (fun item => key item = other) := by
  induction items generalizing groups with
  | nil => simp
  | cons item rest inductionHypothesis =>
    have split : (item :: rest).filter (fun item => key item = other) =
          [item].filter (fun item => key item = other) ++
            rest.filter (fun item => key item = other) := by
      rw [← filter_append, singleton_append]
    rw [foldl_cons, inductionHypothesis, getD_get?_addToGroup, split, append_assoc]

/-- The group of a key holds the items of that key, in their order. -/
theorem getD_get?_groupBy (other : Key) : ((groupBy key items).get? other).getD [] =
      items.filter fun item => key item = other := by
  rw [groupBy, getD_get?_foldl_addToGroup, get?_empty]
  rfl

/-- A key has a group exactly when it has an item, and then all of them. -/
theorem get?_groupBy_eq_some_iff {key : Item → Key} {items : List Item} {other : Key}
    {group : List Item} : (groupBy key items).get? other = some group ↔
      group ≠ [] ∧ group = items.filter fun item => key item = other := by
  have value := getD_get?_groupBy key items other
  have nonempty : (groupBy key items).get? other ≠ some [] :=
    get?_foldl_addToGroup_ne_some_nil key items (by simp) other
  cases found : (groupBy key items).get? other with
  | none =>
    rw [found] at value
    have noItem : (items.filter fun item => key item = other) = [] := value.symm
    simp [noItem]
  | some stored =>
    rw [found] at value nonempty
    have whole : stored = items.filter fun item => key item = other := value
    constructor
    · intro same
      cases same
      exact ⟨fun isNil => nonempty (congrArg some isNil), whole⟩
    · intro same
      rw [whole, same.2]

/-- Changing one key for each entry of a list with distinct keys. -/
private theorem get?_foldl_entries {Group : Type w}
    {change : OrderedMap Key Value → Key × Group → OrderedMap Key Value}
    {value : Group → Option Value → Option Value} (changes : ∀ map entry other,
        (change map entry).get? other =
          if other = entry.1 then value entry.2 (map.get? entry.1)
          else map.get? other) {entries : List (Key × Group)}
    (distinct : (entries.map Prod.fst).Nodup) (map : OrderedMap Key Value) (other : Key) :
    (entries.foldl change map).get? other =
      match (entries.find? fun entry => entry.1 = other).map Prod.snd with
      | some group => value group (map.get? other)
      | none => map.get? other := by
  induction entries generalizing map with
  | nil => rfl
  | cons entry rest inductionHypothesis =>
    rw [map_cons, nodup_cons] at distinct
    obtain ⟨fresh, restDistinct⟩ := distinct
    rw [foldl_cons, inductionHypothesis restDistinct, changes]
    by_cases same : entry.1 = other
    · subst same
      have absent : rest.find? (fun later => later.1 = entry.1) = none := by
        apply find?_eq_none.mpr
        intro later member isSame
        exact fresh (mem_map.mpr ⟨later, member, of_decide_eq_true isSame⟩)
      simp [absent]
    · have differs : ¬ other = entry.1 := fun equal => same equal.symm
      simp [same, differs]

/-- Changing a map once for each group changes each key by its group. -/
theorem get?_foldl_groups {Group : Type w}
    {change : OrderedMap Key Value → Key × Group → OrderedMap Key Value}
    (value : Group → Option Value → Option Value) (changes : ∀ map entry other,
        (change map entry).get? other =
          if other = entry.1 then value entry.2 (map.get? entry.1)
          else map.get? other) (groups : OrderedMap Key Group) (map : OrderedMap Key Value)
    (other : Key) : (groups.entries.foldl change map).get? other =
      match groups.get? other with
      | some group => value group (map.get? other)
      | none => map.get? other :=
  get?_foldl_entries changes groups.distinctKeys map other

end OrderedMap

namespace Extrema

universe u

variable {Value : Type u} [LinearOrder Value]

/-- The greatest value of two lists is the greater of their greatest values. -/
theorem max?_append {first second : List Value} {left right : Value}
    (greatestFirst : first.max? = some left) (greatestSecond : second.max? = some right) :
    (first ++ second).max? = some (max left right) := by
  rw [List.max?_eq_some_iff] at *
  constructor
  · rcases max_choice left right with chosen | chosen <;>
      simp [chosen, greatestFirst.1, greatestSecond.1]
  · intro value member
    rcases List.mem_append.mp member with inFirst | inSecond
    · exact le_max_of_le_left (greatestFirst.2 value inFirst)
    · exact le_max_of_le_right (greatestSecond.2 value inSecond)

/-- The least value of two lists is the lesser of their least values. -/
theorem min?_append {first second : List Value} {left right : Value}
    (leastFirst : first.min? = some left) (leastSecond : second.min? = some right) :
    (first ++ second).min? = some (min left right) :=
  @max?_append Valueᵒᵈ _ first second left right leastFirst leastSecond

end Extrema
