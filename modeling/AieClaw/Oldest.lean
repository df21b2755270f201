import Mathlib.Data.List.Sort

/-!
# The oldest items of a list

The first items of a list in the order of their age. Without them exactly the
others are left, and each of those is at least as young.
-/

namespace Oldest

open List

universe u v

variable {Item : Type u} {Age : Type v} [LinearOrder Age]

/-- The items, oldest first. -/
def byAge (age : Item → Age) (items : List Item) : List Item :=
  items.insertionSort fun left right => age left ≤ age right

/-- Some of the items, oldest first. -/
def oldest (age : Item → Age) (count : ℕ) (items : List Item) : List Item :=
  (byAge age items).take count

theorem perm_byAge (age : Item → Age) (items : List Item) : (byAge age items).Perm items :=
  perm_insertionSort _ items

theorem mem_of_mem_oldest {age : Item → Age} {count : ℕ} {items : List Item} {item : Item}
    (member : item ∈ oldest age count items) : item ∈ items :=
  (perm_byAge age items).mem_iff.mp (mem_of_mem_take member)

/-- Without the oldest items the rest is left. -/
theorem length_filter_not_mem_oldest [DecidableEq Item] (age : Item → Age) (count : ℕ)
    {items : List Item} (distinct : items.Nodup) :
    (items.filter fun item => decide (item ∉ oldest age count items)).length =
      items.length - count := by
  have sortedDistinct := (perm_byAge age items).nodup_iff.mpr distinct
  have split := take_append_drop count (byAge age items)
  have apart : ∀ item ∈ (byAge age items).drop count, item ∉ oldest age count items := by
    intro item inDrop inTake
    rw [← split] at sortedDistinct
    exact (nodup_append.mp sortedDistinct).2.2 item inTake item inDrop rfl
  have kept : (byAge age items).filter (fun item => decide (item ∉ oldest age count items)) =
        (byAge age items).drop count := by
    conv_lhs => rw [← split]
    rw [filter_append]
    have noneOld : ((byAge age items).take count).filter
        (fun item => decide (item ∉ oldest age count items)) = [] := by
      rw [filter_eq_nil_iff]
      intro item inTake
      simp [oldest, inTake]
    have allYoung : ((byAge age items).drop count).filter
        (fun item => decide (item ∉ oldest age count items)) = (byAge age items).drop count := by
      rw [filter_eq_self]
      intro item inDrop
      simpa using apart item inDrop
    rw [noneOld, allYoung, nil_append]
  rw [← ((perm_byAge age items).filter _).length_eq, kept, length_drop,
    (perm_byAge age items).length_eq]

end Oldest
