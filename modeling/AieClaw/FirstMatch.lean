import Mathlib.Data.List.Basic

/-!
# Replacing the first match in a list

Reading by the first element that passes a test and writing at its index fit
together: what was written is read again, and a test that neither the old nor
the new element passes reads what it read before.
-/

namespace FirstMatch

open List

universe u

variable {α : Type u} {passes other : α → Bool} {list : List α}
variable {old new : α} {index : ℕ}

theorem findIdx?_of_find? (found : list.find? passes = some old) :
    ∃ index, list.findIdx? passes = some index ∧ list[index]? = some old :=
  Option.bind_eq_some_iff.mp (find?_eq_bind_findIdx?_getElem?.symm.trans found)

theorem find?_of_findIdx? (found : list.findIdx? passes = some index) :
    ∃ old, list[index]? = some old ∧ list.find? passes = some old := by
  obtain ⟨inside, -⟩ := findIdx?_eq_some_iff_getElem.mp found
  refine ⟨list[index], getElem?_eq_getElem inside, ?_⟩
  rw [find?_eq_bind_findIdx?_getElem?, found, Option.bind_some, getElem?_eq_getElem]

/-- The last match and its index, searched from the end. -/
theorem find?_reverse_eq_bind (passes : α → Bool) (list : List α) : list.reverse.find? passes =
      ((list.zipIdx.reverse.find? fun entry => passes entry.1).map Prod.snd).bind (list[·]?) := by
  have numbered : list.reverse = list.zipIdx.reverse.map Prod.fst := by
    rw [map_reverse, zipIdx_map_fst]
  rw [numbered, find?_map]
  change (list.zipIdx.reverse.find? fun entry => passes entry.1).map _ = _
  cases found : list.zipIdx.reverse.find? fun entry => passes entry.1 with
  | none => rfl
  | some entry =>
    have member := mem_of_find?_eq_some found
    have atIndex := mem_zipIdx_iff_getElem?.mp (mem_reverse.mp member)
    simpa using atIndex.symm

/-- What is written over the first match is the first match. -/
theorem find?_set_same (found : list.findIdx? passes = some index) (holds : passes new = true) :
    (list.set index new).find? passes = some new := by
  obtain ⟨inside, -, first⟩ := findIdx?_eq_some_iff_getElem.mp found
  have insideSet : index < (list.set index new).length := by
    rwa [length_set]
  refine find?_eq_some_iff_getElem.mpr ⟨holds, index, insideSet, getElem_set_self insideSet, ?_⟩
  intro earlier isEarlier
  rw [getElem_set_ne (Nat.ne_of_gt isEarlier)]
  simpa using first earlier isEarlier

/-- A test that neither element passes finds what it found before. -/
theorem find?_set_other (atIndex : list[index]? = some old) (notOld : other old = false)
    (notNew : other new = false) : (list.set index new).find? other = list.find? other := by
  induction list generalizing index with
  | nil => rfl
  | cons head tail inductionHypothesis =>
    cases index with
    | zero =>
      cases atIndex
      simp [notOld, notNew]
    | succ index =>
      rw [set_cons_succ, find?_cons, find?_cons]
      rw [inductionHypothesis atIndex]

end FirstMatch
