import Mathlib.Data.List.Basic
import Mathlib.Data.List.Induction

/-!
# Words read from the end of a text

Words are printed one after the other with a separator between them. When the last word of a
text can always be told from what stands in front of it, the text has one reading only,
although a reader that starts at the front may have to look ahead.
-/

namespace SeparatedWords

open List

variable {Letter Word : Type} {separator : Letter} {print : Word → List Letter}

/-- Nothing, or a text that ends with the separator. -/
def Closed (separator : Letter) (text : List Letter) : Prop :=
  text = [] ∨ ∃ earlier, text = earlier ++ [separator]

/-- A word at the end of a text is told from the closed text in front of it. -/
def ReadFromEnd (separator : Letter) (print : Word → List Letter) : Prop :=
  ∀ ⦃start before word other⦄, Closed separator start → Closed separator before →
    start ++ print word = before ++ print other → start = before ∧ word = other

/-- Every word with a separator behind it. -/
def terminated (separator : Letter) (print : Word → List Letter) (words : List Word) :
    List Letter :=
  words.flatMap fun word => print word ++ [separator]

theorem terminated_concat (words : List Word) (word : Word) :
    terminated separator print (words ++ [word]) =
      terminated separator print words ++ print word ++ [separator] := by
  simp [terminated, flatMap_append]

theorem closed_terminated (words : List Word) :
    Closed separator (terminated separator print words) := by
  induction words using reverseRecOn with
  | nil => exact Or.inl rfl
  | append_singleton words word _ => exact Or.inr ⟨_, terminated_concat words word⟩

theorem intercalate_append_separator {words : List Word} (nonempty : words ≠ []) :
    [separator].intercalate (words.map print) ++ [separator] =
      terminated separator print words := by
  induction words with
  | nil => exact absurd rfl nonempty
  | cons word rest inductionHypothesis =>
    cases rest with
    | nil => simp [terminated]
    | cons next later =>
      have behind := inductionHypothesis (cons_ne_nil next later)
      rw [map_cons, map_cons, intercalate_cons_cons, append_assoc, append_assoc, ← map_cons, behind]
      simp [terminated]

/-- Terminated words are read word by word from the end. -/
theorem terminated_injective (reads : ReadFromEnd separator print) :
    Function.Injective (terminated separator print) := by
  intro words others same
  induction words using reverseRecOn generalizing others with
  | nil =>
    rcases eq_nil_or_concat others with rfl | ⟨before, last, rfl⟩
    · rfl
    · rw [concat_eq_append, terminated_concat] at same
      simp [terminated] at same
  | append_singleton words word inductionHypothesis =>
    rcases eq_nil_or_concat others with rfl | ⟨before, last, rfl⟩
    · rw [terminated_concat] at same
      simp [terminated] at same
    · rw [concat_eq_append] at same ⊢
      rw [terminated_concat, terminated_concat] at same
      obtain ⟨sameStart, sameWord⟩ :=
        reads (closed_terminated words) (closed_terminated before) (append_cancel_right same)
      rw [inductionHypothesis sameStart, sameWord]

/-- Lists of words with the same text are the same list. -/
theorem eq_of_intercalate (reads : ReadFromEnd separator print) {words others : List Word}
    (wordsNonempty : words ≠ []) (othersNonempty : others ≠ [])
    (same : [separator].intercalate (words.map print) =
      [separator].intercalate (others.map print)) : words = others := by
  refine terminated_injective reads ?_
  rw [← intercalate_append_separator wordsNonempty, same,
    intercalate_append_separator othersNonempty]

end SeparatedWords
