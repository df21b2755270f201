import Mathlib.Data.List.Basic

/-!
# Glob patterns

In a pattern one symbol is wild: it stands for any run of symbols that it may cross, the
empty run among them. Every other symbol stands for itself. The test tries all runs; the
relation says which texts a pattern stands for without saying how they are found.
-/

namespace GlobPatterns

open List

universe u

variable {Symbol : Type u}

/-- The rests of a text behind its leading runs of symbols that may be crossed. -/
def restsAfter (crosses : Symbol → Bool) : List Symbol → List (List Symbol)
  | [] => [[]]
  | symbol :: rest => (symbol :: rest) :: if crosses symbol then restsAfter crosses rest else []

/-- The texts that a pattern stands for. -/
inductive StandsFor (wild : Symbol) (crosses : Symbol → Bool) :
    List Symbol → List Symbol → Prop where
  | nil : StandsFor wild crosses [] []
  | literal {symbol : Symbol} {pattern text : List Symbol} :
      symbol ≠ wild →
        StandsFor wild crosses pattern text →
          StandsFor wild crosses (symbol :: pattern) (symbol :: text)
  | run {crossed pattern text : List Symbol} :
      (∀ symbol ∈ crossed, crosses symbol = true) →
        StandsFor wild crosses pattern text →
          StandsFor wild crosses (wild :: pattern) (crossed ++ text)

theorem mem_restsAfter {crosses : Symbol → Bool} {text rest : List Symbol} :
    rest ∈ restsAfter crosses text ↔
      ∃ crossed, text = crossed ++ rest ∧ ∀ symbol ∈ crossed, crosses symbol = true := by
  induction text with
  | nil =>
    simp only [restsAfter, mem_singleton, nil_eq, append_eq_nil_iff]
    constructor
    · rintro rfl
      exact ⟨[], ⟨rfl, rfl⟩, by simp⟩
    · rintro ⟨crossed, ⟨-, isEmpty⟩, -⟩
      exact isEmpty
  | cons first later inductionHypothesis =>
    rw [restsAfter, mem_cons]
    constructor
    · rintro (rfl | behind)
      · exact ⟨[], rfl, by simp⟩
      · by_cases mayCross : crosses first = true
        · rw [if_pos mayCross, inductionHypothesis] at behind
          obtain ⟨crossed, rfl, allCrossed⟩ := behind
          refine ⟨first :: crossed, rfl, ?_⟩
          intro symbol member
          rcases mem_cons.mp member with rfl | inRun
          · exact mayCross
          · exact allCrossed symbol inRun
        · rw [if_neg mayCross] at behind
          exact absurd behind not_mem_nil
    · rintro ⟨crossed, split, allCrossed⟩
      cases crossed with
      | nil => exact Or.inl split.symm
      | cons symbol others =>
        obtain ⟨rfl, rfl⟩ := List.cons.inj split
        right
        rw [if_pos (allCrossed first mem_cons_self), inductionHypothesis]
        exact ⟨others, rfl, fun other member =>
          allCrossed other (.tail first member)⟩

section Test

variable [DecidableEq Symbol]

/-- Whether a pattern stands for a text, by trying every run. -/
def test (wild : Symbol) (crosses : Symbol → Bool) : List Symbol → List Symbol → Bool
  | [], text => text.isEmpty
  | symbol :: pattern, text =>
    if symbol = wild then (restsAfter crosses text).any (test wild crosses pattern)
    else
      match text with
      | [] => false
      | first :: rest => decide (symbol = first) && test wild crosses pattern rest

theorem test_cons_wild (wild : Symbol) (crosses : Symbol → Bool) (pattern text : List Symbol) :
    test wild crosses (wild :: pattern) text =
      (restsAfter crosses text).any (test wild crosses pattern) := by
  rw [test.eq_def]
  exact if_pos rfl

theorem test_cons_nil {wild symbol : Symbol} (notWild : symbol ≠ wild)
    (crosses : Symbol → Bool) (pattern : List Symbol) :
    test wild crosses (symbol :: pattern) [] = false := by
  rw [test.eq_def]
  exact if_neg notWild

theorem test_cons_cons {wild symbol : Symbol} (notWild : symbol ≠ wild)
    (crosses : Symbol → Bool) (first : Symbol) (pattern rest : List Symbol) :
    test wild crosses (symbol :: pattern) (first :: rest) =
      (decide (symbol = first) && test wild crosses pattern rest) := by
  rw [test.eq_def]
  exact if_neg notWild

/-- The test decides the relation. -/
theorem test_eq_true_iff {wild : Symbol} {crosses : Symbol → Bool} {pattern text : List Symbol} :
    test wild crosses pattern text = true ↔ StandsFor wild crosses pattern text := by
  induction pattern generalizing text with
  | nil =>
    rw [test, List.isEmpty_iff]
    constructor
    · rintro rfl
      exact .nil
    · intro stands
      cases stands
      rfl
  | cons symbol pattern inductionHypothesis =>
    by_cases isWild : symbol = wild
    · subst isWild
      rw [test_cons_wild, any_eq_true]
      constructor
      · rintro ⟨rest, behind, matched⟩
        obtain ⟨crossed, rfl, allCrossed⟩ := mem_restsAfter.mp behind
        exact .run allCrossed (inductionHypothesis.mp matched)
      · intro stands
        cases stands with
        | literal notWild => exact absurd rfl notWild
        | run allCrossed behind =>
          exact ⟨_, mem_restsAfter.mpr ⟨_, rfl, allCrossed⟩, inductionHypothesis.mpr behind⟩
    · cases text with
      | nil =>
        rw [test_cons_nil isWild]
        refine ⟨fun impossible => Bool.noConfusion impossible, ?_⟩
        intro stands
        generalize isEmpty : ([] : List Symbol) = text at stands
        cases stands with
        | literal => cases isEmpty
        | run => exact absurd rfl isWild
      | cons first rest =>
        rw [test_cons_cons isWild, Bool.and_eq_true, decide_eq_true_eq, inductionHypothesis]
        constructor
        · rintro ⟨rfl, behind⟩
          exact .literal isWild behind
        · intro stands
          generalize isText : first :: rest = text at stands
          cases stands with
          | literal _ behind =>
            obtain ⟨rfl, rfl⟩ := List.cons.inj isText
            exact ⟨rfl, behind⟩
          | run => exact absurd rfl isWild

end Test

section StandsFor

variable {wild : Symbol} {crosses : Symbol → Bool} {pattern text : List Symbol}

theorem standsFor_self (mayCross : crosses wild = true) (text : List Symbol) :
    StandsFor wild crosses text text := by
  induction text with
  | nil => exact .nil
  | cons symbol rest inductionHypothesis =>
    by_cases isWild : symbol = wild
    · subst isWild
      have single : ∀ crossed ∈ [symbol], crosses crossed = true := by simpa using mayCross
      exact .run single inductionHypothesis
    · exact .literal isWild inductionHypothesis

theorem standsFor_wild (text : List Symbol) : StandsFor wild (fun _ => true) [wild] text := by
  have all : StandsFor wild (fun _ => true) [wild] (text ++ []) := .run (by simp) .nil
  rwa [append_nil] at all

theorem StandsFor.weaken {wider : Symbol → Bool} (stands : StandsFor wild crosses pattern text)
    (widens : ∀ symbol, crosses symbol = true → wider symbol = true) :
    StandsFor wild wider pattern text := by
  induction stands with
  | nil => exact .nil
  | literal notWild _ inductionHypothesis => exact .literal notWild inductionHypothesis
  | run allCrossed _ inductionHypothesis =>
    exact .run (fun symbol member => widens symbol (allCrossed symbol member)) inductionHypothesis

theorem StandsFor.strengthen {wider : Symbol → Bool} (stands : StandsFor wild wider pattern text)
    (mayCross : ∀ symbol ∈ text, crosses symbol = true) : StandsFor wild crosses pattern text := by
  induction stands with
  | nil => exact .nil
  | literal notWild _ inductionHypothesis =>
    exact .literal notWild (inductionHypothesis fun symbol member =>
      mayCross symbol (.tail _ member))
  | run _ _ inductionHypothesis =>
    exact .run (fun symbol member => mayCross symbol (mem_append_left _ member))
      (inductionHypothesis fun symbol member => mayCross symbol (mem_append_right _ member))

theorem StandsFor.eq_of_not_mem
    (stands : StandsFor wild crosses pattern text) (plain : wild ∉ pattern) : pattern = text := by
  induction stands with
  | nil => rfl
  | literal _ _ inductionHypothesis =>
    rw [inductionHypothesis fun member => plain (.tail _ member)]
  | run => exact absurd mem_cons_self plain

end StandsFor

end GlobPatterns
