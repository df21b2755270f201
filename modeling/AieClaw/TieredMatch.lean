import Mathlib.Data.List.Infix
import Mathlib.Order.Nat

/-!
# First matches

The first item of a list that meets a condition can be looked up in any part of
the list that holds the items that meet it, as an index does. Conditions may be
tried tier after tier, and two parts of a list can be merged back into its order.
-/

namespace TieredMatch

open List

universe u v

variable {Item : Type u} {Tag : Type v}

theorem find?_filter_of_imp {keep condition : Item → Bool} {items : List Item}
    (keeps : ∀ item ∈ items, condition item = true → keep item = true) :
    (items.filter keep).find? condition = items.find? condition := by
  rw [find?_filter]
  induction items with
  | nil => rfl
  | cons item rest inductionHypothesis =>
    have later := inductionHypothesis fun other member =>
      keeps other (.tail item member)
    have here := keeps item mem_cons_self
    cases meets : condition item with
    | false =>
      rw [find?_cons_of_neg (by simp [meets]), find?_cons_of_neg (by simp [meets]), later]
    | true =>
      rw [find?_cons_of_pos (by simp [meets, here meets]), find?_cons_of_pos meets]

/-- Two separate parts of a ranked list merge into the part of both. -/
theorem merge_filter {rank : Item → ℕ} {first second : Item → Bool} {items : List Item}
    (ranked : items.Pairwise fun a b => rank a < rank b)
    (separate : ∀ item ∈ items, first item = true → second item = false) :
    List.merge (items.filter first) (items.filter second) (fun a b => decide (rank a ≤ rank b)) =
      items.filter fun item => first item || second item := by
  induction items with
  | nil => simp
  | cons item rest inductionHypothesis =>
    have fromItem := (pairwise_cons.mp ranked).1
    have later := inductionHypothesis (pairwise_cons.mp ranked).2
      fun other member => separate other (.tail item member)
    cases inFirst : first item with
    | true =>
      have notSecond := separate item mem_cons_self inFirst
      rw [filter_cons_of_pos inFirst, filter_cons_of_neg (by simp [notSecond]),
        filter_cons_of_pos (by simp [inFirst])]
      cases isPart : rest.filter second with
      | nil => rw [← later, isPart]; simp
      | cons other others =>
        have member : other ∈ rest := mem_of_mem_filter (isPart ▸ mem_cons_self)
        rw [cons_merge_cons_pos _ _ _
          (decide_eq_true (Nat.le_of_lt (fromItem other member))), ← isPart, later]
    | false =>
      rw [filter_cons_of_neg (by simp [inFirst])]
      cases inSecond : second item with
      | false =>
        rw [filter_cons_of_neg (by simp [inSecond]),
          filter_cons_of_neg (by simp [inFirst, inSecond]), later]
      | true =>
        rw [filter_cons_of_pos inSecond, filter_cons_of_pos (by simp [inSecond])]
        cases isPart : rest.filter first with
        | nil => rw [← later, isPart]; simp
        | cons other others =>
          have member : other ∈ rest := mem_of_mem_filter (isPart ▸ mem_cons_self)
          have after : ¬rank other ≤ rank item := Nat.not_le_of_lt (fromItem other member)
          rw [cons_merge_cons_neg _ _ _ (by simpa using after), ← isPart, later]

/-- A condition to be tried before those of the tiers after it. -/
structure Tier (Tag : Type v) (Item : Type u) where
  tag : Tag
  condition : Item → Bool

/-- The first item of the first tier whose condition some item meets. -/
def firstInTiers (items : List Item) : List (Tier Tag Item) → Option (Tag × Item)
  | [] => none
  | tier :: rest =>
    ((items.find? tier.condition).map fun item => (tier.tag, item)) <|> firstInTiers items rest

/-- A tier with the candidates that an index gives it. -/
structure IndexedTier (Tag : Type v) (Item : Type u) extends Tier Tag Item where
  enabled : Bool
  candidates : List Item

def IndexedTier.find? (tier : IndexedTier Tag Item) : Option Item :=
  if tier.enabled then tier.candidates.find? tier.condition else none

def firstIndexed : List (IndexedTier Tag Item) → Option (Tag × Item)
  | [] => none
  | tier :: rest => (tier.find?.map fun item => (tier.tag, item)) <|> firstIndexed rest

/-- Every tier finds the first item, where the tiers before it found none. -/
def Covered (items : List Item) : List (IndexedTier Tag Item) → Prop
  | [] => True
  | tier :: rest =>
    tier.find? = items.find? tier.condition ∧
      (items.find? tier.condition = none → Covered items rest)

theorem firstIndexed_eq {items : List Item} {tiers : List (IndexedTier Tag Item)}
    (covered : Covered items tiers) :
    firstIndexed tiers = firstInTiers items (tiers.map IndexedTier.toTier) := by
  induction tiers with
  | nil => rfl
  | cons tier rest inductionHypothesis =>
    obtain ⟨finds, later⟩ := covered
    rw [firstIndexed, map_cons, firstInTiers, finds]
    cases found : items.find? tier.condition with
    | some item => rfl
    | none => exact inductionHypothesis (later found)

end TieredMatch
