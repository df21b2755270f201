import Mathlib.Data.List.Infix

/-!
# Addresses in trees

A tree is read one step at a time; an address is a list of steps. A lens also
writes one child. The laws of one step carry over to whole addresses: a
replacement succeeds exactly where the address leads somewhere.
-/

namespace AddressTree

universe u v

variable {Node : Type u} {Step : Type v}

/-- The node at the end of an address. -/
def follow (child? : Node → Step → Option Node) : Node → List Step → Option Node
  | node, [] => some node
  | node, step :: rest => (child? node step).bind fun child => follow child? child rest

section Follow

variable {child? : Node → Step → Option Node}

@[simp] theorem follow_nil (node : Node) : follow child? node [] = some node := rfl

theorem follow_cons_eq_some_iff {node finish : Node} {step : Step} {rest : List Step} :
    follow child? node (step :: rest) = some finish ↔ ∃ child, child? node step = some child ∧
        follow child? child rest = some finish := by
  simp [follow, Option.bind_eq_some_iff]

end Follow

/-- A tree whose children are read and written one at a time. -/
structure Lens (Node : Type u) (Step : Type v) where
  child? : Node → Step → Option Node
  setChild : Node → Step → Node → Node
  child?_setChild_same :
    ∀ {node child : Node} {step : Step},
      child? node step = some child →
      ∀ written, child? (setChild node step written) step = some written
  child?_setChild_other :
    ∀ {node child : Node} {step : Step},
      child? node step = some child →
      ∀ written {other : Step}, other ≠ step →
        child? (setChild node step written) other = child? node other

namespace Lens

variable {lens : Lens Node Step}

/-- The tree with the node at an address replaced. -/
def replace (lens : Lens Node Step) : Node → List Step → Node → Option Node
  | _, [], written => some written
  | node, step :: rest, written =>
    (lens.child? node step).bind fun child =>
      (replace lens child rest written).map (lens.setChild node step)

theorem replace_cons_eq_some_iff {node written result : Node} {step : Step} {rest : List Step} :
    lens.replace node (step :: rest) written = some result ↔
      ∃ child replaced, lens.child? node step = some child ∧
        lens.replace child rest written = some replaced ∧
        lens.setChild node step replaced = result := by
  simp [replace, Option.bind_eq_some_iff, Option.map_eq_some_iff]

theorem isSome_replace (node written : Node) (address : List Step) :
    (lens.replace node address written).isSome = (follow lens.child? node address).isSome := by
  induction address generalizing node with
  | nil => rfl
  | cons step rest inductionHypothesis =>
    cases read : lens.child? node step with
    | none => simp [replace, follow, read]
    | some child => simp [replace, follow, read, inductionHypothesis]

end Lens

end AddressTree
