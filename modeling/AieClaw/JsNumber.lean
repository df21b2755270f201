import Mathlib.Data.Rat.Floor

/-!
# Numbers of the host language

A number is a finite rational, one of the two infinities, or `nan`. Comparisons
with `nan` are false on both sides; `max` is `nan` as soon as one argument is.
-/

/-- A number with the infinities and the value that compares with nothing. -/
inductive JsNumber where
  | nan
  | negInfinity
  | finite (value : ℚ)
  | infinity
  deriving DecidableEq

namespace JsNumber

/-- An integer as a number. -/
def ofInt (value : ℤ) : JsNumber := .finite value

instance (value : Nat) : OfNat JsNumber value :=
  ⟨.finite value⟩

/-- Strict comparison; false when either side is `nan`. -/
def lt : JsNumber → JsNumber → Bool
  | .nan, _ => false
  | _, .nan => false
  | .infinity, _ => false
  | _, .negInfinity => false
  | .negInfinity, _ => true
  | _, .infinity => true
  | .finite left, .finite right => decide (left < right)

/-- Weak comparison; false when either side is `nan`. -/
def le : JsNumber → JsNumber → Bool
  | .nan, _ => false
  | _, .nan => false
  | .negInfinity, _ => true
  | _, .infinity => true
  | .infinity, _ => false
  | _, .negInfinity => false
  | .finite left, .finite right => decide (left ≤ right)

/-- Whether the number is neither infinite nor `nan`. -/
def isFinite : JsNumber → Bool
  | .finite _ => true
  | _ => false

/-- Round down; the infinities and `nan` are unchanged. -/
def floor : JsNumber → JsNumber
  | .finite value => .finite ⌊value⌋
  | other => other

/-- The larger number, or `nan` when either argument is. -/
def max : JsNumber → JsNumber → JsNumber
  | .nan, _ => .nan
  | _, .nan => .nan
  | left, right => if lt left right then right else left

theorem lt_eq_false_iff_le {left right : JsNumber} (leftNumeric : left ≠ .nan)
    (rightNumeric : right ≠ .nan) : lt left right = false ↔ le right left = true := by
  cases left <;> cases right <;> simp_all [lt, le]

theorem floor_ne_nan {number : JsNumber} (numeric : number ≠ .nan) : floor number ≠ .nan := by
  cases number <;> simp_all [floor]

theorem max_ne_nan {left right : JsNumber} (leftNumeric : left ≠ .nan)
    (rightNumeric : right ≠ .nan) : max left right ≠ .nan := by
  unfold max
  split
  · contradiction
  · contradiction
  · split
    · exact rightNumeric
    · exact leftNumeric

end JsNumber
