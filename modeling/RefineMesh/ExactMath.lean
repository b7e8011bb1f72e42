import Mathlib.Tactic
import Mathlib.Analysis.Real.Sqrt

/-!
# Exact arithmetic

The numbers of the source are doubles.  What is said of its algebra is said of
the same operations in an ordered field, with a square root where the source
takes one.
-/

namespace RefineMesh

-- the numeral of the scale
local instance atLeastTwo_ten_math : Nat.AtLeastTwo 10 := ⟨by decide⟩

/-- The square root of exact arithmetic. -/
class ExactSqrt (K : Type) [Field K] [LinearOrder K] where
  sqrt : K → K
  sqrt_nonneg : ∀ x, 0 ≤ sqrt x
  sqrt_mul_self : ∀ x, 0 ≤ x → sqrt x * sqrt x = x

/-- Arithmetic on the real numbers. -/
noncomputable instance exactSqrtReal : ExactSqrt ℝ where
  sqrt := Real.sqrt
  sqrt_nonneg := Real.sqrt_nonneg
  sqrt_mul_self := fun _ hx => Real.mul_self_sqrt hx

variable {K : Type} [Field K] [LinearOrder K]

/-- `ref_math_divisible`. -/
def mathDivisible (n d : K) : Prop := |n| < |10 ^ 20 * d|

instance (n d : K) : Decidable (mathDivisible n d) := inferInstanceAs (Decidable (_ < _))

theorem mathDivisible.ne_zero [IsStrictOrderedRing K] {n d : K} (h : mathDivisible n d) :
    d ≠ 0 := by
  rintro rfl
  rw [mathDivisible, mul_zero, abs_zero] at h
  exact absurd h (not_lt.mpr (abs_nonneg n))

end RefineMesh
