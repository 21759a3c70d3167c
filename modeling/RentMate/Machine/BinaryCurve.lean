/-
Module: RentMate.Machine.BinaryCurve
Purpose: The group law of the curves `y^2 + x*y = x^3 + a*x^2 + b` over fields of characteristic
  two, in the formulas that programs use, and multiples by doubling and adding.
Trusted boundary: human-reviewed spec
Main exports: binaryCurve, coordinates, coordinates_injective, coordinates_double,
  coordinates_add, shiftRight_nsmul
-/
import Mathlib.AlgebraicGeometry.EllipticCurve.Affine.Point
import Mathlib.Algebra.CharP.Two
import Mathlib.Tactic.LinearCombination
import Mathlib.Data.Nat.Bitwise

namespace RentMate.Machine

open WeierstrassCurve

variable {F : Type} [Field F]

/-- The curve `y^2 + x*y = x^3 + a*x^2 + b`. -/
def binaryCurve (a b : F) : Affine F :=
  { a₁ := 1
    a₂ := a
    a₃ := 0
    a₄ := 0
    a₆ := b }

/-- The coordinates of a point, and zeros for the point at infinity. -/
def coordinates {a b : F} : (binaryCurve a b).Point → F × F
  | .zero => (0, 0)
  | .some x y _ => (x, y)

@[simp] theorem coordinates_zero {a b : F} : coordinates (0 : (binaryCurve a b).Point) = (0, 0) :=
  rfl

@[simp] theorem coordinates_some {a b x y : F} (onCurve : (binaryCurve a b).Nonsingular x y) :
    coordinates (.some x y onCurve) = (x, y) := rfl

section Curve

variable {a b x y x₁ x₂ y₁ y₂ : F}

/-- The equation of the curve, written out. -/
theorem equation_binaryCurve :
    (binaryCurve a b).Equation x y ↔ y ^ 2 + x * y = x ^ 3 + a * x ^ 2 + b := by
  rw [Affine.equation_iff]
  simp [binaryCurve]

variable [CharP F 2]

/-- The negative of a point has the sum of both coordinates as its second one. -/
theorem negY_binaryCurve : (binaryCurve a b).negY x y = x + y := by
  simp only [Affine.negY, binaryCurve, one_mul, CharTwo.neg_eq, CharTwo.sub_eq_add, add_zero]
  exact add_comm y x

/-- A curve whose last coefficient is not zero has no singular points. -/
theorem nonsingular_binaryCurve (begun : b ≠ 0) :
    (binaryCurve a b).Nonsingular x y ↔ y ^ 2 + x * y = x ^ 3 + a * x ^ 2 + b := by
  rw [Affine.nonsingular_iff, equation_binaryCurve]
  constructor
  · exact And.left
  · intro equation
    refine ⟨equation, ?_⟩
    by_cases vertical : x = 0
    · left
      rintro same
      subst vertical
      have zero : y = 0 := by simpa [binaryCurve] using same
      subst zero
      exact begun (by simpa using equation.symm)
    · right
      intro same
      have negated : y = x + y := same.trans negY_binaryCurve
      exact vertical (by simpa using negated)

/-- The coordinates of the negative of a point. -/
theorem coordinates_neg {onCurve : (binaryCurve a b).Nonsingular x y} :
    coordinates (-Affine.Point.some x y onCurve) = (x, x + y) := by
  rw [Affine.Point.neg_some, coordinates_some, negY_binaryCurve]

/-- The pair of zeros is not on the curve, so it can stand for the point at infinity. -/
theorem origin_outside (begun : b ≠ 0) : ¬ (binaryCurve a b).Nonsingular 0 0 := by
  rw [nonsingular_binaryCurve begun]
  intro equation
  exact begun (by simpa using equation.symm)

/-- No point has the coordinates of the point at infinity. -/
theorem coordinates_injective (begun : b ≠ 0) {P Q : (binaryCurve a b).Point}
    (same : coordinates P = coordinates Q) : P = Q := by
  cases P with
  | zero =>
      cases Q with
      | zero => rfl
      | some x y onCurve =>
          obtain ⟨rfl, rfl⟩ := Prod.mk.inj same
          exact absurd onCurve (origin_outside begun)
  | some x y onCurve =>
      cases Q with
      | zero =>
          obtain ⟨rfl, rfl⟩ := Prod.mk.inj same
          exact absurd onCurve (origin_outside begun)
      | some x' y' onCurve' =>
          obtain ⟨rfl, rfl⟩ := Prod.mk.inj same
          rfl

variable [DecidableEq F]

/-- A point with a vertical tangent is its own opposite. -/
theorem double_of_vertical {onCurve : (binaryCurve a b).Nonsingular 0 y} :
    Affine.Point.some 0 y onCurve + Affine.Point.some 0 y onCurve = 0 :=
  Affine.Point.add_self_of_Y_eq (by rw [negY_binaryCurve, zero_add])

/-- The tangent in any other point gives its double. -/
theorem coordinates_double {l : F} {onCurve : (binaryCurve a b).Nonsingular x y}
    (begun : x ≠ 0) (tangent : l * x = x ^ 2 + y) :
    coordinates (Affine.Point.some x y onCurve + Affine.Point.some x y onCurve) =
      (l ^ 2 + l + a, x ^ 2 + (l + 1) * (l ^ 2 + l + a)) := by
  have two : (2 : F) = 0 := CharTwo.two_eq_zero
  have apart : y ≠ (binaryCurve a b).negY x y := by
    rw [negY_binaryCurve]
    intro same
    exact begun (by simpa using same)
  have slope : (binaryCurve a b).slope x x y y = l := by
    have denominator : y - (x + y) ≠ 0 := by
      rw [sub_add_cancel_right]
      exact neg_ne_zero.mpr begun
    rw [Affine.slope_of_Y_ne rfl apart, negY_binaryCurve, div_eq_iff denominator]
    simp only [binaryCurve]
    linear_combination tangent + (2 * x ^ 2 + a * x) * two
  rw [Affine.Point.add_self_of_Y_ne apart]
  simp only [coordinates]
  rw [slope]
  simp only [Affine.addX, Affine.addY, Affine.negAddY, Affine.negY, binaryCurve, Prod.mk.injEq]
  constructor
  · linear_combination (-a - x) * two
  · linear_combination tangent - (l + 1) * (l ^ 2 + l - x) * two

omit [CharP F 2] in
/-- Two points above one another have no sum but the point at infinity. -/
theorem add_of_above {first : (binaryCurve a b).Nonsingular x y₁}
    {second : (binaryCurve a b).Nonsingular x y₂} (apart : y₁ ≠ y₂) :
    Affine.Point.some x y₁ first + Affine.Point.some x y₂ second = 0 := by
  apply Affine.Point.add_of_Y_eq rfl
  rcases Affine.Y_eq_of_X_eq first.1 second.1 rfl with same | opposite
  · exact absurd same apart
  · exact opposite

/-- The line through two points that are not above one another. -/
theorem coordinates_add {l : F} {first : (binaryCurve a b).Nonsingular x₁ y₁}
    {second : (binaryCurve a b).Nonsingular x₂ y₂} (apart : x₁ ≠ x₂)
    (line : l * (x₁ + x₂) = y₁ + y₂) :
    coordinates (Affine.Point.some x₁ y₁ first + Affine.Point.some x₂ y₂ second) =
      (l ^ 2 + l + (x₁ + x₂) + a,
        y₁ + (l * (x₁ + (l ^ 2 + l + (x₁ + x₂) + a)) + (l ^ 2 + l + (x₁ + x₂) + a))) := by
  have two : (2 : F) = 0 := CharTwo.two_eq_zero
  have slope : (binaryCurve a b).slope x₁ x₂ y₁ y₂ = l := by
    rw [Affine.slope_of_X_ne apart, div_eq_iff (sub_ne_zero.mpr apart)]
    linear_combination -line + (l * x₂ - y₂) * two
  rw [Affine.Point.add_some (fun same => apart same.1)]
  simp only [coordinates]
  rw [slope]
  simp only [Affine.addX, Affine.addY, Affine.negAddY, Affine.negY, binaryCurve, Prod.mk.injEq]
  constructor
  · linear_combination (-a - x₁ - x₂) * two
  · linear_combination (-(l + 1) * (l ^ 2 + l) - y₁) * two

end Curve

/-! ### Doubling and adding -/

/-- The multiple by the bits of a number from `i` on comes from the one by the bits above. -/
theorem shiftRight_nsmul {M : Type} [AddMonoid M] (P : M) (number i : Nat) :
    (number >>> i) • P =
      (number >>> (i + 1)) • P + (number >>> (i + 1)) • P + if number.testBit i then P else 0 := by
  have halves : number >>> i = number >>> (i + 1) + number >>> (i + 1) +
      (number.testBit i).toNat := by
    rw [Nat.toNat_testBit, Nat.shiftRight_eq_div_pow, Nat.shiftRight_eq_div_pow, pow_succ,
      ← Nat.div_div_eq_div_mul]
    omega
  rw [halves, add_nsmul, add_nsmul]
  cases number.testBit i <;> simp

end RentMate.Machine
