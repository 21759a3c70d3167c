/-
Module: RentMate.Machine.ProjectiveCurve
Purpose: Multiples on the curves `y^2 + x*y = x^3 + a*x^2 + b` without divisions: points as triples
  over a common denominator, for certificates that are worked out on packed numbers.
Trusted boundary: human-reviewed spec
Main exports: ProjectivePoint, ProjectivePoint.double, ProjectivePoint.add, ProjectivePoint.Lifts,
  ladder, ladder_ok
-/
import RentMate.Machine.BinaryCurve

namespace RentMate.Machine

open WeierstrassCurve

/-- The coordinates `x / z` and `y / z ^ 2`. -/
structure ProjectivePoint (α : Type) where
  x : α
  y : α
  z : α

namespace ProjectivePoint

section Formulas

variable {α β : Type} [Mul α] [Add α] [Mul β] [Add β]

def double (a b : α) (point : ProjectivePoint α) : ProjectivePoint α :=
  let xx := point.x * point.x
  let zz := point.z * point.z
  let bzz := b * (zz * zz)
  let z := xx * zz
  let x := xx * xx + bzz
  { x := x
    y := bzz * z + x * (a * z + point.y * point.y + bzz)
    z := z }

/-- What is zero when the other point lies above or below. -/
def distance (point : ProjectivePoint α) (x₂ : α) : α := point.x + x₂ * point.z

def rise (point : ProjectivePoint α) (y₂ : α) : α := point.y + y₂ * (point.z * point.z)

/-- The sum with a point whose denominator is one. -/
def add (a : α) (point : ProjectivePoint α) (x₂ y₂ : α) : ProjectivePoint α :=
  let rise := point.rise y₂
  let run := point.distance x₂
  let scale := point.z * run
  let z := scale * scale
  let x := rise * rise + scale * (rise + run * run + a * scale)
  { x := x
    y := rise * scale * (x₂ * z + x) + x * z + y₂ * (z * z)
    z := z }

/-- Two triples whose parts are related. -/
structure Related (related : α → β → Prop) (one : ProjectivePoint α) (other : ProjectivePoint β) :
    Prop where
  x : related one.x other.x
  y : related one.y other.y
  z : related one.z other.z

variable {related : α → β → Prop} {one : ProjectivePoint α} {other : ProjectivePoint β}
  {a b x₂ y₂ : α} {a' b' x₂' y₂' : β}

/-- Doubling respects a relation that addition and multiplication respect. -/
theorem Related.double (relatedMul : ∀ {s t s' t'}, related s s' → related t t' →
      related (s * t) (s' * t'))
    (relatedAdd : ∀ {s t s' t'}, related s s' → related t t' → related (s + t) (s' + t'))
    (relatedA : related a a') (relatedB : related b b') (both : Related related one other) :
    Related related (one.double a b) (other.double a' b') := by
  obtain ⟨x, y, z⟩ := both
  have xx := relatedMul x x
  have zz := relatedMul z z
  have bzz := relatedMul relatedB (relatedMul zz zz)
  have newZ := relatedMul xx zz
  have newX := relatedAdd (relatedMul xx xx) bzz
  exact ⟨newX, relatedAdd (relatedMul bzz newZ) (relatedMul newX
    (relatedAdd (relatedAdd (relatedMul relatedA newZ) (relatedMul y y)) bzz)), newZ⟩

/-- So does the difference of the first coordinates. -/
theorem Related.distance (relatedMul : ∀ {s t s' t'}, related s s' → related t t' →
      related (s * t) (s' * t'))
    (relatedAdd : ∀ {s t s' t'}, related s s' → related t t' → related (s + t) (s' + t'))
    (both : Related related one other) (relatedX : related x₂ x₂') :
    related (one.distance x₂) (other.distance x₂') :=
  relatedAdd both.x (relatedMul relatedX both.z)

/-- Mixed addition respects the relation too. -/
theorem Related.add (relatedMul : ∀ {s t s' t'}, related s s' → related t t' →
      related (s * t) (s' * t'))
    (relatedAdd : ∀ {s t s' t'}, related s s' → related t t' → related (s + t) (s' + t'))
    (relatedA : related a a') (relatedX : related x₂ x₂') (relatedY : related y₂ y₂')
    (both : Related related one other) :
    Related related (one.add a x₂ y₂) (other.add a' x₂' y₂') := by
  have rise := relatedAdd both.y (relatedMul relatedY (relatedMul both.z both.z))
  have run := both.distance relatedMul relatedAdd relatedX
  have scale := relatedMul both.z run
  have newZ := relatedMul scale scale
  have newX := relatedAdd (relatedMul rise rise) (relatedMul scale
    (relatedAdd (relatedAdd rise (relatedMul run run)) (relatedMul relatedA scale)))
  exact ⟨newX, relatedAdd (relatedAdd (relatedMul (relatedMul rise scale)
    (relatedAdd (relatedMul relatedX newZ) newX)) (relatedMul newX newZ))
    (relatedMul relatedY (relatedMul newZ newZ)), newZ⟩

end Formulas

section Points

variable {F : Type} [Field F] {a b : F} {point : ProjectivePoint F} {P : (binaryCurve a b).Point}

/-- The triple stands for the point, which is not the one at infinity. -/
structure Lifts (point : ProjectivePoint F) (P : (binaryCurve a b).Point) : Prop where
  finite : P ≠ 0
  z : point.z ≠ 0
  x : point.x = (coordinates P).1 * point.z
  y : point.y = (coordinates P).2 * point.z ^ 2

variable [CharP F 2]

/-- The first coordinate of a double, over its denominator. -/
theorem double_first {x₁ y₁ l : F} (t : F) (equation : y₁ ^ 2 + x₁ * y₁ = x₁ ^ 3 + a * x₁ ^ 2 + b)
    (tangent : l * x₁ = x₁ ^ 2 + y₁) :
    t ^ 4 * (x₁ ^ 4 + b) = (l ^ 2 + l + a) * (t ^ 4 * x₁ ^ 2) := by
  have two : (2 : F) = 0 := CharTwo.two_eq_zero
  linear_combination (-t ^ 4) * equation - t ^ 4 * (l * x₁ + x₁ ^ 2 + y₁ + x₁) * tangent
    - t ^ 4 * (x₁ ^ 3 + a * x₁ ^ 2 + x₁ ^ 2 * y₁) * two

variable [DecidableEq F]

/-- Doubling in projective coordinates is doubling on the curve. -/
theorem Lifts.double (lifts : point.Lifts P) (begun : point.x ≠ 0) :
    (point.double a b).Lifts (P + P) := by
  have two : (2 : F) = 0 := CharTwo.two_eq_zero
  obtain ⟨finite, z, x, y⟩ := lifts
  cases P with
  | zero => exact absurd rfl finite
  | some x₁ y₁ onCurve =>
      have positive : x₁ ≠ 0 := by
        rintro rfl
        exact begun (x.trans (zero_mul _))
      have equation := equation_binaryCurve.mp onCurve.1
      have tangent : (x₁ ^ 2 + y₁) / x₁ * x₁ = x₁ ^ 2 + y₁ := div_mul_cancel₀ _ positive
      have sum : coordinates (Affine.Point.some x₁ y₁ onCurve + .some x₁ y₁ onCurve) = _ :=
        coordinates_double positive tangent
      generalize (x₁ ^ 2 + y₁) / x₁ = l at tangent sum
      have first := double_first point.z equation tangent
      have apart : y₁ ≠ (binaryCurve a b).negY x₁ y₁ := by
        rw [negY_binaryCurve]
        intro same
        exact positive (by simpa using same)
      simp only [coordinates_some] at x y
      constructor
      · rw [Affine.Point.add_self_of_Y_ne apart]
        exact Affine.Point.some_ne_zero _
      · exact mul_ne_zero (mul_ne_zero begun begun) (mul_ne_zero z z)
      · rw [sum]
        simp only [ProjectivePoint.double, x]
        linear_combination first
      · rw [sum]
        simp only [ProjectivePoint.double, x, y]
        generalize point.z = t at first
        linear_combination t ^ 8 * (x₁ ^ 4 + b) * equation - t ^ 8 * (x₁ ^ 4 + b) * x₁ * tangent
          + (l + 1) * t ^ 4 * x₁ ^ 2 * first
          + (t ^ 8 * (x₁ ^ 4 + b) * (a * x₁ ^ 2 + b - x₁ * y₁) - t ^ 8 * x₁ ^ 6) * two

/-- The sum with a point that is neither above nor below. -/
theorem Lifts.add {x₂ y₂ : F} {onCurve₂ : (binaryCurve a b).Nonsingular x₂ y₂}
    (lifts : point.Lifts P) (apart : point.distance x₂ ≠ 0) :
    (point.add a x₂ y₂).Lifts (P + .some x₂ y₂ onCurve₂) := by
  obtain ⟨finite, z, x, y⟩ := lifts
  cases P with
  | zero => exact absurd rfl finite
  | some x₁ y₁ onCurve =>
      simp only [coordinates_some] at x y
      have different : x₂ + x₁ ≠ 0 := by
        intro zero
        apply apart
        rw [ProjectivePoint.distance, x, ← add_mul, add_comm x₁, zero, zero_mul]
      have line : (y₂ + y₁) / (x₂ + x₁) * (x₂ + x₁) = y₂ + y₁ := div_mul_cancel₀ _ different
      have sum : coordinates (Affine.Point.some x₂ y₂ onCurve₂ + .some x₁ y₁ onCurve) = _ :=
        coordinates_add (fun same => different (CharTwo.add_eq_zero.mpr same)) line
      rw [add_comm (Affine.Point.some x₂ y₂ onCurve₂)] at sum
      generalize (y₂ + y₁) / (x₂ + x₁) = l at line sum
      have scale : point.z * point.distance x₂ ≠ 0 := mul_ne_zero z apart
      have first : (point.add a x₂ y₂).x =
          (l ^ 2 + l + (x₂ + x₁) + a) * (point.add a x₂ y₂).z := by
        simp only [ProjectivePoint.add, ProjectivePoint.rise, ProjectivePoint.distance, x, y]
        generalize point.z = t
        linear_combination (-t ^ 2) *
          ((y₁ + y₂) * t ^ 2 + l * ((x₁ + x₂) * t ^ 2) + (x₁ + x₂) * t ^ 2) * line
      constructor
      · rw [Affine.Point.add_some
          (fun same => different (CharTwo.add_eq_zero.mpr same.1.symm))]
        exact Affine.Point.some_ne_zero _
      · exact mul_ne_zero scale scale
      · rw [sum]
        exact first
      · rw [sum]
        change point.rise y₂ * (point.z * point.distance x₂) *
            (x₂ * (point.add a x₂ y₂).z + (point.add a x₂ y₂).x) +
          (point.add a x₂ y₂).x * (point.add a x₂ y₂).z +
          y₂ * ((point.add a x₂ y₂).z * (point.add a x₂ y₂).z) = _
        rw [first]
        have square : (point.add a x₂ y₂).z =
            point.z * point.distance x₂ * (point.z * point.distance x₂) := rfl
        have rise : point.rise y₂ = l * (point.z * point.distance x₂) := by
          rw [ProjectivePoint.rise, ProjectivePoint.distance, x, y]
          linear_combination (-point.z ^ 2) * line
        rw [rise]
        linear_combination
          -(l * (x₂ + (l ^ 2 + l + (x₂ + x₁) + a)) * (point.add a x₂ y₂).z) * square

end Points

end ProjectivePoint

/-! ### Multiples -/

/-- Doubling and adding by the bits of a number below `i`; there is no result where a formula does
not apply. -/
def ladder {α : Type} [Mul α] [Add α] (isZero : α → Bool) (a b x₂ y₂ : α) (number : Nat) :
    Nat → ProjectivePoint α → Option (ProjectivePoint α)
  | 0, point => some point
  | i + 1, point =>
      if isZero point.x then none
      else if number.testBit i then
        if isZero ((point.double a b).distance x₂) then none
        else ladder isZero a b x₂ y₂ number i ((point.double a b).add a x₂ y₂)
      else ladder isZero a b x₂ y₂ number i (point.double a b)

section Ladder

variable {α F : Type} [Mul α] [Add α] [Field F] [CharP F 2] [DecidableEq F] {isZero : α → Bool}
  {related : α → F → Prop} {a b x₂ y₂ : α} {a' b' x₂' y₂' : F} {number : Nat}
  {onCurve : (binaryCurve a' b').Nonsingular x₂' y₂'}

/-- A ladder that is worked out on representations of field elements and has a result stands for the
multiple. -/
theorem ladder_ok (relatedZero : ∀ {s s'}, related s s' → (isZero s = true ↔ s' = 0))
    (relatedMul : ∀ {s t s' t'}, related s s' → related t t' → related (s * t) (s' * t'))
    (relatedAdd : ∀ {s t s' t'}, related s s' → related t t' → related (s + t) (s' + t'))
    (relatedA : related a a') (relatedB : related b b') (relatedX : related x₂ x₂')
    (relatedY : related y₂ y₂') {i : Nat} {point result : ProjectivePoint α} {lift : ProjectivePoint F}
    (both : ProjectivePoint.Related related point lift)
    (lifts : lift.Lifts ((number >>> i) • Affine.Point.some x₂' y₂' onCurve))
    (ended : ladder isZero a b x₂ y₂ number i point = some result) :
    ∃ liftResult, ProjectivePoint.Related related result liftResult ∧
      liftResult.Lifts (number • Affine.Point.some x₂' y₂' onCurve) := by
  induction i generalizing point lift with
  | zero =>
      obtain rfl : point = result := Option.some.inj ended
      exact ⟨lift, both, lifts⟩
  | succ i ih =>
      have next := shiftRight_nsmul (Affine.Point.some x₂' y₂' onCurve) number i
      rw [ladder] at ended
      split at ended
      · cases ended
      rename_i begun
      have begunLift : lift.x ≠ 0 := fun zero => begun ((relatedZero both.x).mpr zero)
      have doubled := both.double relatedMul relatedAdd relatedA relatedB
      have liftsDouble := lifts.double begunLift
      split at ended
      · rename_i set
        rw [if_pos set] at next
        split at ended
        · cases ended
        rename_i apart
        have distance := doubled.distance relatedMul relatedAdd relatedX
        have apartLift := fun zero => apart ((relatedZero distance).mpr zero)
        apply ih (doubled.add relatedMul relatedAdd relatedA relatedX relatedY) _ ended
        rw [next]
        exact liftsDouble.add apartLift
      · rename_i clear
        rw [if_neg clear, add_zero] at next
        apply ih doubled _ ended
        rw [next]
        exact liftsDouble

end Ladder

end RentMate.Machine
