/-
Module: RentMate.Proofs.Gf2Curve
Purpose: The points of the key exchange library as the points of its curve: which pairs of vectors
  it takes for points, that doubling and adding are the group law, and that its multiplication
  is the multiple by every exponent.
Trusted boundary: none
Main exports: curve, Represents, gf2pointDouble_ok, gf2pointAdd_ok, gf2pointMul_ok, onCurve_iff,
  base, gf2pointAdd_iff, gf2pointMul_iff
-/
import RentMate.Machine.BinaryCurve
import RentMate.Proofs.Gf2Field

namespace RentMate.Gf2Curve

open WeierstrassCurve
open RentMate.Machine
open RentMate.TinyEcdh
open RentMate.BitVectors
open RentMate.Gf2Field

/-! ### The curve -/

noncomputable instance : DecidableEq Field163 := Classical.decEq Field163

instance : CharP Field163 2 :=
  charP_of_injective_algebraMap (algebraMap (ZMod 2) Field163).injective 2

/-- The coefficient of the source stands for its element. -/
theorem stands_coeffB : Stands coeffB (elem coeffB) := by
  refine ⟨?_, rfl⟩
  unfold Reduced BinaryModulus.Reduced
  decide

/-- The constant coefficient of the curve does not vanish. -/
theorem coeffB_ne_zero : elem coeffB ≠ 0 := by
  rw [Ne, elem_eq_zero stands_coeffB.reduced]
  decide

/-- B-163: `y^2 + x*y = x^3 + x^2 + b`. -/
noncomputable def curve : Affine Field163 := binaryCurve 1 (elem coeffB)

/-- The vectors stand for the coordinates of the point, which are zeros for the point at
infinity. -/
structure Represents (point : Gf2Elem × Gf2Elem) (P : curve.Point) : Prop where
  standsX : Stands point.1 (coordinates P).1
  standsY : Stands point.2 (coordinates P).2

section Points

variable {point other : Gf2Elem × Gf2Elem} {P Q : curve.Point}

/-- A point is stored in one way only. -/
theorem Represents.unique (represents : Represents point P) (again : Represents other P) :
    point = other :=
  Prod.ext (represents.standsX.unique again.standsX) (represents.standsY.unique again.standsY)

/-- A pair of vectors represents one point only. -/
theorem Represents.point_eq (represents : Represents point P) (again : Represents point Q) :
    P = Q :=
  coordinates_injective coeffB_ne_zero
    (Prod.ext (represents.standsX.value.symm.trans again.standsX.value)
      (represents.standsY.value.symm.trans again.standsY.value))

/-- The pair of zeros represents the point at infinity. -/
theorem represents_zero : Represents (bitvecSetZero, bitvecSetZero) 0 := ⟨.zero, .zero⟩

/-- The library's test for the point at infinity. -/
theorem Represents.isZero_iff (represents : Represents point P) :
    gf2pointIsZero point.1 point.2 = true ↔ P = 0 := by
  rw [gf2pointIsZero, Bool.and_eq_true, represents.standsX.isZero_iff,
    represents.standsY.isZero_iff]
  constructor
  · rintro ⟨zeroX, zeroY⟩
    exact coordinates_injective coeffB_ne_zero (Prod.ext zeroX zeroY)
  · rintro rfl
    exact ⟨rfl, rfl⟩

/-! ### The group law -/

/-- The tangent, as `gf2point_double` works it out. -/
theorem double_tangent {x y : Field163} (standsX : Stands point.1 x) (standsY : Stands point.2 y)
    (begun : x ≠ 0) :
    ∃ l double, l * x = x ^ 2 + y ∧ gf2pointDouble point.1 point.2 = .ok double ∧
      Stands double.1 (l ^ 2 + l + 1) ∧
      Stands double.2 (x ^ 2 + (l + 1) * (l ^ 2 + l + 1)) := by
  obtain ⟨inverse, ran, standsInverse⟩ := standsX.inv begun
  have slope := (standsInverse.mul standsY).add standsX
  have doubleX := (slope.mul slope).add slope.inc
  have doubleY := (standsX.mul standsX).add (slope.inc.mul doubleX)
  rw [← sq, ← add_assoc] at doubleX
  rw [← sq, ← sq, ← add_assoc] at doubleY
  rw [gf2pointDouble, if_neg (fun zero => begun (standsX.isZero_iff.mp zero)), ran]
  refine ⟨_, _, ?_, rfl, doubleX, doubleY⟩
  rw [add_mul, mul_right_comm, inv_mul_cancel₀ begun]
  ring

/-- `gf2point_double` doubles every point. -/
theorem gf2pointDouble_ok (represents : Represents point P) :
    ∃ double, gf2pointDouble point.1 point.2 = .ok double ∧ Represents double (P + P) := by
  obtain ⟨standsX, standsY⟩ := represents
  by_cases vertical : (coordinates P).1 = 0
  · have zero : P + P = 0 := by
      cases P with
      | zero => exact add_zero 0
      | some x y onCurve =>
          obtain rfl : x = 0 := vertical
          exact double_of_vertical
    rw [gf2pointDouble, if_pos (standsX.isZero_iff.mpr vertical)]
    rw [vertical] at standsX
    exact ⟨_, rfl, by rw [zero]; exact ⟨standsX, .zero⟩⟩
  · cases P with
    | zero => exact absurd rfl vertical
    | some x y onCurve =>
        obtain ⟨l, double, tangent, ran, doubleX, doubleY⟩ :=
          double_tangent standsX standsY vertical
        have sum : coordinates (Affine.Point.some x y onCurve + .some x y onCurve) = _ :=
          coordinates_double vertical tangent
        refine ⟨double, ran, ?_, ?_⟩
        · exact (congrArg Prod.fst sum) ▸ doubleX
        · exact (congrArg Prod.snd sum) ▸ doubleY

/-- The line through two points, as `gf2point_add` works it out. -/
theorem add_line {x₁ y₁ x₂ y₂ : Field163} (standsX₁ : Stands point.1 x₁)
    (standsY₁ : Stands point.2 y₁) (standsX₂ : Stands other.1 x₂) (standsY₂ : Stands other.2 y₂)
    (begun : gf2pointIsZero point.1 point.2 = false)
    (begunOther : gf2pointIsZero other.1 other.2 = false) (apart : x₁ ≠ x₂) :
    ∃ l sum, l * (x₁ + x₂) = y₁ + y₂ ∧
      gf2pointAdd point.1 point.2 other.1 other.2 = .ok sum ∧
      Stands sum.1 (l ^ 2 + l + (x₁ + x₂) + 1) ∧
      Stands sum.2
        (y₁ + ((x₁ + (l ^ 2 + l + (x₁ + x₂) + 1)) * l + (l ^ 2 + l + (x₁ + x₂) + 1))) := by
  have distance := standsX₁.add standsX₂
  have different : x₁ + x₂ ≠ 0 := by
    intro zero
    exact apart (CharTwo.add_eq_zero.mp zero)
  obtain ⟨inverse, ran, standsInverse⟩ := distance.inv different
  have slope := standsInverse.mul (standsY₁.add standsY₂)
  have sumX := (((slope.mul slope).add slope).add distance).inc
  have sumY := standsY₁.add ((((standsX₁.add sumX).mul slope)).add sumX)
  rw [← sq] at sumX sumY
  rw [gf2pointAdd, begunOther, begun, if_neg (by decide), if_neg (by decide),
    if_neg (fun same => apart ((standsX₁.equal_iff standsX₂).mp same))]
  simp only [ran, ok_bind]
  refine ⟨_, _, ?_, rfl, sumX, sumY⟩
  rw [mul_right_comm, inv_mul_cancel₀ different, one_mul]

/-- `gf2point_add` adds any two points. -/
theorem gf2pointAdd_ok (represents : Represents point P) (representsOther : Represents other Q) :
    ∃ sum, gf2pointAdd point.1 point.2 other.1 other.2 = .ok sum ∧ Represents sum (P + Q) := by
  by_cases zeroOther : Q = 0
  · rw [gf2pointAdd, if_pos (representsOther.isZero_iff.mpr zeroOther), zeroOther, add_zero]
    exact ⟨_, rfl, represents⟩
  have begunOther : gf2pointIsZero other.1 other.2 = false :=
    Bool.eq_false_iff.mpr (fun zero => zeroOther (representsOther.isZero_iff.mp zero))
  by_cases zero : P = 0
  · rw [gf2pointAdd, if_neg (by simp [begunOther]), if_pos (represents.isZero_iff.mpr zero), zero,
      zero_add]
    exact ⟨_, rfl, representsOther⟩
  have begun : gf2pointIsZero point.1 point.2 = false :=
    Bool.eq_false_iff.mpr (fun isZero => zero (represents.isZero_iff.mp isZero))
  cases P with
  | zero => exact absurd rfl zero
  | some x₁ y₁ first =>
    cases Q with
    | zero => exact absurd rfl zeroOther
    | some x₂ y₂ second =>
      obtain ⟨standsX₁, standsY₁⟩ := represents
      obtain ⟨standsX₂, standsY₂⟩ := representsOther
      by_cases above : x₁ = x₂
      · subst above
        by_cases same : y₁ = y₂
        · subst same
          have represents : Represents point (.some x₁ y₁ first) := ⟨standsX₁, standsY₁⟩
          obtain ⟨double, ran, doubled⟩ := gf2pointDouble_ok represents
          rw [gf2pointAdd, if_neg (by simp [begunOther]), if_neg (by simp [begun]),
            if_pos ((standsX₁.equal_iff standsX₂).mpr rfl),
            if_pos ((standsY₁.equal_iff standsY₂).mpr rfl)]
          exact ⟨double, ran, doubled⟩
        · have sum : Affine.Point.some x₁ y₁ first + Affine.Point.some x₁ y₂ second = 0 :=
            add_of_above same
          rw [gf2pointAdd, if_neg (by simp [begunOther]), if_neg (by simp [begun]),
            if_pos ((standsX₁.equal_iff standsX₂).mpr rfl),
            if_neg (fun equal => same ((standsY₁.equal_iff standsY₂).mp equal)), sum]
          exact ⟨_, rfl, represents_zero⟩
      · obtain ⟨l, sum, line, ran, sumX, sumY⟩ :=
          add_line standsX₁ standsY₁ standsX₂ standsY₂ begun begunOther above
        rw [mul_comm _ l] at sumY
        have added : coordinates (Affine.Point.some x₁ y₁ first + .some x₂ y₂ second) = _ :=
          coordinates_add above line
        refine ⟨sum, ran, ?_, ?_⟩
        · exact (congrArg Prod.fst added) ▸ sumX
        · exact (congrArg Prod.snd added) ▸ sumY

/-! ### Multiples -/

/-- The loop that has come down to bit `i` has the multiple by the bits above. -/
theorem gf2pointMulFrom_ok {tmp : Gf2Elem × Gf2Elem} (represents : Represents point P)
    (exp : Scalar) {i : Nat} (above : Represents tmp ((numberOf exp >>> i) • P)) :
    ∃ multiple, gf2pointMulFrom point.1 point.2 exp i tmp = .ok multiple ∧
      Represents multiple (numberOf exp • P) := by
  induction i generalizing tmp with
  | zero => exact ⟨tmp, rfl, above⟩
  | succ i ih =>
      obtain ⟨double, ranDouble, doubled⟩ := gf2pointDouble_ok above
      have next := shiftRight_nsmul P (numberOf exp) i
      rw [gf2pointMulFrom, ranDouble, ok_bind]
      by_cases set : (numberOf exp).testBit i = true
      · obtain ⟨sum, ranSum, added⟩ := gf2pointAdd_ok doubled represents
        rw [if_pos set] at next
        rw [if_pos ((bitvecGetBit_iff exp i).mpr set), ranSum, ok_bind]
        exact ih (next ▸ added)
      · rw [if_neg set, add_zero] at next
        rw [if_neg (fun bit => set ((bitvecGetBit_iff exp i).mp bit)), pure_eq_ok, ok_bind]
        exact ih (next ▸ doubled)

/-- The double-and-add loop ends, and represents the multiple of the point. -/
theorem gf2pointMul_ok (represents : Represents point P) (exp : Scalar) :
    ∃ multiple, gf2pointMul point.1 point.2 exp = .ok multiple ∧
      Represents multiple (numberOf exp • P) := by
  apply gf2pointMulFrom_ok represents
  have whole : numberOf exp >>> bitvecDegree exp = 0 := by
    rw [bitvecDegree_eq, Nat.shiftRight_eq_div_pow]
    exact Nat.div_eq_of_lt (Nat.lt_size_self _)
  rw [whole, zero_nsmul]
  exact represents_zero

/-! ### Which pairs are points -/

/-- `gf2point_on_curve` takes exactly the points, the one at infinity included. -/
theorem onCurve_iff (reducedX : Reduced point.1) (reducedY : Reduced point.2) :
    gf2pointOnCurve point.1 point.2 = true ↔ ∃ P, Represents point P := by
  have standsX : Stands point.1 (elem point.1) := ⟨reducedX, rfl⟩
  have standsY : Stands point.2 (elem point.2) := ⟨reducedY, rfl⟩
  rw [gf2pointOnCurve]
  by_cases origin : gf2pointIsZero point.1 point.2 = true
  · rw [if_pos origin]
    refine ⟨fun _ => ⟨0, ?_⟩, fun _ => rfl⟩
    rw [gf2pointIsZero, Bool.and_eq_true, standsX.isZero_iff, standsY.isZero_iff] at origin
    exact ⟨⟨reducedX, origin.1⟩, ⟨reducedY, origin.2⟩⟩
  · rw [if_neg origin]
    have square := standsX.mul standsX
    have left := ((square.add (square.mul standsX)).add stands_coeffB).add (standsY.mul standsY)
    rw [left.equal_iff (standsX.mul standsY)]
    -- In characteristic two a term may change its side.
    have sides : elem point.1 * elem point.1 + elem point.1 * elem point.1 * elem point.1 +
          elem coeffB + elem point.2 * elem point.2 = elem point.1 * elem point.2 ↔
        elem point.2 ^ 2 + elem point.1 * elem point.2 =
          elem point.1 ^ 3 + 1 * elem point.1 ^ 2 + elem coeffB := by
      have same : elem point.1 * elem point.1 + elem point.1 * elem point.1 * elem point.1 +
            elem coeffB + elem point.2 * elem point.2 + elem point.1 * elem point.2 =
          elem point.2 ^ 2 + elem point.1 * elem point.2 +
            (elem point.1 ^ 3 + 1 * elem point.1 ^ 2 + elem coeffB) := by ring
      rw [← CharTwo.add_eq_zero, same, CharTwo.add_eq_zero]
    rw [sides, ← nonsingular_binaryCurve coeffB_ne_zero]
    constructor
    · intro nonsingular
      exact ⟨.some _ _ nonsingular, standsX, standsY⟩
    · rintro ⟨P, represents⟩
      cases P with
      | zero => exact absurd (represents.isZero_iff.mpr rfl) origin
      | some x y nonsingular =>
          obtain rfl : elem point.1 = x := represents.standsX.value
          obtain rfl : elem point.2 = y := represents.standsY.value
          exact nonsingular

end Points

/-! ### The base point -/

/-- The coordinates of the base point as numbers. -/
def baseXNumber : Nat := 5759917430716753942228907521556834309477856722486
def baseYNumber : Nat := 1216722771297916786238928618659324865903148082417

/-- The first coordinate of the base point, as a number. -/
theorem numberOf_baseX : numberOf baseX = baseXNumber := by decide

/-- The second coordinate of the base point, as a number. -/
theorem numberOf_baseY : numberOf baseY = baseYNumber := by decide

/-- The first coordinate of the base point is reduced. -/
theorem stands_baseX : Stands baseX (elem baseX) := by
  refine ⟨?_, rfl⟩
  rw [Reduced, numberOf_baseX]
  unfold BinaryModulus.Reduced
  decide

/-- The second coordinate of the base point is reduced. -/
theorem stands_baseY : Stands baseY (elem baseY) := by
  refine ⟨?_, rfl⟩
  rw [Reduced, numberOf_baseY]
  unfold BinaryModulus.Reduced
  decide

/-- The equation of the curve, worked out on the numbers. -/
theorem base_products :
    fieldModulus.product baseYNumber baseYNumber ^^^
        fieldModulus.product baseXNumber baseYNumber =
      fieldModulus.product (fieldModulus.product baseXNumber baseXNumber) baseXNumber ^^^
        fieldModulus.product baseXNumber baseXNumber ^^^ numberOf coeffB := by
  decide +kernel

/-- The base point is on the curve. -/
theorem base_equation :
    elem baseY ^ 2 + elem baseX * elem baseY =
      elem baseX ^ 3 + 1 * elem baseX ^ 2 + elem coeffB := by
  have reducedX := stands_baseX.reduced
  have reducedY := stands_baseY.reduced
  rw [Reduced, numberOf_baseX] at reducedX
  rw [Reduced, numberOf_baseY] at reducedY
  obtain ⟨reducedSquare, square⟩ := BinaryModulus.product_ok reducedX reducedX
  have same := congrArg fieldModulus.residue base_products
  simp only [BinaryModulus.residue_xor] at same
  rw [(BinaryModulus.product_ok reducedY reducedY).2,
    (BinaryModulus.product_ok reducedX reducedY).2,
    (BinaryModulus.product_ok reducedSquare reducedX).2, square] at same
  rw [elem, elem, elem, numberOf_baseX, numberOf_baseY, one_mul, sq, sq, pow_succ, sq]
  exact same

/-- The point that the keys are multiples of. -/
noncomputable def base : curve.Point :=
  .some (elem baseX) (elem baseY) ((nonsingular_binaryCurve coeffB_ne_zero).mpr base_equation)

/-- The two vectors of the source represent the base point. -/
theorem represents_base : Represents (baseX, baseY) base := ⟨stands_baseX, stands_baseY⟩

/-- The product of the coordinates of the base point. -/
def baseProduct : Gf2Elem :=
  #v[0x1a719b04, 0x46ddb8ee, 0xb45a041e, 0x2e09f030, 0xaa807ee4, 0x00000007]

/-- The product of the two coordinates, as a number. -/
theorem numberOf_baseProduct :
    numberOf baseProduct = fieldModulus.product baseXNumber baseYNumber := by
  decide +kernel

/-- The coordinates of the base point are multiplied. -/
theorem gf2fieldMul_base : gf2fieldMul baseX baseY = baseProduct := by
  have reducedX := stands_baseX.reduced
  have reducedY := stands_baseY.reduced
  rw [Reduced, numberOf_baseX] at reducedX
  rw [Reduced, numberOf_baseY] at reducedY
  obtain ⟨reduced, product⟩ := BinaryModulus.product_ok reducedX reducedY
  refine (gf2fieldMul_iff stands_baseX.reduced stands_baseY.reduced baseProduct).mpr ⟨?_, ?_⟩
  · rw [Reduced, numberOf_baseProduct]
    exact reduced
  · rw [elem, elem, elem, numberOf_baseProduct, numberOf_baseX, numberOf_baseY]
    exact product

/-! ### Twice the base point -/

/-- The slope of the tangent in the base point. -/
def slopeNumber : Nat := 2068694368887603864244362431694913526539774166347

/-- Twice the base point. -/
def doubledBase : Gf2Elem × Gf2Elem :=
  (#v[0x5bd4c2d4, 0xa66d5ab8, 0x0a0c561e, 0x9c49e020, 0xaeb33fed, 0x00000001],
    #v[0xc82895e8, 0x75fd625c, 0x4c200764, 0xcd47d0c2, 0x30608192, 0x00000005])

/-- The coordinates of twice the base point as numbers. -/
def doubledXNumber : Nat := 2458863433773465788931823440066857723356874326740
def doubledYNumber : Nat := 7583691902632093221879919974109648446331262899688

/-- The first coordinate of the doubled base point, as a number. -/
theorem numberOf_doubledX : numberOf doubledBase.1 = doubledXNumber := by decide

/-- The second coordinate of the doubled base point, as a number. -/
theorem numberOf_doubledY : numberOf doubledBase.2 = doubledYNumber := by decide

/-- The number two as an exponent. -/
def two : Scalar := #v[2, 0, 0, 0, 0, 0]

/-- The exponent of the example, as a number. -/
theorem numberOf_two : numberOf two = 2 := by decide

/-- The tangent in the base point and the two coordinates, worked out on the numbers. -/
theorem doubled_products :
    fieldModulus.product slopeNumber baseXNumber =
        fieldModulus.product baseXNumber baseXNumber ^^^ baseYNumber ∧
      doubledXNumber = fieldModulus.product slopeNumber slopeNumber ^^^ slopeNumber ^^^ 1 ∧
      doubledYNumber = fieldModulus.product baseXNumber baseXNumber ^^^
        fieldModulus.product (slopeNumber ^^^ 1) doubledXNumber := by
  decide +kernel

/-- The vectors are those of the double. -/
theorem represents_doubledBase : Represents doubledBase (base + base) := by
  have reducedX := stands_baseX.reduced
  rw [Reduced, numberOf_baseX] at reducedX
  have reducedSlope : fieldModulus.Reduced slopeNumber := by
    unfold BinaryModulus.Reduced
    decide
  have reducedInc : fieldModulus.Reduced (slopeNumber ^^^ 1) := by
    unfold BinaryModulus.Reduced
    decide
  have reducedDoubledX : fieldModulus.Reduced doubledXNumber := by
    unfold BinaryModulus.Reduced
    decide
  have reducedDoubledY : fieldModulus.Reduced doubledYNumber := by
    unfold BinaryModulus.Reduced
    decide
  obtain ⟨tangent, first, second⟩ := doubled_products
  have tangent := congrArg fieldModulus.residue tangent
  have first := congrArg fieldModulus.residue first
  have second := congrArg fieldModulus.residue second
  simp only [BinaryModulus.residue_xor, BinaryModulus.residue_one] at tangent first second
  rw [(BinaryModulus.product_ok reducedSlope reducedX).2,
    (BinaryModulus.product_ok reducedX reducedX).2, ← sq] at tangent
  rw [(BinaryModulus.product_ok reducedSlope reducedSlope).2, ← sq] at first
  rw [(BinaryModulus.product_ok reducedX reducedX).2,
    (BinaryModulus.product_ok reducedInc reducedDoubledX).2, BinaryModulus.residue_xor,
    BinaryModulus.residue_one, first, ← sq] at second
  have begun : elem baseX ≠ 0 := by
    rw [Ne, elem_eq_zero stands_baseX.reduced]
    decide
  have valueX : elem baseX = fieldModulus.residue baseXNumber := by rw [elem, numberOf_baseX]
  have valueY : elem baseY = fieldModulus.residue baseYNumber := by rw [elem, numberOf_baseY]
  have doubled : coordinates (base + base) = _ :=
    coordinates_double begun (by rw [valueX, valueY]; exact tangent)
  constructor
  · refine ⟨by rw [Reduced, numberOf_doubledX]; exact reducedDoubledX, ?_⟩
    rw [elem, numberOf_doubledX, first, doubled]
  · refine ⟨by rw [Reduced, numberOf_doubledY]; exact reducedDoubledY, ?_⟩
    rw [elem, numberOf_doubledY, second, ← valueX, doubled]
/-! ### The operations on points -/

section Operations

variable {point other : Gf2Elem × Gf2Elem} {P Q : curve.Point}

/-- Adding the vectors of any two points gives the vectors of their sum, and no others. -/
theorem gf2pointAdd_iff (represents : Represents point P) (representsOther : Represents other Q)
    (sum : Gf2Elem × Gf2Elem) :
    gf2pointAdd point.1 point.2 other.1 other.2 = .ok sum ↔ Represents sum (P + Q) := by
  obtain ⟨found, ran, added⟩ := gf2pointAdd_ok represents representsOther
  rw [ran]
  constructor
  · intro same
    obtain rfl := Except.ok.inj same
    exact added
  · intro again
    rw [added.unique again]

/-- The base point is added to itself. -/
theorem gf2pointAdd_base : gf2pointAdd baseX baseY baseX baseY = .ok doubledBase :=
  (gf2pointAdd_iff represents_base represents_base doubledBase).mpr represents_doubledBase

/-- Multiplying the vectors of any point by any exponent gives the vectors of the multiple, and no
others. -/
theorem gf2pointMul_iff (represents : Represents point P) (exp : Scalar)
    (multiple : Gf2Elem × Gf2Elem) :
    gf2pointMul point.1 point.2 exp = .ok multiple ↔
      Represents multiple (numberOf exp • P) := by
  obtain ⟨found, ran, represented⟩ := gf2pointMul_ok represents exp
  rw [ran]
  constructor
  · intro same
    obtain rfl := Except.ok.inj same
    exact represented
  · intro again
    rw [represented.unique again]

/-- The base point is multiplied by two. -/
theorem gf2pointMul_base : gf2pointMul baseX baseY two = .ok doubledBase := by
  refine (gf2pointMul_iff represents_base two doubledBase).mpr ?_
  rw [numberOf_two, two_nsmul]
  exact represents_doubledBase

end Operations

end RentMate.Gf2Curve
