/-
Module: RentMate.Proofs.BaseOrder
Purpose: The order of the base point is `base_order`, which is prime: no multiple by a shorter
  number is the point at infinity, and different private keys have different public keys.
Trusted boundary: none
Main exports: prime_orderNumber, order_nsmul_base, nsmul_base_eq_zero, nsmul_base_injective
-/
import RentMate.Machine.PrimeCertificate
import RentMate.Machine.ProjectiveCurve
import RentMate.Proofs.Gf2Curve

namespace RentMate.Gf2Curve

open WeierstrassCurve
open RentMate.Machine
open RentMate.TinyEcdh
open RentMate.BitVectors
open RentMate.Gf2Field

/-- The order of the base point as a number. -/
def orderNumber : Nat := 5846006549323611672814742442876390689256843201587

/-- The order of the source, as a number. -/
theorem numberOf_baseOrder : numberOf baseOrder = orderNumber := by decide

/-! ### The order is prime -/

/-- From a prime of seven digits on, every number is one more than a multiple of the one before. -/
def orderSteps : List PrimeStep :=
  [{ number := 62317571831, cofactor := 22930, length := 36 },
    { number := 3729873863281477372999, cofactor := 59852682858, length := 72 },
    { number := 6799065232765820831739327781612099975633
      cofactor := 1822867335997288368
      length := 133 },
    { number := orderNumber, cofactor := 859825042, length := 163 }]

/-- The chain of primes ends in the order. -/
theorem certified_orderSteps : certified 2717731 orderSteps = some orderNumber := by
  decide +kernel

/-- The order is prime. -/
theorem prime_orderNumber : Nat.Prime orderNumber :=
  prime_of_certified (by norm_num) certified_orderSteps

/-! ### The multiple by the order -/

/-- The base point in packed numbers, where the ladder begins. -/
def basePacked : ProjectivePoint (PackedResidue fieldPacked) :=
  { x := .ofNat baseXNumber
    y := .ofNat baseYNumber
    z := .ofNat 1 }

/-- The multiple of the base point by the number before the order. -/
def oppositePacked : Option (ProjectivePoint (PackedResidue fieldPacked)) :=
  ladder (fun packed => packed.number == 0) (.ofNat 1) (.ofNat (numberOf coeffB))
    (.ofNat baseXNumber) (.ofNat baseYNumber) (orderNumber - 1) 162 basePacked

/-- Whether the triple stands for the point opposite to the base point. -/
def isOpposite (point : ProjectivePoint (PackedResidue fieldPacked)) : Bool :=
  (point.x + .ofNat baseXNumber * point.z).number == 0 &&
    (point.y + (.ofNat baseXNumber + .ofNat baseYNumber) * (point.z * point.z)).number == 0

/-- The ladder over packed numbers ends in the negative of the base point. -/
theorem oppositePacked_ends : oppositePacked.elim false isOpposite = true := by decide +kernel

/-- The first coordinate of the base point, packed. -/
theorem holds_baseX : (PackedResidue.ofNat baseXNumber).Holds (elem baseX) := by
  have reduced := stands_baseX.reduced
  rw [Reduced, numberOf_baseX] at reduced
  rw [elem, numberOf_baseX]
  exact PackedResidue.holds_ofNat reduced

/-- The second coordinate of the base point, packed. -/
theorem holds_baseY : (PackedResidue.ofNat baseYNumber).Holds (elem baseY) := by
  have reduced := stands_baseY.reduced
  rw [Reduced, numberOf_baseY] at reduced
  rw [elem, numberOf_baseY]
  exact PackedResidue.holds_ofNat reduced

/-- One, packed. -/
theorem holds_one : (PackedResidue.ofNat 1 : PackedResidue fieldPacked).Holds 1 := by
  have reduced : fieldPacked.Reduced 1 := Nat.one_lt_two_pow (by decide)
  have one := PackedResidue.holds_ofNat reduced
  rwa [BinaryModulus.residue_one] at one

/-- The constant coefficient, packed. -/
theorem holds_coeffB :
    (PackedResidue.ofNat (numberOf coeffB) : PackedResidue fieldPacked).Holds (elem coeffB) :=
  PackedResidue.holds_ofNat stands_coeffB.reduced

/-- The packed base point stands for the base point. -/
theorem related_basePacked :
    ProjectivePoint.Related PackedResidue.Holds basePacked
      { x := elem baseX, y := elem baseY, z := 1 } :=
  ⟨holds_baseX, holds_baseY, holds_one⟩

/-- Its projective coordinates lift the base point. -/
theorem lifts_base :
    ProjectivePoint.Lifts { x := elem baseX, y := elem baseY, z := 1 }
      (((orderNumber - 1) >>> 162) • base) := by
  have highest : (orderNumber - 1) >>> 162 = 1 := by decide
  rw [highest, one_nsmul]
  refine ⟨Affine.Point.some_ne_zero _, one_ne_zero, ?_, ?_⟩
  · rw [mul_one]
    rfl
  · rw [one_pow, mul_one]
    rfl

/-- One multiple below the order is the negative of the base point. -/
theorem pred_order_nsmul_base : (orderNumber - 1) • base = -base := by
  have ends := oppositePacked_ends
  cases ended : oppositePacked with
  | none => rw [ended] at ends; cases ends
  | some point =>
      rw [ended, Option.elim_some, isOpposite, Bool.and_eq_true] at ends
      obtain ⟨lift, related, lifts⟩ := ladder_ok PackedResidue.Holds.isZero_iff
        PackedResidue.Holds.mul PackedResidue.Holds.add holds_one holds_coeffB holds_baseX
        holds_baseY related_basePacked lifts_base ended
      have first := ((related.x.add (holds_baseX.mul related.z)).isZero_iff).mp ends.1
      have second := ((related.y.add ((holds_baseX.add holds_baseY).mul
        (related.z.mul related.z))).isZero_iff).mp ends.2
      rw [CharTwo.add_eq_zero, lifts.x] at first
      rw [CharTwo.add_eq_zero, lifts.y, sq] at second
      have sameX := mul_right_cancel₀ lifts.z first
      have sameY := mul_right_cancel₀ (mul_ne_zero lifts.z lifts.z) second
      have opposite : coordinates (-base) = (elem baseX, elem baseX + elem baseY) :=
        coordinates_neg
      exact coordinates_injective coeffB_ne_zero ((Prod.ext sameX sameY).trans opposite.symm)

/-- The order annihilates the base point. -/
theorem order_nsmul_base : orderNumber • base = 0 := by
  have split : orderNumber = orderNumber - 1 + 1 := by decide
  rw [split, succ_nsmul, pred_order_nsmul_base, neg_add_cancel]

/-- The base point generates a group of prime order. -/
theorem addOrderOf_base : addOrderOf base = orderNumber := by
  have : Fact orderNumber.Prime := ⟨prime_orderNumber⟩
  exact addOrderOf_eq_prime order_nsmul_base (Affine.Point.some_ne_zero _)

/-- Only multiples of the order do. -/
theorem nsmul_base_eq_zero (count : Nat) : count • base = 0 ↔ orderNumber ∣ count := by
  rw [← addOrderOf_base, addOrderOf_dvd_iff_nsmul_eq_zero]

/-- Numbers below the order have different multiples. -/
theorem nsmul_base_injective {count other : Nat} (below : count < orderNumber)
    (belowOther : other < orderNumber) (same : count • base = other • base) : count = other := by
  rw [nsmul_eq_nsmul_iff_modEq, addOrderOf_base] at same
  exact same.eq_of_lt_of_lt below belowOther

end RentMate.Gf2Curve
