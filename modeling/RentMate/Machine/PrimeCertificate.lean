/-
Module: RentMate.Machine.PrimeCertificate
Purpose: Pocklington's test: a number is prime when one large prime divisor of its predecessor is
  known and a base passes two conditions that a few multiplications decide.
Trusted boundary: none
Main exports: powMod, powMod_eq, pocklington, PrimeStep, certified, prime_of_certified
-/
import Mathlib.FieldTheory.Finite.Basic
import Mathlib.Data.Nat.Prime.Basic

namespace RentMate.Machine

/-- The power by the bits of the exponent from `i` on, from the highest one down. -/
def powMod (modulus base exponent : Nat) : Nat → Nat → Nat
  | 0, power => power
  | i + 1, power =>
      let square := power * power % modulus
      powMod modulus base exponent i
        (if exponent.testBit i then square * base % modulus else square)

/-- A power for the leading bits of an exponent, from that for one bit fewer. -/
theorem pow_shiftRight (base exponent i : Nat) :
    base ^ (exponent >>> i) =
      base ^ (exponent >>> (i + 1)) * base ^ (exponent >>> (i + 1)) *
        if exponent.testBit i then base else 1 := by
  have halves : exponent >>> i = exponent >>> (i + 1) + exponent >>> (i + 1) +
      (exponent.testBit i).toNat := by
    rw [Nat.toNat_testBit, Nat.shiftRight_eq_div_pow, Nat.shiftRight_eq_div_pow, pow_succ,
      ← Nat.div_div_eq_div_mul]
    omega
  rw [halves, pow_add, pow_add]
  cases exponent.testBit i <;> simp

/-- The square-and-multiply loop computes the power modulo the modulus. -/
theorem powMod_eq {modulus base exponent i power : Nat}
    (above : power ≡ base ^ (exponent >>> i) [MOD modulus]) :
    powMod modulus base exponent i power ≡ base ^ exponent [MOD modulus] := by
  induction i generalizing power with
  | zero => exact above
  | succ i ih =>
      have square : power * power % modulus ≡
          base ^ (exponent >>> (i + 1)) * base ^ (exponent >>> (i + 1)) [MOD modulus] :=
        (Nat.mod_modEq _ _).trans (above.mul above)
      rw [powMod]
      apply ih
      rw [pow_shiftRight]
      split
      · exact (Nat.mod_modEq _ _).trans (square.mul_right base)
      · rw [mul_one]
        exact square

/-- Pocklington's test with a single prime divisor above the square root. -/
theorem pocklington {number divisor cofactor base : Nat} (large : 1 < number)
    (prime : divisor.Prime) (split : number - 1 = divisor * cofactor)
    (high : number < divisor * divisor) (fermat : base ^ (number - 1) ≡ 1 [MOD number])
    (coprime : Nat.Coprime (base ^ cofactor - 1) number) : number.Prime := by
  by_contra composite
  have smallest : number.minFac.Prime := Nat.minFac_prime (by omega)
  have short : number.minFac * number.minFac ≤ number := by
    rw [← sq]
    exact Nat.minFac_sq_le_self (by omega) composite
  have divides : number.minFac ∣ number := Nat.minFac_dvd number
  have : Fact number.minFac.Prime := ⟨smallest⟩
  -- The order of the base modulo the smallest factor divides `number - 1` but not `cofactor`.
  have whole : (base : ZMod number.minFac) ^ (number - 1) = 1 := by
    have modulo := (ZMod.natCast_eq_natCast_iff _ _ _).mpr (fermat.of_dvd divides)
    rwa [Nat.cast_pow, Nat.cast_one] at modulo
  have part : (base : ZMod number.minFac) ^ cofactor ≠ 1 := by
    intro one
    have modulo : base ^ cofactor ≡ 1 [MOD number.minFac] := by
      rw [← ZMod.natCast_eq_natCast_iff, Nat.cast_pow, Nat.cast_one, one]
    have common : number.minFac ∣ base ^ cofactor - 1 := by
      rcases Nat.eq_zero_or_pos (base ^ cofactor) with zero | positive
      · rw [zero]
        exact dvd_zero _
      · exact (Nat.modEq_iff_dvd' positive).mp modulo.symm
    exact smallest.not_dvd_one (coprime ▸ Nat.dvd_gcd common divides)
  have order : divisor ∣ orderOf (base : ZMod number.minFac) := by
    by_contra apart
    have dividesWhole : orderOf (base : ZMod number.minFac) ∣ divisor * cofactor :=
      split ▸ orderOf_dvd_of_pow_eq_one whole
    have relatively := ((Nat.Prime.coprime_iff_not_dvd prime).mpr apart).symm
    exact part (orderOf_dvd_iff_pow_eq_one.mp (relatively.dvd_of_dvd_mul_left dividesWhole))
  have begun : (base : ZMod number.minFac) ≠ 0 := by
    intro zero
    rw [zero, zero_pow (by omega)] at whole
    exact zero_ne_one whole
  have below : divisor ∣ number.minFac - 1 :=
    order.trans (orderOf_dvd_of_pow_eq_one (ZMod.pow_card_sub_one_eq_one begun))
  have bounded : divisor ≤ number.minFac - 1 :=
    Nat.le_of_dvd (Nat.sub_pos_of_lt smallest.one_lt) below
  have squares : divisor * divisor ≤ number.minFac * number.minFac :=
    Nat.mul_le_mul (by omega) (by omega)
  omega

/-! ### Certificates -/

/-- A number whose predecessor is a multiple of the number that the step before has certified, and
a length that its bits fit in. -/
structure PrimeStep where
  number : Nat
  cofactor : Nat
  length : Nat

/-- Pocklington's test to the base two, with the powers worked out modulo the number. -/
def PrimeStep.passes (step : PrimeStep) (divisor : Nat) : Bool :=
  1 < step.number && step.number - 1 == divisor * step.cofactor &&
    step.number < divisor * divisor && step.number < 1 <<< step.length &&
    powMod step.number 2 (step.number - 1) step.length 1 == 1 &&
    Nat.gcd (powMod step.number 2 step.cofactor step.length 1 + (step.number - 1)) step.number == 1

/-- A step that passes proves its number prime. -/
theorem PrimeStep.prime {step : PrimeStep} {divisor : Nat} (prime : divisor.Prime)
    (passes : step.passes divisor = true) : step.number.Prime := by
  simp only [PrimeStep.passes, Bool.and_eq_true, decide_eq_true_eq, beq_iff_eq,
    Nat.one_shiftLeft] at passes
  obtain ⟨⟨⟨⟨⟨large, split⟩, high⟩, short⟩, fermat⟩, coprime⟩ := passes
  have start : ∀ exponent, exponent < step.number →
      1 ≡ 2 ^ (exponent >>> step.length) [MOD step.number] := by
    intro exponent below
    rw [Nat.shiftRight_eq_div_pow, Nat.div_eq_of_lt (below.trans short), pow_zero]
  have divides : step.cofactor ∣ step.number - 1 := Dvd.intro_left divisor split.symm
  have below : step.cofactor < step.number :=
    Nat.lt_of_le_of_lt (Nat.le_of_dvd (by omega) divides) (by omega)
  have whole : powMod step.number 2 (step.number - 1) step.length 1 ≡ 2 ^ (step.number - 1)
      [MOD step.number] := powMod_eq (start _ (by omega))
  have part : powMod step.number 2 step.cofactor step.length 1 ≡ 2 ^ step.cofactor
      [MOD step.number] := powMod_eq (start _ below)
  rw [fermat] at whole
  apply pocklington large prime split high whole.symm
  have power : 0 < 2 ^ step.cofactor := Nat.two_pow_pos _
  have shifted : 2 ^ step.cofactor - 1 + step.number = 2 ^ step.cofactor + (step.number - 1) := by
    omega
  have same := part.add_right (step.number - 1)
  rw [Nat.Coprime, ← Nat.gcd_add_self_left, shifted, ← same.gcd_eq]
  exact coprime

/-- The number that a chain of steps ends with, if every step passes. -/
def certified (divisor : Nat) : List PrimeStep → Option Nat
  | [] => some divisor
  | step :: rest => if step.passes divisor then certified step.number rest else none

/-- The last number of a chain whose steps all pass is prime. -/
theorem prime_of_certified {divisor number : Nat} {steps : List PrimeStep}
    (prime : divisor.Prime) (chain : certified divisor steps = some number) : number.Prime := by
  induction steps generalizing divisor with
  | nil =>
      obtain rfl := Option.some.inj chain
      exact prime
  | cons step rest ih =>
      rw [certified] at chain
      split at chain
      · rename_i passes
        exact ih (PrimeStep.prime prime passes) chain
      · cases chain

end RentMate.Machine
