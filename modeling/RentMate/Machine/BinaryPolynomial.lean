/-
Module: RentMate.Machine.BinaryPolynomial
Purpose: Numbers as polynomials over the field of two elements, their residues modulo a fixed
  polynomial, and the shift-and-add product of residues.
Trusted boundary: human-reviewed spec
Main exports: polynomialOf, BinaryModulus, BinaryModulus.residue, BinaryModulus.product,
  BinaryModulus.product_ok, BinaryModulus.irreducible
-/
import Mathlib.Data.Nat.Size
import Mathlib.RingTheory.AdjoinRoot
import Mathlib.FieldTheory.Finite.Extension

namespace RentMate.Machine

open Polynomial

/-! ### Numbers as polynomials -/

/-- The polynomial whose coefficients are the bits of a number. -/
noncomputable def polynomialOf (number : Nat) : (ZMod 2)[X] :=
  ∑ i ∈ Finset.range number.size, if number.testBit i then X ^ i else 0

section Polynomials

variable {one other : Nat}

/-- A coefficient is the bit in its place. -/
theorem coeff_polynomialOf (number i : Nat) :
    (polynomialOf number).coeff i = if number.testBit i then 1 else 0 := by
  have single : ∀ j, (if number.testBit j then (X ^ j : (ZMod 2)[X]) else 0).coeff i =
      if i = j then (if number.testBit i then 1 else 0) else 0 := by
    intro j
    by_cases same : i = j
    · subst same
      by_cases set : number.testBit i <;> simp [set]
    · by_cases set : number.testBit j <;> simp [set, coeff_X_pow, same]
  rw [polynomialOf, finsetSum_coeff]
  simp only [single, Finset.sum_ite_eq, Finset.mem_range]
  by_cases inside : i < number.size
  · rw [if_pos inside]
  · have clear : number.testBit i = false :=
      Nat.testBit_lt_two_pow (Nat.size_le.mp (Nat.le_of_not_lt inside))
    simp [clear]

/-- Different numbers are different polynomials. -/
theorem polynomialOf_injective (same : polynomialOf one = polynomialOf other) : one = other := by
  apply Nat.eq_of_testBit_eq
  intro i
  have coefficients := congrArg (fun p => coeff p i) same
  simp only [coeff_polynomialOf] at coefficients
  by_cases setOne : one.testBit i <;> by_cases setOther : other.testBit i <;>
    simp_all

@[simp] theorem polynomialOf_zero : polynomialOf 0 = 0 := by simp [polynomialOf]

/-- Addition of polynomials is exclusive or of numbers. -/
@[simp] theorem polynomialOf_xor (one other : Nat) :
    polynomialOf (one ^^^ other) = polynomialOf one + polynomialOf other := by
  ext i
  rw [coeff_add]
  simp only [coeff_polynomialOf, Nat.testBit_xor]
  by_cases setOne : one.testBit i <;> by_cases setOther : other.testBit i <;>
    simp [setOne, setOther]
  exact (CharTwo.add_self_eq_zero 1).symm

/-- A shift multiplies by a power of the variable. -/
@[simp] theorem polynomialOf_shiftLeft (number count : Nat) :
    polynomialOf (number <<< count) = polynomialOf number * X ^ count := by
  ext i
  rw [coeff_mul_X_pow', coeff_polynomialOf, Nat.testBit_shiftLeft]
  by_cases behind : count ≤ i
  · simp [behind, coeff_polynomialOf]
  · simp [behind]

@[simp] theorem polynomialOf_one : polynomialOf 1 = 1 := by
  ext i
  rw [coeff_polynomialOf, coeff_one]
  cases i with
  | zero => simp
  | succ i => simp [Nat.testBit_succ]

@[simp] theorem polynomialOf_two : polynomialOf 2 = X := by
  simpa using polynomialOf_shiftLeft 1 1

/-- Only the number zero stands for the zero polynomial. -/
@[simp] theorem polynomialOf_eq_zero {number : Nat} : polynomialOf number = 0 ↔ number = 0 := by
  constructor
  · intro vanishes
    exact polynomialOf_injective (vanishes.trans polynomialOf_zero.symm)
  · rintro rfl
    exact polynomialOf_zero

/-- A number of `count` bits is a polynomial of a lower degree. -/
theorem degree_polynomialOf_lt {number count : Nat} (short : number < 2 ^ count) :
    (polynomialOf number).degree < count := by
  rw [degree_lt_iff_coeff_zero]
  intro i behind
  have clear : number.testBit i = false :=
    Nat.testBit_lt_two_pow (lt_of_lt_of_le short (Nat.pow_le_pow_right (by decide) behind))
  simp [coeff_polynomialOf, clear]

/-- The highest bit of a number is a one. -/
theorem testBit_of_size {number top : Nat} (size : number.size = top + 1) :
    number.testBit top = true :=
  Nat.testBit_of_two_pow_le_and_two_pow_add_one_gt
    (Nat.lt_size.mp (by rw [size]; exact Nat.lt_succ_self top)) (Nat.size_le.mp (le_of_eq size))

/-- The highest bits of two numbers of one size cancel out. -/
theorem xor_lt_of_testBit {top : Nat} (shortOne : one < 2 ^ (top + 1))
    (shortOther : other < 2 ^ (top + 1)) (setOne : one.testBit top = true)
    (setOther : other.testBit top = true) : one ^^^ other < 2 ^ top := by
  apply Nat.lt_pow_two_of_testBit
  intro i behind
  rcases Nat.eq_or_lt_of_le behind with rfl | above
  · rw [Nat.testBit_xor, setOne, setOther, Bool.xor_self]
  · exact Nat.testBit_lt_two_pow (lt_of_lt_of_le (Nat.xor_lt_two_pow shortOne shortOther)
      (Nat.pow_le_pow_right (by decide) above))

/-- The highest one-bit is the leading coefficient. -/
theorem natDegree_polynomialOf {number degree : Nat} (size : number.size = degree + 1) :
    (polynomialOf number).natDegree = degree := by
  apply natDegree_eq_of_le_of_coeff_ne_zero
  · rw [natDegree_le_iff_coeff_eq_zero]
    intro i above
    have clear : number.testBit i = false :=
      Nat.testBit_lt_two_pow (Nat.size_le.mp (by omega))
    simp [coeff_polynomialOf, clear]
  · simp [coeff_polynomialOf, testBit_of_size size]

/-- A one-bit more. -/
theorem mod_two_pow_succ_xor (number i : Nat) :
    number % 2 ^ (i + 1) = number % 2 ^ i ^^^ if number.testBit i then 1 <<< i else 0 := by
  apply Nat.eq_of_testBit_eq
  intro j
  by_cases set : number.testBit i
  · simp only [set, if_true, Nat.testBit_xor, Nat.testBit_mod_two_pow, Nat.testBit_shiftLeft]
    rcases lt_trichotomy j i with below | rfl | above
    · simp [below, Nat.lt_succ_of_lt below, not_le.mpr below]
    · simp [set]
    · have outside : Nat.testBit 1 (j - i) = false := by
        obtain ⟨distance, rfl⟩ := Nat.exists_eq_add_of_lt above
        rw [show i + distance + 1 - i = distance + 1 by omega, Nat.testBit_succ]
        simp
      simp [outside, not_lt.mpr (le_of_lt above), show ¬ j < i + 1 by omega]
  · simp only [set, Nat.testBit_xor, Nat.testBit_mod_two_pow]
    rcases lt_trichotomy j i with below | rfl | above
    · simp [below, Nat.lt_succ_of_lt below]
    · simp [set]
    · simp [not_lt.mpr (le_of_lt above), show ¬ j < i + 1 by omega]

end Polynomials

/-! ### Residues -/

/-- A polynomial to reduce by, as the number of its bits. -/
structure BinaryModulus where
  degree : Nat
  value : Nat
  size : value.size = degree + 1
  positive : 0 < degree

namespace BinaryModulus

variable (modulus : BinaryModulus)

noncomputable abbrev polynomial : (ZMod 2)[X] := polynomialOf modulus.value

/-- The residues of the polynomials by the modulus. -/
abbrev Residues : Type := AdjoinRoot modulus.polynomial

/-- The residue that a number stands for. -/
noncomputable def residue (number : Nat) : modulus.Residues :=
  AdjoinRoot.mk modulus.polynomial (polynomialOf number)

/-- A number that is the only one of its residue. -/
def Reduced (number : Nat) : Prop := number < 2 ^ modulus.degree

/-- The next multiple by `X`, reduced. -/
def doubled (number : Nat) : Nat :=
  let shifted := number <<< 1
  if shifted.testBit modulus.degree then shifted ^^^ modulus.value else shifted

/-- The rest of a product: `multiple` is one factor by `X ^ i`, and the next bits of the other
factor decide which multiples are added. -/
def productFrom (other : Nat) : Nat → Nat → Nat → Nat → Nat
  | 0, _, _, sum => sum
  | left + 1, i, multiple, sum =>
      let multiple := modulus.doubled multiple
      productFrom other left (i + 1) multiple
        (if other.testBit i then sum ^^^ multiple else sum)

/-- The product of two residues, one bit of the second factor after the other. -/
def product (one other : Nat) : Nat :=
  modulus.productFrom other (modulus.degree - 1) 1 one (if other.testBit 0 then one else 0)

section Residues

variable {modulus} {one other number : Nat}

@[simp] theorem residue_zero : modulus.residue 0 = 0 := by simp [residue]

@[simp] theorem residue_one : modulus.residue 1 = 1 := by simp [residue]

/-- Residues are added by exclusive or. -/
@[simp] theorem residue_xor (one other : Nat) :
    modulus.residue (one ^^^ other) = modulus.residue one + modulus.residue other := by
  simp [residue]

/-- A shift multiplies the residue by a power of the root. -/
@[simp] theorem residue_shiftLeft (number count : Nat) :
    modulus.residue (number <<< count) =
      modulus.residue number * AdjoinRoot.root modulus.polynomial ^ count := by
  simp [residue]

/-- The modulus itself has residue zero. -/
@[simp] theorem residue_value : modulus.residue modulus.value = 0 := AdjoinRoot.mk_self

/-- The degree of the modulus is that of its number. -/
theorem natDegree_polynomial : modulus.polynomial.natDegree = modulus.degree :=
  natDegree_polynomialOf modulus.size

/-- The modulus is not the zero polynomial. -/
theorem polynomial_ne_zero : modulus.polynomial ≠ 0 := by
  intro vanishes
  have size := modulus.size
  rw [polynomialOf_eq_zero.mp vanishes] at size
  simp at size

/-- The sum of two reduced numbers is reduced. -/
theorem Reduced.xor (reducedOne : modulus.Reduced one) (reducedOther : modulus.Reduced other) :
    modulus.Reduced (one ^^^ other) :=
  Nat.xor_lt_two_pow reducedOne reducedOther

/-- Reduced numbers that stand for the same residue are the same. -/
theorem residue_injective (reducedOne : modulus.Reduced one) (reducedOther : modulus.Reduced other)
    (same : modulus.residue one = modulus.residue other) : one = other := by
  apply polynomialOf_injective
  rw [← sub_eq_zero]
  apply eq_zero_of_dvd_of_degree_lt (AdjoinRoot.mk_eq_mk.mp same)
  rw [degree_eq_natDegree polynomial_ne_zero, natDegree_polynomial]
  exact lt_of_le_of_lt (degree_sub_le _ _)
    (max_lt (degree_polynomialOf_lt reducedOne) (degree_polynomialOf_lt reducedOther))

/-- Among reduced numbers only zero has residue zero. -/
theorem residue_eq_zero (reduced : modulus.Reduced number) :
    modulus.residue number = 0 ↔ number = 0 := by
  constructor
  · intro vanishes
    exact residue_injective reduced (Nat.two_pow_pos _) (vanishes.trans residue_zero.symm)
  · rintro rfl
    exact residue_zero

/-! ### Products -/

/-- Doubling gives a reduced number. -/
theorem doubled_reduced (reduced : modulus.Reduced number) :
    modulus.Reduced (modulus.doubled number) := by
  have shifted : number <<< 1 < 2 ^ (modulus.degree + 1) := by
    rw [Nat.shiftLeft_eq, pow_succ]
    exact Nat.mul_lt_mul_of_pos_right reduced (by decide)
  by_cases set : (number <<< 1).testBit modulus.degree
  · rw [doubled, if_pos set]
    exact xor_lt_of_testBit shifted (Nat.size_le.mp (le_of_eq modulus.size)) set
      (testBit_of_size modulus.size)
  · rw [doubled, if_neg set]
    apply Nat.lt_pow_two_of_testBit
    intro i behind
    rcases Nat.eq_or_lt_of_le behind with rfl | above
    · exact Bool.eq_false_iff.mpr set
    · exact Nat.testBit_lt_two_pow
        (lt_of_lt_of_le shifted (Nat.pow_le_pow_right (by decide) above))

/-- Doubling multiplies the residue by the root. -/
theorem residue_doubled (number : Nat) :
    modulus.residue (modulus.doubled number) =
      modulus.residue number * AdjoinRoot.root modulus.polynomial := by
  rw [doubled]
  split
  · rw [residue_xor, residue_shiftLeft, residue_value, add_zero, pow_one]
  · rw [residue_shiftLeft, pow_one]

/-- What a loop that has come to bit `i` still adds makes the sum the whole product. -/
theorem productFrom_ok (left : Nat) {i multiple sum : Nat}
    (reducedMultiple : modulus.Reduced multiple) (reducedSum : modulus.Reduced sum)
    (scaled : modulus.residue multiple * AdjoinRoot.root modulus.polynomial =
      modulus.residue one * AdjoinRoot.root modulus.polynomial ^ i)
    (summed : modulus.residue sum = modulus.residue one * modulus.residue (other % 2 ^ i)) :
    modulus.Reduced (modulus.productFrom other left i multiple sum) ∧
      modulus.residue (modulus.productFrom other left i multiple sum) =
        modulus.residue one * modulus.residue (other % 2 ^ (i + left)) := by
  induction left generalizing i multiple sum with
  | zero => exact ⟨reducedSum, summed⟩
  | succ left ih =>
      have reducedNext := doubled_reduced reducedMultiple
      have scaledNext : modulus.residue (modulus.doubled multiple) =
          modulus.residue one * AdjoinRoot.root modulus.polynomial ^ i :=
        (residue_doubled multiple).trans scaled
      rw [productFrom, show i + (left + 1) = i + 1 + left by omega]
      apply ih reducedNext
      · split
        · exact reducedSum.xor reducedNext
        · exact reducedSum
      · rw [scaledNext, pow_succ, mul_assoc]
      · rw [mod_two_pow_succ_xor, residue_xor]
        split
        · rw [residue_xor, summed, scaledNext, residue_shiftLeft, residue_one, one_mul, mul_add]
        · rw [summed, residue_zero, add_zero]

/-- The product of two reduced numbers is reduced, and its residue is the product. -/
theorem product_ok (reducedOne : modulus.Reduced one) (reducedOther : modulus.Reduced other) :
    modulus.Reduced (modulus.product one other) ∧
      modulus.residue (modulus.product one other) =
        modulus.residue one * modulus.residue other := by
  have whole : other % 2 ^ (1 + (modulus.degree - 1)) = other := by
    rw [Nat.add_sub_cancel' modulus.positive]
    exact Nat.mod_eq_of_lt reducedOther
  have lowest : other % 2 ^ 1 = if other.testBit 0 then 1 <<< 0 else 0 := by
    rw [mod_two_pow_succ_xor, pow_zero, Nat.mod_one, Nat.zero_xor]
  have begunSum : modulus.Reduced (if other.testBit 0 then one else 0) := by
    split
    · exact reducedOne
    · exact Nat.two_pow_pos _
  have begun : modulus.residue (if other.testBit 0 then one else 0) =
      modulus.residue one * modulus.residue (other % 2 ^ 1) := by
    rw [lowest]
    split
    · rw [residue_shiftLeft, residue_one, one_mul, pow_zero, mul_one]
    · rw [residue_zero, mul_zero]
  obtain ⟨reduced, multiplied⟩ :=
    productFrom_ok (modulus.degree - 1) reducedOne begunSum (by rw [pow_one]) begun
  rw [whole] at multiplied
  exact ⟨reduced, multiplied⟩

/-- The number of the variable is reduced as soon as the degree is above one. -/
theorem two_reduced (large : 1 < modulus.degree) : modulus.Reduced 2 := by
  have room : 2 ^ 1 < 2 ^ modulus.degree := Nat.pow_lt_pow_right Nat.one_lt_two large
  exact room

/-- The number of the variable has the root as its residue. -/
@[simp] theorem residue_two : modulus.residue 2 = AdjoinRoot.root modulus.polynomial := by
  simp [residue]

/-! ### Irreducible moduli -/

/-- A divisor of the modulus and of a polynomial whose residue has an inverse is constant. -/
theorem isUnit_of_dvd {divisor p : (ZMod 2)[X]}
    (inverted : IsUnit (AdjoinRoot.mk modulus.polynomial p)) (divides : divisor ∣ modulus.polynomial)
    (dividesOther : divisor ∣ p) : IsUnit divisor := by
  obtain ⟨inverse, product⟩ := inverted.exists_right_inv
  obtain ⟨q, rfl⟩ := AdjoinRoot.mk_surjective inverse
  rw [← map_mul, ← map_one (AdjoinRoot.mk modulus.polynomial)] at product
  have rest : divisor ∣ p * q - 1 := divides.trans (AdjoinRoot.mk_eq_mk.mp product)
  have one := (dividesOther.mul_right q).sub rest
  rw [sub_sub_cancel] at one
  exact isUnit_of_dvd_one one

/-- A modulus is irreducible when `X` is its own power by `2 ^ degree` and, for every prime divisor
of the degree, the power by the smaller exponent differs from `X` by something with an inverse. -/
theorem irreducible
    (fixed : AdjoinRoot.root modulus.polynomial ^ 2 ^ modulus.degree =
      AdjoinRoot.root modulus.polynomial)
    (separated : ∀ p, p.Prime → p ∣ modulus.degree →
      IsUnit (AdjoinRoot.root modulus.polynomial ^ 2 ^ (modulus.degree / p) +
        AdjoinRoot.root modulus.polynomial)) :
    Irreducible modulus.polynomial := by
  have notUnit : ¬ IsUnit modulus.polynomial := by
    intro unit
    have constant := natDegree_eq_zero_of_isUnit unit
    rw [natDegree_polynomial] at constant
    exact absurd modulus.positive (by omega)
  obtain ⟨factor, irreducibleFactor, divides⟩ :=
    WfDvdMonoid.exists_irreducible_factor notUnit polynomial_ne_zero
  have binary : Nat.card (ZMod 2) = 2 := Nat.card_zmod 2
  -- The degree of an irreducible factor divides the one of the modulus.
  have powers : factor ∣ X ^ Nat.card (ZMod 2) ^ modulus.degree - X := by
    rw [binary]
    apply divides.trans
    rw [← AdjoinRoot.mk_eq_mk, map_pow, AdjoinRoot.mk_X]
    exact fixed
  obtain ⟨quotient, degrees⟩ := irreducibleFactor.natDegree_dvd_of_dvd_X_pow_card_pow_sub_X powers
  have single : quotient = 1 := by
    by_contra several
    obtain ⟨p, prime, dividesQuotient⟩ := Nat.exists_prime_and_dvd several
    have dividesDegree : p ∣ modulus.degree := degrees ▸ dividesQuotient.mul_left _
    -- Such a factor divides the smaller power minus `X`, too.
    have smaller : factor.natDegree ∣ modulus.degree / p := by
      obtain ⟨rest, rfl⟩ := dividesQuotient
      refine ⟨rest, ?_⟩
      rw [degrees, ← mul_assoc, mul_comm factor.natDegree, mul_assoc,
        Nat.mul_div_cancel_left _ prime.pos]
    have lower := irreducibleFactor.natDegree_dvd_iff_dvd_X_pow_card_pow_sub_X.mp smaller
    rw [binary, CharTwo.sub_eq_add] at lower
    have inverted := separated p prime dividesDegree
    rw [← AdjoinRoot.mk_X, ← map_pow, ← map_add] at inverted
    exact irreducibleFactor.not_isUnit (isUnit_of_dvd inverted divides lower)
  rw [single, mul_one] at degrees
  have associated : Associated factor modulus.polynomial :=
    associated_of_dvd_of_natDegree_le divides polynomial_ne_zero
      (by rw [natDegree_polynomial, degrees])
  exact associated.irreducible irreducibleFactor

end Residues

end BinaryModulus

end RentMate.Machine
