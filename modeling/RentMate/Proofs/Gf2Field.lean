/-
Module: RentMate.Proofs.Gf2Field
Purpose: The field arithmetic of the key exchange library: its polynomial is irreducible, its
  product is the one of the field, and its inversion ends on exactly the vectors that have an
  inverse and finds it.
Trusted boundary: none
Main exports: fieldModulus, Field163, elem, Reduced, gf2fieldMul_ok, gf2fieldInv_ok,
  gf2fieldInv_iff
-/
import Mathlib.Tactic.NormNum.Prime
import RentMate.Machine.BinaryEuclid
import RentMate.Machine.PackedPolynomial
import RentMate.Proofs.BitVectors

namespace RentMate.Gf2Field

open Polynomial
open RentMate.Machine
open RentMate.TinyEcdh (Gf2Elem InvState bitvecLshift bitvecGetBit bitvecSetZero bitvecDegree
  gf2fieldAdd gf2fieldInc gf2fieldMul gf2fieldMulFrom gf2fieldInv gf2fieldInvFrom gf2fieldIsOne
  gf2fieldSetOne invRound invStart invRounds curveDegree bitvecNWords)
open RentMate.BitVectors

/-! ### The field -/

/-- The polynomial of the curve, `X^163 + X^7 + X^6 + X^3 + 1`, with what products on packed numbers
need. -/
def fieldPacked : PackedModulus :=
  { degree := 163
    value := 11692013098647223345629478661730264157247460344009
    size := by decide
    positive := by decide
    tail := 201
    tailCount := 8
    split := by decide
    short := by decide
    low := by decide
    few := by decide
    packedTail := 72339069031415809
    packedTail_eq := by decide
    place := 1 <<< 1304
    place_eq := by decide
    mask := (1 <<< 2608 - 1) / 255
    mask_eq := packedMask_eq (by decide) }

abbrev fieldModulus : BinaryModulus := fieldPacked.toBinaryModulus

/-- The polynomial of the source is the modulus. -/
theorem numberOf_polynomial : numberOf TinyEcdh.polynomial = fieldModulus.value := by
  decide

/-- 163 squarings bring `X` back. -/
theorem frobenius_fixed : fieldPacked.frobenius 163 = fieldPacked.frobenius 0 := by decide +kernel

/-- The inverse of `X^2 + X`. -/
def inverseNumber : Nat := 5846006549323611672814739330865132078623730171868

/-- The first Frobenius power of the variable is apart from the variable: their difference is
invertible. -/
theorem frobenius_separated :
    fieldPacked.product (fieldPacked.sum (fieldPacked.frobenius 1) (fieldPacked.frobenius 0))
      (pack inverseNumber fieldPacked.degree) = pack 1 fieldPacked.degree := by
  decide +kernel

/-- The polynomial of the source is irreducible. -/
theorem irreducible_polynomial : Irreducible fieldModulus.polynomial := by
  have holds : ∀ count, fieldPacked.Holds (fieldPacked.frobenius count)
      (AdjoinRoot.root fieldModulus.polynomial ^ 2 ^ count) :=
    PackedModulus.holds_frobenius (by decide)
  have root : AdjoinRoot.root fieldModulus.polynomial ^ 2 ^ 0 =
      AdjoinRoot.root fieldModulus.polynomial := by rw [pow_zero, pow_one]
  apply BinaryModulus.irreducible
  · have back := holds 163
    rw [frobenius_fixed] at back
    exact (back.unique (holds 0)).trans root
  · intro p prime divides
    have degree : Nat.Prime 163 := by norm_num
    obtain rfl : p = 163 := (Nat.prime_dvd_prime_iff_eq prime degree).mp divides
    have reduced : fieldPacked.Reduced inverseNumber := by
      unfold BinaryModulus.Reduced
      decide
    have product := ((holds 1).sum (holds 0)).product (PackedModulus.holds_pack reduced)
    have one : fieldPacked.Holds (pack 1 fieldPacked.degree) (fieldPacked.residue 1) :=
      PackedModulus.holds_pack (Nat.one_lt_two_pow (by decide))
    rw [BinaryModulus.residue_one] at one
    rw [frobenius_separated, root] at product
    exact IsUnit.of_mul_eq_one _ (product.unique one)

/-- The field of `2 ^ 163` elements. -/
abbrev Field163 : Type := fieldModulus.Residues

instance : Fact (Irreducible fieldModulus.polynomial) := ⟨irreducible_polynomial⟩

noncomputable instance : Field Field163 := AdjoinRoot.instField

/-- The element that a vector stands for. -/
noncomputable def elem (x : Gf2Elem) : Field163 := fieldModulus.residue (numberOf x)

/-- A vector without bits from `CURVE_DEGREE` on. -/
def Reduced (x : Gf2Elem) : Prop := fieldModulus.Reduced (numberOf x)

section Elements

variable {x y z : Gf2Elem}

/-- A reduced vector is the only one that stands for its element. -/
theorem elem_injective (reducedX : Reduced x) (reducedY : Reduced y) (same : elem x = elem y) :
    x = y :=
  numberOf_injective (BinaryModulus.residue_injective reducedX reducedY same)

/-- Among reduced vectors only zero stands for zero. -/
theorem elem_eq_zero (reduced : Reduced x) : elem x = 0 ↔ numberOf x = 0 :=
  BinaryModulus.residue_eq_zero reduced

@[simp] theorem elem_setZero : elem bitvecSetZero = 0 := by simp [elem]

/-- Addition of vectors is addition in the field. -/
@[simp] theorem elem_add (x y : Gf2Elem) : elem (gf2fieldAdd x y) = elem x + elem y := by
  simp [elem]

/-- Incrementing adds one. -/
@[simp] theorem elem_inc (x : Gf2Elem) : elem (gf2fieldInc x) = elem x + 1 := by simp [elem]

/-! ### Products -/

/-- What the loop does to `tmp` is what doubling does to a residue. -/
theorem numberOf_doubled {tmp : Gf2Elem} (reduced : Reduced tmp) :
    numberOf
        (if bitvecGetBit (bitvecLshift tmp 1) curveDegree ≠ 0 then
          gf2fieldAdd (bitvecLshift tmp 1) TinyEcdh.polynomial
        else bitvecLshift tmp 1) =
      fieldModulus.doubled (numberOf tmp) := by
  have degree : fieldModulus.degree = 163 := rfl
  have short : (numberOf tmp).size ≤ 163 := Nat.size_le.mpr reduced
  have shifted : numberOf (bitvecLshift tmp 1) = numberOf tmp <<< 1 :=
    numberOf_lshift_of_fits (by omega)
  rw [BinaryModulus.doubled, apply_ite numberOf, numberOf_add, shifted, numberOf_polynomial, degree]
  apply if_congr _ rfl rfl
  rw [bitvecGetBit_iff, shifted]

/-- The loop of the product over vectors is that over numbers. -/
theorem numberOf_mulFrom {left i : Nat} {tmp : Gf2Elem} (reduced : Reduced tmp) (y z : Gf2Elem) :
    numberOf (gf2fieldMulFrom y left i tmp z) =
      fieldModulus.productFrom (numberOf y) left i (numberOf tmp) (numberOf z) := by
  induction left generalizing i tmp z with
  | zero => rfl
  | succ left ih =>
      have doubled := numberOf_doubled reduced
      have reducedNext : Reduced (if bitvecGetBit (bitvecLshift tmp 1) curveDegree ≠ 0 then
          gf2fieldAdd (bitvecLshift tmp 1) TinyEcdh.polynomial else bitvecLshift tmp 1) := by
        rw [Reduced, doubled]
        exact BinaryModulus.doubled_reduced reduced
      rw [gf2fieldMulFrom, BinaryModulus.productFrom, ih reducedNext, doubled,
        apply_ite numberOf, numberOf_add, doubled]
      congr 1
      exact if_congr (bitvecGetBit_iff y i) rfl rfl

/-- The product of vectors is the product of numbers modulo the modulus. -/
theorem numberOf_mul (reduced : Reduced x) (y : Gf2Elem) :
    numberOf (gf2fieldMul x y) = fieldModulus.product (numberOf x) (numberOf y) := by
  rw [gf2fieldMul, BinaryModulus.product, numberOf_mulFrom reduced, apply_ite numberOf,
    numberOf_setZero]
  congr 1
  exact if_congr (bitvecGetBit_iff y 0) rfl rfl

/-- The product of reduced vectors is reduced, and stands for the product of their elements. -/
theorem gf2fieldMul_ok (reducedX : Reduced x) (reducedY : Reduced y) :
    Reduced (gf2fieldMul x y) ∧ elem (gf2fieldMul x y) = elem x * elem y := by
  rw [Reduced, elem, numberOf_mul reducedX]
  exact BinaryModulus.product_ok reducedX reducedY

end Elements

/-! ### Inversion -/

/-- The four vectors as the registers of the algorithm of Euclid. -/
def registersOf (state : InvState) : Euclid :=
  { u := numberOf state.u
    v := numberOf state.v
    g := numberOf state.g
    z := numberOf state.z }

/-- The inversion starts where the Euclidean algorithm does. -/
theorem registersOf_start (x : Gf2Elem) :
    registersOf (invStart x) = Euclid.start fieldModulus (numberOf x) := by
  simp only [registersOf, invStart, Euclid.start, numberOf_polynomial, numberOf_setZero,
    numberOf_setOne]

section Rounds

variable {state : InvState}

/-- Whether the vectors are swapped. -/
def arranged (state : InvState) : InvState :=
  if (bitvecDegree state.u : Int) - bitvecDegree state.v < 0 then
    { u := state.v, v := state.u, g := state.z, z := state.g }
  else state

/-- The exchange of the source is the exchange of the algorithm. -/
theorem registersOf_arranged (state : InvState) :
    registersOf (arranged state) = (registersOf state).ordered := by
  rw [arranged, Euclid.ordered, bitvecDegree_eq, bitvecDegree_eq]
  change _ = if (numberOf state.u).size < (numberOf state.v).size then _ else _
  by_cases less : (numberOf state.u).size < (numberOf state.v).size
  · rw [if_pos (by omega), if_pos less]
    rfl
  · rw [if_neg (by omega), if_neg less]

/-- The distance of the degrees is the same before and after the vectors are swapped. -/
theorem natAbs_degrees (state : InvState) :
    ((bitvecDegree state.u : Int) - bitvecDegree state.v).natAbs =
      (registersOf state).ordered.u.size - (registersOf state).ordered.v.size := by
  rw [Euclid.ordered, bitvecDegree_eq, bitvecDegree_eq]
  split
  · rename_i less
    simp only [registersOf] at less ⊢
    omega
  · rename_i less
    simp only [registersOf] at less ⊢
    omega

/-- A round of the inversion, once the two rows are in order. -/
theorem invRound_eq (state : InvState) :
    invRound state =
      { arranged state with
        u := gf2fieldAdd (arranged state).u (bitvecLshift (arranged state).v
          ((registersOf state).ordered.u.size - (registersOf state).ordered.v.size))
        z := gf2fieldAdd (arranged state).z (bitvecLshift (arranged state).g
          ((registersOf state).ordered.u.size - (registersOf state).ordered.v.size)) } := by
  rw [← natAbs_degrees]
  rfl

/-- The remainders of a round are the ones of a step, whatever becomes of the factors. -/
theorem remainders_invRound (state : InvState) :
    (registersOf (invRound state)).u = (registersOf state).step.u ∧
      (registersOf (invRound state)).v = (registersOf state).step.v := by
  have same := registersOf_arranged state
  have order := Euclid.size_v_le_ordered (registersOf state)
  have sameU : numberOf (arranged state).u = (registersOf state).ordered.u := by rw [← same]; rfl
  have sameV : numberOf (arranged state).v = (registersOf state).ordered.v := by rw [← same]; rfl
  have room := size_numberOf_le (arranged state).u
  rw [invRound_eq]
  refine ⟨?_, sameV⟩
  change numberOf (gf2fieldAdd _ _) = _
  rw [numberOf_add, numberOf_lshift_of_fits (by rw [sameV]; rw [sameU] at room; omega), sameU,
    sameV]
  rfl

/-- While the factors are short, a round is a step. -/
theorem registersOf_invRound (sound : (registersOf state).Sound fieldModulus)
    (unfinished : (registersOf state).u ≠ 1) :
    registersOf (invRound state) = (registersOf state).step := by
  have degree : fieldModulus.degree = 163 := rfl
  have same := registersOf_arranged state
  have order := Euclid.size_v_le_ordered (registersOf state)
  have sameG : numberOf (arranged state).g = (registersOf state).ordered.g := by rw [← same]; rfl
  have sameZ : numberOf (arranged state).z = (registersOf state).ordered.z := by rw [← same]; rfl
  have sameU : numberOf (arranged state).u = (registersOf state).ordered.u := by rw [← same]; rfl
  have room := size_numberOf_le (arranged state).u
  have fits : (numberOf (arranged state).g).size +
      ((registersOf state).ordered.u.size - (registersOf state).ordered.v.size) ≤ 192 := by
    rw [sameG]
    rw [sameU] at room
    rcases (sound.ordered unfinished).shortSecond with empty | short
    · rw [empty, Nat.size_zero]
      omega
    · omega
  obtain ⟨first, second⟩ := remainders_invRound state
  have factor : (registersOf (invRound state)).z = (registersOf state).step.z := by
    rw [invRound_eq]
    change numberOf (gf2fieldAdd _ _) = _
    rw [numberOf_add, numberOf_lshift_of_fits fits, sameG, sameZ]
    rfl
  have kept : (registersOf (invRound state)).g = (registersOf state).step.g := by
    rw [invRound_eq]
    exact sameG
  cases registers : registersOf (invRound state)
  rw [registers] at first second factor kept
  subst first second factor kept
  rfl

/-- A loop whose registers meet the invariant ends as the algorithm of Euclid does. -/
theorem invFrom_of_run {fuel result : Nat} (sound : (registersOf state).Sound fieldModulus)
    (ended : Euclid.run fuel (registersOf state) = some result) :
    ∃ z, gf2fieldInvFrom fuel state = .ok z ∧ numberOf z = result := by
  induction fuel generalizing state with
  | zero => cases ended
  | succ left ih =>
      rw [Euclid.run] at ended
      rw [gf2fieldInvFrom]
      by_cases finished : (registersOf state).u = 1
      · rw [if_pos finished] at ended
        rw [if_pos ((gf2fieldIsOne_iff state.u).mpr finished)]
        exact ⟨state.z, rfl, Option.some.inj ended⟩
      · rw [if_neg finished] at ended
        rw [if_neg (fun isOne => finished ((gf2fieldIsOne_iff state.u).mp isOne))]
        rw [← registersOf_invRound sound finished] at ended
        apply ih _ ended
        rw [registersOf_invRound sound finished]
        exact sound.step finished

/-- A loop never ends when the algorithm of Euclid does not. -/
theorem invFrom_of_none {fuel : Nat} (endless : Euclid.run fuel (registersOf state) = none) :
    gf2fieldInvFrom fuel state = .error .diverges := by
  induction fuel generalizing state with
  | zero => rfl
  | succ left ih =>
      rw [Euclid.run] at endless
      rw [gf2fieldInvFrom]
      by_cases finished : (registersOf state).u = 1
      · rw [if_pos finished] at endless
        cases endless
      · rw [if_neg finished] at endless
        rw [if_neg (fun isOne => finished ((gf2fieldIsOne_iff state.u).mp isOne))]
        obtain ⟨sameU, sameV⟩ := remainders_invRound state
        exact ih ((Euclid.run_eq_none_congr sameU sameV).mpr endless)

end Rounds

section Inverses

variable {x : Gf2Elem}

/-- The inversion of a nonzero element ends, and gives its reduced inverse. -/
theorem gf2fieldInv_ok (begun : elem x ≠ 0) :
    ∃ z, gf2fieldInv x = .ok z ∧ Reduced z ∧ elem z * elem x = 1 := by
  have short := size_numberOf_le x
  have degree : fieldModulus.degree = 163 := rfl
  have rounds : invRounds = 385 := rfl
  have room : (numberOf x).size + fieldModulus.degree + 1 < invRounds := by omega
  obtain ⟨result, ended, reduced, inverted⟩ := Euclid.run_ok irreducible_polynomial begun room
  have sound : (registersOf (invStart x)).Sound fieldModulus := by
    rw [registersOf_start]
    exact Euclid.sound_start (Euclid.isCoprime_of_residue irreducible_polynomial begun)
  rw [← registersOf_start] at ended
  obtain ⟨z, ran, rfl⟩ := invFrom_of_run sound ended
  exact ⟨z, ran, reduced, inverted⟩

/-- More rounds than a loop needs change nothing. -/
theorem invFrom_add {rounds : Nat} {state : InvState} {z : Gf2Elem}
    (ended : gf2fieldInvFrom rounds state = .ok z) (more : Nat) :
    gf2fieldInvFrom (rounds + more) state = .ok z := by
  induction rounds generalizing state with
  | zero => cases ended
  | succ left ih =>
      rw [gf2fieldInvFrom] at ended
      rw [Nat.succ_add, gf2fieldInvFrom]
      split at ended
      · rename_i finished
        rw [if_pos finished, ended]
      · rename_i unfinished
        rw [if_neg unfinished]
        exact ih ended

/-- On a multiple of the polynomial the loop never ends. -/
theorem gf2fieldInv_endless (vanishes : elem x = 0) (rounds : Nat) :
    gf2fieldInvFrom rounds (invStart x) = .error .diverges := by
  apply invFrom_of_none
  rw [registersOf_start]
  exact Euclid.run_none vanishes rounds

/-- `gf2field_inv` ends on exactly the vectors that have an inverse, and what it gives is the one
reduced vector that stands for it. -/
theorem gf2fieldInv_iff (x z : Gf2Elem) :
    (∃ rounds, gf2fieldInvFrom rounds (invStart x) = .ok z) ↔
      elem x ≠ 0 ∧ Reduced z ∧ elem z = (elem x)⁻¹ := by
  constructor
  · rintro ⟨rounds, ended⟩
    have begun : elem x ≠ 0 := by
      intro vanishes
      rw [gf2fieldInv_endless vanishes] at ended
      cases ended
    obtain ⟨found, ran, reduced, inverted⟩ := gf2fieldInv_ok begun
    have same : gf2fieldInvFrom (rounds + invRounds) (invStart x) = .ok found := by
      rw [Nat.add_comm]
      exact invFrom_add ran rounds
    rw [invFrom_add ended invRounds] at same
    obtain rfl : z = found := Except.ok.inj same
    exact ⟨begun, reduced, eq_inv_of_mul_eq_one_left inverted⟩
  · rintro ⟨begun, reduced, inverse⟩
    obtain ⟨found, ran, reducedFound, inverted⟩ := gf2fieldInv_ok begun
    have same : found = z := by
      apply elem_injective reducedFound reduced
      rw [inverse]
      exact eq_inv_of_mul_eq_one_left inverted
    exact ⟨invRounds, same ▸ ran⟩

end Inverses

/-! ### Vectors for elements -/

/-- The vector is the reduced one that stands for the element. -/
structure Stands (x : Gf2Elem) (a : Field163) : Prop where
  reduced : Reduced x
  value : elem x = a

namespace Stands

variable {x y : Gf2Elem} {a b : Field163}

/-- An element has one reduced vector. -/
theorem unique (standsX : Stands x a) (standsY : Stands y a) : x = y :=
  elem_injective standsX.reduced standsY.reduced (standsX.value.trans standsY.value.symm)

/-- The zero vector stands for zero. -/
theorem zero : Stands bitvecSetZero 0 := by
  refine ⟨?_, elem_setZero⟩
  rw [Reduced, numberOf_setZero]
  exact Nat.two_pow_pos _

/-- The sum stands for the sum. -/
theorem add (standsX : Stands x a) (standsY : Stands y b) : Stands (gf2fieldAdd x y) (a + b) := by
  refine ⟨?_, by rw [elem_add, standsX.value, standsY.value]⟩
  rw [Reduced, numberOf_add]
  exact BinaryModulus.Reduced.xor standsX.reduced standsY.reduced

/-- The increment stands for the element plus one. -/
theorem inc (standsX : Stands x a) : Stands (gf2fieldInc x) (a + 1) := by
  refine ⟨?_, by rw [elem_inc, standsX.value]⟩
  rw [Reduced, numberOf_inc]
  exact BinaryModulus.Reduced.xor standsX.reduced (Nat.one_lt_two_pow (by decide))

/-- The product stands for the product. -/
theorem mul (standsX : Stands x a) (standsY : Stands y b) : Stands (gf2fieldMul x y) (a * b) := by
  obtain ⟨reduced, product⟩ := gf2fieldMul_ok standsX.reduced standsY.reduced
  exact ⟨reduced, by rw [product, standsX.value, standsY.value]⟩

/-- The inverse stands for the inverse. -/
theorem inv (standsX : Stands x a) (begun : a ≠ 0) :
    ∃ z, gf2fieldInv x = .ok z ∧ Stands z a⁻¹ := by
  rw [← standsX.value] at begun
  obtain ⟨z, ran, reduced, inverted⟩ := gf2fieldInv_ok begun
  refine ⟨z, ran, reduced, ?_⟩
  rw [← standsX.value]
  exact eq_inv_of_mul_eq_one_left inverted

/-- The test for zero decides whether the element vanishes. -/
theorem isZero_iff (standsX : Stands x a) : TinyEcdh.bitvecIsZero x = true ↔ a = 0 := by
  rw [bitvecIsZero_iff, ← elem_eq_zero standsX.reduced, standsX.value]

/-- The comparison decides whether the elements are equal. -/
theorem equal_iff (standsX : Stands x a) (standsY : Stands y b) :
    TinyEcdh.bitvecEqual x y = true ↔ a = b := by
  rw [bitvecEqual_iff]
  constructor
  · rintro rfl
    exact standsX.value.symm.trans standsY.value
  · rintro rfl
    exact standsX.unique standsY

end Stands

/-- `gf2field_mul` on reduced vectors gives the one reduced vector that stands for the product. -/
theorem gf2fieldMul_iff {x y : Gf2Elem} (reducedX : Reduced x) (reducedY : Reduced y)
    (z : Gf2Elem) : gf2fieldMul x y = z ↔ Reduced z ∧ elem z = elem x * elem y := by
  obtain ⟨reduced, product⟩ := gf2fieldMul_ok reducedX reducedY
  constructor
  · rintro rfl
    exact ⟨reduced, product⟩
  · rintro ⟨reducedZ, value⟩
    exact elem_injective reduced reducedZ (product.trans value.symm)

end RentMate.Gf2Field
