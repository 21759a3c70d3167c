/-
Module: RentMate.Proofs.GcmField
Purpose: The multiplication by tables of the crypto library's GCM: the polynomial is irreducible,
  each row of the tables is a multiple of the key, and `gcm_mult` is the product of the field.
Trusted boundary: none
Main exports: gcmModulus, Field128, element, Keyed, keyed_gcmGenTable, gcmMult_element, gcmMult_iff
-/
import Mathlib.Tactic.NormNum.Prime
import RentMate.Machine.PackedPolynomial
import RentMate.Machine.ReflectedPolynomial
import RentMate.Misc.MbedtlsGcm

namespace RentMate.GcmField

open Polynomial
open RentMate.Machine
open RentMate.MbedtlsGcm

/-! ### The field -/

/-- The polynomial of GCM, `X^128 + X^7 + X^2 + X + 1`, with what products on packed numbers
need. -/
def gcmPacked : PackedModulus :=
  { degree := 128
    value := 340282366920938463463374607431768211591
    size := by decide
    positive := by decide
    tail := 135
    tailCount := 8
    split := by decide
    short := by decide
    low := by decide
    few := by decide
    packedTail := 72057594037993729
    packedTail_eq := by decide
    place := 1 <<< 1024
    place_eq := by decide
    mask := (1 <<< 2048 - 1) / 255
    mask_eq := packedMask_eq (by decide) }

abbrev gcmModulus : BinaryModulus := gcmPacked.toBinaryModulus

/-- The inverse of the power of `X` by `2 ^ 64`, less `X`. -/
def inverseNumber : Nat := 210407306859290181404817842025723703320

/-- 128 squarings bring `X` back, and 64 of them do not. -/
theorem frobenius_evaluated :
    gcmPacked.frobenius 128 = gcmPacked.frobenius 0 ∧
      gcmPacked.product (gcmPacked.sum (gcmPacked.frobenius 64) (gcmPacked.frobenius 0))
        (pack inverseNumber gcmPacked.degree) = pack 1 gcmPacked.degree := by
  decide +kernel

/-- The polynomial of the mode is irreducible. -/
theorem irreducible_polynomial : Irreducible gcmModulus.polynomial := by
  have holds : ∀ count, gcmPacked.Holds (gcmPacked.frobenius count)
      (AdjoinRoot.root gcmModulus.polynomial ^ 2 ^ count) :=
    PackedModulus.holds_frobenius (by decide)
  have root : AdjoinRoot.root gcmModulus.polynomial ^ 2 ^ 0 =
      AdjoinRoot.root gcmModulus.polynomial := by rw [pow_zero, pow_one]
  obtain ⟨fixed, separated⟩ := frobenius_evaluated
  apply BinaryModulus.irreducible
  · have back := holds 128
    rw [fixed] at back
    exact (back.unique (holds 0)).trans root
  · intro p prime divides
    have degree : gcmModulus.degree = 2 ^ 7 := rfl
    rw [degree] at divides
    obtain rfl : p = 2 :=
      (Nat.prime_dvd_prime_iff_eq prime Nat.prime_two).mp (prime.dvd_of_dvd_pow divides)
    have reduced : gcmPacked.Reduced inverseNumber := by
      unfold BinaryModulus.Reduced
      decide
    have product := ((holds 64).sum (holds 0)).product (PackedModulus.holds_pack reduced)
    have one : gcmPacked.Holds (pack 1 gcmPacked.degree) (gcmPacked.residue 1) :=
      PackedModulus.holds_pack (Nat.one_lt_two_pow (by decide))
    rw [BinaryModulus.residue_one] at one
    rw [separated, root] at product
    exact IsUnit.of_mul_eq_one _ (product.unique one)

/-- The field of `2 ^ 128` elements. -/
abbrev Field128 : Type := gcmModulus.Residues

instance : Fact (Irreducible gcmModulus.polynomial) := ⟨irreducible_polynomial⟩

noncomputable instance : Field Field128 := AdjoinRoot.instField

instance : CharP Field128 2 :=
  charP_of_injective_algebraMap (algebraMap (ZMod 2) Field128).injective 2

/-- The element that a polynomial stands for. -/
noncomputable def residueOf : (ZMod 2)[X] →+* Field128 := AdjoinRoot.mk gcmModulus.polynomial

noncomputable abbrev root : Field128 := residueOf X

/-- The element that a block stands for: the highest bit of the first byte is its constant. -/
noncomputable def element (block : GcmBlock) : Field128 := residueOf (reflectedBytes block.toList)

section Elements

variable {x y : GcmBlock}

/-- Byte strings of a block's size that stand for the same element are the same. -/
theorem residueOf_injective {one other : Bytes} (sized : one.length = 16)
    (sizedOther : other.length = 16)
    (same : residueOf (reflectedBytes one) = residueOf (reflectedBytes other)) : one = other := by
  have degrees : ∀ bytes : Bytes, bytes.length = 16 →
      (reflectedBytes bytes).degree < gcmModulus.polynomial.degree := by
    intro bytes length
    have short := degree_reflectedBytes_lt bytes
    rw [length] at short
    rwa [degree_eq_natDegree BinaryModulus.polynomial_ne_zero, BinaryModulus.natDegree_polynomial]
  have difference : gcmModulus.polynomial ∣ reflectedBytes one - reflectedBytes other :=
    AdjoinRoot.mk_eq_mk.mp same
  have small := lt_of_le_of_lt (degree_sub_le _ _)
    (max_lt (degrees one sized) (degrees other sizedOther))
  have equal := sub_eq_zero.mp (eq_zero_of_dvd_of_degree_lt difference small)
  exact reflectedBytes_injective (sized.trans sizedOther.symm) equal

/-- A block is known from its element. -/
theorem element_injective (same : element x = element y) : x = y :=
  Vector.toList_inj.mp (residueOf_injective Vector.length_toList Vector.length_toList same)

@[simp] theorem element_zeroBlock : element zeroBlock = 0 := by
  rw [element, zeroBlock, Vector.toList_replicate, reflectedBytes_zeros, map_zero]

end Elements

/-! ### Reduction -/

/-- What is shifted out beyond `X^127` comes back four times. -/
theorem residueOf_high (number : Nat) :
    residueOf (X ^ 128 * polynomialOf number) =
      residueOf
        (polynomialOf (number ^^^ number <<< 1 ^^^ number <<< 2 ^^^ number <<< 7)) := by
  have tail : polynomialOf gcmPacked.tail = 1 + X + X ^ 2 + X ^ 7 := by
    have value : gcmPacked.tail = 1 ^^^ 1 <<< 1 ^^^ 1 <<< 2 ^^^ 1 <<< 7 := by decide
    rw [value]
    simp only [polynomialOf_xor, polynomialOf_shiftLeft, polynomialOf_one]
    ring
  have degree : gcmPacked.degree = 128 := rfl
  have high := @PackedModulus.mk_high gcmPacked (polynomialOf number)
  rw [degree, tail] at high
  refine high.trans ?_
  congr 1
  simp only [polynomialOf_xor, polynomialOf_shiftLeft]
  ring

/-- The rows of `last4` are the multiples of `X^128` by four bits. -/
theorem last4_rows {rem : Nat} (inside : rem < 16) :
    let number := (BitVec.ofNat 4 rem).reverse.toNat
    number ^^^ number <<< 1 ^^^ number <<< 2 ^^^ number <<< 7 =
      ((last4[rem]?.getD 0).toBitVec.setWidth 16).reverse.toNat := by
  interval_cases rem <;> decide

/-- A word that is shifted to its upper end. -/
theorem reflected_shiftLeft_48 (word : UInt64) :
    reflected (word <<< 48).toBitVec = reflected (word.toBitVec.setWidth 16) := by
  have parts : (word <<< 48).toBitVec = word.toBitVec.setWidth 16 ++ 0#48 := by
    apply BitVec.eq_of_getLsbD_eq
    intro i inside
    simp
    grind
  rw [parts, reflected_append, reflected_zero, mul_zero, add_zero]

/-! ### Two words -/

/-- The polynomial of two words. -/
noncomputable def pairPolynomial (z : UInt64 × UInt64) : (ZMod 2)[X] :=
  reflected z.1.toBitVec + X ^ 64 * reflected z.2.toBitVec

/-- The element that two words stand for. -/
noncomputable def pairElement (z : UInt64 × UInt64) : Field128 := residueOf (pairPolynomial z)

/-- Pairs of words are added by exclusive or. -/
theorem pairElement_xor (one other : UInt64 × UInt64) :
    pairElement (one.1 ^^^ other.1, one.2 ^^^ other.2) = pairElement one + pairElement other := by
  have sum : pairPolynomial (one.1 ^^^ other.1, one.2 ^^^ other.2) =
      pairPolynomial one + pairPolynomial other := by
    simp only [pairPolynomial, UInt64.toBitVec_xor, reflected_xor]
    ring
  rw [pairElement, sum, map_add]
  rfl

/-- The polynomial of a pair is that of its 128 bits. -/
theorem pairPolynomial_append (z : UInt64 × UInt64) :
    pairPolynomial z = reflected (z.1.toBitVec ++ z.2.toBitVec) :=
  (reflected_append _ _).symm

/-- Two words that are shifted as one: what the last bits of the second word are drops out. -/
theorem pairPolynomial_shift (zh zl : UInt64) {count : Nat} (positive : 0 < count)
    (inside : count < 64) :
    pairPolynomial
        (zh >>> UInt64.ofNat count,
          zh <<< UInt64.ofNat (64 - count) ||| zl >>> UInt64.ofNat count) =
      X ^ count * pairPolynomial (zh, zl) + X ^ 128 * reflected (zl.toBitVec.setWidth count) := by
  have words : (zh >>> UInt64.ofNat count).toBitVec ++
      (zh <<< UInt64.ofNat (64 - count) ||| zl >>> UInt64.ofNat count).toBitVec =
        (zh.toBitVec ++ zl.toBitVec) >>> count := by
    apply BitVec.eq_of_getLsbD_eq
    intro i bound
    simp
    grind
  have dropped : (zh.toBitVec ++ zl.toBitVec).setWidth count = zl.toBitVec.setWidth count := by
    apply BitVec.eq_of_getLsbD_eq
    intro i bound
    simp
    grind
  rw [pairPolynomial_append, pairPolynomial_append, words, reflected_shift _ (by omega), dropped]

/-- A pair whose second word is zero, by its first word alone. -/
theorem pairElement_low (zh : UInt64) :
    pairElement (zh, 0) = residueOf (reflected zh.toBitVec) := by
  rw [pairElement, pairPolynomial]
  simp

/-- A shift by four bits with what `last4` has for the bits that drop out. -/
theorem pairElement_shift4 (zh zl : UInt64) :
    pairElement
        (zh >>> 4 ^^^ (last4[(zl &&& 0xf).toNat]?.getD 0 <<< 48), zh <<< 60 ||| zl >>> 4) =
      root ^ 4 * pairElement (zh, zl) := by
  have rem : (zl &&& 0xf).toNat = zl.toNat % 16 := by
    rw [UInt64.toNat_and]
    exact Nat.and_two_pow_sub_one_eq_mod _ 4
  have dropped : zl.toBitVec.setWidth 4 = BitVec.ofNat 4 (zl.toNat % 16) := by
    apply BitVec.eq_of_toNat_eq
    simp
  have row := last4_rows (show zl.toNat % 16 < 16 by omega)
  have folded : residueOf (X ^ 128 * reflected (zl.toBitVec.setWidth 4)) =
      pairElement (last4[(zl &&& 0xf).toNat]?.getD 0 <<< 48, 0) := by
    rw [pairElement_low, reflected_shiftLeft_48, rem, dropped, reflected, residueOf_high, row]
    rfl
  have shifted := pairPolynomial_shift zh zl (show 0 < 4 by decide) (by decide)
  have sum := pairElement_xor (zh >>> 4, zh <<< 60 ||| zl >>> 4)
    (last4[(zl &&& 0xf).toNat]?.getD 0 <<< 48, 0)
  rw [UInt64.xor_zero] at sum
  rw [sum, ← folded, pairElement]
  rw [show pairPolynomial (zh >>> 4, zh <<< 60 ||| zl >>> 4) = _ from shifted, map_add, map_mul,
    map_pow, add_assoc, CharTwo.add_self_eq_zero, add_zero]
  rfl

/-- A shift by one bit with what comes back for the bit that drops out. -/
theorem pairElement_shift1 (vh vl : UInt64) :
    pairElement (vh >>> 1 ^^^ ((vl &&& 1) * 0xe1000000) <<< 32, vh <<< 63 ||| vl >>> 1) =
      root * pairElement (vh, vl) := by
  have folded : residueOf (X ^ 128 * reflected (vl.toBitVec.setWidth 1)) =
      pairElement (((vl &&& 1) * 0xe1000000) <<< 32, 0) := by
    have bit : vl &&& 1 = 0 ∨ vl &&& 1 = 1 := by
      have small : (vl &&& 1).toNat = vl.toNat % 2 := by
        rw [UInt64.toNat_and]
        exact Nat.and_two_pow_sub_one_eq_mod _ 1
      rcases Nat.mod_two_eq_zero_or_one vl.toNat with even | odd
      · exact .inl (UInt64.toNat_inj.mp (small.trans even))
      · exact .inr (UInt64.toNat_inj.mp (small.trans odd))
    have dropped : vl.toBitVec.setWidth 1 = (vl &&& 1).toBitVec.setWidth 1 := by
      apply BitVec.eq_of_getLsbD_eq
      intro i inside
      simp
      grind
    have row : (((vl &&& 1) * 0xe1000000) <<< 32 : UInt64) = ((vl &&& 1) * 0xe100) <<< 48 := by
      rcases bit with clear | set
      · rw [clear]
        rfl
      · rw [set]
        rfl
    rw [dropped, row, pairElement_low, reflected_shiftLeft_48, reflected, residueOf_high, reflected]
    rcases bit with clear | set
    · rw [clear]
      congr 2
    · rw [set]
      congr 2
  have shifted := pairPolynomial_shift vh vl (show 0 < 1 by decide) (by decide)
  have sum := pairElement_xor (vh >>> 1, vh <<< 63 ||| vl >>> 1)
    (((vl &&& 1) * 0xe1000000) <<< 32, 0)
  rw [UInt64.xor_zero] at sum
  rw [sum, ← folded, pairElement]
  rw [show pairPolynomial (vh >>> 1, vh <<< 63 ||| vl >>> 1) = _ from shifted, map_add, map_mul,
    map_pow, add_assoc, CharTwo.add_self_eq_zero, add_zero, pow_one]
  rfl

/-! ### The tables -/

/-- The element of four bits, the highest one first. -/
noncomputable def halfElement (half : Nat) : Field128 := residueOf (reflected (BitVec.ofNat 4 half))

/-- The element that a row of the tables stands for. -/
noncomputable def rowElement (tables : GcmTables) (n : Nat) : Field128 :=
  pairElement (tables.hh[n]?.getD 0, tables.hl[n]?.getD 0)

/-- Every row of the tables is the key's multiple by the row's number. -/
def Keyed (tables : GcmTables) (h : Field128) : Prop :=
  ∀ n, n < 16 → rowElement tables n = halfElement n * h

section Tables

variable {tables : GcmTables} {h : Field128} {n i : Nat} {vh vl : UInt64}

/-- Setting a row changes that row alone. -/
theorem rowElement_setRow (inside : i < 16) :
    rowElement (setRow tables i vh vl) n =
      if n = i then pairElement (vh, vl) else rowElement tables n := by
  by_cases same : n = i
  · subst same
    simp [rowElement, setRow, inside]
  · simp [rowElement, setRow, Ne.symm same, same]

/-- The rows of single bits. -/
theorem rowElement_shiftedRows (tables : GcmTables) (vh vl : UInt64) :
    rowElement (shiftedRows tables vh vl [4, 2, 1]) n =
      if n = 1 then root ^ 3 * pairElement (vh, vl)
      else if n = 2 then root ^ 2 * pairElement (vh, vl)
      else if n = 4 then root * pairElement (vh, vl)
      else rowElement tables n := by
  have twice : ∀ a : Field128, root ^ 2 * a = root * (root * a) := fun a => by ring
  have thrice : ∀ a : Field128, root ^ 3 * a = root * (root * (root * a)) := fun a => by ring
  simp only [shiftedRows, rowElement_setRow (show 1 < 16 by decide),
    rowElement_setRow (show 2 < 16 by decide), rowElement_setRow (show 4 < 16 by decide),
    pairElement_shift1, twice, thrice]

/-- The rows behind row `i`, as far as they have come. -/
theorem rowElement_summedRows {js : List Nat} (below : ∀ j ∈ js, j < i) (room : i + i ≤ 16) :
    rowElement (summedRows i vh vl tables js) n =
      if i ≤ n ∧ n - i ∈ js then pairElement (vh, vl) + rowElement tables (n - i)
      else rowElement tables n := by
  induction js generalizing tables with
  | nil => simp [summedRows]
  | cons j rest ih =>
      obtain ⟨small, others⟩ := List.forall_mem_cons.mp below
      have sum : pairElement (vh ^^^ tables.hh[j]?.getD 0, vl ^^^ tables.hl[j]?.getD 0) =
          pairElement (vh, vl) + rowElement tables j :=
        pairElement_xor (vh, vl) (tables.hh[j]?.getD 0, tables.hl[j]?.getD 0)
      rw [summedRows, ih others, rowElement_setRow (by omega), rowElement_setRow (by omega), sum]
      by_cases here : n = i + j
      · subst here
        have positive : i ≠ 0 := by omega
        simp [positive]
      · by_cases later : i ≤ n ∧ n - i ∈ rest
        · obtain ⟨behind, inside⟩ := later
          have lower := others _ inside
          simp [behind, inside, show ¬ n - i = i + j by omega]
        · rw [if_neg later, if_neg here, if_neg]
          rintro ⟨behind, inside⟩
          rcases List.mem_cons.mp inside with same | inside
          · exact here (by omega)
          · exact later ⟨behind, inside⟩

end Tables

/-! ### Words and blocks -/

section Words

/-- Four bytes are read as the word with the same polynomial. -/
theorem reflectedBytes_getUint32Be (b0 b1 b2 b3 : UInt8) :
    reflectedBytes [b0, b1, b2, b3] = reflected (getUint32Be b0 b1 b2 b3).toBitVec := by
  have word : (getUint32Be b0 b1 b2 b3).toBitVec =
      b0.toBitVec ++ (b1.toBitVec ++ (b2.toBitVec ++ b3.toBitVec)) := by
    apply BitVec.eq_of_getLsbD_eq
    intro i inside
    simp [getUint32Be, BitVec.getLsbD_setWidth]
    grind
  rw [word, reflected_append, reflected_append, reflected_append]
  simp [reflectedBytes_cons]

/-- A word of 64 bits, from its two halves. -/
theorem reflected_halves (high low : UInt32) :
    reflected ((high.toUInt64 <<< 32) ||| low.toUInt64).toBitVec =
      reflected high.toBitVec + X ^ 32 * reflected low.toBitVec := by
  have word : ((high.toUInt64 <<< 32) ||| low.toUInt64).toBitVec =
      high.toBitVec ++ low.toBitVec := by
    apply BitVec.eq_of_getLsbD_eq
    intro i inside
    simp [BitVec.getLsbD_setWidth]
    grind
  rw [word, reflected_append]

/-- A word is written as the four bytes with the same polynomial. -/
theorem reflectedBytes_putUint32Be (n : UInt64) :
    reflectedBytes (putUint32Be n).toList = reflected (n.toBitVec.setWidth 32) := by
  have word : n.toBitVec.setWidth 32 =
      (n >>> 24).toUInt8.toBitVec ++ ((n >>> 16).toUInt8.toBitVec ++
        ((n >>> 8).toUInt8.toBitVec ++ n.toUInt8.toBitVec)) := by
    apply BitVec.eq_of_getLsbD_eq
    intro i inside
    simp [BitVec.getLsbD_setWidth]
    grind
  rw [word, reflected_append, reflected_append, reflected_append]
  simp [putUint32Be, reflectedBytes_cons]

/-- Two words are written as the bytes with the polynomial of the pair. -/
theorem reflectedBytes_putWords (high low : UInt64) :
    reflectedBytes (putWords high low).toList = pairPolynomial (high, low) := by
  have halves : ∀ word : UInt64, reflected word.toBitVec =
      reflected ((word >>> 32).toBitVec.setWidth 32) +
        X ^ 32 * reflected (word.toBitVec.setWidth 32) := by
    intro word
    have parts : word.toBitVec =
        (word >>> 32).toBitVec.setWidth 32 ++ word.toBitVec.setWidth 32 := by
      apply BitVec.eq_of_getLsbD_eq
      intro i inside
      simp
      grind
    rw [← reflected_append, ← parts]
  rw [pairPolynomial, halves high, halves low, putWords]
  simp only [Vector.toList_append, reflectedBytes_append, reflectedBytes_putUint32Be,
    List.length_append, Vector.length_toList]
  ring

/-- The block of two words stands for the element of the pair. -/
theorem element_putWords (high low : UInt64) :
    element (putWords high low) = pairElement (high, low) :=
  congrArg residueOf (reflectedBytes_putWords high low)

/-- The two words that `gcm_gen_table` reads out of a block. -/
theorem pairElement_block (b : Fin 16 → UInt8) :
    pairElement
        (((getUint32Be (b 0) (b 1) (b 2) (b 3)).toUInt64 <<< 32) |||
            (getUint32Be (b 4) (b 5) (b 6) (b 7)).toUInt64,
          ((getUint32Be (b 8) (b 9) (b 10) (b 11)).toUInt64 <<< 32) |||
            (getUint32Be (b 12) (b 13) (b 14) (b 15)).toUInt64) =
      element (Vector.ofFn b) := by
  have bytes : (Vector.ofFn b).toList = [b 0, b 1, b 2, b 3] ++ ([b 4, b 5, b 6, b 7] ++
      ([b 8, b 9, b 10, b 11] ++ [b 12, b 13, b 14, b 15])) := by
    rw [Vector.toList_ofFn]
    rfl
  rw [pairElement, pairPolynomial, element, bytes]
  refine congrArg residueOf ?_
  simp only [reflected_halves, reflectedBytes_append, reflectedBytes_getUint32Be]
  simp only [List.length_cons, List.length_nil]
  ring

end Words

/-! ### The whole table -/

section WholeTable

variable {tables : GcmTables} {h : Field128} {i n : Nat} {vh vl : UInt64}

/-- Single bits are powers of `X`. -/
theorem halfElement_bits :
    halfElement 0 = 0 ∧ halfElement 8 = 1 ∧ halfElement 4 = root ∧ halfElement 2 = root ^ 2 ∧
      halfElement 1 = root ^ 3 := by
  have power : ∀ {half place : Nat}, (BitVec.ofNat 4 half).reverse.toNat = 1 <<< place →
      halfElement half = root ^ place := by
    intro half place value
    rw [halfElement, reflected, value, polynomialOf_shiftLeft, polynomialOf_one, one_mul, map_pow]
  refine ⟨?_, (@power 8 0 (by decide)).trans (pow_zero _),
    (@power 4 1 (by decide)).trans (pow_one _), power (by decide), power (by decide)⟩
  rw [halfElement, reflected_zero, map_zero]

/-- Half bytes with no bit in common are added by exclusive or. -/
theorem halfElement_add {one other : Nat}
    (apart : BitVec.ofNat 4 (one + other) = BitVec.ofNat 4 one ^^^ BitVec.ofNat 4 other) :
    halfElement (one + other) = halfElement one + halfElement other := by
  rw [halfElement, apart, reflected_xor, map_add]
  rfl

/-- The second loop of `gcm_gen_table` doubles the rows that are multiples of the key. -/
theorem summedRows_keyed (positive : 0 < i) (room : i + i ≤ 16)
    (apart : ∀ j, j < i → BitVec.ofNat 4 (i + j) = BitVec.ofNat 4 i ^^^ BitVec.ofNat 4 j)
    (keyed : ∀ n, n ≤ i → rowElement tables n = halfElement n * h) :
    ∀ n, n < i + i →
      rowElement
          (summedRows i (tables.hh[i]?.getD 0) (tables.hl[i]?.getD 0) tables
            (List.range' 1 (i - 1))) n =
        halfElement n * h := by
  intro n bound
  have below : ∀ j ∈ List.range' 1 (i - 1), j < i := by
    intro j inside
    rw [List.mem_range'_1] at inside
    omega
  rw [rowElement_summedRows below room]
  split
  · rename_i summed
    obtain ⟨behind, inside⟩ := summed
    have own : pairElement (tables.hh[i]?.getD 0, tables.hl[i]?.getD 0) = halfElement i * h :=
      keyed i (Nat.le_refl i)
    have parts := halfElement_add (apart (n - i) (by omega))
    rw [Nat.add_sub_of_le behind] at parts
    rw [own, keyed (n - i) (by omega), parts]
    ring
  · rename_i kept
    apply keyed
    by_contra beyond
    exact kept ⟨by omega, List.mem_range'_1.mpr (by omega)⟩

/-- Summing rows does not touch the rows behind them. -/
theorem summedRows_kept (room : i + i ≤ 16) (beyond : i + i ≤ n) :
    rowElement (summedRows i vh vl tables (List.range' 1 (i - 1))) n = rowElement tables n := by
  have below : ∀ j ∈ List.range' 1 (i - 1), j < i := by
    intro j inside
    rw [List.mem_range'_1] at inside
    omega
  rw [rowElement_summedRows below room, if_neg]
  rintro ⟨-, inside⟩
  rw [List.mem_range'_1] at inside
  omega

/-- The rows that the first loop leaves are multiples of the key, and the second one fills the
others in between. -/
theorem keyed_tables (tables : GcmTables) (key : pairElement (vh, vl) = h) :
    Keyed
      ([2, 4, 8].foldl
        (fun tables i =>
          summedRows i (tables.hh[i]?.getD 0) (tables.hl[i]?.getD 0) tables (List.range' 1 (i - 1)))
        (shiftedRows (setRow (setRow tables 8 vh vl) 0 0 0) vh vl [4, 2, 1])) h := by
  obtain ⟨zero, eight, four, two, one⟩ := halfElement_bits
  simp only [List.foldl_cons, List.foldl_nil]
  generalize begun :
    shiftedRows (setRow (setRow tables 8 vh vl) 0 0 0) vh vl [4, 2, 1] = singles
  have row : ∀ n, n ≤ 2 ∨ n = 4 ∨ n = 8 → rowElement singles n = halfElement n * h := by
    intro n known
    have empty : pairElement (0, 0) = 0 := by simp [pairElement, pairPolynomial]
    rw [← begun, rowElement_shiftedRows, rowElement_setRow (by decide),
      rowElement_setRow (by decide), key, empty]
    obtain rfl | rfl | rfl | rfl | rfl : n = 0 ∨ n = 1 ∨ n = 2 ∨ n = 4 ∨ n = 8 := by omega
    · simp [zero]
    · simp [one]
    · simp [two]
    · simp [four]
    · simp [eight]
  generalize doubled : summedRows 2 (singles.hh[2]?.getD 0) (singles.hl[2]?.getD 0) singles
    (List.range' 1 (2 - 1)) = pairs
  have row2 : ∀ n, n ≤ 4 ∨ n = 8 → rowElement pairs n = halfElement n * h := by
    intro n known
    rw [← doubled]
    by_cases low : n < 2 + 2
    · refine summedRows_keyed (by decide) (by decide) ?_ (fun n small => row n (.inl small)) n low
      decide
    · rw [summedRows_kept (by decide) (by omega)]
      exact row n (by omega)
  generalize doubledAgain : summedRows 4 (pairs.hh[4]?.getD 0) (pairs.hl[4]?.getD 0) pairs
    (List.range' 1 (4 - 1)) = quads
  have row3 : ∀ n, n ≤ 8 → rowElement quads n = halfElement n * h := by
    intro n known
    rw [← doubledAgain]
    by_cases low : n < 4 + 4
    · refine summedRows_keyed (by decide) (by decide) ?_ (fun n small => row2 n (.inl small)) n low
      decide
    · rw [summedRows_kept (by decide) (by omega)]
      exact row2 n (by omega)
  intro n bound
  refine summedRows_keyed (by decide) (by decide) ?_ row3 n bound
  decide

/-- `gcm_gen_table` makes every row a multiple of the block that the cipher gives for zeros. -/
theorem keyed_gcmGenTable (ctx : GcmContext) :
    Keyed (gcmGenTable ctx).toGcmTables (element (ctx.cipherCtx zeroBlock)) := by
  have block := pairElement_block fun i => (ctx.cipherCtx zeroBlock)[i]
  have whole : (Vector.ofFn fun i : Fin 16 => (ctx.cipherCtx zeroBlock)[i]) =
      ctx.cipherCtx zeroBlock := Vector.ofFn_getElem
  rw [whole] at block
  unfold gcmGenTable
  exact keyed_tables ctx.toGcmTables block

end WholeTable

/-! ### The product -/

section Product

variable {tables : GcmTables} {h : Field128}

/-- Four bits more of the second factor. -/
theorem pairElement_gcmMultHalf (keyed : Keyed tables h) {half : UInt8} (small : half.toNat < 16)
    (z : UInt64 × UInt64) :
    pairElement (gcmMultHalf tables half z) =
      root ^ 4 * pairElement z + halfElement half.toNat * h := by
  obtain ⟨zh, zl⟩ := z
  have row : pairElement (tables.hh[half.toNat]?.getD 0, tables.hl[half.toNat]?.getD 0) =
      halfElement half.toNat * h := keyed _ small
  rw [← pairElement_shift4, ← row]
  exact pairElement_xor
    (zh >>> 4 ^^^ (last4[(zl &&& 0xf).toNat]?.getD 0 <<< 48), zh <<< 60 ||| zl >>> 4)
    (tables.hh[half.toNat]?.getD 0, tables.hl[half.toNat]?.getD 0)

/-- A byte in two halves. -/
theorem reflected_byte (byte : UInt8) :
    residueOf (reflected byte.toBitVec) =
      halfElement ((byte >>> 4) &&& 0xf).toNat + root ^ 4 * halfElement (byte &&& 0xf).toNat := by
  have high : ((byte >>> 4) &&& 0xf).toNat = byte.toNat / 16 := by
    have small := byte.toNat_lt
    have shifted : (byte >>> 4).toNat = byte.toNat / 16 := by
      rw [UInt8.toNat_shiftRight]
      exact Nat.shiftRight_eq_div_pow _ 4
    rw [UInt8.toNat_and, shifted]
    exact (Nat.and_two_pow_sub_one_eq_mod _ 4).trans (Nat.mod_eq_of_lt (by omega))
  have low : (byte &&& 0xf).toNat = byte.toNat % 16 := by
    rw [UInt8.toNat_and]
    exact Nat.and_two_pow_sub_one_eq_mod _ 4
  have parts : byte.toBitVec = BitVec.ofNat 4 ((byte >>> 4) &&& 0xf).toNat ++
      BitVec.ofNat 4 (byte &&& 0xf).toNat := by
    have small := byte.toNat_lt
    apply BitVec.eq_of_toNat_eq
    rw [high, low, BitVec.toNat_append, BitVec.toNat_ofNat, BitVec.toNat_ofNat,
      ← Nat.shiftLeft_add_eq_or_of_lt (Nat.mod_lt _ (by decide)), Nat.shiftLeft_eq]
    change byte.toNat = _
    omega
  rw [halfElement, halfElement, parts, reflected_append, map_add, map_mul, map_pow]

/-- The element of the bytes from a place on. -/
noncomputable def tailElement (x : GcmBlock) (i : Nat) : Field128 :=
  residueOf (reflectedBytes (x.toList.drop i))

/-- The last bytes of a block, from the first of them and the rest. -/
theorem tailElement_step (x : GcmBlock) {i : Nat} (inside : i < 16) :
    tailElement x i =
      halfElement ((x[i]?.getD 0 >>> 4) &&& 0xf).toNat +
        root ^ 4 * halfElement (x[i]?.getD 0 &&& 0xf).toNat + root ^ 8 * tailElement x (i + 1) := by
  have bound : i < x.toList.length := by simpa using inside
  have byte : x.toList[i] = x[i]?.getD 0 := by
    rw [Vector.getElem?_eq_getElem inside, Option.getD_some, Vector.getElem_toList]
  rw [tailElement, List.drop_eq_getElem_cons bound, reflectedBytes_cons, byte, map_add, map_mul,
    reflected_byte, map_pow]
  rfl

/-- Half a byte is one of sixteen values. -/
theorem half_lt (byte : UInt8) : (byte &&& 0xf).toNat < 16 := by
  rw [UInt8.toNat_and]
  exact Nat.lt_of_le_of_lt Nat.and_le_right (by decide)

/-- The loop from a byte on: what is left is multiplied in. -/
theorem pairElement_gcmMultFrom (keyed : Keyed tables h) (x : GcmBlock) {i : Nat} (inside : i ≤ 15)
    {z : UInt64 × UInt64} (sofar : pairElement z = tailElement x i * h) :
    pairElement (gcmMultFrom tables x i z) = element x * h := by
  induction i generalizing z with
  | zero => exact sofar
  | succ i ih =>
      rw [gcmMultFrom, if_pos (by omega)]
      apply ih (by omega)
      rw [pairElement_gcmMultHalf keyed (half_lt _), pairElement_gcmMultHalf keyed (half_lt _),
        sofar, tailElement_step x (show i < 16 by omega)]
      ring

/-- `gcm_mult` multiplies by the key. -/
theorem gcmMult_element (keyed : Keyed tables h) (x : GcmBlock) :
    element (gcmMult tables x) = element x * h := by
  have last : tailElement x 16 = 0 := by
    rw [tailElement, List.drop_of_length_le (by simp), reflectedBytes_nil, map_zero]
  have byte : x[15]?.getD 0 = x[15] := rfl
  have start : pairElement (tables.hh[(x[15] &&& 0xf).toNat]?.getD 0,
      tables.hl[(x[15] &&& 0xf).toNat]?.getD 0) = halfElement (x[15] &&& 0xf).toNat * h :=
    keyed _ (half_lt _)
  have first : ∀ z, gcmMultFrom tables x 16 z =
      gcmMultFrom tables x 15 (gcmMultHalf tables ((x[15] >>> 4) &&& 0xf) z) := by
    intro z
    rw [gcmMultFrom, if_neg (by decide), byte]
  rw [gcmMult, element_putWords, Prod.mk.eta, first]
  refine pairElement_gcmMultFrom keyed x (Nat.le_refl 15) ?_
  rw [pairElement_gcmMultHalf keyed (half_lt _), start, tailElement_step x (by decide), last, byte]
  ring

/-- With the tables of `gcm_gen_table`, `gcm_mult` gives the one block that stands for the product
with the key, in the field. -/
theorem gcmMult_iff (ctx : GcmContext) (x y : GcmBlock) :
    gcmMult (gcmGenTable ctx).toGcmTables x = y ↔
      element y = element x * element (ctx.cipherCtx zeroBlock) := by
  have product := gcmMult_element (keyed_gcmGenTable ctx) x
  constructor
  · rintro rfl
    exact product
  · intro same
    exact element_injective (product.trans same.symm)

end Product

end RentMate.GcmField
