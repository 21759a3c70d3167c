/-
Module: RentMate.Proofs.BitVectors
Purpose: The bit vectors of the key exchange library as numbers: what each of its operations on
  words does to the number that the words hold.
Trusted boundary: none
Main exports: bitvecGetBit_iff, bitvecDegree_eq, numberOf_lshift, numberOf_add
-/
import Mathlib.Data.Nat.Bitwise
import RentMate.Misc.TinyEcdh

namespace RentMate.BitVectors

open RentMate.Machine
open RentMate.TinyEcdh

/-! ### Single bits -/

/-- The bits of a word are those of its bit vector. -/
theorem testBit_toNat (word : UInt32) (i : Nat) :
    word.toNat.testBit i = word.toBitVec.getLsbD i := rfl

/-- A shift within a word is by the amount that is given. -/
theorem amount_mod {count : Nat} (small : count < 32) :
    (UInt32.ofNat count).toNat % 32 = count := by
  rw [UInt32.toNat_ofNat']
  omega

/-- The bit that is read is the one of the number. -/
theorem bitvecGetBit_iff (x : Bitvec) (idx : Nat) :
    bitvecGetBit x idx ≠ 0 ↔ (numberOf x).testBit idx = true := by
  have bit : (bitvecGetBit x idx).toNat = (bitOf x idx).toNat := by
    rw [bitvecGetBit, UInt32.toNat_and, UInt32.toNat_shiftRight,
      amount_mod (Nat.mod_lt _ (by decide)), UInt32.toNat_one, Nat.and_one_is_mod,
      Nat.shiftRight_eq_div_pow, bitOf, Nat.toNat_testBit]
  rw [testBit_numberOf, Ne, ← UInt32.toNat_inj, bit]
  cases bitOf x idx <;> decide

/-- The mask clears one bit of a word. -/
theorem testBit_clrBit (word : UInt32) {offset : Nat} (small : offset < 32) (i : Nat) :
    (word &&& ~~~(1 <<< UInt32.ofNat offset)).toNat.testBit i =
      (word.toNat.testBit i && decide (i ≠ offset)) := by
  rw [testBit_toNat, testBit_toNat, UInt32.toBitVec_and, UInt32.toBitVec_not,
    BitVec.getLsbD_and, BitVec.getLsbD_not]
  by_cases inside : i < 32
  · have single : (1 <<< UInt32.ofNat offset : UInt32).toBitVec.getLsbD i = decide (i = offset) := by
      rw [← testBit_toNat, UInt32.toNat_shiftLeft, amount_mod small, UInt32.toNat_one,
        Nat.shiftLeft_eq, Nat.one_mul, Nat.testBit_mod_two_pow, decide_eq_true inside,
        Nat.testBit_two_pow]
      simp [eq_comm]
    rw [single, decide_eq_true inside]
    simp
  · rw [BitVec.getLsbD_of_ge word.toBitVec i (by omega)]
    simp

/-- `bitvec_clr_bit` clears one bit. -/
theorem bitOf_clrBit (x : Bitvec) {idx : Nat} (inside : idx < 192) (i : Nat) :
    bitOf (bitvecClrBit x idx) i = (bitOf x i && decide (i ≠ idx)) := by
  have place : idx / 32 < 6 := by omega
  have word : x[idx / 32]?.getD 0 = x[idx / 32] := by
    rw [Vector.getElem?_eq_getElem place, Option.getD_some]
  by_cases same : i / 32 = idx / 32
  · have inWord : i / 32 < 6 := by omega
    rw [bitvecClrBit, word, bitOf_of_lt _ inWord, bitOf_of_lt x inWord]
    simp only [same, Vector.getElem_setIfInBounds_self]
    rw [testBit_clrBit _ (Nat.mod_lt _ (by decide))]
    congr 2
    apply propext
    omega
  · have other : i ≠ idx := by
      rintro rfl
      exact same rfl
    rw [bitOf, bitvecClrBit, Vector.getElem?_setIfInBounds_ne (by omega), bitOf]
    simp [other]

/-! ### Comparisons -/

@[simp] theorem numberOf_setZero : numberOf bitvecSetZero = 0 := numberOf_zero

/-- `bitvec_equal` decides equality. -/
theorem bitvecEqual_iff (x y : Bitvec) : bitvecEqual x y = true ↔ x = y := by
  rw [bitvecEqual, beq_iff_eq]

/-- `bitvec_is_zero` decides whether the number is zero. -/
theorem bitvecIsZero_iff (x : Bitvec) : bitvecIsZero x = true ↔ numberOf x = 0 := by
  rw [numberOf, numberOfWords_eq_zero, bitvecIsZero, ← Vector.all_toList, List.all_eq_true]
  simp only [beq_iff_eq]

/-- The one of the field is the number one. -/
theorem numberOf_setOne : numberOf gf2fieldSetOne = 1 := by decide

/-- `gf2field_is_one` decides whether the number is one. -/
theorem gf2fieldIsOne_iff (x : Gf2Elem) : gf2fieldIsOne x = true ↔ numberOf x = 1 := by
  have size : x.toList.length = 5 + 1 := Vector.length_toList
  obtain ⟨word, words, split⟩ := List.exists_cons_of_length_eq_add_one size
  have first : x[0] = word := by
    rw [← Vector.getElem_toList (by simp)]
    simp only [split, List.getElem_cons_zero]
  rw [gf2fieldIsOne, first, numberOf, split, List.drop_one, List.tail_cons, Bool.and_eq_true,
    beq_iff_eq, List.all_eq_true]
  simp only [beq_iff_eq]
  rw [← numberOfWords_eq_zero, numberOfWords, ← UInt32.toNat_inj, UInt32.toNat_one]
  have low := word.toNat_lt
  omega

/-! ### The degree -/

/-- The length of a number between two powers of two. -/
theorem size_of_bounds {number top : Nat} (lower : 2 ^ top ≤ number) (upper : number < 2 ^ (top + 1)) :
    number.size = top + 1 :=
  le_antisymm (Nat.size_le.mpr upper) (Nat.lt_size.mpr lower)

/-- A one-bit above a lower number decides the size. -/
theorem size_two_pow_mul_add {high low count : Nat} (begun : high ≠ 0) (short : low < 2 ^ count) :
    (2 ^ count * high + low).size = count + high.size := by
  obtain ⟨top, size⟩ : ∃ top, high.size = top + 1 :=
    Nat.exists_eq_succ_of_ne_zero (fun empty => begun (Nat.size_eq_zero.mp empty))
  have lower : 2 ^ top ≤ high := Nat.lt_size.mp (by omega)
  have upper : high + 1 ≤ 2 ^ (top + 1) := Nat.size_le.mp (le_of_eq size)
  rw [size, ← Nat.add_assoc]
  apply size_of_bounds
  · rw [pow_add]
    exact (Nat.mul_le_mul_left _ lower).trans (Nat.le_add_right _ _)
  · have scaled := Nat.mul_le_mul_left (2 ^ count) upper
    rw [Nat.add_assoc, pow_add]
    rw [Nat.mul_add, Nat.mul_one] at scaled
    omega

/-- The mask finds the highest one-bit of a word. -/
theorem skipZeroBits_eq {word : UInt32} {top : Nat} {u32mask : UInt32} (begun : word ≠ 0)
    (short : word.toNat < 2 ^ (top + 1)) (mask : u32mask.toNat = 2 ^ top) (base : Nat) :
    skipZeroBits word (top + 1) u32mask (base + (top + 1)) = base + word.toNat.size := by
  have bit : word &&& u32mask = 0 ↔ word.toNat.testBit top = false := by
    rw [← UInt32.toNat_inj, UInt32.toNat_and, mask, Nat.and_two_pow, UInt32.toNat_zero]
    cases word.toNat.testBit top <;> simp
  rw [skipZeroBits]
  by_cases set : word.toNat.testBit top = true
  · rw [if_neg (by simp [bit, set]), size_of_bounds (Nat.ge_two_pow_of_testBit set) short]
  · have clear : word.toNat.testBit top = false := Bool.eq_false_iff.mpr set
    have shorter : word.toNat < 2 ^ top := by
      by_contra long
      rw [Nat.testBit_of_two_pow_le_and_two_pow_add_one_gt (Nat.le_of_not_lt long) short] at clear
      cases clear
    rw [if_pos (bit.mpr clear)]
    cases top with
    | zero =>
        have positive := Nat.pos_of_ne_zero (fun zero => begun (UInt32.toNat_inj.mp zero))
        omega
    | succ top =>
        apply skipZeroBits_eq begun shorter
        rw [UInt32.toNat_shiftRight, mask]
        exact Nat.shiftRight_eq_div_pow _ 1 |>.trans (by rw [pow_succ]; omega)
termination_by top

/-- Leaving out zero words at the top gives the length of the number below them. -/
theorem skipZeroWords_eq (x : Bitvec) {left : Nat} (inside : left ≤ 6) :
    skipZeroWords x left = (numberOf x % 2 ^ (32 * left)).size := by
  induction left with
  | zero => simp [skipZeroWords, Nat.mod_one]
  | succ left ih =>
      have place : left < 6 := inside
      have word : x[left]?.getD 0 = x[left] := by
        rw [Vector.getElem?_eq_getElem place, Option.getD_some]
      rw [skipZeroWords, word, numberOf_mod_succ x place]
      split
      · rename_i empty
        rw [ih (by omega), empty, UInt32.toNat_zero, Nat.mul_zero, Nat.zero_add]
      · rename_i begun
        have high : x[left].toNat ≠ 0 := fun zero => begun (UInt32.toNat_inj.mp zero)
        rw [size_two_pow_mul_add high (Nat.mod_lt _ (Nat.two_pow_pos _)), Nat.mul_add]
        exact skipZeroBits_eq begun x[left].toNat_lt (by decide) (32 * left)

/-- `bitvec_degree` is the length of the number. -/
theorem bitvecDegree_eq (x : Bitvec) : bitvecDegree x = (numberOf x).size := by
  rw [bitvecDegree, skipZeroWords_eq x (Nat.le_refl 6), Nat.mod_eq_of_lt (numberOf_lt x)]

/-- No number is longer than the vector. -/
theorem size_numberOf_le (x : Bitvec) : (numberOf x).size ≤ 192 := Nat.size_le.mpr (numberOf_lt x)

/-! ### Shifts and sums -/

/-- Past the vector there are no bits. -/
theorem bitOf_past (x : Bitvec) {i : Nat} (outside : ¬ i < 192) : bitOf x i = false :=
  bitOf_of_le x (Nat.le_of_not_lt outside)

/-- Moving whole words moves every bit by their length. -/
theorem bitOf_shiftWords (y : Bitvec) (nwords i : Nat) :
    bitOf (shiftWords y nwords) i =
      (decide (i < 192) && (decide (32 * nwords ≤ i) && bitOf y (i - 32 * nwords))) := by
  by_cases inside : i < 192
  · have place : i / 32 < 6 := by omega
    rw [bitOf_of_lt _ place, shiftWords, Vector.getElem_ofFn, decide_eq_true inside, Bool.true_and]
    by_cases below : i / 32 < nwords
    · rw [if_pos below, decide_eq_false (by omega), Bool.false_and]
      simp
    · have quotient : (i - 32 * nwords) / 32 = i / 32 - nwords := by omega
      have remainder : (i - 32 * nwords) % 32 = i % 32 := by omega
      rw [if_neg below, decide_eq_true (by omega), Bool.true_and, bitOf, quotient, remainder]
  · rw [bitOf_past _ inside, decide_eq_false inside, Bool.false_and]

/-- A shift of a word to the left, bit by bit. -/
theorem testBit_shiftLeft (word : UInt32) {count : Nat} (small : count < 32) (i : Nat) :
    (word <<< UInt32.ofNat count).toNat.testBit i =
      (decide (i < 32) && (decide (count ≤ i) && word.toNat.testBit (i - count))) := by
  rw [UInt32.toNat_shiftLeft, amount_mod small, Nat.testBit_mod_two_pow, Nat.testBit_shiftLeft]

/-- A shift of a word to the right, bit by bit. -/
theorem testBit_shiftRight (word : UInt32) {count : Nat} (small : count < 32) (i : Nat) :
    (word >>> UInt32.ofNat count).toNat.testBit i = word.toNat.testBit (count + i) := by
  rw [UInt32.toNat_shiftRight, amount_mod small, Nat.testBit_shiftRight]

/-- A word has no bits past its width. -/
theorem testBit_of_wide (word : UInt32) {i : Nat} (wide : 32 ≤ i) : word.toNat.testBit i = false :=
  Nat.testBit_lt_two_pow
    (Nat.lt_of_lt_of_le word.toNat_lt (Nat.pow_le_pow_right (by decide) wide))

/-- The shift within the words moves every bit, across their borders too. -/
theorem bitOf_shiftBits (x : Bitvec) {nbits : Nat} (positive : 0 < nbits) (small : nbits < 32)
    (i : Nat) :
    bitOf (shiftBits x nbits) i =
      (decide (i < 192) && (decide (nbits ≤ i) && bitOf x (i - nbits))) := by
  by_cases inside : i < 192
  · have place : i / 32 < 6 := by omega
    have offset : i % 32 < 32 := Nat.mod_lt _ (by decide)
    have words : bitvecNWords = 6 := rfl
    rw [bitOf_of_lt _ place, shiftBits, Vector.getElem_ofFn, decide_eq_true inside, Bool.true_and]
    change (if i / 32 = 0 then x[i / 32] <<< UInt32.ofNat nbits
      else x[i / 32] <<< UInt32.ofNat nbits |||
        x[i / 32 - 1]?.getD 0 >>> UInt32.ofNat (32 - nbits)).toNat.testBit _ = _
    by_cases within : nbits ≤ i % 32
    · -- The bit comes from the same word.
      have quotient : (i - nbits) / 32 = i / 32 := by omega
      have remainder : (i - nbits) % 32 = i % 32 - nbits := by omega
      rw [decide_eq_true (show nbits ≤ i by omega), Bool.true_and, bitOf, quotient, remainder,
        Vector.getElem?_eq_getElem place, Option.getD_some]
      split
      · rw [testBit_shiftLeft _ small, decide_eq_true offset, decide_eq_true within]
        rfl
      · rw [UInt32.toNat_or, Nat.testBit_or, testBit_shiftLeft _ small, decide_eq_true offset,
          decide_eq_true within, testBit_shiftRight _ (by omega),
          testBit_of_wide _ (show 32 ≤ 32 - nbits + i % 32 by omega), Bool.or_false]
        rfl
    · split
      · rw [testBit_shiftLeft _ small, decide_eq_false within,
          decide_eq_false (show ¬ nbits ≤ i by omega)]
        simp
      · -- The bit comes from the word below.
        have quotient : (i - nbits) / 32 = i / 32 - 1 := by omega
        have remainder : (i - nbits) % 32 = 32 - nbits + i % 32 := by omega
        rw [UInt32.toNat_or, Nat.testBit_or, testBit_shiftLeft _ small, decide_eq_false within,
          testBit_shiftRight _ (by omega), decide_eq_true (show nbits ≤ i by omega), bitOf,
          quotient, remainder]
        simp
  · rw [bitOf_past _ inside, decide_eq_false inside, Bool.false_and]

/-- `bitvec_lshift` shifts the number and cuts it to the vector. -/
theorem numberOf_lshift (y : Bitvec) (nbits : Nat) :
    numberOf (bitvecLshift y nbits) = (numberOf y <<< nbits) % 2 ^ 192 := by
  apply Nat.eq_of_testBit_eq
  intro i
  rw [Nat.testBit_mod_two_pow, Nat.testBit_shiftLeft, testBit_numberOf, testBit_numberOf,
    bitvecLshift]
  have split := Nat.div_add_mod nbits 32
  by_cases whole : nbits % 32 = 0
  · have amount : 32 * (nbits / 32) = nbits := by omega
    rw [if_neg (not_not.mpr whole), bitOf_shiftWords, amount]
  · rw [if_pos whole, bitOf_shiftBits _ (by omega) (Nat.mod_lt _ (by decide)), bitOf_shiftWords]
    by_cases reached : nbits ≤ i
    · have amount : i - nbits % 32 - 32 * (nbits / 32) = i - nbits := by omega
      rw [amount, decide_eq_true reached, decide_eq_true (show nbits % 32 ≤ i by omega),
        decide_eq_true (show 32 * (nbits / 32) ≤ i - nbits % 32 by omega)]
      by_cases inside : i < 192
      · rw [decide_eq_true inside, decide_eq_true (show i - nbits % 32 < 192 by omega)]
        rfl
      · rw [decide_eq_false inside]
        rfl
    · rw [decide_eq_false reached]
      by_cases low : nbits % 32 ≤ i
      · rw [decide_eq_false (show ¬ 32 * (nbits / 32) ≤ i - nbits % 32 by omega)]
        simp
      · rw [decide_eq_false low]
        simp

/-- A shift that loses nothing. -/
theorem numberOf_lshift_of_fits {y : Bitvec} {nbits : Nat} (fits : (numberOf y).size + nbits ≤ 192) :
    numberOf (bitvecLshift y nbits) = numberOf y <<< nbits := by
  rw [numberOf_lshift, Nat.mod_eq_of_lt]
  rw [Nat.shiftLeft_eq]
  calc numberOf y * 2 ^ nbits < 2 ^ (numberOf y).size * 2 ^ nbits :=
        Nat.mul_lt_mul_of_pos_right (Nat.lt_size_self _) (Nat.two_pow_pos _)
    _ = 2 ^ ((numberOf y).size + nbits) := (pow_add _ _ _).symm
    _ ≤ 2 ^ 192 := Nat.pow_le_pow_right (by decide) fits

/-- Addition in the field is exclusive or. -/
@[simp] theorem numberOf_add (x y : Gf2Elem) :
    numberOf (gf2fieldAdd x y) = numberOf x ^^^ numberOf y := numberOf_xor x y

/-- Incrementing flips the lowest bit. -/
@[simp] theorem numberOf_inc (x : Gf2Elem) : numberOf (gf2fieldInc x) = numberOf x ^^^ 1 := by
  have sum : gf2fieldInc x = gf2fieldAdd x gf2fieldSetOne := by
    apply Vector.ext
    intro i inside
    rw [gf2fieldInc, gf2fieldAdd, Vector.getElem_zipWith]
    match i, inside with
    | 0, _ => simp [gf2fieldSetOne]
    | 1, _ | 2, _ | 3, _ | 4, _ | 5, _ => simp [gf2fieldSetOne]
  rw [sum, numberOf_add, numberOf_setOne]

end RentMate.BitVectors
