/-
Module: RentMate.Machine.WordVector
Purpose: Vectors of 32-bit words, least significant word first, as the numbers they hold.
Trusted boundary: human-reviewed spec
Main exports: bitOf, numberOf, testBit_numberOf, numberOf_injective, numberOf_xor
-/
import Mathlib.Algebra.Ring.Nat
import Mathlib.Data.Nat.Size
import Mathlib.Tactic.Common

namespace RentMate.Machine

variable {size : Nat}

/-- The bits of a word vector. There are none past its end. -/
def bitOf (words : Vector UInt32 size) (i : Nat) : Bool :=
  (words[i / 32]?.getD 0).toNat.testBit (i % 32)

/-- The number that words hold. -/
def numberOfWords : List UInt32 → Nat
  | [] => 0
  | word :: words => 2 ^ 32 * numberOfWords words + word.toNat

def numberOf (words : Vector UInt32 size) : Nat := numberOfWords words.toList

section Bits

variable {one other : Vector UInt32 size}

/-- A bit of the number is a bit of one of its words. -/
theorem testBit_numberOfWords (words : List UInt32) (i : Nat) :
    (numberOfWords words).testBit i = (words[i / 32]?.getD 0).toNat.testBit (i % 32) := by
  induction words generalizing i with
  | nil => simp [numberOfWords]
  | cons word words ih =>
      rw [numberOfWords, Nat.testBit_two_pow_mul_add _ word.toNat_lt]
      by_cases lowest : i < 32
      · rw [if_pos lowest, Nat.div_eq_of_lt lowest, Nat.mod_eq_of_lt lowest]
        rfl
      · have place : i / 32 = (i - 32) / 32 + 1 := by omega
        have offset : i % 32 = (i - 32) % 32 := by omega
        rw [if_neg lowest, ih, place, offset, List.getElem?_cons_succ]

/-- The number is zero exactly if every word is. -/
theorem numberOfWords_eq_zero {words : List UInt32} :
    numberOfWords words = 0 ↔ ∀ word ∈ words, word = 0 := by
  induction words with
  | nil => simp [numberOfWords]
  | cons word words ih =>
      rw [List.forall_mem_cons, ← ih, ← UInt32.toNat_inj, UInt32.toNat_zero]
      simp only [numberOfWords]
      omega

@[simp] theorem testBit_numberOf (words : Vector UInt32 size) (i : Nat) :
    (numberOf words).testBit i = bitOf words i := by
  rw [numberOf, testBit_numberOfWords, bitOf, Vector.getElem?_toList]

/-- A bit inside the vector is a bit of its word. -/
theorem bitOf_of_lt (words : Vector UInt32 size) {i : Nat} (inside : i / 32 < size) :
    bitOf words i = words[i / 32].toNat.testBit (i % 32) := by
  rw [bitOf, Vector.getElem?_eq_getElem inside, Option.getD_some]

/-- Past the last word there are no bits. -/
theorem bitOf_of_le (words : Vector UInt32 size) {i : Nat} (outside : 32 * size ≤ i) :
    bitOf words i = false := by
  rw [bitOf, Vector.getElem?_eq_none (by omega)]
  simp

/-- The words from the one at `place` on make the number from bit `32 * place` on. -/
theorem numberOf_mod_succ (words : Vector UInt32 size) {place : Nat} (inside : place < size) :
    numberOf words % 2 ^ (32 * (place + 1)) =
      2 ^ (32 * place) * words[place].toNat + numberOf words % 2 ^ (32 * place) := by
  apply Nat.eq_of_testBit_eq
  intro i
  rw [Nat.testBit_two_pow_mul_add _ (Nat.mod_lt _ (Nat.two_pow_pos _)), Nat.testBit_mod_two_pow,
    Nat.testBit_mod_two_pow, testBit_numberOf]
  by_cases below : i < 32 * place
  · rw [if_pos below, decide_eq_true below, decide_eq_true (by omega)]
  · rw [if_neg below]
    by_cases within : i < 32 * (place + 1)
    · have quotient : i / 32 = place := by omega
      have remainder : i % 32 = i - 32 * place := by omega
      rw [decide_eq_true within, bitOf_of_lt words (by omega), Bool.true_and, remainder]
      simp only [quotient]
    · have wide : 2 ^ 32 ≤ 2 ^ (i - 32 * place) := Nat.pow_le_pow_right (by decide) (by omega)
      rw [decide_eq_false within, Bool.false_and,
        Nat.testBit_lt_two_pow (Nat.lt_of_lt_of_le words[place].toNat_lt wide)]

/-- The number is below the power of two that the bits allow. -/
theorem numberOf_lt (words : Vector UInt32 size) : numberOf words < 2 ^ (32 * size) := by
  apply Nat.lt_pow_two_of_testBit
  intro i outside
  rw [testBit_numberOf, bitOf_of_le words outside]

/-- Vectors with the same bits are the same. -/
theorem eq_of_bitOf (same : ∀ i, bitOf one i = bitOf other i) : one = other := by
  apply Vector.ext
  intro place inside
  apply UInt32.toNat_inj.mp
  apply Nat.eq_of_testBit_eq
  intro offset
  by_cases small : offset < 32
  · have bits := same (32 * place + offset)
    have quotient : (32 * place + offset) / 32 = place := by omega
    have remainder : (32 * place + offset) % 32 = offset := by omega
    rw [bitOf_of_lt one (by omega), bitOf_of_lt other (by omega)] at bits
    simpa only [quotient, remainder] using bits
  · have wide : 2 ^ 32 ≤ 2 ^ offset := Nat.pow_le_pow_right (by decide) (Nat.le_of_not_lt small)
    rw [Nat.testBit_lt_two_pow (Nat.lt_of_lt_of_le one[place].toNat_lt wide),
      Nat.testBit_lt_two_pow (Nat.lt_of_lt_of_le other[place].toNat_lt wide)]

/-- A vector is known from its number. -/
theorem numberOf_injective (same : numberOf one = numberOf other) : one = other := by
  apply eq_of_bitOf
  intro i
  rw [← testBit_numberOf, same, testBit_numberOf]

@[simp] theorem numberOf_inj : numberOf one = numberOf other ↔ one = other :=
  ⟨numberOf_injective, congrArg numberOf⟩

@[simp] theorem numberOf_zero : numberOf (Vector.replicate size 0) = 0 := by
  apply Nat.eq_of_testBit_eq
  intro i
  rw [testBit_numberOf, Nat.zero_testBit]
  by_cases inside : i / 32 < size
  · rw [bitOf_of_lt _ inside, Vector.getElem_replicate]
    simp
  · rw [bitOf_of_le _ (by omega)]

/-- The bits of a sum are the sums of the bits. -/
theorem bitOf_xor (one other : Vector UInt32 size) (i : Nat) :
    bitOf (one.zipWith (· ^^^ ·) other) i = (bitOf one i ^^ bitOf other i) := by
  by_cases inside : i / 32 < size
  · rw [bitOf_of_lt _ inside, bitOf_of_lt one inside, bitOf_of_lt other inside,
      Vector.getElem_zipWith, UInt32.toNat_xor, Nat.testBit_xor]
  · rw [bitOf_of_le _ (by omega), bitOf_of_le one (by omega), bitOf_of_le other (by omega)]
    rfl

/-- Vectors are added by exclusive or of their numbers. -/
@[simp] theorem numberOf_xor (one other : Vector UInt32 size) :
    numberOf (one.zipWith (· ^^^ ·) other) = numberOf one ^^^ numberOf other := by
  apply Nat.eq_of_testBit_eq
  intro i
  rw [Nat.testBit_xor, testBit_numberOf, testBit_numberOf, testBit_numberOf, bitOf_xor]

end Bits

end RentMate.Machine
