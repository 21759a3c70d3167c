/-
Module: RentMate.Machine.ReflectedPolynomial
Purpose: Words and byte strings as polynomials over the field of two elements with the highest bit
  first, and what shifts, concatenations and exclusive ors of words are for the polynomials.
Trusted boundary: human-reviewed spec
Main exports: reflected, reflected_shift, reflected_split, reflectedBytes
-/
import RentMate.Machine.BinaryPolynomial
import RentMate.Machine.Word

namespace RentMate.Machine

open Polynomial

/-! ### Words -/

/-- The polynomial whose coefficients are the bits of a word, the highest bit first. -/
noncomputable def reflected {width : Nat} (word : BitVec width) : (ZMod 2)[X] :=
  polynomialOf word.reverse.toNat

section Words

variable {width more : Nat}

/-- A coefficient is the bit in its place, counted from the most significant one. -/
theorem coeff_reflected (word : BitVec width) (i : Nat) :
    (reflected word).coeff i = if word.getMsbD i then 1 else 0 := by
  rw [reflected, coeff_polynomialOf, BitVec.testBit_toNat, BitVec.getLsbD_reverse]

@[simp] theorem reflected_zero : reflected 0#(width) = 0 := by
  ext i
  simp [coeff_reflected]

/-- Reflected words are added by exclusive or. -/
@[simp] theorem reflected_xor (one other : BitVec width) :
    reflected (one ^^^ other) = reflected one + reflected other := by
  ext i
  rw [coeff_add, coeff_reflected, coeff_reflected, coeff_reflected, BitVec.getMsbD_xor]
  cases one.getMsbD i <;> cases other.getMsbD i <;> simp
  exact (CharTwo.add_self_eq_zero 1).symm

/-- A word is known from its polynomial. -/
theorem reflected_injective {one other : BitVec width}
    (same : reflected one = reflected other) : one = other := by
  have reversed := BitVec.eq_of_toNat_eq (polynomialOf_injective same)
  have twice := congrArg BitVec.reverse reversed
  rwa [BitVec.reverse_reverse_eq, BitVec.reverse_reverse_eq] at twice

/-- A shift to the right multiplies by a power of `X`, but for the bits that it drops. -/
theorem reflected_shift (word : BitVec width) {count : Nat} (inside : count ≤ width) :
    reflected (word >>> count) =
      X ^ count * reflected word + X ^ width * reflected (word.setWidth count) := by
  ext i
  rw [coeff_add, coeff_X_pow_mul', coeff_X_pow_mul', coeff_reflected, coeff_reflected,
    coeff_reflected, BitVec.getMsbD_ushiftRight]
  by_cases low : i < count
  · simp [low, show ¬ count ≤ i by omega, show ¬ width ≤ i by omega]
  · by_cases high : i < width
    · simp [low, high, show count ≤ i by omega, show ¬ width ≤ i by omega]
    · have dropped : (word.setWidth count).getMsbD (i - width) = word.getMsbD (i - count) := by
        simp only [BitVec.getMsbD, BitVec.getLsbD_setWidth]
        by_cases bit : i - width < count
        · have inWord : i - count < width := by omega
          have place : count - 1 - (i - width) = width - 1 - (i - count) := by omega
          simp [bit, inWord, place]
          omega
        · simp [bit, show ¬ i - count < width by omega]
      simp only [high, decide_false, Bool.false_and, dropped, show count ≤ i by omega,
        show width ≤ i by omega, if_true]
      exact (CharTwo.add_self_eq_zero _).symm

/-- A word in two parts. -/
theorem reflected_append (high : BitVec width) (low : BitVec more) :
    reflected (high ++ low) = reflected high + X ^ width * reflected low := by
  ext i
  rw [coeff_add, coeff_X_pow_mul', coeff_reflected, coeff_reflected, coeff_reflected,
    BitVec.getMsbD_append]
  by_cases inside : width ≤ i
  · simp [inside, BitVec.getMsbD_of_ge]
  · simp [inside]

end Words

/-! ### Bytes -/

/-- The polynomial of a byte string, the first byte first. -/
noncomputable def reflectedBytes : Bytes → (ZMod 2)[X]
  | [] => 0
  | byte :: rest => reflected byte.toBitVec + X ^ 8 * reflectedBytes rest

section Bytes

variable {one other : Bytes}

@[simp] theorem reflectedBytes_nil : reflectedBytes [] = 0 := rfl

/-- The first byte holds the lowest coefficients. -/
theorem reflectedBytes_cons (byte : UInt8) (rest : Bytes) :
    reflectedBytes (byte :: rest) = reflected byte.toBitVec + X ^ 8 * reflectedBytes rest := rfl

/-- Bytes behind others stand for higher coefficients. -/
theorem reflectedBytes_append (one other : Bytes) :
    reflectedBytes (one ++ other) =
      reflectedBytes one + X ^ (8 * one.length) * reflectedBytes other := by
  induction one with
  | nil => simp
  | cons byte rest ih =>
      rw [List.cons_append, reflectedBytes_cons, reflectedBytes_cons, ih, List.length_cons,
        Nat.mul_succ, pow_add]
      ring

@[simp] theorem reflectedBytes_zeros (count : Nat) :
    reflectedBytes (List.replicate count 0) = 0 := by
  induction count with
  | zero => rfl
  | succ count ih => simp [List.replicate_succ, reflectedBytes_cons, ih]

/-- Bytes are added by exclusive or. -/
theorem reflectedBytes_xor (same : one.length = other.length) :
    reflectedBytes (List.zipWith (· ^^^ ·) one other) =
      reflectedBytes one + reflectedBytes other := by
  induction one generalizing other with
  | nil =>
      obtain rfl := List.length_eq_zero_iff.mp same.symm
      simp
  | cons byte rest ih =>
      cases other with
      | nil => cases same
      | cons first more =>
          rw [List.zipWith_cons_cons, reflectedBytes_cons, reflectedBytes_cons, reflectedBytes_cons,
            ih (Nat.succ.inj same), UInt8.toBitVec_xor, reflected_xor]
          ring

/-- A word has no more coefficients than bits. -/
theorem degree_reflected_lt {width : Nat} (word : BitVec width) :
    (reflected word).degree < width :=
  degree_polynomialOf_lt word.reverse.isLt

/-- Bytes have no more coefficients than bits. -/
theorem degree_reflectedBytes_lt (bytes : Bytes) :
    (reflectedBytes bytes).degree < (8 * bytes.length : Nat) := by
  rw [degree_lt_iff_coeff_zero]
  intro i outside
  induction bytes generalizing i with
  | nil => simp
  | cons byte rest ih =>
      rw [List.length_cons] at outside
      have small : (reflected byte.toBitVec).coeff i = 0 :=
        (degree_lt_iff_coeff_zero _ _).mp (degree_reflected_lt byte.toBitVec) i (by omega)
      rw [reflectedBytes_cons, coeff_add, coeff_X_pow_mul', small, zero_add,
        if_pos (by omega), ih _ (by omega)]

/-- Bytes of a known length are known from their polynomial. -/
theorem reflectedBytes_injective (length : one.length = other.length)
    (same : reflectedBytes one = reflectedBytes other) : one = other := by
  induction one generalizing other with
  | nil => exact (List.length_eq_zero_iff.mp length.symm).symm
  | cons byte rest ih =>
      cases other with
      | nil => cases length
      | cons first more =>
          have coefficients : ∀ i, (reflected byte.toBitVec).coeff i +
              (X ^ 8 * reflectedBytes rest).coeff i =
                (reflected first.toBitVec).coeff i + (X ^ 8 * reflectedBytes more).coeff i := by
            intro i
            rw [← coeff_add, ← coeff_add]
            exact congrArg (fun p => coeff p i) same
          have outside : ∀ (byte : UInt8) (i : Nat), 8 ≤ i →
              (reflected byte.toBitVec).coeff i = 0 := fun byte i =>
            (degree_lt_iff_coeff_zero _ _).mp (degree_reflected_lt byte.toBitVec) i
          have head : reflected byte.toBitVec = reflected first.toBitVec := by
            ext i
            by_cases low : i < 8
            · simpa [coeff_X_pow_mul', show ¬ 8 ≤ i by omega] using coefficients i
            · rw [outside byte i (by omega), outside first i (by omega)]
          have tail : reflectedBytes rest = reflectedBytes more := by
            ext i
            simpa [coeff_X_pow_mul', outside] using coefficients (i + 8)
          rw [UInt8.toBitVec_inj.mp (reflected_injective head), ih (Nat.succ.inj length) tail]

end Bytes

end RentMate.Machine
