/-
Module: RentMate.Machine.PackedPolynomial
Purpose: Binary polynomials with a whole byte for every coefficient. The product of such numbers is
  the product of the polynomials as long as no byte overflows, so that a few operations on large
  numbers multiply residues.
Trusted boundary: human-reviewed spec
Main exports: Packs, Packs.mul, Packs.parity, Packs.split, pack, PackedModulus,
  PackedModulus.product, PackedResidue
-/
import RentMate.Machine.BinaryPolynomial

namespace RentMate.Machine

open Polynomial

/-- The bytes of the number, `count` of them and none above `bound`, are the coefficients of the
polynomial modulo two. -/
inductive Packs (bound : Nat) : Nat → Nat → (ZMod 2)[X] → Prop where
  | nil : Packs bound 0 0 0
  | cons {count number digit : Nat} {p : (ZMod 2)[X]} (small : digit ≤ bound)
      (rest : Packs bound count number p) :
      Packs bound (count + 1) (digit + 256 * number) (C (digit : ZMod 2) + X * p)

/-- The lowest bits of `count` bytes. -/
def packedMask : Nat → Nat
  | 0 => 0
  | count + 1 => 1 + 256 * packedMask count

/-- The mask is found by one division. -/
theorem packedMask_eq {count mask : Nat} (value : 255 * mask + 1 = 1 <<< (8 * count)) :
    mask = packedMask count := by
  have ones : ∀ count, 255 * packedMask count + 1 = 1 <<< (8 * count) := by
    intro count
    induction count with
    | zero => rfl
    | succ count ih =>
        rw [Nat.shiftLeft_eq, one_mul] at ih ⊢
        rw [Nat.mul_succ, pow_add, ← ih, packedMask]
        ring
  have same := value.trans (ones count).symm
  omega

/-- The bits of a number, one in every byte. -/
def pack (number : Nat) : Nat → Nat
  | 0 => 0
  | count + 1 => number % 2 + 256 * pack (number / 2) count

namespace Packs

variable {bound larger count more one other number digit : Nat} {p q : (ZMod 2)[X]}

/-- Zero packs the zero polynomial. -/
theorem zero (bound count : Nat) : Packs bound count 0 0 := by
  induction count with
  | zero => exact .nil
  | succ count ih => simpa using Packs.cons (Nat.zero_le bound) ih

/-- Places may be added above. -/
theorem extend (packs : Packs bound count number p) (room : count ≤ more) :
    Packs bound more number p := by
  induction packs generalizing more with
  | nil => exact zero bound more
  | cons small rest ih =>
      obtain ⟨more, rfl⟩ := Nat.exists_eq_add_of_lt room
      exact .cons small (ih (by omega))

/-- Packed polynomials are added place by place, and the bounds on the places add up. -/
theorem add (packsOne : Packs bound count one p) (packsOther : Packs larger count other q) :
    Packs (bound + larger) count (one + other) (p + q) := by
  induction packsOne generalizing other q with
  | nil =>
      cases packsOther
      simpa using Packs.nil
  | @cons count number digit p small rest ih =>
      cases packsOther with
      | @cons _ numberOther digitOther q smallOther restOther =>
          have sum := Packs.cons (Nat.add_le_add small smallOther) (ih restOther)
          have value : digit + digitOther + 256 * (number + numberOther) =
              digit + 256 * number + (digitOther + 256 * numberOther) := by omega
          have polynomial : C ((digit + digitOther : Nat) : ZMod 2) + X * (p + q) =
              C (digit : ZMod 2) + X * p + (C (digitOther : ZMod 2) + X * q) := by
            rw [Nat.cast_add, C_add]
            ring
          rwa [value, polynomial] at sum

/-- A digit of zero or one. -/
theorem scale (packs : Packs 1 count number p) (small : digit ≤ 1) :
    Packs 1 count (digit * number) (C (digit : ZMod 2) * p) := by
  rcases Nat.le_one_iff_eq_zero_or_eq_one.mp small with rfl | rfl
  · simpa using zero 1 count
  · simpa using packs

/-- Every byte of a product is a sum of at most as many bits as the first factor has. -/
theorem mul (packsOne : Packs 1 count one p) (packsOther : Packs 1 more other q) :
    Packs count (count + more) (one * other) (p * q) := by
  induction packsOne with
  | nil => simpa using zero 0 (0 + more)
  | @cons count number digit p small rest ih =>
      have lowest := (packsOther.scale small).extend (show more ≤ count + 1 + more by omega)
      have shifted := Packs.cons (Nat.zero_le count) ih
      have sum := (shifted.extend (show count + more + 1 ≤ count + 1 + more by omega)).add lowest
      have value : 0 + 256 * (number * other) + digit * other =
          (digit + 256 * number) * other := by ring
      have polynomial : C ((0 : Nat) : ZMod 2) + X * (p * q) + C (digit : ZMod 2) * q =
          (C (digit : ZMod 2) + X * p) * q := by
        rw [Nat.cast_zero, C_0]
        ring
      rwa [value, polynomial] at sum

/-- Only the lowest bit of a byte counts. -/
theorem and_cons (digit number mask : Nat) (small : digit < 256) :
    (digit + 256 * number) &&& (1 + 256 * mask) = digit % 2 + 256 * (number &&& mask) := by
  apply Nat.eq_of_testBit_eq
  intro i
  have low : digit % 2 < 2 ^ 8 := by omega
  rw [Nat.add_comm digit, Nat.add_comm 1, Nat.add_comm (digit % 2), Nat.testBit_and,
    show (256 : Nat) = 2 ^ 8 from rfl, Nat.testBit_two_pow_mul_add _ small,
    Nat.testBit_two_pow_mul_add _ (show 1 < 2 ^ 8 by decide), Nat.testBit_two_pow_mul_add _ low]
  by_cases inside : i < 8
  · rw [if_pos inside, if_pos inside, if_pos inside]
    cases i with
    | zero => simp
    | succ i =>
        have high : digit % 2 / 2 = 0 := by omega
        simp [Nat.testBit_succ, high]
  · rw [if_neg inside, if_neg inside, if_neg inside, Nat.testBit_and]

/-- Taking the lowest bit of each place leaves the same polynomial. -/
theorem parity (packs : Packs bound count number p) (room : bound < 256) (covered : count ≤ more) :
    Packs 1 count (number &&& packedMask more) p := by
  induction packs generalizing more with
  | nil => rw [Nat.zero_and]; exact .nil
  | @cons count number digit p small rest ih =>
      obtain ⟨others, rfl⟩ := Nat.exists_eq_add_of_lt covered
      have bit := Packs.cons (show digit % 2 ≤ 1 by omega) (ih (Nat.le_add_right count others))
      rwa [ZMod.natCast_mod, ← and_cons digit number _ (by omega)] at bit

/-- The bytes up to a place and the ones from there on. -/
theorem split (packs : Packs bound (count + more) number p) (room : bound < 256) :
    ∃ low high, p = low + X ^ count * high ∧ Packs bound count (number % 256 ^ count) low ∧
      Packs bound more (number / 256 ^ count) high := by
  induction count generalizing number p with
  | zero =>
      refine ⟨0, p, by simp, ?_, ?_⟩
      · rw [pow_zero, Nat.mod_one]
        exact .nil
      · rw [pow_zero, Nat.div_one]
        exact packs.extend (by omega)
  | succ count ih =>
      have packs := packs.extend (show count + 1 + more ≤ count + more + 1 by omega)
      cases packs with
      | @cons _ rest digit q small packsRest =>
          obtain ⟨low, high, rfl, packsLow, packsHigh⟩ := ih packsRest
          have quotient : (digit + 256 * rest) / 256 ^ (count + 1) = rest / 256 ^ count := by
            rw [pow_succ', ← Nat.div_div_eq_div_mul]
            congr 1
            omega
          have remainder : (digit + 256 * rest) % 256 ^ (count + 1) =
              digit + 256 * (rest % 256 ^ count) := by
            rw [pow_succ', Nat.mod_mul]
            congr 1
            · omega
            · congr 2
              omega
          refine ⟨C (digit : ZMod 2) + X * low, high, by ring, ?_, ?_⟩
          · rw [remainder]
            exact .cons small packsLow
          · rw [quotient]
            exact packsHigh

/-- A number packs one polynomial only. -/
theorem unique (packs : Packs bound count number p) (room : bound < 256)
    (again : Packs bound count number q) : p = q := by
  generalize same : number = value at again
  induction packs generalizing value q with
  | nil =>
      cases again
      rfl
  | @cons count number digit p small rest ih =>
      cases again with
      | @cons _ others first q smallFirst restAgain =>
          have digits : digit = first := by omega
          have numbers : number = others := by omega
          rw [digits, ih others numbers restAgain]

/-- A packed polynomial has fewer coefficients than there are places. -/
theorem degree_lt (packs : Packs bound count number p) : p.degree < count := by
  induction packs with
  | nil => simp
  | @cons count number digit p small rest ih =>
      rw [degree_lt_iff_coeff_zero] at ih ⊢
      intro i outside
      cases i with
      | zero => omega
      | succ i => simp [ih i (by omega)]

/-- No other number packs the zero polynomial. -/
theorem eq_zero (packs : Packs 1 count number p) : p = 0 ↔ number = 0 := by
  induction packs with
  | nil => simp
  | @cons count number digit p small rest ih =>
      constructor
      · intro vanishes
        have first : (C (digit : ZMod 2) + X * p).coeff 0 = 0 := by rw [vanishes, coeff_zero]
        have others : p = 0 := by
          ext i
          have next : (C (digit : ZMod 2) + X * p).coeff (i + 1) = 0 := by
            rw [vanishes, coeff_zero]
          simpa [coeff_C] using next
        have clear : digit = 0 := by
          rcases Nat.le_one_iff_eq_zero_or_eq_one.mp small with zero | rfl
          · exact zero
          · simp at first
        rw [clear, ih.mp others]
      · intro empty
        have clear : digit = 0 := by omega
        rw [clear, ih.mpr (by omega)]
        simp

/-- Packing the bits of a number packs its polynomial. -/
theorem pack (count number : Nat) (short : number < 2 ^ count) :
    Packs 1 count (pack number count) (polynomialOf number) := by
  induction count generalizing number with
  | zero =>
      obtain rfl : number = 0 := by omega
      rw [polynomialOf_zero]
      exact .nil
  | succ count ih =>
      have halves : polynomialOf number =
          C ((number % 2 : Nat) : ZMod 2) + X * polynomialOf (number / 2) := by
        ext i
        cases i with
        | zero =>
            rw [coeff_polynomialOf, Nat.testBit_zero]
            rcases Nat.mod_two_eq_zero_or_one number with even | odd
            · simp [even]
            · simp [odd]
        | succ i =>
            rw [coeff_polynomialOf, Nat.testBit_succ, coeff_add, coeff_X_mul, coeff_polynomialOf]
            simp
      rw [halves]
      exact .cons (by omega) (ih _ (by rw [pow_succ] at short; omega))

end Packs

/-! ### Residues -/

/-- A modulus `X ^ degree + tail` whose tail is short, with the numbers worked out that its products
need. -/
structure PackedModulus extends BinaryModulus where
  tail : Nat
  tailCount : Nat
  split : value = tail ^^^ 1 <<< degree
  short : tail < 2 ^ tailCount
  low : 2 * tailCount ≤ degree
  few : degree < 256
  packedTail : Nat
  packedTail_eq : packedTail = pack tail tailCount
  place : Nat
  place_eq : place = 256 ^ degree
  mask : Nat
  mask_eq : mask = packedMask (2 * degree)

namespace PackedModulus

variable (modulus : PackedModulus)

/-- What lies above the degree is folded down once. -/
def folded (number : Nat) : Nat :=
  (number % modulus.place + modulus.packedTail * (number / modulus.place)) &&& modulus.mask

def product (one other : Nat) : Nat :=
  modulus.folded (modulus.folded (one * other &&& modulus.mask))

def sum (one other : Nat) : Nat := (one + other) &&& modulus.mask

/-- `X` squared `count` times. -/
def frobenius : Nat → Nat
  | 0 => pack 2 modulus.degree
  | count + 1 => modulus.product (frobenius count) (frobenius count)

/-- The number packs a polynomial of the residue. -/
def Holds (number : Nat) (a : modulus.Residues) : Prop :=
  ∃ p, Packs 1 modulus.degree number p ∧ AdjoinRoot.mk modulus.polynomial p = a

section Products

variable {modulus} {number one other more : Nat} {a b : modulus.Residues} {p : (ZMod 2)[X]}

/-- The part above the degree is the tail times that part, modulo the modulus. -/
theorem mk_high (high : (ZMod 2)[X]) :
    AdjoinRoot.mk modulus.polynomial (X ^ modulus.degree * high) =
      AdjoinRoot.mk modulus.polynomial (polynomialOf modulus.tail * high) := by
  have polynomial : modulus.polynomial = polynomialOf modulus.tail + X ^ modulus.degree := by
    change polynomialOf modulus.value = _
    rw [modulus.split, polynomialOf_xor, polynomialOf_shiftLeft, polynomialOf_one, one_mul]
  rw [AdjoinRoot.mk_eq_mk, polynomial, CharTwo.sub_eq_add, ← add_mul, add_comm (X ^ _)]
  exact Dvd.intro _ rfl

/-- A fold keeps the residue and shortens the polynomial. -/
theorem folded_ok (packs : Packs 1 (modulus.degree + more) number p)
    (covered : modulus.tailCount + more ≤ 2 * modulus.degree) :
    ∃ q, Packs 1 (max modulus.degree (modulus.tailCount + more)) (modulus.folded number) q ∧
      AdjoinRoot.mk modulus.polynomial q = AdjoinRoot.mk modulus.polynomial p := by
  have few := modulus.few
  have low := modulus.low
  obtain ⟨lower, high, rfl, packsLower, packsHigh⟩ := packs.split (by decide)
  have packsTail := Packs.pack modulus.tailCount modulus.tail modulus.short
  have sum := (packsLower.extend (le_max_left _ _)).add
    ((packsTail.mul packsHigh).extend (le_max_right _ _))
  have bits := sum.parity (by omega) (show max _ _ ≤ 2 * modulus.degree by omega)
  refine ⟨lower + polynomialOf modulus.tail * high, ?_, ?_⟩
  · rw [folded, modulus.place_eq, modulus.packedTail_eq, modulus.mask_eq]
    exact bits
  · rw [map_add, map_add, mk_high]

/-- The packed product holds the product. -/
theorem Holds.product (holdsOne : modulus.Holds one a) (holdsOther : modulus.Holds other b) :
    modulus.Holds (modulus.product one other) (a * b) := by
  have low := modulus.low
  obtain ⟨p, packsOne, rfl⟩ := holdsOne
  obtain ⟨q, packsOther, rfl⟩ := holdsOther
  have whole := (packsOne.mul packsOther).parity modulus.few
    (show modulus.degree + modulus.degree ≤ 2 * modulus.degree by omega)
  rw [← modulus.mask_eq] at whole
  obtain ⟨once, packsOnce, sameOnce⟩ := folded_ok whole (by omega)
  have packsOnce := packsOnce.extend
    (show max _ _ ≤ modulus.degree + modulus.tailCount by omega)
  obtain ⟨twice, packsTwice, sameTwice⟩ := folded_ok packsOnce (by omega)
  refine ⟨twice, packsTwice.extend (show max _ _ ≤ modulus.degree by omega), ?_⟩
  rw [sameTwice, sameOnce, map_mul]

/-- The packed sum holds the sum. -/
theorem Holds.sum (holdsOne : modulus.Holds one a) (holdsOther : modulus.Holds other b) :
    modulus.Holds (modulus.sum one other) (a + b) := by
  obtain ⟨p, packsOne, rfl⟩ := holdsOne
  obtain ⟨q, packsOther, rfl⟩ := holdsOther
  have bits := (packsOne.add packsOther).parity (by decide)
    (show modulus.degree ≤ 2 * modulus.degree by omega)
  rw [← modulus.mask_eq] at bits
  exact ⟨p + q, bits, map_add _ p q⟩

/-- A number holds one residue only. -/
theorem Holds.unique (holds : modulus.Holds number a) (again : modulus.Holds number b) :
    a = b := by
  obtain ⟨p, packs, rfl⟩ := holds
  obtain ⟨q, packsAgain, rfl⟩ := again
  rw [packs.unique (by decide) packsAgain]

/-- The residue vanishes exactly if the packed number does. -/
theorem Holds.eq_zero (holds : modulus.Holds number a) : a = 0 ↔ number = 0 := by
  obtain ⟨p, packs, rfl⟩ := holds
  rw [← packs.eq_zero, AdjoinRoot.mk_eq_zero]
  constructor
  · intro divides
    apply eq_zero_of_dvd_of_degree_lt divides
    rw [degree_eq_natDegree BinaryModulus.polynomial_ne_zero, BinaryModulus.natDegree_polynomial]
    exact packs.degree_lt
  · rintro rfl
    exact dvd_zero _

/-- A packed reduced number holds its residue. -/
theorem holds_pack (reduced : modulus.Reduced number) :
    modulus.Holds (pack number modulus.degree) (modulus.residue number) :=
  ⟨_, Packs.pack _ _ reduced, rfl⟩

/-- Repeated squaring of the variable holds the iterated power of the root. -/
theorem holds_frobenius (large : 1 < modulus.degree) (count : Nat) :
    modulus.Holds (modulus.frobenius count)
      (AdjoinRoot.root modulus.polynomial ^ 2 ^ count) := by
  induction count with
  | zero =>
      have two := holds_pack (BinaryModulus.two_reduced large)
      rw [BinaryModulus.residue_two] at two
      rwa [pow_zero, pow_one]
  | succ count ih =>
      rw [pow_succ, pow_mul, sq]
      exact ih.product ih

end Products

end PackedModulus

/-- A packed number with the operations on residues. -/
structure PackedResidue (modulus : PackedModulus) where
  number : Nat

namespace PackedResidue

variable {modulus : PackedModulus}

instance : Mul (PackedResidue modulus) :=
  ⟨fun one other => { number := modulus.product one.number other.number }⟩

instance : Add (PackedResidue modulus) :=
  ⟨fun one other => { number := modulus.sum one.number other.number }⟩

def Holds (packed : PackedResidue modulus) (a : modulus.Residues) : Prop :=
  modulus.Holds packed.number a

/-- The packed number of a residue. -/
def ofNat (number : Nat) : PackedResidue modulus := { number := pack number modulus.degree }

section Operations

variable {one other : PackedResidue modulus} {a b : modulus.Residues} {number : Nat}

/-- The product of packed residues holds the product. -/
theorem Holds.mul (holdsOne : one.Holds a) (holdsOther : other.Holds b) :
    (one * other).Holds (a * b) :=
  PackedModulus.Holds.product holdsOne holdsOther

/-- The sum of packed residues holds the sum. -/
theorem Holds.add (holdsOne : one.Holds a) (holdsOther : other.Holds b) :
    (one + other).Holds (a + b) :=
  PackedModulus.Holds.sum holdsOne holdsOther

/-- The test for zero decides whether the residue vanishes. -/
theorem Holds.isZero_iff (holds : one.Holds a) : (one.number == 0) = true ↔ a = 0 := by
  rw [beq_iff_eq]
  exact (PackedModulus.Holds.eq_zero holds).symm

/-- A reduced number is packed as its residue. -/
theorem holds_ofNat (reduced : modulus.Reduced number) :
    (ofNat number : PackedResidue modulus).Holds (modulus.residue number) :=
  PackedModulus.holds_pack reduced

end Operations

end PackedResidue

end RentMate.Machine
