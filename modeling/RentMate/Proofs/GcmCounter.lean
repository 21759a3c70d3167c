/-
Module: RentMate.Proofs.GcmCounter
Purpose: The counter of the crypto library's GCM as a number: the limit for the length of a
  message is the one up to which no block goes into the cipher twice under a key and a vector.
Trusted boundary: none
Main exports: counterNumber, counterNumber_counted, cipherInputs, cipherInputs_nodup_iff,
  mbedtlsGcmUpdate_distinct_iff
-/
import Mathlib.Data.List.Nodup
import RentMate.Proofs.GcmMessages

namespace RentMate.GcmCounter

open RentMate.Machine
open RentMate.MbedtlsGcm
open RentMate.GcmStream
open RentMate.GcmMessages

/-! ### The counter as a number -/

/-- A byte of a block. -/
def byteAt (y : GcmBlock) (i : Nat) : UInt8 := y[i]?.getD 0

/-- The number in the first bytes of the counter, the highest one first. -/
def counterNumber (y : GcmBlock) : Nat → Nat
  | 0 => 0
  | count + 1 => counterNumber y count * 256 + (byteAt y (12 + count)).toNat

section Counter

variable {y z : GcmBlock} {count i : Nat}

/-- Setting a byte changes that byte alone. -/
theorem byteAt_set (inside : i < 16) (byte : UInt8) (j : Nat) :
    byteAt (y.setIfInBounds i byte) j = if i = j then byte else byteAt y j := by
  rw [byteAt, byteAt, Vector.getElem?_setIfInBounds]
  split
  · rfl
  · rfl

/-- A block is known from its bytes. -/
theorem eq_of_byteAt (same : ∀ i < 16, byteAt y i = byteAt z i) : y = z := by
  refine Vector.ext fun i inside => ?_
  have byte := same i inside
  rw [byteAt, byteAt, Vector.getElem?_eq_getElem inside, Vector.getElem?_eq_getElem inside] at byte
  exact byte

/-- The counter is below the power of 256 that its bytes allow. -/
theorem counterNumber_lt (y : GcmBlock) (count : Nat) : counterNumber y count < 256 ^ count := by
  induction count with
  | zero => exact Nat.one_pos
  | succ count ih =>
      have byte := (byteAt y (12 + count)).toNat_lt
      rw [counterNumber, Nat.pow_succ]
      omega

/-- The counter depends on its own bytes alone. -/
theorem counterNumber_congr (same : ∀ i < count, byteAt y (12 + i) = byteAt z (12 + i)) :
    counterNumber y count = counterNumber z count := by
  induction count with
  | zero => rfl
  | succ count ih =>
      rw [counterNumber, counterNumber, same count (Nat.lt_succ_self count),
        ih fun i inside => same i (Nat.lt_succ_of_lt inside)]

/-- The bytes of the counter are known from its number. -/
theorem byteAt_of_counterNumber (same : counterNumber y count = counterNumber z count)
    (inside : i < count) : byteAt y (12 + i) = byteAt z (12 + i) := by
  induction count with
  | zero => exact absurd inside (Nat.not_lt_zero i)
  | succ count ih =>
      have byteY := (byteAt y (12 + count)).toNat_lt
      have byteZ := (byteAt z (12 + count)).toNat_lt
      rw [counterNumber, counterNumber] at same
      obtain before | rfl := Nat.lt_succ_iff_lt_or_eq.mp inside
      · exact ih (by omega) before
      · exact UInt8.toNat_inj.mp (by omega)

/-- Counting leaves the bytes behind the counted ones, and those in front of the counter. -/
theorem byteAt_countBlock (small : count ≤ 4) (outside : i < 12 ∨ 12 + count ≤ i) :
    byteAt (countBlock y count) i = byteAt y i := by
  induction count generalizing y with
  | zero => rfl
  | succ count ih =>
      rw [countBlock]
      have other : 12 + count ≠ i := by omega
      split
      · rw [byteAt_set (by omega), if_neg other]
      · rw [ih (by omega) (by omega), byteAt_set (by omega), if_neg other]

/-- Counting adds one, and starts again behind the largest number. -/
theorem counterNumber_countBlock (small : count ≤ 4) :
    counterNumber (countBlock y count) count = (counterNumber y count + 1) % 256 ^ count := by
  induction count generalizing y with
  | zero => rw [Nat.pow_zero, Nat.mod_one, counterNumber]
  | succ count ih =>
      have byte := (byteAt y (12 + count)).toNat_lt
      have bounded := counterNumber_lt y count
      have next : (byteAt y (12 + count) + 1).toNat = ((byteAt y (12 + count)).toNat + 1) % 256 :=
        UInt8.toNat_add ..
      rw [countBlock]
      change counterNumber (if byteAt y (12 + count) + 1 ≠ 0 then
          y.setIfInBounds (12 + count) (byteAt y (12 + count) + 1)
        else countBlock (y.setIfInBounds (12 + count) (byteAt y (12 + count) + 1)) count)
        (count + 1) = _
      have front : counterNumber
          (y.setIfInBounds (12 + count) (byteAt y (12 + count) + 1)) count =
          counterNumber y count := by
        refine counterNumber_congr fun i inside => ?_
        rw [byteAt_set (by omega), if_neg (by omega)]
      split
      next more =>
        have positive : (byteAt y (12 + count) + 1).toNat ≠ 0 := fun zero =>
          more (UInt8.toNat_inj.mp zero)
        rw [counterNumber, front, byteAt_set (by omega), if_pos rfl, counterNumber, Nat.pow_succ,
          Nat.mod_eq_of_lt (by omega)]
        omega
      next overflow =>
        have zero : byteAt y (12 + count) + 1 = 0 := not_not.mp overflow
        rw [counterNumber, ih (by omega), front, byteAt_countBlock (by omega) (by omega),
          byteAt_set (by omega), if_pos rfl, counterNumber, zero, UInt8.toNat_zero, Nat.add_zero,
          Nat.pow_succ, ← Nat.mul_mod_mul_right]
        rw [zero, UInt8.toNat_zero] at next
        have whole : (counterNumber y count + 1) * 256 =
            counterNumber y count * 256 + (byteAt y (12 + count)).toNat + 1 := by
          omega
        rw [whole]

/-- Counting does not touch the vector in front of the counter. -/
theorem byteAt_counted (blocks : Nat) (outside : i < 12) :
    byteAt (counted y blocks) i = byteAt y i := by
  induction blocks generalizing y with
  | zero => rfl
  | succ blocks ih => rw [counted, ih, byteAt_countBlock (Nat.le_refl 4) (Or.inl outside)]

/-- Counting adds to the counter, modulo its range. -/
theorem counterNumber_counted (y : GcmBlock) (blocks : Nat) :
    counterNumber (counted y blocks) 4 = (counterNumber y 4 + blocks) % 256 ^ 4 := by
  induction blocks generalizing y with
  | zero => rw [counted, Nat.add_zero, Nat.mod_eq_of_lt (counterNumber_lt y 4)]
  | succ blocks ih =>
      rw [counted, ih, counterNumber_countBlock (Nat.le_refl 4), Nat.mod_add_mod, Nat.add_assoc,
        Nat.add_comm 1]

end Counter

/-! ### What goes into the cipher -/

/-- The blocks that a message's key and vector put into the cipher: the one for the hash key, the
one that masks the tag, and one for each block of the message. -/
def cipherInputs (tables : GcmTables) (iv : Bytes) (length : Nat) : List GcmBlock :=
  zeroBlock :: (List.range (blockCount length + 1)).map (counted (startBlock tables iv))

section Inputs

variable {tables : GcmTables} {iv : Bytes} {length : Nat}

/-- All bytes of the zero block are zero. -/
theorem byteAt_zeroBlock (i : Nat) : byteAt zeroBlock i = 0 := by
  rw [byteAt, zeroBlock, Vector.getElem?_replicate]
  split <;> rfl

/-- The counter of the zero block is zero. -/
theorem counterNumber_zeroBlock : counterNumber zeroBlock 4 = 0 := by
  simp only [counterNumber, byteAt_zeroBlock, UInt8.toNat_zero]

/-- The start block of a vector of twelve bytes: the vector, and a counter of one. -/
theorem byteAt_startBlock (sized : iv.length = 12) {i : Nat} (inside : i < 16) :
    byteAt (startBlock tables iv) i = if 15 = i then 1 else iv[i]?.getD 0 := by
  rw [byteAt, startBlock, if_pos sized, Vector.getElem?_eq_getElem inside, Option.getD_some,
    Vector.getElem_setIfInBounds]
  split
  · rfl
  · simp [xorInto, zeroBlock]

/-- With a vector of 12 bytes, the counter starts at one. -/
theorem counterNumber_startBlock (sized : iv.length = 12) :
    counterNumber (startBlock tables iv) 4 = 1 := by
  have empty : ∀ i, 12 ≤ i → iv[i]?.getD 0 = 0 := by
    intro i behind
    rw [List.getElem?_eq_none (by omega), Option.getD_none]
  simp only [counterNumber]
  rw [byteAt_startBlock sized (by decide), byteAt_startBlock sized (by decide),
    byteAt_startBlock sized (by decide), byteAt_startBlock sized (by decide),
    if_neg (by decide), if_neg (by decide), if_neg (by decide), if_pos rfl,
    empty _ (by decide), empty _ (by decide), empty _ (by decide)]
  rfl

/-- The counter after some blocks of a message. -/
theorem counterNumber_chain (tables : GcmTables) (sized : iv.length = 12) (blocks : Nat) :
    counterNumber (counted (startBlock tables iv) blocks) 4 = (1 + blocks) % 256 ^ 4 := by
  rw [counterNumber_counted, counterNumber_startBlock sized]

/-- The inputs of every message are apart exactly up to the number of blocks that fits into the
counter beside the tag's block. -/
theorem cipherInputs_nodup_iff (tables : GcmTables) (length : Nat) :
    (∀ iv : Bytes, iv.length = 12 → (cipherInputs tables iv length).Nodup) ↔
      length ≤ 0xFFFFFFFE0 := by
  constructor
  · intro distinct
    by_contra long
    -- The vector of zeros comes back to the block of zeros.
    have first := (List.nodup_cons.mp (distinct (List.replicate 12 0) List.length_replicate)).1
    refine first (List.mem_map.mpr ⟨2 ^ 32 - 1, List.mem_range.mpr ?_, ?_⟩)
    · rw [blockCount]
      omega
    · refine eq_of_byteAt fun i inside => ?_
      by_cases front : i < 12
      · rw [byteAt_counted _ front, byteAt_startBlock List.length_replicate inside,
          if_neg (by omega), byteAt_zeroBlock, List.getElem?_replicate, if_pos front,
          Option.getD_some]
      · obtain ⟨j, rfl⟩ := Nat.exists_eq_add_of_le (Nat.le_of_not_lt front)
        refine byteAt_of_counterNumber ?_ (show j < 4 by omega)
        rw [counterNumber_chain tables List.length_replicate, counterNumber_zeroBlock]
        decide
  · intro short iv sized
    have few : blockCount length ≤ 2 ^ 32 - 2 := by
      rw [blockCount]
      omega
    refine List.nodup_cons.mpr ⟨?_, ?_⟩
    · intro member
      obtain ⟨blocks, inside, same⟩ := List.mem_map.mp member
      have number := counterNumber_chain tables sized blocks
      rw [same, counterNumber_zeroBlock] at number
      have bounded := List.mem_range.mp inside
      omega
    · refine List.Nodup.map_on ?_ List.nodup_range
      intro one insideOne other insideOther same
      have number := counterNumber_chain tables sized one
      rw [same, counterNumber_chain tables sized] at number
      have boundedOne := List.mem_range.mp insideOne
      have boundedOther := List.mem_range.mp insideOther
      omega

/-- A message is accepted exactly if the blocks of no message of its length go into the cipher
twice, whatever the vector is. -/
theorem mbedtlsGcmUpdate_distinct_iff (ctx : GcmContext) {input : Bytes} (fresh : ctx.len = 0)
    (short : input.length < 2 ^ 64) :
    (∃ next output, mbedtlsGcmUpdate ctx input = .ok (next, output)) ↔
      ∀ iv : Bytes, iv.length = 12 → (cipherInputs ctx.toGcmTables iv input.length).Nodup := by
  rw [cipherInputs_nodup_iff, mbedtlsGcmUpdate_eq ctx short, fresh, UInt64.toNat_zero,
    Nat.zero_add]
  constructor
  · rintro ⟨next, output, ran⟩
    by_contra long
    rw [if_neg long] at ran
    cases ran
  · intro fits
    rw [if_pos fits]
    exact ⟨_, _, rfl⟩

end Inputs

/-- Twenty bytes of zeros over the context that has been initialised. -/
theorem mbedtlsGcmUpdate_distinct_zeros :
    (∃ next output,
        mbedtlsGcmUpdate mbedtlsGcmInit (List.replicate 20 0) = .ok (next, output)) ↔
      ∀ iv : Bytes, iv.length = 12 →
        (cipherInputs mbedtlsGcmInit.toGcmTables iv (List.replicate 20 (0 : UInt8)).length).Nodup :=
  mbedtlsGcmUpdate_distinct_iff mbedtlsGcmInit rfl (by decide)

end RentMate.GcmCounter
