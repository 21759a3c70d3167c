/-
Module: RentMate.Machine.Heap
Purpose: Memory that is allocated while a program runs, which may fail, and the `int` arithmetic
  that sizes and counts are computed with.
Trusted boundary: human-reviewed spec
Main exports: Memory, malloc, realloc, toInt, signed
-/
import RentMate.Machine.Buffer
import Mathlib.Algebra.Ring.Int.Defs

namespace RentMate.Machine

/-! ### Allocations -/

/-- Whether an allocation finds memory, and what lies in it then. -/
abbrev Memory := Option (Nat → UInt8)

/-- `malloc`, as the block that it returns, or `none` for `NULL`. -/
def malloc (size : Nat) (memory : Memory) : Option Bytes :=
  memory.map fun fresh => (List.range size).map fresh

/-- `realloc`, with a size that is converted from an `int`: one below zero becomes one that is
larger than any object, and for zero the old block is freed. -/
def realloc (data : Bytes) (size : Int) (memory : Memory) : Option Bytes :=
  if size ≤ 0 then none
  else
    memory.map fun fresh =>
      data.take size.toNat ++
        (List.range' data.length (size.toNat - data.length)).map fresh

/-! ### Numbers -/

/-- The conversion to `int`. -/
def toInt (value : Int) : Int := value.bmod (2 ^ 32)

/-- The result of an `int` operation. -/
def signed (value : Int) : Checked Int :=
  if -2 ^ 31 ≤ value ∧ value < 2 ^ 31 then .ok value else .error .signedOverflow

/-- A value that fits an `int` is the result of signed arithmetic. -/
theorem signed_ok {value : Int} (low : -2 ^ 31 ≤ value) (high : value < 2 ^ 31) :
    signed value = .ok value := if_pos ⟨low, high⟩

/-- A result of signed arithmetic is the value itself, which fits. -/
theorem signed_eq_ok {value result : Int} (ran : signed value = .ok result) :
    result = value ∧ value < 2 ^ 31 := by
  rw [signed] at ran
  split at ran
  · rename_i within
    exact ⟨(Except.ok.inj ran).symm, within.2⟩
  · cases ran

/-- A refused reallocation gives nothing. -/
theorem realloc_none (data : Bytes) (size : Int) : realloc data size none = none := by
  rw [realloc]
  split
  · rfl
  · rfl

/-- A block that is made larger or smaller keeps its first bytes. -/
theorem realloc_some (data : Bytes) {size : Int} (some : 0 < size) (fresh : Nat → UInt8) :
    ∃ more, realloc data size (Option.some fresh) = Option.some (data.take size.toNat ++ more) ∧
      (data.take size.toNat ++ more).length = size.toNat := by
  refine ⟨_, if_neg (Int.not_le.mpr some), ?_⟩
  rw [List.length_append, List.length_take, List.length_map, List.length_range']
  omega

/-- An allocated block has the size that was asked for. -/
theorem length_malloc {size : Nat} {memory : Memory} {block : Bytes}
    (made : malloc size memory = some block) : block.length = size := by
  rw [malloc, Option.map_eq_some_iff] at made
  obtain ⟨fresh, -, rfl⟩ := made
  rw [List.length_map, List.length_range]

end RentMate.Machine
