/-
Module: RentMate.Machine.Circular
Purpose: Reading a byte queue that is written around its end, and what a write right behind
  the bytes read so far adds to them.
Trusted boundary: human-reviewed spec
Main exports: circular, circularEnd, circular_inside, circular_overlap, circular_splice
-/
import RentMate.Machine.Buffer

namespace RentMate.Machine

/-- `count` bytes of a circular queue from `start` on. -/
def circular (queue : Bytes) (start count : Nat) : Bytes :=
  slice (queue ++ queue) start count

/-- The index behind `count` bytes from `start` in a circular queue of `size` bytes. -/
def circularEnd (size start count : Nat) : Nat :=
  if start + count < size then start + count else start + count - size

section Slices

variable {bytes data : Bytes} {offset count place : Nat}

/-- A write in front of the slice does not change it. -/
theorem slice_splice_after (behind : place + data.length ≤ offset)
    (inside : place + data.length ≤ bytes.length) :
    slice (splice bytes place data) offset count = slice bytes offset count := by
  have short : (bytes.take place ++ data).length = place + data.length := by
    simp only [List.length_append, List.length_take]
    omega
  simp only [slice, splice]
  rw [List.drop_append, List.drop_of_length_le (by omega), short, List.nil_append,
    List.drop_drop]
  congr 2
  omega

/-- A slice that ends with what was written. -/
theorem slice_splice_through (data : Bytes) (through : offset ≤ place)
    (inside : place ≤ bytes.length) :
    slice (splice bytes place data) offset (place - offset + data.length) =
      slice bytes offset (place - offset) ++ data := by
  have short : (bytes.take place).length = place := by simp [inside]
  simp only [slice, splice, List.append_assoc]
  rw [List.drop_append_of_le_length (by omega), ← List.append_assoc,
    List.take_append_of_le_length (by simp; omega), List.take_of_length_le (by simp; omega),
    List.drop_take]

end Slices

section Reading

variable {queue data : Bytes} {start count used : Nat}

/-- A circular read that does not reach the end is a plain slice. -/
theorem circular_inside (inside : start + count ≤ queue.length) :
    circular queue start count = slice queue start count := by
  simp only [circular, slice]
  rw [List.drop_append_of_le_length (by omega), List.take_append_of_le_length
    (by rw [List.length_drop]; omega)]

/-- The front of a circular read is a shorter circular read. -/
theorem take_circular (fewer : used ≤ count) :
    (circular queue start count).take used = circular queue start used := by
  simp only [circular, slice, List.take_take, Nat.min_eq_left fewer]

/-- A circular read over the end is a slice at the end and one at the front. -/
theorem circular_overlap (starts : start ≤ queue.length) (overlap : queue.length ≤ start + count) :
    circular queue start count =
      slice queue start (queue.length - start) ++ slice queue 0 (start + count - queue.length) := by
  have longEnough : (queue.drop start).length ≤ count := by
    rw [List.length_drop]
    omega
  simp only [circular, slice]
  rw [List.drop_append_of_le_length starts, List.take_append, List.length_drop, List.drop_zero,
    List.take_of_length_le longEnough, List.take_of_length_le (Nat.le_of_eq List.length_drop)]
  congr 2
  omega

/-- Bytes written right behind the part read so far extend it. -/
theorem circular_splice (starts : start < queue.length)
    (room : used + data.length ≤ queue.length)
    (unbroken : circularEnd queue.length start used + data.length ≤ queue.length) :
    circular (splice queue (circularEnd queue.length start used) data) start
        (used + data.length) =
      circular queue start used ++ data := by
  have size : (splice queue (circularEnd queue.length start used) data).length = queue.length :=
    length_splice unbroken
  unfold circularEnd at unbroken size ⊢
  split at unbroken
  · rename_i inside
    rw [if_pos inside] at size ⊢
    rw [circular_inside (by omega), circular_inside (by omega)]
    have through := slice_splice_through data (Nat.le_add_right start used) (Nat.le_of_lt
      (show start + used < queue.length from inside))
    rwa [Nat.add_sub_cancel_left] at through
  · rename_i wrapped
    rw [if_neg wrapped] at size ⊢
    have starts' : start ≤ (splice queue (start + used - queue.length) data).length := by omega
    have overlap' : (splice queue (start + used - queue.length) data).length ≤
        start + (used + data.length) := by omega
    have behind : start + used - queue.length ≤ queue.length := by omega
    have through := slice_splice_through data (Nat.zero_le _) behind
    have count : start + (used + data.length) - queue.length =
        start + used - queue.length - 0 + data.length := by omega
    rw [circular_overlap starts' overlap', size, count, through,
      slice_splice_after (by omega) (by omega), ← List.append_assoc,
      circular_overlap (Nat.le_of_lt starts) (Nat.le_of_not_lt wrapped)]
    simp

end Reading

end RentMate.Machine
