/-
Module: RentMate.Machine.Records
Purpose: Records of one size that lie one behind the other at the start of a block of bytes:
  reading one of them, writing one behind the last, moving the last ones over one of them.
Trusted boundary: human-reviewed spec
Main exports: Packed, Packed.slice_record, Packed.append, Packed.erase, Packed.kept
-/
import RentMate.Machine.Buffer

namespace RentMate.Machine

/-- The block starts with the records, each of `size` bytes. -/
structure Packed (size : Nat) (records : List Bytes) (bytes : Bytes) : Prop where
  sizes : ∀ record ∈ records, record.length = size
  content : records.flatten <+: bytes

section Records

variable {size index count : Nat} {records : List Bytes} {bytes record : Bytes}

/-- Records of one size take as many bytes as their number times that size. -/
theorem length_flatten_records (sizes : ∀ record ∈ records, record.length = size) :
    records.flatten.length = records.length * size := by
  induction records with
  | nil => rw [List.flatten_nil, List.length_nil, List.length_nil, Nat.zero_mul]
  | cons first rest ih =>
      rw [List.flatten_cons, List.length_append, List.length_cons, sizes first List.mem_cons_self,
        ih fun record inside => sizes record (List.mem_cons_of_mem _ inside), Nat.add_mul,
        Nat.one_mul, Nat.add_comm]

namespace Packed

/-- No records are packed anywhere. -/
theorem nil : Packed size [] bytes := ⟨nofun, List.nil_prefix⟩

/-- What lies in front of a record, and what lies behind it. -/
theorem split (packed : Packed size records bytes) (inside : index < records.length) :
    ∃ behind, bytes =
        (records.take index).flatten ++
          (records[index] ++ ((records.drop (index + 1)).flatten ++ behind)) ∧
      (records.take index).flatten.length = index * size ∧
      (records.drop (index + 1)).flatten.length = (records.length - index - 1) * size := by
  obtain ⟨behind, content⟩ := packed.content
  refine ⟨behind, ?_, ?_, ?_⟩
  · have parts : records = records.take index ++ records[index] :: records.drop (index + 1) := by
      rw [List.getElem_cons_drop, List.take_append_drop]
    have whole : records.flatten = (records.take index).flatten ++
        (records[index] ++ (records.drop (index + 1)).flatten) := by
      rw [← List.flatten_cons, ← List.flatten_append, ← parts]
    rw [← content, whole, List.append_assoc, List.append_assoc]
  · rw [length_flatten_records fun record member =>
      packed.sizes record (List.mem_of_mem_take member), List.length_take,
      Nat.min_eq_left (Nat.le_of_lt inside)]
  · rw [length_flatten_records fun record member =>
      packed.sizes record (List.mem_of_mem_drop member), List.length_drop, Nat.sub_sub]

/-- A read of the first bytes of a record. -/
theorem slice_record (packed : Packed size records bytes) (inside : index < records.length)
    (within : count ≤ size) :
    slice bytes (index * size) count = records[index].take count := by
  obtain ⟨behind, content, front, -⟩ := packed.split inside
  have whole : records[index].length = size := packed.sizes _ (List.getElem_mem inside)
  rw [content, ← front, slice, List.drop_left, List.take_append_of_le_length (by omega)]

/-- A record lies within the block. -/
theorem record_fits (packed : Packed size records bytes) (inside : index < records.length) :
    index * size + size ≤ bytes.length := by
  obtain ⟨behind, content, front, -⟩ := packed.split inside
  have whole : records[index].length = size := packed.sizes _ (List.getElem_mem inside)
  rw [content, List.length_append, List.length_append, front, whole]
  omega

/-- The records behind one of them lie within the block. -/
theorem behind_fits (packed : Packed size records bytes) (inside : index < records.length) :
    (index + 1) * size + size * (records.length - index - 1) ≤ bytes.length := by
  obtain ⟨behind, counted⟩ := Nat.exists_eq_add_of_le (Nat.succ_le_of_lt inside)
  have whole := packed.content.length_le
  have left : records.length - index - 1 = behind := by
    omega
  rw [length_flatten_records packed.sizes, counted, Nat.add_mul, Nat.mul_comm behind] at whole
  rw [left]
  exact whole

/-- A record that is written behind the last one. -/
theorem append (packed : Packed size records bytes) (whole : record.length = size) :
    Packed size (records ++ [record]) (splice bytes (records.length * size) record) := by
  constructor
  · intro other inside
    rcases List.mem_append.mp inside with earlier | last
    · exact packed.sizes other earlier
    · rw [List.mem_singleton.mp last, whole]
  · obtain ⟨behind, content⟩ := packed.content
    have front := length_flatten_records packed.sizes
    rw [splice, ← content, ← front, List.take_left, List.flatten_append, List.flatten_singleton]
    exact List.prefix_append _ _

/-- The records behind one of them, moved over it. -/
theorem erase (packed : Packed size records bytes) (inside : index < records.length) :
    Packed size (records.eraseIdx index)
      (splice bytes (index * size)
        (slice bytes ((index + 1) * size) (size * (records.length - index - 1)))) := by
  obtain ⟨behind, content, front, rest⟩ := packed.split inside
  have whole : records[index].length = size := packed.sizes _ (List.getElem_mem inside)
  have moved : slice bytes ((index + 1) * size) (size * (records.length - index - 1)) =
      (records.drop (index + 1)).flatten := by
    rw [content, ← List.append_assoc]
    apply slice_append_of_length
    · rw [List.length_append, front, whole, Nat.add_mul, Nat.one_mul]
    · rw [rest, Nat.mul_comm]
  constructor
  · exact fun record member => packed.sizes record (List.mem_of_mem_eraseIdx member)
  · rw [moved, splice, List.eraseIdx_eq_take_drop_succ, List.flatten_append]
    have kept : bytes.take (index * size) = (records.take index).flatten := by
      rw [content, ← front, List.take_left]
    rw [kept]
    exact List.prefix_append _ _

/-- A block that is made smaller or larger keeps the records that still fit it. -/
theorem kept (packed : Packed size records bytes) (fits : records.length * size ≤ count)
    (more : Bytes) : Packed size records (bytes.take count ++ more) := by
  refine ⟨packed.sizes, ?_⟩
  have front := length_flatten_records packed.sizes
  have within : records.flatten <+: bytes.take count := by
    apply List.prefix_take_iff.mpr
    exact ⟨packed.content, by rw [front]; exact fits⟩
  exact within.trans (List.prefix_append _ _)

end Packed

end Records

end RentMate.Machine
