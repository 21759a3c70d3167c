/-
Module: RentMate.Machine.Buffer
Purpose: Memory objects as byte lists with checked access. Every access of a C program names
  an object, an offset and a length; leaving the object is undefined behaviour and ends the
  computation with a `Fault`.
Trusted boundary: human-reviewed spec
Main exports: Fault, Checked, slice, splice, readBytes, writeBytes, load32, store32
-/
import RentMate.Machine.Word
import Mathlib.Algebra.Ring.Nat
import Mathlib.Tactic.Common

namespace RentMate.Machine

/-- The ways a run can leave defined behaviour. -/
inductive Fault where
  | outOfBounds
  | nullPointer
  | invalidRealloc
  | stackExhausted
  | invalidCall
  | diverges
  | signedOverflow
deriving Repr, Inhabited, DecidableEq

/-- A computation that may run into undefined behaviour. -/
abbrev Checked := Except Fault

/-! ### Sequencing checked computations -/

section Sequencing

variable {ε α β : Type}

@[simp] theorem ok_bind (value : α) (next : α → Except ε β) :
    (Except.ok value >>= next) = next value := rfl

@[simp] theorem error_bind (reason : ε) (next : α → Except ε β) :
    (Except.error reason >>= next) = Except.error reason := rfl

@[simp] theorem pure_eq_ok (value : α) : (pure value : Except ε α) = .ok value := rfl

/-- Passing a result on unchanged changes nothing. -/
@[simp] theorem bind_ok (first : Except ε α) : (first >>= fun value => .ok value) = first := by
  cases first <;> rfl

/-- A sequence succeeds exactly when both parts do. -/
theorem bind_eq_ok {first : Except ε α} {next : α → Except ε β} {result : β} :
    (first >>= next) = .ok result ↔ ∃ value, first = .ok value ∧ next value = .ok result := by
  cases first <;> simp

/-- When a value viewed in another way comes out. -/
theorem map_eq_ok {first : Except ε α} {view : α → β} {result : β} :
    first.map view = .ok result ↔ ∃ value, first = .ok value ∧ view value = result := by
  cases first <;> simp [Except.map]

/-- What ends with a fault has no result. -/
theorem no_result_of_fault {first : Except ε α} {view : α → β} {fault : ε} {post : α → Prop}
    (faults : first.map view = .error fault) :
    first.map view = .error fault ∧ ¬ ∃ result, first = .ok result ∧ post result := by
  refine ⟨faults, ?_⟩
  rintro ⟨result, rfl, -⟩
  cases faults

end Sequencing

/-! ### Parts of a byte list -/

/-- `count` bytes from `offset`, as many as there are. -/
def slice (bytes : Bytes) (offset count : Nat) : Bytes := (bytes.drop offset).take count

/-- `bytes` with `data` written over it at `offset`. -/
def splice (bytes : Bytes) (offset : Nat) (data : Bytes) : Bytes :=
  bytes.take offset ++ data ++ bytes.drop (offset + data.length)

section Parts

variable {front part rest bytes data : Bytes} {offset count : Nat}

@[simp] theorem slice_zero (bytes : Bytes) (offset : Nat) : slice bytes offset 0 = [] := by
  simp [slice]

@[simp] theorem splice_nil (bytes : Bytes) (offset : Nat) : splice bytes offset [] = bytes := by
  simp [splice]

/-- A slice inside the bytes has the length that was asked for. -/
theorem length_slice (fits : offset + count ≤ bytes.length) :
    (slice bytes offset count).length = count := by
  simp only [slice, List.length_take, List.length_drop]
  omega

/-- Overwriting inside the bytes keeps their length. -/
theorem length_splice (fits : offset + data.length ≤ bytes.length) :
    (splice bytes offset data).length = bytes.length := by
  simp only [splice, List.length_append, List.length_take, List.length_drop]
  omega

/-- Reading a part that is known by its place in a concatenation. -/
theorem slice_append (front part rest : Bytes) :
    slice (front ++ (part ++ rest)) front.length part.length = part := by
  simp [slice]

/-- The slice at the place of a part is that part. -/
theorem slice_append_of_length (atOffset : front.length = offset) (size : part.length = count) :
    slice (front ++ (part ++ rest)) offset count = part := by
  rw [← atOffset, ← size, slice_append]

/-- Writing over a part that is known by its place in a concatenation. -/
theorem splice_append (front part rest data : Bytes) (size : data.length = part.length) :
    splice (front ++ (part ++ rest)) front.length data = front ++ (data ++ rest) := by
  have behind : front.length + data.length = (front ++ part).length := by simp [size]
  rw [splice, behind, ← List.append_assoc front part rest, List.drop_left]
  simp

/-- Overwriting the place of a part replaces that part. -/
theorem splice_append_of_length (atOffset : front.length = offset)
    (size : data.length = part.length) :
    splice (front ++ (part ++ rest)) offset data = front ++ (data ++ rest) := by
  rw [← atOffset, splice_append front part rest data size]

/-- Past the front of a concatenation, a read is a read of the rest. -/
theorem slice_append_right (behind : front.length ≤ offset) :
    slice (front ++ rest) offset count = slice rest (offset - front.length) count := by
  rw [slice, slice, List.drop_append, List.drop_of_length_le behind, List.nil_append]

/-- A write changes nothing in front of it. -/
theorem take_splice {kept : Nat} (fits : offset ≤ bytes.length) (front : kept ≤ offset) :
    (splice bytes offset data).take kept = bytes.take kept := by
  have short : kept ≤ (bytes.take offset).length := by
    rw [List.length_take]
    omega
  rw [splice, List.append_assoc, List.take_append_of_le_length short, List.take_take,
    Nat.min_eq_left front]

/-- What was written is read back. -/
theorem slice_splice (fits : offset ≤ bytes.length) :
    slice (splice bytes offset data) offset data.length = data := by
  have front : (bytes.take offset).length = offset := by
    rw [List.length_take]
    omega
  rw [splice, List.append_assoc]
  exact slice_append_of_length front rfl

/-- Two writes, the second one right behind the first. -/
theorem splice_splice_behind {more : Bytes} (fits : offset + data.length ≤ bytes.length) :
    splice (splice bytes offset data) (offset + data.length) more =
      splice bytes offset (data ++ more) := by
  have front : (bytes.take offset ++ data).length = offset + data.length := by
    rw [List.length_append, List.length_take]
    omega
  rw [splice, splice, splice, List.take_append_of_le_length (by rw [front]),
    List.take_of_length_le (by rw [front]), List.drop_append, front,
    List.drop_of_length_le (by rw [front]; exact Nat.le_add_right _ _), List.nil_append,
    List.drop_drop, List.length_append]
  have shift : offset + data.length + (offset + data.length + more.length - (offset + data.length)) =
      offset + (data.length + more.length) := by
    omega
  rw [shift]
  simp only [List.append_assoc]

/-- The slice over everything is everything. -/
theorem slice_self (bytes : Bytes) : slice bytes 0 bytes.length = bytes := by
  simp [slice]

/-- Writing back what was read changes nothing. -/
theorem splice_slice (fits : offset + count ≤ bytes.length) :
    splice bytes offset (slice bytes offset count) = bytes := by
  rw [splice, length_slice fits, slice, List.append_assoc, ← List.drop_drop,
    List.take_append_drop, List.take_append_drop]

end Parts

/-! ### Checked access -/

/-- `memcpy` from an object: `count` bytes at `offset`. -/
def readBytes (object : Bytes) (offset count : Nat) : Checked Bytes :=
  if offset + count ≤ object.length ∨ count = 0 then .ok (slice object offset count)
  else .error .outOfBounds

/-- `memcpy` into an object: `data` at `offset`. -/
def writeBytes (object : Bytes) (offset : Nat) (data : Bytes) : Checked Bytes :=
  if offset + data.length ≤ object.length ∨ data = [] then .ok (splice object offset data)
  else .error .outOfBounds

/-- `*(uint32_t *)(object + offset)` on a host of the given byte order. -/
def load32 (host : ByteOrder) (object : Bytes) (offset : Nat) : Checked UInt32 := do
  let bytes ← readBytes object offset 4
  pure (host.decode bytes)

/-- `*(uint32_t *)(object + offset) = word` on a host of the given byte order. -/
def store32 (host : ByteOrder) (object : Bytes) (offset : Nat) (word : UInt32) : Checked Bytes :=
  writeBytes object offset (host.encode word)

section Access

variable {host : ByteOrder} {object result bytes data front part rest : Bytes}
  {offset count : Nat} {word : UInt32}

/-- A read inside an object gives the bytes there. -/
theorem readBytes_ok (fits : offset + count ≤ object.length) :
    readBytes object offset count = .ok (slice object offset count) := by
  simp [readBytes, fits]

/-- When a read goes through, and what it gives. -/
theorem readBytes_eq_ok :
    readBytes object offset count = .ok bytes ↔
      (offset + count ≤ object.length ∨ count = 0) ∧ bytes = slice object offset count := by
  unfold readBytes
  split
  · rename_i fits
    simp [fits, eq_comm]
  · rename_i overrun
    simp [overrun]

/-- A write inside an object replaces the bytes there. -/
theorem writeBytes_ok (fits : offset + data.length ≤ object.length) :
    writeBytes object offset data = .ok (splice object offset data) := by
  simp [writeBytes, fits]

/-- When a write goes through, and what it leaves. -/
theorem writeBytes_eq_ok :
    writeBytes object offset data = .ok result ↔
      (offset + data.length ≤ object.length ∨ data = []) ∧
        result = splice object offset data := by
  unfold writeBytes
  split
  · rename_i fits
    simp [fits, eq_comm]
  · rename_i overrun
    simp [overrun]

/-- A write never changes the size of the object. -/
theorem writeBytes_length (written : writeBytes object offset data = .ok result) :
    result.length = object.length := by
  obtain ⟨fits | empty, rfl⟩ := writeBytes_eq_ok.mp written
  · exact length_splice fits
  · simp [empty]

/-- A word inside an object is loaded in the order of the host. -/
theorem load32_ok (fits : offset + 4 ≤ object.length) :
    load32 host object offset = .ok (host.decode (slice object offset 4)) := by
  simp [load32, readBytes_ok fits]

/-- When a word is loaded, and which one. -/
theorem load32_eq_ok :
    load32 host object offset = .ok word ↔
      offset + 4 ≤ object.length ∧ word = host.decode (slice object offset 4) := by
  simp only [load32, bind_eq_ok, readBytes_eq_ok, pure_eq_ok, Except.ok.injEq]
  constructor
  · rintro ⟨bytes, ⟨fits | impossible, rfl⟩, rfl⟩
    · exact ⟨fits, rfl⟩
    · simp at impossible
  · rintro ⟨fits, rfl⟩
    exact ⟨_, ⟨Or.inl fits, rfl⟩, rfl⟩

/-- A word inside an object is stored in the order of the host. -/
theorem store32_ok (fits : offset + 4 ≤ object.length) :
    store32 host object offset word = .ok (splice object offset (host.encode word)) := by
  simp [store32, writeBytes, fits]

/-- When a word is stored, and what it leaves. -/
theorem store32_eq_ok :
    store32 host object offset word = .ok result ↔
      offset + 4 ≤ object.length ∧ result = splice object offset (host.encode word) := by
  simp [store32, writeBytes_eq_ok, host.encode_ne_nil word]

/-- Loading a word that is known by its place in a concatenation. -/
theorem load32_append (atOffset : front.length = offset) (four : part.length = 4) :
    load32 host (front ++ (part ++ rest)) offset = .ok (host.decode part) := by
  have fits : offset + 4 ≤ (front ++ (part ++ rest)).length := by
    simp only [List.length_append]
    omega
  rw [load32_ok fits, slice_append_of_length atOffset four]

/-- Storing a word over four bytes known by their place in a concatenation. -/
theorem store32_append (atOffset : front.length = offset) (four : part.length = 4) :
    store32 host (front ++ (part ++ rest)) offset word =
      .ok (front ++ (host.encode word ++ rest)) := by
  have fits : offset + 4 ≤ (front ++ (part ++ rest)).length := by
    simp only [List.length_append]
    omega
  rw [store32_ok fits, splice_append_of_length atOffset (by simp [four])]

/-- Reading a part that is known by its place in a concatenation. -/
theorem readBytes_append (atOffset : front.length = offset) (size : part.length = count) :
    readBytes (front ++ (part ++ rest)) offset count = .ok part := by
  have fits : offset + count ≤ (front ++ (part ++ rest)).length := by
    simp only [List.length_append]
    omega
  rw [readBytes_ok fits, slice_append_of_length atOffset size]

end Access

/-! ### Objects of a fixed size -/

/-- An object of a fixed size: an array or a `malloc`ed block. -/
structure Block (size : Nat) where
  bytes : Bytes
  allocated : bytes.length = size
deriving DecidableEq

namespace Block

variable {size : Nat}

/-- A block of one repeated byte. -/
def fill (size : Nat) (byte : UInt8) : Block size :=
  { bytes := List.replicate size byte, allocated := List.length_replicate }

instance : Inhabited (Block size) := ⟨fill size 0⟩

/-- A block that begins with the data, as much of it as there is room for, with zeros behind. -/
def holding (size : Nat) (data : Bytes) : Block size :=
  { bytes := (data ++ List.replicate size 0).take size
    allocated := by simp }

/-- A block that holds some data begins with them. -/
theorem prefix_holding {data : Bytes} (fits : data.length ≤ size) :
    data <+: (holding size data).bytes := by
  have begun : data <+: (data ++ List.replicate size 0).take size := by
    rw [List.take_append, List.take_of_length_le fits]
    exact List.prefix_append _ _
  exact begun

/-- `memcpy` from the block. -/
def read (block : Block size) (offset count : Nat) : Checked Bytes :=
  readBytes block.bytes offset count

/-- `memcpy` into the block. -/
def write (block : Block size) (offset : Nat) (data : Bytes) : Checked (Block size) :=
  if fits : offset + data.length ≤ size then
    .ok
      { bytes := splice block.bytes offset data
        allocated := by rw [length_splice (by rw [block.allocated]; exact fits), block.allocated] }
  else if data = [] then .ok block
  else .error .outOfBounds

@[simp] theorem length_bytes (block : Block size) : block.bytes.length = size := block.allocated

/-- Blocks with the same bytes are the same. -/
theorem eq_of_bytes {one other : Block size} (same : one.bytes = other.bytes) : one = other := by
  cases one
  cases other
  simpa using same

/-- A read inside a block gives the bytes there. -/
theorem read_ok (block : Block size) {offset count : Nat} (fits : offset + count ≤ size) :
    block.read offset count = .ok (slice block.bytes offset count) :=
  readBytes_ok (by rw [block.allocated]; exact fits)

/-- A write inside a block replaces the bytes there. -/
theorem write_ok (block : Block size) (offset : Nat) (data : Bytes)
    (fits : offset + data.length ≤ size) :
    ∃ written, block.write offset data = .ok written ∧
      written.bytes = splice block.bytes offset data := by
  rw [write, dif_pos fits]
  exact ⟨_, rfl, rfl⟩

/-- Data that are written to the beginning of a block have the rest of it behind them. -/
theorem write_front (block : Block size) {data : Bytes} (fits : data.length ≤ size) :
    ∃ written, block.write 0 data = .ok written ∧
      written.bytes = data ++ block.bytes.drop data.length := by
  obtain ⟨written, ran, filled⟩ := block.write_ok 0 data (by rw [Nat.zero_add]; exact fits)
  refine ⟨written, ran, ?_⟩
  rw [filled, splice, List.take_zero, List.nil_append, Nat.zero_add]

/-- A block that is written over as a whole is the one that is written. -/
theorem write_whole (block other : Block size) : block.write 0 other.bytes = .ok other := by
  obtain ⟨written, ran, filled⟩ := block.write_front (Nat.le_of_eq other.allocated)
  rw [ran]
  refine congrArg Except.ok (eq_of_bytes ?_)
  rw [filled, List.drop_eq_nil_of_le (by rw [block.allocated, other.allocated]), List.append_nil]

/-- A read past the end of a block is a fault. -/
theorem read_refused (block : Block size) {offset count : Nat} (small : ¬ offset + count ≤ size)
    (more : count ≠ 0) : block.read offset count = .error .outOfBounds := by
  rw [read, readBytes, block.allocated, if_neg (not_or_intro small more)]

/-- A write past the end of a block is a fault. -/
theorem write_refused (block : Block size) {offset : Nat} {data : Bytes}
    (small : ¬ offset + data.length ≤ size) (more : data ≠ []) :
    block.write offset data = .error .outOfBounds := by
  rw [write, dif_neg small, if_neg more]

/-- Writing nothing is possible anywhere. -/
theorem write_nil (block : Block size) (offset : Nat) : block.write offset [] = .ok block := by
  unfold write
  split <;> simp

/-- `*(uint32_t *)(block + offset)`. -/
def load32 (host : ByteOrder) (block : Block size) (offset : Nat) : Checked UInt32 :=
  Machine.load32 host block.bytes offset

/-- `*(uint32_t *)(block + offset) = word`. -/
def store32 (host : ByteOrder) (block : Block size) (offset : Nat) (word : UInt32) :
    Checked (Block size) :=
  block.write offset (host.encode word)

section Access

variable {host : ByteOrder} {block written : Block size} {front part rest data : Bytes}
  {offset count : Nat} {word : UInt32}

/-- When a write into a block goes through, and what it leaves. -/
theorem write_eq_ok :
    block.write offset data = .ok written ↔
      (offset + data.length ≤ size ∨ data = []) ∧
        written.bytes = splice block.bytes offset data := by
  have same : ∀ one other : Block size, one = other ↔ one.bytes = other.bytes := by
    rintro ⟨one, -⟩ ⟨other, -⟩
    simp
  unfold write
  split
  · rename_i fits
    simp [fits, same, eq_comm]
  · rename_i overrun
    split
    · rename_i empty
      simp [empty, same, eq_comm]
    · rename_i begun
      simp [overrun, begun]

/-- When a read from a block goes through, and what it gives. -/
theorem read_eq_ok :
    block.read offset count = .ok data ↔
      (offset + count ≤ size ∨ count = 0) ∧ data = slice block.bytes offset count := by
  rw [read, readBytes_eq_ok, block.allocated]

/-- What was read is as long as was asked for. -/
theorem length_read (ran : block.read offset count = .ok data) : data.length = count := by
  obtain ⟨fits | none, rfl⟩ := read_eq_ok.mp ran
  · exact length_slice (by rw [block.allocated]; exact fits)
  · rw [none, slice_zero, List.length_nil]

/-- When a word of a block is loaded, and which one. -/
theorem load32_eq_ok :
    block.load32 host offset = .ok word ↔
      offset + 4 ≤ size ∧ word = host.decode (slice block.bytes offset 4) := by
  rw [load32, Machine.load32_eq_ok, block.allocated]

/-- When a word of a block is stored, and what it leaves. -/
theorem store32_eq_ok :
    block.store32 host offset word = .ok written ↔
      offset + 4 ≤ size ∧ written.bytes = splice block.bytes offset (host.encode word) := by
  simp [store32, write_eq_ok, host.encode_ne_nil word]

/-- A store changes nothing in front of it. -/
theorem store32_take {kept : Nat} (stored : block.store32 host offset word = .ok written)
    (front : kept ≤ offset) : written.bytes.take kept = block.bytes.take kept := by
  obtain ⟨fits, filled⟩ := store32_eq_ok.mp stored
  rw [filled, take_splice (by rw [block.allocated]; omega) front]

/-- Reading a part of the block that is known by its place. -/
theorem read_append (offset count : Nat) (content : block.bytes = front ++ (part ++ rest))
    (atOffset : front.length = offset) (sized : part.length = count) :
    block.read offset count = .ok part := by
  rw [read, content, readBytes_append atOffset sized]

/-- Loading a word whose four bytes are known by their place. -/
theorem load32_append (host : ByteOrder) (offset : Nat)
    (content : block.bytes = front ++ (part ++ rest)) (atOffset : front.length = offset)
    (four : part.length = 4) :
    block.load32 host offset = .ok (host.decode part) := by
  rw [load32, content, Machine.load32_append atOffset four]

/-- The beginning of a block as fields of the given sizes. -/
theorem exists_fields {sizes : List Nat} {bytes : Bytes} (fits : sizes.sum ≤ bytes.length) :
    ∃ fields : List Bytes, fields.map List.length = sizes ∧
      bytes = fields.flatten ++ bytes.drop sizes.sum := by
  induction sizes generalizing bytes with
  | nil => exact ⟨[], rfl, by simp⟩
  | cons size sizes ih =>
      rw [List.sum_cons] at fits
      have behind : sizes.sum ≤ (bytes.drop size).length := by
        rw [List.length_drop]
        omega
      obtain ⟨fields, sized, content⟩ := ih behind
      refine ⟨bytes.take size :: fields, ?_, ?_⟩
      · rw [List.map_cons, sized, List.length_take, Nat.min_eq_left (by omega)]
      · conv_lhs => rw [← List.take_append_drop size bytes, content]
        simp [List.drop_drop]

/-- Writing over a part of the block that is known by its place. -/
theorem write_append (offset : Nat) (content : block.bytes = front ++ (part ++ rest))
    (atOffset : front.length = offset) (sized : data.length = part.length) :
    ∃ written, block.write offset data = .ok written ∧
      written.bytes = front ++ (data ++ rest) := by
  have total := block.allocated
  simp only [content, List.length_append] at total
  obtain ⟨written, ran, filled⟩ := block.write_ok offset data (by omega)
  refine ⟨written, ran, ?_⟩
  rw [filled, content, splice_append_of_length atOffset sized]

/-- Writing over one of the fields that the block begins with. -/
theorem write_field {fields : List Bytes} {sizes : List Nat} (index offset : Nat) (data : Bytes)
    (content : block.bytes = fields.flatten ++ rest) (lengths : fields.map List.length = sizes)
    (position : (sizes.take index).sum = offset) (sized : sizes[index]? = some data.length) :
    ∃ written, block.write offset data = .ok written ∧
      written.bytes = (fields.set index data).flatten ++ rest ∧
      (fields.set index data).map List.length = sizes := by
  subst lengths
  rw [List.getElem?_map] at sized
  obtain ⟨field, known, fieldLength⟩ := Option.map_eq_some_iff.mp sized
  obtain ⟨inside, rfl⟩ := List.getElem?_eq_some_iff.mp known
  have cut : fields.flatten ++ rest = (fields.take index).flatten ++
      (fields[index] ++ ((fields.drop (index + 1)).flatten ++ rest)) := by
    have parts : fields = fields.take index ++ fields[index] :: fields.drop (index + 1) := by
      rw [← List.drop_eq_getElem_cons inside, List.take_append_drop]
    have flat := congrArg List.flatten parts
    rw [List.flatten_append, List.flatten_cons] at flat
    rw [flat]
    simp only [List.append_assoc]
  have start : (fields.take index).flatten.length = offset := by
    rw [List.length_flatten, List.map_take, position]
  obtain ⟨written, ran, filled⟩ := write_append offset (content.trans cut) start fieldLength.symm
  refine ⟨written, ran, ?_, ?_⟩
  · rw [filled, List.set_eq_take_append_cons_drop, if_pos inside]
    simp
  · rw [List.map_set, ← fieldLength, ← List.getElem_map List.length, List.set_getElem_self]
    simpa using inside

/-- Storing a word over a field of four bytes replaces that field. -/
theorem store32_field {fields : List Bytes} {sizes : List Nat} (host : ByteOrder)
    (index offset : Nat) (word : UInt32) (content : block.bytes = fields.flatten ++ rest)
    (lengths : fields.map List.length = sizes) (position : (sizes.take index).sum = offset)
    (four : sizes[index]? = some 4) :
    ∃ written, block.store32 host offset word = .ok written ∧
      written.bytes = (fields.set index (host.encode word)).flatten ++ rest ∧
      (fields.set index (host.encode word)).map List.length = sizes :=
  write_field index offset (host.encode word) content lengths position
    (by rw [four, host.encode_length])

/-- Storing a word over four bytes known by their place. -/
theorem store32_append (host : ByteOrder) (offset : Nat) (word : UInt32)
    (content : block.bytes = front ++ (part ++ rest)) (atOffset : front.length = offset)
    (four : part.length = 4) :
    ∃ written, block.store32 host offset word = .ok written ∧
      written.bytes = front ++ (host.encode word ++ rest) :=
  write_append offset content atOffset (by simp [four])

end Access

end Block

end RentMate.Machine
