/-
Module: RentMate.Machine.Word
Purpose: Bytes, 32-bit words and the two byte orders a C host can store them in, with the
  POSIX conversions between host and network order.
Trusted boundary: human-reviewed spec
Main exports: Bytes, ByteOrder, ByteOrder.encode, ByteOrder.decode, htonl, ntohl
-/
import Mathlib.Data.List.Basic

namespace RentMate.Machine

/-- A run of memory or of a byte stream. -/
abbrev Bytes := List UInt8

/-- The order in which a host stores the bytes of a word. -/
inductive ByteOrder where
  | little
  | big
deriving Repr, Inhabited, DecidableEq

/-- The four bytes of a word, least significant first. -/
def littleEncode (word : UInt32) : Bytes :=
  [UInt8.ofNat word.toNat, UInt8.ofNat (word.toNat / 256),
    UInt8.ofNat (word.toNat / 65536), UInt8.ofNat (word.toNat / 16777216)]

/-- The word whose bytes are given least significant first. -/
def littleDecode : Bytes → UInt32
  | [b0, b1, b2, b3] =>
      UInt32.ofNat (b0.toNat + 256 * b1.toNat + 65536 * b2.toNat + 16777216 * b3.toNat)
  | _ => 0

@[simp] theorem littleEncode_length (word : UInt32) : (littleEncode word).length = 4 := rfl

/-- A word comes back from its bytes. -/
theorem littleDecode_littleEncode (word : UInt32) : littleDecode (littleEncode word) = word := by
  have bound : word.toNat < 4294967296 := word.toNat_lt
  apply UInt32.toNat_inj.mp
  simp only [littleDecode, littleEncode, UInt8.toNat_ofNat', UInt32.toNat_ofNat']
  omega

/-- Four bytes come back from their word. -/
theorem littleEncode_littleDecode {bytes : Bytes} (four : bytes.length = 4) :
    littleEncode (littleDecode bytes) = bytes := by
  match bytes, four with
  | [b0, b1, b2, b3], _ =>
      have h0 : b0.toNat < 256 := b0.toNat_lt
      have h1 : b1.toNat < 256 := b1.toNat_lt
      have h2 : b2.toNat < 256 := b2.toNat_lt
      have h3 : b3.toNat < 256 := b3.toNat_lt
      simp only [littleDecode, littleEncode, UInt32.toNat_ofNat', List.cons.injEq, and_true]
      refine ⟨?_, ?_, ?_, ?_⟩ <;>
        · apply UInt8.toNat_inj.mp
          simp only [UInt8.toNat_ofNat']
          omega

namespace ByteOrder

/-- The bytes a host of this order stores for a word. -/
def encode : ByteOrder → UInt32 → Bytes
  | .little, word => littleEncode word
  | .big, word => (littleEncode word).reverse

/-- The word a host of this order loads from four bytes. -/
def decode : ByteOrder → Bytes → UInt32
  | .little, bytes => littleDecode bytes
  | .big, bytes => littleDecode bytes.reverse

variable (order : ByteOrder)

@[simp] theorem encode_length (word : UInt32) : (order.encode word).length = 4 := by
  cases order <;> simp [encode]

@[simp] theorem decode_encode (word : UInt32) : order.decode (order.encode word) = word := by
  cases order <;> simp [encode, decode, littleDecode_littleEncode]

/-- Four bytes come back from their word, in either order. -/
theorem encode_decode {bytes : Bytes} (four : bytes.length = 4) :
    order.encode (order.decode bytes) = bytes := by
  cases order with
  | little => exact littleEncode_littleDecode four
  | big =>
      have reversed : bytes.reverse.length = 4 := by simpa using four
      simp [encode, decode, littleEncode_littleDecode reversed]

/-- A word is known from its bytes. -/
theorem encode_injective {first second : UInt32}
    (same : order.encode first = order.encode second) : first = second := by
  rw [← order.decode_encode first, same, order.decode_encode]

/-- A word has bytes. -/
theorem encode_ne_nil (word : UInt32) : order.encode word ≠ [] := by
  intro empty
  have four := order.encode_length word
  simp [empty] at four

end ByteOrder

/-- `htonl`: the word whose stored bytes on `host` are the big-endian bytes of `word`. -/
def htonl (host : ByteOrder) (word : UInt32) : UInt32 :=
  host.decode (ByteOrder.big.encode word)

/-- `ntohl`: the word whose big-endian bytes are the ones `host` stores for `word`. -/
def ntohl (host : ByteOrder) (word : UInt32) : UInt32 :=
  ByteOrder.big.decode (host.encode word)

section NetworkOrder

variable (host : ByteOrder) (word : UInt32)

/-- Both conversions are the same byte swap (or no swap at all). -/
theorem ntohl_eq_htonl : ntohl host word = htonl host word := by
  cases host <;> simp [ntohl, htonl, ByteOrder.encode, ByteOrder.decode]

@[simp] theorem htonl_htonl : htonl host (htonl host word) = word := by
  have four : (ByteOrder.big.encode word).length = 4 := by simp
  rw [← ntohl_eq_htonl host (htonl host word), ntohl, htonl, host.encode_decode four,
    ByteOrder.decode_encode]

@[simp] theorem ntohl_htonl : ntohl host (htonl host word) = word := by
  rw [ntohl_eq_htonl, htonl_htonl]

@[simp] theorem htonl_ntohl : htonl host (ntohl host word) = word := by
  rw [ntohl_eq_htonl, htonl_htonl]

/-- Storing a converted word writes network order. -/
@[simp] theorem encode_htonl : host.encode (htonl host word) = ByteOrder.big.encode word := by
  rw [htonl, host.encode_decode (by simp)]

/-- Converting a loaded word reads network order. -/
theorem ntohl_decode {bytes : Bytes} (four : bytes.length = 4) :
    ntohl host (host.decode bytes) = ByteOrder.big.decode bytes := by
  rw [ntohl, host.encode_decode four]

@[simp] theorem ntohl_decode_big :
    ntohl host (host.decode (ByteOrder.big.encode word)) = word := by
  rw [ntohl_decode host (by simp), ByteOrder.decode_encode]

@[simp] theorem htonl_big : htonl .big word = word := by
  simp [htonl]

/-- Zero is the same in either order. -/
theorem htonl_zero : htonl host 0 = 0 := by
  cases host <;> rfl

/-- A word is zero in either order or in none. -/
theorem htonl_eq_zero_iff : htonl host word = 0 ↔ word = 0 := by
  constructor
  · intro zero
    rw [← htonl_htonl host word, zero, htonl_zero]
  · intro zero
    rw [zero, htonl_zero]

end NetworkOrder

end RentMate.Machine
