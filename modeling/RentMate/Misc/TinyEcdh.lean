/-
Module: RentMate.Misc.TinyEcdh
Purpose: The key exchange library `tinyECDH` as it is compiled here: the curve B-163, without
  constant-time mode and without the cofactor variant.
Trusted boundary: human-reviewed spec
Main exports: Bitvec, gf2fieldMul, gf2fieldInv, gf2pointDouble, gf2pointAdd, gf2pointMul,
  gf2pointOnCurve, ecdhGenerateKeys, ecdhSharedSecret
-/
import RentMate.PckData.Ecdh
import RentMate.Machine.WordVector

namespace RentMate.TinyEcdh

open RentMate.Machine
open RentMate.PckData (eccPrvKeySize eccPubKeySize)

/-- `CURVE_DEGREE`. -/
abbrev curveDegree : Nat := 163

/-- `BITVEC_NWORDS`: the words for the degree and a margin of three bits. -/
abbrev bitvecNWords : Nat := 6

/-- `BITVEC_NBYTES`. -/
abbrev bitvecNBytes : Nat := 24

abbrev Bitvec := Vector UInt32 bitvecNWords
abbrev Gf2Elem := Bitvec
abbrev Scalar := Bitvec

/-! ### Parameters of the curve -/

def polynomial : Gf2Elem := #v[0x000000c9, 0x00000000, 0x00000000, 0x00000000, 0x00000000, 0x00000008]
def coeffB : Gf2Elem := #v[0x4a3205fd, 0x512f7874, 0x1481eb10, 0xb8c953ca, 0x0a601907, 0x00000002]
def baseX : Gf2Elem := #v[0xe8343e36, 0xd4994637, 0xa0991168, 0x86a2d57e, 0xf0eba162, 0x00000003]
def baseY : Gf2Elem := #v[0x797324f1, 0xb11c5c0c, 0xa2cdd545, 0x71a0094f, 0xd51fbc6c, 0x00000000]
def baseOrder : Scalar := #v[0xa4234c33, 0x77e70c12, 0x000292fe, 0x00000000, 0x00000000, 0x00000004]

/-! ### Bit vectors -/

/-- `bitvec_get_bit`. All callers stay inside the vector. -/
def bitvecGetBit (x : Bitvec) (idx : Nat) : UInt32 :=
  (x[idx / 32]?.getD 0 >>> UInt32.ofNat (idx % 32)) &&& 1

/-- `bitvec_clr_bit`. -/
def bitvecClrBit (x : Bitvec) (idx : Nat) : Bitvec :=
  x.setIfInBounds (idx / 32) (x[idx / 32]?.getD 0 &&& ~~~(1 <<< UInt32.ofNat (idx % 32)))

def bitvecEqual (x y : Bitvec) : Bool := x == y

def bitvecSetZero : Bitvec := Vector.replicate bitvecNWords 0

def bitvecIsZero (x : Bitvec) : Bool := x.all (· == 0)

/-- The inner loop of `bitvec_degree`: `i` goes down with the mask until the mask meets a
one-bit. -/
def skipZeroBits (word : UInt32) : Nat → UInt32 → Nat → Nat
  | 0, _, i => i
  | left + 1, u32mask, i =>
      if word &&& u32mask = 0 then skipZeroBits word left (u32mask >>> 1) (i - 1) else i

/-- The outer loop: words that are zero are skipped from the back. -/
def skipZeroWords (x : Bitvec) : Nat → Nat
  | 0 => 0
  | left + 1 =>
      if x[left]?.getD 0 = 0 then skipZeroWords x left
      else skipZeroBits (x[left]?.getD 0) 32 ((1 : UInt32) <<< 31) (32 * (left + 1))

/-- `bitvec_degree`: the number of the highest one-bit, and one. -/
def bitvecDegree (x : Bitvec) : Nat := skipZeroWords x bitvecNWords

/-- The first two loops of `bitvec_lshift`: whole words move up. -/
def shiftWords (y : Bitvec) (nwords : Nat) : Bitvec :=
  Vector.ofFn fun i => if i.val < nwords then 0 else y[i.val - nwords]?.getD 0

/-- The last loop: it goes down, so that every word takes the bits of the old word below it. -/
def shiftBits (x : Bitvec) (nbits : Nat) : Bitvec :=
  Vector.ofFn fun i =>
    if i.val = 0 then x[i] <<< UInt32.ofNat nbits
    else (x[i] <<< UInt32.ofNat nbits) |||
      (x[i.val - 1]?.getD 0 >>> UInt32.ofNat (32 - nbits))

/-- `bitvec_lshift`. -/
def bitvecLshift (y : Bitvec) (nbits : Nat) : Bitvec :=
  let x := shiftWords y (nbits / 32)
  let nbits := nbits % 32
  if nbits ≠ 0 then shiftBits x nbits else x

/-! ### The field -/

def gf2fieldSetOne : Gf2Elem := #v[1, 0, 0, 0, 0, 0]

def gf2fieldIsOne (x : Gf2Elem) : Bool := x[0] == 1 && (x.toList.drop 1).all (· == 0)

def gf2fieldAdd (x y : Gf2Elem) : Gf2Elem := x.zipWith (· ^^^ ·) y

def gf2fieldInc (x : Gf2Elem) : Gf2Elem := x.set 0 (x[0] ^^^ 1)

/-- The loop of `gf2field_mul`: `tmp` is doubled, and added where `y` has a one-bit. -/
def gf2fieldMulFrom (y : Gf2Elem) : Nat → Nat → Gf2Elem → Gf2Elem → Gf2Elem
  | 0, _, _, z => z
  | left + 1, i, tmp, z =>
      let tmp := bitvecLshift tmp 1
      let tmp := if bitvecGetBit tmp curveDegree ≠ 0 then gf2fieldAdd tmp polynomial else tmp
      let z := if bitvecGetBit y i ≠ 0 then gf2fieldAdd z tmp else z
      gf2fieldMulFrom y left (i + 1) tmp z

/-- `gf2field_mul`. No caller passes the output for `y`, which the function asserts. -/
def gf2fieldMul (x y : Gf2Elem) : Gf2Elem :=
  gf2fieldMulFrom y (curveDegree - 1) 1 x (if bitvecGetBit y 0 ≠ 0 then x else bitvecSetZero)

/-- The four vectors of `gf2field_inv`. -/
structure InvState where
  u : Gf2Elem
  v : Gf2Elem
  g : Gf2Elem
  z : Gf2Elem

/-- One round of the loop of `gf2field_inv`. -/
def invRound (state : InvState) : InvState :=
  let i : Int := (bitvecDegree state.u : Int) - bitvecDegree state.v
  let swapped : InvState :=
    if i < 0 then { u := state.v, v := state.u, g := state.z, z := state.g } else state
  let i := i.natAbs
  { swapped with
    u := gf2fieldAdd swapped.u (bitvecLshift swapped.v i)
    z := gf2fieldAdd swapped.z (bitvecLshift swapped.g i) }

/-- The loop of `gf2field_inv`. -/
def gf2fieldInvFrom : Nat → InvState → Checked Gf2Elem
  | 0, _ => .error .diverges
  | left + 1, state =>
      if gf2fieldIsOne state.u then .ok state.z else gf2fieldInvFrom left (invRound state)

/-- Where `gf2field_inv` begins. -/
def invStart (x : Gf2Elem) : InvState :=
  { u := x, v := polynomial, g := bitvecSetZero, z := gf2fieldSetOne }

/-- A loop that has not ended after so many rounds never ends: in every round but the ones that
change nothing more, the degrees of `u` and `v` go down. -/
abbrev invRounds : Nat := 2 * (32 * bitvecNWords) + 1

/-- `gf2field_inv`. -/
def gf2fieldInv (x : Gf2Elem) : Checked Gf2Elem := gf2fieldInvFrom invRounds (invStart x)

/-! ### Points of the curve -/

def gf2pointIsZero (x y : Gf2Elem) : Bool := bitvecIsZero x && bitvecIsZero y

/-- `gf2point_double`. The two coordinates come as a pair. -/
def gf2pointDouble (x y : Gf2Elem) : Checked (Gf2Elem × Gf2Elem) :=
  if bitvecIsZero x then .ok (x, bitvecSetZero)
  else do
    let l ← gf2fieldInv x
    let l := gf2fieldMul l y
    let l := gf2fieldAdd l x
    let y := gf2fieldMul x x
    let x := gf2fieldMul l l
    let l := gf2fieldInc l
    let x := gf2fieldAdd x l
    let l := gf2fieldMul l x
    let y := gf2fieldAdd y l
    pure (x, y)

/-- `gf2point_add`. -/
def gf2pointAdd (x1 y1 x2 y2 : Gf2Elem) : Checked (Gf2Elem × Gf2Elem) :=
  if gf2pointIsZero x2 y2 then .ok (x1, y1)
  else if gf2pointIsZero x1 y1 then .ok (x2, y2)
  else if bitvecEqual x1 x2 then
    if bitvecEqual y1 y2 then gf2pointDouble x1 y1 else .ok (bitvecSetZero, bitvecSetZero)
  else do
    let a := gf2fieldAdd y1 y2
    let b := gf2fieldAdd x1 x2
    let c ← gf2fieldInv b
    let c := gf2fieldMul c a
    let d := gf2fieldMul c c
    let d := gf2fieldAdd d c
    let d := gf2fieldAdd d b
    let d := gf2fieldInc d
    let x1 := gf2fieldAdd x1 d
    let a := gf2fieldMul x1 c
    let a := gf2fieldAdd a d
    let y1 := gf2fieldAdd y1 a
    pure (d, y1)

/-- The loop of `gf2point_mul`, from the bit below `i` down to the lowest one. -/
def gf2pointMulFrom (x y : Gf2Elem) (exp : Scalar) :
    Nat → Gf2Elem × Gf2Elem → Checked (Gf2Elem × Gf2Elem)
  | 0, tmp => .ok tmp
  | i + 1, tmp => do
      let tmp ← gf2pointDouble tmp.1 tmp.2
      let tmp ←
        if bitvecGetBit exp i ≠ 0 then gf2pointAdd tmp.1 tmp.2 x y else pure tmp
      gf2pointMulFrom x y exp i tmp

/-- `gf2point_mul`. -/
def gf2pointMul (x y : Gf2Elem) (exp : Scalar) : Checked (Gf2Elem × Gf2Elem) :=
  gf2pointMulFrom x y exp (bitvecDegree exp) (bitvecSetZero, bitvecSetZero)

/-- `gf2point_on_curve`. -/
def gf2pointOnCurve (x y : Gf2Elem) : Bool :=
  if gf2pointIsZero x y then true
  else
    let a := gf2fieldMul x x
    let b := gf2fieldMul a x
    let a := gf2fieldAdd a b
    let a := gf2fieldAdd a coeffB
    let b := gf2fieldMul y y
    let a := gf2fieldAdd a b
    let b := gf2fieldMul x y
    bitvecEqual a b

/-! ### The key exchange -/

/-- The words of a vector that lies at `offset`, as the casts of the library read them. -/
def loadBitvec {size : Nat} (host : ByteOrder) (memory : Block size) (offset : Nat) : Bitvec :=
  Vector.ofFn fun i => host.decode (slice memory.bytes (offset + 4 * i.val) 4)

/-- The bytes of a vector. -/
def bitvecBytes (host : ByteOrder) (x : Bitvec) : Bytes := x.toList.flatMap host.encode

/-- A bit vector has a fixed number of bytes. -/
theorem length_bitvecBytes (host : ByteOrder) (x : Bitvec) :
    (bitvecBytes host x).length = bitvecNBytes := by
  have words : (bitvecBytes host x).length = bitvecNWords * 4 := by
    rw [bitvecBytes, List.length_flatMap]
    simp
  exact words

/-- A private key in memory. -/
def privateKeyBlock (host : ByteOrder) (exp : Scalar) : Block eccPrvKeySize :=
  { bytes := bitvecBytes host exp
    allocated := length_bitvecBytes host exp }

/-- A public key in memory: one coordinate behind the other. -/
def publicKeyBlock (host : ByteOrder) (point : Gf2Elem × Gf2Elem) : Block eccPubKeySize :=
  { bytes := bitvecBytes host point.1 ++ bitvecBytes host point.2
    allocated := by rw [List.length_append, length_bitvecBytes, length_bitvecBytes]; rfl }

/-- The loop of `ecdh_generate_keys` that clears the bits from `i` on. -/
def clearBits : Nat → Nat → Scalar → Scalar
  | 0, _, exp => exp
  | left + 1, i, exp => clearBits left (i + 1) (bitvecClrBit exp i)

/-- `ecdh_generate_keys`: its return value, the public key and the private key as it leaves it. -/
def ecdhGenerateKeys (host : ByteOrder) (privateKey : Block eccPrvKeySize) :
    Checked (Bool × Block eccPubKeySize × Block eccPrvKeySize) :=
  let exp := loadBitvec host privateKey 0
  if bitvecDegree exp < curveDegree / 2 then
    .ok (false, publicKeyBlock host (baseX, baseY), privateKey)
  else do
    let nbits := bitvecDegree baseOrder
    let exp := clearBits (bitvecNWords * 32 - (nbits - 1)) (nbits - 1) exp
    let publicKey ← gf2pointMul baseX baseY exp
    pure (true, publicKeyBlock host publicKey, privateKeyBlock host exp)

/-- `ecdh_shared_secret`: the output, or nothing where it returns zero and leaves the output
alone. -/
def ecdhSharedSecret (host : ByteOrder) (privateKey : Block eccPrvKeySize)
    (othersPub : Block eccPubKeySize) : Checked (Option (Block eccPubKeySize)) :=
  let x := loadBitvec host othersPub 0
  let y := loadBitvec host othersPub bitvecNBytes
  if !gf2pointIsZero x y && gf2pointOnCurve x y then do
    let output ← gf2pointMul x y (loadBitvec host privateKey 0)
    pure (some (publicKeyBlock host output))
  else .ok none

end RentMate.TinyEcdh
