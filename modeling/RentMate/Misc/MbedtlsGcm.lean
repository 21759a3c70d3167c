/-
Module: RentMate.Misc.MbedtlsGcm
Purpose: The GCM functions of the crypto library in `gcm.c`, with multiplication by 4-bit tables,
  and the wrappers of `aes-gcm.c` over them. The block cipher comes as a parameter.
Trusted boundary: human-reviewed spec
Main exports: GcmContext, gcmGenTable, gcmMult, mbedtlsGcmSetkey, mbedtlsGcmStarts,
  mbedtlsGcmUpdate, mbedtlsGcmFinish, mbedtlsGcmCryptAndTag, mbedtlsGcmAuthDecrypt, initGcm,
  encryptGcm, decryptGcm
-/
import RentMate.Machine.Buffer

namespace RentMate.MbedtlsGcm

open RentMate.Machine

/-- `unsigned char[16]`. -/
abbrev GcmBlock := Vector UInt8 16

/-- `MBEDTLS_GCM_ENCRYPT` and `MBEDTLS_GCM_DECRYPT`. -/
inductive GcmMode where
  | encrypt
  | decrypt
deriving Repr, DecidableEq

/-- `MBEDTLS_ERR_GCM_AUTH_FAILED`. -/
abbrev errGcmAuthFailed : Int := -0x0012

/-- `MBEDTLS_ERR_GCM_BAD_INPUT`. -/
abbrev errGcmBadInput : Int := -0x0014

/-- The tables in `mbedtls_gcm_context`. -/
structure GcmTables where
  hl : Vector UInt64 16
  hh : Vector UInt64 16

/-- `mbedtls_gcm_context`. The cipher's context is what `mbedtls_cipher_update` computes with it,
which does not fail on a block of 16 bytes. -/
structure GcmContext extends GcmTables where
  cipherCtx : GcmBlock → GcmBlock
  len : UInt64
  addLen : UInt64
  baseEctr : GcmBlock
  y : GcmBlock
  buf : GcmBlock
  mode : GcmMode

/-- A block of zeros, as `memset` leaves it. -/
def zeroBlock : GcmBlock := Vector.replicate 16 0

/-! ### Words in blocks -/

/-- `GET_UINT32_BE`. -/
def getUint32Be (b0 b1 b2 b3 : UInt8) : UInt32 :=
  (b0.toUInt32 <<< 24) ||| (b1.toUInt32 <<< 16) ||| (b2.toUInt32 <<< 8) ||| b3.toUInt32

/-- `PUT_UINT32_BE`. -/
def putUint32Be (n : UInt64) : Vector UInt8 4 :=
  #v[(n >>> 24).toUInt8, (n >>> 16).toUInt8, (n >>> 8).toUInt8, n.toUInt8]

/-- Two words, each put as its upper and its lower half. -/
def putWords (high low : UInt64) : GcmBlock :=
  putUint32Be (high >>> 32) ++ putUint32Be high ++ putUint32Be (low >>> 32) ++ putUint32Be low

/-- The loops that mask a part of a block: `block[i] ^= p[i]`. -/
def xorInto (block : GcmBlock) (p : Bytes) : GcmBlock :=
  Vector.ofFn fun i => block[i] ^^^ p[i.val]?.getD 0

/-! ### Multiplication -/

/-- A row of both tables. -/
def setRow (tables : GcmTables) (i : Nat) (vh vl : UInt64) : GcmTables :=
  { hl := tables.hl.setIfInBounds i vl, hh := tables.hh.setIfInBounds i vh }

/-- The first loop of `gcm_gen_table`: each row is the last one, shifted by a bit. -/
def shiftedRows (tables : GcmTables) (vh vl : UInt64) : List Nat → GcmTables
  | [] => tables
  | i :: rest =>
      let t : UInt64 := (vl &&& 1) * 0xe1000000
      let vl := (vh <<< 63) ||| (vl >>> 1)
      let vh := (vh >>> 1) ^^^ (t <<< 32)
      shiftedRows (setRow tables i vh vl) vh vl rest

/-- The inner loop of the second one: the rows behind row `i` are its sums with the ones before. -/
def summedRows (i : Nat) (vh vl : UInt64) : GcmTables → List Nat → GcmTables
  | tables, [] => tables
  | tables, j :: rest =>
      summedRows i vh vl
        (setRow tables (i + j) (vh ^^^ tables.hh[j]?.getD 0) (vl ^^^ tables.hl[j]?.getD 0)) rest

/-- `gcm_gen_table`, without the instructions for products without carry. -/
def gcmGenTable (ctx : GcmContext) : GcmContext :=
  let h := ctx.cipherCtx zeroBlock
  let vh := ((getUint32Be h[0] h[1] h[2] h[3]).toUInt64 <<< 32) |||
    (getUint32Be h[4] h[5] h[6] h[7]).toUInt64
  let vl := ((getUint32Be h[8] h[9] h[10] h[11]).toUInt64 <<< 32) |||
    (getUint32Be h[12] h[13] h[14] h[15]).toUInt64
  let tables := setRow ctx.toGcmTables 8 vh vl
  let tables := setRow tables 0 0 0
  let tables := shiftedRows tables vh vl [4, 2, 1]
  let tables :=
    [2, 4, 8].foldl
      (fun tables i =>
        summedRows i (tables.hh[i]?.getD 0) (tables.hl[i]?.getD 0) tables (List.range' 1 (i - 1)))
      tables
  { ctx with toGcmTables := tables }

def last4 : Vector UInt64 16 :=
  #v[0x0000, 0x1c20, 0x3840, 0x2460, 0x7080, 0x6ca0, 0x48c0, 0x54e0,
    0xe100, 0xfd20, 0xd940, 0xc560, 0x9180, 0x8da0, 0xa9c0, 0xb5e0]

/-- What the loop of `gcm_mult` does with each half of a byte: `z` is shifted by four bits, and the
half's row is added. -/
def gcmMultHalf (tables : GcmTables) (half : UInt8) (z : UInt64 × UInt64) : UInt64 × UInt64 :=
  let (zh, zl) := z
  let rem := zl &&& 0xf
  let zl := (zh <<< 60) ||| (zl >>> 4)
  let zh := zh >>> 4
  let zh := zh ^^^ (last4[rem.toNat]?.getD 0 <<< 48)
  (zh ^^^ tables.hh[half.toNat]?.getD 0, zl ^^^ tables.hl[half.toNat]?.getD 0)

/-- The loop, from byte `i - 1` on to the first byte. The lower half of the last byte is what it
starts with. -/
def gcmMultFrom (tables : GcmTables) (x : GcmBlock) : Nat → UInt64 × UInt64 → UInt64 × UInt64
  | 0, z => z
  | i + 1, z =>
      let lo := x[i]?.getD 0 &&& 0xf
      let hi := (x[i]?.getD 0 >>> 4) &&& 0xf
      let z := if i ≠ 15 then gcmMultHalf tables lo z else z
      gcmMultFrom tables x i (gcmMultHalf tables hi z)

/-- `gcm_mult`. -/
def gcmMult (tables : GcmTables) (x : GcmBlock) : GcmBlock :=
  let lo := x[15] &&& 0xf
  let z := gcmMultFrom tables x 16 (tables.hh[lo.toNat]?.getD 0, tables.hl[lo.toNat]?.getD 0)
  putWords z.1 z.2

/-! ### The key -/

/-- `mbedtls_gcm_init`, and a cipher without a key. -/
def mbedtlsGcmInit : GcmContext :=
  { cipherCtx := id
    hl := Vector.replicate 16 0
    hh := Vector.replicate 16 0
    len := 0
    addLen := 0
    baseEctr := zeroBlock
    y := zeroBlock
    buf := zeroBlock
    mode := .decrypt }

/-- `mbedtls_gcm_setkey` for the cipher `aes`, which has keys of 128, 192 and 256 bits. -/
def mbedtlsGcmSetkey (aes : Bytes → GcmBlock → GcmBlock) (ctx : GcmContext) (key : Bytes)
    (keybits : Nat) : Except Int GcmContext :=
  if keybits = 128 ∨ keybits = 192 ∨ keybits = 256 then
    pure (gcmGenTable { ctx with cipherCtx := aes key })
  else .error errGcmBadInput

/-! ### Messages -/

/-- The loops that hash a byte string block by block into `buf`. -/
def hashWhile (tables : GcmTables) (buf : GcmBlock) (p : Bytes) : GcmBlock :=
  if p = [] then buf else hashWhile tables (gcmMult tables (xorInto buf (p.take 16))) (p.drop 16)
termination_by p.length
decreasing_by
  have more : 0 < p.length := List.length_pos_iff.mpr ‹_›
  simp only [List.length_drop]
  omega

/-- `mbedtls_gcm_starts`. -/
def mbedtlsGcmStarts (ctx : GcmContext) (mode : GcmMode) (iv add : Bytes) :
    Except Int GcmContext :=
  if iv.length = 0 ∨ iv.length >>> 61 ≠ 0 ∨ add.length >>> 61 ≠ 0 then .error errGcmBadInput
  else
    let ctx := { ctx with y := zeroBlock, buf := zeroBlock, mode := mode, len := 0, addLen := 0 }
    let y :=
      if iv.length = 12 then (xorInto ctx.y iv).set 15 1
      else
        let workBuf : GcmBlock :=
          Vector.replicate 12 (0 : UInt8) ++ putUint32Be (UInt64.ofNat (iv.length * 8))
        gcmMult ctx.toGcmTables (xorInto (hashWhile ctx.toGcmTables ctx.y iv) workBuf.toList)
    let ctx := { ctx with y := y }
    let ctx := { ctx with baseEctr := ctx.cipherCtx ctx.y }
    let ctx := { ctx with addLen := UInt64.ofNat add.length }
    pure { ctx with buf := hashWhile ctx.toGcmTables ctx.buf add }

/-- The loop that counts a block: each byte from the last one on, until one does not overflow. -/
def countBlock (y : GcmBlock) : Nat → GcmBlock
  | 0 => y
  | left + 1 =>
      let count := y[12 + left]?.getD 0 + 1
      let y := y.setIfInBounds (12 + left) count
      if count ≠ 0 then y else countBlock y left

/-- What the loop of `mbedtls_gcm_update` does with a block or the last part of one. -/
def updateBlock (ctx : GcmContext) (p : Bytes) : GcmContext × Bytes :=
  let ctx := { ctx with y := countBlock ctx.y 4 }
  let ectr := ctx.cipherCtx ctx.y
  let out := List.zipWith (· ^^^ ·) ectr.toList p
  let hashed := match ctx.mode with
    | .decrypt => p
    | .encrypt => out
  ({ ctx with buf := gcmMult ctx.toGcmTables (xorInto ctx.buf hashed) }, out)

/-- The loop, with the output that it still writes. -/
def updateWhile (ctx : GcmContext) (input : Bytes) : GcmContext × Bytes :=
  if input = [] then (ctx, [])
  else
    let (ctx, out) := updateBlock ctx (input.take 16)
    let (ctx, rest) := updateWhile ctx (input.drop 16)
    (ctx, out ++ rest)
termination_by input.length
decreasing_by
  have more : 0 < input.length := List.length_pos_iff.mpr ‹_›
  simp only [List.length_drop]
  omega

/-- `mbedtls_gcm_update`, in place. -/
def mbedtlsGcmUpdate (ctx : GcmContext) (input : Bytes) : Except Int (GcmContext × Bytes) :=
  let length := UInt64.ofNat input.length
  if ctx.len + length < ctx.len ∨ 0xFFFFFFFE0 < ctx.len + length then .error errGcmBadInput
  else pure (updateWhile { ctx with len := ctx.len + length } input)

/-- `mbedtls_gcm_finish`, with the tag. -/
def mbedtlsGcmFinish (ctx : GcmContext) (tagLen : Nat) : Except Int (GcmContext × Bytes) :=
  let origLen := ctx.len * 8
  let origAddLen := ctx.addLen * 8
  if 16 < tagLen ∨ tagLen < 4 then .error errGcmBadInput
  else
    let tag := ctx.baseEctr.toList.take tagLen
    if origLen ≠ 0 ∨ origAddLen ≠ 0 then
      let workBuf := putWords origAddLen origLen
      let ctx := { ctx with buf := gcmMult ctx.toGcmTables (xorInto ctx.buf workBuf.toList) }
      pure (ctx, List.zipWith (· ^^^ ·) tag ctx.buf.toList)
    else pure (ctx, tag)

/-- `mbedtls_gcm_crypt_and_tag`: what it returns with the tag, and what it leaves in the output,
which held `output` before. -/
def mbedtlsGcmCryptAndTag (ctx : GcmContext) (mode : GcmMode) (iv add input output : Bytes)
    (tagLen : Nat) : Except Int (GcmContext × Bytes) × Bytes :=
  match mbedtlsGcmStarts ctx mode iv add with
  | .error ret => (.error ret, output)
  | .ok ctx =>
      match mbedtlsGcmUpdate ctx input with
      | .error ret => (.error ret, output)
      | .ok (ctx, output) => (mbedtlsGcmFinish ctx tagLen, output)

/-- `mbedtls_gcm_auth_decrypt`: what it returns, and what it leaves in the output. -/
def mbedtlsGcmAuthDecrypt (ctx : GcmContext) (iv add tag input output : Bytes) :
    Except Int GcmContext × Bytes :=
  match mbedtlsGcmCryptAndTag ctx .decrypt iv add input output tag.length with
  | (.error ret, output) => (.error ret, output)
  | (.ok (ctx, checkTag), output) =>
      let diff := (List.zipWith (· ^^^ ·) tag checkTag).foldl (· ||| ·) 0
      if diff ≠ 0 then (.error errGcmAuthFailed, List.replicate input.length 0)
      else (.ok ctx, output)

/-! ### The wrappers -/

/-- `initGCM`. -/
def initGcm (aes : Bytes → GcmBlock → GcmBlock) (gcmKey : Bytes) (keybits : Nat) :
    Int × GcmContext :=
  match mbedtlsGcmSetkey aes mbedtlsGcmInit gcmKey keybits with
  | .error _ => (1, mbedtlsGcmInit)
  | .ok ctx => (0, ctx)

variable {size outputSize : Nat}

/-- `encryptGcm` in place, with what it returns. -/
def encryptGcm (gcmCtx : GcmContext) (memory : Block size)
    (msg msgLen iv ivLen add addLen tagOut tagLen : Nat) : Checked (Int × Block size) := do
  let ivBytes ← memory.read iv ivLen
  let addBytes ← memory.read add addLen
  let input ← memory.read msg msgLen
  match mbedtlsGcmCryptAndTag gcmCtx .encrypt ivBytes addBytes input input tagLen with
  | (.error result, output) => do
      let memory ← memory.write msg output
      pure (if result = errGcmBadInput then 1 else 2, memory)
  | (.ok (_, tag), output) => do
      let memory ← memory.write msg output
      let memory ← memory.write tagOut tag
      pure (0, memory)

/-- `decryptGcm`. -/
def decryptGcm (gcmCtx : GcmContext) (memory : Block size)
    (msg msgLen iv ivLen add addLen tag tagLen : Nat) (msgOut : Block outputSize) :
    Checked (Int × Block outputSize) := do
  let ivBytes ← memory.read iv ivLen
  let addBytes ← memory.read add addLen
  let input ← memory.read msg msgLen
  let tagBytes ← memory.read tag tagLen
  let before ← msgOut.read 0 msgLen
  match mbedtlsGcmAuthDecrypt gcmCtx ivBytes addBytes tagBytes input before with
  | (.error result, output) => do
      let msgOut ← msgOut.write 0 output
      pure
        (if result = errGcmAuthFailed then 1 else if result = errGcmBadInput then 2 else 3, msgOut)
  | (.ok _, output) => do
      let msgOut ← msgOut.write 0 output
      pure (0, msgOut)

end RentMate.MbedtlsGcm
