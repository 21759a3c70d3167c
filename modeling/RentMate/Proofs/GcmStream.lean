/-
Module: RentMate.Proofs.GcmStream
Purpose: The counter mode of the crypto library's GCM: what a message becomes is its bytes under a
  keystream, whether it comes at once or in whole blocks before the last one.
Trusted boundary: none
Main exports: counted, keystreamByte, streamed, hashedText, updateWhile_eq, mbedtlsGcmUpdate_eq,
  mbedtlsGcmUpdate_append
-/
import RentMate.Misc.MbedtlsGcm

namespace RentMate.GcmStream

open RentMate.Machine
open RentMate.MbedtlsGcm

/-! ### The keystream -/

/-- The counter behind `count` more blocks. -/
def counted (y : GcmBlock) : Nat → GcmBlock
  | 0 => y
  | count + 1 => counted (countBlock y 4) count

/-- The byte that masks the byte of a message at `index`. -/
def keystreamByte (cipher : GcmBlock → GcmBlock) (y : GcmBlock) (index : Nat) : UInt8 :=
  (cipher (counted y (index / 16 + 1)))[index % 16]?.getD 0

/-- A message under the keystream. -/
def streamed (cipher : GcmBlock → GcmBlock) (y : GcmBlock) (input : Bytes) : Bytes :=
  input.mapIdx fun index byte => byte ^^^ keystreamByte cipher y index

/-- How many blocks a message takes. -/
def blockCount (length : Nat) : Nat := (length + 15) / 16

section Keystream

variable (cipher : GcmBlock → GcmBlock) (y : GcmBlock) {input front : Bytes}

/-- The key stream changes no length. -/
@[simp] theorem length_streamed (input : Bytes) :
    (streamed cipher y input).length = input.length := by
  simp [streamed]

@[simp] theorem streamed_nil : streamed cipher y [] = [] := rfl

/-- Masking twice gives the message back. -/
@[simp] theorem streamed_streamed (input : Bytes) :
    streamed cipher y (streamed cipher y input) = input := by
  refine List.ext_getElem (by simp) fun index _ _ => ?_
  simp only [streamed, List.getElem_mapIdx]
  rw [UInt8.xor_assoc, UInt8.xor_self, UInt8.xor_zero]

/-- Counting on from a counted block. -/
theorem counted_add (one other : Nat) :
    counted y (one + other) = counted (counted y one) other := by
  induction one generalizing y with
  | zero =>
      rw [Nat.zero_add]
      rfl
  | succ one ih =>
      rw [Nat.succ_add]
      exact ih (countBlock y 4)

/-- Behind whole blocks the keystream goes on with the next block. -/
theorem keystreamByte_add (blocks index : Nat) :
    keystreamByte cipher y (16 * blocks + index) =
      keystreamByte cipher (counted y blocks) index := by
  rw [keystreamByte, keystreamByte, ← counted_add, Nat.mul_add_mod,
    Nat.mul_add_div (by decide), Nat.add_assoc]

/-- The key stream of two parts, the first ending on a block. -/
theorem streamed_append {blocks : Nat} (aligned : front.length = 16 * blocks) (rest : Bytes) :
    streamed cipher y (front ++ rest) =
      streamed cipher y front ++ streamed cipher (counted y blocks) rest := by
  rw [streamed, List.mapIdx_append]
  refine congrArg (streamed cipher y front ++ ·) ?_
  rw [streamed]
  refine congrArg (List.mapIdx · rest) ?_
  funext index byte
  rw [aligned, Nat.add_comm index, keystreamByte_add]

/-- Masking a block, or the last part of one. -/
theorem streamed_block (short : input.length ≤ 16) :
    streamed cipher y input =
      List.zipWith (· ^^^ ·) (cipher (countBlock y 4)).toList input := by
  apply List.ext_getElem
  · simp [short]
  · intro index inside _
    rw [length_streamed] at inside
    have small : index < 16 := by omega
    have first : index / 16 = 0 := by omega
    have same : index % 16 = index := by omega
    simp only [streamed, List.getElem_mapIdx, List.getElem_zipWith, keystreamByte, first, same,
      Vector.getElem_toList, Vector.getElem?_eq_getElem small, Option.getD_some]
    exact UInt8.xor_comm _ _

/-- A message is masked block by block. -/
theorem streamed_step (input : Bytes) :
    streamed cipher y input =
      streamed cipher y (input.take 16) ++ streamed cipher (countBlock y 4) (input.drop 16) := by
  by_cases long : 16 ≤ input.length
  · have whole : (input.take 16).length = 16 * 1 := by
      rw [List.length_take]
      omega
    calc streamed cipher y input
      _ = streamed cipher y (input.take 16 ++ input.drop 16) := by rw [List.take_append_drop]
      _ = _ := streamed_append cipher y whole _
  · rw [List.take_of_length_le (by omega), List.drop_of_length_le (by omega), streamed_nil,
      List.append_nil]

/-- One block fewer behind the first sixteen bytes. -/
theorem blockCount_step (more : input ≠ []) :
    blockCount input.length = blockCount (input.drop 16).length + 1 := by
  have positive := List.length_pos_iff.mpr more
  rw [blockCount, blockCount, List.length_drop]
  omega

/-- The blocks of two parts, the first ending on a block. -/
theorem blockCount_append {blocks : Nat} (aligned : front.length = 16 * blocks) (rest : Bytes) :
    blockCount (front ++ rest).length = blocks + blockCount rest.length := by
  rw [blockCount, blockCount, List.length_append]
  omega

end Keystream

/-! ### The hash of a message -/

/-- What the hash takes in: the masked text, which is the input or the output. -/
def hashedText (mode : GcmMode) (input output : Bytes) : Bytes :=
  match mode with
  | .decrypt => input
  | .encrypt => output

/-- The encrypted text of two parts is hashed part by part. -/
theorem hashedText_append (mode : GcmMode) (input output moreInput moreOutput : Bytes) :
    hashedText mode (input ++ moreInput) (output ++ moreOutput) =
      hashedText mode input output ++ hashedText mode moreInput moreOutput := by
  cases mode <;> rfl

/-- What is hashed is as long as the input. -/
theorem length_hashedText (mode : GcmMode) {input output : Bytes}
    (sized : output.length = input.length) :
    (hashedText mode input output).length = input.length := by
  cases mode
  · exact sized
  · rfl

section Hash

variable (tables : GcmTables) (buf : GcmBlock) {p front : Bytes}

@[simp] theorem hashWhile_nil : hashWhile tables buf [] = buf := by
  rw [hashWhile, if_pos rfl]

/-- One round of the loop. -/
theorem hashWhile_step (more : p ≠ []) :
    hashWhile tables buf p =
      hashWhile tables (gcmMult tables (xorInto buf (p.take 16))) (p.drop 16) := by
  rw [hashWhile, if_neg more]

/-- Whole blocks can be hashed on their own. -/
theorem hashWhile_append {blocks : Nat} (aligned : front.length = 16 * blocks) (rest : Bytes) :
    hashWhile tables buf (front ++ rest) = hashWhile tables (hashWhile tables buf front) rest := by
  induction blocks generalizing buf front with
  | zero =>
      obtain rfl : front = [] := List.eq_nil_of_length_eq_zero aligned
      rw [List.nil_append, hashWhile_nil]
  | succ blocks ih =>
      have whole : 16 ≤ front.length := by omega
      have begun : front ≠ [] := List.ne_nil_of_length_pos (by omega)
      have left : (front.drop 16).length = 16 * blocks := by
        rw [List.length_drop]
        omega
      rw [hashWhile_step tables buf (List.append_ne_nil_of_left_ne_nil begun rest),
        List.take_append_of_le_length whole, List.drop_append_of_le_length whole, ih _ left,
        hashWhile_step tables buf begun]

/-- What fills no more than a block is hashed in one step. -/
theorem hashWhile_block (more : p ≠ []) (short : p.length ≤ 16) :
    hashWhile tables buf p = gcmMult tables (xorInto buf p) := by
  rw [hashWhile_step tables buf more, List.take_of_length_le short, List.drop_of_length_le short,
    hashWhile_nil]

/-- A first block, or all there is. -/
theorem hashWhile_first {first : Bytes} (more : first ≠ []) (short : first.length ≤ 16)
    {rest : Bytes} (ends : first.length < 16 → rest = []) :
    hashWhile tables buf (first ++ rest) =
      hashWhile tables (gcmMult tables (xorInto buf first)) rest := by
  have single := hashWhile_block tables buf more short
  by_cases whole : first.length = 16 * 1
  · rw [hashWhile_append tables buf whole, single]
  · rw [ends (by omega), List.append_nil, single, hashWhile_nil]

/-- The masked text is hashed block by block, as it is masked. -/
theorem hashWhile_hashedText (mode : GcmMode) (cipher : GcmBlock → GcmBlock) (y : GcmBlock)
    (more : p ≠ []) :
    hashWhile tables buf (hashedText mode p (streamed cipher y p)) =
      hashWhile tables
        (gcmMult tables
          (xorInto buf (hashedText mode (p.take 16) (streamed cipher y (p.take 16)))))
        (hashedText mode (p.drop 16) (streamed cipher (countBlock y 4) (p.drop 16))) := by
  have positive := List.length_pos_iff.mpr more
  have masked : (hashedText mode (p.take 16) (streamed cipher y (p.take 16))).length =
      (p.take 16).length := length_hashedText mode (length_streamed ..)
  have begun : hashedText mode (p.take 16) (streamed cipher y (p.take 16)) ≠ [] := by
    refine List.ne_nil_of_length_pos ?_
    rw [masked, List.length_take]
    omega
  have parts : hashedText mode p (streamed cipher y p) =
      hashedText mode (p.take 16) (streamed cipher y (p.take 16)) ++
        hashedText mode (p.drop 16) (streamed cipher (countBlock y 4) (p.drop 16)) := by
    rw [← hashedText_append, List.take_append_drop, ← streamed_step]
  rw [parts]
  refine hashWhile_first tables buf begun (by rw [masked]; exact List.length_take_le ..) ?_
  intro part
  rw [masked, List.length_take] at part
  rw [List.drop_of_length_le (by omega), streamed_nil]
  cases mode <;> rfl

end Hash

/-! ### The loop -/

section Update

variable (ctx : GcmContext) {input front rest : Bytes}

/-- One block counts, masks and hashes. -/
theorem updateBlock_eq (short : input.length ≤ 16) :
    updateBlock ctx input =
      ({ ctx with
          y := countBlock ctx.y 4
          buf := gcmMult ctx.toGcmTables
            (xorInto ctx.buf (hashedText ctx.mode input (streamed ctx.cipherCtx ctx.y input))) },
        streamed ctx.cipherCtx ctx.y input) := by
  rw [streamed_block ctx.cipherCtx ctx.y short]
  rfl

/-- The loop takes the first block and goes on behind it. -/
theorem updateWhile_step (more : input ≠ []) :
    updateWhile ctx input =
      ((updateWhile (updateBlock ctx (input.take 16)).1 (input.drop 16)).1,
        (updateBlock ctx (input.take 16)).2 ++
          (updateWhile (updateBlock ctx (input.take 16)).1 (input.drop 16)).2) := by
  rw [updateWhile, if_neg more]

/-- The loop masks the message, counts its blocks and hashes the masked text. -/
theorem updateWhile_eq (input : Bytes) :
    updateWhile ctx input =
      ({ ctx with
          y := counted ctx.y (blockCount input.length)
          buf := hashWhile ctx.toGcmTables ctx.buf
            (hashedText ctx.mode input (streamed ctx.cipherCtx ctx.y input)) },
        streamed ctx.cipherCtx ctx.y input) := by
  induction sized : input.length using Nat.strong_induction_on generalizing ctx input with
  | _ count ih =>
      by_cases ended : input = []
      · subst ended
        subst sized
        have nothing : hashedText ctx.mode [] [] = [] := by cases ctx.mode <;> rfl
        rw [updateWhile, if_pos rfl, streamed_nil, nothing, hashWhile_nil]
        rfl
      · have positive := List.length_pos_iff.mpr ended
        have short : (input.take 16).length ≤ 16 := List.length_take_le ..
        have shorter : (input.drop 16).length < count := by
          rw [List.length_drop]
          omega
        rw [updateWhile_step ctx ended, updateBlock_eq ctx short, ih _ shorter _ _ rfl,
          hashWhile_hashedText ctx.toGcmTables ctx.buf ctx.mode ctx.cipherCtx ctx.y ended,
          ← sized, blockCount_step ended, streamed_step ctx.cipherCtx ctx.y input]
        rfl

/-- The check of the length, without the arithmetic of 64 bits. -/
theorem mbedtlsGcmUpdate_eq (short : input.length < 2 ^ 64) :
    mbedtlsGcmUpdate ctx input =
      if ctx.len.toNat + input.length ≤ 0xFFFFFFFE0 then
        .ok (updateWhile { ctx with len := ctx.len + UInt64.ofNat input.length } input)
      else .error errGcmBadInput := by
  have bounded := ctx.len.toNat_lt
  have refused : ctx.len + UInt64.ofNat input.length < ctx.len ∨
      0xFFFFFFFE0 < ctx.len + UInt64.ofNat input.length ↔
      ¬ ctx.len.toNat + input.length ≤ 0xFFFFFFFE0 := by
    rw [UInt64.lt_iff_toNat_lt, UInt64.lt_iff_toNat_lt, UInt64.toNat_add, UInt64.toNat_ofNat',
      Nat.mod_eq_of_lt short]
    have limit : (0xFFFFFFFE0 : UInt64).toNat = 0xFFFFFFFE0 := rfl
    rw [limit]
    omega
  rw [mbedtlsGcmUpdate]
  by_cases fits : ctx.len.toNat + input.length ≤ 0xFFFFFFFE0
  · rw [if_pos fits]
    exact if_neg fun exceeds => refused.mp exceeds fits
  · rw [if_neg fits]
    exact if_pos (refused.mpr fits)

/-- A message can be given in parts, as long as only the last part ends inside a block. -/
theorem mbedtlsGcmUpdate_append (aligned : 16 ∣ front.length)
    (short : (front ++ rest).length < 2 ^ 64) :
    mbedtlsGcmUpdate ctx (front ++ rest) =
      (do
        let (ctx, output) ← mbedtlsGcmUpdate ctx front
        let (ctx, more) ← mbedtlsGcmUpdate ctx rest
        pure (ctx, output ++ more)) := by
  obtain ⟨blocks, aligned⟩ := aligned
  have both : (front ++ rest).length = front.length + rest.length := List.length_append
  have whole : blockCount front.length = blocks := by
    rw [blockCount]
    omega
  rw [mbedtlsGcmUpdate_eq ctx short, mbedtlsGcmUpdate_eq ctx (by omega)]
  by_cases begins : ctx.len.toNat + front.length ≤ 0xFFFFFFFE0
  · have counts : (ctx.len + UInt64.ofNat front.length).toNat = ctx.len.toNat + front.length := by
      rw [UInt64.toNat_add, UInt64.toNat_ofNat']
      omega
    have sum : ctx.len + UInt64.ofNat (front ++ rest).length =
        ctx.len + UInt64.ofNat front.length + UInt64.ofNat rest.length := by
      rw [both, UInt64.ofNat_add, UInt64.add_assoc]
    rw [if_pos begins, updateWhile_eq _ front, ok_bind]
    dsimp only
    rw [mbedtlsGcmUpdate_eq _ (by omega)]
    dsimp only
    rw [counts, both, Nat.add_assoc]
    by_cases fits : ctx.len.toNat + (front.length + rest.length) ≤ 0xFFFFFFFE0
    · rw [if_pos fits, if_pos fits, ok_bind, updateWhile_eq, updateWhile_eq]
      simp only [streamed_append _ _ aligned, hashedText_append, ← both,
        blockCount_append aligned, counted_add, sum, whole]
      rw [hashWhile_append _ _ (by rw [length_hashedText _ (length_streamed ..), aligned])]
      rfl
    · rw [if_neg fits, if_neg fits]
      rfl
  · rw [if_neg begins, if_neg (by omega)]
    rfl

end Update

/-- A text in two parts, the second shorter than a block. -/
theorem mbedtlsGcmUpdate_parts :
    mbedtlsGcmUpdate mbedtlsGcmInit (List.replicate 16 7 ++ [1, 2, 3]) =
      (do
        let (ctx, output) ← mbedtlsGcmUpdate mbedtlsGcmInit (List.replicate 16 7)
        let (ctx, more) ← mbedtlsGcmUpdate ctx [1, 2, 3]
        pure (ctx, output ++ more)) :=
  mbedtlsGcmUpdate_append mbedtlsGcmInit (by decide) (by decide)

end RentMate.GcmStream
