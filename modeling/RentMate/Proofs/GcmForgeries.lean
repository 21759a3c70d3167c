/-
Module: RentMate.Proofs.GcmForgeries
Purpose: The hash of the crypto library's GCM as a polynomial at the hash key, and how many hash keys
  let a second message under the same vector pass for a genuine one.
Trusted boundary: none
Main exports: blocks, element_hashWhile, messageElements, element_tagOver, Opens,
  opens_withHashKey, forgeries_few, opens_zeroBlock
-/
import RentMate.Machine.PolynomialHash
import RentMate.Proofs.GcmField
import RentMate.Proofs.GcmMessages

namespace RentMate.GcmForgeries

open RentMate.Machine
open RentMate.MbedtlsGcm
open RentMate.GcmField
open RentMate.GcmStream
open RentMate.GcmMessages

/-! ### Byte strings as blocks -/

/-- The blocks of a byte string, the last one filled with zeros. -/
def blocks (p : Bytes) : List GcmBlock :=
  if p = [] then [] else xorInto zeroBlock (p.take 16) :: blocks (p.drop 16)
termination_by p.length
decreasing_by
  have more : 0 < p.length := List.length_pos_iff.mpr ‹_›
  simp only [List.length_drop]
  omega

section Blocks

variable {p one other : Bytes}

@[simp] theorem blocks_nil : blocks [] = [] := by
  rw [blocks, if_pos rfl]

/-- The blocks of a text are its first one and those behind it. -/
theorem blocks_step (more : p ≠ []) :
    blocks p = xorInto zeroBlock (p.take 16) :: blocks (p.drop 16) := by
  rw [blocks, if_neg more]

/-- A text has as many blocks as the loop makes rounds. -/
theorem length_blocks (p : Bytes) : (blocks p).length = blockCount p.length := by
  induction p using blocks.induct with
  | case1 => rw [blocks_nil]; rfl
  | case2 p more ih => rw [blocks_step more, List.length_cons, ih, blockCount_step more]

/-- Bytes are added to a block place by place. -/
theorem getElem_xorInto (block : GcmBlock) (p : Bytes) {i : Nat} (inside : i < 16) :
    (xorInto block p)[i] = block[i] ^^^ p[i]?.getD 0 := by
  simp [xorInto]

/-- Filling up with zeros loses nothing but the length. -/
theorem filled_injective (length : one.length = other.length) (short : one.length ≤ 16)
    (same : xorInto zeroBlock one = xorInto zeroBlock other) : one = other := by
  refine List.ext_getElem length fun i inside insideOther => ?_
  have bytes := congrArg (fun block : GcmBlock => block[i]?) same
  have small : i < 16 := by omega
  simp only [Vector.getElem?_eq_getElem small, getElem_xorInto _ _ small,
    List.getElem?_eq_getElem inside, List.getElem?_eq_getElem insideOther, Option.getD_some,
    Option.some.injEq, UInt8.xor_right_inj] at bytes
  exact bytes

/-- A text of a known length is known from its blocks. -/
theorem blocks_injective (length : one.length = other.length) (same : blocks one = blocks other) :
    one = other := by
  induction one using blocks.induct generalizing other with
  | case1 => exact (List.eq_nil_of_length_eq_zero length.symm).symm
  | case2 one more ih =>
      have moreOther : other ≠ [] := by
        rintro rfl
        exact more (List.eq_nil_of_length_eq_zero length)
      rw [blocks_step more, blocks_step moreOther] at same
      obtain ⟨first, rest⟩ := List.cons.inj same
      have firsts : one.take 16 = other.take 16 :=
        filled_injective (by rw [List.length_take, List.length_take, length])
          (List.length_take_le ..) first
      have rests : one.drop 16 = other.drop 16 :=
        ih (by rw [List.length_drop, List.length_drop, length]) rest
      rw [← List.take_append_drop 16 one, firsts, rests, List.take_append_drop]

end Blocks

/-! ### The hash as a polynomial -/

section Hash

variable {tables : GcmTables} {h : Field128} {add masked : Bytes}

/-- Adding a text to a block adds their elements. -/
theorem element_xorInto (block : GcmBlock) (p : Bytes) :
    element (xorInto block p) = element block + element (xorInto zeroBlock p) := by
  have bytes : (xorInto block p).toList =
      List.zipWith (· ^^^ ·) block.toList (xorInto zeroBlock p).toList := by
    refine List.ext_getElem (by simp) fun i inside _ => ?_
    rw [Vector.length_toList] at inside
    simp [getElem_xorInto _ _ inside, zeroBlock]
  rw [element, bytes, reflectedBytes_xor (by simp), map_add]
  rfl

/-- A whole block stands for its own element. -/
theorem element_filled (block : GcmBlock) :
    element (xorInto zeroBlock block.toList) = element block := by
  refine congrArg element (Vector.ext fun i inside => ?_)
  rw [getElem_xorInto _ _ inside]
  simp [zeroBlock, inside]

/-- Hashing a byte string takes its blocks in, one after the other. -/
theorem element_hashWhile (keyed : Keyed tables h) (buf : GcmBlock) (p : Bytes) :
    element (hashWhile tables buf p) = hashFrom h (element buf) ((blocks p).map element) := by
  induction p using blocks.induct generalizing buf with
  | case1 => rw [hashWhile_nil, blocks_nil]; rfl
  | case2 p more ih =>
      rw [hashWhile_step tables buf more, ih, gcmMult_element keyed, element_xorInto,
        blocks_step more]
      rfl

/-- What is hashed for a message: its data, its masked text and the lengths of both. -/
noncomputable def messageElements (add masked : Bytes) : List Field128 :=
  (blocks add ++ blocks masked ++
    [putWords (UInt64.ofNat add.length * 8) (UInt64.ofNat masked.length * 8)]).map element

/-- A message has one element for each block, and one for the lengths. -/
theorem length_messageElements (add masked : Bytes) :
    (messageElements add masked).length =
      blockCount add.length + blockCount masked.length + 1 := by
  rw [messageElements, List.length_map, List.length_append, List.length_append, length_blocks,
    length_blocks, List.length_singleton]

/-- The number of bits of an accepted length fits the word. -/
theorem toNat_bits {length : Nat} (short : length < 2 ^ 61) :
    (UInt64.ofNat length * 8).toNat = length * 8 := by
  rw [UInt64.toNat_mul, UInt64.toNat_ofNat']
  have eight : (8 : UInt64).toNat = 8 := rfl
  rw [eight]
  omega

/-- A tag of full length is the masked hash. -/
theorem element_tagOver (keyed : Keyed tables h) (cipher : GcmBlock → GcmBlock) (iv : Bytes)
    (addShort : add.length < 2 ^ 61) (short : masked.length < 2 ^ 61) :
    residueOf (reflectedBytes (tagOver tables cipher iv add masked 16)) =
      element (cipher (startBlock tables iv)) + hashFrom h 0 (messageElements add masked) := by
  have hashed : element (gcmMult tables (xorInto
      (hashWhile tables (hashWhile tables zeroBlock add) masked)
      (putWords (UInt64.ofNat add.length * 8) (UInt64.ofNat masked.length * 8)).toList)) =
      hashFrom h 0 (messageElements add masked) := by
    rw [gcmMult_element keyed, element_xorInto, element_filled, element_hashWhile keyed,
      element_hashWhile keyed, element_zeroBlock, messageElements, List.map_append,
      List.map_append, hashFrom_append, hashFrom_append]
    rfl
  have whole : (cipher (startBlock tables iv)).toList.take 16 =
      (cipher (startBlock tables iv)).toList :=
    List.take_of_length_le (by rw [Vector.length_toList])
  rw [tagOver, finalTag]
  dsimp only
  rw [whole]
  split
  · rw [reflectedBytes_xor (by simp), map_add, ← hashed]
    rfl
  · next empty =>
    -- Without data and text, the hash is of zeros only.
    obtain ⟨noText, noData⟩ := not_or.mp empty
    have textBits := toNat_bits short
    have dataBits := toNat_bits addShort
    rw [not_not.mp noText, UInt64.toNat_zero] at textBits
    rw [not_not.mp noData, UInt64.toNat_zero] at dataBits
    obtain rfl : masked = [] := List.eq_nil_of_length_eq_zero (by omega)
    obtain rfl : add = [] := List.eq_nil_of_length_eq_zero (by omega)
    have zeros : putWords 0 0 = zeroBlock := by decide
    rw [← hashed, hashWhile_nil, hashWhile_nil, gcmMult_element keyed, element_xorInto,
      element_filled, not_not.mp noText, zeros, element_zeroBlock, add_zero, zero_mul, add_zero]
    rfl

end Hash

/-! ### Different messages -/

section Different

variable {add masked addOther maskedOther : Bytes}

/-- Two words are known from the block they are written into. -/
theorem putWords_injective {high low highOther lowOther : UInt64}
    (same : putWords high low = putWords highOther lowOther) :
    high = highOther ∧ low = lowOther := by
  have polynomials := congrArg (fun block : GcmBlock => reflectedBytes block.toList) same
  simp only [reflectedBytes_putWords, pairPolynomial_append] at polynomials
  have words := reflected_injective polynomials
  constructor
  · refine UInt64.toBitVec_inj.mp (BitVec.eq_of_getLsbD_eq fun i inside => ?_)
    have bits : (high.toBitVec ++ low.toBitVec).getLsbD (64 + i) =
        (highOther.toBitVec ++ lowOther.toBitVec).getLsbD (64 + i) := by rw [words]
    rw [BitVec.getLsbD_append, BitVec.getLsbD_append, if_neg (by omega), if_neg (by omega),
      Nat.add_sub_cancel_left] at bits
    exact bits
  · refine UInt64.toBitVec_inj.mp (BitVec.eq_of_getLsbD_eq fun i inside => ?_)
    have bits : (high.toBitVec ++ low.toBitVec).getLsbD i =
        (highOther.toBitVec ++ lowOther.toBitVec).getLsbD i := by rw [words]
    rw [BitVec.getLsbD_append, BitVec.getLsbD_append, if_pos inside, if_pos inside] at bits
    exact bits

/-- Different messages have different polynomials. -/
theorem messageElements_injective (addShort : add.length < 2 ^ 61)
    (short : masked.length < 2 ^ 61) (addShortOther : addOther.length < 2 ^ 61)
    (shortOther : maskedOther.length < 2 ^ 61)
    (same : hashPolynomial (messageElements add masked) =
      hashPolynomial (messageElements addOther maskedOther)) :
    add = addOther ∧ masked = maskedOther := by
  have last := congrArg (fun p => Polynomial.coeff p 1) same
  simp only [messageElements, List.map_append, List.map_cons, List.map_nil,
    hashPolynomial_last] at last
  obtain ⟨data, text⟩ := putWords_injective (element_injective last)
  have dataBits := congrArg UInt64.toNat data
  have textBits := congrArg UInt64.toNat text
  rw [toNat_bits addShort, toNat_bits addShortOther] at dataBits
  rw [toNat_bits short, toNat_bits shortOther] at textBits
  have dataLength : add.length = addOther.length := Nat.eq_of_mul_eq_mul_right (by decide) dataBits
  have textLength : masked.length = maskedOther.length :=
    Nat.eq_of_mul_eq_mul_right (by decide) textBits
  have lengths : (messageElements add masked).length =
      (messageElements addOther maskedOther).length := by
    rw [length_messageElements, length_messageElements, dataLength, textLength]
  have elements := hashPolynomial_injective lengths same
  have injective : Function.Injective element := fun _ _ => element_injective
  rw [messageElements, messageElements] at elements
  have all := List.map_injective_iff.mpr injective elements
  have parts : blocks add ++ blocks masked = blocks addOther ++ blocks maskedOther :=
    List.append_inj_left' all (by rw [List.length_singleton, List.length_singleton])
  obtain ⟨dataBlocks, textBlocks⟩ :=
    List.append_inj parts (by rw [length_blocks, length_blocks, dataLength])
  exact ⟨blocks_injective dataLength dataBlocks, blocks_injective textLength textBlocks⟩

end Different

/-! ### Forgeries -/

/-- A context with a hash key of its own: what the cipher gives for the block of zeros. -/
def withHashKey (ctx : GcmContext) (key : GcmBlock) : GcmContext :=
  gcmGenTable
    { ctx with
      cipherCtx := fun block => if block = zeroBlock then key else ctx.cipherCtx block }

/-- The block that masks the tag. -/
def tagMask (ctx : GcmContext) (iv : Bytes) : GcmBlock :=
  ctx.cipherCtx (startBlock ctx.toGcmTables iv)

/-- A message that is accepted. -/
def Opens (ctx : GcmContext) (iv add tag masked before : Bytes) : Prop :=
  ∃ next text, mbedtlsGcmAuthDecrypt ctx iv add tag masked before = (.ok next, text)

section Forgeries

variable {ctx : GcmContext} {iv add masked tag addOther maskedOther tagOther before : Bytes}

/-- The tables of a hash key multiply by its element. -/
theorem keyed_withHashKey (ctx : GcmContext) (key : GcmBlock) :
    Keyed (withHashKey ctx key).toGcmTables (element key) := by
  have keyed := keyed_gcmGenTable
    { ctx with
      cipherCtx := fun block => if block = zeroBlock then key else ctx.cipherCtx block }
  dsimp only at keyed
  rw [if_pos rfl] at keyed
  exact keyed

/-- A message with a tag of full length is accepted if its lengths are, and if the tag is the masked
value of its polynomial at the hash key. -/
theorem opens_withHashKey {key : GcmBlock} (sized : tag.length = 16)
    (short : masked.length < 2 ^ 64) :
    Opens (withHashKey ctx key) iv add tag masked before ↔
      Accepts iv.length add.length masked.length 16 ∧
        residueOf (reflectedBytes tag) = element (tagMask (withHashKey ctx key) iv) +
          hashFrom (element key) 0 (messageElements add masked) := by
  have opens : Opens (withHashKey ctx key) iv add tag masked before ↔
      Accepts iv.length add.length masked.length 16 ∧
        tagOver (withHashKey ctx key).toGcmTables (withHashKey ctx key).cipherCtx iv add masked 16 =
          tag := by
    rw [← sized]
    constructor
    · rintro ⟨next, text, ran⟩
      obtain ⟨accepts, same, -⟩ := (decrypts_iff _ before short).mp ⟨next, ran⟩
      exact ⟨accepts, same⟩
    · rintro ⟨accepts, same⟩
      obtain ⟨next, ran⟩ := (decrypts_iff _ before short).mpr ⟨accepts, same, rfl⟩
      exact ⟨next, _, ran⟩
  rw [opens]
  refine and_congr_right fun accepts => ?_
  have bounded := accepts.short
  rw [tagMask, ← element_tagOver (keyed_withHashKey ctx key) _ iv accepts.addShort (by omega)]
  constructor
  · rintro rfl
    rfl
  · intro same
    exact (residueOf_injective sized (length_tagOver _ _ iv add masked (Nat.le_refl 16)) same).symm

/-- Under one vector, two different messages are accepted together for no more hash keys than the
longer one has blocks, with one more for the lengths. -/
theorem forgeries_few (ctx : GcmContext) (iv before : Bytes) (sized : tag.length = 16)
    (sizedOther : tagOther.length = 16) (short : masked.length < 2 ^ 64)
    (shortOther : maskedOther.length < 2 ^ 64)
    (different : (add, masked) ≠ (addOther, maskedOther)) (keys : Finset GcmBlock)
    (accepted : ∀ key ∈ keys, Opens (withHashKey ctx key) iv add tag masked before ∧
      Opens (withHashKey ctx key) iv addOther tagOther maskedOther before) :
    keys.card ≤
      max (blockCount add.length + blockCount masked.length + 1)
        (blockCount addOther.length + blockCount maskedOther.length + 1) := by
  classical
  have injective : Function.Injective element := fun _ _ => element_injective
  rw [← length_messageElements, ← length_messageElements, ← Finset.card_image_of_injective keys injective]
  obtain rfl | ⟨key, inside⟩ := keys.eq_empty_or_nonempty
  · exact Nat.zero_le _
  · obtain ⟨opens, opensOther⟩ := accepted key inside
    obtain ⟨accepts, -⟩ := (opens_withHashKey sized short).mp opens
    obtain ⟨acceptsOther, -⟩ := (opens_withHashKey sizedOther shortOther).mp opensOther
    have bounded := accepts.short
    have boundedOther := acceptsOther.short
    have apart : hashPolynomial (messageElements add masked) ≠
        hashPolynomial (messageElements addOther maskedOther) := by
      intro same
      obtain ⟨rfl, rfl⟩ := messageElements_injective accepts.addShort (by omega)
        acceptsOther.addShort (by omega) same
      exact different rfl
    -- The mask is the same for both tags, so that their difference does not depend on the key.
    have collide : ∀ point ∈ keys.image element,
        hashFrom point 0 (messageElements add masked) =
          hashFrom point 0 (messageElements addOther maskedOther) +
            (residueOf (reflectedBytes tag) - residueOf (reflectedBytes tagOther)) := by
      intro point member
      obtain ⟨key, inside, rfl⟩ := Finset.mem_image.mp member
      obtain ⟨opens, opensOther⟩ := accepted key inside
      rw [((opens_withHashKey sized short).mp opens).2,
        ((opens_withHashKey sizedOther shortOther).mp opensOther).2]
      ring
    exact points_few apart _ collide

/-- The hash key zero gives every message the same tag. -/
theorem opens_zeroBlock (accepts : Accepts iv.length add.length masked.length 16) :
    Opens (withHashKey ctx zeroBlock) iv add (tagMask (withHashKey ctx zeroBlock) iv).toList masked
      before := by
  have bounded := accepts.short
  refine (opens_withHashKey Vector.length_toList (by omega)).mpr ⟨accepts, ?_⟩
  rw [element_zeroBlock, hashFrom_eq_eval, ← Polynomial.coeff_zero_eq_eval_zero,
    coeff_hashPolynomial_zero, add_zero]
  rfl

end Forgeries

/-- One hash key, a text of one byte, and two bytes of additional data without a text. -/
theorem forgeries_few_zeroBlock :
    Finset.card {zeroBlock} ≤
      max (blockCount 0 + blockCount 1 + 1) (blockCount 2 + blockCount 0 + 1) :=
  forgeries_few mbedtlsGcmInit [1] [] Vector.length_toList Vector.length_toList
    (show [(3 : UInt8)].length < 2 ^ 64 by decide) (show ([] : Bytes).length < 2 ^ 64 by decide)
    (show (([] : Bytes), [(3 : UInt8)]) ≠ ([1, 2], []) by decide) {zeroBlock} fun key inside => by
      obtain rfl := Finset.mem_singleton.mp inside
      exact ⟨opens_zeroBlock ⟨by decide, by decide, by decide, by decide, by decide, by decide⟩,
        opens_zeroBlock ⟨by decide, by decide, by decide, by decide, by decide, by decide⟩⟩

end RentMate.GcmForgeries
