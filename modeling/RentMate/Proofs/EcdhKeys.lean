/-
Module: RentMate.Proofs.EcdhKeys
Purpose: The two functions of the key exchange library that the program calls: what keys they
  make, which keys of others they take, and when two ends derive the same secret.
Trusted boundary: none
Main exports: ecdhGenerateKeys_ok, ecdhSharedSecret_ok, ecdhSharedSecret_iff, keyOf_vertical
-/
import RentMate.Proofs.Gf2Curve

namespace RentMate.EcdhKeys

open RentMate.Machine
open RentMate.PckData (eccPrvKeySize eccPubKeySize keyLen keyOf onePrivateKey)
open RentMate.TinyEcdh
open RentMate.BitVectors
open RentMate.Gf2Field
open RentMate.Gf2Curve

/-! ### Vectors in memory -/

section Memory

variable {host : ByteOrder} {size : Nat} {memory : Block size} {front rest : Bytes} {offset : Nat}

/-- Words take four bytes each. -/
theorem length_flatMap_encode (host : ByteOrder) (words : List UInt32) :
    (words.flatMap host.encode).length = 4 * words.length := by
  rw [List.length_flatMap]
  simp [Nat.mul_comm]

/-- What was stored is loaded. -/
theorem loadBitvec_eq {x : Bitvec} (content : memory.bytes = front ++ (bitvecBytes host x ++ rest))
    (position : front.length = offset) : loadBitvec host memory offset = x := by
  apply Vector.ext
  intro i inside
  have place : i < x.toList.length := by simpa using inside
  have words : x.toList = x.toList.take i ++ x[i] :: x.toList.drop (i + 1) := by
    rw [← Vector.getElem_toList place, ← List.drop_eq_getElem_cons, List.take_append_drop]
  have bytes : memory.bytes = (front ++ (x.toList.take i).flatMap host.encode) ++
      (host.encode x[i] ++ ((x.toList.drop (i + 1)).flatMap host.encode ++ rest)) := by
    rw [content, bitvecBytes]
    conv_lhs => rw [words]
    simp only [List.flatMap_append, List.flatMap_cons, List.append_assoc]
  have before : (front ++ (x.toList.take i).flatMap host.encode).length = offset + 4 * i := by
    rw [List.length_append, length_flatMap_encode, position, List.length_take,
      Nat.min_eq_left (Nat.le_of_lt place)]
  rw [loadBitvec, Vector.getElem_ofFn, bytes,
    slice_append_of_length before (host.encode_length _), ByteOrder.decode_encode]

/-- A private key is read back as it was stored. -/
theorem load_privateKey (host : ByteOrder) (exp : Scalar) :
    loadBitvec host (privateKeyBlock host exp) 0 = exp := by
  have content : (privateKeyBlock host exp).bytes = [] ++ (bitvecBytes host exp ++ []) := by
    rw [List.append_nil]
    rfl
  exact loadBitvec_eq content rfl

/-- A public key is read back as it was stored. -/
theorem load_publicKey (host : ByteOrder) (point : Gf2Elem × Gf2Elem) :
    (loadBitvec host (publicKeyBlock host point) 0,
      loadBitvec host (publicKeyBlock host point) bitvecNBytes) = point := by
  have second : (publicKeyBlock host point).bytes =
      bitvecBytes host point.1 ++ (bitvecBytes host point.2 ++ []) := by
    rw [List.append_nil]
    rfl
  have first : (publicKeyBlock host point).bytes =
      [] ++ (bitvecBytes host point.1 ++ bitvecBytes host point.2) := rfl
  exact Prod.ext (loadBitvec_eq first rfl)
    (loadBitvec_eq second (length_bitvecBytes host point.1))

end Memory

/-! ### Private keys -/

/-- The loop clears the bits in its range. -/
theorem bitOf_clearBits {left i : Nat} {exp : Scalar} (inside : i + left ≤ 192) (j : Nat) :
    bitOf (clearBits left i exp) j = (bitOf exp j && !decide (i ≤ j ∧ j < i + left)) := by
  induction left generalizing i exp with
  | zero =>
      have outside : ¬ (i ≤ j ∧ j < i + 0) := by omega
      rw [clearBits, decide_eq_false outside]
      simp
  | succ left ih =>
      rw [clearBits, ih (by omega), bitOf_clrBit exp (by omega), Bool.and_assoc]
      congr 1
      rw [Bool.eq_iff_iff]
      simp only [Bool.and_eq_true, Bool.not_eq_true', decide_eq_true_eq, decide_eq_false_iff_not]
      omega

/-- The private key that a random number becomes. -/
theorem numberOf_cleared (exp : Scalar) :
    numberOf (clearBits 30 162 exp) = numberOf exp % 2 ^ 162 := by
  apply Nat.eq_of_testBit_eq
  intro j
  rw [testBit_numberOf, bitOf_clearBits (by omega), Nat.testBit_mod_two_pow, testBit_numberOf]
  by_cases inside : j < 192
  · rw [Bool.and_comm]
    congr 1
    rw [Bool.eq_iff_iff]
    simp only [Bool.not_eq_true', decide_eq_true_eq, decide_eq_false_iff_not]
    omega
  · rw [bitOf_past exp inside]
    simp

/-- The number that a private key in memory holds. -/
def secretOf (host : ByteOrder) (privateKey : Block eccPrvKeySize) : Nat :=
  numberOf (loadBitvec host privateKey 0)

section Keys

variable {host : ByteOrder} {drawn privateKey : Block eccPrvKeySize}
  {publicKey : Block eccPubKeySize}

/-- The length of the order, as the source computes it. -/
theorem degree_baseOrder : bitvecDegree baseOrder = 163 := by
  rw [bitvecDegree_eq]
  decide

/-- `ecdh_generate_keys` always returns; a random number that is long enough loses its bits from
162 on, and the public key is the multiple of the base point by what is left. -/
theorem ecdhGenerateKeys_ok (host : ByteOrder) (drawn : Block eccPrvKeySize)
    (long : 81 ≤ (secretOf host drawn).size) :
    ∃ exp point, ecdhGenerateKeys host drawn =
        .ok (true, publicKeyBlock host point, privateKeyBlock host exp) ∧
      numberOf exp = secretOf host drawn % 2 ^ 162 ∧
      Represents point (numberOf exp • base) := by
  obtain ⟨point, ran, represents⟩ :=
    gf2pointMul_ok represents_base (clearBits 30 162 (loadBitvec host drawn 0))
  refine ⟨clearBits 30 162 (loadBitvec host drawn 0), point, ?_, numberOf_cleared _, represents⟩
  have taken : ¬ bitvecDegree (loadBitvec host drawn 0) < curveDegree / 2 := by
    rw [bitvecDegree_eq]
    exact not_lt.mpr long
  rw [ecdhGenerateKeys, if_neg taken, degree_baseOrder]
  change (gf2pointMul baseX baseY (clearBits 30 162 (loadBitvec host drawn 0)) >>= _) = _
  rw [ran]
  rfl

/-- A private number that is too short is refused, with the base point in the public key. -/
theorem ecdhGenerateKeys_refuses (host : ByteOrder) (drawn : Block eccPrvKeySize)
    (short : (secretOf host drawn).size < 81) :
    ecdhGenerateKeys host drawn = .ok (false, publicKeyBlock host (baseX, baseY), drawn) := by
  have refused : bitvecDegree (loadBitvec host drawn 0) < curveDegree / 2 := by
    rw [bitvecDegree_eq]
    exact short
  rw [ecdhGenerateKeys, if_pos refused]

/-! ### Secrets -/

/-- The pair of vectors that a public key in memory holds. -/
def pairOf (host : ByteOrder) (publicKey : Block eccPubKeySize) : Gf2Elem × Gf2Elem :=
  (loadBitvec host publicKey 0, loadBitvec host publicKey bitvecNBytes)

/-- A public key is the pair that was stored. -/
theorem pairOf_block (host : ByteOrder) (point : Gf2Elem × Gf2Elem) :
    pairOf host (publicKeyBlock host point) = point := load_publicKey host point

/-- A key that holds a point of the curve gives the multiple by the private key. -/
theorem ecdhSharedSecret_ok {P : curve.Point} (host : ByteOrder)
    (privateKey : Block eccPrvKeySize) (represents : Represents (pairOf host publicKey) P)
    (finite : P ≠ 0) :
    ∃ secret, ecdhSharedSecret host privateKey publicKey =
        .ok (some (publicKeyBlock host secret)) ∧
      Represents secret (secretOf host privateKey • P) := by
  obtain ⟨secret, ran, multiple⟩ :=
    gf2pointMul_ok represents (loadBitvec host privateKey 0)
  refine ⟨secret, ?_, multiple⟩
  have begun : gf2pointIsZero (loadBitvec host publicKey 0)
      (loadBitvec host publicKey bitvecNBytes) = false :=
    Bool.eq_false_iff.mpr (fun zero => finite (represents.isZero_iff.mp zero))
  have onCurve : gf2pointOnCurve (loadBitvec host publicKey 0)
      (loadBitvec host publicKey bitvecNBytes) = true :=
    (onCurve_iff represents.standsX.reduced represents.standsY.reduced).mpr ⟨P, represents⟩
  rw [ecdhSharedSecret, begun, onCurve, if_pos (by rfl)]
  change (gf2pointMul (pairOf host publicKey).1 (pairOf host publicKey).2 _ >>= _) = _
  rw [ran]
  rfl

/-- The library takes no key that holds the point at infinity or no point at all. -/
theorem ecdhSharedSecret_none (host : ByteOrder) (privateKey : Block eccPrvKeySize)
    (reducedX : Reduced (pairOf host publicKey).1) (reducedY : Reduced (pairOf host publicKey).2)
    (outside : ∀ P, Represents (pairOf host publicKey) P → P = 0) :
    ecdhSharedSecret host privateKey publicKey = .ok none := by
  rw [ecdhSharedSecret]
  apply if_neg
  rw [Bool.and_eq_true, Bool.not_eq_true']
  rintro ⟨begun, onCurve⟩
  obtain ⟨P, represents⟩ := (onCurve_iff reducedX reducedY).mp onCurve
  have zero : gf2pointIsZero (pairOf host publicKey).1 (pairOf host publicKey).2 = true :=
    represents.isZero_iff.mpr (outside P represents)
  exact absurd (zero.symm.trans begun) (by decide)

/-- Whatever reduced key the other side sends, `ecdh_shared_secret` returns: with the multiple of
its point by the private key when the key is a point of the curve besides the one at infinity, and
else without a secret. -/
theorem ecdhSharedSecret_iff (host : ByteOrder) (privateKey : Block eccPrvKeySize)
    (publicKey : Block eccPubKeySize) (reducedX : Reduced (pairOf host publicKey).1)
    (reducedY : Reduced (pairOf host publicKey).2) (result : Option (Block eccPubKeySize)) :
    ecdhSharedSecret host privateKey publicKey = .ok result ↔
      (∃ P secret, P ≠ 0 ∧ Represents (pairOf host publicKey) P ∧
        Represents secret (secretOf host privateKey • P) ∧
        result = some (publicKeyBlock host secret)) ∨
      (∀ P, Represents (pairOf host publicKey) P → P = 0) ∧ result = none := by
  by_cases outside : ∀ P, Represents (pairOf host publicKey) P → P = 0
  · rw [ecdhSharedSecret_none host privateKey reducedX reducedY outside]
    constructor
    · intro same
      exact .inr ⟨outside, (Except.ok.inj same).symm⟩
    · rintro (⟨P, secret, finite, represents, -, -⟩ | ⟨-, rfl⟩)
      · exact absurd (outside P represents) finite
      · rfl
  · simp only [not_forall] at outside
    obtain ⟨P, represents, finite⟩ := outside
    obtain ⟨secret, ran, multiple⟩ := ecdhSharedSecret_ok host privateKey represents finite
    rw [ran]
    constructor
    · intro same
      exact .inl ⟨P, secret, finite, represents, multiple, (Except.ok.inj same).symm⟩
    · rintro (⟨Q, found, -, again, multipleAgain, rfl⟩ | ⟨none, -⟩)
      · obtain rfl : P = Q := represents.point_eq again
        rw [multiple.unique multipleAgain]
      · exact absurd (none P represents) finite

/-- The base point as the public key of the other side, and the private key two. -/
theorem ecdhSharedSecret_base :
    ecdhSharedSecret .little (privateKeyBlock .little two) (publicKeyBlock .little (baseX, baseY)) =
      .ok (some (publicKeyBlock .little doubledBase)) := by
  have pair := pairOf_block .little (baseX, baseY)
  refine (ecdhSharedSecret_iff .little (privateKeyBlock .little two)
    (publicKeyBlock .little (baseX, baseY)) (by rw [pair]; exact stands_baseX.reduced)
    (by rw [pair]; exact stands_baseY.reduced) _).mpr (.inl ⟨base, doubledBase, ?_, ?_, ?_, rfl⟩)
  · exact WeierstrassCurve.Affine.Point.some_ne_zero _
  · rw [pair]
    exact represents_base
  · rw [secretOf, load_privateKey, numberOf_two, two_nsmul]
    exact represents_doubledBase

/-- The multiples of a point of order two have the first coordinate zero. -/
theorem coordinates_nsmul {P : curve.Point} (vertical : (coordinates P).1 = 0) (count : Nat) :
    (coordinates (count • P)).1 = 0 := by
  have double : P + P = 0 := by
    cases P with
    | zero => exact add_zero 0
    | some x y onCurve =>
        obtain rfl : x = 0 := vertical
        exact double_of_vertical
  have parity : count • P = (count % 2) • P := by
    conv_lhs => rw [← Nat.div_add_mod count 2]
    rw [add_nsmul, mul_nsmul, two_nsmul, double, nsmul_zero, zero_add]
  rw [parity]
  rcases Nat.mod_two_eq_zero_or_one count with even | odd
  · rw [even, zero_nsmul]
    rfl
  · rw [odd, one_nsmul, vertical]

/-- The zero vector is stored as zeros. -/
theorem bitvecBytes_setZero (host : ByteOrder) :
    bitvecBytes host bitvecSetZero = List.replicate bitvecNBytes 0 := by
  cases host <;> rfl

/-- A point of the curve whose first coordinate is zero is not the one at infinity. -/
theorem represents_vertical {pair : Gf2Elem × Gf2Elem} (zeroX : numberOf pair.1 = 0)
    (reducedY : Reduced pair.2) (root : elem pair.2 ^ 2 = elem coeffB) :
    ∃ P : curve.Point, P ≠ 0 ∧ Represents pair P ∧ (coordinates P).1 = 0 := by
  have equation : elem pair.2 ^ 2 + 0 * elem pair.2 = 0 ^ 3 + 1 * 0 ^ 2 + elem coeffB := by
    rw [root]
    ring
  have standsX : Stands pair.1 0 := by
    refine ⟨by rw [Reduced, zeroX]; exact Nat.two_pow_pos _, ?_⟩
    rw [elem, zeroX, BinaryModulus.residue_zero]
  exact ⟨.some 0 (elem pair.2) ((nonsingular_binaryCurve coeffB_ne_zero).mpr equation),
    WeierstrassCurve.Affine.Point.some_ne_zero _, ⟨standsX, reducedY, rfl⟩, rfl⟩

/-- A key whose first coordinate is zero and whose second one is the root of the curve's last
coefficient is taken whatever the private key is, and makes the key that both ends derive all
zeros. With any other second coordinate it is refused. -/
theorem keyOf_vertical (host : ByteOrder) (privateKey : Block eccPrvKeySize)
    (publicKey : Block eccPubKeySize) (zeroX : numberOf (pairOf host publicKey).1 = 0)
    (reducedY : Reduced (pairOf host publicKey).2) :
    (elem (pairOf host publicKey).2 ^ 2 = elem coeffB →
      ∃ secret, ecdhSharedSecret host privateKey publicKey = .ok (some secret) ∧
        (keyOf secret).bytes = List.replicate keyLen 0) ∧
    (elem (pairOf host publicKey).2 ^ 2 ≠ elem coeffB →
      ecdhSharedSecret host privateKey publicKey = .ok none) := by
  constructor
  · intro root
    obtain ⟨P, finite, represents, vertical⟩ := represents_vertical zeroX reducedY root
    obtain ⟨point, ran, multiple⟩ := ecdhSharedSecret_ok host privateKey represents finite
    refine ⟨publicKeyBlock host point, ran, ?_⟩
    have stands := multiple.standsX
    rw [coordinates_nsmul vertical] at stands
    have first : point.1 = bitvecSetZero := stands.unique .zero
    change (bitvecBytes host point.1 ++ bitvecBytes host point.2).take keyLen = _
    rw [first, bitvecBytes_setZero, List.take_append_of_le_length (by decide)]
    rfl
  · intro noRoot
    have reducedX : Reduced (pairOf host publicKey).1 := by
      rw [Reduced, zeroX]
      exact Nat.two_pow_pos _
    refine ecdhSharedSecret_none host privateKey reducedX reducedY fun P represents => ?_
    cases P with
    | zero => rfl
    | some x y onCurve =>
        have vertical : x = 0 := by
          have first : elem (pairOf host publicKey).1 = x := represents.standsX.value
          rw [← first, elem, zeroX, BinaryModulus.residue_zero]
        have second : elem (pairOf host publicKey).2 = y := represents.standsY.value
        have equation := (nonsingular_binaryCurve coeffB_ne_zero).mp onCurve
        rw [vertical] at equation
        refine absurd ?_ noRoot
        rw [second]
        linear_combination equation

end Keys

/-! ### The point of order two -/

/-- The root of the last coefficient. -/
def rootNumber : Nat := 4032588501538376148035693453391755033381772152229

def verticalPoint : Gf2Elem × Gf2Elem :=
  (bitvecSetZero,
    #v[0x69f34da5, 0xda89c039, 0x3d21c366, 0xdf892759, 0xc25b85ba, 0x00000002])

/-- The second coordinate of the vertical point, as a number. -/
theorem numberOf_root : numberOf verticalPoint.2 = rootNumber := by decide

/-- The second coordinate of the vertical point is reduced. -/
theorem stands_root : Stands verticalPoint.2 (elem verticalPoint.2) := by
  refine ⟨?_, rfl⟩
  rw [Reduced, numberOf_root]
  unfold BinaryModulus.Reduced
  decide

/-- It is the square root of the constant coefficient. -/
theorem root_square : elem verticalPoint.2 ^ 2 = elem coeffB := by
  have reduced := stands_root.reduced
  rw [Reduced, numberOf_root] at reduced
  have square : fieldModulus.product rootNumber rootNumber = numberOf coeffB := by decide +kernel
  rw [sq, elem, numberOf_root, ← (BinaryModulus.product_ok reduced reduced).2, square, elem]

/-- The point of order two is taken, and the key is all zeros. -/
theorem keyOf_vertical_root :
    ∃ secret, ecdhSharedSecret .little onePrivateKey (publicKeyBlock .little verticalPoint) =
        .ok (some secret) ∧
      (keyOf secret).bytes = List.replicate keyLen 0 := by
  have pair := pairOf_block .little verticalPoint
  refine (keyOf_vertical .little onePrivateKey (publicKeyBlock .little verticalPoint)
    (by rw [pair]; decide) (by rw [pair]; exact stands_root.reduced)).1 ?_
  rw [pair]
  exact root_square

end RentMate.EcdhKeys
