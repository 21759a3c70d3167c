/-
Module: RentMate.Proofs.KeyAgreement
Purpose: What two ends get from each other's keys: for which two random numbers they derive the
  same secret, which random numbers have the same public key, and a kind of public key on which the
  other end never comes to a secret.
Trusted boundary: none
Main exports: publicMultiple, privateNumber, ecdhGenerateKeys_eq, publicKeys_eq_iff,
  ecdh_agrees_iff, ecdhSharedSecret_endless
-/
import RentMate.Proofs.BaseOrder
import RentMate.Proofs.EcdhKeys

namespace RentMate.EcdhKeys

open RentMate.Machine
open RentMate.PckData (eccPrvKeySize eccPubKeySize)
open RentMate.TinyEcdh
open RentMate.BitVectors
open RentMate.Gf2Field
open RentMate.Gf2Curve

/-! ### The keys of every random number -/

/-- What the public key is the multiple of the base point by. A number that the library refuses
leaves the base point itself. -/
def publicMultiple (drawn : Nat) : Nat := if drawn.size < 81 then 1 else drawn % 2 ^ 162

/-- The private key. A number that the library refuses is left as it is. -/
def privateNumber (drawn : Nat) : Nat := if drawn.size < 81 then drawn else drawn % 2 ^ 162

/-- The cleared private number has 162 bits. -/
theorem publicMultiple_lt (drawn : Nat) : publicMultiple drawn < 2 ^ 162 := by
  rw [publicMultiple]
  split
  · exact Nat.one_lt_two_pow (by decide)
  · exact Nat.mod_lt _ (Nat.two_pow_pos 162)

/-- The cleared private numbers are below the order. -/
theorem two_pow_lt_orderNumber : 2 ^ 162 < orderNumber := by decide

section Draws

variable {host : ByteOrder} {drawn drawnOther privateKey privateOther : Block eccPrvKeySize}
  {publicKey publicOther : Block eccPubKeySize} {taken takenOther : Bool}

/-- What `ecdh_generate_keys` makes of any random number. -/
theorem ecdhGenerateKeys_eq (host : ByteOrder) (drawn : Block eccPrvKeySize) :
    ∃ taken publicKey privateKey,
      ecdhGenerateKeys host drawn = .ok (taken, publicKey, privateKey) ∧
        (taken = true ↔ 81 ≤ (secretOf host drawn).size) ∧
        secretOf host privateKey = privateNumber (secretOf host drawn) ∧
        ∃ point, publicKey = publicKeyBlock host point ∧
          Represents point (publicMultiple (secretOf host drawn) • base) := by
  rw [publicMultiple, privateNumber]
  by_cases short : (secretOf host drawn).size < 81
  · rw [if_pos short, if_pos short, one_nsmul]
    refine ⟨_, _, _, ecdhGenerateKeys_refuses host drawn short, ?_, rfl, _, rfl, represents_base⟩
    simp only [Bool.false_eq_true, false_iff]
    exact not_le.mpr short
  · obtain ⟨exp, point, ran, number, represents⟩ := ecdhGenerateKeys_ok host drawn (by omega)
    rw [if_neg short, if_neg short]
    refine ⟨_, _, _, ran, ?_, ?_, point, rfl, number ▸ represents⟩
    · simp only [true_iff]
      omega
    · rw [secretOf, load_privateKey, number]

/-- The private key and the point of the public key. -/
theorem generated (ran : ecdhGenerateKeys host drawn = .ok (taken, publicKey, privateKey)) :
    secretOf host privateKey = privateNumber (secretOf host drawn) ∧
      ∃ point, publicKey = publicKeyBlock host point ∧
        Represents point (publicMultiple (secretOf host drawn) • base) := by
  obtain ⟨_, _, _, again, -, number, represents⟩ := ecdhGenerateKeys_eq host drawn
  obtain ⟨rfl, same⟩ := Prod.mk.inj (Except.ok.inj (ran.symm.trans again))
  obtain ⟨rfl, rfl⟩ := Prod.mk.inj same
  exact ⟨number, represents⟩

/-- Two random numbers have the same public key exactly if they leave the same multiple: the
base point has an order above all of them. -/
theorem publicKeys_eq_iff
    (ran : ecdhGenerateKeys host drawn = .ok (taken, publicKey, privateKey))
    (ranOther : ecdhGenerateKeys host drawnOther = .ok (takenOther, publicOther, privateOther)) :
    publicKey = publicOther ↔
      publicMultiple (secretOf host drawn) = publicMultiple (secretOf host drawnOther) := by
  obtain ⟨-, point, rfl, represents⟩ := generated ran
  obtain ⟨-, other, rfl, representsOther⟩ := generated ranOther
  have room := two_pow_lt_orderNumber
  constructor
  · intro same
    have points := congrArg (pairOf host) same
    rw [pairOf_block, pairOf_block] at points
    subst points
    exact nsmul_base_injective ((publicMultiple_lt _).trans room)
      ((publicMultiple_lt _).trans room) (represents.point_eq representsOther)
  · intro same
    rw [same] at represents
    rw [represents.unique representsOther]

/-- The numbers 2^80 and 2^80 + 1 as random numbers. -/
theorem publicKeys_eq_sample :
    ∃ taken publicKey privateKey takenOther publicOther privateOther,
      ecdhGenerateKeys .little PckData.onePrivateKey = .ok (taken, publicKey, privateKey) ∧
      ecdhGenerateKeys .little PckData.otherPrivateKey =
        .ok (takenOther, publicOther, privateOther) ∧
      (publicKey = publicOther ↔
        publicMultiple (secretOf .little PckData.onePrivateKey) =
          publicMultiple (secretOf .little PckData.otherPrivateKey)) := by
  obtain ⟨taken, publicKey, privateKey, ran, -⟩ :=
    ecdhGenerateKeys_eq .little PckData.onePrivateKey
  obtain ⟨takenOther, publicOther, privateOther, ranOther, -⟩ :=
    ecdhGenerateKeys_eq .little PckData.otherPrivateKey
  exact ⟨_, _, _, _, _, _, ran, ranOther, publicKeys_eq_iff ran ranOther⟩

/-- A public key that the library has made is taken unless its multiple is zero. -/
theorem multiple_ne_zero (begun : publicMultiple (secretOf host drawn) ≠ 0) :
    publicMultiple (secretOf host drawn) • base ≠ 0 := by
  rw [Ne, nsmul_base_eq_zero]
  intro divides
  have least := Nat.le_of_dvd (Nat.pos_of_ne_zero begun) divides
  exact absurd least (not_le.mpr ((publicMultiple_lt _).trans two_pow_lt_orderNumber))

/-- The secret that an end derives from a key that the library has made, unless the multiple of
that key is zero. -/
theorem secret_of_generated
    (ran : ecdhGenerateKeys host drawn = .ok (taken, publicKey, privateKey))
    (ranOther : ecdhGenerateKeys host drawnOther = .ok (takenOther, publicOther, privateOther))
    (begun : publicMultiple (secretOf host drawnOther) ≠ 0) :
    ∃ secret, ecdhSharedSecret host privateKey publicOther =
        .ok (some (publicKeyBlock host secret)) ∧
      Represents secret ((privateNumber (secretOf host drawn) *
        publicMultiple (secretOf host drawnOther)) • base) := by
  obtain ⟨number, -⟩ := generated ran
  obtain ⟨-, point, rfl, represents⟩ := generated ranOther
  obtain ⟨secret, derived, multiple⟩ := ecdhSharedSecret_ok host privateKey
    (by rwa [pairOf_block]) (multiple_ne_zero begun)
  rw [number, ← mul_nsmul'] at multiple
  exact ⟨secret, derived, multiple⟩

/-- A public key at infinity gives no secret. -/
theorem no_secret_of_zero
    (ranOther : ecdhGenerateKeys host drawnOther = .ok (takenOther, publicOther, privateOther))
    (vanishes : publicMultiple (secretOf host drawnOther) = 0) :
    ecdhSharedSecret host privateKey publicOther = .ok none := by
  obtain ⟨-, point, rfl, represents⟩ := generated ranOther
  rw [vanishes, zero_nsmul] at represents
  apply ecdhSharedSecret_none host privateKey
  · rw [pairOf_block]
    exact represents.standsX.reduced
  · rw [pairOf_block]
    exact represents.standsY.reduced
  · intro P again
    rw [pairOf_block] at again
    exact again.point_eq represents

/-- Two ends derive the same secret from each other's keys exactly if neither public key is the
point at infinity and the products of one's private key and the other's multiple agree modulo
the order. For numbers that the library has taken the products are the same. -/
theorem ecdh_agrees_iff
    (ran : ecdhGenerateKeys host drawn = .ok (taken, publicKey, privateKey))
    (ranOther : ecdhGenerateKeys host drawnOther = .ok (takenOther, publicOther, privateOther)) :
    (∃ secret, ecdhSharedSecret host privateKey publicOther = .ok (some secret) ∧
        ecdhSharedSecret host privateOther publicKey = .ok (some secret)) ↔
      publicMultiple (secretOf host drawn) ≠ 0 ∧
        publicMultiple (secretOf host drawnOther) ≠ 0 ∧
        privateNumber (secretOf host drawn) * publicMultiple (secretOf host drawnOther) ≡
          privateNumber (secretOf host drawnOther) * publicMultiple (secretOf host drawn)
            [MOD orderNumber] := by
  constructor
  · rintro ⟨common, derived, derivedOther⟩
    have begun : publicMultiple (secretOf host drawn) ≠ 0 := by
      intro vanishes
      rw [no_secret_of_zero ran vanishes] at derivedOther
      cases derivedOther
    have begunOther : publicMultiple (secretOf host drawnOther) ≠ 0 := by
      intro vanishes
      rw [no_secret_of_zero ranOther vanishes] at derived
      cases derived
    obtain ⟨secret, found, multiple⟩ := secret_of_generated ran ranOther begunOther
    obtain ⟨secretOther, foundOther, multipleOther⟩ := secret_of_generated ranOther ran begun
    rw [derived] at found
    rw [derivedOther] at foundOther
    have same : publicKeyBlock host secret = publicKeyBlock host secretOther :=
      (Option.some.inj (Except.ok.inj found)).symm.trans
        (Option.some.inj (Except.ok.inj foundOther))
    have points := congrArg (pairOf host) same
    rw [pairOf_block, pairOf_block] at points
    subst points
    refine ⟨begun, begunOther, ?_⟩
    rw [← addOrderOf_base, ← nsmul_eq_nsmul_iff_modEq]
    exact multiple.point_eq multipleOther
  · rintro ⟨begun, begunOther, congruent⟩
    obtain ⟨secret, found, multiple⟩ := secret_of_generated ran ranOther begunOther
    obtain ⟨secretOther, foundOther, multipleOther⟩ := secret_of_generated ranOther ran begun
    rw [← addOrderOf_base, ← nsmul_eq_nsmul_iff_modEq] at congruent
    rw [congruent] at multiple
    obtain rfl : secret = secretOther := multiple.unique multipleOther
    exact ⟨publicKeyBlock host secret, found, foundOther⟩

end Draws

/-- The two ends draw 2^80 and 2^80 + 1. -/
theorem ecdh_agrees_sample :
    ∃ taken publicKey privateKey takenOther publicOther privateOther,
      ecdhGenerateKeys .little PckData.onePrivateKey = .ok (taken, publicKey, privateKey) ∧
      ecdhGenerateKeys .little PckData.otherPrivateKey =
        .ok (takenOther, publicOther, privateOther) ∧
      ∃ secret, ecdhSharedSecret .little privateKey publicOther = .ok (some secret) ∧
        ecdhSharedSecret .little privateOther publicKey = .ok (some secret) := by
  obtain ⟨taken, publicKey, privateKey, ran, -⟩ :=
    ecdhGenerateKeys_eq .little PckData.onePrivateKey
  obtain ⟨takenOther, publicOther, privateOther, ranOther, -⟩ :=
    ecdhGenerateKeys_eq .little PckData.otherPrivateKey
  have multiples : publicMultiple (secretOf .little PckData.onePrivateKey) = 2 ^ 80 ∧
      privateNumber (secretOf .little PckData.onePrivateKey) = 2 ^ 80 ∧
      publicMultiple (secretOf .little PckData.otherPrivateKey) = 2 ^ 80 + 1 ∧
      privateNumber (secretOf .little PckData.otherPrivateKey) = 2 ^ 80 + 1 := by
    decide
  obtain ⟨multiple, number, multipleOther, numberOther⟩ := multiples
  refine ⟨_, _, _, _, _, _, ran, ranOther, (ecdh_agrees_iff ran ranOther).mpr ⟨?_, ?_, ?_⟩⟩
  · rw [multiple]
    decide
  · rw [multipleOther]
    decide
  · rw [multiple, number, multipleOther, numberOther, Nat.mul_comm]

/-! ### Keys that are not reduced -/

/-- The loop of `gf2field_mul` on any vectors, in numbers: what is doubled past the last word is
lost. -/
def wideProductFrom (other : Nat) : Nat → Nat → Nat → Nat → Nat
  | 0, _, _, sum => sum
  | left + 1, i, number, sum =>
      let doubled := (number <<< 1) % 2 ^ 192
      let doubled := if doubled.testBit curveDegree then doubled ^^^ fieldModulus.value else doubled
      wideProductFrom other left (i + 1) doubled
        (if other.testBit i then sum ^^^ doubled else sum)

def wideProduct (one other : Nat) : Nat :=
  wideProductFrom other (curveDegree - 1) 1 one (if other.testBit 0 then one else 0)

/-- The loop of the product over numbers that need not be reduced. -/
theorem numberOf_mulFrom_wide (left i : Nat) (tmp y z : Gf2Elem) :
    numberOf (gf2fieldMulFrom y left i tmp z) =
      wideProductFrom (numberOf y) left i (numberOf tmp) (numberOf z) := by
  induction left generalizing i tmp z with
  | zero => rfl
  | succ left ih =>
      have doubled : numberOf (if bitvecGetBit (bitvecLshift tmp 1) curveDegree ≠ 0 then
          gf2fieldAdd (bitvecLshift tmp 1) TinyEcdh.polynomial else bitvecLshift tmp 1) =
          if ((numberOf tmp <<< 1) % 2 ^ 192).testBit curveDegree then
            ((numberOf tmp <<< 1) % 2 ^ 192) ^^^ fieldModulus.value
          else (numberOf tmp <<< 1) % 2 ^ 192 := by
        rw [apply_ite numberOf, numberOf_add, numberOf_lshift, numberOf_polynomial]
        apply if_congr _ rfl rfl
        rw [bitvecGetBit_iff, numberOf_lshift]
      rw [gf2fieldMulFrom, wideProductFrom, ih, doubled, apply_ite numberOf, numberOf_add, doubled]
      congr 1
      exact if_congr (bitvecGetBit_iff y i) rfl rfl

/-- The product of vectors that need not be reduced, as a number. -/
theorem numberOf_mul_wide (x y : Gf2Elem) :
    numberOf (gf2fieldMul x y) = wideProduct (numberOf x) (numberOf y) := by
  rw [gf2fieldMul, wideProduct, numberOf_mulFrom_wide, apply_ite numberOf, numberOf_setZero]
  congr 1
  exact if_congr (bitvecGetBit_iff y 0) rfl rfl

section Endless

variable {point : Gf2Elem × Gf2Elem}

/-- The point can be added to the one at infinity, but not be doubled. -/
theorem gf2pointMul_endless (begun : numberOf point.1 ≠ 0) (vanishes : elem point.1 = 0)
    {exp : Scalar} (long : 2 ≤ numberOf exp) :
    gf2pointMul point.1 point.2 exp = .error .diverges := by
  obtain ⟨top, degree⟩ : ∃ top, (numberOf exp).size = top + 2 := by
    have size : 1 < (numberOf exp).size := Nat.lt_size.mpr long
    exact ⟨(numberOf exp).size - 2, by omega⟩
  have highest : (numberOf exp).testBit (top + 1) = true := by
    apply testBit_of_size
    exact degree
  have clear : bitvecIsZero point.1 = false :=
    Bool.eq_false_iff.mpr (fun zero => begun ((bitvecIsZero_iff _).mp zero))
  have clearPoint : gf2pointIsZero point.1 point.2 = false := by
    rw [gf2pointIsZero, clear, Bool.false_and]
  have inverse : gf2fieldInv point.1 = .error .diverges := gf2fieldInv_endless vanishes invRounds
  have zero : bitvecIsZero bitvecSetZero = true := (bitvecIsZero_iff _).mpr numberOf_setZero
  -- The first round leaves the point itself, the second one doubles it.
  rw [gf2pointMul, bitvecDegree_eq, degree, gf2pointMulFrom, gf2pointDouble, if_pos zero, ok_bind,
    if_pos ((bitvecGetBit_iff exp _).mpr highest)]
  have added : gf2pointAdd bitvecSetZero bitvecSetZero point.1 point.2 = .ok point := by
    rw [gf2pointAdd, clearPoint, if_neg (by decide), gf2pointIsZero, zero,
      if_pos (by rfl)]
  rw [added, ok_bind]
  change gf2pointMulFrom point.1 point.2 exp (top + 1) point = _
  rw [gf2pointMulFrom, gf2pointDouble, clear, if_neg (by decide), inverse]
  rfl

end Endless

/-- On a key that passes for a point of the curve although its first coordinate is a multiple of the
polynomial, every end with a private key from two on loops forever: no number of rounds is
enough for the inverse. -/
theorem ecdhSharedSecret_endless (host : ByteOrder) (privateKey : Block eccPrvKeySize)
    (publicKey : Block eccPubKeySize) (begun : numberOf (pairOf host publicKey).1 ≠ 0)
    (vanishes : elem (pairOf host publicKey).1 = 0)
    (onCurve : gf2pointOnCurve (pairOf host publicKey).1 (pairOf host publicKey).2 = true)
    (long : 2 ≤ secretOf host privateKey) :
    ecdhSharedSecret host privateKey publicKey = .error .diverges ∧
      ∀ rounds, gf2fieldInvFrom rounds (invStart (pairOf host publicKey).1) =
        .error .diverges := by
  refine ⟨?_, gf2fieldInv_endless vanishes⟩
  have clear : gf2pointIsZero (pairOf host publicKey).1 (pairOf host publicKey).2 = false := by
    have clearX : bitvecIsZero (pairOf host publicKey).1 = false :=
      Bool.eq_false_iff.mpr (fun zero => begun ((bitvecIsZero_iff _).mp zero))
    rw [gf2pointIsZero, clearX, Bool.false_and]
  have endless := gf2pointMul_endless begun vanishes long
  rw [ecdhSharedSecret]
  change (if (!gf2pointIsZero (pairOf host publicKey).1 (pairOf host publicKey).2 &&
    gf2pointOnCurve (pairOf host publicKey).1 (pairOf host publicKey).2) = true then _ else _) = _
  rw [clear, onCurve, if_pos (by rfl)]
  change (gf2pointMul (pairOf host publicKey).1 (pairOf host publicKey).2
    (loadBitvec host privateKey 0) >>= _) = _
  rw [endless]
  rfl

/-- The polynomial of the curve as a first coordinate, with a second one that passes. -/
def endlessPoint : Gf2Elem × Gf2Elem :=
  (TinyEcdh.polynomial,
    #v[0x110c42e9, 0x2c447748, 0x0981d03a, 0x20ef58d0, 0x2e8699fa, 0xdc330e4a])

/-- The endless point is not the point at infinity. -/
theorem endlessPoint_isZero : gf2pointIsZero endlessPoint.1 endlessPoint.2 = false := by
  have begun : numberOf endlessPoint.1 ≠ 0 := by decide
  have clear : bitvecIsZero endlessPoint.1 = false :=
    Bool.eq_false_iff.mpr (fun zero => begun ((bitvecIsZero_iff _).mp zero))
  rw [gf2pointIsZero, clear, Bool.false_and]

/-- The test of the source accepts the endless point. -/
theorem endlessPoint_onCurve : gf2pointOnCurve endlessPoint.1 endlessPoint.2 = true := by
  rw [gf2pointOnCurve, endlessPoint_isZero, if_neg (by decide), bitvecEqual_iff]
  apply numberOf_injective
  simp only [numberOf_add, numberOf_mul_wide]
  decide +kernel

/-- The endless point is accepted and never answered. -/
theorem ecdhSharedSecret_endless_polynomial :
    ecdhSharedSecret .little PckData.onePrivateKey (publicKeyBlock .little endlessPoint) =
        .error .diverges ∧
      ∀ rounds, gf2fieldInvFrom rounds
        (invStart (pairOf .little (publicKeyBlock .little endlessPoint)).1) = .error .diverges := by
  have pair := pairOf_block .little endlessPoint
  have vanishes : elem endlessPoint.1 = 0 := by
    rw [elem]
    change fieldModulus.residue (numberOf TinyEcdh.polynomial) = 0
    rw [numberOf_polynomial]
    exact AdjoinRoot.mk_self
  exact ecdhSharedSecret_endless .little PckData.onePrivateKey (publicKeyBlock .little endlessPoint)
    (by rw [pair]; decide) (by rw [pair]; exact vanishes)
    (by rw [pair]; exact endlessPoint_onCurve) (by decide)

end RentMate.EcdhKeys
