/-
Module: RentMate.PckData.Ecdh
Purpose: The two functions of the key exchange library that both ends call. The curve comes as
  a parameter.
Trusted boundary: human-reviewed spec
Main exports: Ecdh, Ecdh.Usable, Ecdh.Correct, keyOf, degenerateEcdh, sampleEcdh
-/
import RentMate.PckData.GeneralSettings
import RentMate.Machine.Buffer

namespace RentMate.PckData

open RentMate.Machine

/-- `ecdh_generate_keys` gives its return value (`false` for a random number that is too small),
the public key, and the private key with the bits cleared that are too high. `ecdh_shared_secret`
gives the secret, or nothing if the other side's key is not a point of the curve: then it returns
zero and leaves its output alone. -/
structure Ecdh where
  generateKeys : Block eccPrvKeySize → Bool × Block eccPubKeySize × Block eccPrvKeySize
  sharedSecret : Block eccPrvKeySize → Block eccPubKeySize → Option (Block eccPubKeySize)

/-- An end can derive a secret from this public key: it is a point of the curve besides the one at
infinity. -/
def Ecdh.ValidKey (ecdh : Ecdh) (publicKey : Block eccPubKeySize) : Prop :=
  ∃ privateKey secret, ecdh.sharedSecret privateKey publicKey = some secret

/-- The library takes the random number for a private key, and the public key that it makes is
valid. -/
structure Ecdh.Usable (ecdh : Ecdh) (drawn : Block eccPrvKeySize) : Prop where
  taken : (ecdh.generateKeys drawn).1 = true
  valid : ecdh.ValidKey (ecdh.generateKeys drawn).2.1

/-- What the library promises: there are usable random numbers, and any two ends that have made
their keys of such numbers derive the same secret from each other's public keys. -/
structure Ecdh.Correct (ecdh : Ecdh) : Prop where
  usable : ∃ drawn, ecdh.Usable drawn
  agree : ∀ one other, ecdh.Usable one → ecdh.Usable other →
    ∃ secret,
      ecdh.sharedSecret (ecdh.generateKeys one).2.2 (ecdh.generateKeys other).2.1 = some secret ∧
        ecdh.sharedSecret (ecdh.generateKeys other).2.2 (ecdh.generateKeys one).2.1 = some secret

/-- The first `KEYLEN` bytes of the shared secret, which both ends copy for the key. -/
def keyOf (sharedDHKey : Block eccPubKeySize) : Block keyLen :=
  { bytes := sharedDHKey.bytes.take keyLen
    allocated := by rw [List.length_take, sharedDHKey.allocated]; rfl }

/-- The base point of the curve, as the library stores it. -/
def basePoint : Block eccPubKeySize :=
  .holding eccPubKeySize
    [0x36, 0x3e, 0x34, 0xe8, 0x37, 0x46, 0x99, 0xd4, 0x68, 0x11, 0x99, 0xa0,
     0x7e, 0xd5, 0xa2, 0x86, 0x62, 0xa1, 0xeb, 0xf0, 0x03, 0x00, 0x00, 0x00,
     0xf1, 0x24, 0x73, 0x79, 0x0c, 0x5c, 0x1c, 0xb1, 0x45, 0xd5, 0xcd, 0xa2,
     0x4f, 0x09, 0xa0, 0x71, 0x6c, 0xbc, 0x1f, 0xd5, 0x00, 0x00, 0x00, 0x00]

/-- The library on a private key that is too small and a public key that is no point of the
curve: it gives the base point and no secret. -/
def degenerateEcdh : Ecdh :=
  { generateKeys := fun privateKey => (false, basePoint, privateKey)
    sharedSecret := fun _ _ => none }

/-! ### The curve on two private keys -/

/-- The number 2^80, the smallest one that the library takes for a private key. -/
def onePrivateKey : Block eccPrvKeySize :=
  .holding eccPrvKeySize (List.replicate 10 0 ++ [1])

/-- The number 2^80 + 1. -/
def otherPrivateKey : Block eccPrvKeySize :=
  .holding eccPrvKeySize (1 :: List.replicate 9 0 ++ [1])

/-- The multiple of the base point by 2^80. -/
def onePublicKey : Block eccPubKeySize :=
  .holding eccPubKeySize
    [105, 93, 116, 33, 128, 161, 193, 45, 167, 246, 65, 168, 98, 150, 229, 213, 180, 189, 47, 72,
      6, 0, 0, 0, 160, 148, 76, 163, 210, 7, 232, 7, 124, 129, 25, 75, 175, 117, 100, 44, 91, 96,
      211, 9, 1]

/-- The multiple of the base point by 2^80 + 1. -/
def otherPublicKey : Block eccPubKeySize :=
  .holding eccPubKeySize
    [84, 218, 193, 62, 100, 67, 219, 152, 104, 187, 74, 243, 115, 190, 138, 200, 2, 193, 236, 55,
      3, 0, 0, 0, 226, 37, 243, 248, 214, 198, 44, 30, 213, 131, 211, 53, 93, 156, 160, 236, 84,
      83, 71, 148]

/-- The secret of two ends that both have drawn 2^80. -/
def oneSecret : Block eccPubKeySize :=
  .holding eccPubKeySize
    [96, 179, 59, 15, 200, 145, 196, 44, 69, 137, 227, 83, 207, 0, 212, 240, 79, 2, 42, 122, 5, 0,
      0, 0, 217, 139, 52, 204, 161, 164, 64, 10, 253, 57, 173, 149, 223, 81, 156, 104, 59, 82,
      157, 39, 7]

/-- The secret of two ends that have drawn 2^80 and 2^80 + 1. -/
def commonSecret : Block eccPubKeySize :=
  .holding eccPubKeySize
    [191, 215, 162, 76, 84, 241, 211, 141, 54, 227, 228, 15, 173, 92, 248, 215, 207, 179, 121, 29,
      5, 0, 0, 0, 254, 20, 22, 133, 136, 196, 61, 31, 107, 198, 226, 98, 110, 171, 223, 48, 201,
      43, 190, 218, 2]

/-- The secret of two ends that both have drawn 2^80 + 1. -/
def otherSecret : Block eccPubKeySize :=
  .holding eccPubKeySize
    [32, 106, 230, 123, 147, 173, 201, 93, 195, 29, 114, 67, 193, 183, 55, 62, 190, 120, 68, 228,
      3, 0, 0, 0, 12, 120, 175, 60, 105, 144, 234, 129, 248, 17, 39, 32, 7, 245, 47, 13, 174, 29,
      124, 189, 3]

/-- The library on these private keys. -/
def sampleEcdh : Ecdh :=
  { generateKeys := fun drawn =>
      if drawn = onePrivateKey then (true, onePublicKey, drawn)
      else if drawn = otherPrivateKey then (true, otherPublicKey, drawn)
      else (false, basePoint, drawn)
    sharedSecret := fun privateKey publicKey =>
      if privateKey = onePrivateKey ∧ publicKey = onePublicKey then some oneSecret
      else if privateKey = otherPrivateKey ∧ publicKey = otherPublicKey then some otherSecret
      else if privateKey = onePrivateKey ∧ publicKey = otherPublicKey ∨
          privateKey = otherPrivateKey ∧ publicKey = onePublicKey then some commonSecret
      else none }

end RentMate.PckData
