/-
Module: RentMate.Machine.StreamAead
Purpose: Authenticated encryption of the kind that masks the text with a keystream and computes
  a tag over the masked text, whatever the keystream and the tag are.
Trusted boundary: human-reviewed spec
Main exports: StreamAead, crypt, authDecrypt, authDecrypt_crypt
-/
import RentMate.Machine.Buffer

namespace RentMate.Machine

/-- The keystream of a key and an initialisation vector, and the tag of a key, a vector, the
additional data and the masked text. -/
structure StreamAead (tagSize : Nat) where
  keystream : Bytes → Bytes → Nat → UInt8
  authenticate : Bytes → Bytes → Bytes → Bytes → Block tagSize

namespace StreamAead

variable {tagSize : Nat} (aead : StreamAead tagSize) (key iv add : Bytes)

/-- The text under the keystream. -/
def crypt (text : Bytes) : Bytes :=
  text.mapIdx fun index byte => byte ^^^ aead.keystream key iv index

/-- The tag over a masked text. -/
def tagOf (cipher : Bytes) : Bytes := (aead.authenticate key iv add cipher).bytes

/-- The plain text, if the tag is the one over the masked text. -/
def authDecrypt (tag cipher : Bytes) : Option Bytes :=
  if aead.tagOf key iv add cipher = tag then some (aead.crypt key iv cipher) else none

@[simp] theorem length_crypt (text : Bytes) : (aead.crypt key iv text).length = text.length := by
  simp [crypt]

@[simp] theorem length_tagOf (cipher : Bytes) :
    (aead.tagOf key iv add cipher).length = tagSize :=
  (aead.authenticate key iv add cipher).allocated

/-- Masking twice gives the text back. -/
@[simp] theorem crypt_crypt (text : Bytes) :
    aead.crypt key iv (aead.crypt key iv text) = text := by
  refine List.ext_getElem (by simp) fun index _ _ => ?_
  simp only [crypt, List.getElem_mapIdx]
  rw [UInt8.xor_assoc, UInt8.xor_self, UInt8.xor_zero]

/-- What was encrypted and tagged is decrypted again. -/
@[simp] theorem authDecrypt_crypt (plain : Bytes) :
    aead.authDecrypt key iv add (aead.tagOf key iv add (aead.crypt key iv plain))
      (aead.crypt key iv plain) = some plain := by
  simp [authDecrypt]

variable {aead key iv add}

/-- Decryption succeeds under the right tag only, and takes the key stream off. -/
theorem authDecrypt_eq_some {tag cipher plain : Bytes} :
    aead.authDecrypt key iv add tag cipher = some plain ↔
      aead.tagOf key iv add cipher = tag ∧ aead.crypt key iv cipher = plain := by
  simp [authDecrypt]

/-- A decrypted text is as long as the encrypted one. -/
theorem length_authDecrypt {tag cipher plain : Bytes}
    (decrypted : aead.authDecrypt key iv add tag cipher = some plain) :
    plain.length = cipher.length := by
  obtain ⟨-, rfl⟩ := authDecrypt_eq_some.mp decrypted
  exact length_crypt ..

end StreamAead

end RentMate.Machine
