/-
Module: RentMate.PckData.AesGcm
Purpose: The wrappers of `aes-gcm.c` around the GCM functions of the crypto library. The library
  masks the text with the keystream of the block cipher and computes the tag over the masked
  text; both come as a parameter.
Trusted boundary: human-reviewed spec
Main exports: Gcm, encryptGcm, decryptGcm
-/
import RentMate.PckData.GeneralSettings
import RentMate.Machine.StreamAead

namespace RentMate.PckData

open RentMate.Machine

/-- AES-GCM with tags of `TAGLEN` bytes. A context is known by its key. -/
abbrev Gcm := StreamAead tagLen

variable {size outputSize : Nat} (gcm : Gcm) (gcmKey : Bytes)

/-- `encryptGcm` in place: the text at `msg` is masked where it is and the tag is written to
`tagOut`. -/
def encryptGcm (memory : Block size) (msg msgLen iv add addLen tagOut : Nat) :
    Checked (Block size) := do
  let ivBytes ← memory.read iv ivLen
  let addBytes ← memory.read add addLen
  let plain ← memory.read msg msgLen
  let cipher := gcm.crypt gcmKey ivBytes plain
  let memory ← memory.write msg cipher
  memory.write tagOut (gcm.tagOf gcmKey ivBytes addBytes cipher)

/-- `decryptGcm`: what it returns and what it leaves in `msgOut`. On a wrong tag the library
zeroes what it has put out. -/
def decryptGcm (memory : Block size) (msg msgLen iv add addLen tag : Nat)
    (msgOut : Block outputSize) : Checked (Int × Block outputSize) := do
  let ivBytes ← memory.read iv ivLen
  let addBytes ← memory.read add addLen
  let cipher ← memory.read msg msgLen
  let tagBytes ← memory.read tag tagLen
  match gcm.authDecrypt gcmKey ivBytes addBytes tagBytes cipher with
  | some plain =>
      let msgOut ← msgOut.write 0 plain
      pure (0, msgOut)
  | none =>
      let msgOut ← msgOut.write 0 (List.replicate msgLen 0)
      pure (1, msgOut)

end RentMate.PckData
