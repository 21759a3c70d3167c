/-
Module: RentMate.PckData.GeneralSettings
Purpose: The sizes fixed by `generalSettings.h`, `pckData.h` and the key exchange library.
Trusted boundary: human-reviewed spec
-/
import Mathlib.Data.Nat.Notation

namespace RentMate.PckData

/-- `MAXMSGLEN`, the size of every buffer that holds one message. -/
abbrev maxMsgLen : Nat := 255

/-- `MAXDEVMSGLEN`. -/
abbrev maxDevMsgLen : Nat := 255

/-- `pckDataIncrements`, the space of a new container. -/
abbrev pckDataIncrements : Nat := 255

/-- `DEVIDLEN`. -/
abbrev devIdLen : Nat := 16

/-- `IVLEN`. -/
abbrev ivLen : Nat := 12

/-- `TAGLEN`. -/
abbrev tagLen : Nat := 16

/-- `KEYLEN`. -/
abbrev keyLen : Nat := 16

/-- `protocolSpecificAddLen`: the version number in front of the ADD container. -/
abbrev protocolSpecificAddLen : Nat := 4

/-- `protocolSpecificExtraDataLen`. -/
abbrev protocolSpecificExtraDataLen : Nat := 0

/-- `protocolSpecificEncryptedDataLen`: the nonce and the settings in front of the encrypted
container. -/
abbrev protocolSpecificEncryptedDataLen : Nat := 8

/-- `ECC_PRV_KEY_SIZE`. -/
abbrev eccPrvKeySize : Nat := 24

/-- `ECC_PUB_KEY_SIZE`. -/
abbrev eccPubKeySize : Nat := 48

end RentMate.PckData
