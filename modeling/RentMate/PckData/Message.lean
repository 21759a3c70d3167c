/-
Module: RentMate.PckData.Message
Purpose: Composing, encrypting, decrypting and printing one message of the protocol: three
  lengths, vector, tag, extra section, ADD section and encrypted section.
Trusted boundary: human-reviewed spec
Main exports: encryptPckData, decryptPckData, printMessage
-/
import RentMate.PckData.Container
import RentMate.PckData.AesGcm

namespace RentMate.PckData

open RentMate.Machine

variable {size outputSize : Nat} (host : ByteOrder)

/-- The bytes in front of the sections: three lengths, vector and tag. -/
abbrev headerLen : Nat := 4 + 4 + 4 + ivLen + tagLen

/-- Where the vector of a message lies. -/
abbrev ivPtr : Nat := 4 + 4 + 4

/-- Where the tag of a message lies. -/
abbrev tagPtr : Nat := ivPtr + ivLen

/-- `printMessage`, as far as it reads and changes memory. -/
def printMessage (data : Block size) (isEncrypted isSerialized : Bool) :
    Checked (Block size) := do
  let _ ← data.read 0 40
  let totalWord ← data.load32 host 0
  let addWord ← data.load32 host 4
  let extraWord ← data.load32 host 8
  let deserialized := fun word => if isSerialized then ntohl host word else word
  let totalLen := deserialized totalWord
  let addDataLen := deserialized addWord
  let extraDataLen := deserialized extraWord
  let encryptedDataLen := totalLen - (UInt32.ofNat headerLen + extraDataLen + addDataLen)
  let addDataPtr := headerLen + extraDataLen.toNat
  let encryptedDataPtr := addDataPtr + addDataLen.toNat
  let data ← (
    if extraDataLen - UInt32.ofNat protocolSpecificExtraDataLen ≠ 0 then
      printPckData host data (headerLen + protocolSpecificExtraDataLen) isSerialized
    else pure data)
  let _ ← data.read addDataPtr protocolSpecificAddLen
  let data ← (
    if addDataLen - UInt32.ofNat protocolSpecificAddLen ≠ 0 then
      printPckData host data (addDataPtr + protocolSpecificAddLen) isSerialized
    else pure data)
  if isEncrypted then
    let _ ← data.read encryptedDataPtr encryptedDataLen.toNat
    pure data
  else
    let _ ← data.read encryptedDataPtr protocolSpecificEncryptedDataLen
    if encryptedDataLen - UInt32.ofNat protocolSpecificEncryptedDataLen ≠ 0 then
      printPckData host data (encryptedDataPtr + protocolSpecificEncryptedDataLen) isSerialized
    else pure data

/-! ### Composing and encrypting -/

/-- The length of a container that may be `NULL`. -/
def givenLen (pckData : Option (Block pckDataIncrements)) : Checked UInt32 :=
  match pckData with
  | none => .ok 0
  | some container => container.load32 host 0

/-- `pckDataToNetworkOrder` on a pointer that may be `NULL`. -/
def givenToNetworkOrder (pckData : Option (Block pckDataIncrements)) :
    Checked (Option (Block pckDataIncrements)) :=
  match pckData with
  | none => .ok none
  | some container => do
      let converted ← pckDataToNetworkOrder host container 0
      pure (some converted)

/-- The copy of `count` bytes of a container into the message, if there are any. -/
def copyGiven (outputBuf : Block size) (offset : Nat) (pckData : Option (Block pckDataIncrements))
    (count : UInt32) : Checked (Block size) :=
  if 0 < count then
    match pckData with
    | none => .error .nullPointer
    | some container => do
        let bytes ← container.read 0 count.toNat
        outputBuf.write offset bytes
  else .ok outputBuf

/-- The lengths of a message that `encryptPckData` has put together, and the message. -/
structure Composed (size : Nat) where
  pckDataLen : UInt32
  addLen : UInt32
  extraDataLen : UInt32
  msgLen : UInt32
  outputBuf : Block size

/-- The first part of `encryptPckData`: the message with its containers in network order, not
encrypted yet and without a tag. The containers of the caller are left in network order; no
caller reads them again. -/
def composePckData (pckData addDataPck extraDataPck : Option (Block pckDataIncrements))
    (pckGSettings nonce : UInt32) (newIv : Block ivLen) (outputBuf : Block size) :
    Checked (Composed size) := do
  let pckDataLen ← givenLen host pckData
  let userAddLen ← givenLen host addDataPck
  let addLen := UInt32.ofNat protocolSpecificAddLen + userAddLen
  let userExtraDataLen ← givenLen host extraDataPck
  let extraDataLen := UInt32.ofNat protocolSpecificExtraDataLen + userExtraDataLen
  let msgLen := UInt32.ofNat headerLen + addLen + extraDataLen + 4 + 4 + pckDataLen
  let extraDataPtr := headerLen
  let extraDataPckPtr := extraDataPtr + protocolSpecificExtraDataLen
  let addPtr := extraDataPtr + extraDataLen.toNat
  let addPckDataPtr := addPtr + protocolSpecificAddLen
  let noncePtr := addPtr + addLen.toNat
  let packetGSettingsPtr := noncePtr + 4
  let pckDataPtr := packetGSettingsPtr + 4
  -- The version number
  let outputBuf ← outputBuf.store32 host addPtr 0
  let outputBuf ← outputBuf.store32 host 0 (htonl host msgLen)
  let outputBuf ← outputBuf.store32 host 4 (htonl host addLen)
  let outputBuf ← outputBuf.store32 host 8 (htonl host extraDataLen)
  let outputBuf ← outputBuf.write ivPtr newIv.bytes
  let outputBuf ← outputBuf.store32 host noncePtr (htonl host nonce)
  let outputBuf ← outputBuf.store32 host packetGSettingsPtr (htonl host pckGSettings)
  let pckData ← givenToNetworkOrder host pckData
  let addDataPck ← givenToNetworkOrder host addDataPck
  let extraDataPck ← givenToNetworkOrder host extraDataPck
  let outputBuf ← copyGiven outputBuf pckDataPtr pckData pckDataLen
  let outputBuf ← copyGiven outputBuf addPckDataPtr addDataPck userAddLen
  let outputBuf ← copyGiven outputBuf extraDataPckPtr extraDataPck userExtraDataLen
  pure
    { pckDataLen := pckDataLen
      addLen := addLen
      extraDataLen := extraDataLen
      msgLen := msgLen
      outputBuf := outputBuf }

/-- `encryptPckData`: the message length it returns and the message it composes in
`outputBuf`. `newIv` is what `getrandom` gave. `encryptGcm` does not fail here: the library
refuses only lengths that no `uint32_t` reaches. -/
def encryptPckData (gcm : Gcm) (ctx : Option Bytes)
    (pckData addDataPck extraDataPck : Option (Block pckDataIncrements))
    (pckGSettings nonce : UInt32) (newIv : Block ivLen) (outputBuf : Block size) :
    Checked (UInt32 × Block size) := do
  let composed ← composePckData host pckData addDataPck extraDataPck pckGSettings nonce newIv
    outputBuf
  let addPtr := headerLen + composed.extraDataLen.toNat
  let noncePtr := addPtr + composed.addLen.toNat
  let outputBuf ← printMessage host composed.outputBuf false true
  let outputBuf ← (
    match ctx with
    | none => pure outputBuf
    | some gcmKey =>
        encryptGcm gcm gcmKey outputBuf noncePtr
          (UInt32.ofNat protocolSpecificEncryptedDataLen + composed.pckDataLen).toNat ivPtr
          addPtr composed.addLen.toNat tagPtr)
  let outputBuf ← printMessage host outputBuf true true
  pure (composed.msgLen, outputBuf)

/-! ### Decrypting -/

/-- What `decryptPckData` returns and what it leaves in its two buffers. -/
structure Decrypted (size outputSize : Nat) where
  returnValue : Int
  encryptedMsg : Block size
  outputBuf : Block outputSize
deriving DecidableEq

/-- `*(uint32_t *)ptr = ntohl(*(uint32_t *)ptr)`. -/
def toHostWord (memory : Block size) (ptr : Nat) : Checked (Block size) := do
  let word ← memory.load32 host ptr
  memory.store32 host ptr (ntohl host word)

/-- `decryptPckData`. It looks for the ADD section in front of the extra section, and its
`eDataLen` counts the extra section too. -/
def decryptPckData (gcm : Gcm) (gcmKey : Bytes) (encryptedMsg : Block size)
    (outputBuf : Block outputSize) : Checked (Decrypted size outputSize) := do
  let msgLenWord ← encryptedMsg.load32 host 0
  let addLenWord ← encryptedMsg.load32 host 4
  let extraDataLenWord ← encryptedMsg.load32 host 8
  let msgLen := ntohl host msgLenWord
  let addLen := ntohl host addLenWord
  let extraDataLen := ntohl host extraDataLenWord
  let addPtr := tagPtr + tagLen
  let addPckDataPtr := addPtr + protocolSpecificAddLen
  let extraDataPtr := addPtr + addLen.toNat
  let extraDataPckPtr := extraDataPtr + protocolSpecificExtraDataLen
  let encryptDataPtr := extraDataPtr + extraDataLen.toNat
  let eDataLen := msgLen - (UInt32.ofNat headerLen + addLen)
  let (result, outputBuf) ← decryptGcm gcm gcmKey encryptedMsg encryptDataPtr eDataLen.toNat
    ivPtr addPtr addLen.toNat tagPtr outputBuf
  if result ≠ 0 then
    pure { returnValue := -1, encryptedMsg := encryptedMsg, outputBuf := outputBuf }
  else
    let outputBuf ← toHostWord host outputBuf 0
    let outputBuf ← toHostWord host outputBuf 4
    let outputBuf ← (
      if UInt32.ofNat protocolSpecificEncryptedDataLen < eDataLen then
        pckDataToHostOrder host outputBuf protocolSpecificEncryptedDataLen
      else pure outputBuf)
    let encryptedMsg ← (
      if 0 < addLen - UInt32.ofNat protocolSpecificAddLen then
        pckDataToHostOrder host encryptedMsg addPckDataPtr
      else pure encryptedMsg)
    let encryptedMsg ← (
      if 0 < extraDataLen - UInt32.ofNat protocolSpecificExtraDataLen then
        pckDataToHostOrder host encryptedMsg extraDataPckPtr
      else pure encryptedMsg)
    let msgLenBeforeEncryptedData := UInt32.ofNat headerLen + extraDataLen + addLen
    let decrypted ← outputBuf.read 0 (msgLen - msgLenBeforeEncryptedData).toNat
    let encryptedMsg ← encryptedMsg.write msgLenBeforeEncryptedData.toNat decrypted
    let encryptedMsg ← toHostWord host encryptedMsg 0
    let encryptedMsg ← toHostWord host encryptedMsg 4
    let encryptedMsg ← toHostWord host encryptedMsg 8
    -- Without an ADD section `addPtr` has been set to `NULL`.
    let encryptedMsg ← (
      if addLen = 0 then .error .nullPointer else toHostWord host encryptedMsg addPtr)
    pure { returnValue := 0, encryptedMsg := encryptedMsg, outputBuf := outputBuf }

end RentMate.PckData
