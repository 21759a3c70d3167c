/-
Module: RentMate.PckData.Container
Purpose: The `pckData` container of `pckData.c`: a total length, an increment and elements with
  a length each, as the functions build it, convert it, read it and print it in memory.
Trusted boundary: human-reviewed spec
Main exports: initPckData, appendToPckData, pckDataToNetworkOrder, pckDataToHostOrder,
  getElementFromPckData, getElementLengthFromPckData, printPckData
-/
import RentMate.PckData.GeneralSettings
import RentMate.Machine.Buffer

namespace RentMate.PckData

open RentMate.Machine

variable {size : Nat} (host : ByteOrder)

/-- What the functions return for an error, `-1` as a `uint32_t`. -/
abbrev minusOne : UInt32 := 4294967295

/-! ### Building -/

/-- `initPckData` on what `malloc` returned, which is taken to be memory: no caller looks at the `-1`
of the other branch. -/
def initPckData (malloced : Block pckDataIncrements) : Checked (Block pckDataIncrements) := do
  let pckData ← malloced.store32 host 0 8
  pckData.store32 host 4 (UInt32.ofNat pckDataIncrements)

/-- `appendToPckData`. The limit is compared without the four bytes of the element's length. -/
def appendToPckData (pckData : Block pckDataIncrements) (newData : Bytes) :
    Checked (Block pckDataIncrements) := do
  let currentLen ← pckData.load32 host 0
  let currentLim ← pckData.load32 host 4
  let newDataLen := UInt32.ofNat newData.length
  if currentLim < currentLen + newDataLen then
    -- `realloc` gets the address of the caller's pointer instead of the pointer.
    .error .invalidRealloc
  else
    let pckData ← pckData.store32 host currentLen.toNat newDataLen
    let pckData ← pckData.write (currentLen.toNat + 4) newData
    let pckData ← pckData.store32 host 0 (currentLen + 4 + newDataLen)
    pckData.store32 host 4 currentLim

/-! ### Conversion between host and network order -/

/-- A conversion loop that has not ended after so many elements is taken not to end. Only a
`currentLen` that runs past the end of `uint32_t` again and again gets there. -/
abbrev conversionBound : Nat := 4294967296

/-- The loop over the elements. `lengthOf` is the length that a stored word stands for. -/
def convertElements (lengthOf : UInt32 → UInt32) (pckData : Nat) (totalLen : UInt32) :
    Nat → UInt32 → Block size → Checked (Block size)
  | 0, _, _ => .error .diverges
  | fuel + 1, currentLen, memory =>
      if currentLen < totalLen then do
        let word ← memory.load32 host (pckData + currentLen.toNat)
        let memory ← memory.store32 host (pckData + currentLen.toNat) (htonl host word)
        convertElements lengthOf pckData totalLen fuel (currentLen + (lengthOf word + 4)) memory
      else .ok memory

/-- Both conversions swap the same words of the container at `pckData` and differ in what they
take for a length: the word before the swap or after it. -/
def convertPckData (lengthOf : UInt32 → UInt32) (memory : Block size) (pckData : Nat) :
    Checked (Block size) := do
  let word ← memory.load32 host pckData
  let memory ← memory.store32 host pckData (htonl host word)
  let increments ← memory.load32 host (pckData + 4)
  let memory ← memory.store32 host (pckData + 4) (htonl host increments)
  convertElements host lengthOf pckData (lengthOf word) conversionBound 8 memory

/-- `pckDataToNetworkOrder`. -/
def pckDataToNetworkOrder (memory : Block size) (pckData : Nat) : Checked (Block size) :=
  convertPckData host id memory pckData

/-- `pckDataToHostOrder`. -/
def pckDataToHostOrder (memory : Block size) (pckData : Nat) : Checked (Block size) :=
  convertPckData host (ntohl host) memory pckData

/-! ### Reading -/

/-- The loop of `getElementFromPckData`, with the number of elements still to pass. The length
at the current position is read before the position is compared with the end. -/
def getElementFrom {outputSize : Nat} (memory : Block size) (pckData : Nat) (totalLen : UInt32)
    (output : Block outputSize) : Nat → UInt32 → Checked (UInt32 × Block outputSize)
  | 0, currentPosition => do
      let currentElemLen ← memory.load32 host (pckData + currentPosition.toNat)
      if totalLen ≤ currentPosition + 4 then pure (minusOne, output)
      else
        let element ← memory.read (pckData + currentPosition.toNat + 4) currentElemLen.toNat
        let output ← output.write 0 element
        pure (currentElemLen, output)
  | toPass + 1, currentPosition => do
      let currentElemLen ← memory.load32 host (pckData + currentPosition.toNat)
      if totalLen ≤ currentPosition + 4 then pure (minusOne, output)
      else if totalLen ≤ currentPosition + 4 + currentElemLen then pure (minusOne, output)
      else
        getElementFrom memory pckData totalLen output toPass
          (currentPosition + 4 + currentElemLen)

/-- `getElementFromPckData`: what it returns and what it leaves in `output`. -/
def getElementFromPckData {outputSize : Nat} (memory : Block size) (pckData : Nat)
    (output : Block outputSize) (index : Nat) : Checked (UInt32 × Block outputSize) := do
  let totalLen ← memory.load32 host pckData
  getElementFrom host memory pckData totalLen output index 8

/-- The loop of `getElementLengthFromPckData`. -/
def getElementLengthFrom (memory : Block size) (pckData : Nat) (totalLen : UInt32) :
    Nat → UInt32 → Checked UInt32
  | 0, currentPosition => memory.load32 host (pckData + currentPosition.toNat)
  | toPass + 1, currentPosition => do
      let currentElemLen ← memory.load32 host (pckData + currentPosition.toNat)
      if totalLen ≤ currentPosition + 4 + currentElemLen then pure minusOne
      else
        getElementLengthFrom memory pckData totalLen toPass
          (currentPosition + 4 + currentElemLen)

/-- `getElementLengthFromPckData`. -/
def getElementLengthFromPckData (memory : Block size) (pckData : Nat) (index : Nat) :
    Checked UInt32 := do
  let totalLen ← memory.load32 host pckData
  getElementLengthFrom host memory pckData totalLen index 8

/-! ### Printing -/

/-- The loop of `printPckData`. It reads every element in full before it goes on, so the
position stays inside the object and the fuel does not run out before the object does. -/
def printElements (memory : Block size) (pckData : Nat) (pckDataLen : UInt32) :
    Nat → UInt32 → Checked Unit
  | 0, _ => .error .diverges
  | fuel + 1, currentPosition => do
      let currentElementLen ← memory.load32 host (pckData + currentPosition.toNat)
      let _ ← memory.read (pckData + currentPosition.toNat + 4) currentElementLen.toNat
      if pckDataLen ≤ currentPosition + currentElementLen + 4 then pure ()
      else printElements memory pckData pckDataLen fuel (currentPosition + currentElementLen + 4)

/-- `printPckData`, as far as it reads and changes memory. A serialized container is converted
to host order and back, but an empty one is not converted back. -/
def printPckData (memory : Block size) (pckData : Nat) (isSerialized : Bool) :
    Checked (Block size) := do
  let memory ← (if isSerialized then pckDataToHostOrder host memory pckData else pure memory)
  let pckDataLen ← memory.load32 host pckData
  if pckDataLen ≤ 8 then pure memory
  else
    let _ ← memory.read pckData 8
    printElements host memory pckData pckDataLen (size + 1) 8
    if isSerialized then pckDataToNetworkOrder host memory pckData else pure memory

end RentMate.PckData
