/-
Module: RentMate.NodeClient.SmartLock
Purpose: The passcode of a smart lock: the command that changes it, from the letters of its
  arguments to the digits that the lock compares with. Saving it to the flash memory is left out.
Trusted boundary: human-reviewed spec
Main exports: isdigit, convertDigits, setPasscode, changePasscode
-/
import RentMate.NodeClient.SocketThread

namespace RentMate.NodeClient

open RentMate.Machine

/-- `MAX_PASSWORD_LEN`. -/
abbrev maxPasswordLen : Nat := 12

/-- `isdigit`, in the C locale. -/
def isdigit (letter : UInt8) : Bool := 48 ≤ letter && letter ≤ 57

/-- The loop that converts letters to integers, from the `i`th entry on. It is left at the first
letter that is no digit. -/
def convertDigits : Bytes → Nat → Block maxPasswordLen → Checked (Option (Block maxPasswordLen))
  | [], _, passcodeTemp => .ok (some passcodeTemp)
  | letter :: rest, i, passcodeTemp =>
      if isdigit letter = false then .ok none
      else do
        let passcodeTemp ← passcodeTemp.write i [letter - 48]
        convertDigits rest (i + 1) passcodeTemp

/-- `setPasscode`. It prints the new passcode. -/
def setPasscode (lock : LockState) (passcode : Block maxPasswordLen) (passcodeLen : UInt8) :
    Checked LockState := do
  let copied ← passcode.read 0 passcodeLen.toNat
  let currentPasscode ← writeBytes lock.currentPasscode 0 copied
  let _ ← readBytes currentPasscode 0 passcodeLen.toNat
  pure
    { lock with
      currentPasscode := currentPasscode
      currentPasscodeLen := passcodeLen }

/-- `changePasscode`. It prints its arguments first. -/
def changePasscode (lock : LockState) (passcodeTemp : Block maxPasswordLen) (args : Bytes)
    (argsLen : UInt32) : Checked (Int × LockState) := do
  let letters ← readBytes args 0 argsLen.toNat
  if maxPasswordLen < argsLen.toNat then pure (-1, lock)
  else
    match ← convertDigits letters 0 passcodeTemp with
    | none => pure (-1, lock)
    | some passcode => do
        let lock ← setPasscode lock passcode argsLen.toUInt8
        pure (0, lock)

end RentMate.NodeClient
