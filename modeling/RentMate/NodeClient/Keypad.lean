/-
Module: RentMate.NodeClient.Keypad
Purpose: The keypad of a smart lock: its interrupt handler with the debounce timer and the buffer
  of digits, and the comparison of what was entered with the passcode. The LEDs, the buzzer, the
  motor and their timers are left out.
Trusted boundary: human-reviewed spec
Main exports: Keypad, keyVal, passcodeEntered, keypadInterruptHandler, SmartLock, LockEvent,
  smartLockStep
-/
import RentMate.NodeClient.SmartLock

namespace RentMate.NodeClient

open RentMate.Machine

/-! ### Entering a passcode -/

/-- `passcodeEntered`, whether it calls `passcodeCorrect` or `passcodeWrong`. It prints what was
entered and as many digits of the current passcode. -/
def passcodeEntered (lock : LockState) (passcode : Block maxPasswordLen) (passcodeLen : UInt8) :
    Checked Bool := do
  let entered ← passcode.read 0 passcodeLen.toNat
  let current ← readBytes lock.currentPasscode 0 passcodeLen.toNat
  pure (passcodeLen = lock.currentPasscodeLen ∧ current = entered)

/-! ### The keypad -/

/-- The globals of the keypad. -/
structure Keypad where
  isDebounceTimerRunning : Bool
  passwordBuffer : Block maxPasswordLen
  passwordCurrentLength : UInt8
deriving DecidableEq

/-- An interrupt: the row that it is for, and the level of the row's pin while each of the three
columns is driven. -/
structure KeyInterrupt where
  rowNum : UInt32
  colNum1 : Bool
  colNum2 : Bool
  colNum3 : Bool
deriving Repr, DecidableEq

/-- The first column at which the pin is high. -/
def finalColVal (key : KeyInterrupt) : Nat :=
  if key.colNum1 then 1 else if key.colNum2 then 2 else if key.colNum3 then 3 else 0

/-- The value of a key: its digit, 10 for delete, 11 for submit and 20 for none. -/
def keyVal (rowNum : UInt32) (finalColVal : Nat) : UInt8 :=
  if rowNum = 1 then
    if finalColVal = 1 then 1
    else if finalColVal = 2 then 2
    else if finalColVal = 3 then 3
    else 20
  else if rowNum = 2 then
    if finalColVal = 1 then 4
    else if finalColVal = 2 then 5
    else if finalColVal = 3 then 6
    else 20
  else if rowNum = 3 then
    if finalColVal = 1 then 7
    else if finalColVal = 2 then 8
    else if finalColVal = 3 then 9
    else 20
  else if rowNum = 4 then
    if finalColVal = 1 then 10
    else if finalColVal = 2 then 11
    else if finalColVal = 3 then 11
    else 20
  else 20

/-- A call of `passcodeEntered`: the digits it was given, and whether it called
`passcodeCorrect`. -/
structure PasscodeCall where
  digits : Bytes
  correct : Bool
deriving Repr, DecidableEq

/-- The call of `passcodeEntered` with the buffer, and the length that is set to zero behind it. -/
def submitBuffer (lock : LockState) (keypad : Keypad) : Checked (Keypad × Option PasscodeCall) := do
  let digits ← keypad.passwordBuffer.read 0 keypad.passwordCurrentLength.toNat
  let correct ← passcodeEntered lock keypad.passwordBuffer keypad.passwordCurrentLength
  pure
    ({ keypad with passwordCurrentLength := 0 },
      some { digits := digits, correct := correct })

/-- What the handler does with the value of a key. -/
def sendKey (lock : LockState) (keypad : Keypad) (value : UInt8) :
    Checked (Keypad × Option PasscodeCall) :=
  if value ≠ 20 then
    if value = 10 then
      if 0 < keypad.passwordCurrentLength then
        pure
          ({ keypad with passwordCurrentLength := keypad.passwordCurrentLength - 1 }, none)
      else pure (keypad, none)
    else if value = 11 then submitBuffer lock keypad
    else if keypad.passwordCurrentLength.toNat < maxPasswordLen then do
      let passwordBuffer ←
        keypad.passwordBuffer.write keypad.passwordCurrentLength.toNat [value]
      pure
        ({ keypad with
            passwordBuffer := passwordBuffer
            passwordCurrentLength := keypad.passwordCurrentLength + 1 }, none)
    else submitBuffer lock keypad
  else pure (keypad, none)

/-- `keypadInterruptHandler`. -/
def keypadInterruptHandler (lock : LockState) (keypad : Keypad) (key : KeyInterrupt) :
    Checked (Keypad × Option PasscodeCall) :=
  if keypad.isDebounceTimerRunning then pure (keypad, none)
  else
    sendKey lock { keypad with isDebounceTimerRunning := true }
      (keyVal key.rowNum (finalColVal key))

/-! ### The lock -/

/-- The keypad and the passcode of a lock, and the calls of `passcodeEntered` so far. -/
structure SmartLock where
  keypad : Keypad
  lock : LockState
  calls : List PasscodeCall
deriving DecidableEq

/-- What happens to a lock: an interrupt of the keypad, the end of the debounce timer, a command
to change the passcode. `passcodeTemp` is what that local array held before. -/
inductive LockEvent where
  | interrupt (key : KeyInterrupt)
  | debounceTimerCallback
  | changePasscode (passcodeTemp : Block maxPasswordLen) (argsLen : UInt32)
      (args : Block argsLen.toNat)

/-- One event. -/
def smartLockStep (smartLock : SmartLock) : LockEvent → Checked SmartLock
  | .interrupt key => do
      let (keypad, call) ← keypadInterruptHandler smartLock.lock smartLock.keypad key
      pure { smartLock with keypad := keypad, calls := smartLock.calls ++ call.toList }
  | .debounceTimerCallback =>
      pure
        { smartLock with
          keypad := { smartLock.keypad with isDebounceTimerRunning := false } }
  | .changePasscode passcodeTemp argsLen args => do
      let (_, lock) ←
        NodeClient.changePasscode smartLock.lock passcodeTemp args.bytes argsLen
      pure { smartLock with lock := lock }

end RentMate.NodeClient
