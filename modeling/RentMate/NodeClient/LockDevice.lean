/-
Module: RentMate.NodeClient.LockDevice
Purpose: The whole device of a smart lock: the interrupts of the keypad, of the switches and of the
  door's sensor, the timers that they start, and the callbacks that turn off the LEDs, the buzzer
  and the motor. Interrupts can come between any two statements of a callback.
Trusted boundary: human-reviewed spec
Main exports: LockTimer, Statement, callback, Device, passcodeCorrect, keypadInterrupt,
  lockSwitchStateInterrupt, proximitySensorInterruptCallback, initLock, DeviceEvent, deviceStep
-/
import RentMate.Machine.TimerTask
import RentMate.NodeClient.Keypad
import Mathlib.Logic.Function.Basic

namespace RentMate.NodeClient

open RentMate.Machine

/-! ### Pins and timers -/

/-- The pins that are driven. The one of the power LED stays high. -/
inductive OutputPin where
  | badStatusLed
  | goodStatusLed
  | activeBuzzer
  | motorDriverIn1
  | motorDriverIn2
deriving Repr, DecidableEq

/-- The pins that are read, besides the keypad's. -/
inductive InputPin where
  | proximitySensor
  | switchLockOpen
  | switchLockClosed
deriving Repr, DecidableEq

/-- The timers, all of them one-shot. -/
inductive LockTimer where
  | goodLed
  | badLed
  | motorTimeout
  | openSwitch
  | closedSwitch
  | proximityDetector
  | debounce
deriving Repr, DecidableEq

/-- The statements of the callbacks, besides prints. -/
inductive Statement where
  /-- `gpio_set_level(pin, 0)`. -/
  | clearLevel (pin : OutputPin)
  /-- `motorStatus = 0`. -/
  | motorStopped
  /-- `output = gpio_get_level(pin)`. -/
  | getLevel (pin : InputPin)
  /-- If `output` is zero, `currentLockState = value`. -/
  | lockStateIfLow (value : UInt8)
  /-- `currentDoorState` becomes `output`, in two branches. -/
  | doorState
  | openSwitchTimerStopped
  | closedSwitchTimerStopped
  | debounceTimerStopped
deriving Repr, DecidableEq

/-- The callback of every timer. -/
def callback : LockTimer → List Statement
  -- `goodLedTimeoutCallback`
  | .goodLed => [.clearLevel .goodStatusLed, .clearLevel .activeBuzzer]
  -- `badLedTimeoutCallback`
  | .badLed => [.clearLevel .badStatusLed, .clearLevel .activeBuzzer]
  -- `motorTimeoutCallback`
  | .motorTimeout => [.clearLevel .motorDriverIn1, .clearLevel .motorDriverIn2, .motorStopped]
  -- `openSwitchTimerCallback`
  | .openSwitch => [.getLevel .switchLockOpen, .lockStateIfLow 0, .openSwitchTimerStopped]
  -- `closedSwitchTimerCallback`
  | .closedSwitch => [.getLevel .switchLockClosed, .lockStateIfLow 1, .closedSwitchTimerStopped]
  -- `proximityTimerCallback`
  | .proximityDetector => [.getLevel .proximitySensor, .doorState]
  -- `debounceTimerCallback`
  | .debounce => [.debounceTimerStopped]

/-! ### The device -/

/-- The levels of the pins, the globals, the local variable of the callback that the timer task is
in, and the timers. -/
structure Device where
  levels : OutputPin → Bool
  inputs : InputPin → Bool
  motorStatus : UInt8
  isOpenSwitchTimerRunning : Bool
  isClosedSwitchTimerRunning : Bool
  smartLock : SmartLock
  output : Bool
  timers : TimerTask LockTimer Statement

/-- `gpio_set_level`. -/
def Device.setLevel (device : Device) (pin : OutputPin) (level : Bool) : Device :=
  { device with levels := Function.update device.levels pin level }

/-- `xTimerStartFromISR`, and `xTimerResetFromISR`, which does the same. -/
def Device.startTimer (capacity : Nat) (device : Device) (timer : LockTimer) : Device × Bool :=
  let (timers, started) := device.timers.request capacity timer
  ({ device with timers := timers }, started)

/-- `gpio_get_level`. -/
def levelValue (level : Bool) : UInt8 := if level then 1 else 0

/-! ### Interrupts -/

section Interrupts

variable (capacity : Nat)

/-- `rotateMotorClockwise`. A start that fails is printed. -/
def rotateMotorClockwise (device : Device) : Device :=
  let device := device.setLevel .motorDriverIn1 true
  let device := device.setLevel .motorDriverIn2 false
  let device := { device with motorStatus := 1 }
  (device.startTimer capacity .motorTimeout).1

/-- `passcodeCorrect`. A start that fails is printed. -/
def passcodeCorrect (device : Device) : Device :=
  let device := device.setLevel .activeBuzzer true
  let device := device.setLevel .goodStatusLed true
  let device := (device.startTimer capacity .goodLed).1
  rotateMotorClockwise capacity device

/-- `passcodeWrong`. A start that fails is printed. -/
def passcodeWrong (device : Device) : Device :=
  let device := device.setLevel .badStatusLed true
  let device := device.setLevel .activeBuzzer true
  (device.startTimer capacity .badLed).1

/-- What `passcodeEntered` calls. -/
def afterPasscode (device : Device) : Option PasscodeCall → Device
  | none => device
  | some call => if call.correct then passcodeCorrect capacity device else passcodeWrong capacity device

/-- `keypadInterruptHandler` with its timer, and with what a passcode that is entered sets off. The
flag is set whether the timer starts or not. -/
def keypadInterrupt (device : Device) (key : KeyInterrupt) : Checked Device :=
  if device.smartLock.keypad.isDebounceTimerRunning then pure device
  else do
    let device := (device.startTimer capacity .debounce).1
    let (keypad, call) ←
      keypadInterruptHandler device.smartLock.lock device.smartLock.keypad key
    let device :=
      { device with
        smartLock :=
          { device.smartLock with
            keypad := keypad
            calls := device.smartLock.calls ++ call.toList } }
    pure (afterPasscode capacity device call)

/-- `lockSwitchStateInterrupt` for the switch that closes with the lock. The flag is set if the
timer starts. -/
def closedSwitchInterrupt (device : Device) : Device :=
  if device.isClosedSwitchTimerRunning then device
  else
    let (device, started) := device.startTimer capacity .closedSwitch
    if started then { device with isClosedSwitchTimerRunning := true } else device

/-- `lockSwitchStateInterrupt` for the other switch. -/
def openSwitchInterrupt (device : Device) : Device :=
  if device.isOpenSwitchTimerRunning then device
  else
    let (device, started) := device.startTimer capacity .openSwitch
    if started then { device with isOpenSwitchTimerRunning := true } else device

/-- `proximitySensorInterruptCallback`. -/
def proximitySensorInterruptCallback (device : Device) : Device :=
  (device.startTimer capacity .proximityDetector).1

/-- An edge of a pin calls the handler that `initLock` has added for it. -/
def edgeInterrupt (device : Device) : InputPin → Device
  | .proximitySensor => proximitySensorInterruptCallback capacity device
  | .switchLockOpen => openSwitchInterrupt capacity device
  | .switchLockClosed => closedSwitchInterrupt capacity device

end Interrupts

/-! ### The timer task -/

/-- A statement of a callback. -/
def execute (device : Device) : Statement → Device
  | .clearLevel pin => device.setLevel pin false
  | .motorStopped => { device with motorStatus := 0 }
  | .getLevel pin => { device with output := device.inputs pin }
  | .lockStateIfLow value =>
      if device.output then device
      else
        { device with
          smartLock :=
            { device.smartLock with
              lock := { device.smartLock.lock with currentLockState := value } } }
  | .doorState =>
      { device with
        smartLock :=
          { device.smartLock with
            lock :=
              { device.smartLock.lock with currentDoorState := levelValue device.output } } }
  | .openSwitchTimerStopped => { device with isOpenSwitchTimerRunning := false }
  | .closedSwitchTimerStopped => { device with isClosedSwitchTimerRunning := false }
  | .debounceTimerStopped =>
      { device with
        smartLock :=
          { device.smartLock with
            keypad := { device.smartLock.keypad with isDebounceTimerRunning := false } } }

/-! ### Runs -/

/-- `initLock`, with what the pins read and the globals of the keypad and the passcode. -/
def initLock (inputs : InputPin → Bool) (smartLock : SmartLock) : Device :=
  { levels := fun _ => false
    inputs := inputs
    motorStatus := 0
    isOpenSwitchTimerRunning := false
    isClosedSwitchTimerRunning := false
    smartLock := smartLock
    output := false
    timers := .idle }

/-- What happens to the device: an interrupt of the keypad, an edge of a pin, a step of the timer
task, and the command that changes the passcode. `passcodeTemp` is what that local array held
before. -/
inductive DeviceEvent where
  | keypad (key : KeyInterrupt)
  | edge (pin : InputPin)
  | command
  | expired (timer : LockTimer)
  | statement
  | changePasscode (passcodeTemp : Block maxPasswordLen) (argsLen : UInt32)
      (args : Block argsLen.toNat)

/-- One event. A step that the timer task cannot take changes nothing. -/
def deviceStep (capacity : Nat) (device : Device) : DeviceEvent → Checked Device
  | .keypad key => keypadInterrupt capacity device key
  | .edge pin =>
      pure (edgeInterrupt capacity
        { device with inputs := Function.update device.inputs pin (!device.inputs pin) } pin)
  | .command => pure { device with timers := device.timers.takeCommand }
  | .expired timer => pure { device with timers := device.timers.expire callback timer }
  | .statement =>
      match device.timers.running with
      | [] => pure device
      | next :: _ => pure { execute device next with timers := device.timers.advance }
  | .changePasscode passcodeTemp argsLen args => do
      let (_, lock) ←
        NodeClient.changePasscode device.smartLock.lock passcodeTemp args.bytes argsLen
      pure { device with smartLock := { device.smartLock with lock := lock } }

end RentMate.NodeClient
