/-
Module: RentMate.Proofs.LockMotor
Purpose: The whole device of a smart lock against what is typed on it: its keypad and passcode are
  the ones of the lock without timers, and its motor runs only behind the passcode that was in
  force when it was entered.
Trusted boundary: none
Main exports: InputAction, device_typing, OpenedBy, motor_needs_passcode
-/
import RentMate.Proofs.KeypadTyping
import RentMate.Proofs.LockTimers

namespace RentMate.LockTimers

open RentMate.Machine
open RentMate.NodeClient
open RentMate.KeypadTyping (Simulates SwitchedOn Typing typedAfter simulates_after simulates_begin
  storedPasscode newLock)

/-! ### What is typed -/

/-- What reaches the device from its user or over the network. -/
inductive InputAction where
  | key (key : KeyInterrupt)
  | passcode (letters : Bytes)
deriving DecidableEq

/-- The end of the debounce timer is no such action. -/
def actionOf : LockEvent → Option InputAction
  | .interrupt key => some (.key key)
  | .debounceTimerCallback => none
  | .changePasscode _ _ args => some (.passcode args.bytes)

def deviceAction : DeviceEvent → Option InputAction
  | .keypad key => some (.key key)
  | .changePasscode _ _ args => some (.passcode args.bytes)
  | _ => none

section Typing

variable {capacity : Nat} {device : Device} {typing : Typing}

/-- An interrupt does to the keypad what it does without timers. -/
theorem keypadInterrupt_simulates (simulates : Simulates device.smartLock typing)
    (key : KeyInterrupt) :
    ∃ next, keypadInterrupt capacity device key = .ok next ∧
      Simulates next.smartLock (typing.after (.interrupt key)) := by
  obtain ⟨smartLock, stepped, simulatesNext⟩ := simulates_after simulates (.interrupt key)
  cases flag : device.smartLock.keypad.isDebounceTimerRunning with
  | true =>
      rw [smartLockStep, keypadInterruptHandler, if_pos flag] at stepped
      obtain rfl := Except.ok.inj stepped
      refine ⟨device, ?_, ?_⟩
      · rw [keypadInterrupt, if_pos flag]
        rfl
      · simpa using simulatesNext
  | false =>
      obtain ⟨⟨keypad, call⟩, handled, same⟩ := bind_eq_ok.mp stepped
      obtain rfl := Except.ok.inj same
      refine ⟨_, keypadInterrupt_taken ⟨flag, handled⟩, ?_⟩
      rw [smartLock_afterPasscode]
      exact simulatesNext

/-- What the timer task does to the lock is the end of the debounce timer, or nothing that the
keypad or the passcode depends on. -/
theorem execute_simulates (simulates : Simulates device.smartLock typing) (statement : Statement) :
    ∃ heard : List LockEvent, heard.filterMap actionOf = [] ∧
      Simulates (execute device statement).smartLock (heard.foldl Typing.after typing) := by
  cases statement with
  | debounceTimerStopped =>
      exact ⟨[.debounceTimerCallback], rfl, { simulates with bouncing := rfl }⟩
  | lockStateIfLow value =>
      refine ⟨[], rfl, ?_⟩
      cases output : device.output with
      | true =>
          rw [execute, if_pos output]
          exact simulates
      | false =>
          rw [execute, if_neg (by simp [output])]
          exact { simulates with }
  | doorState => exact ⟨[], rfl, { simulates with }⟩
  | _ => exact ⟨[], rfl, simulates⟩

/-- Every event of the device is some events of the lock without timers. -/
theorem simulates_deviceStep (simulates : Simulates device.smartLock typing) (event : DeviceEvent) :
    ∃ (next : Device) (heard : List LockEvent), deviceStep capacity device event = .ok next ∧
      heard.filterMap actionOf = (deviceAction event).toList ∧
      Simulates next.smartLock (heard.foldl Typing.after typing) := by
  cases event with
  | keypad key =>
      obtain ⟨next, stepped, simulatesNext⟩ :=
        @keypadInterrupt_simulates capacity device typing simulates key
      exact ⟨next, [.interrupt key], stepped, rfl, simulatesNext⟩
  | edge pin =>
      refine ⟨_, [], rfl, rfl, ?_⟩
      generalize handled : edgeInterrupt capacity
        { device with inputs := Function.update device.inputs pin (!device.inputs pin) } pin = next
      rw [smartLock_edge handled]
      exact simulates
  | command => exact ⟨_, [], rfl, rfl, simulates⟩
  | expired timer => exact ⟨_, [], rfl, rfl, simulates⟩
  | statement =>
      cases running : device.timers.running with
      | nil =>
          refine ⟨device, [], ?_, rfl, simulates⟩
          simp only [deviceStep, running, pure_eq_ok]
      | cons statement rest =>
          obtain ⟨heard, silent, simulatesNext⟩ := execute_simulates simulates statement
          refine ⟨{ execute device statement with timers := device.timers.advance }, heard, ?_,
            silent, simulatesNext⟩
          simp only [deviceStep, running, pure_eq_ok]
  | changePasscode passcodeTemp argsLen args =>
      obtain ⟨smartLock, stepped, simulatesNext⟩ :=
        simulates_after simulates (.changePasscode passcodeTemp argsLen args)
      obtain ⟨⟨returned, lock⟩, changed, same⟩ := bind_eq_ok.mp stepped
      obtain rfl := Except.ok.inj same
      refine ⟨{ device with smartLock := { device.smartLock with lock := lock } },
        [.changePasscode passcodeTemp argsLen args], ?_, rfl, simulatesNext⟩
      simp only [deviceStep, changed, ok_bind, pure_eq_ok]

/-- Every run of the device completes, and its keypad, its passcode and what has been entered are
the ones of a run of the lock without timers that has the same presses and the same commands in
the same order, with the ends of the debounce timer in between. -/
theorem device_typing (capacity : Nat) (inputs : InputPin → Bool) {smartLock : SmartLock}
    (switchedOn : SwitchedOn smartLock) (events : List DeviceEvent) :
    ∃ (device : Device) (heard : List LockEvent),
      runFrom (deviceStep capacity) (initLock inputs smartLock) events = .ok device ∧
      heard.filterMap actionOf = events.filterMap deviceAction ∧
      Simulates device.smartLock (typedAfter smartLock heard) := by
  induction events using List.reverseRecOn with
  | nil => exact ⟨initLock inputs smartLock, [], rfl, rfl, simulates_begin switchedOn⟩
  | append_singleton events event ih =>
      obtain ⟨device, heard, ran, same, simulates⟩ := ih
      obtain ⟨next, more, stepped, sameMore, simulatesNext⟩ :=
        @simulates_deviceStep capacity device _ simulates event
      refine ⟨next, heard ++ more, ?_, ?_, ?_⟩
      · rw [runFrom_snoc, ran, ok_bind, stepped]
      · rw [List.filterMap_append, List.filterMap_append, same, sameMore]
        cases action : deviceAction event <;> simp [action]
      · rw [typedAfter, List.foldl_append]
        exact simulatesNext

/-- The keys 1, 2, 4, 4 and submit, with the debounce timer's end behind each of them. -/
def unlocking : List DeviceEvent :=
  [⟨1, true, false, false⟩, ⟨1, false, true, false⟩, ⟨2, true, false, false⟩,
    ⟨2, true, false, false⟩, ⟨4, false, false, true⟩].flatMap fun key : KeyInterrupt =>
      [.keypad key, .command, .expired .debounce, .statement]

/-- The built-in passcode as it is typed on a new lock. -/
theorem unlocking_typed :
    ∃ (device : Device) (heard : List LockEvent),
      runFrom (deviceStep 10) (initLock (fun _ => true) newLock) unlocking = .ok device ∧
      heard.filterMap actionOf = unlocking.filterMap deviceAction ∧
      Simulates device.smartLock (typedAfter newLock heard) :=
  device_typing 10 (fun _ => true) ⟨rfl, by decide, by decide, rfl⟩ unlocking

end Typing

/-! ### The motor -/

section Motor

variable {capacity : Nat} {device next : Device} {event : DeviceEvent} {key : KeyInterrupt}
  {lock : LockState} {keypad after : Keypad} {call : PasscodeCall}

/-- Submitting accepts the stored passcode only. -/
theorem submitBuffer_correct (ran : submitBuffer lock keypad = .ok (after, some call))
    (correct : call.correct = true) : call.digits = storedPasscode lock := by
  rw [submitBuffer] at ran
  obtain ⟨digits, read, ran⟩ := bind_eq_ok.mp ran
  obtain ⟨decided, compared, ran⟩ := bind_eq_ok.mp ran
  obtain ⟨-, same⟩ := Prod.mk.inj (Except.ok.inj ran)
  obtain rfl := Option.some.inj same
  rw [passcodeEntered, read, ok_bind] at compared
  obtain ⟨current, readCurrent, compared⟩ := bind_eq_ok.mp compared
  rw [← Except.ok.inj compared] at correct
  obtain ⟨lengths, rfl⟩ := of_decide_eq_true correct
  obtain ⟨-, rfl⟩ := readBytes_eq_ok.mp readCurrent
  rw [lengths]
  rfl

/-- A passcode that is taken for the correct one is the one that is stored. -/
theorem sendKey_correct {value : UInt8}
    (ran : sendKey lock keypad value = .ok (after, some call)) (correct : call.correct = true) :
    call.digits = storedPasscode lock := by
  rw [sendKey] at ran
  split at ran
  · split at ran
    · split at ran
      · cases ran
      · cases ran
    · split at ran
      · exact submitBuffer_correct ran correct
      · split at ran
        · obtain ⟨_, -, ran⟩ := bind_eq_ok.mp ran
          cases ran
        · exact submitBuffer_correct ran correct
  · cases ran

/-- A press that unlocks has submitted the stored passcode. -/
theorem Takes.correct (takes : Takes device key keypad (some call)) (correct : call.correct = true) :
    call.digits = storedPasscode device.smartLock.lock := by
  obtain ⟨still, handled⟩ := takes
  rw [keypadInterruptHandler, still, if_neg (by decide)] at handled
  exact sendKey_correct handled correct

/-- The motor has not been told to turn back, and its status says what it was told last. -/
structure Clockwise (device : Device) : Prop where
  forward : device.levels .motorDriverIn2 = false
  status : device.motorStatus = 0 ∨ device.motorStatus = 1

/-- A passcode turns the motor clockwise or not at all. -/
theorem clockwise_afterPasscode (clockwise : Clockwise device) (call : Option PasscodeCall) :
    Clockwise (afterPasscode capacity device call) := by
  obtain ⟨forward, status⟩ := clockwise
  cases call with
  | none => exact ⟨forward, status⟩
  | some call =>
      cases correct : call.correct with
      | false =>
          constructor
          · simpa [afterPasscode, correct, passcodeWrong, Device.startTimer, Device.setLevel]
              using forward
          · simpa [afterPasscode, correct, passcodeWrong, Device.startTimer, Device.setLevel]
              using status
      | true =>
          constructor
          · simp [afterPasscode, correct, passcodeCorrect, rotateMotorClockwise, Device.startTimer,
              Device.setLevel]
          · simp [afterPasscode, correct, passcodeCorrect, rotateMotorClockwise, Device.startTimer,
              Device.setLevel]

/-- An edge does not touch the motor. -/
theorem motorStatus_edge {pin : InputPin} (handled : edgeInterrupt capacity device pin = next) :
    next.motorStatus = device.motorStatus := by
  cases edgeInterrupt_cases handled with
  | door => rfl
  | ignored => rfl
  | refused => rfl
  | @started switch => cases switch <;> rfl

/-- No step turns the motor the other way. -/
theorem clockwise_step (clockwise : Clockwise device)
    (stepped : deviceStep capacity device event = .ok next) : Clockwise next := by
  obtain ⟨forward, status⟩ := clockwise
  cases event with
  | keypad key =>
      cases keypadInterrupt_cases stepped with
      | bounced => exact ⟨forward, status⟩
      | @taken keypad call takes =>
          have clockwisePressed : Clockwise (pressed capacity device keypad call) :=
            ⟨forward, status⟩
          exact clockwise_afterPasscode clockwisePressed call
  | edge pin =>
      have handled := Except.ok.inj stepped
      have levels := congrFun (levels_edgeInterrupt capacity
        { device with inputs := Function.update device.inputs pin (!device.inputs pin) } pin)
        .motorDriverIn2
      have motorStatus := motorStatus_edge handled
      rw [handled] at levels
      exact ⟨levels.trans forward, by rw [motorStatus]; exact status⟩
  | command =>
      obtain rfl := Except.ok.inj stepped
      exact ⟨forward, status⟩
  | expired timer =>
      obtain rfl := Except.ok.inj stepped
      exact ⟨forward, status⟩
  | statement =>
      simp only [deviceStep] at stepped
      split at stepped
      · obtain rfl := Except.ok.inj stepped
        exact ⟨forward, status⟩
      · rename_i statement rest running
        obtain rfl := Except.ok.inj stepped
        constructor
        · change (execute device statement).levels .motorDriverIn2 = false
          rw [levels_execute]
          split
          · rfl
          · exact forward
        · change (execute device statement).motorStatus = 0 ∨
            (execute device statement).motorStatus = 1
          cases statement with
          | motorStopped => exact .inl rfl
          | lockStateIfLow value => cases output : device.output <;> simpa [execute, output]
          | _ => exact status
  | changePasscode passcodeTemp argsLen args =>
      obtain ⟨_, -, same⟩ := bind_eq_ok.mp stepped
      obtain rfl := Except.ok.inj same
      exact ⟨forward, status⟩

/-- The motor starts only behind a passcode. -/
theorem motor_rises (stepped : deviceStep capacity device event = .ok next)
    (off : device.levels .motorDriverIn1 = false) (on : next.levels .motorDriverIn1 = true) :
    ∃ key keypad, event = .keypad key ∧
      Takes device key keypad (some ⟨storedPasscode device.smartLock.lock, true⟩) := by
  cases event with
  | keypad key =>
      cases keypadInterrupt_cases stepped with
      | bounced =>
          rw [off] at on
          cases on
      | @taken keypad call takes =>
          cases call with
          | none =>
              have unchanged : device.levels .motorDriverIn1 = true := on
              rw [off] at unchanged
              cases unchanged
          | some call =>
              have level := @levels_afterPasscode capacity
                (pressed capacity device keypad (some call)) .motorDriver call
              by_cases correct : call.correct = true
              · have digits := takes.correct correct
                obtain ⟨entered, decided⟩ := call
                obtain rfl : decided = true := correct
                obtain rfl : entered = storedPasscode device.smartLock.lock := digits
                exact ⟨key, keypad, rfl, takes⟩
              · have differs : ¬ call.correct = TimedOutput.motorDriver.correct := correct
                rw [if_neg differs] at level
                have unchanged := level.symm.trans on
                have low : (pressed capacity device keypad (some call)).levels .motorDriverIn1 =
                    false := off
                exact absurd (low.symm.trans unchanged) (by decide)
  | edge pin =>
      have handled := Except.ok.inj stepped
      have levels := congrFun (levels_edgeInterrupt capacity
        { device with inputs := Function.update device.inputs pin (!device.inputs pin) } pin)
        .motorDriverIn1
      rw [handled, on] at levels
      have unchanged : true = device.levels .motorDriverIn1 := levels
      rw [off] at unchanged
      cases unchanged
  | command =>
      obtain rfl := Except.ok.inj stepped
      rw [show _ = device.levels .motorDriverIn1 from rfl, off] at on
      cases on
  | expired timer =>
      obtain rfl := Except.ok.inj stepped
      rw [show _ = device.levels .motorDriverIn1 from rfl, off] at on
      cases on
  | statement =>
      simp only [deviceStep] at stepped
      split at stepped
      · obtain rfl := Except.ok.inj stepped
        rw [off] at on
        cases on
      · rename_i statement rest running
        obtain rfl := Except.ok.inj stepped
        have level : (execute device statement).levels .motorDriverIn1 = true := on
        rw [levels_execute, off] at level
        split at level <;> cases level
  | changePasscode passcodeTemp argsLen args =>
      obtain ⟨_, -, same⟩ := bind_eq_ok.mp stepped
      obtain rfl := Except.ok.inj same
      rw [show _ = device.levels .motorDriverIn1 from rfl, off] at on
      cases on

/-- The motor was off until a press that entered the passcode that was in force at that moment, and
has been on ever since. -/
def OpenedBy (capacity : Nat) (start : Device) (events : List DeviceEvent) : Prop :=
  ∃ before key rest closed keypad opened,
    events = before ++ .keypad key :: rest ∧
    runFrom (deviceStep capacity) start before = .ok closed ∧
    closed.levels .motorDriverIn1 = false ∧
    Takes closed key keypad (some ⟨storedPasscode closed.smartLock.lock, true⟩) ∧
    deviceStep capacity closed (.keypad key) = .ok opened ∧
    Throughout (deviceStep capacity) opened (fun later => later.levels .motorDriverIn1 = true) rest

/-- Along no events a property holds of the start alone. -/
theorem throughout_nil_iff {start : Device} {property : Device → Prop} :
    Throughout (deviceStep capacity) start property [] ↔ property start := by
  constructor
  · exact fun throughout => throughout [] [] rfl start rfl
  · rintro holds before rest split reached ran
    obtain ⟨rfl, rfl⟩ := List.append_eq_nil_iff.mp split.symm
    obtain rfl := Except.ok.inj ran
    exact holds

/-- A property that holds along a run holds along one more event if it holds behind that. -/
theorem throughout_snoc {start : Device} {property : Device → Prop} {events : List DeviceEvent}
    (throughout : Throughout (deviceStep capacity) start property events)
    (last : ∀ reached, runFrom (deviceStep capacity) start (events ++ [event]) = .ok reached →
      property reached) :
    Throughout (deviceStep capacity) start property (events ++ [event]) := by
  intro before rest split reached ran
  cases rest using List.reverseRecOn with
  | nil =>
      rw [List.append_nil] at split
      rw [← split] at ran
      exact last reached ran
  | append_singleton rest final =>
      rw [← List.append_assoc] at split
      exact throughout before rest (List.append_inj_left' split rfl) reached ran

/-- What a step does to the last opening: it stays the last one, or the step opens the lock. -/
theorem openedBy_step {start : Device} {events : List DeviceEvent}
    (opened : device.levels .motorDriverIn1 = true → OpenedBy capacity start events)
    (ran : runFrom (deviceStep capacity) start events = .ok device)
    (stepped : deviceStep capacity device event = .ok next)
    (on : next.levels .motorDriverIn1 = true) : OpenedBy capacity start (events ++ [event]) := by
  cases level : device.levels .motorDriverIn1 with
  | true =>
      obtain ⟨before, key, rest, closed, keypad, first, rfl, ranBefore, off, takes, opening,
        since⟩ := opened level
      refine ⟨before, key, rest ++ [event], closed, keypad, first, ?_, ranBefore, off, takes,
        opening, throughout_snoc since fun reached ranReached => ?_⟩
      · rw [List.append_assoc, List.cons_append]
      · rw [runFrom_append, ranBefore, ok_bind, runFrom_cons, opening, ok_bind] at ran
        rw [runFrom_snoc, ran, ok_bind, stepped] at ranReached
        obtain rfl := Except.ok.inj ranReached
        exact on
  | false =>
      obtain ⟨key, keypad, rfl, takes⟩ := motor_rises stepped level on
      exact ⟨events, key, [], device, keypad, next, rfl, ran, level, takes, stepped,
        throughout_nil_iff.mpr on⟩

/-- In no run does the motor turn back, and whenever it runs, it was started by a press that
entered the passcode that was in force at that moment, however the interrupts come between the
callbacks' statements and whatever else has been typed, changed or neglected. -/
theorem motor_needs_passcode (inputs : InputPin → Bool) (smartLock : SmartLock)
    (events : List DeviceEvent)
    (ran : runFrom (deviceStep capacity) (initLock inputs smartLock) events = .ok device) :
    device.levels .motorDriverIn2 = false ∧
      (device.levels .motorDriverIn1 = true →
        OpenedBy capacity (initLock inputs smartLock) events) := by
  suffices both : Clockwise device ∧ (device.levels .motorDriverIn1 = true →
      OpenedBy capacity (initLock inputs smartLock) events) from ⟨both.1.forward, both.2⟩
  induction events using List.reverseRecOn generalizing device with
  | nil =>
      obtain rfl := Except.ok.inj ran
      exact ⟨⟨rfl, .inl rfl⟩, fun on => by cases on⟩
  | append_singleton events event ih =>
      rw [runFrom_snoc] at ran
      obtain ⟨earlier, ranEarlier, stepped⟩ := bind_eq_ok.mp ran
      obtain ⟨clockwise, opened⟩ := ih ranEarlier
      exact ⟨clockwise_step clockwise stepped,
        fun on => openedBy_step opened ranEarlier stepped on⟩

/-- The built-in passcode opens a new lock. -/
theorem unlocking_opens :
    ∃ device, runFrom (deviceStep 10) (initLock (fun _ => true) newLock) unlocking = .ok device ∧
      device.levels .motorDriverIn1 = true ∧
      OpenedBy 10 (initLock (fun _ => true) newLock) unlocking := by
  obtain ⟨device, ran, on⟩ : ∃ device : Device,
      runFrom (deviceStep 10) (initLock (fun _ => true) newLock) unlocking = .ok device ∧
        device.levels .motorDriverIn1 = true := ⟨_, rfl, rfl⟩
  exact ⟨device, ran, on, (motor_needs_passcode (fun _ => true) newLock unlocking ran).2 on⟩

end Motor

end RentMate.LockTimers
