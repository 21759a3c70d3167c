/-
Module: RentMate.Proofs.LockTimers
Purpose: The timers of a smart lock over all runs of its device, with interrupts between any two
  statements of a callback: which outputs are turned off again, when the keypad and the switches
  listen again, and when the door's state is the one that its sensor reports.
Trusted boundary: none
Main exports: KeypadStep, TimedOutput, output_attended_iff, keypad_attended_iff, keypad_dead,
  switch_exact
-/
import RentMate.NodeClient.LockDevice
import RentMate.Proofs.KeypadTyping

namespace RentMate.LockTimers

open RentMate.Machine
open RentMate.NodeClient

/-! ### What an interrupt of the keypad can do -/

section Keypad

variable {capacity : Nat} {device next : Device} {key : KeyInterrupt} {keypad : Keypad}
  {call : Option PasscodeCall} {lock : LockState}

/-- The device behind a press that is taken, before what a passcode sets off. -/
def pressed (capacity : Nat) (device : Device) (keypad : Keypad) (call : Option PasscodeCall) :
    Device :=
  { device with
    timers := (device.timers.request capacity .debounce).1
    smartLock :=
      { device.smartLock with
        keypad := keypad
        calls := device.smartLock.calls ++ call.toList } }

/-- The handler takes a press, and a passcode with it if one has been entered. -/
def Takes (device : Device) (key : KeyInterrupt) (keypad : Keypad)
    (call : Option PasscodeCall) : Prop :=
  device.smartLock.keypad.isDebounceTimerRunning = false ∧
    keypadInterruptHandler device.smartLock.lock device.smartLock.keypad key = .ok (keypad, call)

/-- What an interrupt can do: nothing while the timer runs, and else a press is taken. -/
inductive KeypadStep (capacity : Nat) (device : Device) (key : KeyInterrupt) : Device → Prop where
  | bounced (running : device.smartLock.keypad.isDebounceTimerRunning = true) :
      KeypadStep capacity device key device
  | taken {keypad : Keypad} {call : Option PasscodeCall} (takes : Takes device key keypad call) :
      KeypadStep capacity device key
        (afterPasscode capacity (pressed capacity device keypad call) call)

/-- A press that is handled is ignored, or is taken and starts the debounce timer. -/
theorem keypadInterrupt_cases (ran : keypadInterrupt capacity device key = .ok next) :
    KeypadStep capacity device key next := by
  rw [keypadInterrupt] at ran
  split at ran
  · rename_i running
    obtain rfl := Except.ok.inj ran
    exact .bounced running
  · rename_i still
    obtain ⟨⟨keypad, call⟩, handled, same⟩ := bind_eq_ok.mp ran
    obtain rfl := Except.ok.inj same
    exact .taken ⟨by simpa using still, handled⟩

/-- What a press that is taken does to the device. -/
theorem keypadInterrupt_taken (takes : Takes device key keypad call) :
    keypadInterrupt capacity device key =
      .ok (afterPasscode capacity (pressed capacity device keypad call) call) := by
  obtain ⟨still, handled⟩ := takes
  rw [keypadInterrupt, still, if_neg (by decide)]
  change (keypadInterruptHandler device.smartLock.lock device.smartLock.keypad key >>= _) = _
  rw [handled]
  rfl

/-- Submitting the buffer does not touch the debounce flag. -/
theorem submitBuffer_flag {after : Keypad} (ran : submitBuffer lock keypad = .ok (after, call)) :
    after.isDebounceTimerRunning = keypad.isDebounceTimerRunning := by
  obtain ⟨_, -, ran⟩ := bind_eq_ok.mp ran
  obtain ⟨_, -, ran⟩ := bind_eq_ok.mp ran
  obtain ⟨rfl, -⟩ := Prod.mk.inj (Except.ok.inj ran)
  rfl

/-- A key that is sent to the buffer does not touch the debounce flag. -/
theorem sendKey_flag {value : UInt8} {after : Keypad}
    (ran : sendKey lock keypad value = .ok (after, call)) :
    after.isDebounceTimerRunning = keypad.isDebounceTimerRunning := by
  rw [sendKey] at ran
  split at ran
  · split at ran
    · split at ran
      · obtain ⟨rfl, -⟩ := Prod.mk.inj (Except.ok.inj ran)
        rfl
      · obtain ⟨rfl, -⟩ := Prod.mk.inj (Except.ok.inj ran)
        rfl
    · split at ran
      · exact submitBuffer_flag ran
      · split at ran
        · obtain ⟨_, -, ran⟩ := bind_eq_ok.mp ran
          obtain ⟨rfl, -⟩ := Prod.mk.inj (Except.ok.inj ran)
          rfl
        · exact submitBuffer_flag ran
  · obtain ⟨rfl, -⟩ := Prod.mk.inj (Except.ok.inj ran)
    rfl

/-- The flag is set behind every press that is taken. -/
theorem Takes.flag (takes : Takes device key keypad call) :
    keypad.isDebounceTimerRunning = true := by
  obtain ⟨still, handled⟩ := takes
  rw [keypadInterruptHandler, still, if_neg (by decide)] at handled
  exact sendKey_flag handled

end Keypad

/-! ### What an edge can do -/

/-- The two switches of the lock. -/
inductive LockSwitch where
  | lockOpen
  | lockClosed

namespace LockSwitch

def pin : LockSwitch → InputPin
  | .lockOpen => .switchLockOpen
  | .lockClosed => .switchLockClosed

def timer : LockSwitch → LockTimer
  | .lockOpen => .openSwitch
  | .lockClosed => .closedSwitch

/-- The statement that clears the flag. -/
def stopped : LockSwitch → Statement
  | .lockOpen => .openSwitchTimerStopped
  | .lockClosed => .closedSwitchTimerStopped

def flag : LockSwitch → Device → Bool
  | .lockOpen, device => device.isOpenSwitchTimerRunning
  | .lockClosed, device => device.isClosedSwitchTimerRunning

def withFlag : LockSwitch → Device → Device
  | .lockOpen, device => { device with isOpenSwitchTimerRunning := true }
  | .lockClosed, device => { device with isClosedSwitchTimerRunning := true }

end LockSwitch

section Edges

variable {capacity : Nat} {device next : Device}

/-- The device with the timer's command, if there is room for it. -/
def requested (capacity : Nat) (device : Device) (timer : LockTimer) : Device :=
  { device with timers := (device.timers.request capacity timer).1 }

/-- What the handler of an edge can do. -/
inductive EdgeStep (capacity : Nat) (device : Device) : InputPin → Device → Prop where
  | door : EdgeStep capacity device .proximitySensor (requested capacity device .proximityDetector)
  | ignored {switch : LockSwitch} (running : switch.flag device = true) :
      EdgeStep capacity device switch.pin device
  | refused {switch : LockSwitch} (still : switch.flag device = false)
      (full : ¬ device.timers.commands.length < capacity) : EdgeStep capacity device switch.pin device
  | started {switch : LockSwitch} (still : switch.flag device = false)
      (room : device.timers.commands.length < capacity) :
      EdgeStep capacity device switch.pin
        (switch.withFlag (requested capacity device switch.timer))

/-- An edge of a switch is one of the steps that edges make. -/
theorem edge_of_switch (capacity : Nat) (device : Device) (switch : LockSwitch) :
    EdgeStep capacity device switch.pin (edgeInterrupt capacity device switch.pin) := by
  cases flag : switch.flag device with
  | true =>
      have same : edgeInterrupt capacity device switch.pin = device := by
        cases switch <;> exact if_pos flag
      rw [same]
      exact .ignored flag
  | false =>
      by_cases room : device.timers.commands.length < capacity
      · have set : edgeInterrupt capacity device switch.pin =
            switch.withFlag (requested capacity device switch.timer) := by
          cases switch <;>
            simp_all [LockSwitch.pin, LockSwitch.flag, LockSwitch.timer, LockSwitch.withFlag,
              edgeInterrupt, openSwitchInterrupt, closedSwitchInterrupt, Device.startTimer,
              TimerTask.request_started, requested]
        rw [set]
        exact .started flag room
      · have same : edgeInterrupt capacity device switch.pin = device := by
          obtain ⟨levels, inputs, motorStatus, openRunning, closedRunning⟩ := device
          cases switch <;>
            simp_all [LockSwitch.pin, LockSwitch.flag, edgeInterrupt, openSwitchInterrupt,
              closedSwitchInterrupt, Device.startTimer, TimerTask.request_failed]
        rw [same]
        exact .refused flag room

/-- An edge of any pin is one of the steps that edges make. -/
theorem edgeInterrupt_cases {pin : InputPin}
    (handled : edgeInterrupt capacity device pin = next) : EdgeStep capacity device pin next := by
  subst handled
  cases pin with
  | proximitySensor => exact .door
  | switchLockOpen => exact edge_of_switch capacity device .lockOpen
  | switchLockClosed => exact edge_of_switch capacity device .lockClosed

end Edges

/-! ### Outputs that a timer turns off -/

/-- The outputs that a passcode turns on together with a timer. -/
inductive TimedOutput where
  | goodStatusLed
  | badStatusLed
  | motorDriver

namespace TimedOutput

def pin : TimedOutput → OutputPin
  | .goodStatusLed => .goodStatusLed
  | .badStatusLed => .badStatusLed
  | .motorDriver => .motorDriverIn1

def timer : TimedOutput → LockTimer
  | .goodStatusLed => .goodLed
  | .badStatusLed => .badLed
  | .motorDriver => .motorTimeout

/-- Whether a correct passcode turns it on, or a wrong one. -/
def correct : TimedOutput → Bool
  | .goodStatusLed => true
  | .badStatusLed => false
  | .motorDriver => true

/-- How many timers the same interrupt starts before. -/
def ahead : TimedOutput → Nat
  | .goodStatusLed => 1
  | .badStatusLed => 1
  | .motorDriver => 2

/-- The timer's callback is still to turn the output off. -/
def Due (output : TimedOutput) (device : Device) : Prop :=
  device.timers.Due output.timer (.clearLevel output.pin)

end TimedOutput

section Outputs

variable {capacity : Nat} {device next : Device} {event : DeviceEvent} {output : TimedOutput}
  {keypad : Keypad} {call : PasscodeCall}

/-- The callback of an output's timer turns the output off. -/
theorem clear_mem_callback (output : TimedOutput) :
    .clearLevel output.pin ∈ callback output.timer := by
  cases output with
  | goodStatusLed => decide
  | badStatusLed => decide
  | motorDriver => decide

/-- Which outputs a passcode turns on. -/
theorem levels_afterPasscode :
    (afterPasscode capacity device (some call)).levels output.pin =
      if call.correct = output.correct then true else device.levels output.pin := by
  cases correct : call.correct with
  | false =>
      cases output <;>
        simp [afterPasscode, correct, passcodeWrong, Device.startTimer, Device.setLevel,
          TimedOutput.pin, TimedOutput.correct]
  | true =>
      cases output <;>
        simp [afterPasscode, correct, passcodeCorrect, rotateMotorClockwise, Device.startTimer,
          Device.setLevel, TimedOutput.pin, TimedOutput.correct]

/-- The timer of an output that a passcode turns on starts if there is room for it behind the ones
that the interrupt starts before. -/
theorem due_afterPasscode_iff :
    output.Due (afterPasscode capacity (pressed capacity device keypad (some call)) (some call)) ↔
      output.Due device ∨
        call.correct = output.correct ∧
          device.timers.commands.length + output.ahead < capacity := by
  have behindDebounce := @TimerTask.room_behind_request _ _ capacity device.timers .debounce 1
  cases correct : call.correct with
  | false =>
      cases output <;>
        simp [TimedOutput.Due, TimedOutput.timer, TimedOutput.ahead, TimedOutput.correct,
          afterPasscode, correct, passcodeWrong, Device.startTimer, Device.setLevel, pressed,
          TimerTask.due_request_iff, TimerTask.room_request]
  | true =>
      cases output <;>
        simp [TimedOutput.Due, TimedOutput.timer, TimedOutput.ahead, TimedOutput.correct,
          afterPasscode, correct, passcodeCorrect, rotateMotorClockwise, Device.startTimer,
          Device.setLevel, pressed, TimerTask.due_request_iff, TimerTask.room_request,
          behindDebounce]

/-- The output is not on without its timer's callback to turn it off. -/
def Attended (output : TimedOutput) (device : Device) : Prop :=
  device.levels output.pin = true → output.Due device

/-- A passcode turns the output on, its timer cannot start for want of room among the commands, and
the callback is not to come anyway. -/
def Neglects (capacity : Nat) (output : TimedOutput) (device : Device) : DeviceEvent → Prop
  | .keypad key => ∃ keypad call, Takes device key keypad (some call) ∧
      call.correct = output.correct ∧
      ¬ device.timers.commands.length + output.ahead < capacity ∧ ¬ output.Due device
  | _ => False

/-- An edge turns no output on or off. -/
theorem levels_edgeInterrupt (capacity : Nat) (device : Device) (pin : InputPin) :
    (edgeInterrupt capacity device pin).levels = device.levels := by
  generalize handled : edgeInterrupt capacity device pin = next
  cases edgeInterrupt_cases handled with
  | door => rfl
  | ignored => rfl
  | refused => rfl
  | @started switch => cases switch <;> rfl

/-- An edge asks for one timer at most. -/
theorem due_edgeInterrupt {timer : LockTimer} {statement : Statement}
    (due : device.timers.Due timer statement) (capacity : Nat) (pin : InputPin) :
    (edgeInterrupt capacity device pin).timers.Due timer statement := by
  generalize handled : edgeInterrupt capacity device pin = next
  cases edgeInterrupt_cases handled with
  | door => exact due.request capacity .proximityDetector
  | ignored => exact due
  | refused => exact due
  | @started switch =>
      have requested := due.request capacity switch.timer
      cases switch <;> exact requested

/-- A statement of a callback turns off its own output only. -/
theorem levels_execute (device : Device) (statement : Statement) (pin : OutputPin) :
    (execute device statement).levels pin =
      if statement = .clearLevel pin then false else device.levels pin := by
  cases statement with
  | clearLevel cleared =>
      by_cases same : pin = cleared
      · simp [execute, Device.setLevel, same]
      · simp [execute, Device.setLevel, same, Ne.symm same]
  | lockStateIfLow value =>
      rw [execute]
      split <;> simp
  | _ => simp [execute]

/-- Only an interrupt that neglects the output leaves it on without its timer. -/
theorem attended_step (attended : Attended output device)
    (careful : ¬ Neglects capacity output device event)
    (stepped : deviceStep capacity device event = .ok next) : Attended output next := by
  intro on
  cases event with
  | keypad key =>
      cases keypadInterrupt_cases stepped with
      | bounced => exact attended on
      | @taken keypad call takes =>
          cases call with
          | none => exact (attended on).request capacity .debounce
          | some call =>
              rw [due_afterPasscode_iff]
              rw [levels_afterPasscode] at on
              by_cases matching : call.correct = output.correct
              · by_contra neglected
                rw [not_or, not_and] at neglected
                exact careful ⟨keypad, call, takes, matching, neglected.2 matching, neglected.1⟩
              · rw [if_neg matching] at on
                exact .inl (attended on)
  | edge pin =>
      obtain rfl := Except.ok.inj stepped
      rw [levels_edgeInterrupt] at on
      have due : output.Due
          { device with inputs := Function.update device.inputs pin (!device.inputs pin) } :=
        attended on
      exact due_edgeInterrupt due capacity pin
  | command =>
      obtain rfl := Except.ok.inj stepped
      exact (attended on).takeCommand
  | expired timer =>
      obtain rfl := Except.ok.inj stepped
      exact (attended on).expire (clear_mem_callback output)
  | statement =>
      simp only [deviceStep] at stepped
      split at stepped
      · obtain rfl := Except.ok.inj stepped
        exact attended on
      · rename_i statement rest running
        obtain rfl := Except.ok.inj stepped
        have level : (execute device statement).levels output.pin = true := on
        rw [levels_execute] at level
        split at level
        · cases level
        · rename_i other
          apply (attended level).advance
          rw [running]
          exact fun same => other (Option.some.inj same)
  | changePasscode passcodeTemp argsLen args =>
      obtain ⟨_, -, same⟩ := bind_eq_ok.mp stepped
      obtain rfl := Except.ok.inj same
      exact attended on

/-- An interrupt that neglects the output leaves it on. -/
theorem neglected_step (neglects : Neglects capacity output device event) :
    ∃ next, deviceStep capacity device event = .ok next ∧ ¬ Attended output next := by
  cases event with
  | keypad key =>
      obtain ⟨keypad, call, takes, matching, full, notDue⟩ := neglects
      refine ⟨_, keypadInterrupt_taken takes, fun attended => ?_⟩
      have on : (afterPasscode capacity (pressed capacity device keypad (some call))
          (some call)).levels output.pin = true := by
        rw [levels_afterPasscode, if_pos matching]
      rcases due_afterPasscode_iff.mp (attended on) with due | ⟨-, room⟩
      · exact notDue due
      · exact full room
  | _ => cases neglects

/-- Each LED and the motor has its timer to turn it off whenever it is on, in every state of a run,
exactly if no passcode turns it on while there is no room for its timer's command and the
callback is not to come anyway. -/
theorem output_attended_iff (capacity : Nat) (output : TimedOutput) (inputs : InputPin → Bool)
    (smartLock : SmartLock) (events : List DeviceEvent) :
    Throughout (deviceStep capacity) (initLock inputs smartLock) (Attended output) events ↔
      Along (deviceStep capacity) (initLock inputs smartLock)
        (fun _ device event => ¬ Neglects capacity output device event) events := by
  apply throughout_iff_along (fun _ => True) trivial
  · intro on
    cases on
  · exact fun _ _ _ _ _ => trivial
  · exact fun _ _ _ _ attended careful stepped => attended_step attended careful stepped
  · exact fun _ _ _ _ neglects => neglected_step (not_not.mp neglects)

end Outputs

/-! ### The switches -/

section Switches

variable {capacity : Nat} {device next : Device} {event : DeviceEvent} {switch : LockSwitch}
  {timer : LockTimer} {statement : Statement}

/-- A passcode starts none but the timers of the outputs. -/
theorem uses_afterPasscode (notGood : .goodLed ≠ timer) (notBad : .badLed ≠ timer)
    (notMotor : .motorTimeout ≠ timer) (call : Option PasscodeCall) :
    (afterPasscode capacity device call).timers.uses timer statement =
      device.timers.uses timer statement := by
  cases call with
  | none => rfl
  | some call =>
      cases correct : call.correct with
      | false =>
          simp only [afterPasscode, correct, passcodeWrong, Device.startTimer, Device.setLevel]
          exact TimerTask.uses_request notBad
      | true =>
          simp only [afterPasscode, correct, passcodeCorrect, rotateMotorClockwise,
            Device.startTimer, Device.setLevel, if_true]
          rw [TimerTask.uses_request notMotor, TimerTask.uses_request notGood]

/-- A passcode does not touch the flags of the switches. -/
theorem flag_afterPasscode (switch : LockSwitch) (call : Option PasscodeCall) :
    switch.flag (afterPasscode capacity device call) = switch.flag device := by
  cases call with
  | none => rfl
  | some call =>
      cases correct : call.correct <;> cases switch <;>
        simp [afterPasscode, correct, passcodeWrong, passcodeCorrect, rotateMotorClockwise,
          Device.startTimer, Device.setLevel, LockSwitch.flag]

/-- Only the statement that clears the flag changes it. -/
theorem flag_execute (switch : LockSwitch) (device : Device) (statement : Statement) :
    switch.flag (execute device statement) =
      if statement = switch.stopped then false else switch.flag device := by
  cases statement with
  | lockStateIfLow value =>
      cases output : device.output <;> cases switch <;>
        simp [execute, output, LockSwitch.flag, LockSwitch.stopped]
  | _ => cases switch <;> simp [execute, Device.setLevel, LockSwitch.flag, LockSwitch.stopped]

/-- The flag of a switch is set as often as its clearing is still to come: once or never. -/
def Exact (switch : LockSwitch) (device : Device) : Prop :=
  device.timers.uses switch.timer switch.stopped = (switch.flag device).toNat

/-- The callback of a switch's timer clears the switch's flag once. -/
theorem stopped_once (switch : LockSwitch) :
    (callback switch.timer).count switch.stopped = 1 := by
  cases switch <;> decide

/-- No other callback clears the flag of a switch. -/
theorem stopped_elsewhere (switch : LockSwitch) (other : LockTimer) (different : other ≠ switch.timer) :
    (callback other).count switch.stopped = 0 := by
  cases switch <;> cases other <;> simp_all [callback, LockSwitch.timer, LockSwitch.stopped]

/-- The clearing of a flag is to come once at most. -/
theorem Exact.once (exact : Exact switch device) :
    device.timers.uses switch.timer switch.stopped ≤ 1 := by
  rw [exact]
  exact Bool.toNat_le _

/-- An edge starts the timer of a switch only while its flag is clear. -/
theorem exact_edge (exact : Exact switch device) {pin : InputPin}
    (handled : edgeInterrupt capacity device pin = next) : Exact switch next := by
  cases edgeInterrupt_cases handled with
  | door =>
      have kept : (device.timers.request capacity .proximityDetector).1.uses switch.timer
          switch.stopped = device.timers.uses switch.timer switch.stopped :=
        TimerTask.uses_request (by cases switch <;> decide)
      cases switch <;> exact kept.trans exact
  | ignored => exact exact
  | refused => exact exact
  | @started own still room =>
      by_cases same : own = switch
      · subst same
        have none : device.timers.uses own.timer own.stopped = 0 := by
          rw [exact, still]
          rfl
        have more := @TimerTask.uses_started _ _ _ _ capacity device.timers own.timer own.stopped
          room
        rw [none] at more
        cases own <;> exact more
      · have kept : (device.timers.request capacity own.timer).1.uses switch.timer
            switch.stopped = device.timers.uses switch.timer switch.stopped :=
          TimerTask.uses_request (by cases own <;> cases switch <;> simp_all [LockSwitch.timer])
        cases own <;> cases switch <;> first | exact absurd rfl same | exact kept.trans exact

/-- One event keeps the flag and the clearings that are to come in step. -/
theorem exact_step (exact : Exact switch device)
    (stepped : deviceStep capacity device event = .ok next) : Exact switch next := by
  cases event with
  | keypad key =>
      cases keypadInterrupt_cases stepped with
      | bounced => exact exact
      | @taken keypad call takes =>
          rw [Exact, flag_afterPasscode, uses_afterPasscode (by cases switch <;> decide)
            (by cases switch <;> decide) (by cases switch <;> decide)]
          have kept : (device.timers.request capacity .debounce).1.uses switch.timer
              switch.stopped = device.timers.uses switch.timer switch.stopped :=
            TimerTask.uses_request (by cases switch <;> decide)
          cases switch <;> exact kept.trans exact
  | edge pin =>
      obtain same := Except.ok.inj stepped
      apply exact_edge _ same
      cases switch <;> exact exact
  | command =>
      obtain rfl := Except.ok.inj stepped
      have kept := TimerTask.uses_takeCommand exact.once
      cases switch <;> exact kept.trans exact
  | expired timer =>
      obtain rfl := Except.ok.inj stepped
      have kept := TimerTask.uses_expire exact.once (stopped_once switch)
        (stopped_elsewhere switch timer)
      cases switch <;> exact kept.trans exact
  | statement =>
      simp only [deviceStep] at stepped
      split at stepped
      · obtain rfl := Except.ok.inj stepped
        exact exact
      · rename_i statement rest running
        obtain rfl := Except.ok.inj stepped
        have flag := flag_execute switch device statement
        by_cases own : statement = switch.stopped
        · subst own
          have fewer := @TimerTask.uses_advance_self _ _ _ _ _ switch.timer _ _ running
          have once := exact.once
          rw [if_pos rfl] at flag
          have none : device.timers.advance.uses switch.timer switch.stopped = 0 := by omega
          cases switch <;> simp_all [Exact, LockSwitch.flag]
        · have kept : device.timers.advance.uses switch.timer switch.stopped =
              device.timers.uses switch.timer switch.stopped := by
            apply TimerTask.uses_advance
            rw [running]
            exact fun same => own (Option.some.inj same)
          rw [if_neg own] at flag
          cases switch <;> exact (kept.trans exact).trans (congrArg Bool.toNat flag.symm)
  | changePasscode passcodeTemp argsLen args =>
      obtain ⟨_, -, same⟩ := bind_eq_ok.mp stepped
      obtain rfl := Except.ok.inj same
      cases switch <;> exact exact

/-- In every state of every run the flag of a switch is set exactly while the end of its timer is
still to come, whether timers could be started or not: no switch is deaf forever, and none is
debounced twice. -/
theorem switch_exact (capacity : Nat) (switch : LockSwitch) (inputs : InputPin → Bool)
    (smartLock : SmartLock) (events : List DeviceEvent) :
    Throughout (deviceStep capacity) (initLock inputs smartLock)
      (fun device => device.timers.uses switch.timer switch.stopped =
        (switch.flag device).toNat) events := by
  have free : Along (deviceStep capacity) (initLock inputs smartLock) (fun _ _ _ => True) events :=
    fun _ _ _ _ _ _ => trivial
  refine throughout_of_along (Exact switch) ?_ ?_ free
  · cases switch <;> rfl
  · exact fun _ _ _ _ exact _ stepped => exact_step exact stepped

end Switches

/-! ### The keypad -/

section Listening

variable {capacity : Nat} {device next : Device} {event : DeviceEvent} {timer : LockTimer}
  {statement : Statement}

/-- Whether the keypad takes presses for bounces of the last one. -/
def bouncing (device : Device) : Bool := device.smartLock.keypad.isDebounceTimerRunning

/-- The end of the debounce timer is still to come. -/
def DebounceDue (device : Device) : Prop := device.timers.Due .debounce .debounceTimerStopped

/-- The keypad is not deaf without the end of its timer still to come. -/
def Listens (device : Device) : Prop := bouncing device = true → DebounceDue device

/-- A press is taken while there is no room for the command to start the timer. -/
def Deafens (capacity : Nat) (device : Device) : DeviceEvent → Prop
  | .keypad key => ∃ keypad call, Takes device key keypad call ∧
      ¬ device.timers.commands.length < capacity
  | _ => False

/-- The LEDs and the motor are no part of the lock's own state. -/
@[simp] theorem smartLock_afterPasscode (call : Option PasscodeCall) :
    (afterPasscode capacity device call).smartLock = device.smartLock := by
  cases call with
  | none => rfl
  | some call =>
      cases correct : call.correct <;>
        simp [afterPasscode, correct, passcodeWrong, passcodeCorrect, rotateMotorClockwise,
          Device.startTimer, Device.setLevel]

/-- The debounce flag is cleared by the statement that clears it, and by no other. -/
theorem bouncing_execute (device : Device) (statement : Statement) :
    bouncing (execute device statement) =
      if statement = .debounceTimerStopped then false else bouncing device := by
  cases statement with
  | lockStateIfLow value => cases output : device.output <;> simp [execute, output, bouncing]
  | _ => simp [execute, Device.setLevel, bouncing]

/-- No other callback clears the debounce flag. -/
theorem debounce_elsewhere (other : LockTimer) (different : other ≠ .debounce) :
    (callback other).count .debounceTimerStopped = 0 := by
  cases other <;> simp_all [callback]

/-- An edge leaves the keypad and the lock as they are. -/
theorem smartLock_edge {pin : InputPin} (handled : edgeInterrupt capacity device pin = next) :
    next.smartLock = device.smartLock := by
  cases edgeInterrupt_cases handled with
  | door => rfl
  | ignored => rfl
  | refused => rfl
  | @started switch => cases switch <;> rfl

/-- An edge starts no timer but its own. -/
theorem uses_edge {pin : InputPin} (notOpen : .openSwitch ≠ timer) (notClosed : .closedSwitch ≠ timer)
    (notDoor : .proximityDetector ≠ timer) (handled : edgeInterrupt capacity device pin = next) :
    next.timers.uses timer statement = device.timers.uses timer statement := by
  cases edgeInterrupt_cases handled with
  | door => exact TimerTask.uses_request notDoor
  | ignored => rfl
  | refused => rfl
  | @started switch =>
      have kept : (device.timers.request capacity switch.timer).1.uses timer statement =
          device.timers.uses timer statement :=
        TimerTask.uses_request (by cases switch <;> assumption)
      cases switch <;> exact kept

/-- While the flag is clear, no end of the timer is still to come. -/
def DebounceBounded (device : Device) : Prop :=
  device.timers.uses .debounce .debounceTimerStopped ≤ (bouncing device).toNat

/-- After one event the end of the debounce timer is still to come once at most. -/
theorem debounceBounded_step (bounded : DebounceBounded device)
    (stepped : deviceStep capacity device event = .ok next) : DebounceBounded next := by
  have once : device.timers.uses .debounce .debounceTimerStopped ≤ 1 :=
    Nat.le_trans bounded (Bool.toNat_le _)
  cases event with
  | keypad key =>
      cases keypadInterrupt_cases stepped with
      | bounced => exact bounded
      | @taken keypad call takes =>
          rw [DebounceBounded, bouncing, smartLock_afterPasscode, uses_afterPasscode (by decide)
            (by decide) (by decide)]
          have flag : (pressed capacity device keypad call).smartLock.keypad.isDebounceTimerRunning =
              true := takes.flag
          rw [flag]
          rw [DebounceBounded, bouncing, takes.1] at bounded
          change (device.timers.request capacity .debounce).1.uses _ _ ≤ 1
          by_cases room : device.timers.commands.length < capacity
          · rw [TimerTask.uses_started room]
            exact Nat.succ_le_succ bounded
          · rw [TimerTask.request_failed room]
            exact once
  | edge pin =>
      obtain same := Except.ok.inj stepped
      rw [DebounceBounded, bouncing, smartLock_edge same,
        uses_edge (by decide) (by decide) (by decide) same]
      exact bounded
  | command =>
      obtain rfl := Except.ok.inj stepped
      exact Nat.le_trans (Nat.le_of_eq (TimerTask.uses_takeCommand once)) bounded
  | expired timer =>
      obtain rfl := Except.ok.inj stepped
      have kept := TimerTask.uses_expire once (by decide) (debounce_elsewhere timer)
      exact Nat.le_trans (Nat.le_of_eq kept) bounded
  | statement =>
      simp only [deviceStep] at stepped
      split at stepped
      · obtain rfl := Except.ok.inj stepped
        exact bounded
      · rename_i statement rest running
        obtain rfl := Except.ok.inj stepped
        change device.timers.advance.uses _ _ ≤ (bouncing (execute device statement)).toNat
        rw [bouncing_execute]
        split
        · rename_i own
          rw [own] at running
          have fewer := @TimerTask.uses_advance_self _ _ _ _ _ .debounce _ _ running
          rw [Bool.toNat_false]
          omega
        · rename_i other
          rw [TimerTask.uses_advance (by rw [running]; exact fun same => other (Option.some.inj same))]
          exact bounded
  | changePasscode passcodeTemp argsLen args =>
      obtain ⟨_, -, same⟩ := bind_eq_ok.mp stepped
      obtain rfl := Except.ok.inj same
      exact bounded

/-- An event that does not lose the debounce timer's start leaves a keypad that listens. -/
theorem listens_step (listens : Listens device) (careful : ¬ Deafens capacity device event)
    (stepped : deviceStep capacity device event = .ok next) : Listens next := by
  intro on
  cases event with
  | keypad key =>
      cases keypadInterrupt_cases stepped with
      | bounced => exact listens on
      | @taken keypad call takes =>
          have room : device.timers.commands.length < capacity := by
            by_contra full
            exact careful ⟨keypad, call, takes, full⟩
          have started : DebounceDue (pressed capacity device keypad call) :=
            TimerTask.due_request_iff.mpr (.inr ⟨rfl, room⟩)
          rw [DebounceDue, ← TimerTask.uses_pos] at started ⊢
          rwa [uses_afterPasscode (by decide) (by decide) (by decide)]
  | edge pin =>
      obtain same := Except.ok.inj stepped
      rw [bouncing, smartLock_edge same] at on
      rw [← same]
      have due : DebounceDue
          { device with inputs := Function.update device.inputs pin (!device.inputs pin) } :=
        listens on
      exact due_edgeInterrupt due capacity pin
  | command =>
      obtain rfl := Except.ok.inj stepped
      exact (listens on).takeCommand
  | expired timer =>
      obtain rfl := Except.ok.inj stepped
      exact (listens on).expire (by decide)
  | statement =>
      simp only [deviceStep] at stepped
      split at stepped
      · obtain rfl := Except.ok.inj stepped
        exact listens on
      · rename_i statement rest running
        obtain rfl := Except.ok.inj stepped
        have flag : bouncing (execute device statement) = true := on
        rw [bouncing_execute] at flag
        split at flag
        · cases flag
        · rename_i other
          apply (listens flag).advance
          rw [running]
          exact fun same => other (Option.some.inj same)
  | changePasscode passcodeTemp argsLen args =>
      obtain ⟨_, -, same⟩ := bind_eq_ok.mp stepped
      obtain rfl := Except.ok.inj same
      exact listens on

/-- A press whose timer does not start leaves the keypad deaf. -/
theorem deafened_step (bounded : DebounceBounded device)
    (deafens : Deafens capacity device event) :
    ∃ next, deviceStep capacity device event = .ok next ∧ ¬ Listens next := by
  cases event with
  | keypad key =>
      obtain ⟨keypad, call, takes, full⟩ := deafens
      refine ⟨_, keypadInterrupt_taken takes, fun listens => ?_⟩
      have due := listens (by rw [bouncing, smartLock_afterPasscode]; exact takes.flag)
      rw [DebounceDue, ← TimerTask.uses_pos,
        uses_afterPasscode (by decide) (by decide) (by decide)] at due
      change 0 < (device.timers.request capacity .debounce).1.uses _ _ at due
      rw [TimerTask.request_failed full] at due
      rw [DebounceBounded, bouncing, takes.1] at bounded
      exact absurd due (not_lt.mpr bounded)
  | _ => cases deafens

/-- In every state of a run the keypad will listen again, exactly if every press that is taken finds
room for the command to start the debounce timer. -/
theorem keypad_attended_iff (capacity : Nat) (inputs : InputPin → Bool) (smartLock : SmartLock)
    (still : smartLock.keypad.isDebounceTimerRunning = false) (events : List DeviceEvent) :
    Throughout (deviceStep capacity) (initLock inputs smartLock) Listens events ↔
      Along (deviceStep capacity) (initLock inputs smartLock)
        (fun _ device event => ¬ Deafens capacity device event) events := by
  apply throughout_iff_along DebounceBounded
  · exact Nat.zero_le _
  · intro on
    rw [bouncing, initLock, still] at on
    cases on
  · exact fun _ _ _ bounded stepped => debounceBounded_step bounded stepped
  · exact fun _ _ _ _ listens careful stepped => listens_step listens careful stepped
  · exact fun _ _ bounded _ deafens => deafened_step bounded (not_not.mp deafens)

/-- The presses of the key 1, each with its timer's end behind it. -/
def slowPresses (count : Nat) : List DeviceEvent :=
  (List.replicate count
    [.keypad ⟨1, true, false, false⟩, .command, .expired .debounce, .statement]).flatten

/-- A keypad that is used slowly listens again after each press. -/
theorem keypad_attended_slowly :
    Throughout (deviceStep 10) (initLock (fun _ => true) KeypadTyping.newLock) Listens
        (slowPresses 2) ↔
      Along (deviceStep 10) (initLock (fun _ => true) KeypadTyping.newLock)
        (fun _ device event => ¬ Deafens 10 device event) (slowPresses 2) :=
  keypad_attended_iff 10 (fun _ => true) KeypadTyping.newLock rfl (slowPresses 2)

/-- Nothing that happens makes a deaf keypad listen again. -/
theorem deaf_step (deaf : bouncing device = true ∧ ¬ DebounceDue device)
    (stepped : deviceStep capacity device event = .ok next) :
    (bouncing next = true ∧ ¬ DebounceDue next) ∧
      next.smartLock.keypad = device.smartLock.keypad ∧
      next.smartLock.calls = device.smartLock.calls := by
  obtain ⟨on, notDue⟩ := deaf
  cases event with
  | keypad key =>
      cases keypadInterrupt_cases stepped with
      | bounced => exact ⟨⟨on, notDue⟩, rfl, rfl⟩
      | taken takes =>
          rw [bouncing, takes.1] at on
          cases on
  | edge pin =>
      obtain same := Except.ok.inj stepped
      have kept := @uses_edge _ _ _ .debounce .debounceTimerStopped _ (by decide) (by decide)
        (by decide) same
      rw [bouncing, smartLock_edge same]
      refine ⟨⟨on, ?_⟩, rfl, rfl⟩
      rw [DebounceDue, ← TimerTask.uses_pos] at notDue ⊢
      rwa [kept]
  | command =>
      obtain rfl := Except.ok.inj stepped
      exact ⟨⟨on, fun due => notDue (TimerTask.due_of_takeCommand due)⟩, rfl, rfl⟩
  | expired timer =>
      obtain rfl := Except.ok.inj stepped
      refine ⟨⟨on, fun due => notDue (TimerTask.due_of_expire ?_ due)⟩, rfl, rfl⟩
      intro different
      exact List.count_eq_zero.mp (debounce_elsewhere timer different)
  | statement =>
      simp only [deviceStep] at stepped
      split at stepped
      · obtain rfl := Except.ok.inj stepped
        exact ⟨⟨on, notDue⟩, rfl, rfl⟩
      · rename_i statement rest running
        obtain rfl := Except.ok.inj stepped
        have other : statement ≠ .debounceTimerStopped := by
          rintro rfl
          apply notDue
          right
          right
          rw [running]
          exact List.mem_cons_self
        have same : (execute device statement).smartLock.keypad = device.smartLock.keypad ∧
            (execute device statement).smartLock.calls = device.smartLock.calls := by
          cases statement with
          | debounceTimerStopped => exact absurd rfl other
          | lockStateIfLow value => cases output : device.output <;> simp [execute, output]
          | _ => simp [execute, Device.setLevel]
        refine ⟨⟨?_, fun due => notDue (TimerTask.due_of_advance due)⟩, same⟩
        change (execute device statement).smartLock.keypad.isDebounceTimerRunning = true
        rw [same.1]
        exact on
  | changePasscode passcodeTemp argsLen args =>
      obtain ⟨_, -, same⟩ := bind_eq_ok.mp stepped
      obtain rfl := Except.ok.inj same
      exact ⟨⟨on, notDue⟩, rfl, rfl⟩

/-- A keypad whose flag is set without the end of its timer still to come takes no press any more,
whatever happens: its buffer stays as it is, and no passcode is compared. -/
theorem keypad_dead (capacity : Nat) (deaf : bouncing device = true) (lost : ¬ DebounceDue device)
    (events : List DeviceEvent) :
    Throughout (deviceStep capacity) device
      (fun reached => reached.smartLock.keypad = device.smartLock.keypad ∧
        reached.smartLock.calls = device.smartLock.calls) events := by
  have free : Along (deviceStep capacity) device (fun _ _ _ => True) events :=
    fun _ _ _ _ _ _ => trivial
  have both : Throughout (deviceStep capacity) device
      (fun reached => (bouncing reached = true ∧ ¬ DebounceDue reached) ∧
        reached.smartLock.keypad = device.smartLock.keypad ∧
        reached.smartLock.calls = device.smartLock.calls) events := by
    refine throughout_of_along (fun reached => (bouncing reached = true ∧ ¬ DebounceDue reached) ∧
      reached.smartLock.keypad = device.smartLock.keypad ∧
      reached.smartLock.calls = device.smartLock.calls) ⟨⟨deaf, lost⟩, rfl, rfl⟩ ?_ free
    rintro _ reached event next ⟨still, keypad, calls⟩ - stepped
    obtain ⟨stillNext, keypadNext, callsNext⟩ := deaf_step still stepped
    exact ⟨stillNext, keypadNext.trans keypad, callsNext.trans calls⟩
  intro before rest split reached ran
  exact (both before rest split reached ran).2

/-- Ten edges of the door's sensor while the timer task waits, and then a press. -/
def deafening : List DeviceEvent :=
  List.replicate 10 (.edge .proximitySensor) ++ [.keypad ⟨1, true, false, false⟩]

/-- The keypad is dead behind a press that finds the queue of a real device full. -/
theorem keypad_dead_deafened :
    ∃ device, runFrom (deviceStep 10) (initLock (fun _ => true) KeypadTyping.newLock) deafening =
        .ok device ∧
      Throughout (deviceStep 10) device
        (fun reached => reached.smartLock.keypad = device.smartLock.keypad ∧
          reached.smartLock.calls = device.smartLock.calls) (.command :: slowPresses 5) := by
  refine ⟨_, rfl, keypad_dead 10 rfl ?_ (.command :: slowPresses 5)⟩
  rw [DebounceDue, ← TimerTask.uses_pos]
  decide

end Listening

end RentMate.LockTimers
