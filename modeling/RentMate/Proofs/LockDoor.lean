/-
Module: RentMate.Proofs.LockDoor
Purpose: The door's state of a smart lock against its sensor, over all runs of the device, with edges
  of the sensor between the two statements that read it and store what was read.
Trusted boundary: none
Main exports: settledDoor, DoorFollows, MissesEdge, door_follows_iff
-/
import RentMate.Proofs.LockTimers

namespace RentMate.LockTimers

open RentMate.Machine
open RentMate.NodeClient

/-! ### Where a callback can be -/

/-- The timer task is in one of the callbacks. -/
def InCallback (device : Device) : Prop := ∃ timer, device.timers.running <:+ callback timer

section Callbacks

variable {capacity : Nat} {device next : Device} {event : DeviceEvent} {statement : Statement}
  {rest : List Statement}

/-- A call of the passcode handler does not touch the running callback. -/
theorem running_afterPasscode (call : Option PasscodeCall) :
    (afterPasscode capacity device call).timers.running = device.timers.running := by
  cases call with
  | none => rfl
  | some call =>
      cases correct : call.correct <;>
        simp [afterPasscode, correct, passcodeWrong, passcodeCorrect, rotateMotorClockwise,
          Device.startTimer, Device.setLevel, TimerTask.running_request]

/-- An interrupt does not touch the running callback. -/
theorem running_edge {pin : InputPin} (handled : edgeInterrupt capacity device pin = next) :
    next.timers.running = device.timers.running := by
  cases edgeInterrupt_cases handled with
  | door => exact TimerTask.running_request
  | ignored => rfl
  | refused => rfl
  | @started switch =>
      have kept : (device.timers.request capacity switch.timer).1.running =
          device.timers.running := TimerTask.running_request
      cases switch <;> exact kept

/-- A step stays within one callback. -/
theorem inCallback_step (inside : InCallback device)
    (stepped : deviceStep capacity device event = .ok next) : InCallback next := by
  obtain ⟨timer, suffix⟩ := inside
  cases event with
  | keypad key =>
      cases keypadInterrupt_cases stepped with
      | bounced => exact ⟨timer, suffix⟩
      | @taken keypad call takes =>
          refine ⟨timer, ?_⟩
          rw [running_afterPasscode]
          exact (TimerTask.running_request).symm ▸ suffix
  | edge pin =>
      refine ⟨timer, ?_⟩
      rw [running_edge (Except.ok.inj stepped)]
      exact suffix
  | command =>
      obtain rfl := Except.ok.inj stepped
      refine ⟨timer, ?_⟩
      rw [TimerTask.running_takeCommand]
      exact suffix
  | expired other =>
      obtain rfl := Except.ok.inj stepped
      rcases TimerTask.running_expire callback device.timers other with same | begun
      · exact ⟨timer, by rw [same]; exact suffix⟩
      · exact ⟨other, begun.2.symm ▸ List.suffix_rfl⟩
  | statement =>
      simp only [deviceStep] at stepped
      split at stepped
      · obtain rfl := Except.ok.inj stepped
        exact ⟨timer, suffix⟩
      · obtain rfl := Except.ok.inj stepped
        exact ⟨timer, (List.tail_suffix _).trans suffix⟩
  | changePasscode passcodeTemp argsLen args =>
      obtain ⟨_, -, same⟩ := bind_eq_ok.mp stepped
      obtain rfl := Except.ok.inj same
      exact ⟨timer, suffix⟩

/-- The two statements of the sensor's callback, and no others, stand where they stand in it. -/
theorem doorCallback_order (inside : InCallback device)
    (running : device.timers.running = statement :: rest) :
    (statement = .doorState → rest = []) ∧
      (statement = .getLevel .proximitySensor → rest = [.doorState]) ∧
      (rest = [.doorState] → statement = .getLevel .proximitySensor) := by
  obtain ⟨timer, suffix⟩ := inside
  rw [running] at suffix
  cases timer <;> simp [callback, List.suffix_cons_iff] at suffix <;> grind

end Callbacks

/-! ### The door's state -/

/-- What the door's state is once a callback that has read the sensor has stored it. -/
def settledDoor (device : Device) : UInt8 :=
  if device.timers.running = [.doorState] then levelValue device.output
  else device.smartLock.lock.currentDoorState

/-- The sensor is still to be read. -/
def SensorDue (device : Device) : Prop :=
  device.timers.Due .proximityDetector (.getLevel .proximitySensor)

/-- The door's state is the sensor's level, or the sensor is still to be read. A value that the
callback has read and not stored yet counts as the door's state already: until the callback goes on,
the variable itself may hold an older one. -/
def DoorFollows (device : Device) : Prop :=
  settledDoor device = levelValue (device.inputs .proximitySensor) ∨ SensorDue device

/-- The sensor changes while there is no room for the command to start its timer, and it is not to
be read anyway. -/
def MissesEdge (capacity : Nat) (device : Device) : DeviceEvent → Prop
  | .edge .proximitySensor =>
      ¬ device.timers.commands.length < capacity ∧ ¬ SensorDue device
  | _ => False

section Door

variable {capacity : Nat} {device next : Device} {event : DeviceEvent} {statement : Statement}
  {rest : List Statement}

/-- The settled state depends on the running callback, the output and the stored state alone. -/
theorem settledDoor_congr (running : next.timers.running = device.timers.running)
    (output : next.output = device.output)
    (door : next.smartLock.lock.currentDoorState = device.smartLock.lock.currentDoorState) :
    settledDoor next = settledDoor device := by
  rw [settledDoor, settledDoor, running, output, door]

/-- The door is followed as long as the settled state and the sensor stay, and nothing that is due
is lost. -/
theorem DoorFollows.congr (follows : DoorFollows device)
    (settled : settledDoor next = settledDoor device)
    (inputs : next.inputs .proximitySensor = device.inputs .proximitySensor)
    (due : SensorDue device → SensorDue next) : DoorFollows next := by
  rw [DoorFollows, settled, inputs]
  exact follows.imp_right due

/-- Outside the store of the door the settled state is the stored one. -/
theorem settledDoor_other (different : device.timers.running ≠ [.doorState]) :
    settledDoor device = device.smartLock.lock.currentDoorState :=
  if_neg different

/-- A call of the passcode handler reads no sensor and reports nothing. -/
theorem afterPasscode_kept (call : Option PasscodeCall) :
    (afterPasscode capacity device call).inputs = device.inputs ∧
      (afterPasscode capacity device call).output = device.output := by
  cases call with
  | none => exact ⟨rfl, rfl⟩
  | some call =>
      cases correct : call.correct <;>
        simp [afterPasscode, correct, passcodeWrong, passcodeCorrect, rotateMotorClockwise,
          Device.startTimer, Device.setLevel]

/-- An interrupt reads no sensor level and reports nothing. -/
theorem edge_kept {pin : InputPin} (handled : edgeInterrupt capacity device pin = next) :
    next.inputs = device.inputs ∧ next.output = device.output := by
  cases edgeInterrupt_cases handled with
  | door => exact ⟨rfl, rfl⟩
  | ignored => exact ⟨rfl, rfl⟩
  | refused => exact ⟨rfl, rfl⟩
  | @started switch => cases switch <;> exact ⟨rfl, rfl⟩

/-- Changing the passcode does not touch the state of the door. -/
theorem changePasscode_door {lock changed : LockState} {passcodeTemp : Block maxPasswordLen}
    {args : Bytes} {argsLen : UInt32} {returned : Int}
    (ran : changePasscode lock passcodeTemp args argsLen = .ok (returned, changed)) :
    changed.currentDoorState = lock.currentDoorState := by
  rw [changePasscode] at ran
  obtain ⟨letters, -, ran⟩ := bind_eq_ok.mp ran
  split at ran
  · obtain ⟨-, rfl⟩ := Prod.mk.inj (Except.ok.inj ran)
    rfl
  · obtain ⟨converted, -, ran⟩ := bind_eq_ok.mp ran
    cases converted with
    | none =>
        obtain ⟨-, rfl⟩ := Prod.mk.inj (Except.ok.inj ran)
        rfl
    | some passcode =>
        obtain ⟨stored, set, ran⟩ := bind_eq_ok.mp ran
        obtain ⟨-, rfl⟩ := Prod.mk.inj (Except.ok.inj ran)
        rw [setPasscode] at set
        obtain ⟨_, -, set⟩ := bind_eq_ok.mp set
        obtain ⟨_, -, set⟩ := bind_eq_ok.mp set
        obtain ⟨_, -, set⟩ := bind_eq_ok.mp set
        rw [← Except.ok.inj set]

/-- A statement of the sensor's callback brings the sensor's level one step closer to the door's
state, and any other leaves both alone. -/
theorem follows_statement (inside : InCallback device) (follows : DoorFollows device)
    (running : device.timers.running = statement :: rest) :
    DoorFollows { execute device statement with timers := device.timers.advance } := by
  obtain ⟨last, reading, before⟩ := doorCallback_order inside running
  have behind : device.timers.advance.running = rest := by
    rw [TimerTask.advance, running]
    rfl
  by_cases stores : statement = .doorState
  · obtain rfl := stores
    obtain rfl := last rfl
    have settled : settledDoor device = levelValue device.output := if_pos running
    rcases follows with same | due
    · left
      rw [settledDoor_other (by rw [behind]; decide)]
      exact settled.symm.trans same
    · right
      apply TimerTask.Due.advance due
      rw [running]
      decide
  · by_cases reads : statement = .getLevel .proximitySensor
    · obtain rfl := reads
      left
      rw [settledDoor, if_pos (by rw [behind]; exact reading rfl)]
      rfl
    · have door : (execute device statement).smartLock.lock.currentDoorState =
          device.smartLock.lock.currentDoorState := by
        cases statement with
        | doorState => exact absurd rfl stores
        | lockStateIfLow value => cases output : device.output <;> simp [execute, output]
        | _ => simp [execute, Device.setLevel]
      have inputs : (execute device statement).inputs = device.inputs := by
        cases statement with
        | lockStateIfLow value => cases output : device.output <;> simp [execute, output]
        | _ => simp [execute, Device.setLevel]
      apply follows.congr
      · rw [settledDoor_other (by rw [behind]; exact fun same => reads (before same)),
          settledDoor_other]
        · exact door
        · rw [running]
          exact fun same => stores (List.cons.inj same).1
      · exact congrFun inputs _
      · intro due
        apply TimerTask.Due.advance due
        rw [running]
        exact fun same => reads (Option.some.inj same)

/-- Every step but a missed edge follows the door. -/
theorem follows_step (inside : InCallback device) (follows : DoorFollows device)
    (careful : ¬ MissesEdge capacity device event)
    (stepped : deviceStep capacity device event = .ok next) : DoorFollows next := by
  cases event with
  | keypad key =>
      cases keypadInterrupt_cases stepped with
      | bounced => exact follows
      | @taken keypad call takes =>
          obtain ⟨inputs, output⟩ := @afterPasscode_kept capacity
            (pressed capacity device keypad call) call
          apply follows.congr
          · apply settledDoor_congr
            · rw [running_afterPasscode]
              exact TimerTask.running_request
            · exact output
            · rw [smartLock_afterPasscode]
              rfl
          · exact congrFun inputs _
          · intro due
            rw [SensorDue, ← TimerTask.uses_pos,
              uses_afterPasscode (by decide) (by decide) (by decide), TimerTask.uses_pos]
            exact due.request capacity .debounce
  | edge pin =>
      obtain handled := Except.ok.inj stepped
      obtain ⟨inputs, output⟩ := edge_kept handled
      by_cases sensor : pin = .proximitySensor
      · obtain rfl := sensor
        right
        by_cases due : SensorDue device
        · rw [← handled]
          exact TimerTask.Due.request due capacity .proximityDetector
        · have room : device.timers.commands.length < capacity := by
            by_contra full
            exact careful ⟨full, due⟩
          rw [← handled]
          exact TimerTask.due_request_iff.mpr (.inr ⟨rfl, room⟩)
      · have running := running_edge handled
        have smartLock := smartLock_edge handled
        apply follows.congr
        · apply settledDoor_congr
          · exact running
          · exact output
          · rw [smartLock]
        · rw [inputs]
          exact Function.update_of_ne (Ne.symm sensor) _ _
        · intro due
          rw [← handled]
          apply due_edgeInterrupt
          exact due
  | command =>
      obtain rfl := Except.ok.inj stepped
      refine follows.congr ?_ ?_ TimerTask.Due.takeCommand
      · exact settledDoor_congr TimerTask.running_takeCommand rfl rfl
      · rfl
  | expired timer =>
      obtain rfl := Except.ok.inj stepped
      refine follows.congr ?_ ?_ (fun due => TimerTask.Due.expire due (by decide))
      · rcases TimerTask.running_expire callback device.timers timer with same | ⟨idle, begun⟩
        · exact settledDoor_congr same rfl rfl
        · rw [settledDoor_other, settledDoor_other]
          · rw [idle]
            decide
          · rw [begun]
            cases timer <;> decide
      · rfl
  | statement =>
      simp only [deviceStep] at stepped
      split at stepped
      · obtain rfl := Except.ok.inj stepped
        exact follows
      · rename_i running
        obtain rfl := Except.ok.inj stepped
        exact follows_statement inside follows running
  | changePasscode passcodeTemp argsLen args =>
      obtain ⟨⟨returned, changed⟩, ran, same⟩ := bind_eq_ok.mp stepped
      obtain rfl := Except.ok.inj same
      refine follows.congr ?_ ?_ id
      · exact settledDoor_congr rfl rfl (changePasscode_door ran)
      · rfl

/-- The two levels have different values. -/
theorem levelValue_not (level : Bool) : levelValue (!level) ≠ levelValue level := by
  cases level <;> decide

/-- A missed edge is possible, and the door is then not followed. -/
theorem missed_step (follows : DoorFollows device) (misses : MissesEdge capacity device event) :
    ∃ next, deviceStep capacity device event = .ok next ∧ ¬ DoorFollows next := by
  cases event with
  | edge pin =>
      cases pin with
      | proximitySensor =>
          obtain ⟨full, notDue⟩ := misses
          refine ⟨_, rfl, ?_⟩
          have settled := follows.resolve_right notDue
          have unchanged : (device.timers.request capacity .proximityDetector).1 = device.timers := by
            rw [TimerTask.request_failed full]
          rintro (same | due)
          · apply levelValue_not (device.inputs .proximitySensor)
            rw [← settled]
            change settledDoor { device with
              inputs := _, timers := (device.timers.request capacity .proximityDetector).1 } =
                levelValue (Function.update device.inputs .proximitySensor
                  (!device.inputs .proximitySensor) .proximitySensor) at same
            rw [unchanged, Function.update_self] at same
            exact same.symm
          · apply notDue
            rw [SensorDue, ← unchanged]
            exact due
      | _ => cases misses
  | _ => cases misses

/-- In every state of a run the door's state is the sensor's level or the sensor is still to be
read, exactly if the sensor reads what the door's state says when the device is switched on, and
none of its edges finds the queue of commands full while it is not to be read anyway. -/
theorem door_follows_iff (capacity : Nat) (inputs : InputPin → Bool) (smartLock : SmartLock)
    (events : List DeviceEvent) :
    Throughout (deviceStep capacity) (initLock inputs smartLock) DoorFollows events ↔
      smartLock.lock.currentDoorState = levelValue (inputs .proximitySensor) ∧
        Along (deviceStep capacity) (initLock inputs smartLock)
          (fun _ device event => ¬ MissesEdge capacity device event) events := by
  have start : DoorFollows (initLock inputs smartLock) ↔
      smartLock.lock.currentDoorState = levelValue (inputs .proximitySensor) := by
    constructor
    · intro follows
      exact follows.resolve_right TimerTask.not_due_idle
    · exact .inl
  have along : DoorFollows (initLock inputs smartLock) →
      (Throughout (deviceStep capacity) (initLock inputs smartLock) DoorFollows events ↔
        Along (deviceStep capacity) (initLock inputs smartLock)
          (fun _ device event => ¬ MissesEdge capacity device event) events) := by
    intro begun
    apply throughout_iff_along InCallback _ begun
    · exact fun _ _ _ inside stepped => inCallback_step inside stepped
    · exact fun _ _ _ inside follows careful stepped => follows_step inside follows careful stepped
    · exact fun _ _ _ follows misses => missed_step follows (not_not.mp misses)
    · exact ⟨.debounce, List.nil_suffix⟩
  constructor
  · intro throughout
    have begun := throughout [] events rfl (initLock inputs smartLock) rfl
    exact ⟨start.mp begun, (along begun).mp throughout⟩
  · rintro ⟨reads, careful⟩
    exact (along (start.mpr reads)).mpr careful

end Door

end RentMate.LockTimers
