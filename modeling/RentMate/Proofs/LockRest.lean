/-
Module: RentMate.Proofs.LockRest
Purpose: The device of a smart lock once it is left alone: its timer task comes to rest, and then
  every output is off, every input is listened to again and the door's state is the sensor's,
  exactly in the runs that start so and in which no start of a timer is lost.
Trusted boundary: none
Main exports: Works, TaskRun, task_runs_end, Lasting, AtRest, Careless, rests_iff
-/
import RentMate.Proofs.LockDoor
import RentMate.Proofs.LockMotor

namespace RentMate.LockTimers

open RentMate.Machine
open RentMate.NodeClient

/-! ### The timer task alone -/

/-- What the timer task can do next. When a timer expires is left open. -/
def Works (device : Device) : DeviceEvent → Prop
  | .command => device.timers.running = [] ∧ device.timers.commands ≠ []
  | .expired timer => device.timers.running = [] ∧ timer ∈ device.timers.active
  | .statement => device.timers.running ≠ []
  | _ => False

/-- A run of the timer task alone. -/
inductive TaskRun (capacity : Nat) : Device → List DeviceEvent → Device → Prop where
  | here (device : Device) : TaskRun capacity device [] device
  | next {device next final : Device} {event : DeviceEvent} {tasks : List DeviceEvent}
      (works : Works device event) (stepped : deviceStep capacity device event = .ok next)
      (behind : TaskRun capacity next tasks final) : TaskRun capacity device (event :: tasks) final

section Ending

variable {capacity : Nat} {device next final : Device} {event : DeviceEvent}
  {tasks : List DeviceEvent}

/-- No callback of the lock has more than three statements. -/
theorem callback_short (timer : LockTimer) : (callback timer).length ≤ 3 := by
  cases timer <;> decide

/-- Every step of the timer task is defined and leaves less to be done. -/
theorem works_step (capacity : Nat) (works : Works device event) :
    ∃ next, deviceStep capacity device event = .ok next ∧
      next.timers.work 3 < device.timers.work 3 := by
  cases event with
  | command =>
      obtain ⟨running, waiting⟩ := works
      obtain ⟨timer, rest, commands⟩ := List.exists_cons_of_ne_nil waiting
      exact ⟨_, rfl, TimerTask.work_takeCommand running commands⟩
  | expired timer =>
      obtain ⟨running, active⟩ := works
      exact ⟨_, rfl, TimerTask.work_expire running active (callback_short timer)⟩
  | statement =>
      obtain ⟨statement, rest, running⟩ := List.exists_cons_of_ne_nil works
      refine ⟨{ execute device statement with timers := device.timers.advance }, ?_,
        TimerTask.work_advance works⟩
      simp only [deviceStep, running, pure_eq_ok]
  | _ => cases works

/-- The timers are quiet exactly if no event of the task can happen. -/
theorem quiet_iff : device.timers.Quiet ↔ ∀ event, ¬ Works device event := by
  constructor
  · rintro ⟨commands, active, running⟩ event works
    cases event with
    | command => exact works.2 commands
    | expired timer =>
        obtain ⟨-, inside⟩ := works
        rw [active] at inside
        cases inside
    | statement => exact works running
    | _ => cases works
  · intro idle
    have running : device.timers.running = [] := not_not.mp (idle .statement)
    refine ⟨?_, ?_, running⟩
    · by_contra waiting
      exact idle .command ⟨running, waiting⟩
    · rw [List.eq_nil_iff_forall_not_mem]
      exact fun timer active => idle (.expired timer) ⟨running, active⟩

/-- A run of the task is no longer than the work that it gets through. -/
theorem TaskRun.length (run : TaskRun capacity device tasks final) :
    tasks.length + final.timers.work 3 ≤ device.timers.work 3 := by
  induction run with
  | here device => rw [List.length_nil, Nat.zero_add]
  | next works stepped behind ih =>
      obtain ⟨reached, same, less⟩ := works_step capacity works
      obtain rfl := Except.ok.inj (stepped.symm.trans same)
      rw [List.length_cons]
      omega

/-- The task can always come to rest. -/
theorem exists_rest (capacity : Nat) (device : Device) :
    ∃ tasks final, TaskRun capacity device tasks final ∧ final.timers.Quiet := by
  induction bound : device.timers.work 3 using Nat.strong_induction_on generalizing device with
  | _ bound ih =>
      by_cases idle : ∀ event, ¬ Works device event
      · exact ⟨[], device, .here device, quiet_iff.mpr idle⟩
      · simp only [not_forall, not_not] at idle
        obtain ⟨event, works⟩ := idle
        obtain ⟨next, stepped, less⟩ := works_step capacity works
        rw [bound] at less
        obtain ⟨tasks, final, behind, quiet⟩ := ih _ less next rfl
        exact ⟨event :: tasks, final, .next works stepped behind, quiet⟩

/-- Whatever state the device is left in, its timer task comes to rest, in whatever order the timers
expire and the commands are taken: no run of it is longer than what is still to be done, and it
cannot stop before there is nothing. -/
theorem task_runs_end (capacity : Nat) (device : Device) :
    (∃ tasks final, TaskRun capacity device tasks final ∧ final.timers.Quiet) ∧
      ∀ tasks final, TaskRun capacity device tasks final →
        tasks.length ≤ device.timers.work 3 ∧
          (¬ final.timers.Quiet →
            ∃ event next, Works final event ∧ deviceStep capacity final event = .ok next) := by
  refine ⟨exists_rest capacity device, fun tasks final run => ⟨?_, fun busy => ?_⟩⟩
  · exact Nat.le_trans (Nat.le_add_right _ _) run.length
  · rw [quiet_iff] at busy
    simp only [not_forall, not_not] at busy
    obtain ⟨event, works⟩ := busy
    obtain ⟨next, stepped, -⟩ := works_step capacity works
    exact ⟨event, next, works, stepped⟩

end Ending

/-! ### What lasts until a callback ends it -/

/-- Something that an interrupt turns on, and that one statement of a callback turns off. The timer
task turns it off by no other statement and never turns it on. -/
structure Lasting where
  lasts : Device → Bool
  stop : Statement
  owner : LockTimer
  owned : stop ∈ callback owner
  executed : ∀ device statement,
    lasts (execute device statement) = if statement = stop then false else lasts device
  kept : ∀ device timers, lasts { device with timers := timers } = lasts device

namespace Lasting

/-- It is not on without the statement that turns it off. -/
def Attended (lasting : Lasting) (device : Device) : Prop :=
  lasting.lasts device = true → device.timers.Pending callback lasting.stop

def output (output : TimedOutput) : Lasting where
  lasts device := device.levels output.pin
  stop := .clearLevel output.pin
  owner := output.timer
  owned := clear_mem_callback output
  executed device statement := levels_execute device statement output.pin
  kept _ _ := rfl

def activeBuzzer : Lasting where
  lasts device := device.levels .activeBuzzer
  stop := .clearLevel .activeBuzzer
  owner := .goodLed
  owned := by decide
  executed device statement := levels_execute device statement .activeBuzzer
  kept _ _ := rfl

def motorStatus : Lasting where
  lasts device := device.motorStatus != 0
  stop := .motorStopped
  owner := .motorTimeout
  owned := by decide
  executed device statement := by
    cases statement with
    | lockStateIfLow value => cases output : device.output <;> simp [execute, output]
    | _ => simp [execute, Device.setLevel]
  kept _ _ := rfl

def debounce : Lasting where
  lasts := bouncing
  stop := .debounceTimerStopped
  owner := .debounce
  owned := by decide
  executed := bouncing_execute
  kept _ _ := rfl

variable {capacity : Nat} {device next : Device} {event : DeviceEvent} {timed : TimedOutput}

/-- The timer task neither forgets to turn it off nor makes up for a start that was lost. -/
theorem attended_task_iff (lasting : Lasting) (works : Works device event)
    (stepped : deviceStep capacity device event = .ok next) :
    lasting.Attended next ↔ lasting.Attended device := by
  cases event with
  | command =>
      obtain rfl := Except.ok.inj stepped
      rw [Attended, Attended, lasting.kept, TimerTask.pending_takeCommand_iff lasting.owned]
  | expired timer =>
      obtain rfl := Except.ok.inj stepped
      rw [Attended, Attended, lasting.kept, TimerTask.pending_expire_iff lasting.owned]
  | statement =>
      obtain ⟨statement, rest, running⟩ := List.exists_cons_of_ne_nil works
      simp only [deviceStep, running, pure_eq_ok] at stepped
      obtain rfl := Except.ok.inj stepped
      rw [Attended, Attended, lasting.kept, lasting.executed]
      by_cases stops : statement = lasting.stop
      · rw [if_pos stops]
        constructor
        · rintro - -
          right
          rw [running, stops]
          exact List.mem_cons_self
        · intro _ on
          cases on
      · rw [if_neg stops, TimerTask.pending_advance_iff lasting.owned]
        rw [running]
        exact fun same => stops (Option.some.inj same)
  | _ => cases works

/-- Once the timers are quiet, a lasting output is attended to exactly if it is off. -/
theorem attended_quiet_iff (lasting : Lasting) (quiet : device.timers.Quiet) :
    lasting.Attended device ↔ lasting.lasts device = false := by
  rw [Attended, imp_iff_not quiet.not_pending, Bool.not_eq_true]

/-- The attention that the outputs ask for, as a lasting effect. -/
theorem output_attended : (output timed).Attended device ↔ LockTimers.Attended timed device := by
  apply imp_congr_right
  intro _
  apply TimerTask.pending_iff_due
  intro other
  cases timed <;> cases other <;> decide

/-- The attention that the keypad asks for, as a lasting effect. -/
theorem debounce_attended : debounce.Attended device ↔ Listens device := by
  apply imp_congr_right
  intro _
  apply TimerTask.pending_iff_due
  intro other
  cases other <;> decide

end Lasting

/-! ### The door -/

section Door

variable {capacity : Nat} {device next : Device} {event : DeviceEvent} {statement : Statement}
  {rest : List Statement}

/-- A reading of the sensor that is lost is not made up for by the other callbacks. -/
theorem follows_of_statement (inside : InCallback device)
    (running : device.timers.running = statement :: rest)
    (follows : DoorFollows { execute device statement with timers := device.timers.advance }) :
    DoorFollows device := by
  obtain ⟨last, -, before⟩ := doorCallback_order inside running
  have behind : device.timers.advance.running = rest := by
    rw [TimerTask.advance, running]
    rfl
  by_cases reads : statement = .getLevel .proximitySensor
  · right
    right
    right
    rw [running, reads]
    exact List.mem_cons_self
  · have inputs : (execute device statement).inputs = device.inputs := by
      cases statement with
      | lockStateIfLow value => cases output : device.output <;> simp [execute, output]
      | _ => simp [execute, Device.setLevel]
    have settled : settledDoor { execute device statement with timers := device.timers.advance } =
        settledDoor device := by
      rw [settledDoor_other (by rw [behind]; exact fun same => reads (before same))]
      by_cases stores : statement = .doorState
      · obtain rfl := stores
        obtain rfl := last rfl
        rw [settledDoor, if_pos running]
        rfl
      · rw [settledDoor_other]
        · cases statement with
          | doorState => exact absurd rfl stores
          | lockStateIfLow value => cases output : device.output <;> simp [execute, output]
          | _ => simp [execute, Device.setLevel]
        · rw [running]
          exact fun same => stores (List.cons.inj same).1
    exact DoorFollows.congr follows settled.symm (congrFun inputs.symm _) TimerTask.due_of_advance

/-- The task neither loses nor regains the door. -/
theorem follows_task_iff (inside : InCallback device) (works : Works device event)
    (stepped : deviceStep capacity device event = .ok next) :
    DoorFollows next ↔ DoorFollows device := by
  have careful : ¬ MissesEdge capacity device event := by
    cases event with
    | edge pin => cases works
    | _ => exact id
  refine ⟨fun follows => ?_, fun follows => follows_step inside follows careful stepped⟩
  cases event with
  | command =>
      obtain rfl := Except.ok.inj stepped
      refine DoorFollows.congr follows ?_ rfl TimerTask.due_of_takeCommand
      exact settledDoor_congr TimerTask.running_takeCommand.symm rfl rfl
  | expired timer =>
      obtain rfl := Except.ok.inj stepped
      refine DoorFollows.congr follows ?_ rfl (TimerTask.due_of_expire ?_)
      · rcases TimerTask.running_expire callback device.timers timer with same | ⟨idle, begun⟩
        · exact settledDoor_congr same.symm rfl rfl
        · rw [settledDoor_other, settledDoor_other]
          · rw [begun]
            cases timer <;> decide
          · rw [idle]
            decide
      · intro different
        cases timer with
        | proximityDetector => exact absurd rfl different
        | _ => decide
  | statement =>
      obtain ⟨statement, rest, running⟩ := List.exists_cons_of_ne_nil works
      simp only [deviceStep, running, pure_eq_ok] at stepped
      obtain rfl := Except.ok.inj stepped
      exact follows_of_statement inside running follows
  | _ => cases works

end Door

/-! ### The device at rest -/

/-- Every output is off, every input is listened to, and the door's state is the sensor's. -/
structure AtRest (device : Device) : Prop where
  outputs : ∀ pin, device.levels pin = false
  motor : device.motorStatus = 0
  openSwitch : device.isOpenSwitchTimerRunning = false
  closedSwitch : device.isClosedSwitchTimerRunning = false
  keypad : device.smartLock.keypad.isDebounceTimerRunning = false
  door : device.smartLock.lock.currentDoorState = levelValue (device.inputs .proximitySensor)

/-- What every run keeps. -/
structure Sound (device : Device) : Prop where
  inside : InCallback device
  bounded : DebounceBounded device
  clockwise : Clockwise device
  switches : ∀ switch, Exact switch device

/-- What is on will be turned off, and the door's state will be the sensor's. -/
structure Attentive (device : Device) : Prop where
  outputs : ∀ output, Attended output device
  activeBuzzer : Lasting.activeBuzzer.Attended device
  motorStatus : Lasting.motorStatus.Attended device
  keypad : Listens device
  door : DoorFollows device

/-- The start of a timer is lost that nothing makes up for. -/
def Careless (capacity : Nat) (device : Device) (event : DeviceEvent) : Prop :=
  (∃ output, Neglects capacity output device event) ∨ Deafens capacity device event ∨
    MissesEdge capacity device event

section Rest

variable {capacity : Nat} {device next final : Device} {event : DeviceEvent}
  {tasks : List DeviceEvent}

/-- The lock is sound when it has been initialised. -/
theorem sound_initLock (inputs : InputPin → Bool) (smartLock : SmartLock) :
    Sound (initLock inputs smartLock) where
  inside := ⟨.debounce, List.nil_suffix⟩
  bounded := Nat.zero_le _
  clockwise := ⟨rfl, .inl rfl⟩
  switches switch := by cases switch <;> rfl

/-- A step keeps the lock sound. -/
theorem Sound.step (sound : Sound device)
    (stepped : deviceStep capacity device event = .ok next) : Sound next where
  inside := inCallback_step sound.inside stepped
  bounded := debounceBounded_step sound.bounded stepped
  clockwise := clockwise_step sound.clockwise stepped
  switches switch := exact_step (sound.switches switch) stepped

/-- At rest means that nothing is left to be turned off. -/
theorem atRest_iff (sound : Sound device) (quiet : device.timers.Quiet) :
    AtRest device ↔ Attentive device := by
  have running : device.timers.running ≠ [.doorState] := by
    rw [quiet.2.2]
    decide
  have lasting : ∀ lasting : Lasting, lasting.Attended device ↔ lasting.lasts device = false :=
    fun lasting => lasting.attended_quiet_iff quiet
  constructor
  · rintro ⟨outputs, motor, -, -, keypad, door⟩
    exact {
      outputs := fun output =>
        Lasting.output_attended.mp ((lasting (.output output)).mpr (outputs output.pin))
      activeBuzzer := (lasting .activeBuzzer).mpr (outputs .activeBuzzer)
      motorStatus := (lasting .motorStatus).mpr (by simp [Lasting.motorStatus, motor])
      keypad := Lasting.debounce_attended.mp ((lasting .debounce).mpr keypad)
      door := .inl ((settledDoor_other running).trans door) }
  · rintro ⟨outputs, activeBuzzer, motorStatus, keypad, door⟩
    have off : ∀ output : TimedOutput, device.levels output.pin = false := fun output =>
      (lasting (.output output)).mp (Lasting.output_attended.mpr (outputs output))
    have still : ∀ switch : LockSwitch, switch.flag device = false := by
      intro switch
      have exact : Exact switch device := sound.switches switch
      have none : ¬ 0 < device.timers.uses switch.timer switch.stopped := by
        rw [TimerTask.uses_pos]
        exact quiet.not_due
      rw [Exact] at exact
      cases flag : switch.flag device with
      | false => rfl
      | true =>
          rw [flag] at exact
          exact absurd (by rw [exact]; decide) none
    exact {
      outputs := by
        intro pin
        cases pin with
        | badStatusLed => exact off .badStatusLed
        | goodStatusLed => exact off .goodStatusLed
        | activeBuzzer => exact (lasting .activeBuzzer).mp activeBuzzer
        | motorDriverIn1 => exact off .motorDriver
        | motorDriverIn2 => exact sound.clockwise.forward
      motor := by simpa [Lasting.motorStatus] using (lasting .motorStatus).mp motorStatus
      openSwitch := still .lockOpen
      closedSwitch := still .lockClosed
      keypad := (lasting .debounce).mp (Lasting.debounce_attended.mpr keypad)
      door := (settledDoor_other running).symm.trans (door.resolve_right quiet.not_due) }

/-- The task neither loses nor regains attention. -/
theorem attentive_task_iff (sound : Sound device) (works : Works device event)
    (stepped : deviceStep capacity device event = .ok next) :
    Attentive next ↔ Attentive device := by
  have lasting : ∀ lasting : Lasting, lasting.Attended next ↔ lasting.Attended device :=
    fun lasting => lasting.attended_task_iff works stepped
  have outputs : ∀ output, Attended output next ↔ Attended output device := by
    intro output
    rw [← Lasting.output_attended, ← Lasting.output_attended]
    exact lasting (.output output)
  have keypad : Listens next ↔ Listens device := by
    rw [← Lasting.debounce_attended, ← Lasting.debounce_attended]
    exact lasting .debounce
  have door := follows_task_iff sound.inside works stepped
  constructor
  · rintro ⟨outputsNext, buzzerNext, motorNext, keypadNext, doorNext⟩
    exact ⟨fun output => (outputs output).mp (outputsNext output), (lasting _).mp buzzerNext,
      (lasting _).mp motorNext, keypad.mp keypadNext, door.mp doorNext⟩
  · rintro ⟨outputsHere, buzzerHere, motorHere, keypadHere, doorHere⟩
    exact ⟨fun output => (outputs output).mpr (outputsHere output), (lasting _).mpr buzzerHere,
      (lasting _).mpr motorHere, keypad.mpr keypadHere, door.mpr doorHere⟩

/-- Whether the device comes to rest is decided when it is left alone. -/
theorem TaskRun.atRest_iff (sound : Sound device) (run : TaskRun capacity device tasks final)
    (quiet : final.timers.Quiet) : AtRest final ↔ Attentive device := by
  induction run with
  | here device => exact LockTimers.atRest_iff sound quiet
  | next works stepped behind ih =>
      exact (ih (sound.step stepped) quiet).trans (attentive_task_iff sound works stepped)

/-- The lock comes to rest as it should on every way exactly if it is attentive. -/
theorem rests_attentive (sound : Sound device) :
    (∀ tasks final, TaskRun capacity device tasks final → final.timers.Quiet → AtRest final) ↔
      Attentive device := by
  constructor
  · intro rests
    obtain ⟨tasks, final, run, quiet⟩ := exists_rest capacity device
    exact (run.atRest_iff sound quiet).mp (rests tasks final run quiet)
  · exact fun attentive tasks final run quiet => (run.atRest_iff sound quiet).mpr attentive

/-! ### Whole runs -/

/-- Interrupts lose no statement that is still to come. -/
theorem pending_afterPasscode {statement : Statement}
    (pending : device.timers.Pending callback statement) (call : Option PasscodeCall) :
    (afterPasscode capacity device call).timers.Pending callback statement := by
  cases call with
  | none => exact pending
  | some call =>
      cases correct : call.correct with
      | false =>
          simp only [afterPasscode, correct, passcodeWrong, Device.startTimer, Device.setLevel]
          exact pending.request capacity .badLed
      | true =>
          simp only [afterPasscode, correct, passcodeCorrect, rotateMotorClockwise,
            Device.startTimer, Device.setLevel, if_true]
          exact (pending.request capacity .goodLed).request capacity .motorTimeout

/-- An interrupt takes nothing away that is pending. -/
theorem pending_edge {statement : Statement} {pin : InputPin}
    (pending : device.timers.Pending callback statement)
    (handled : edgeInterrupt capacity device pin = next) :
    next.timers.Pending callback statement := by
  cases edgeInterrupt_cases handled with
  | door => exact pending.request capacity .proximityDetector
  | ignored => exact pending
  | refused => exact pending
  | @started switch =>
      have requested := pending.request capacity switch.timer
      cases switch <;> exact requested

/-- The callback that turns an LED off turns the buzzer off behind it. -/
theorem buzzer_behind_led (inside : InCallback device) {timed : TimedOutput}
    (led : timed ≠ .motorDriver) (due : timed.Due device) :
    device.timers.Pending callback (.clearLevel .activeBuzzer) := by
  have owned : Statement.clearLevel .activeBuzzer ∈ callback timed.timer := by
    cases timed with
    | motorDriver => exact absurd rfl led
    | _ => decide
  rcases due with waiting | active | running
  · exact .inl ⟨timed.timer, owned, .inl waiting⟩
  · exact .inl ⟨timed.timer, owned, .inr active⟩
  · right
    obtain ⟨timer, suffix⟩ := inside
    cases timed with
    | motorDriver => exact absurd rfl led
    | _ => cases timer <;> simp_all [callback, List.suffix_cons_iff, TimedOutput.pin] <;> grind

/-- The callback that turns the motor off clears its status behind it. -/
theorem status_behind_motor (inside : InCallback device) (due : TimedOutput.motorDriver.Due device) :
    device.timers.Pending callback .motorStopped := by
  rcases due with waiting | active | running
  · exact .inl ⟨.motorTimeout, by decide, .inl waiting⟩
  · exact .inl ⟨.motorTimeout, by decide, .inr active⟩
  · right
    obtain ⟨timer, suffix⟩ := inside
    cases timer <;> simp_all [callback, List.suffix_cons_iff, TimedOutput.pin] <;> grind

/-- The timer task stays where it is if it is asked for a step that it cannot take. -/
theorem deviceStep_idle (works : ¬ Works device event)
    (task : event = .command ∨ (∃ timer, event = .expired timer) ∨ event = .statement)
    (stepped : deviceStep capacity device event = .ok next) : next = device := by
  rcases task with rfl | ⟨timer, rfl⟩ | rfl
  · obtain rfl := Except.ok.inj stepped
    have same : device.timers.takeCommand = device.timers := by
      rw [TimerTask.takeCommand]
      split
      · rename_i running commands
        exact absurd ⟨running, by rw [commands]; simp⟩ works
      · rfl
    rw [same]
  · obtain rfl := Except.ok.inj stepped
    have same : device.timers.expire callback timer = device.timers := by
      rw [TimerTask.expire]
      split
      · rename_i running
        exact if_neg fun active => works ⟨running, active⟩
      · rfl
    rw [same]
  · have running : device.timers.running = [] := not_not.mp works
    simp only [deviceStep, running] at stepped
    exact (Except.ok.inj stepped).symm

/-- Of what shows on the pins and in the motor's status, only a passcode turns anything on. -/
theorem Lasting.attended_step (lasting : Lasting)
    (shown : ∀ {first second : Device}, first.levels = second.levels →
      first.motorStatus = second.motorStatus → lasting.lasts first = lasting.lasts second)
    (attended : lasting.Attended device)
    (entered : ∀ key keypad call, event = .keypad key → Takes device key keypad (some call) →
      next = afterPasscode capacity (pressed capacity device keypad (some call)) (some call) →
        lasting.Attended next)
    (stepped : deviceStep capacity device event = .ok next) : lasting.Attended next := by
  have task : (event = .command ∨ (∃ timer, event = .expired timer) ∨ event = .statement) →
      lasting.Attended next := by
    intro task
    by_cases works : Works device event
    · exact (lasting.attended_task_iff works stepped).mpr attended
    · rw [deviceStep_idle works task stepped]
      exact attended
  cases event with
  | keypad key =>
      cases keypadInterrupt_cases stepped with
      | bounced => exact attended
      | @taken keypad call takes =>
          cases call with
          | none =>
              intro on
              have before : lasting.lasts device = true := by
                rw [← on]
                exact shown rfl rfl
              exact (attended before).request capacity .debounce
          | some call => exact entered key keypad call rfl takes rfl
  | edge pin =>
      have handled := Except.ok.inj stepped
      intro on
      have levels := levels_edgeInterrupt capacity
        { device with inputs := Function.update device.inputs pin (!device.inputs pin) } pin
      rw [handled] at levels
      have before : lasting.lasts device = true := by
        rw [← on]
        exact shown levels.symm (motorStatus_edge handled).symm
      have pending : Device.timers
          { device with inputs := Function.update device.inputs pin (!device.inputs pin) }
          |>.Pending callback lasting.stop := attended before
      exact pending_edge pending handled
  | command => exact task (.inl rfl)
  | expired timer => exact task (.inr (.inl ⟨timer, rfl⟩))
  | statement => exact task (.inr (.inr rfl))
  | changePasscode passcodeTemp argsLen args =>
      obtain ⟨_, -, same⟩ := bind_eq_ok.mp stepped
      obtain rfl := Except.ok.inj same
      intro on
      apply attended
      rw [← on]
      exact shown rfl rfl

/-- An output that a passcode turns on has its timer, unless the passcode neglects it. -/
theorem due_of_careful {key : KeyInterrupt} {keypad : Keypad} {call : PasscodeCall}
    (careful : ∀ output, ¬ Neglects capacity output device (.keypad key))
    (takes : Takes device key keypad (some call)) (timed : TimedOutput)
    (matching : call.correct = timed.correct) :
    timed.Due (afterPasscode capacity (pressed capacity device keypad (some call)) (some call)) := by
  rw [due_afterPasscode_iff]
  by_contra lost
  rw [not_or, not_and] at lost
  exact careful timed ⟨keypad, call, takes, matching, lost.2 matching, lost.1⟩

/-- A careful step keeps the lock attentive. -/
theorem attentive_step (sound : Sound device) (attentive : Attentive device)
    (careful : ¬ Careless capacity device event)
    (stepped : deviceStep capacity device event = .ok next) : Attentive next := by
  rw [Careless, not_or, not_or, not_exists] at careful
  obtain ⟨attends, hears, reads⟩ := careful
  have soundNext := sound.step stepped
  exact {
    outputs := fun output => attended_step (attentive.outputs output) (attends output) stepped
    activeBuzzer := by
      apply Lasting.attended_step _ _ attentive.activeBuzzer _ stepped
      · intro first second levels _
        exact congrFun levels .activeBuzzer
      · rintro key keypad call rfl takes rfl _
        cases correct : call.correct with
        | true =>
            exact buzzer_behind_led soundNext.inside (fun same => by cases same)
              (due_of_careful attends takes .goodStatusLed correct)
        | false =>
            exact buzzer_behind_led soundNext.inside (fun same => by cases same)
              (due_of_careful attends takes .badStatusLed correct)
    motorStatus := by
      apply Lasting.attended_step _ _ attentive.motorStatus _ stepped
      · intro first second _ motorStatus
        exact congrArg (· != 0) motorStatus
      · rintro key keypad call rfl takes rfl on
        cases correct : call.correct with
        | true =>
            exact status_behind_motor soundNext.inside
              (due_of_careful attends takes .motorDriver correct)
        | false =>
            have before : Lasting.motorStatus.lasts device = true := by
              simpa [Lasting.motorStatus, afterPasscode, correct, passcodeWrong, pressed,
                Device.startTimer, Device.setLevel] using on
            apply pending_afterPasscode
            exact (attentive.motorStatus before).request capacity .debounce
    keypad := listens_step attentive.keypad hears stepped
    door := follows_step sound.inside attentive.door reads stepped }

/-- A careless step is possible, and leaves the lock inattentive. -/
theorem careless_step (sound : Sound device) (attentive : Attentive device)
    (careless : Careless capacity device event) :
    ∃ next, deviceStep capacity device event = .ok next ∧ ¬ Attentive next := by
  rcases careless with ⟨output, neglects⟩ | deafens | misses
  · obtain ⟨next, stepped, lost⟩ := neglected_step neglects
    exact ⟨next, stepped, fun attentive => lost (attentive.outputs output)⟩
  · obtain ⟨next, stepped, lost⟩ := deafened_step sound.bounded deafens
    exact ⟨next, stepped, fun attentive => lost attentive.keypad⟩
  · obtain ⟨next, stepped, lost⟩ := missed_step attentive.door misses
    exact ⟨next, stepped, fun attentive => lost attentive.door⟩

/-- When the initialised lock is attentive. -/
theorem attentive_initLock_iff (inputs : InputPin → Bool) (smartLock : SmartLock) :
    Attentive (initLock inputs smartLock) ↔
      smartLock.keypad.isDebounceTimerRunning = false ∧
        smartLock.lock.currentDoorState = levelValue (inputs .proximitySensor) := by
  rw [← atRest_iff (sound_initLock inputs smartLock) ⟨rfl, rfl, rfl⟩]
  constructor
  · exact fun rest => ⟨rest.keypad, rest.door⟩
  · exact fun ⟨keypad, door⟩ => ⟨fun _ => rfl, rfl, rfl, rfl, keypad, door⟩

/-- From every state of a run the timer task, left alone, brings the device to rest in whatever
order it works, exactly if the device is switched on at rest and no interrupt loses the start of a
timer that nothing makes up for. -/
theorem rests_iff (capacity : Nat) (inputs : InputPin → Bool) (smartLock : SmartLock)
    (events : List DeviceEvent) :
    Throughout (deviceStep capacity) (initLock inputs smartLock)
        (fun device => ∀ tasks final, TaskRun capacity device tasks final →
          final.timers.Quiet → AtRest final) events ↔
      (smartLock.keypad.isDebounceTimerRunning = false ∧
        smartLock.lock.currentDoorState = levelValue (inputs .proximitySensor)) ∧
        Along (deviceStep capacity) (initLock inputs smartLock)
          (fun _ device event => ¬ Careless capacity device event) events := by
  have free : Along (deviceStep capacity) (initLock inputs smartLock) (fun _ _ _ => True) events :=
    fun _ _ _ _ _ _ => trivial
  have sound : Throughout (deviceStep capacity) (initLock inputs smartLock) Sound events :=
    throughout_of_along Sound (sound_initLock inputs smartLock)
      (fun _ _ _ _ sound _ stepped => sound.step stepped) free
  have attentive : Throughout (deviceStep capacity) (initLock inputs smartLock)
        (fun device => ∀ tasks final, TaskRun capacity device tasks final →
          final.timers.Quiet → AtRest final) events ↔
      Throughout (deviceStep capacity) (initLock inputs smartLock) Attentive events := by
    constructor
    · intro rests before rest split reached ran
      exact (rests_attentive (sound before rest split reached ran)).mp
        (rests before rest split reached ran)
    · intro attentive before rest split reached ran
      exact (rests_attentive (sound before rest split reached ran)).mpr
        (attentive before rest split reached ran)
  have along : Attentive (initLock inputs smartLock) →
      (Throughout (deviceStep capacity) (initLock inputs smartLock) Attentive events ↔
        Along (deviceStep capacity) (initLock inputs smartLock)
          (fun _ device event => ¬ Careless capacity device event) events) := by
    intro begun
    apply throughout_iff_along Sound (sound_initLock inputs smartLock) begun
    · exact fun _ _ _ sound stepped => sound.step stepped
    · exact fun _ _ _ sound attentive careful stepped =>
        attentive_step sound attentive careful stepped
    · exact fun _ _ sound attentive careless =>
        careless_step sound attentive (not_not.mp careless)
  rw [attentive, ← attentive_initLock_iff]
  constructor
  · intro throughout
    have begun := throughout [] events rfl (initLock inputs smartLock) rfl
    exact ⟨begun, (along begun).mp throughout⟩
  · rintro ⟨begun, careful⟩
    exact (along begun).mpr careful

end Rest

end RentMate.LockTimers
