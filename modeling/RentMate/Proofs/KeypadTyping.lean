/-
Module: RentMate.Proofs.KeypadTyping
Purpose: The keypad of a lock against a line editor: what it enters as a passcode, and when the
  passcode is correct, whatever is pressed and whatever passcodes are set in between.
Trusted boundary: none
Main exports: Typing, Simulates, simulates_after, submits_typed, KeypadKey, after_pressedAll
-/
import RentMate.Machine.LineEditor
import RentMate.Machine.Run
import RentMate.NodeClient.Keypad
import RentMate.Proofs.PasscodeReport

namespace RentMate.KeypadTyping

open RentMate.Machine
open RentMate.Machine.LineEditor
open RentMate.NodeClient
open RentMate.PasscodeReport (Passcode digitsOf length_digitsOf withPasscode changePasscode_eq
  toNat_passcodeLen)

/-! ### What is typed -/

/-- The key that a value of the keypad stands for. -/
def keyOf (value : UInt8) : Press UInt8 :=
  if value = 20 then .ignored
  else if value = 10 then .delete
  else if value = 11 then .submit
  else .letter value

/-- A lock as its user sees it: whether a press would be taken for a bounce of the last one, the
presses since the last passcode was entered, the passcode, and what has been entered. -/
structure Typing where
  bouncing : Bool
  since : List (Press UInt8)
  passcode : Bytes
  calls : List PasscodeCall

/-- The passcode that the lock compares with. -/
def storedPasscode (lock : LockState) : Bytes :=
  lock.currentPasscode.take lock.currentPasscodeLen.toNat

/-- A new passcode is what the lock compares with then. -/
theorem storedPasscode_withPasscode {lock : LockState} {letters : Bytes}
    (valid : Passcode letters) (memory : maxPasswordLen ≤ lock.currentPasscode.length) :
    storedPasscode (withPasscode lock letters) = digitsOf letters := by
  have short := valid.short
  have all : 0 + (digitsOf letters).length ≤ lock.currentPasscode.length := by
    rw [length_digitsOf]
    omega
  rw [storedPasscode, withPasscode, toNat_passcodeLen short, ← length_digitsOf letters, splice,
    List.take_zero, List.nil_append]
  exact List.take_left

/-- Nothing has been typed yet. -/
def begin (lock : LockState) (bouncing : Bool) : Typing :=
  { bouncing := bouncing
    since := []
    passcode := storedPasscode lock
    calls := [] }

/-- One press. What has been typed is entered at a submit, and at a digit that there is no room
for. -/
def Typing.press (typing : Typing) (key : Press UInt8) : Typing :=
  { typing with
    since := LineEditor.press maxPasswordLen typing.since key
    calls :=
      if HandsOver maxPasswordLen typing.since key then
        typing.calls ++
          [{ digits := typed typing.since, correct := typed typing.since = typing.passcode }]
      else typing.calls }

/-- One event. -/
def Typing.after (typing : Typing) : LockEvent → Typing
  | .interrupt key =>
      if typing.bouncing then typing
      else
        { typing.press (keyOf (keyVal key.rowNum (finalColVal key))) with bouncing := true }
  | .debounceTimerCallback => { typing with bouncing := false }
  | .changePasscode _ _ args =>
      if Passcode args.bytes then { typing with passcode := digitsOf args.bytes } else typing

/-! ### The simulation -/

/-- The keypad and the lock hold what has been typed and the passcode, whatever lies behind them
in the two arrays. -/
structure Simulates (smartLock : SmartLock) (typing : Typing) : Prop where
  bouncing : smartLock.keypad.isDebounceTimerRunning = typing.bouncing
  length : smartLock.keypad.passwordCurrentLength.toNat = (typed typing.since).length
  room : (typed typing.since).length ≤ maxPasswordLen
  buffer : typed typing.since <+: smartLock.keypad.passwordBuffer.bytes
  memory : maxPasswordLen ≤ smartLock.lock.currentPasscode.length
  passcodeLen : smartLock.lock.currentPasscodeLen.toNat = typing.passcode.length
  short : typing.passcode.length ≤ maxPasswordLen
  passcode : typing.passcode <+: smartLock.lock.currentPasscode
  calls : smartLock.calls = typing.calls

section Simulation

variable {smartLock : SmartLock} {typing : Typing} {keypad : Keypad} {value : UInt8}

/-- The lock and the line editor have the same passcode. -/
theorem Simulates.storedPasscode (simulates : Simulates smartLock typing) :
    storedPasscode smartLock.lock = typing.passcode := by
  rw [KeypadTyping.storedPasscode, simulates.passcodeLen,
    ← List.prefix_iff_eq_take.mp simulates.passcode]

/-- The digits in the buffer, as a read of it gives them. -/
theorem Simulates.read_buffer (simulates : Simulates smartLock typing) :
    smartLock.keypad.passwordBuffer.read 0 smartLock.keypad.passwordCurrentLength.toNat =
      .ok (typed typing.since) := by
  have room := simulates.room
  rw [Block.read_ok _ (by rw [simulates.length]; omega), slice, List.drop_zero, simulates.length,
    ← List.prefix_iff_eq_take.mp simulates.buffer]

/-- A passcode that is entered is correct exactly if it is the current one. -/
theorem passcodeEntered_eq (simulates : Simulates smartLock typing) :
    passcodeEntered smartLock.lock smartLock.keypad.passwordBuffer
        smartLock.keypad.passwordCurrentLength =
      .ok (decide (typed typing.since = typing.passcode)) := by
  have room := simulates.room
  have memory := simulates.memory
  have current : readBytes smartLock.lock.currentPasscode 0
      smartLock.keypad.passwordCurrentLength.toNat =
        .ok (smartLock.lock.currentPasscode.take (typed typing.since).length) := by
    rw [readBytes_ok (by rw [simulates.length]; omega), slice, List.drop_zero, simulates.length]
  have same : (smartLock.keypad.passwordCurrentLength = smartLock.lock.currentPasscodeLen ∧
      smartLock.lock.currentPasscode.take (typed typing.since).length = typed typing.since) ↔
        typed typing.since = typing.passcode := by
    rw [← UInt8.toNat_inj, simulates.length, simulates.passcodeLen]
    constructor
    · rintro ⟨lengths, digits⟩
      rw [← digits, lengths, ← List.prefix_iff_eq_take.mp simulates.passcode]
    · intro entered
      rw [entered]
      exact ⟨rfl, (List.prefix_iff_eq_take.mp simulates.passcode).symm⟩
  simp only [passcodeEntered, simulates.read_buffer, current, ok_bind, same, pure_eq_ok]

/-- The buffer is handed over and emptied. -/
theorem submitBuffer_eq (simulates : Simulates smartLock typing) :
    submitBuffer smartLock.lock smartLock.keypad =
      .ok ({ smartLock.keypad with passwordCurrentLength := 0 },
        some
          { digits := typed typing.since
            correct := typed typing.since = typing.passcode }) := by
  simp only [submitBuffer, simulates.read_buffer, passcodeEntered_eq simulates, ok_bind,
    pure_eq_ok]

/-- A hand-over leaves a lock on which nothing has been typed. -/
theorem submitBuffer_simulates (simulates : Simulates smartLock typing) {key : Press UInt8}
    (handsOver : HandsOver maxPasswordLen typing.since key) :
    ∃ keypad call, submitBuffer smartLock.lock smartLock.keypad = .ok (keypad, call) ∧
      Simulates { smartLock with keypad := keypad, calls := smartLock.calls ++ call.toList }
        (typing.press key) := by
  refine ⟨_, _, submitBuffer_eq simulates, ?_⟩
  rw [Typing.press, LineEditor.press, if_pos handsOver, if_pos handsOver]
  exact
    { bouncing := simulates.bouncing
      length := rfl
      room := Nat.zero_le _
      buffer := List.nil_prefix
      memory := simulates.memory
      passcodeLen := simulates.passcodeLen
      short := simulates.short
      passcode := simulates.passcode
      calls := by rw [simulates.calls]; rfl }

/-- A press that is kept leaves a lock on which one more press has been typed, if the buffer holds
what it makes of the digits. -/
theorem kept_simulates (simulates : Simulates smartLock typing) {key : Press UInt8}
    (kept : ¬ HandsOver maxPasswordLen typing.since key)
    (bouncing : keypad.isDebounceTimerRunning = smartLock.keypad.isDebounceTimerRunning)
    (length : keypad.passwordCurrentLength.toNat = (edit (typed typing.since) key).length)
    (buffer : edit (typed typing.since) key <+: keypad.passwordBuffer.bytes) :
    Simulates
      { smartLock with
        keypad := keypad
        calls := smartLock.calls ++ (none : Option PasscodeCall).toList }
      (typing.press key) := by
  have room := length_typed_press simulates.room key
  rw [LineEditor.press, if_neg kept] at room
  rw [Typing.press, LineEditor.press, if_neg kept, if_neg kept]
  rw [typed_snoc] at room
  exact
    { bouncing := bouncing.trans simulates.bouncing
      length := by rw [length, typed_snoc]
      room := by rw [typed_snoc]; exact room
      buffer := by rw [typed_snoc]; exact buffer
      memory := simulates.memory
      passcodeLen := simulates.passcodeLen
      short := simulates.short
      passcode := simulates.passcode
      calls := by rw [Option.toList_none, List.append_nil, simulates.calls] }

/-- The delete key takes the last digit off, if there is one. -/
theorem delete_simulates (simulates : Simulates smartLock typing) :
    ∃ keypad call, sendKey smartLock.lock smartLock.keypad 10 = .ok (keypad, call) ∧
      Simulates { smartLock with keypad := keypad, calls := smartLock.calls ++ call.toList }
        (typing.press .delete) := by
  have length := simulates.length
  have kept : ¬ HandsOver maxPasswordLen typing.since .delete := id
  have key : (10 : UInt8) ≠ 20 := by decide
  have zero : (0 : UInt8).toNat = 0 := rfl
  have shorter : edit (typed typing.since) .delete <+: smartLock.keypad.passwordBuffer.bytes :=
    (List.dropLast_prefix _).trans simulates.buffer
  rw [sendKey, if_pos key, if_pos rfl]
  split
  · rename_i some
    rw [UInt8.lt_iff_toNat_lt, zero] at some
    refine ⟨_, none, rfl, kept_simulates simulates kept rfl ?_ shorter⟩
    have one : (1 : UInt8).toNat = 1 := rfl
    have small := smartLock.keypad.passwordCurrentLength.toNat_lt
    rw [edit, List.length_dropLast, ← length, UInt8.toNat_sub, one]
    omega
  · rename_i empty
    rw [UInt8.lt_iff_toNat_lt, zero] at empty
    refine ⟨_, none, rfl, kept_simulates simulates kept rfl ?_ shorter⟩
    rw [edit, List.length_dropLast, ← length]
    omega

/-- A digit is written behind the others, or has no room and makes the buffer be handed over. -/
theorem letter_simulates (simulates : Simulates smartLock typing)
    (isKey : value ≠ 20) (notDelete : value ≠ 10) (notSubmit : value ≠ 11) :
    ∃ keypad call, sendKey smartLock.lock smartLock.keypad value = .ok (keypad, call) ∧
      Simulates { smartLock with keypad := keypad, calls := smartLock.calls ++ call.toList }
        (typing.press (.letter value)) := by
  have length := simulates.length
  have twelve : maxPasswordLen = 12 := rfl
  rw [sendKey, if_pos isKey, if_neg notDelete, if_neg notSubmit]
  split
  · rename_i fits
    rw [length] at fits
    have kept : ¬ HandsOver maxPasswordLen typing.since (.letter value) := Nat.not_le.mpr fits
    obtain ⟨rest, content⟩ := simulates.buffer
    have whole := smartLock.keypad.passwordBuffer.allocated
    rw [← content, List.length_append] at whole
    obtain ⟨next, behind, rfl⟩ := List.exists_cons_of_length_pos (show 0 < rest.length by omega)
    have place : smartLock.keypad.passwordBuffer.bytes =
        typed typing.since ++ ([next] ++ behind) := content.symm
    obtain ⟨written, wrote, filled⟩ :=
      Block.write_append smartLock.keypad.passwordCurrentLength.toNat place length.symm
        (show [value].length = [next].length from rfl)
    rw [wrote, ok_bind]
    refine ⟨_, none, rfl, kept_simulates simulates kept rfl ?_ ?_⟩
    · have one : (1 : UInt8).toNat = 1 := rfl
      rw [edit, List.length_append, List.length_singleton, UInt8.toNat_add, length, one]
      omega
    · rw [filled, edit, ← List.append_assoc]
      exact List.prefix_append _ _
  · rename_i full
    rw [length] at full
    exact submitBuffer_simulates simulates (Nat.not_lt.mp full)

/-- Every key does to the buffer what it does to the digits that have been typed. -/
theorem sendKey_simulates (simulates : Simulates smartLock typing) (value : UInt8) :
    ∃ keypad call, sendKey smartLock.lock smartLock.keypad value = .ok (keypad, call) ∧
      Simulates { smartLock with keypad := keypad, calls := smartLock.calls ++ call.toList }
        (typing.press (keyOf value)) := by
  by_cases isKey : value = 20
  · subst isKey
    refine ⟨_, none, rfl, ?_⟩
    exact kept_simulates simulates id rfl simulates.length simulates.buffer
  · by_cases isDelete : value = 10
    · subst isDelete
      exact delete_simulates simulates
    · by_cases isSubmit : value = 11
      · subst isSubmit
        exact submitBuffer_simulates simulates trivial
      · rw [keyOf, if_neg isKey, if_neg isDelete, if_neg isSubmit]
        exact letter_simulates simulates isKey isDelete isSubmit

/-- A command that is accepted sets the passcode, and any other leaves it. -/
theorem changePasscode_simulates (simulates : Simulates smartLock typing)
    (passcodeTemp : Block maxPasswordLen) {argsLen : UInt32} (args : Block argsLen.toNat) :
    ∃ returned lock,
      changePasscode smartLock.lock passcodeTemp args.bytes argsLen = .ok (returned, lock) ∧
        Simulates { smartLock with lock := lock }
          (typing.after (.changePasscode passcodeTemp argsLen args)) := by
  rw [Typing.after, changePasscode_eq passcodeTemp args simulates.memory]
  split
  · rename_i valid
    have short : (digitsOf args.bytes).length ≤ maxPasswordLen := by
      rw [length_digitsOf]
      exact valid.short
    have fits : 0 + (digitsOf args.bytes).length ≤ smartLock.lock.currentPasscode.length := by
      have memory := simulates.memory
      omega
    refine ⟨0, _, rfl, ?_⟩
    exact
      { bouncing := simulates.bouncing
        length := simulates.length
        room := simulates.room
        buffer := simulates.buffer
        memory := by rw [withPasscode, length_splice fits]; exact simulates.memory
        passcodeLen := by rw [withPasscode, toNat_passcodeLen valid.short, length_digitsOf]
        short := short
        passcode := by
          rw [withPasscode, splice, List.take_zero, List.nil_append]
          exact List.prefix_append _ _
        calls := simulates.calls }
  · exact ⟨-1, smartLock.lock, rfl, simulates⟩

/-- Every event does to the lock what it does to what the user has typed. -/
theorem simulates_after (simulates : Simulates smartLock typing) (event : LockEvent) :
    ∃ next, smartLockStep smartLock event = .ok next ∧
      Simulates next (typing.after event) := by
  cases event with
  | interrupt key =>
      simp only [smartLockStep, keypadInterruptHandler, Typing.after, simulates.bouncing]
      split
      · refine ⟨smartLock, ?_, simulates⟩
        simp only [pure_eq_ok, ok_bind, Option.toList_none, List.append_nil]
      · rename_i quiet
        have begun : Simulates
            { smartLock with
              keypad := { smartLock.keypad with isDebounceTimerRunning := true } }
            { typing with bouncing := true } :=
          { simulates with bouncing := rfl }
        obtain ⟨keypad, call, sent, simulatesNext⟩ :=
          sendKey_simulates begun (keyVal key.rowNum (finalColVal key))
        exact ⟨_, by rw [sent, ok_bind, pure_eq_ok], simulatesNext⟩
  | debounceTimerCallback => exact ⟨_, rfl, { simulates with bouncing := rfl }⟩
  | changePasscode passcodeTemp argsLen args =>
      obtain ⟨returned, lock, ran, simulatesNext⟩ :=
        changePasscode_simulates simulates passcodeTemp args
      exact ⟨_, by rw [smartLockStep, ran]; rfl, simulatesNext⟩

end Simulation

/-! ### Runs -/

/-- What a lock is switched on with: nothing has been typed and nothing entered, and the array of
twelve digits has a passcode of not more than that. -/
structure SwitchedOn (smartLock : SmartLock) : Prop where
  empty : smartLock.keypad.passwordCurrentLength = 0
  memory : maxPasswordLen ≤ smartLock.lock.currentPasscode.length
  short : smartLock.lock.currentPasscodeLen.toNat ≤ maxPasswordLen
  calls : smartLock.calls = []

/-- What has been typed after some events. -/
def typedAfter (start : SmartLock) (events : List LockEvent) : Typing :=
  events.foldl Typing.after (begin start.lock start.keypad.isDebounceTimerRunning)

section Runs

variable {start : SmartLock}

/-- A lock that has been switched on begins with an empty line. -/
theorem simulates_begin (switchedOn : SwitchedOn start) :
    Simulates start (begin start.lock start.keypad.isDebounceTimerRunning) := by
  have memory := switchedOn.memory
  have short := switchedOn.short
  have length : (storedPasscode start.lock).length = start.lock.currentPasscodeLen.toNat := by
    rw [storedPasscode, List.length_take]
    omega
  exact
    { bouncing := rfl
      length := by rw [switchedOn.empty]; rfl
      room := Nat.zero_le _
      buffer := List.nil_prefix
      memory := memory
      passcodeLen := length.symm
      short := length.trans_le short
      passcode := List.take_prefix _ _
      calls := switchedOn.calls }

/-- Whatever happens to a lock, it holds what has been typed. -/
theorem run_simulates (switchedOn : SwitchedOn start) (events : List LockEvent) :
    ∃ final, runFrom smartLockStep start events = .ok final ∧
      Simulates final (typedAfter start events) := by
  have along : Along smartLockStep start (fun _ _ _ => True) events :=
    fun _ _ _ _ _ _ => trivial
  refine run_invariant (fun before reached => Simulates reached (typedAfter start before))
    (simulates_begin switchedOn) (fun before reached event simulates _ => ?_) along
  obtain ⟨next, stepped, simulatesNext⟩ := simulates_after simulates event
  refine ⟨next, stepped, ?_⟩
  rw [typedAfter, List.foldl_append]
  exact simulatesNext

/-- Whatever is pressed and whatever commands come in between, the keypad holds not more than
twelve digits and enters what has been typed, when a user would expect it, and it is correct
exactly if it is the passcode at that moment. -/
theorem submits_typed (switchedOn : SwitchedOn start) (events : List LockEvent) :
    ∃ final, runFrom smartLockStep start events = .ok final ∧
      final.keypad.passwordCurrentLength.toNat ≤ maxPasswordLen ∧
      final.keypad.passwordBuffer.bytes.take final.keypad.passwordCurrentLength.toNat =
        typed (typedAfter start events).since ∧
      storedPasscode final.lock = (typedAfter start events).passcode ∧
      final.calls = (typedAfter start events).calls := by
  obtain ⟨final, ran, simulates⟩ := run_simulates switchedOn events
  have length := simulates.length
  refine ⟨final, ran, length.trans_le simulates.room, ?_, simulates.storedPasscode,
    simulates.calls⟩
  rw [length, ← List.prefix_iff_eq_take.mp simulates.buffer]

end Runs

/-! ### Keys -/

/-- A key of the keypad. -/
structure KeypadKey where
  row : UInt32
  column : Nat
  rows : 1 ≤ row ∧ row ≤ 4
  columns : 1 ≤ column ∧ column ≤ 3

/-- The value of a key. -/
def KeypadKey.value (key : KeypadKey) : UInt8 := keyVal key.row key.column

/-- A press of a key, and the end of its debounce timer. -/
def pressed (key : KeypadKey) : List LockEvent :=
  [.interrupt
    { rowNum := key.row
      colNum1 := key.column = 1
      colNum2 := key.column = 2
      colNum3 := key.column = 3 },
    .debounceTimerCallback]

/-- The events of the presses of some keys. -/
def pressedAll (keys : List KeypadKey) : List LockEvent := keys.flatMap pressed

section Keys

variable {typing : Typing}

/-- A key is read in the column that it is in. -/
theorem finalColVal_key (key : KeypadKey) :
    finalColVal
      { rowNum := key.row
        colNum1 := key.column = 1
        colNum2 := key.column = 2
        colNum3 := key.column = 3 } = key.column := by
  obtain ⟨row, column, -, first, last⟩ := key
  obtain rfl | rfl | rfl : column = 1 ∨ column = 2 ∨ column = 3 := by
    omega
  · rfl
  · rfl
  · rfl

/-- A debounced press is one press of a key. -/
theorem after_pressed (quiet : typing.bouncing = false) (key : KeypadKey) :
    (pressed key).foldl Typing.after typing = typing.press (keyOf key.value) := by
  obtain ⟨bouncing, since, passcode, calls⟩ := typing
  obtain rfl : bouncing = false := quiet
  simp only [pressed, List.foldl_cons, List.foldl_nil, Typing.after, finalColVal_key]
  rfl

/-- Debounced presses are the presses of their keys, one after the other. -/
theorem after_pressedAll (quiet : typing.bouncing = false) (keys : List KeypadKey) :
    (pressedAll keys).foldl Typing.after typing =
      keys.foldl (fun typing key => typing.press (keyOf key.value)) typing := by
  induction keys generalizing typing with
  | nil => rfl
  | cons key keys ih =>
      rw [pressedAll, List.flatMap_cons, List.foldl_append, after_pressed quiet, List.foldl_cons]
      exact ih quiet

end Keys

/-- The built-in passcode, before anything has been typed. -/
def newLock : SmartLock :=
  { keypad :=
      { isDebounceTimerRunning := false
        passwordBuffer := default
        passwordCurrentLength := 0 }
    lock := PasscodeReport.factoryLock
    calls := [] }

/-- The keys 1, 2, 4, 5, delete, 4 and submit. -/
def correctedKeys : List KeypadKey :=
  [⟨1, 1, by decide, by decide⟩, ⟨1, 2, by decide, by decide⟩, ⟨2, 1, by decide, by decide⟩,
    ⟨2, 2, by decide, by decide⟩, ⟨4, 1, by decide, by decide⟩, ⟨2, 1, by decide, by decide⟩,
    ⟨4, 3, by decide, by decide⟩]

/-- The built-in passcode with a mistake that is corrected, and then a new passcode of one digit
that is compared with nothing. -/
theorem corrected_submitted :
    ∃ final, runFrom smartLockStep newLock
        (pressedAll correctedKeys ++
          [.changePasscode default 1 (Block.fill 1 55)] ++
          pressedAll [⟨4, 2, by decide, by decide⟩]) = .ok final ∧
      final.calls = [⟨[1, 2, 4, 4], true⟩, ⟨[], false⟩] ∧ storedPasscode final.lock = [7] := by
  have switchedOn : SwitchedOn newLock := ⟨rfl, by decide, by decide, rfl⟩
  obtain ⟨final, ran, -, -, stored, calls⟩ := submits_typed switchedOn
    (pressedAll correctedKeys ++ [.changePasscode default 1 (Block.fill 1 55)] ++
      pressedAll [⟨4, 2, by decide, by decide⟩])
  refine ⟨final, ran, calls.trans ?_, stored.trans ?_⟩
  · decide +kernel
  · decide +kernel

end RentMate.KeypadTyping
