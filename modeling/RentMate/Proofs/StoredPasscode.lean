/-
Module: RentMate.Proofs.StoredPasscode
Purpose: The passcode of a lock over all sequences of commands that change it, from the built-in
  one on.
Trusted boundary: none
Main exports: PasscodeCommand, commandStep, SafelyStored, safelyStored_iff
-/
import RentMate.Proofs.KeypadTyping

namespace RentMate.StoredPasscode

open RentMate.Machine
open RentMate.NodeClient
open RentMate.KeypadTyping (storedPasscode storedPasscode_withPasscode)
open RentMate.PasscodeReport (Passcode digitsOf length_digitsOf toNat_passcodeLen withPasscode
  changePasscode_eq factoryLock)

/-- A command to change the passcode. `passcodeTemp` is what that local array held before. -/
structure PasscodeCommand where
  passcodeTemp : Block maxPasswordLen
  argsLen : UInt32
  args : Block argsLen.toNat

/-- What a command leaves of the lock. -/
def commandStep (lock : LockState) (command : PasscodeCommand) : Checked LockState := do
  let (_, lock) ← changePasscode lock command.passcodeTemp command.args.bytes command.argsLen
  pure lock

/-- The lock has a passcode of one to twelve digits in its array. -/
structure RealPasscode (lock : LockState) : Prop where
  memory : maxPasswordLen ≤ lock.currentPasscode.length
  some : 1 ≤ lock.currentPasscodeLen.toNat
  short : lock.currentPasscodeLen.toNat ≤ maxPasswordLen
  digits : ∀ digit ∈ storedPasscode lock, digit.toNat ≤ 9

/-- The lock has a real passcode, a command that it rejects changes nothing, and a submit with
nothing typed does not open it. -/
structure SafelyStored (lock : LockState) : Prop where
  real : RealPasscode lock
  rejected : ∀ (command : PasscodeCommand) changed,
    changePasscode lock command.passcodeTemp command.args.bytes command.argsLen =
        .ok (-1, changed) →
      changed = lock
  closed : ∀ keypad : Keypad, keypad.passwordCurrentLength = 0 →
    sendKey lock keypad 11 = .ok (keypad, some { digits := [], correct := false })

section Storing

variable {lock : LockState} {letters : Bytes}

/-- What a letter that is a digit stands for. -/
theorem toNat_digit {letter : UInt8} (digit : isdigit letter = true) :
    (letter - 48).toNat ≤ 9 := by
  have low : (48 : UInt8).toNat = 48 := rfl
  have high : (57 : UInt8).toNat = 57 := rfl
  simp only [isdigit, Bool.and_eq_true, decide_eq_true_eq, UInt8.le_iff_toNat_le, low,
    high] at digit
  rw [UInt8.toNat_sub, low]
  omega

/-- Storing a passcode keeps the memory for it. -/
theorem memory_withPasscode (valid : Passcode letters)
    (memory : maxPasswordLen ≤ lock.currentPasscode.length) :
    maxPasswordLen ≤ (withPasscode lock letters).currentPasscode.length := by
  have short := valid.short
  have fits : 0 + (digitsOf letters).length ≤ lock.currentPasscode.length := by
    rw [length_digitsOf]
    omega
  rw [withPasscode, length_splice fits]
  exact memory

/-- A passcode that is not empty is a real one. -/
theorem real_withPasscode (valid : Passcode letters) (some : letters ≠ [])
    (memory : maxPasswordLen ≤ lock.currentPasscode.length) :
    RealPasscode (withPasscode lock letters) := by
  have count : (withPasscode lock letters).currentPasscodeLen.toNat = letters.length :=
    toNat_passcodeLen valid.short
  constructor
  · exact memory_withPasscode valid memory
  · rw [count]
    exact List.length_pos_of_ne_nil some
  · rw [count]
    exact valid.short
  · rw [storedPasscode_withPasscode valid memory]
    intro digit inside
    obtain ⟨letter, member, rfl⟩ := List.mem_map.mp inside
    exact toNat_digit (valid.digits letter member)

/-- A command sets the passcode or leaves the lock. -/
theorem commandStep_eq (command : PasscodeCommand)
    (memory : maxPasswordLen ≤ lock.currentPasscode.length) :
    commandStep lock command =
      .ok (if Passcode command.args.bytes then withPasscode lock command.args.bytes else lock) := by
  rw [commandStep, changePasscode_eq command.passcodeTemp command.args memory, ok_bind]
  by_cases valid : Passcode command.args.bytes
  · rw [if_pos valid, if_pos valid]
    rfl
  · rw [if_neg valid, if_neg valid]
    rfl

/-- No command makes the array of the passcode any shorter. -/
theorem commandStep_memory (command : PasscodeCommand)
    (memory : maxPasswordLen ≤ lock.currentPasscode.length) :
    ∃ next, commandStep lock command = .ok next ∧
      maxPasswordLen ≤ next.currentPasscode.length := by
  refine ⟨_, commandStep_eq command memory, ?_⟩
  split
  · rename_i valid
    exact memory_withPasscode valid memory
  · exact memory

/-- A command with an argument leaves a real passcode. -/
theorem commandStep_real (command : PasscodeCommand) (some : command.argsLen ≠ 0)
    (real : RealPasscode lock) :
    ∃ next, commandStep lock command = .ok next ∧ RealPasscode next := by
  refine ⟨_, commandStep_eq command real.memory, ?_⟩
  split
  · rename_i valid
    refine real_withPasscode valid (fun nothing => some ?_) real.memory
    have whole := command.args.allocated
    rw [nothing] at whole
    exact UInt32.toNat_inj.mp whole.symm
  · exact real

/-- A command without an argument is accepted, and the lock has an empty passcode then. -/
theorem commandStep_empty (command : PasscodeCommand) (empty : command.argsLen = 0)
    (memory : maxPasswordLen ≤ lock.currentPasscode.length) :
    ∃ next, commandStep lock command = .ok next ∧ ¬ RealPasscode next := by
  have nothing : command.args.bytes = [] :=
    List.length_eq_zero_iff.mp (command.args.allocated.trans (congrArg UInt32.toNat empty))
  have valid : Passcode [] := by
    decide +kernel
  refine ⟨_, commandStep_eq command memory, ?_⟩
  rw [nothing, if_pos valid]
  intro real
  have none : ¬ 1 ≤ (UInt8.ofNat 0).toNat := by
    decide
  exact none real.some

/-- A lock with a real passcode is safe. -/
theorem safelyStored_of_real (real : RealPasscode lock) : SafelyStored lock := by
  refine ⟨real, ?_, ?_⟩
  · intro command changed ran
    rw [changePasscode_eq command.passcodeTemp command.args real.memory] at ran
    split at ran
    · cases ran
    · exact (congrArg Prod.snd (Except.ok.inj ran)).symm
  · intro keypad empty
    obtain ⟨bouncing, buffer, length⟩ := keypad
    obtain rfl : length = 0 := empty
    have other : (0 : UInt8) ≠ lock.currentPasscodeLen := by
      intro same
      have some := real.some
      rw [← same] at some
      exact absurd some (by decide)
    have entered : passcodeEntered lock buffer 0 = .ok false := by
      have nothing : readBytes lock.currentPasscode 0 0 = .ok [] := readBytes_ok (by omega)
      have none : buffer.read 0 0 = .ok [] := buffer.read_ok (by omega)
      have zero : (0 : UInt8).toNat = 0 := rfl
      simp only [passcodeEntered, zero, nothing, none, ok_bind, other, false_and, decide_false,
        pure_eq_ok]
    have none : buffer.read 0 (0 : UInt8).toNat = .ok [] := buffer.read_ok (Nat.zero_le _)
    have isKey : (11 : UInt8) ≠ 20 := by decide
    have notDelete : (11 : UInt8) ≠ 10 := by decide
    rw [sendKey, if_pos isKey, if_neg notDelete, if_pos rfl]
    simp only [submitBuffer, none, entered, ok_bind, pure_eq_ok]

end Storing

/-! ### All sequences of commands -/

/-- A lock from the factory has a real passcode. -/
theorem real_factoryLock : RealPasscode factoryLock :=
  ⟨by decide, by decide, by decide, by decide +kernel⟩

/-- Every sequence of commands is carried out. -/
theorem commands_run (commands : List PasscodeCommand) :
    ∃ final, runFrom commandStep factoryLock commands = .ok final ∧
      maxPasswordLen ≤ final.currentPasscode.length := by
  have along : Along commandStep factoryLock (fun _ _ _ => True) commands :=
    fun _ _ _ _ _ _ => trivial
  exact run_invariant (fun _ lock => maxPasswordLen ≤ lock.currentPasscode.length)
    real_factoryLock.memory
    (fun _ _ command memory _ => commandStep_memory command memory) along

/-- A command without an argument leaves a lock without a real passcode. -/
theorem unsafe_of_empty {commands : List PasscodeCommand} {command : PasscodeCommand}
    (inside : command ∈ commands) (empty : command.argsLen = 0) :
    ¬ Throughout commandStep factoryLock SafelyStored commands := by
  intro throughout
  obtain ⟨before, rest, rfl⟩ := List.append_of_mem inside
  obtain ⟨reached, ran, memory⟩ := commands_run before
  obtain ⟨next, stepped, notReal⟩ := commandStep_empty command empty memory
  have ranNext : runFrom commandStep factoryLock (before ++ [command]) = .ok next := by
    rw [runFrom_snoc, ran, ok_bind, stepped]
  have split : before ++ command :: rest = (before ++ [command]) ++ rest := by
    rw [List.append_assoc, List.singleton_append]
  exact notReal (throughout _ rest split next ranNext).real

/-- The commands are carried out and leave the passcode a real one all the time, exactly if each
of them has an argument. -/
theorem safelyStored_iff (commands : List PasscodeCommand) :
    (∃ final, runFrom commandStep factoryLock commands = .ok final) ∧
        Throughout commandStep factoryLock SafelyStored commands ↔
      ∀ command ∈ commands, command.argsLen ≠ 0 := by
  constructor
  · rintro ⟨-, throughout⟩ command inside empty
    exact unsafe_of_empty inside empty throughout
  · intro some
    obtain ⟨final, ran, -⟩ := commands_run commands
    refine ⟨⟨final, ran⟩, ?_⟩
    have along : Along commandStep factoryLock (fun _ _ command => command.argsLen ≠ 0)
        commands := by
      rintro before command rest rfl _ _
      exact some command (List.mem_append_right _ List.mem_cons_self)
    have real : Throughout commandStep factoryLock RealPasscode commands := by
      refine throughout_of_along RealPasscode real_factoryLock ?_ along
      intro _ lock command next real some stepped
      obtain ⟨same, ranSame, realSame⟩ := commandStep_real command some real
      rw [stepped] at ranSame
      obtain rfl := Except.ok.inj ranSame
      exact realSame
    intro before rest split reached ranBefore
    exact safelyStored_of_real (real before rest split reached ranBefore)

/-- One command without an argument, and a submit with nothing typed opens the lock. -/
theorem empty_passcode_opens :
    ¬ (∀ commands, (∃ final, runFrom commandStep factoryLock commands = .ok final) ∧
        Throughout commandStep factoryLock SafelyStored commands) ∧
      ∃ lock, commandStep factoryLock ⟨default, 0, Block.fill 0 0⟩ = .ok lock ∧
        sendKey lock KeypadTyping.newLock.keypad 11 =
          .ok (KeypadTyping.newLock.keypad, some { digits := [], correct := true }) := by
  constructor
  · intro claim
    let empty : PasscodeCommand := ⟨default, 0, Block.fill 0 0⟩
    exact unsafe_of_empty (List.mem_singleton_self empty) rfl (claim [empty]).2
  · refine ⟨_, rfl, ?_⟩
    decide +kernel

end RentMate.StoredPasscode
