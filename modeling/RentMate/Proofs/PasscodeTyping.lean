/-
Module: RentMate.Proofs.PasscodeTyping
Purpose: Which of the passcodes that a command can set can be typed on the keypad.
Trusted boundary: none
Main exports: Typable, typable_iff
-/
import RentMate.Proofs.KeypadTyping

namespace RentMate.PasscodeTyping

open RentMate.Machine
open RentMate.Machine.LineEditor
open RentMate.NodeClient
open RentMate.KeypadTyping
open RentMate.PasscodeReport (Passcode digitsOf length_digitsOf toNat_passcodeLen withPasscode
  changePasscode_eq factoryLock)

/-- Some keys, pressed one after the other with time for the debounce timer, make the lock call
`passcodeCorrect`. -/
def Typable (keypad : Keypad) (lock : LockState) : Prop :=
  ∃ keys final,
    runFrom smartLockStep { keypad := keypad, lock := lock, calls := [] } (pressedAll keys) =
        .ok final ∧
      ∃ call ∈ final.calls, call.correct = true

/-! ### No key for a zero -/

section Zero

variable {typing : Typing} {value : UInt8}

/-- No key of the keypad has the value zero. -/
theorem keyVal_ne_zero (rowNum : UInt32) (column : Nat) : keyVal rowNum column ≠ 0 := by
  unfold keyVal
  repeat' split
  all_goals decide

/-- No zero has been typed, and if a passcode was correct then the current one has no zero. -/
structure NoZero (typing : Typing) : Prop where
  since : .letter 0 ∉ typing.since
  calls : ∀ call ∈ typing.calls, call.correct = true → 0 ∉ typing.passcode

/-- A value other than zero is no zero on the keypad. -/
theorem keyOf_ne_zero (other : value ≠ 0) : keyOf value ≠ .letter 0 := by
  unfold keyOf
  intro zero
  split at zero
  · cases zero
  · split at zero
    · cases zero
    · split at zero
      · cases zero
      · exact other (Press.letter.inj zero)

/-- A key other than zero leaves a buffer without zeros. -/
theorem noZero_press (noZero : NoZero typing) (other : value ≠ 0) :
    NoZero (typing.press (keyOf value)) := by
  constructor
  · simp only [Typing.press, LineEditor.press]
    split
    · exact List.not_mem_nil
    · intro inside
      rcases List.mem_append.mp inside with earlier | last
      · exact noZero.since earlier
      · exact keyOf_ne_zero other (List.mem_singleton.mp last).symm
  · simp only [Typing.press]
    intro call inside correct
    split at inside
    · rcases List.mem_append.mp inside with earlier | last
      · exact noZero.calls call earlier correct
      · obtain rfl := List.mem_singleton.mp last
        have same : typed typing.since = typing.passcode := of_decide_eq_true correct
        intro zero
        rw [← same] at zero
        exact noZero.since (letter_of_mem_typed zero)
    · exact noZero.calls call inside correct

/-- No keys of the matrix put a zero into the buffer. -/
theorem noZero_presses (noZero : NoZero typing) (keys : List KeypadKey) :
    NoZero (keys.foldl (fun typing key => typing.press (keyOf key.value)) typing) := by
  induction keys generalizing typing with
  | nil => exact noZero
  | cons key keys ih => exact ih (noZero_press noZero (keyVal_ne_zero key.row key.column))

/-- The keys change nothing about the passcode. -/
theorem passcode_presses (typing : Typing) (keys : List KeypadKey) :
    (keys.foldl (fun typing key => typing.press (keyOf key.value)) typing).passcode =
      typing.passcode := by
  induction keys generalizing typing with
  | nil => rfl
  | cons key keys ih => exact ih (typing.press (keyOf key.value))

end Zero

/-! ### Keys for the other digits -/

section Digits

variable {letters : Bytes} {typing : Typing}

/-- Every digit but zero has a key. -/
theorem exists_key {letter : UInt8} (digit : isdigit letter = true) (notZero : letter ≠ 48) :
    ∃ key : KeypadKey, key.value = letter - 48 ∧
      keyOf key.value = .letter (letter - 48) := by
  have range : 49 ≤ letter.toNat ∧ letter.toNat ≤ 57 := by
    have low : (48 : UInt8).toNat = 48 := rfl
    have high : (57 : UInt8).toNat = 57 := rfl
    have other : letter.toNat ≠ 48 := fun same => notZero (UInt8.toNat_inj.mp same)
    simp only [isdigit, Bool.and_eq_true, decide_eq_true_eq, UInt8.le_iff_toNat_le, low,
      high] at digit
    omega
  obtain ⟨first, last⟩ := range
  have cases : ∀ value : Fin 9, ∃ row : Fin 3, ∃ column : Fin 3,
      keyVal (UInt32.ofNat (row + 1)) (column + 1) = UInt8.ofNat (value + 1) ∧
        keyOf (UInt8.ofNat (value + 1)) = .letter (UInt8.ofNat (value + 1)) ∧
        1 ≤ UInt32.ofNat (row + 1) ∧ UInt32.ofNat (row + 1) ≤ 4 := by
    decide
  obtain ⟨row, column, ranKey, isLetter, rows⟩ := cases ⟨letter.toNat - 49, by omega⟩
  have same : UInt8.ofNat (letter.toNat - 49 + 1) = letter - 48 := by
    have fortyEight : (48 : UInt8).toNat = 48 := rfl
    apply UInt8.toNat_inj.mp
    rw [UInt8.toNat_ofNat', UInt8.toNat_sub, fortyEight]
    omega
  simp only [same] at ranKey isLetter
  refine ⟨⟨UInt32.ofNat (row + 1), column + 1, rows, by omega⟩, ranKey, ?_⟩
  rw [KeypadKey.value, ranKey]
  exact isLetter

/-- The keys of the digits put them behind what has been typed, as long as there is room. -/
theorem exists_keys (digits : ∀ letter ∈ letters, isdigit letter = true)
    (notZero : (48 : UInt8) ∉ letters)
    (room : (typed typing.since).length + letters.length ≤ maxPasswordLen) :
    ∃ keys : List KeypadKey,
      keys.foldl (fun typing key => typing.press (keyOf key.value)) typing =
        { typing with since := typing.since ++ (digitsOf letters).map .letter } := by
  induction letters generalizing typing with
  | nil => exact ⟨[], by simp [digitsOf]⟩
  | cons letter rest ih =>
      rw [List.length_cons] at room
      obtain ⟨key, -, isLetter⟩ := exists_key (digits letter List.mem_cons_self)
        (fun zero => notZero (zero ▸ List.mem_cons_self))
      have kept : ¬ HandsOver maxPasswordLen typing.since (.letter (letter - 48)) :=
        Nat.not_le.mpr (by omega)
      have pressed : typing.press (keyOf key.value) =
          { typing with since := typing.since ++ [.letter (letter - 48)] } := by
        rw [isLetter, Typing.press, LineEditor.press, if_neg kept, if_neg kept]
      have roomBehind : (typed (typing.press (keyOf key.value)).since).length + rest.length ≤
          maxPasswordLen := by
        rw [pressed, typed_snoc, edit, List.length_append, List.length_singleton]
        omega
      have inRest : ∀ other ∈ rest, isdigit other = true := fun other inside =>
        digits other (List.mem_cons_of_mem _ inside)
      have noneInRest : (48 : UInt8) ∉ rest := fun zero =>
        notZero (List.mem_cons_of_mem _ zero)
      obtain ⟨keys, ran⟩ := ih inRest noneInRest roomBehind
      refine ⟨key :: keys, ?_⟩
      rw [List.foldl_cons, ran, pressed]
      simp [digitsOf]

end Digits

/-! ### The passcodes that can be typed -/

section Typing

variable {keypad : Keypad} {lock changed : LockState} {passcodeTemp : Block maxPasswordLen}
  {argsLen : UInt32} {args : Block argsLen.toNat} {letters : Bytes}

/-- What is accepted is a passcode, and the lock has it then. -/
theorem passcode_of_accepted
    (accepted : changePasscode lock passcodeTemp args.bytes argsLen = .ok (0, changed))
    (memory : maxPasswordLen ≤ lock.currentPasscode.length) :
    Passcode args.bytes ∧ changed = withPasscode lock args.bytes := by
  rw [changePasscode_eq passcodeTemp args memory] at accepted
  split at accepted
  · rename_i valid
    exact ⟨valid, (congrArg Prod.snd (Except.ok.inj accepted)).symm⟩
  · cases accepted

/-- What the keys make a lock do with a new passcode is what they type. -/
theorem typable_iff_presses (valid : Passcode letters)
    (memory : maxPasswordLen ≤ lock.currentPasscode.length)
    (quiet : keypad.isDebounceTimerRunning = false)
    (empty : keypad.passwordCurrentLength = 0) :
    Typable keypad (withPasscode lock letters) ↔
      ∃ keys : List KeypadKey,
        ∃ call ∈ (keys.foldl (fun typing key => typing.press (keyOf key.value))
            (begin (withPasscode lock letters) false)).calls,
          call.correct = true := by
  have short := valid.short
  have fits : 0 + (digitsOf letters).length ≤ lock.currentPasscode.length := by
    rw [length_digitsOf]
    omega
  have switchedOn : SwitchedOn
      { keypad := keypad, lock := withPasscode lock letters, calls := [] } :=
    { empty := empty
      memory := by rw [withPasscode, length_splice fits]; exact memory
      short := by rw [withPasscode, toNat_passcodeLen short]; exact short
      calls := rfl }
  have entered : ∀ keys, ∃ final,
      runFrom smartLockStep { keypad := keypad, lock := withPasscode lock letters, calls := [] }
          (pressedAll keys) = .ok final ∧
        final.calls = (keys.foldl (fun typing key => typing.press (keyOf key.value))
          (begin (withPasscode lock letters) false)).calls := by
    intro keys
    obtain ⟨final, ran, simulates⟩ := run_simulates switchedOn (pressedAll keys)
    refine ⟨final, ran, simulates.calls.trans ?_⟩
    rw [typedAfter, quiet, after_pressedAll rfl]
  constructor
  · rintro ⟨keys, final, ran, call, inside, correct⟩
    obtain ⟨same, ranSame, calls⟩ := entered keys
    rw [ran] at ranSame
    obtain rfl := Except.ok.inj ranSame
    exact ⟨keys, call, calls ▸ inside, correct⟩
  · rintro ⟨keys, call, inside, correct⟩
    obtain ⟨final, ran, calls⟩ := entered keys
    exact ⟨keys, final, ran, call, calls.symm ▸ inside, correct⟩

/-- A passcode with a zero is not what any keys type. -/
theorem not_typable (valid : Passcode letters)
    (memory : maxPasswordLen ≤ lock.currentPasscode.length)
    (quiet : keypad.isDebounceTimerRunning = false)
    (empty : keypad.passwordCurrentLength = 0) (zero : (48 : UInt8) ∈ letters) :
    ¬ Typable keypad (withPasscode lock letters) := by
  intro typable
  obtain ⟨keys, call, inside, correct⟩ :=
    (typable_iff_presses valid memory quiet empty).mp typable
  have begun : NoZero (begin (withPasscode lock letters) false) :=
    ⟨List.not_mem_nil, fun _ none => nomatch none⟩
  apply (noZero_presses begun keys).calls call inside correct
  rw [passcode_presses, begin, storedPasscode_withPasscode valid memory]
  exact List.mem_map.mpr ⟨48, zero, rfl⟩

/-- A passcode that is accepted can be typed exactly if it has no zero. -/
theorem typable_iff
    (accepted : changePasscode lock passcodeTemp args.bytes argsLen = .ok (0, changed))
    (memory : maxPasswordLen ≤ lock.currentPasscode.length)
    (quiet : keypad.isDebounceTimerRunning = false)
    (empty : keypad.passwordCurrentLength = 0) :
    Typable keypad changed ↔ (48 : UInt8) ∉ args.bytes := by
  obtain ⟨valid, rfl⟩ := passcode_of_accepted accepted memory
  constructor
  · intro typable zero
    exact not_typable valid memory quiet empty zero typable
  · intro notZero
    apply (typable_iff_presses valid memory quiet empty).mpr
    have nothing : (typed (begin (withPasscode lock args.bytes) false).since).length = 0 := rfl
    obtain ⟨keys, ran⟩ := exists_keys valid.digits notZero
      (show _ + args.bytes.length ≤ maxPasswordLen by
        rw [nothing, Nat.zero_add]
        exact valid.short)
    -- The digits and then the submit key.
    refine ⟨keys ++ [⟨4, 3, by decide, by decide⟩], ?_⟩
    have typedDigits : typed ((digitsOf args.bytes).map Press.letter) = digitsOf args.bytes :=
      typed_letters _
    have stored := storedPasscode_withPasscode valid memory
    rw [List.foldl_append, ran]
    refine ⟨{ digits := digitsOf args.bytes, correct := true }, ?_, rfl⟩
    apply List.mem_singleton.mpr
    simp [begin, stored, typedDigits]

/-- The passcode `51379` can be typed on a lock that had the built-in one. -/
theorem digits_typable :
    Typable newLock.keypad (withPasscode factoryLock [53, 49, 51, 55, 57]) := by
  let args : Block (5 : UInt32).toNat := .holding _ [53, 49, 51, 55, 57]
  have accepted : changePasscode factoryLock default args.bytes 5 =
      .ok (0, withPasscode factoryLock [53, 49, 51, 55, 57]) := by
    decide +kernel
  have memory : maxPasswordLen ≤ factoryLock.currentPasscode.length := by
    decide
  have iff : Typable newLock.keypad (withPasscode factoryLock [53, 49, 51, 55, 57]) ↔
      (48 : UInt8) ∉ args.bytes :=
    typable_iff accepted memory rfl rfl
  exact iff.mpr (by decide)

/-- The passcode `0` is accepted and cannot be typed. -/
theorem zero_not_typable :
    ¬ ∀ (keypad : Keypad) (lock changed : LockState) (passcodeTemp : Block maxPasswordLen)
        (argsLen : UInt32) (args : Block argsLen.toNat),
      maxPasswordLen ≤ lock.currentPasscode.length → keypad.isDebounceTimerRunning = false →
      keypad.passwordCurrentLength = 0 → args.bytes ≠ [] →
      changePasscode lock passcodeTemp args.bytes argsLen = .ok (0, changed) →
        Typable keypad changed := by
  intro claim
  let args : Block (1 : UInt32).toNat := Block.fill 1 48
  have accepted : changePasscode factoryLock default args.bytes 1 =
      .ok (0, withPasscode factoryLock [48]) := by
    decide +kernel
  have memory : maxPasswordLen ≤ factoryLock.currentPasscode.length := by
    decide
  have valid : Passcode [48] := by
    decide +kernel
  have quiet : newLock.keypad.isDebounceTimerRunning = false := rfl
  have empty : newLock.keypad.passwordCurrentLength = 0 := rfl
  apply not_typable valid memory quiet empty (by decide)
  exact claim newLock.keypad _ _ _ 1 args memory quiet empty (by decide) accepted

end Typing

end RentMate.PasscodeTyping
