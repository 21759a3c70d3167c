/-
Module: RentMate.Machine.Outcome
Purpose: What a computation that may leave defined behaviour ends with. One judgement covers the
  results of a computation that may fault and those of one that must not.
Trusted boundary: human-reviewed spec
Main exports: EndsIn, EndsIn.bind, endsIn_true, endsIn_false, Halts, Halts.bind
-/
import RentMate.Machine.Buffer

namespace RentMate.Machine

/-- The computation ends with a result that meets `post`, or with a fault where one is
excused. -/
def EndsIn {α : Type} (excused : Prop) (ran : Checked α) (post : α → Prop) : Prop :=
  match ran with
  | .ok result => post result
  | .error _ => excused

/-- The computation comes to an end, be it with a fault. -/
def Halts {α : Type} (ran : Checked α) : Prop := ran ≠ .error .diverges

section Rules

variable {α β : Type} {excused : Prop} {ran : Checked α} {post weaker : α → Prop}

@[simp] theorem endsIn_ok {result : α} : EndsIn excused (.ok result) post ↔ post result := Iff.rfl

@[simp] theorem endsIn_error {fault : Fault} :
    EndsIn excused (.error fault : Checked α) post ↔ excused :=
  Iff.rfl

/-- A weaker condition on the result holds as well. -/
theorem EndsIn.imp (ends : EndsIn excused ran post)
    (implies : ∀ result, post result → weaker result) :
    EndsIn excused ran weaker := by
  cases ran with
  | ok result => exact implies result ends
  | error fault => exact ends

/-- What the first part ends with is what the second one starts from. -/
theorem EndsIn.bind {next : α → Checked β} {after : β → Prop} (first : EndsIn excused ran post)
    (second : ∀ result, ran = .ok result → post result → EndsIn excused (next result) after) :
    EndsIn excused (ran >>= next) after := by
  cases ran with
  | ok result => exact second result rfl first
  | error fault => exact first

/-- Where faults are excused, the judgement is about the results there are. -/
theorem endsIn_true : EndsIn True ran post ↔ ∀ result, ran = .ok result → post result := by
  constructor
  · rintro ends result rfl
    exact ends
  · intro results
    cases ran with
    | ok result => exact results result rfl
    | error fault => trivial

/-- Where they are not, it says that there is a result. -/
theorem endsIn_false : EndsIn False ran post ↔ ∃ result, ran = .ok result ∧ post result := by
  constructor
  · intro ends
    cases ran with
    | ok result => exact ⟨result, rfl, ends⟩
    | error fault => exact ends.elim
  · rintro ⟨result, rfl, holds⟩
    exact holds

/-- A result has halted. -/
theorem halts_ok {result : α} : Halts (.ok result : Checked α) := by
  intro diverges
  cases diverges

/-- A sequence comes to an end when both parts do. -/
theorem Halts.bind {next : α → Checked β} (first : Halts ran)
    (second : ∀ result, ran = .ok result → Halts (next result)) : Halts (ran >>= next) := by
  cases ran with
  | ok result => exact second result rfl
  | error fault =>
      intro diverges
      exact first (congrArg Except.error (Except.error.inj diverges))

/-- An access comes to an end. -/
theorem halts_readBytes (object : Bytes) (offset count : Nat) :
    Halts (readBytes object offset count) := by
  rw [readBytes]
  split
  · exact halts_ok
  · intro diverges
    cases diverges

/-- A write into a block ends, if only in a fault. -/
theorem halts_write {size : Nat} (block : Block size) (offset : Nat) (data : Bytes) :
    Halts (block.write offset data) := by
  rw [Block.write]
  split
  · exact halts_ok
  · split
    · exact halts_ok
    · intro diverges
      cases diverges

end Rules

end RentMate.Machine
