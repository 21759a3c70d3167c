/-
Module: RentMate.Machine.LineEditor
Purpose: What a keypad with letters, a delete key and a submit key means: the letters that are left
  of a history of presses, and when an editor with limited room hands them over.
Trusted boundary: human-reviewed spec
Main exports: Press, typed, HandsOver, press, length_typed_press, typed_letters
-/
import Mathlib.Data.List.Induction

namespace RentMate.Machine

/-- A key of a line editor. -/
inductive Press (α : Type) where
  | letter (value : α)
  | delete
  | submit
  | ignored
deriving Repr, DecidableEq

namespace LineEditor

variable {α : Type}

/-- What a press makes of the letters that are left of the earlier ones. -/
def edit (left : List α) : Press α → List α
  | .letter value => left ++ [value]
  | .delete => left.dropLast
  | .submit => left
  | .ignored => left

/-- The letters that are left of a history: each delete cancels the latest one that remains. -/
def typed (presses : List (Press α)) : List α := presses.foldl edit []

/-- The press makes an editor hand over what has been typed since it last did: it submits, or it
is a letter that there is no room for. -/
def HandsOver (capacity : Nat) (since : List (Press α)) : Press α → Prop
  | .letter _ => capacity ≤ (typed since).length
  | .delete => False
  | .submit => True
  | .ignored => False

instance (capacity : Nat) (since : List (Press α)) (key : Press α) :
    Decidable (HandsOver capacity since key) :=
  match key with
  | .letter _ => inferInstanceAs (Decidable (_ ≤ _))
  | .delete => .isFalse id
  | .submit => .isTrue trivial
  | .ignored => .isFalse id

/-- The presses since the editor last handed over, after one more press. -/
def press (capacity : Nat) (since : List (Press α)) (key : Press α) : List (Press α) :=
  if HandsOver capacity since key then [] else since ++ [key]

section Typing

variable {capacity : Nat} {since presses : List (Press α)} {key : Press α} {value : α}

@[simp] theorem typed_nil : typed ([] : List (Press α)) = [] := rfl

@[simp] theorem typed_snoc (presses : List (Press α)) (key : Press α) :
    typed (presses ++ [key]) = edit (typed presses) key := by
  rw [typed, List.foldl_append]
  rfl

/-- Without deletes, all letters are left. -/
theorem typed_letters (values : List α) : typed (values.map .letter) = values := by
  induction values using List.reverseRecOn with
  | nil => rfl
  | append_singleton values value ih =>
      rw [List.map_append, List.map_singleton, typed_snoc, ih, edit]

/-- A letter that is left has been pressed. -/
theorem letter_of_mem_typed (left : value ∈ typed presses) : .letter value ∈ presses := by
  induction presses using List.reverseRecOn with
  | nil => cases left
  | append_singleton presses key ih =>
      rw [typed_snoc] at left
      cases key with
      | letter other =>
          rcases List.mem_append.mp left with earlier | last
          · exact List.mem_append_left _ (ih earlier)
          · rw [List.mem_singleton.mp last]
            exact List.mem_append_right _ (List.mem_singleton_self _)
      | delete => exact List.mem_append_left _ (ih ((List.dropLast_sublist _).subset left))
      | submit => exact List.mem_append_left _ (ih left)
      | ignored => exact List.mem_append_left _ (ih left)

/-- An editor never has more letters than there is room for. -/
theorem length_typed_press (room : (typed since).length ≤ capacity) (key : Press α) :
    (typed (press capacity since key)).length ≤ capacity := by
  rw [press]
  split
  · exact Nat.zero_le _
  · rename_i kept
    rw [typed_snoc]
    cases key with
    | letter value =>
        rw [edit, List.length_append, List.length_singleton]
        exact Nat.lt_of_not_le kept
    | delete =>
        rw [edit, List.length_dropLast]
        omega
    | submit => exact room
    | ignored => exact room

end Typing

end LineEditor

end RentMate.Machine
