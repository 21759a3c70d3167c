/-
Module: RentMate.Machine.CString
Purpose: Strings that end at their first zero byte, the numbers written in them, and files that are
  read line by line.
Trusted boundary: human-reviewed spec
Main exports: cString, strcspnNewline, atoi, decimal, fgets, fgets_shorter
-/
import RentMate.Machine.Heap

namespace RentMate.Machine

/-! ### Strings -/

/-- The string at the start of some bytes. -/
def cString (bytes : Bytes) : Bytes := bytes.takeWhile fun letter => letter ≠ 0

/-- `strcspn(string, "\n")`. -/
def strcspnNewline (bytes : Bytes) : Nat :=
  (bytes.takeWhile fun letter => letter ≠ 10 ∧ letter ≠ 0).length

/-- The letters of a text. -/
def lettersOf (text : List Char) : Bytes := text.map fun letter => letter.toNat.toUInt8

/-! ### Numbers -/

/-- `isspace`, in the C locale. -/
def isspace (letter : UInt8) : Bool := letter = 32 || 9 ≤ letter && letter ≤ 13

/-- The number that a text begins with. -/
def leadingNumber (text : Bytes) : Nat :=
  (text.takeWhile fun letter => 48 ≤ letter && letter ≤ 57).foldl
    (fun number letter => number * 10 + (letter.toNat - 48)) 0

/-- `atoi`. A number that is no `int` is undefined behaviour. -/
def atoi (text : Bytes) : Checked Int :=
  let number := (cString text).dropWhile isspace
  if number.head? = some 45 then signed (-leadingNumber number.tail)
  else if number.head? = some 43 then signed (leadingNumber number.tail)
  else signed (leadingNumber number)

/-- What `%d` prints. -/
def decimal (value : Int) : Bytes :=
  (if value < 0 then [45] else []) ++ lettersOf (Nat.toDigits 10 value.natAbs)

/-! ### Files -/

/-- `fgets` with an array of `size` bytes: what it reads, and the rest of the file, or `none` at
the end. It stops behind a newline. -/
def fgets (size : Nat) (file : Bytes) : Option (Bytes × Bytes) :=
  if file = [] then none
  else
    let count := min (size - 1) ((file.takeWhile fun letter => letter ≠ 10).length + 1)
    some (file.take count, file.drop count)

section Lines

variable {size : Nat} {file line rest : Bytes}

/-- A line fits into the array, and the rest of the file is shorter than the file. -/
theorem fgets_shorter (wide : 2 ≤ size) (read : fgets size file = some (line, rest)) :
    line.length < size ∧ rest.length < file.length := by
  rw [fgets] at read
  split at read
  · cases read
  · rename_i some
    obtain ⟨rfl, rfl⟩ := Prod.mk.inj (Option.some.inj read)
    have length := List.length_pos_of_ne_nil some
    rw [List.length_take, List.length_drop]
    omega

/-- As long as there is something left, a line is read. -/
theorem exists_fgets (some : file ≠ []) : ∃ line rest, fgets size file = Option.some (line, rest) :=
  ⟨_, _, if_neg some⟩

end Lines

end RentMate.Machine
