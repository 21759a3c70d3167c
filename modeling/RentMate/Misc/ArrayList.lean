/-
Module: RentMate.Misc.ArrayList
Purpose: The growing array that every list of the program is kept in: its memory, the counters
  of its struct, and the four operations on it. A `size_t` is not reduced: up to the first access
  behind the memory, the offsets of elements are far below its range.
Trusted boundary: human-reviewed spec
Main exports: ArrayList, initList, addToList, getFromList, findInList, removeFromList, ListCall,
  listCall
-/
import RentMate.Machine.Heap

namespace RentMate.Misc

open RentMate.Machine

/-! ### The list -/

/-- `arrayList`. -/
structure ArrayList where
  data : Bytes
  dataSize : Nat
  allocated : Int
  length : Int
  listIncrement : Int
deriving Repr, DecidableEq

/-- `initList`, the list that it makes, or `none` where it returns 1. -/
def initList (dataSize : Nat) (memory : Memory) : Option ArrayList :=
  (malloc (dataSize * 5) memory).map fun data =>
    { data := data
      dataSize := dataSize
      allocated := 5
      length := 0
      listIncrement := 5 }

/-- The copy of an element behind the last one. -/
def putBehind (arrayLst : ArrayList) (data : Bytes) : Checked (Int × ArrayList) := do
  let copied ← readBytes data 0 arrayLst.dataSize
  let written ← writeBytes arrayLst.data (arrayLst.length.toNat * arrayLst.dataSize) copied
  let length ← signed (arrayLst.length + 1)
  pure
    (0,
      { arrayLst with
        data := written
        length := length })

/-- `newSize` in `addToList`, after the doubling of `listIncrement`. -/
def newSize (arrayLst : ArrayList) (listIncrement : Int) : Int :=
  toInt (arrayLst.allocated * arrayLst.dataSize + arrayLst.dataSize * listIncrement)

/-- `addToList`. -/
def addToList (arrayLst : ArrayList) (data : Bytes) (memory : Memory) :
    Checked (Int × ArrayList) :=
  if arrayLst.length < arrayLst.allocated then putBehind arrayLst data
  else do
    let listIncrement ← signed (arrayLst.listIncrement * 2)
    let size := newSize arrayLst listIncrement
    match realloc arrayLst.data size memory with
    | none =>
        pure
          (1,
            { arrayLst with
              data := if size = 0 then [] else arrayLst.data
              listIncrement := listIncrement })
    | some block =>
        putBehind
          { arrayLst with
            data := block
            allocated := size / arrayLst.dataSize
            listIncrement := listIncrement }
          data

/-- `getFromList`, as the offset of the element, or `none` for `NULL`. -/
def getFromList (arrayLst : ArrayList) (index : Int) : Option Nat :=
  if index < arrayLst.length ∧ 0 ≤ index then some (index.toNat * arrayLst.dataSize) else none

/-- The loop of `findInList`, from element `i` on. The fuel is the number of elements left. -/
def findInListFrom (arrayLst : ArrayList) (data : Bytes) (dataLen : Nat) :
    Nat → Nat → Checked Int
  | 0, _ => pure (-1)
  | fuel + 1, i => do
      let entry ← readBytes arrayLst.data (i * arrayLst.dataSize) dataLen
      let sought ← readBytes data 0 dataLen
      if entry = sought then pure i else findInListFrom arrayLst data dataLen fuel (i + 1)

/-- `findInList`. -/
def findInList (arrayLst : ArrayList) (data : Bytes) (dataLen : Nat) : Checked Int :=
  findInListFrom arrayLst data dataLen arrayLst.length.toNat 0

/-- `removeFromList`. -/
def removeFromList (arrayLst : ArrayList) (index : Int) : Checked (Int × ArrayList) :=
  if index < arrayLst.length ∧ 0 ≤ index then do
    let itemsToMove := (arrayLst.length - index - 1).toNat
    let moved ← readBytes arrayLst.data ((index.toNat + 1) * arrayLst.dataSize)
      (arrayLst.dataSize * itemsToMove)
    let written ← writeBytes arrayLst.data (index.toNat * arrayLst.dataSize) moved
    pure
      (0,
        { arrayLst with
          data := written
          length := arrayLst.length - 1 })
  else pure (-1, arrayLst)

/-! ### Calls -/

/-- A call of one of the operations, on a list with elements of `dataSize` bytes. An add comes
with what an allocation in it would find. -/
inductive ListCall (dataSize : Nat) where
  | addToList (data : Block dataSize) (memory : Memory)
  | getFromList (index : Int)
  | findInList (dataLen : Nat) (within : dataLen ≤ dataSize) (data : Block dataLen)
  | removeFromList (index : Int)

/-- What a call returns: a status or an index, or the element that a pointer is to. -/
inductive ListResult where
  | value (value : Int)
  | element (found : Option Bytes)
deriving Repr, DecidableEq

/-- A call, with what it returns and the list behind it. -/
def listCall {dataSize : Nat} (arrayLst : ArrayList) :
    ListCall dataSize → Checked (ListResult × ArrayList)
  | .addToList data memory => do
      let (returned, arrayLst) ← Misc.addToList arrayLst data.bytes memory
      pure (.value returned, arrayLst)
  | .getFromList index =>
      match Misc.getFromList arrayLst index with
      | none => pure (.element none, arrayLst)
      | some offset => do
          let element ← readBytes arrayLst.data offset arrayLst.dataSize
          pure (.element (some element), arrayLst)
  | .findInList dataLen _ data => do
      let returned ← Misc.findInList arrayLst data.bytes dataLen
      pure (.value returned, arrayLst)
  | .removeFromList index => do
      let (returned, arrayLst) ← Misc.removeFromList arrayLst index
      pure (.value returned, arrayLst)

end RentMate.Misc
