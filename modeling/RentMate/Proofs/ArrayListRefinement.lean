/-
Module: RentMate.Proofs.ArrayListRefinement
Purpose: The growing array against a mathematical list: for which sequences of calls, with
  allocations that succeed and fail, it answers every call as the list does.
Trusted boundary: none
Main exports: Represents, Answers, elementsAfter, Refines, Enlarges, Sound, call_iff, refines_iff
-/
import RentMate.Machine.Records
import RentMate.Machine.Run
import RentMate.Misc.ArrayList

namespace RentMate.ArrayListRefinement

open RentMate.Machine
open RentMate.Misc

/-! ### The mathematical list -/

section Lists

variable {dataSize : Nat}

/-- The array holds the elements, and its counters are within its memory. -/
structure Represents (arrayLst : ArrayList) (elements : List Bytes) : Prop where
  length : arrayLst.length = elements.length
  room : arrayLst.length ≤ arrayLst.allocated
  memory : arrayLst.allocated * arrayLst.dataSize ≤ arrayLst.data.length
  packed : Packed arrayLst.dataSize elements arrayLst.data

/-- The index of the first element of which the first `dataLen` bytes are the data, or -1. -/
def firstIndex (elements : List Bytes) (dataLen : Nat) (data : Bytes) : Int :=
  match elements.findIdx? fun element => element.take dataLen = data with
  | some index => index
  | none => -1

/-- The array answers the call as a list with the elements. An add fails only if the array is full
and there is no memory. -/
def Answers (arrayLst : ArrayList) (elements : List Bytes) :
    ListCall dataSize → ListResult → Prop
  | .addToList _ memory, result =>
      result = .value 0 ∨
        result = .value 1 ∧ arrayLst.length = arrayLst.allocated ∧ memory = none
  | .getFromList index, result =>
      result = .element (if 0 ≤ index then elements[index.toNat]? else none)
  | .findInList dataLen _ data, result =>
      result = .value (firstIndex elements dataLen data.bytes)
  | .removeFromList index, result =>
      result = .value (if 0 ≤ index ∧ index < elements.length then 0 else -1)

/-- The elements after a call. An add that fails changes nothing. -/
def elementsAfter (elements : List Bytes) : ListCall dataSize → ListResult → List Bytes
  | .addToList data _, result =>
      if result = .value 0 then elements ++ [data.bytes] else elements
  | .getFromList _, _ => elements
  | .findInList _ _ _, _ => elements
  | .removeFromList index, _ => if 0 ≤ index then elements.eraseIdx index.toNat else elements

/-- From now on, the array answers every call as the list, and holds its elements all the time. -/
def Refines : ArrayList → List Bytes → List (ListCall dataSize) → Prop
  | arrayLst, elements, [] => Represents arrayLst elements
  | arrayLst, elements, call :: calls =>
      Represents arrayLst elements ∧
        ∃ result next, listCall arrayLst call = .ok (result, next) ∧
          Answers arrayLst elements call result ∧
            Refines next (elementsAfter elements call result) calls

/-- What an add that finds the array full asks `realloc` for is more than what it has, by an
element at least, and the numbers that it computes are no others than it means. Without memory it
is enough that the request is not one that frees the array. -/
def Enlarges (arrayLst : ArrayList) : ListCall dataSize → Prop
  | .addToList _ memory =>
      arrayLst.length = arrayLst.allocated →
        arrayLst.listIncrement * 2 < 2 ^ 31 ∧
          newSize arrayLst (arrayLst.listIncrement * 2) ≠ 0 ∧
            (memory ≠ none →
              (arrayLst.length + 1) * arrayLst.dataSize ≤
                newSize arrayLst (arrayLst.listIncrement * 2))
  | .getFromList _ => True
  | .findInList _ _ _ => True
  | .removeFromList _ => True

/-- A call, with the array that it leaves. -/
def listStep (arrayLst : ArrayList) (call : ListCall dataSize) : Checked ArrayList := do
  let (_, next) ← listCall arrayLst call
  pure next

instance (arrayLst : ArrayList) (call : ListCall dataSize) : Decidable (Enlarges arrayLst call) :=
  match call with
  | .addToList _ _ => inferInstanceAs (Decidable (_ → _ ∧ _))
  | .getFromList _ => .isTrue trivial
  | .findInList _ _ _ => .isTrue trivial
  | .removeFromList _ => .isTrue trivial

/-- What holds of an array that holds some elements, besides. -/
structure Sound (dataSize : Nat) (arrayLst : ArrayList) (elements : List Bytes) : Prop
    extends Represents arrayLst elements where
  size : arrayLst.dataSize = dataSize
  sizeSome : 0 < dataSize
  allocatedSome : 0 < arrayLst.allocated
  incrementSome : 0 < arrayLst.listIncrement
  small : arrayLst.data.length < 2 ^ 31

end Lists

/-! ### Adding -/

section Adding

variable {dataSize : Nat} {arrayLst : ArrayList} {elements : List Bytes} {element : Block dataSize}

/-- Where there is room, an element is put behind the last one. -/
theorem putBehind_sound (sound : Sound dataSize arrayLst elements)
    (free : arrayLst.length < arrayLst.allocated) :
    ∃ next, putBehind arrayLst element.bytes = .ok (0, next) ∧
      Sound dataSize next (elements ++ [element.bytes]) := by
  obtain ⟨represents, size, sizeSome, allocatedSome, incrementSome, small⟩ := sound
  obtain ⟨length, room, memory, packed⟩ := represents
  subst size
  have fits : elements.length * arrayLst.dataSize + element.bytes.length ≤
      arrayLst.data.length := by
    have more : (arrayLst.length + 1) * arrayLst.dataSize ≤
        arrayLst.allocated * arrayLst.dataSize :=
      Int.mul_le_mul_of_nonneg_right free (Int.natCast_nonneg _)
    rw [length] at more
    have same : ((elements.length : Int) + 1) * (arrayLst.dataSize : Int) =
        ((elements.length * arrayLst.dataSize + arrayLst.dataSize : Nat) : Int) := by
      push_cast
      rw [Int.add_mul, Int.one_mul]
    rw [element.allocated]
    omega
  have whole : readBytes element.bytes 0 arrayLst.dataSize = .ok element.bytes := by
    rw [readBytes_ok (by rw [element.allocated]; omega), slice, List.drop_zero,
      List.take_of_length_le (Nat.le_of_eq element.allocated)]
  have count : arrayLst.length.toNat = elements.length := by omega
  have counts : signed (arrayLst.length + 1) = .ok (arrayLst.length + 1) := by
    have many : elements.length ≤ elements.length * arrayLst.dataSize :=
      Nat.le_mul_of_pos_right _ sizeSome
    rw [element.allocated] at fits
    exact signed_ok (by omega) (by omega)
  refine
    ⟨{ arrayLst with
        data := splice arrayLst.data (elements.length * arrayLst.dataSize) element.bytes
        length := arrayLst.length + 1 }, ?_, ?_⟩
  · simp only [putBehind, whole, count, writeBytes_ok fits, counts, ok_bind, pure_eq_ok]
  · refine ⟨⟨?_, ?_, ?_, ?_⟩, rfl, sizeSome, allocatedSome, incrementSome, ?_⟩
    · rw [List.length_append, List.length_singleton]
      push_cast
      rw [length]
    · exact free
    · rw [length_splice fits]
      exact memory
    · exact packed.append element.allocated
    · rw [length_splice fits]
      exact small

/-- The new size fits an `int`. -/
theorem newSize_lt (arrayLst : ArrayList) (listIncrement : Int) :
    newSize arrayLst listIncrement < 2 ^ 31 := by
  have below : (arrayLst.allocated * arrayLst.dataSize +
      arrayLst.dataSize * listIncrement).bmod (2 ^ 32) < (((2 ^ 32 : Nat) : Int) + 1) / 2 :=
    Int.bmod_lt (by decide)
  rw [newSize, toInt]
  omega

/-- The array with a block that has room for one more element. -/
theorem enlarged_sound (sound : Sound dataSize arrayLst elements) {size listIncrement : Int}
    {block more : Bytes} (content : block = arrayLst.data.take size.toNat ++ more)
    (length : block.length = size.toNat)
    (enough : (arrayLst.length + 1) * arrayLst.dataSize ≤ size) (small : size < 2 ^ 31)
    (incrementSome : 0 < listIncrement) :
    Sound dataSize
        { arrayLst with
          data := block
          allocated := size / arrayLst.dataSize
          listIncrement := listIncrement }
        elements ∧
      arrayLst.length < size / arrayLst.dataSize := by
  have counted := sound.length
  have sizeSome : (0 : Int) < arrayLst.dataSize := by
    rw [sound.size]
    exact Int.natCast_pos.mpr sound.sizeSome
  have larger : arrayLst.length + 1 ≤ size / arrayLst.dataSize :=
    Int.le_ediv_of_mul_le sizeSome enough
  have positive : 0 ≤ size := by
    have whole : 0 ≤ (arrayLst.length + 1) * (arrayLst.dataSize : Int) :=
      Int.mul_nonneg (by omega) (by omega)
    omega
  have kept : elements.length * arrayLst.dataSize ≤ size.toNat := by
    rw [counted, Int.add_mul, Int.one_mul] at enough
    have same : ((elements.length * arrayLst.dataSize : Nat) : Int) =
        (elements.length : Int) * arrayLst.dataSize := Int.natCast_mul _ _
    omega
  refine ⟨⟨⟨counted, ?_, ?_, ?_⟩, sound.size, sound.sizeSome, ?_, incrementSome, ?_⟩, by omega⟩
  · exact Int.le_of_lt (Int.lt_of_add_one_le larger)
  · have whole := Int.ediv_mul_le size (Int.ne_of_gt sizeSome)
    show size / arrayLst.dataSize * arrayLst.dataSize ≤ (block.length : Int)
    rw [length]
    omega
  · show Packed arrayLst.dataSize elements block
    rw [content]
    exact sound.packed.kept kept more
  · show 0 < size / (arrayLst.dataSize : Int)
    omega
  · show block.length < 2 ^ 31
    rw [length]
    omega

/-- An add that enlarges the array if it has to appends the element, or fails for want of memory
and changes nothing. -/
theorem addToList_sound (sound : Sound dataSize arrayLst elements) {memory : Memory}
    (enlarges : Enlarges arrayLst (.addToList element memory)) :
    ∃ returned next, addToList arrayLst element.bytes memory = .ok (returned, next) ∧
      (returned = 0 ∧ Sound dataSize next (elements ++ [element.bytes]) ∨
        returned = 1 ∧ arrayLst.length = arrayLst.allocated ∧ memory = none ∧
          Sound dataSize next elements) := by
  have room := sound.room
  have incrementSome := sound.incrementSome
  rw [addToList]
  split
  · rename_i free
    obtain ⟨next, ran, soundNext⟩ := putBehind_sound sound free
    exact ⟨0, next, ran, .inl ⟨rfl, soundNext⟩⟩
  · rename_i full
    have same : arrayLst.length = arrayLst.allocated := by
      omega
    obtain ⟨fits, notZero, enough⟩ := enlarges same
    have doubled : signed (arrayLst.listIncrement * 2) = .ok (arrayLst.listIncrement * 2) :=
      signed_ok (by omega) fits
    rw [doubled, ok_bind]
    cases memory with
    | none =>
        simp only [realloc_none, if_neg notZero, pure_eq_ok]
        refine ⟨1, _, rfl, .inr ⟨rfl, same, trivial, ?_⟩⟩
        exact
          { sound with incrementSome := by show 0 < arrayLst.listIncrement * 2; omega }
    | some fresh =>
        have enough := enough (Option.some_ne_none fresh)
        have counted := sound.length
        have sizeSome : (0 : Int) < arrayLst.dataSize := by
          rw [sound.size]
          exact Int.natCast_pos.mpr sound.sizeSome
        have positive : 0 < (arrayLst.length + 1) * (arrayLst.dataSize : Int) :=
          Int.mul_pos (by omega) sizeSome
        obtain ⟨more, ran, length⟩ :=
          realloc_some arrayLst.data (Int.lt_of_lt_of_le positive enough) fresh
        obtain ⟨soundEnlarged, free⟩ := enlarged_sound sound rfl length enough
          (newSize_lt _ _) (show 0 < arrayLst.listIncrement * 2 by omega)
        obtain ⟨next, put, soundNext⟩ := putBehind_sound soundEnlarged free
        simp only [ran]
        exact ⟨0, next, put, .inl ⟨rfl, soundNext⟩⟩

/-- Putting an element behind the others reports success. -/
theorem putBehind_returned {data : Bytes} {returned : Int} {next : ArrayList}
    (ran : putBehind arrayLst data = .ok (returned, next)) : returned = 0 := by
  obtain ⟨copied, -, ran⟩ := bind_eq_ok.mp ran
  obtain ⟨written, -, ran⟩ := bind_eq_ok.mp ran
  obtain ⟨length, -, ran⟩ := bind_eq_ok.mp ran
  exact (congrArg Prod.fst (Except.ok.inj ran)).symm

/-- An add that does not return 0 leaves the length. It does that if the array is full and there is
no memory. -/
theorem addToList_returned {data : Bytes} {memory : Memory} {returned : Int} {next : ArrayList}
    (ran : addToList arrayLst data memory = .ok (returned, next)) :
    returned = 0 ∧ (arrayLst.length = arrayLst.allocated → memory ≠ none) ∨
      returned = 1 ∧ next.length = arrayLst.length := by
  rw [addToList] at ran
  split at ran
  · rename_i free
    exact .inl ⟨putBehind_returned ran, fun full => absurd full (Int.ne_of_lt free)⟩
  · obtain ⟨doubled, -, ran⟩ := bind_eq_ok.mp ran
    cases memory with
    | none =>
        simp only [realloc_none, pure_eq_ok, Except.ok.injEq, Prod.mk.injEq] at ran
        exact .inr ⟨ran.1.symm, by rw [← ran.2]⟩
    | some fresh =>
        dsimp only at ran
        split at ran
        · obtain ⟨rfl, rfl⟩ := Prod.mk.inj (Except.ok.inj ran)
          exact .inr ⟨rfl, rfl⟩
        · exact .inl ⟨putBehind_returned ran, fun _ => Option.some_ne_none fresh⟩

/-- Only an add that enlarges the array if it has to does what it should. -/
theorem enlarges_of_added (sound : Sound dataSize arrayLst elements) {memory : Memory}
    {returned : Int} {next : ArrayList}
    (ran : addToList arrayLst element.bytes memory = .ok (returned, next))
    (answered : Answers arrayLst elements (.addToList element memory) (.value returned))
    (kept : next.allocated * next.dataSize ≤ next.data.length) :
    Enlarges arrayLst (.addToList element memory) := by
  intro full
  rw [addToList, if_neg (by omega)] at ran
  obtain ⟨doubled, ranDoubled, ran⟩ := bind_eq_ok.mp ran
  obtain ⟨rfl, fits⟩ := signed_eq_ok ranDoubled
  refine ⟨fits, ?_, ?_⟩
  · -- The array would have been freed.
    intro zero
    have none : realloc arrayLst.data (newSize arrayLst (arrayLst.listIncrement * 2)) memory =
        none := if_pos (Int.le_of_eq zero)
    simp only [none, if_pos zero, pure_eq_ok, Except.ok.injEq, Prod.mk.injEq] at ran
    rw [← ran.2] at kept
    have sizeSome : (0 : Int) < arrayLst.dataSize := by
      rw [sound.size]
      exact Int.natCast_pos.mpr sound.sizeSome
    have positive := Int.mul_pos sound.allocatedSome sizeSome
    exact absurd kept (Int.not_le.mpr positive)
  · intro available
    obtain ⟨fresh, rfl⟩ := Option.ne_none_iff_exists'.mp available
    by_cases positive : 0 < newSize arrayLst (arrayLst.listIncrement * 2)
    · obtain ⟨more, reallocated, length⟩ := realloc_some arrayLst.data positive fresh
      simp only [reallocated, putBehind] at ran
      obtain ⟨copied, ranRead, ran⟩ := bind_eq_ok.mp ran
      obtain ⟨written, ranWrite, ran⟩ := bind_eq_ok.mp ran
      have whole : copied.length = arrayLst.dataSize := by
        obtain ⟨-, rfl⟩ := readBytes_eq_ok.mp ranRead
        rw [slice, List.drop_zero, List.length_take, element.allocated, sound.size, Nat.min_self]
      have sizeSome := sound.sizeSome
      have counted := sound.length
      have same : (arrayLst.length + 1) * (arrayLst.dataSize : Int) =
          ((arrayLst.length.toNat * arrayLst.dataSize + arrayLst.dataSize : Nat) : Int) := by
        have natural : arrayLst.length = (arrayLst.length.toNat : Int) := by
          omega
        rw [natural, Int.toNat_natCast, Int.add_mul, Int.one_mul]
        rfl
      rcases (writeBytes_eq_ok.mp ranWrite).1 with fits | nothing
      · rw [length, whole] at fits
        omega
      · rw [nothing, List.length_nil] at whole
        exact absurd (whole.trans sound.size) (Nat.ne_of_lt sizeSome)
    · have none : realloc arrayLst.data (newSize arrayLst (arrayLst.listIncrement * 2))
          (some fresh) = none := if_pos (Int.not_lt.mp positive)
      simp only [none, pure_eq_ok, Except.ok.injEq, Prod.mk.injEq] at ran
      rw [← ran.1] at answered
      rcases answered with zero | ⟨-, -, refused⟩
      · cases zero
      · cases refused

end Adding

/-! ### The other operations -/

section Others

variable {dataSize : Nat} {arrayLst : ArrayList} {elements : List Bytes} {index : Int}

/-- An index is in range for the array exactly if it is for the elements. -/
theorem in_range_iff (represents : Represents arrayLst elements) :
    index < arrayLst.length ∧ 0 ≤ index ↔ 0 ≤ index ∧ index.toNat < elements.length := by
  rw [represents.length]
  omega

/-- An element is removed by the move of those behind it. -/
theorem removeFromList_sound (sound : Sound dataSize arrayLst elements) (low : 0 ≤ index)
    (inside : index.toNat < elements.length) :
    ∃ next, removeFromList arrayLst index = .ok (0, next) ∧
      Sound dataSize next (elements.eraseIdx index.toNat) := by
  have range := (in_range_iff sound.toRepresents).mpr ⟨low, inside⟩
  have counted := sound.length
  have items : (arrayLst.length - index - 1).toNat = elements.length - index.toNat - 1 := by
    omega
  have readFits := sound.packed.behind_fits inside
  have writeFits : index.toNat * arrayLst.dataSize +
      (slice arrayLst.data ((index.toNat + 1) * arrayLst.dataSize)
        (arrayLst.dataSize * (elements.length - index.toNat - 1))).length ≤
          arrayLst.data.length := by
    rw [length_slice readFits]
    rw [Nat.add_mul] at readFits
    omega
  refine
    ⟨{ arrayLst with
        data := splice arrayLst.data (index.toNat * arrayLst.dataSize)
          (slice arrayLst.data ((index.toNat + 1) * arrayLst.dataSize)
            (arrayLst.dataSize * (elements.length - index.toNat - 1)))
        length := arrayLst.length - 1 }, ?_, ?_⟩
  · simp only [removeFromList, if_pos range, items, readBytes_ok readFits, ok_bind,
      writeBytes_ok writeFits, pure_eq_ok]
  · refine
      { length := ?_
        room := ?_
        memory := ?_
        packed := sound.packed.erase inside
        size := sound.size
        sizeSome := sound.sizeSome
        allocatedSome := sound.allocatedSome
        incrementSome := sound.incrementSome
        small := ?_ }
    · rw [List.length_eraseIdx_of_lt inside]
      show arrayLst.length - 1 = _
      omega
    · have room := sound.room
      show arrayLst.length - 1 ≤ arrayLst.allocated
      omega
    · rw [length_splice writeFits]
      exact sound.memory
    · rw [length_splice writeFits]
      exact sound.small

/-- The pointer that is returned is to the element. -/
theorem getFromList_element (sound : Sound dataSize arrayLst elements) (low : 0 ≤ index)
    (inside : index.toNat < elements.length) :
    ∃ offset, getFromList arrayLst index = some offset ∧
      readBytes arrayLst.data offset arrayLst.dataSize = .ok elements[index.toNat] := by
  refine ⟨_, if_pos ((in_range_iff sound.toRepresents).mpr ⟨low, inside⟩), ?_⟩
  have whole : elements[index.toNat].length = arrayLst.dataSize :=
    sound.packed.sizes _ (List.getElem_mem inside)
  rw [readBytes_ok (sound.packed.record_fits inside),
    sound.packed.slice_record inside (Nat.le_refl _), List.take_of_length_le (Nat.le_of_eq whole)]

/-- The loop finds the first element from `i` on that starts with the data. -/
theorem findInListFrom_eq (sound : Sound dataSize arrayLst elements) {dataLen : Nat}
    (within : dataLen ≤ dataSize) (data : Block dataLen) (fuel i : Nat)
    (left : fuel = elements.length - i) :
    findInListFrom arrayLst data.bytes dataLen fuel i =
      .ok
        (match (elements.drop i).findIdx? fun element => element.take dataLen = data.bytes with
        | some index => ((i + index : Nat) : Int)
        | none => -1) := by
  induction fuel generalizing i with
  | zero =>
      rw [List.drop_eq_nil_of_le (by omega)]
      rfl
  | succ fuel ih =>
      have inside : i < elements.length := by
        omega
      have fits := sound.packed.record_fits inside
      have within : dataLen ≤ arrayLst.dataSize := sound.size ▸ within
      have entry : readBytes arrayLst.data (i * arrayLst.dataSize) dataLen =
          .ok (elements[i].take dataLen) := by
        rw [readBytes_ok (by omega), sound.packed.slice_record inside within]
      have sought : readBytes data.bytes 0 dataLen = .ok data.bytes := by
        rw [readBytes_ok (by rw [data.allocated]; omega), slice, List.drop_zero,
          List.take_of_length_le (Nat.le_of_eq data.allocated)]
      rw [findInListFrom, entry, ok_bind, sought, ok_bind, List.drop_eq_getElem_cons inside,
        List.findIdx?_cons]
      split
      · rename_i same
        simp only [same, decide_true, if_true, pure_eq_ok, Nat.add_zero]
      · rename_i other
        rw [ih (i + 1) (by omega)]
        simp only [other, decide_false]
        cases (elements.drop (i + 1)).findIdx? fun element => element.take dataLen = data.bytes with
        | none => rfl
        | some index =>
            have next : i + 1 + index = i + (index + 1) := by
              omega
            exact congrArg (fun found : Nat => Except.ok (found : Int)) next

end Others

/-! ### Calls -/

section Calls

variable {dataSize : Nat} {arrayLst : ArrayList} {elements : List Bytes}
  {call : ListCall dataSize} {calls : List (ListCall dataSize)}

/-- An array that enlarges itself if it has to answers a call as the list. -/
theorem call_sound (sound : Sound dataSize arrayLst elements) (enlarges : Enlarges arrayLst call) :
    ∃ result next, listCall arrayLst call = .ok (result, next) ∧
      Answers arrayLst elements call result ∧
        Sound dataSize next (elementsAfter elements call result) := by
  have represents := sound.toRepresents
  cases call with
  | addToList element memory =>
      obtain ⟨returned, next, ran, added | ⟨rfl, full, refused, soundNext⟩⟩ :=
        addToList_sound sound enlarges
      · obtain ⟨rfl, soundNext⟩ := added
        exact ⟨.value 0, next, by rw [listCall, ran]; rfl, .inl rfl, soundNext⟩
      · exact ⟨.value 1, next, by rw [listCall, ran]; rfl, .inr ⟨rfl, full, refused⟩, soundNext⟩
  | getFromList index =>
      by_cases range : 0 ≤ index ∧ index.toNat < elements.length
      · obtain ⟨low, inside⟩ := range
        obtain ⟨offset, ran, readElement⟩ := getFromList_element sound low inside
        refine ⟨.element (some elements[index.toNat]), arrayLst, ?_, ?_, sound⟩
        · simp only [listCall, ran, readElement, ok_bind, pure_eq_ok]
        · rw [Answers, if_pos low, List.getElem?_eq_getElem inside]
      · have none : getFromList arrayLst index = none :=
          if_neg fun inside => range ((in_range_iff represents).mp inside)
        refine ⟨.element Option.none, arrayLst, ?_, ?_, sound⟩
        · simp only [listCall, none, pure_eq_ok]
        · rw [Answers]
          split
          · rename_i low
            rw [List.getElem?_eq_none (Nat.le_of_not_lt fun inside => range ⟨low, inside⟩)]
          · rfl
  | findInList dataLen within data =>
      have counted : arrayLst.length.toNat = elements.length := by
        have length := sound.length
        omega
      have ran := findInListFrom_eq sound within data arrayLst.length.toNat 0 counted
      rw [List.drop_zero] at ran
      refine ⟨.value (firstIndex elements dataLen data.bytes), arrayLst, ?_, rfl, sound⟩
      simp only [listCall, findInList, ran, ok_bind, firstIndex, Nat.zero_add, pure_eq_ok]
  | removeFromList index =>
      by_cases range : 0 ≤ index ∧ index.toNat < elements.length
      · obtain ⟨low, inside⟩ := range
        obtain ⟨next, ran, soundNext⟩ := removeFromList_sound sound low inside
        refine ⟨.value 0, next, ?_, ?_, ?_⟩
        · simp only [listCall, ran, ok_bind, pure_eq_ok]
        · rw [Answers, if_pos ⟨low, by omega⟩]
        · rw [elementsAfter, if_pos low]
          exact soundNext
      · have outside : removeFromList arrayLst index = .ok (-1, arrayLst) :=
          if_neg fun inside => range ((in_range_iff represents).mp inside)
        refine ⟨.value (-1), arrayLst, ?_, ?_, ?_⟩
        · simp only [listCall, outside, ok_bind, pure_eq_ok]
        · rw [Answers, if_neg (by omega)]
        · rw [elementsAfter]
          split
          · rename_i low
            rw [List.eraseIdx_of_length_le (Nat.le_of_not_lt fun inside => range ⟨low, inside⟩)]
            exact sound
          · exact sound

/-- An add that wants less than 2^31 bytes asks for them. -/
theorem enlarges_of_small (sound : Sound dataSize arrayLst elements)
    (small : (arrayLst.allocated + arrayLst.listIncrement * 2) * arrayLst.dataSize < 2 ^ 31) :
    Enlarges arrayLst call := by
  cases call with
  | addToList element memory =>
      intro full
      have allocatedSome := sound.allocatedSome
      have incrementSome := sound.incrementSome
      have sizeSome : (1 : Int) ≤ arrayLst.dataSize := by
        rw [sound.size]
        exact Int.natCast_pos.mpr sound.sizeSome
      have wanted : (arrayLst.length + 1) * arrayLst.dataSize ≤
          (arrayLst.allocated + arrayLst.listIncrement * 2) * arrayLst.dataSize :=
        Int.mul_le_mul_of_nonneg_right (by omega) (by omega)
      have positive : 0 < (arrayLst.length + 1) * (arrayLst.dataSize : Int) :=
        Int.mul_pos (by omega) (by omega)
      have doubled : arrayLst.listIncrement * 2 * 1 ≤
          (arrayLst.allocated + arrayLst.listIncrement * 2) * arrayLst.dataSize :=
        Int.mul_le_mul (by omega) sizeSome (by decide) (by omega)
      have same : newSize arrayLst (arrayLst.listIncrement * 2) =
          (arrayLst.allocated + arrayLst.listIncrement * 2) * arrayLst.dataSize := by
        rw [newSize, toInt, Int.mul_comm (arrayLst.dataSize : Int), ← Int.add_mul]
        exact Int.bmod_eq_of_le (by omega) (by omega)
      rw [same]
      exact ⟨by omega, by omega, fun _ => wanted⟩
  | getFromList index => trivial
  | findInList dataLen within data => trivial
  | removeFromList index => trivial

/-- A list that refines the model stands for its elements. -/
theorem Refines.represents (refines : Refines arrayLst elements calls) :
    Represents arrayLst elements := by
  cases calls with
  | nil => exact refines
  | cons call calls => exact refines.1

/-- An array that answers a call as the list and holds its elements then enlarges itself if it has
to. -/
theorem enlarges_of_answered (sound : Sound dataSize arrayLst elements) {result : ListResult}
    {next : ArrayList} (ran : listCall arrayLst call = .ok (result, next))
    (answered : Answers arrayLst elements call result)
    (represents : Represents next (elementsAfter elements call result)) :
    Enlarges arrayLst call := by
  cases call with
  | addToList element memory =>
      obtain ⟨⟨returned, left⟩, ranAdd, ran⟩ := bind_eq_ok.mp ran
      obtain ⟨rfl, rfl⟩ := Prod.mk.inj (Except.ok.inj ran)
      exact enlarges_of_added sound ranAdd answered represents.memory
  | getFromList index => trivial
  | findInList dataLen within data => trivial
  | removeFromList index => trivial

/-- A sound array answers all calls as the list, exactly if it enlarges itself at every add that
finds it full. -/
theorem refines_iff_along (sound : Sound dataSize arrayLst elements) :
    Refines arrayLst elements calls ↔
      Along listStep arrayLst (fun _ reached call => Enlarges reached call) calls := by
  induction calls generalizing arrayLst elements with
  | nil => exact ⟨fun _ => along_nil, fun _ => sound.toRepresents⟩
  | cons call calls ih =>
      rw [along_cons]
      constructor
      · rintro ⟨-, result, next, ran, answered, refines⟩
        have enlarges := enlarges_of_answered sound ran answered refines.represents
        refine ⟨enlarges, fun reached stepped => ?_⟩
        obtain ⟨same, left, ranSame, -, soundNext⟩ := call_sound sound enlarges
        rw [ran] at ranSame
        obtain ⟨rfl, rfl⟩ := Prod.mk.inj (Except.ok.inj ranSame)
        rw [listStep, ran] at stepped
        obtain rfl := Except.ok.inj stepped
        exact (ih soundNext).mp refines
      · rintro ⟨enlarges, along⟩
        obtain ⟨result, next, ran, answered, soundNext⟩ := call_sound sound enlarges
        have stepped : listStep arrayLst call = .ok next := by
          rw [listStep, ran]
          rfl
        exact ⟨sound.toRepresents, result, next, ran, answered,
          (ih soundNext).mpr (along next stepped)⟩

end Calls

/-! ### All sequences of calls -/

section Runs

variable {dataSize : Nat} {memory : Memory} {arrayLst : ArrayList}

/-- A new array is sound and empty. -/
theorem initList_sound (some : 0 < dataSize) (small : dataSize * 5 < 2 ^ 31)
    (made : initList dataSize memory = Option.some arrayLst) : Sound dataSize arrayLst [] := by
  rw [initList, Option.map_eq_some_iff] at made
  obtain ⟨data, allocated, rfl⟩ := made
  have length := length_malloc allocated
  exact
    { length := rfl
      room := by show (0 : Int) ≤ 5; decide
      memory := by
        show (5 : Int) * dataSize ≤ (data.length : Int)
        rw [length]
        omega
      packed := .nil
      size := rfl
      sizeSome := some
      allocatedSome := by show (0 : Int) < 5; decide
      incrementSome := by show (0 : Int) < 5; decide
      small := by
        show data.length < 2 ^ 31
        rw [length]
        exact small }

/-- The array implements a list over a sequence of calls, exactly if at every add that finds it
full what it asks for is more than it has. -/
theorem refines_iff (some : 0 < dataSize) (small : dataSize * 5 < 2 ^ 31)
    (made : initList dataSize memory = Option.some arrayLst) (calls : List (ListCall dataSize)) :
    Refines arrayLst [] calls ↔
      Along listStep arrayLst (fun _ reached call => Enlarges reached call) calls :=
  refines_iff_along (initList_sound some small made)

/-- An array that answers calls as a list carries them out. -/
theorem Refines.runs {elements : List Bytes} {calls : List (ListCall dataSize)}
    (refines : Refines arrayLst elements calls) :
    ∃ final, runFrom listStep arrayLst calls = .ok final := by
  induction calls generalizing arrayLst elements with
  | nil => exact ⟨arrayLst, rfl⟩
  | cons call calls ih =>
      obtain ⟨-, result, next, ran, -, refines⟩ := refines
      obtain ⟨final, ranRest⟩ := ih refines
      refine ⟨final, ?_⟩
      rw [runFrom_cons, listStep, ran]
      exact ranRest

end Runs

/-- Memory that is found, and zeroed. -/
def zeroed : Memory := some fun _ => 0

/-- A new array in such memory. -/
def newList (dataSize : Nat) : ArrayList :=
  { data := (List.range (dataSize * 5)).map fun _ => 0
    dataSize := dataSize
    allocated := 5
    length := 0
    listIncrement := 5 }

/-- Initialising a list in zeroed memory gives the new list. -/
theorem initList_zeroed (dataSize : Nat) : initList dataSize zeroed = some (newList dataSize) := rfl

/-- An array of elements of two bytes that is full, has no memory for one more, and then has. -/
def refusedOnce : List (ListCall 2) :=
  List.replicate 5 (.addToList (Block.fill 2 7) none) ++
    [.addToList (Block.fill 2 8) none, .addToList (Block.fill 2 9) zeroed, .removeFromList 0,
      .findInList 1 (by decide) (Block.fill 1 9), .getFromList 5]

/-- One refused reallocation is survived. -/
theorem refusedOnce_refines : Refines (newList 2) [] refusedOnce := by
  have enlarges : Along listStep (newList 2) (fun _ reached call => Enlarges reached call)
      refusedOnce := by
    decide +kernel
  exact (refines_iff (by decide) (by decide) (initList_zeroed 2) refusedOnce).mpr enlarges

/-- An array of elements of 32 bytes, full while there is no memory for a while. -/
def refusedOften : List (ListCall 32) :=
  List.replicate 5 (.addToList (Block.fill 32 7) none) ++
    List.replicate 26 (.addToList (Block.fill 32 8) none) ++
      [.addToList (Block.fill 32 9) zeroed]

/-- Each refused add has doubled the increment, until the size is cut down to the 160 bytes that
the array has. Then the sixth element is written behind them. -/
theorem refusedOften_overruns :
    ¬ ∀ (dataSize : Nat) (memory : Memory) (arrayLst : ArrayList)
        (calls : List (ListCall dataSize)),
      0 < dataSize → dataSize * 5 < 2 ^ 31 → initList dataSize memory = some arrayLst →
      Along listStep arrayLst
          (fun _ reached _ => reached.allocated * reached.dataSize < 2 ^ 31) calls →
        Refines arrayLst [] calls := by
  intro claim
  have small : Along listStep (newList 32)
      (fun _ reached _ => reached.allocated * reached.dataSize < 2 ^ 31) refusedOften := by
    decide +kernel
  have refines := claim 32 zeroed (newList 32) refusedOften (by decide) (by decide)
    (initList_zeroed 32) small
  obtain ⟨final, ran⟩ := refines.runs
  have faults : runFrom listStep (newList 32) refusedOften = .error .outOfBounds := by
    decide +kernel
  exact absurd (ran.symm.trans faults) nofun

end RentMate.ArrayListRefinement
