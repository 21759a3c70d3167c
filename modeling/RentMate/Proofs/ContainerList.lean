/-
Module: RentMate.Proofs.ContainerList
Purpose: A container that grows by `appendToPckData`: for which element lists the readers give
  back what was appended, and for which the container stays inside its allocation.
Trusted boundary: none
Main exports: FaithfulList, faithfulList_iff, CapacityInvariant, capacityInvariant_iff
-/
import RentMate.Proofs.ContainerCodec
import RentMate.Machine.Run

namespace RentMate.ContainerList

open RentMate.Machine
open RentMate.PckData
open RentMate.ContainerCodec

variable {host : ByteOrder} {pckData grown : Block pckDataIncrements} {elements : List Bytes}

/-! ### Building a container from a list -/

/-- The container that `initPckData` begins on what `malloc` returned, after one
`appendToPckData` for every element. -/
def buildPckData (host : ByteOrder) (malloced : Block pckDataIncrements)
    (elements : List Bytes) : Checked (Block pckDataIncrements) := do
  let pckData ← initPckData host malloced
  runFrom (appendToPckData host) pckData elements

/-- Appending to a container that holds elements already. -/
theorem append_all_ok (more : List Bytes) (built : Built host pckData elements)
    (room : 8 + elementsLength (elements ++ more) ≤ pckDataIncrements) :
    ∃ full, runFrom (appendToPckData host) pckData more = .ok full ∧
      Built host full (elements ++ more) := by
  induction more generalizing pckData elements with
  | nil => exact ⟨pckData, rfl, by rwa [List.append_nil]⟩
  | cons element more ih =>
      have roomNow : 8 + elementsLength elements + 4 + element.length ≤ pckDataIncrements := by
        rw [elementsLength_append, elementsLength_cons] at room
        omega
      obtain ⟨next, appended, builtNext⟩ := appendToPckData_ok built element roomNow
      have regrouped : elements ++ element :: more = (elements ++ [element]) ++ more := by simp
      rw [regrouped] at room ⊢
      obtain ⟨full, ran, builtFull⟩ := ih builtNext room
      exact ⟨full, by rw [runFrom_cons, appended, ok_bind, ran], builtFull⟩

/-- Elements that have room are built into a container. -/
theorem buildPckData_ok (host : ByteOrder) (malloced : Block pckDataIncrements)
    (room : 8 + elementsLength elements ≤ pckDataIncrements) :
    ∃ full, buildPckData host malloced elements = .ok full ∧ Built host full elements := by
  obtain ⟨begun, initialised, built⟩ := initPckData_ok host malloced
  obtain ⟨full, ran, builtFull⟩ := append_all_ok elements built room
  exact ⟨full, by rw [buildPckData, initialised, ok_bind, ran], builtFull⟩

/-! ### Reading the elements back -/

/-- The readers find every element with its length, and nothing behind the last one. -/
def ReadsBack (host : ByteOrder) (pckData : Block pckDataIncrements) (elements : List Bytes) :
    Prop :=
  ∀ (outputSize : Nat) (output : Block outputSize) (index : Nat),
    (∀ element, elements[index]? = some element → element.length ≤ outputSize →
      (∃ written,
        getElementFromPckData host pckData 0 output index =
            .ok (UInt32.ofNat element.length, written) ∧
          written.bytes = element ++ output.bytes.drop element.length) ∧
        getElementLengthFromPckData host pckData 0 index =
          .ok (UInt32.ofNat element.length)) ∧
      (elements.length ≤ index →
        getElementFromPckData host pckData 0 output index = .ok (minusOne, output) ∧
          getElementLengthFromPckData host pckData 0 index = .ok minusOne)

/-- Whatever `malloc` returned, the container gives back the list it was built from. -/
def FaithfulList (host : ByteOrder) (elements : List Bytes) : Prop :=
  ∀ malloced, ∃ full, buildPckData host malloced elements = .ok full ∧
    ReadsBack host full elements

/-- A container whose last element is not empty is read back. -/
theorem readsBack_of_last {last : Bytes} (built : Built host pckData elements)
    (ends : elements.getLast? = some last) (begun : last ≠ []) :
    ReadsBack host pckData elements := by
  obtain ⟨container, rest, content, -, rfl⟩ := built
  have start : pckData.bytes = [] ++ (container.bytes host ++ rest) := content
  have some : container.elements ≠ [] := by
    intro empty
    simp [empty] at ends
  intro outputSize output index
  refine ⟨fun element known fits => ⟨?_, getElementLength_ok start rfl known⟩, fun behind =>
    ⟨getElement_missing start rfl some behind, getElementLength_missing start rfl some behind⟩⟩
  refine getElement_ok _ start rfl known ?_ fits
  by_cases lastIndex : index + 1 < container.elements.length
  · exact .inr lastIndex
  · obtain ⟨inside, -⟩ := List.getElem?_eq_some_iff.mp known
    have atEnd : index = container.elements.length - 1 := by omega
    rw [List.getLast?_eq_getElem?, ← atEnd, known] at ends
    obtain rfl := Option.some.inj ends
    exact .inl begun

/-- A container without elements has no first length, but the reader returns whatever `malloc`
left where it would be. -/
theorem empty_not_faithful : ¬ FaithfulList host [] := by
  intro faithful
  obtain ⟨full, ran, reads⟩ := faithful default
  obtain ⟨-, noLength⟩ := (reads 0 default 0).2 (Nat.le_refl _)
  have first : (buildPckData host default [] >>= fun full =>
      getElementLengthFromPckData host full 0 0) = .ok 0 := by
    cases host <;> decide +kernel
  rw [ran, ok_bind, noLength] at first
  exact absurd (Except.ok.inj first) (by decide)

/-- An empty last element is not found. -/
theorem empty_last_not_readsBack (built : Built host pckData elements)
    (ends : elements.getLast? = some []) : ¬ ReadsBack host pckData elements := by
  obtain ⟨container, rest, content, -, rfl⟩ := built
  intro reads
  have start : pckData.bytes = [] ++ (container.bytes host ++ rest) := content
  have some : container.elements ≠ [] := by
    intro empty
    simp [empty] at ends
  have positive := List.length_pos_iff.mpr some
  rw [List.getLast?_eq_getElem?] at ends
  obtain ⟨⟨written, found, -⟩, -⟩ :=
    (reads 0 default (container.elements.length - 1)).1 [] ends (Nat.le_refl _)
  have missed : getElementFromPckData host pckData 0 (default : Block 0)
      (container.elements.length - 1) = .ok (minusOne, default) :=
    getElement_empty start rfl ends (by omega)
  have same : minusOne = UInt32.ofNat 0 :=
    congrArg Prod.fst (Except.ok.inj (missed.symm.trans found))
  exact absurd same (by decide)

/-- Exactly the lists whose last element has bytes are read back. -/
theorem faithfulList_iff (room : 8 + elementsLength elements ≤ pckDataIncrements) :
    FaithfulList host elements ↔ ∃ last, elements.getLast? = some last ∧ last ≠ [] := by
  constructor
  · intro faithful
    cases ends : elements.getLast? with
    | none =>
        obtain rfl := List.getLast?_eq_none_iff.mp ends
        exact absurd faithful empty_not_faithful
    | some last =>
        refine ⟨last, rfl, ?_⟩
        rintro rfl
        obtain ⟨full, ran, built⟩ := buildPckData_ok host default room
        obtain ⟨full', ran', reads⟩ := faithful default
        obtain rfl := Except.ok.inj (ran.symm.trans ran')
        exact empty_last_not_readsBack built ends reads
  · rintro ⟨last, ends, begun⟩ malloced
    obtain ⟨full, ran, built⟩ := buildPckData_ok host malloced room
    exact ⟨full, ran, readsBack_of_last built ends begun⟩

/-- Three elements, the first two of them empty, come back. -/
theorem faithful_three : FaithfulList .little [[], [], [7]] :=
  (faithfulList_iff (by decide)).mpr ⟨[7], rfl, by decide⟩

/-- The second of two elements is not found when it is empty. -/
theorem empty_argument_lost :
    (buildPckData .little default [[1], []] >>= fun full =>
        (getElementFromPckData .little full 0 (default : Block 4) 1).map Prod.fst) =
      .ok minusOne ∧
    ¬ FaithfulList .little [[1], []] := by
  have missed : (buildPckData .little default [[1], []] >>= fun full =>
      (getElementFromPckData .little full 0 (default : Block 4) 1).map Prod.fst) =
        .ok minusOne := by
    decide +kernel
  refine ⟨missed, fun faithful => ?_⟩
  obtain ⟨full, ran, reads⟩ := faithful default
  obtain ⟨⟨written, found, -⟩, -⟩ := (reads 4 default 1).1 [] rfl (Nat.zero_le _)
  rw [ran, ok_bind, found] at missed
  have same : UInt32.ofNat 0 = minusOne := Except.ok.inj missed
  exact absurd same (by decide)

/-! ### The capacity of a container -/

/-- One call of `appendToPckData`: it stays in the allocation, leaves a total length within the
limit and the limit within the allocation, and keeps the elements stored before. -/
def CapacityKept (host : ByteOrder) (pckData : Block pckDataIncrements) (newData : Bytes) :
    Prop :=
  ∃ grown currentLen totalLen currentLim,
    appendToPckData host pckData newData = .ok grown ∧
      pckData.load32 host 0 = .ok currentLen ∧ grown.load32 host 0 = .ok totalLen ∧
      grown.load32 host 4 = .ok currentLim ∧ totalLen ≤ currentLim ∧
      currentLim.toNat ≤ pckDataIncrements ∧
      slice grown.bytes 8 (currentLen.toNat - 8) = slice pckData.bytes 8 (currentLen.toNat - 8)

/-- Every call of the sequence, from `initPckData` on. -/
def CapacityInvariant (host : ByteOrder) (elements : List Bytes) : Prop :=
  ∀ malloced, ∃ begun, initPckData host malloced = .ok begun ∧
    Along (appendToPckData host) begun (fun _ reached newData => CapacityKept host reached newData)
      elements

/-- What the header of a container and the bytes behind it say. -/
theorem built_header (built : Built host pckData elements) :
    pckData.load32 host 0 = .ok (UInt32.ofNat (8 + elementsLength elements)) ∧
      pckData.load32 host 4 = .ok (UInt32.ofNat pckDataIncrements) ∧
      (UInt32.ofNat (8 + elementsLength elements)).toNat = 8 + elementsLength elements ∧
      8 + elementsLength elements ≤ pckDataIncrements ∧
      ∃ rest, pckData.bytes.drop 8 = elementsBytes host elements ++ rest := by
  obtain ⟨container, rest, content, increments, rfl⟩ := built
  have start : pckData.bytes = [] ++ (container.bytes host ++ rest) := content
  have place : pckData.bytes = host.encode (UInt32.ofNat container.length) ++
      (host.encode container.increments ++ (elementsBytes host container.elements ++ rest)) := by
    simpa only [Container.bytes, List.append_assoc] using content
  have limit := Block.load32_append host 4 place (by simp) (by simp)
  rw [ByteOrder.decode_encode, increments] at limit
  have total := pckData.allocated
  rw [content, List.length_append, length_bytes] at total
  refine ⟨(at_container start rfl).1, limit, toNat_length container, ?_, rest, ?_⟩
  · simp only [Container.length] at total
    omega
  · have header : (host.encode (UInt32.ofNat container.length) ++
        host.encode container.increments).length = 8 := by
      simp
    rw [place, ← List.append_assoc, List.drop_left' header]

/-- An element that has room keeps the capacity. -/
theorem append_capacityKept (built : Built host pckData elements) (newData : Bytes)
    (room : 8 + elementsLength (elements ++ [newData]) ≤ pckDataIncrements) :
    CapacityKept host pckData newData := by
  have roomNow : 8 + elementsLength elements + 4 + newData.length ≤ pckDataIncrements := by
    rw [elementsLength_append, elementsLength_cons, elementsLength_nil] at room
    omega
  obtain ⟨grown, appended, builtNext⟩ := appendToPckData_ok built newData roomNow
  obtain ⟨currentLen, -, currentNat, -, rest, content⟩ := built_header built
  obtain ⟨totalLen, currentLim, totalNat, -, restNext, contentNext⟩ := built_header builtNext
  refine ⟨grown, _, _, _, appended, currentLen, totalLen, currentLim, ?_, Nat.le_refl _, ?_⟩
  · rw [UInt32.le_iff_toNat_le, totalNat]
    exact room
  · rw [currentNat, Nat.add_sub_cancel_left, slice, slice, content, contentNext,
      elementsBytes_append, List.append_assoc, List.take_left' (length_elementsBytes host _),
      List.take_left' (length_elementsBytes host _)]

/-- A call that returns has had room for the element and its length. -/
theorem room_of_append (built : Built host pckData elements) {newData : Bytes}
    (appended : appendToPckData host pckData newData = .ok grown) :
    8 + elementsLength (elements ++ [newData]) ≤ pckDataIncrements := by
  obtain ⟨currentLen, currentLim, currentNat, -, -⟩ := built_header built
  simp only [appendToPckData, currentLen, currentLim, ok_bind] at appended
  split at appended
  · simp at appended
  · obtain ⟨sized, wroteLen, appended⟩ := bind_eq_ok.mp appended
    obtain ⟨filled, wroteData, -⟩ := bind_eq_ok.mp appended
    obtain ⟨lengthFits, -⟩ := Block.store32_eq_ok.mp wroteLen
    obtain ⟨dataFits, -⟩ := Block.write_eq_ok.mp wroteData
    rw [currentNat] at lengthFits dataFits
    rw [elementsLength_append, elementsLength_cons, elementsLength_nil]
    rcases dataFits with fits | empty
    · omega
    · simp only [empty, List.length_nil]
      omega

/-- From a container on, the calls keep the invariant exactly when everything fits. -/
theorem along_capacityKept_iff {more : List Bytes} (built : Built host pckData elements) :
    Along (appendToPckData host) pckData
        (fun _ reached newData => CapacityKept host reached newData) more ↔
      8 + elementsLength (elements ++ more) ≤ pckDataIncrements := by
  induction more generalizing pckData elements with
  | nil =>
      obtain ⟨-, -, -, room, -⟩ := built_header built
      simp only [along_nil, List.append_nil, room]
  | cons newData more ih =>
      have regrouped : elements ++ newData :: more = (elements ++ [newData]) ++ more := by simp
      rw [along_cons, regrouped]
      constructor
      · rintro ⟨⟨grown, -, -, -, appended, -⟩, behind⟩
        have room := room_of_append built appended
        rw [elementsLength_append, elementsLength_cons, elementsLength_nil] at room
        obtain ⟨next, appended', builtNext⟩ := appendToPckData_ok built newData (by omega)
        exact (ih builtNext).mp (behind next appended')
      · intro room
        have roomNow : 8 + elementsLength (elements ++ [newData]) ≤ pckDataIncrements := by
          rw [elementsLength_append] at room
          omega
        refine ⟨append_capacityKept built newData roomNow, fun next appended => ?_⟩
        rw [elementsLength_append, elementsLength_cons, elementsLength_nil] at roomNow
        obtain ⟨grown, appended', builtNext⟩ := appendToPckData_ok built newData (by omega)
        obtain rfl := Except.ok.inj (appended.symm.trans appended')
        exact (ih builtNext).mpr room

/-- Exactly the sequences whose elements fit into the first allocation with their lengths keep
the invariant. -/
theorem capacityInvariant_iff (host : ByteOrder) (elements : List Bytes) :
    CapacityInvariant host elements ↔ 8 + elementsLength elements ≤ pckDataIncrements := by
  constructor
  · intro kept
    obtain ⟨begun, initialised, along⟩ := kept default
    obtain ⟨begun', initialised', built⟩ := initPckData_ok host default
    obtain rfl := Except.ok.inj (initialised.symm.trans initialised')
    exact (along_capacityKept_iff built).mp along
  · intro room malloced
    obtain ⟨begun, initialised, built⟩ := initPckData_ok host malloced
    exact ⟨begun, initialised, (along_capacityKept_iff built).mpr room⟩

/-- An element of 244 bytes is written one byte past the allocation, and one of 248 bytes gives
`realloc` a pointer that `malloc` did not return. -/
theorem capacity_exceeded :
    (initPckData .little default >>= fun pckData =>
        appendToPckData .little pckData (List.replicate 244 1)) = .error .outOfBounds ∧
      (initPckData .little default >>= fun pckData =>
        appendToPckData .little pckData (List.replicate 248 1)) = .error .invalidRealloc ∧
      ¬ CapacityInvariant .little [List.replicate 244 1] := by
  have overrun : (initPckData .little default >>= fun pckData =>
      appendToPckData .little pckData (List.replicate 244 1)) = .error .outOfBounds := by
    decide +kernel
  refine ⟨overrun, by decide +kernel, fun kept => ?_⟩
  obtain ⟨begun, initialised, along⟩ := kept default
  obtain ⟨⟨grown, -, -, -, appended, -⟩, -⟩ := along_cons.mp along
  rw [initialised, ok_bind, appended] at overrun
  simp at overrun

end RentMate.ContainerList
