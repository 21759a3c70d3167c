/-
Module: RentMate.Proofs.ContainerCodec
Purpose: A container as a list of elements, its bytes in either byte order, and what the
  functions of `pckData.c` do to these bytes wherever they lie in memory.
Trusted boundary: none
Main exports: Container, pckDataToNetworkOrder_ok, pckDataToHostOrder_ok, getElement_ok,
  printPckData_ok, appendToPckData_ok
-/
import RentMate.PckData.Container

namespace RentMate.ContainerCodec

open RentMate.Machine
open RentMate.PckData

/-! ### Containers and their bytes -/

/-- The space of elements with a length word each. -/
def elementsLength (elements : List Bytes) : Nat :=
  (elements.map fun element => 4 + element.length).sum

/-- The bytes of elements with a length word each. -/
def elementsBytes (order : ByteOrder) (elements : List Bytes) : Bytes :=
  elements.flatMap fun element => order.encode (UInt32.ofNat element.length) ++ element

/-- What a container says, apart from the byte order it says it in. Its total length is a
`uint32_t`. -/
structure Container where
  increments : UInt32
  elements : List Bytes
  short : 8 + elementsLength elements < 4294967296

namespace Container

/-- The total length: two words and the elements. -/
def length (container : Container) : Nat := 8 + elementsLength container.elements

/-- The bytes of the container when its words are stored in `order`. -/
def bytes (order : ByteOrder) (container : Container) : Bytes :=
  order.encode (UInt32.ofNat container.length) ++
    (order.encode container.increments ++ elementsBytes order container.elements)

end Container

section Bytes

variable (order : ByteOrder) (container : Container)

@[simp] theorem elementsLength_nil : elementsLength [] = 0 := rfl

@[simp] theorem elementsLength_cons (element : Bytes) (elements : List Bytes) :
    elementsLength (element :: elements) = 4 + element.length + elementsLength elements := by
  simp [elementsLength]

/-- The lengths of two parts add up. -/
theorem elementsLength_append (first second : List Bytes) :
    elementsLength (first ++ second) = elementsLength first + elementsLength second := by
  simp [elementsLength]

@[simp] theorem elementsBytes_nil : elementsBytes order [] = [] := rfl

/-- An element is its length word, its data and the elements behind it. -/
theorem elementsBytes_cons (element : Bytes) (elements : List Bytes) :
    elementsBytes order (element :: elements) =
      order.encode (UInt32.ofNat element.length) ++ (element ++ elementsBytes order elements) := by
  simp [elementsBytes]

/-- The elements of two parts lie one behind the other. -/
theorem elementsBytes_append (first second : List Bytes) :
    elementsBytes order (first ++ second) =
      elementsBytes order first ++ elementsBytes order second := by
  simp [elementsBytes]

/-- The elements take as many bytes as their lengths say. -/
@[simp] theorem length_elementsBytes (elements : List Bytes) :
    (elementsBytes order elements).length = elementsLength elements := by
  induction elements with
  | nil => rfl
  | cons element elements ih =>
      rw [elementsBytes_cons, elementsLength_cons]
      simp only [List.length_append, ByteOrder.encode_length, ih]
      omega

/-- There are no more elements than bytes. -/
theorem length_le_elementsLength (elements : List Bytes) :
    elements.length ≤ elementsLength elements := by
  induction elements with
  | nil => exact Nat.le_refl _
  | cons element elements ih =>
      rw [elementsLength_cons, List.length_cons]
      omega

/-- An element is no longer than all of them. -/
theorem length_le_of_getElem? {elements : List Bytes} {index : Nat} {element : Bytes}
    (known : elements[index]? = some element) : element.length ≤ elementsLength elements := by
  obtain ⟨before, behind, rfl⟩ := List.append_of_mem (List.mem_of_getElem? known)
  rw [elementsLength_append, elementsLength_cons]
  omega

/-- A container is as long as it says, in either byte order. -/
theorem length_bytes : (container.bytes order).length = container.length := by
  simp only [Container.bytes, Container.length, List.length_append, ByteOrder.encode_length,
    length_elementsBytes]
  omega

/-- The length of a container fits a word. -/
theorem length_lt : container.length < 4294967296 := container.short

/-- The length of a container comes back from its word. -/
theorem toNat_length : (UInt32.ofNat container.length).toNat = container.length := by
  rw [UInt32.toNat_ofNat']
  exact Nat.mod_eq_of_lt container.short

end Bytes

/-! ### Conversion -/

section Converting

variable {size : Nat} {host source target : ByteOrder} {lengthOf : UInt32 → UInt32}

/-- The loop over the elements turns their length words from `source` to `target`. -/
theorem convertElements_ok
    (lengths : ∀ word, lengthOf (host.decode (source.encode word)) = word)
    (swaps : ∀ word, host.encode (htonl host (host.decode (source.encode word))) =
      target.encode word)
    {pckData : Nat} {totalLen : UInt32} {elements : List Bytes} {front rest : Bytes} {fuel : Nat}
    {memory : Block size} {currentLen : UInt32}
    (content : memory.bytes = front ++ (elementsBytes source elements ++ rest))
    (position : front.length = pckData + currentLen.toNat)
    (total : totalLen.toNat = currentLen.toNat + elementsLength elements)
    (enough : elements.length < fuel) :
    ∃ converted,
      convertElements host lengthOf pckData totalLen fuel currentLen memory = .ok converted ∧
        converted.bytes = front ++ (elementsBytes target elements ++ rest) := by
  induction elements generalizing front fuel memory currentLen with
  | nil =>
      obtain ⟨fuel, rfl⟩ : ∃ less, fuel = less + 1 := ⟨fuel - 1, by simp at enough; omega⟩
      have done : ¬ currentLen < totalLen := by
        rw [UInt32.lt_iff_toNat_lt, total]
        simp
      exact ⟨memory, by rw [convertElements, if_neg done], content⟩
  | cons element elements ih =>
      obtain ⟨fuel, rfl⟩ : ∃ less, fuel = less + 1 := ⟨fuel - 1, by simp at enough; omega⟩
      have bound : totalLen.toNat < 4294967296 := totalLen.toNat_lt
      rw [elementsLength_cons] at total
      have more : currentLen < totalLen := by
        rw [UInt32.lt_iff_toNat_lt]
        omega
      have elementLen : (UInt32.ofNat element.length).toNat = element.length := by
        rw [UInt32.toNat_ofNat']
        exact Nat.mod_eq_of_lt (by omega)
      rw [elementsBytes_cons] at content
      have place : memory.bytes = front ++ (source.encode (UInt32.ofNat element.length) ++
          (element ++ (elementsBytes source elements ++ rest))) := by
        simpa only [List.append_assoc] using content
      have read := Block.load32_append host _ place position (by simp)
      obtain ⟨stored, wrote, filled⟩ := Block.store32_append host _
        (htonl host (host.decode (source.encode (UInt32.ofNat element.length)))) place position
        (by simp)
      rw [swaps] at filled
      have next : (currentLen + (UInt32.ofNat element.length + 4)).toNat =
          currentLen.toNat + (element.length + 4) := by
        have four : (4 : UInt32).toNat = 4 := rfl
        rw [UInt32.toNat_add, UInt32.toNat_add, elementLen, four]
        omega
      have behind : stored.bytes =
          (front ++ (target.encode (UInt32.ofNat element.length) ++ element)) ++
            (elementsBytes source elements ++ rest) := by
        simpa only [List.append_assoc] using filled
      have moved : (front ++ (target.encode (UInt32.ofNat element.length) ++ element)).length =
          pckData + (currentLen + (UInt32.ofNat element.length + 4)).toNat := by
        rw [next]
        simp only [List.length_append, ByteOrder.encode_length]
        omega
      obtain ⟨converted, ran, result⟩ := ih behind moved (by rw [next]; omega)
        (Nat.lt_of_succ_lt_succ enough)
      refine ⟨converted, ?_, ?_⟩
      · rw [convertElements, if_pos more, read, ok_bind, wrote, ok_bind, lengths, ran]
      · rw [result, elementsBytes_cons]
        simp only [List.append_assoc]

/-- A conversion turns the container from `source` to `target` and changes nothing else. -/
theorem convertPckData_ok
    (lengths : ∀ word, lengthOf (host.decode (source.encode word)) = word)
    (swaps : ∀ word, host.encode (htonl host (host.decode (source.encode word))) =
      target.encode word)
    {memory : Block size} {front rest : Bytes} (container : Container) {pckData : Nat}
    (content : memory.bytes = front ++ (container.bytes source ++ rest))
    (position : front.length = pckData) :
    ∃ converted,
      convertPckData host lengthOf memory pckData = .ok converted ∧
        converted.bytes = front ++ (container.bytes target ++ rest) := by
  have place : memory.bytes = front ++ (source.encode (UInt32.ofNat container.length) ++
      (source.encode container.increments ++
        (elementsBytes source container.elements ++ rest))) := by
    simpa only [Container.bytes, List.append_assoc] using content
  have readTotal := Block.load32_append host pckData place position (by simp)
  obtain ⟨first, wroteTotal, filledTotal⟩ := Block.store32_append host pckData
    (htonl host (host.decode (source.encode (UInt32.ofNat container.length)))) place position
    (by simp)
  rw [swaps] at filledTotal
  have placeIncrements : first.bytes =
      (front ++ target.encode (UInt32.ofNat container.length)) ++
        (source.encode container.increments ++
          (elementsBytes source container.elements ++ rest)) := by
    simpa only [List.append_assoc] using filledTotal
  have atIncrements :
      (front ++ target.encode (UInt32.ofNat container.length)).length = pckData + 4 := by
    simp [position]
  have readIncrements := Block.load32_append host (pckData + 4) placeIncrements atIncrements
    (by simp)
  obtain ⟨second, wroteIncrements, filledIncrements⟩ := Block.store32_append host (pckData + 4)
    (htonl host (host.decode (source.encode container.increments))) placeIncrements atIncrements
    (by simp)
  rw [swaps] at filledIncrements
  have behind : second.bytes =
      (front ++ (target.encode (UInt32.ofNat container.length) ++
        target.encode container.increments)) ++
        (elementsBytes source container.elements ++ rest) := by
    simpa only [List.append_assoc] using filledIncrements
  have eight : (8 : UInt32).toNat = 8 := rfl
  have few : container.elements.length < conversionBound :=
    Nat.lt_of_le_of_lt (length_le_elementsLength container.elements)
      (Nat.lt_of_le_of_lt (Nat.le_add_left _ 8) container.short)
  have atElements : (front ++ (target.encode (UInt32.ofNat container.length) ++
      target.encode container.increments)).length = pckData + (8 : UInt32).toNat := by
    simp [position, eight]
  have total : (UInt32.ofNat container.length).toNat =
      (8 : UInt32).toNat + elementsLength container.elements := by
    rw [toNat_length, eight]
    rfl
  obtain ⟨converted, ran, result⟩ :=
    convertElements_ok lengths swaps behind atElements total few
  refine ⟨converted, ?_, ?_⟩
  · simp only [convertPckData, readTotal, ok_bind, wroteTotal, readIncrements, wroteIncrements,
      lengths, ran]
  · rw [result]
    simp only [Container.bytes, List.append_assoc]

end Converting

section Directions

variable {size : Nat} {memory : Block size} {front rest : Bytes} {pckData : Nat}

/-- A container in host order is turned into network order in its place. -/
theorem pckDataToNetworkOrder_ok (host : ByteOrder) (container : Container)
    (content : memory.bytes = front ++ (container.bytes host ++ rest))
    (position : front.length = pckData) :
    ∃ converted,
      pckDataToNetworkOrder host memory pckData = .ok converted ∧
        converted.bytes = front ++ (container.bytes .big ++ rest) :=
  convertPckData_ok (by simp) (by simp) container content position

/-- A container in network order is turned into host order in its place. -/
theorem pckDataToHostOrder_ok (host : ByteOrder) (container : Container)
    (content : memory.bytes = front ++ (container.bytes .big ++ rest))
    (position : front.length = pckData) :
    ∃ converted,
      pckDataToHostOrder host memory pckData = .ok converted ∧
        converted.bytes = front ++ (container.bytes host ++ rest) :=
  convertPckData_ok (by simp) (fun word => by rw [← ntohl_eq_htonl]; simp) container content
    position

end Directions

/-! ### What a conversion cannot do -/

section Bounds

variable {size : Nat} {host : ByteOrder} {lengthOf : UInt32 → UInt32}
  {memory converted : Block size} {pckData kept : Nat}

/-- The walk changes nothing in front of the container. -/
theorem convertElements_take {totalLen : UInt32} {fuel : Nat} {currentLen : UInt32}
    (ran : convertElements host lengthOf pckData totalLen fuel currentLen memory = .ok converted)
    (front : kept ≤ pckData) : converted.bytes.take kept = memory.bytes.take kept := by
  induction fuel generalizing memory currentLen with
  | zero => simp [convertElements] at ran
  | succ fuel ih =>
      rw [convertElements] at ran
      split at ran
      · obtain ⟨word, -, ran⟩ := bind_eq_ok.mp ran
        obtain ⟨stored, wrote, ran⟩ := bind_eq_ok.mp ran
        rw [ih ran, Block.store32_take wrote (Nat.le_trans front (Nat.le_add_right _ _))]
      · rw [Except.ok.inj ran]

/-- A conversion changes nothing in front of the container. -/
theorem convertPckData_take (ran : convertPckData host lengthOf memory pckData = .ok converted)
    (front : kept ≤ pckData) : converted.bytes.take kept = memory.bytes.take kept := by
  simp only [convertPckData, bind_eq_ok] at ran
  obtain ⟨word, -, first, wroteTotal, increments, -, second, wroteIncrements, ran⟩ := ran
  rw [convertElements_take ran front,
    Block.store32_take wroteIncrements (Nat.le_trans front (Nat.le_add_right _ _)),
    Block.store32_take wroteTotal front]

/-- Printing changes nothing in front of the container. -/
theorem printPckData_take {isSerialized : Bool}
    (ran : printPckData host memory pckData isSerialized = .ok converted)
    (front : kept ≤ pckData) : converted.bytes.take kept = memory.bytes.take kept := by
  cases isSerialized with
  | false =>
      simp only [printPckData, Bool.false_eq_true, if_false, pure_eq_ok, ok_bind,
        bind_eq_ok] at ran
      obtain ⟨total, -, ran⟩ := ran
      split at ran
      · rw [Except.ok.inj ran]
      · simp only [bind_eq_ok] at ran
        obtain ⟨-, -, -, -, ran⟩ := ran
        rw [Except.ok.inj ran]
  | true =>
      simp only [printPckData, if_true, pure_eq_ok, bind_eq_ok] at ran
      obtain ⟨inHost, toHost, total, -, ran⟩ := ran
      have keptByFirst := convertPckData_take toHost front
      split at ran
      · rw [← Except.ok.inj ran, keptByFirst]
      · simp only [bind_eq_ok] at ran
        obtain ⟨-, -, -, -, ran⟩ := ran
        rw [convertPckData_take ran front, keptByFirst]

/-- Over zeros a conversion goes on to the end of the object and over it. -/
theorem convertElements_zeros {totalLen : UInt32} (lengthZero : lengthOf 0 = 0)
    (far : size < totalLen.toNat) {fuel : Nat} {currentLen : UInt32} {front : Bytes}
    {zeros : Nat} (content : memory.bytes = front ++ List.replicate zeros 0)
    (position : front.length = pckData + currentLen.toNat) :
    convertElements host lengthOf pckData totalLen fuel currentLen memory ≠ .ok converted := by
  induction fuel generalizing memory currentLen front zeros with
  | zero => simp [convertElements]
  | succ fuel ih =>
      intro ran
      have total := memory.allocated
      simp only [content, List.length_append, List.length_replicate] at total
      have bound : totalLen.toNat < 4294967296 := totalLen.toNat_lt
      have goesOn : currentLen < totalLen := by
        rw [UInt32.lt_iff_toNat_lt]
        omega
      rw [convertElements, if_pos goesOn] at ran
      obtain ⟨word, read, ran⟩ := bind_eq_ok.mp ran
      obtain ⟨stored, wrote, ran⟩ := bind_eq_ok.mp ran
      obtain ⟨fits, -⟩ := Block.load32_eq_ok.mp read
      obtain ⟨fewer, rfl⟩ : ∃ fewer, zeros = 4 + fewer := ⟨zeros - 4, by omega⟩
      rw [List.replicate_add] at content
      have loaded := Block.load32_append host _ content position (by simp)
      have zeroBytes : host.encode 0 = List.replicate 4 0 := by cases host <;> rfl
      obtain rfl : word = 0 := by
        rw [← zeroBytes, ByteOrder.decode_encode, read] at loaded
        exact Except.ok.inj loaded
      obtain ⟨same, wroteSame, contentSame⟩ := Block.store32_append host _ (htonl host 0) content
        position (by simp)
      obtain rfl : same = stored := Except.ok.inj (wroteSame.symm.trans wrote)
      rw [htonl_zero, zeroBytes, ← List.append_assoc] at contentSame
      have four : (0 + 4 : UInt32).toNat = 4 := rfl
      refine ih contentSame ?_ (lengthZero ▸ ran)
      rw [List.length_append, List.length_replicate, position, UInt32.toNat_add, four]
      omega

/-- A conversion of a container whose total length is past the end of the object, with zeros
behind its two words. -/
theorem convertPckData_zeros {total increments front : Bytes} {zeros : Nat}
    (content : memory.bytes = front ++ (total ++ (increments ++ List.replicate zeros 0)))
    (position : front.length = pckData) (totalFour : total.length = 4)
    (incrementsFour : increments.length = 4) (lengthZero : lengthOf 0 = 0)
    (far : size < (lengthOf (host.decode total)).toNat) :
    convertPckData host lengthOf memory pckData ≠ .ok converted := by
  intro ran
  have readTotal := Block.load32_append host pckData content position totalFour
  obtain ⟨first, wroteTotal, contentFirst⟩ := Block.store32_append host pckData
    (htonl host (host.decode total)) content position totalFour
  rw [← List.append_assoc] at contentFirst
  have atIncrements : (front ++ host.encode (htonl host (host.decode total))).length =
      pckData + 4 := by
    simp [position]
  have readIncrements := Block.load32_append host (pckData + 4) contentFirst atIncrements
    incrementsFour
  obtain ⟨second, wroteIncrements, contentSecond⟩ := Block.store32_append host (pckData + 4)
    (htonl host (host.decode increments)) contentFirst atIncrements incrementsFour
  rw [← List.append_assoc] at contentSecond
  have eight : (8 : UInt32).toNat = 8 := rfl
  simp only [convertPckData, readTotal, ok_bind, wroteTotal, readIncrements,
    wroteIncrements] at ran
  refine convertElements_zeros lengthZero far contentSecond ?_ ran
  rw [List.length_append, atIncrements, ByteOrder.encode_length, eight]

end Bounds

/-! ### Walking over the elements -/

section Walking

variable {size : Nat} {host : ByteOrder} {memory : Block size} {front rest element : Bytes}
  {elements : List Bytes} {pckData : Nat} {totalLen currentPosition : UInt32}

/-- Where the walk stands: at the first of the elements that are left. -/
structure At (host : ByteOrder) (memory : Block size) (pckData : Nat)
    (totalLen currentPosition : UInt32) (front : Bytes) (elements : List Bytes) (rest : Bytes) :
    Prop where
  content : memory.bytes = front ++ (elementsBytes host elements ++ rest)
  position : front.length = pckData + currentPosition.toNat
  total : totalLen.toNat = currentPosition.toNat + elementsLength elements

/-- The walk stands behind the total length and the increment of a container. -/
theorem at_container {container : Container}
    (content : memory.bytes = front ++ (container.bytes host ++ rest))
    (position : front.length = pckData) :
    memory.load32 host pckData = .ok (UInt32.ofNat container.length) ∧
      At host memory pckData (UInt32.ofNat container.length) 8
        (front ++ (host.encode (UInt32.ofNat container.length) ++
          host.encode container.increments)) container.elements rest := by
  have place : memory.bytes = front ++ (host.encode (UInt32.ofNat container.length) ++
      (host.encode container.increments ++ (elementsBytes host container.elements ++ rest))) := by
    simpa only [Container.bytes, List.append_assoc] using content
  have eight : (8 : UInt32).toNat = 8 := rfl
  constructor
  · rw [Block.load32_append host pckData place position (by simp), ByteOrder.decode_encode]
  · constructor
    · simpa only [List.append_assoc] using place
    · simp [position, eight]
    · rw [toNat_length, eight]
      rfl

namespace At

/-- The length of the next element comes back from its word. -/
theorem toNat_length
    (stands : At host memory pckData totalLen currentPosition front (element :: elements) rest) :
    (UInt32.ofNat element.length).toNat = element.length := by
  have bound : totalLen.toNat < 4294967296 := totalLen.toNat_lt
  have total := stands.total
  rw [elementsLength_cons] at total
  rw [UInt32.toNat_ofNat']
  exact Nat.mod_eq_of_lt (by omega)

/-- The length word of the next element is read. -/
theorem elementLen
    (stands : At host memory pckData totalLen currentPosition front (element :: elements) rest) :
    memory.load32 host (pckData + currentPosition.toNat) =
      .ok (UInt32.ofNat element.length) := by
  have content := stands.content
  rw [elementsBytes_cons, List.append_assoc] at content
  rw [Block.load32_append host _ content stands.position (by simp), ByteOrder.decode_encode]

/-- The data of the next element is read. -/
theorem data
    (stands : At host memory pckData totalLen currentPosition front (element :: elements) rest) :
    memory.read (pckData + currentPosition.toNat + 4) element.length = .ok element := by
  have place : memory.bytes = (front ++ host.encode (UInt32.ofNat element.length)) ++
      (element ++ (elementsBytes host elements ++ rest)) := by
    have content := stands.content
    rw [elementsBytes_cons] at content
    simpa only [List.append_assoc] using content
  exact Block.read_append _ _ place (by simp [stands.position]) rfl

/-- Neither addition of the walk overflows. -/
theorem ends
    (stands : At host memory pckData totalLen currentPosition front (element :: elements) rest) :
    (currentPosition + 4).toNat = currentPosition.toNat + 4 ∧
      (currentPosition + 4 + UInt32.ofNat element.length).toNat =
        currentPosition.toNat + 4 + element.length := by
  have bound : totalLen.toNat < 4294967296 := totalLen.toNat_lt
  have total := stands.total
  have four : (4 : UInt32).toNat = 4 := rfl
  rw [elementsLength_cons] at total
  have before : (currentPosition + 4).toNat = currentPosition.toNat + 4 := by
    rw [UInt32.toNat_add, four]
    omega
  refine ⟨before, ?_⟩
  rw [UInt32.toNat_add, before, stands.toNat_length]
  omega

/-- The step to the next element. -/
theorem next
    (stands : At host memory pckData totalLen currentPosition front (element :: elements) rest) :
    At host memory pckData totalLen (currentPosition + 4 + UInt32.ofNat element.length)
      (front ++ (host.encode (UInt32.ofNat element.length) ++ element)) elements rest := by
  obtain ⟨-, after⟩ := stands.ends
  have content := stands.content
  have position := stands.position
  have total := stands.total
  rw [elementsBytes_cons] at content
  rw [elementsLength_cons] at total
  constructor
  · simpa only [List.append_assoc] using content
  · rw [after]
    simp only [List.length_append, ByteOrder.encode_length]
    omega
  · rw [after]
    omega

/-- The step ends the walk exactly at the last element. -/
theorem ended_iff
    (stands : At host memory pckData totalLen currentPosition front (element :: elements) rest) :
    totalLen ≤ currentPosition + 4 + UInt32.ofNat element.length ↔ elements = [] := by
  obtain ⟨-, after⟩ := stands.ends
  have total := stands.total
  rw [elementsLength_cons] at total
  rw [UInt32.le_iff_toNat_le, after, total]
  constructor
  · intro done
    cases elements with
    | nil => rfl
    | cons element elements =>
        rw [elementsLength_cons] at done
        omega
  · rintro rfl
    simp only [elementsLength_nil]
    omega

/-- In front of another element the walk goes on. -/
theorem goesOn
    (stands : At host memory pckData totalLen currentPosition front (element :: elements) rest)
    (more : elements ≠ []) :
    ¬ totalLen ≤ currentPosition + 4 ∧
      ¬ totalLen ≤ currentPosition + 4 + UInt32.ofNat element.length := by
  have behind := mt stands.ended_iff.mp more
  obtain ⟨before, after⟩ := stands.ends
  refine ⟨?_, behind⟩
  rw [UInt32.le_iff_toNat_le] at behind ⊢
  omega

end At

/-! ### Reading elements -/

/-- An element that has bytes, or has another element behind it, is copied to the output. -/
theorem getElementFrom_ok {outputSize index : Nat} (output : Block outputSize)
    (stands : At host memory pckData totalLen currentPosition front elements rest)
    (known : elements[index]? = some element)
    (begun : element ≠ [] ∨ index + 1 < elements.length)
    (fits : element.length ≤ outputSize) :
    ∃ written,
      getElementFrom host memory pckData totalLen output index currentPosition =
          .ok (UInt32.ofNat element.length, written) ∧
        written.bytes = element ++ output.bytes.drop element.length := by
  induction index generalizing elements front currentPosition with
  | zero =>
      obtain ⟨later, rfl⟩ := List.head?_eq_some_iff.mp (List.head?_eq_getElem?.trans known)
      have total := stands.total
      obtain ⟨before, -⟩ := stands.ends
      have positive : 0 < element.length + elementsLength later := by
        rcases begun with begun | behind
        · exact Nat.add_pos_left (List.length_pos_iff.mpr begun) _
        · have some := length_le_elementsLength later
          simp only [List.length_cons] at behind
          omega
      have inside : ¬ totalLen ≤ currentPosition + 4 := by
        rw [elementsLength_cons] at total
        rw [UInt32.le_iff_toNat_le, before]
        omega
      obtain ⟨written, wrote, filled⟩ := output.write_ok 0 element (by omega)
      refine ⟨written, ?_, by simpa [splice] using filled⟩
      simp only [getElementFrom, stands.elementLen, ok_bind, if_neg inside, stands.toNat_length,
        stands.data, wrote, pure_eq_ok]
  | succ index ih =>
      cases elements with
      | nil => simp at known
      | cons first later =>
          rw [List.getElem?_cons_succ] at known
          obtain ⟨inside, goesOn⟩ := stands.goesOn (List.ne_nil_of_mem (List.mem_of_getElem? known))
          obtain ⟨written, ran, filled⟩ := ih stands.next known
            (begun.imp_right Nat.lt_of_succ_lt_succ)
          refine ⟨written, ?_, filled⟩
          simp only [getElementFrom, stands.elementLen, ok_bind, if_neg inside, if_neg goesOn, ran]

/-- An element that has been copied was not longer than the output. -/
theorem getElementFrom_fits {outputSize index : Nat} {output : Block outputSize}
    {result : UInt32 × Block outputSize}
    (stands : At host memory pckData totalLen currentPosition front elements rest)
    (known : elements[index]? = some element)
    (ran : getElementFrom host memory pckData totalLen output index currentPosition =
      .ok result) :
    element.length ≤ outputSize := by
  induction index generalizing elements front currentPosition with
  | zero =>
      obtain ⟨later, rfl⟩ := List.head?_eq_some_iff.mp (List.head?_eq_getElem?.trans known)
      have total := stands.total
      obtain ⟨before, -⟩ := stands.ends
      rw [elementsLength_cons] at total
      simp only [getElementFrom, stands.elementLen, ok_bind, stands.toNat_length,
        stands.data] at ran
      split at ran
      · rename_i ended
        rw [UInt32.le_iff_toNat_le, before] at ended
        omega
      · obtain ⟨written, wrote, -⟩ := bind_eq_ok.mp ran
        rcases (Block.write_eq_ok.mp wrote).1 with fits | rfl
        · omega
        · exact Nat.zero_le _
  | succ index ih =>
      cases elements with
      | nil => simp at known
      | cons first later =>
          rw [List.getElem?_cons_succ] at known
          obtain ⟨inside, goesOn⟩ := stands.goesOn (List.ne_nil_of_mem (List.mem_of_getElem? known))
          simp only [getElementFrom, stands.elementLen, ok_bind, if_neg inside,
            if_neg goesOn] at ran
          exact ih stands.next known ran

/-- Behind the last element there is none. -/
theorem getElementFrom_missing {outputSize index : Nat} {output : Block outputSize}
    (stands : At host memory pckData totalLen currentPosition front elements rest)
    (begun : elements ≠ []) (behind : elements.length ≤ index) :
    getElementFrom host memory pckData totalLen output index currentPosition =
      .ok (minusOne, output) := by
  induction index generalizing elements front currentPosition with
  | zero => exact absurd (List.length_eq_zero_iff.mp (Nat.le_zero.mp behind)) begun
  | succ index ih =>
      cases elements with
      | nil => exact absurd rfl begun
      | cons first later =>
          simp only [getElementFrom, stands.elementLen, ok_bind, pure_eq_ok]
          split
          · rfl
          · by_cases last : later = []
            · rw [if_pos (stands.ended_iff.mpr last)]
            · rw [if_neg (mt stands.ended_iff.mp last)]
              exact ih stands.next last (Nat.le_of_succ_le_succ behind)

/-- An empty last element is taken for the end of the container. -/
theorem getElementFrom_empty {outputSize index : Nat} {output : Block outputSize}
    (stands : At host memory pckData totalLen currentPosition front elements rest)
    (known : elements[index]? = some []) (last : index + 1 = elements.length) :
    getElementFrom host memory pckData totalLen output index currentPosition =
      .ok (minusOne, output) := by
  induction index generalizing elements front currentPosition with
  | zero =>
      obtain ⟨later, rfl⟩ := List.head?_eq_some_iff.mp (List.head?_eq_getElem?.trans known)
      obtain rfl : later = [] := by simpa using last
      have ended := stands.ended_iff.mpr rfl
      have noBytes : UInt32.ofNat ([] : Bytes).length = 0 := rfl
      rw [noBytes, UInt32.add_zero] at ended
      simp only [getElementFrom, stands.elementLen, ok_bind, if_pos ended, pure_eq_ok]
  | succ index ih =>
      cases elements with
      | nil => simp at known
      | cons first later =>
          rw [List.getElem?_cons_succ] at known
          obtain ⟨inside, goesOn⟩ := stands.goesOn (List.ne_nil_of_mem (List.mem_of_getElem? known))
          simp only [getElementFrom, stands.elementLen, ok_bind, if_neg inside, if_neg goesOn]
          exact ih stands.next known (Nat.succ.inj last)

/-- The walk from an element on finds the length of a later one. -/
theorem getElementLengthFrom_ok {index : Nat}
    (stands : At host memory pckData totalLen currentPosition front elements rest)
    (known : elements[index]? = some element) :
    getElementLengthFrom host memory pckData totalLen index currentPosition =
      .ok (UInt32.ofNat element.length) := by
  induction index generalizing elements front currentPosition with
  | zero =>
      obtain ⟨later, rfl⟩ := List.head?_eq_some_iff.mp (List.head?_eq_getElem?.trans known)
      exact stands.elementLen
  | succ index ih =>
      cases elements with
      | nil => simp at known
      | cons first later =>
          rw [List.getElem?_cons_succ] at known
          obtain ⟨-, goesOn⟩ := stands.goesOn (List.ne_nil_of_mem (List.mem_of_getElem? known))
          simp only [getElementLengthFrom, stands.elementLen, ok_bind, if_neg goesOn]
          exact ih stands.next known

/-- Behind the last element there is no length. -/
theorem getElementLengthFrom_missing {index : Nat}
    (stands : At host memory pckData totalLen currentPosition front elements rest)
    (begun : elements ≠ []) (behind : elements.length ≤ index) :
    getElementLengthFrom host memory pckData totalLen index currentPosition = .ok minusOne := by
  induction index generalizing elements front currentPosition with
  | zero => exact absurd (List.length_eq_zero_iff.mp (Nat.le_zero.mp behind)) begun
  | succ index ih =>
      cases elements with
      | nil => exact absurd rfl begun
      | cons first later =>
          simp only [getElementLengthFrom, stands.elementLen, ok_bind, pure_eq_ok]
          by_cases last : later = []
          · rw [if_pos (stands.ended_iff.mpr last)]
          · rw [if_neg (mt stands.ended_iff.mp last)]
            exact ih stands.next last (Nat.le_of_succ_le_succ behind)

end Walking

section Reading

variable {size outputSize : Nat} {host : ByteOrder} {memory : Block size}
  {front rest element : Bytes} {container : Container} {pckData index : Nat}
  {output : Block outputSize}

/-- `getElementFromPckData` on a container in host order. -/
theorem getElement_ok (output : Block outputSize)
    (content : memory.bytes = front ++ (container.bytes host ++ rest))
    (position : front.length = pckData)
    (known : container.elements[index]? = some element)
    (begun : element ≠ [] ∨ index + 1 < container.elements.length)
    (fits : element.length ≤ outputSize) :
    ∃ written,
      getElementFromPckData host memory pckData output index =
          .ok (UInt32.ofNat element.length, written) ∧
        written.bytes = element ++ output.bytes.drop element.length := by
  obtain ⟨total, stands⟩ := at_container content position
  obtain ⟨written, ran, filled⟩ := getElementFrom_ok output stands known begun fits
  exact ⟨written, by rw [getElementFromPckData, total, ok_bind, ran], filled⟩

/-- An element that has been read into an array was not longer than the array. -/
theorem getElement_fits {result : UInt32 × Block outputSize}
    (content : memory.bytes = front ++ (container.bytes host ++ rest))
    (position : front.length = pckData) (known : container.elements[index]? = some element)
    (ran : getElementFromPckData host memory pckData output index = .ok result) :
    element.length ≤ outputSize := by
  obtain ⟨total, stands⟩ := at_container content position
  rw [getElementFromPckData, total, ok_bind] at ran
  exact getElementFrom_fits stands known ran

/-- An element behind the last one is not found, and the output stays. -/
theorem getElement_missing (content : memory.bytes = front ++ (container.bytes host ++ rest))
    (position : front.length = pckData) (begun : container.elements ≠ [])
    (behind : container.elements.length ≤ index) :
    getElementFromPckData host memory pckData output index = .ok (minusOne, output) := by
  obtain ⟨total, stands⟩ := at_container content position
  rw [getElementFromPckData, total, ok_bind, getElementFrom_missing stands begun behind]

/-- A last element without data counts as missing. -/
theorem getElement_empty (content : memory.bytes = front ++ (container.bytes host ++ rest))
    (position : front.length = pckData) (known : container.elements[index]? = some [])
    (last : index + 1 = container.elements.length) :
    getElementFromPckData host memory pckData output index = .ok (minusOne, output) := by
  obtain ⟨total, stands⟩ := at_container content position
  rw [getElementFromPckData, total, ok_bind, getElementFrom_empty stands known last]

/-- An element behind the last one has no length. -/
theorem getElementLength_missing
    (content : memory.bytes = front ++ (container.bytes host ++ rest))
    (position : front.length = pckData) (begun : container.elements ≠ [])
    (behind : container.elements.length ≤ index) :
    getElementLengthFromPckData host memory pckData index = .ok minusOne := by
  obtain ⟨total, stands⟩ := at_container content position
  rw [getElementLengthFromPckData, total, ok_bind, getElementLengthFrom_missing stands begun behind]

/-- `getElementLengthFromPckData` on a container in host order. -/
theorem getElementLength_ok (content : memory.bytes = front ++ (container.bytes host ++ rest))
    (position : front.length = pckData) (known : container.elements[index]? = some element) :
    getElementLengthFromPckData host memory pckData index =
      .ok (UInt32.ofNat element.length) := by
  obtain ⟨total, stands⟩ := at_container content position
  rw [getElementLengthFromPckData, total, ok_bind, getElementLengthFrom_ok stands known]

/-- An element of a container lies in the memory that the container lies in. -/
theorem element_inside (content : memory.bytes = front ++ (container.bytes host ++ rest))
    (known : container.elements[index]? = some element) : element.length ≤ size := by
  have whole := memory.allocated
  have inside := length_le_of_getElem? known
  rw [content, List.length_append, List.length_append, length_bytes, Container.length] at whole
  omega

/-- An element that is as long as the array fills it. -/
theorem getElement_full (output : Block outputSize)
    (content : memory.bytes = front ++ (container.bytes host ++ rest))
    (position : front.length = pckData) (known : container.elements[index]? = some element)
    (begun : element ≠ []) (sized : element.length = outputSize) :
    ∃ read : Block outputSize, read.bytes = element ∧
      getElementFromPckData host memory pckData output index =
        .ok (UInt32.ofNat element.length, read) := by
  obtain ⟨read, ran, filled⟩ := getElement_ok output content position known (.inl begun)
    (Nat.le_of_eq sized)
  refine ⟨read, ?_, ran⟩
  rw [filled, sized, List.drop_of_length_le (Nat.le_of_eq output.allocated), List.append_nil]

/-- An element that is read into an array of its length. Without bytes the last element is taken
for a missing one, and the array is left as it is. -/
theorem getElement_sized (output : Block outputSize)
    (content : memory.bytes = front ++ (container.bytes host ++ rest))
    (position : front.length = pckData) (known : container.elements[index]? = some element)
    (sized : element.length = outputSize) :
    ∃ found, ∃ read : Block outputSize, read.bytes = element ∧
      getElementFromPckData host memory pckData output index = .ok (found, read) := by
  by_cases empty : element = []
  · subst empty
    have none : output.bytes = [] := by
      rw [← List.length_eq_zero_iff, output.allocated, ← sized, List.length_nil]
    have inside := (List.getElem?_eq_some_iff.mp known).1
    by_cases last : index + 1 = container.elements.length
    · exact ⟨minusOne, output, none, getElement_empty content position known last⟩
    · obtain ⟨read, ran, filled⟩ := getElement_ok output content position known
        (.inr (Nat.lt_of_le_of_ne inside last)) (Nat.zero_le _)
      exact ⟨_, read, by simpa [none] using filled, ran⟩
  · obtain ⟨read, same, ran⟩ := getElement_full output content position known empty sized
    exact ⟨_, read, same, ran⟩

end Reading

/-! ### Printing -/

section Printing

variable {size : Nat} {host : ByteOrder} {memory : Block size} {front rest : Bytes}
  {pckData : Nat}

/-- The loop of `printPckData` ends at the end of the container. -/
theorem printElements_ok {elements : List Bytes} {totalLen currentPosition : UInt32}
    {fuel : Nat} (stands : At host memory pckData totalLen currentPosition front elements rest)
    (begun : elements ≠ []) (enough : elements.length ≤ fuel) :
    printElements host memory pckData totalLen fuel currentPosition = .ok () := by
  induction elements generalizing front currentPosition fuel with
  | nil => exact absurd rfl begun
  | cons element elements ih =>
      obtain ⟨fuel, rfl⟩ : ∃ less, fuel = less + 1 := ⟨fuel - 1, by simp at enough; omega⟩
      have order : currentPosition + UInt32.ofNat element.length + 4 =
          currentPosition + 4 + UInt32.ofNat element.length := by
        rw [UInt32.add_assoc, UInt32.add_assoc, UInt32.add_comm (UInt32.ofNat _)]
      simp only [printElements, stands.elementLen, ok_bind, stands.toNat_length, stands.data,
        order, pure_eq_ok]
      by_cases last : elements = []
      · rw [if_pos (stands.ended_iff.mpr last)]
      · rw [if_neg (mt stands.ended_iff.mp last)]
        exact ih stands.next last (Nat.le_of_succ_le_succ enough)

/-- A container in host order is printed without a change. -/
theorem printPckData_plain (container : Container)
    (content : memory.bytes = front ++ (container.bytes host ++ rest))
    (position : front.length = pckData) :
    printPckData host memory pckData false = .ok memory := by
  obtain ⟨total, stands⟩ := at_container content position
  have eight : (8 : UInt32).toNat = 8 := rfl
  simp only [printPckData, Bool.false_eq_true, if_false, pure_eq_ok, ok_bind, total]
  by_cases empty : container.elements = []
  · have short : UInt32.ofNat container.length ≤ 8 := by
      rw [UInt32.le_iff_toNat_le, toNat_length, eight]
      simp [Container.length, empty]
    simp [short]
  · have long : ¬ UInt32.ofNat container.length ≤ 8 := by
      have some := length_le_elementsLength container.elements
      have positive := List.length_pos_iff.mpr empty
      rw [UInt32.le_iff_toNat_le, toNat_length, eight]
      simp only [Container.length]
      omega
    have inMemory : pckData + container.length ≤ size := by
      rw [← memory.allocated, content]
      simp only [List.length_append, length_bytes]
      omega
    have header : memory.read pckData 8 = .ok (slice memory.bytes pckData 8) := by
      refine memory.read_ok (Nat.le_trans ?_ inMemory)
      simp only [Container.length]
      omega
    have few : container.elements.length ≤ size + 1 := by
      have some := length_le_elementsLength container.elements
      simp only [Container.length] at inMemory
      omega
    simp [long, header, printElements_ok stands empty few]

/-- What `printPckData` leaves of a serialized container. -/
def printed (host : ByteOrder) (container : Container) : Bytes :=
  if container.elements = [] then container.bytes host else container.bytes .big

/-- A container in network order is printed and left as `printed`. -/
theorem printPckData_serialized (container : Container)
    (content : memory.bytes = front ++ (container.bytes .big ++ rest))
    (position : front.length = pckData) :
    ∃ left,
      printPckData host memory pckData true = .ok left ∧
        left.bytes = front ++ (printed host container ++ rest) := by
  obtain ⟨converted, ran, result⟩ := pckDataToHostOrder_ok host container content position
  obtain ⟨total, -⟩ := at_container result position
  have plain := printPckData_plain container result position
  simp only [printPckData, Bool.false_eq_true, if_false, pure_eq_ok, ok_bind, total] at plain
  simp only [printPckData, if_true, ran, ok_bind, total, pure_eq_ok]
  have eight : (8 : UInt32).toNat = 8 := rfl
  by_cases empty : container.elements = []
  · have short : UInt32.ofNat container.length ≤ 8 := by
      rw [UInt32.le_iff_toNat_le, toNat_length, eight]
      simp [Container.length, empty]
    refine ⟨converted, by rw [if_pos short], ?_⟩
    rw [result, printed, if_pos empty]
  · have long : ¬ UInt32.ofNat container.length ≤ 8 := by
      have some := length_le_elementsLength container.elements
      have positive := List.length_pos_iff.mpr empty
      rw [UInt32.le_iff_toNat_le, toNat_length, eight]
      simp only [Container.length]
      omega
    obtain ⟨back, ranBack, resultBack⟩ := pckDataToNetworkOrder_ok host container result position
    refine ⟨back, ?_, by rw [resultBack, printed, if_neg empty]⟩
    rw [if_neg long] at plain ⊢
    obtain ⟨header, readHeader, plain⟩ := bind_eq_ok.mp plain
    obtain ⟨_, walked, -⟩ := bind_eq_ok.mp plain
    rw [readHeader, ok_bind, walked, ok_bind]
    simp [ranBack]

end Printing

/-! ### Building -/

section Building

variable {host : ByteOrder} {pckData : Block pckDataIncrements} {elements : List Bytes}

/-- The object holds a container with these elements that `initPckData` has begun. -/
def Built (host : ByteOrder) (pckData : Block pckDataIncrements) (elements : List Bytes) : Prop :=
  ∃ (container : Container) (rest : Bytes), pckData.bytes = container.bytes host ++ rest ∧
    container.increments = UInt32.ofNat pckDataIncrements ∧ container.elements = elements

/-- A container begins without elements. -/
theorem initPckData_ok (host : ByteOrder) (malloced : Block pckDataIncrements) :
    ∃ pckData, initPckData host malloced = .ok pckData ∧ Built host pckData [] := by
  have total : malloced.bytes.length = 255 := malloced.allocated
  have first : malloced.bytes = [] ++ (malloced.bytes.take 4 ++ malloced.bytes.drop 4) := by simp
  have four : (malloced.bytes.take 4).length = 4 := by
    rw [List.length_take]
    omega
  obtain ⟨begun, wroteTotal, filledTotal⟩ := Block.store32_append host 0 8 first rfl four
  have second : begun.bytes = host.encode 8 ++
      ((malloced.bytes.drop 4).take 4 ++ (malloced.bytes.drop 4).drop 4) := by
    rw [filledTotal, List.take_append_drop]
    rfl
  have fourBehind : ((malloced.bytes.drop 4).take 4).length = 4 := by
    rw [List.length_take, List.length_drop]
    omega
  obtain ⟨pckData, wroteIncrements, filledIncrements⟩ := Block.store32_append host 4
    (UInt32.ofNat pckDataIncrements) second (by simp) fourBehind
  refine ⟨pckData, ?_, ⟨UInt32.ofNat pckDataIncrements, [], by decide⟩,
    (malloced.bytes.drop 4).drop 4, ?_, rfl, rfl⟩
  · rw [initPckData, wroteTotal, ok_bind, wroteIncrements]
  · rw [filledIncrements]
    simp [Container.bytes, Container.length]

/-- An element that has room is appended behind the others. -/
theorem appendToPckData_ok (built : Built host pckData elements) (newData : Bytes)
    (room : 8 + elementsLength elements + 4 + newData.length ≤ pckDataIncrements) :
    ∃ grown, appendToPckData host pckData newData = .ok grown ∧
      Built host grown (elements ++ [newData]) := by
  obtain ⟨container, rest, content, increments, rfl⟩ := built
  have lengthIs : container.length = 8 + elementsLength container.elements := rfl
  have space : 8 + elementsLength container.elements + 4 + newData.length ≤ 255 := room
  have limit : (UInt32.ofNat pckDataIncrements).toNat = 255 := rfl
  have dataLen : (UInt32.ofNat newData.length).toNat = newData.length := by
    rw [UInt32.toNat_ofNat']
    exact Nat.mod_eq_of_lt (by omega)
  have lengthAfter : elementsLength (container.elements ++ [newData]) =
      elementsLength container.elements + (4 + newData.length) := by
    rw [elementsLength_append]
    simp
  have enough : 4 + newData.length ≤ rest.length := by
    have total := pckData.allocated
    rw [content, List.length_append, length_bytes] at total
    omega
  have start : pckData.bytes = [] ++ (container.bytes host ++ rest) := content
  have totalRead : pckData.load32 host 0 = .ok (UInt32.ofNat container.length) :=
    (at_container start rfl).1
  have place : pckData.bytes = host.encode (UInt32.ofNat container.length) ++
      (host.encode container.increments ++ (elementsBytes host container.elements ++ rest)) := by
    simpa only [Container.bytes, List.append_assoc] using content
  have limitRead := Block.load32_append host 4 place (by simp) (by simp)
  rw [ByteOrder.decode_encode, increments] at limitRead
  have noRealloc : ¬ UInt32.ofNat pckDataIncrements <
      UInt32.ofNat container.length + UInt32.ofNat newData.length := by
    rw [UInt32.lt_iff_toNat_lt, UInt32.toNat_add, toNat_length, dataLen, limit,
      Nat.mod_eq_of_lt (by omega)]
    omega
  have wordPlace : pckData.bytes = container.bytes host ++
      (rest.take 4 ++ ((rest.drop 4).take newData.length ++
        (rest.drop 4).drop newData.length)) := by
    rw [content, List.take_append_drop, List.take_append_drop]
  have four : (rest.take 4).length = 4 := by
    rw [List.length_take]
    omega
  obtain ⟨sized, wroteLen, filledLen⟩ := Block.store32_append host container.length
    (UInt32.ofNat newData.length) wordPlace (length_bytes host container) four
  have dataPlace : sized.bytes =
      (container.bytes host ++ host.encode (UInt32.ofNat newData.length)) ++
        ((rest.drop 4).take newData.length ++ (rest.drop 4).drop newData.length) := by
    simpa only [List.append_assoc] using filledLen
  have dataSized : newData.length = ((rest.drop 4).take newData.length).length := by
    rw [List.length_take, List.length_drop]
    omega
  obtain ⟨filled, wroteData, filledData⟩ := Block.write_append (container.length + 4) dataPlace
    (by simp [length_bytes]) dataSized
  let larger : Container :=
    { increments := container.increments
      elements := container.elements ++ [newData]
      short := by rw [lengthAfter]; omega }
  have largerLength : larger.length = container.length + 4 + newData.length := by
    simp only [larger, Container.length, lengthAfter]
    omega
  have sum : UInt32.ofNat container.length + 4 + UInt32.ofNat newData.length =
      UInt32.ofNat larger.length := by
    apply UInt32.toNat_inj.mp
    have fourWord : (4 : UInt32).toNat = 4 := rfl
    rw [toNat_length, largerLength, UInt32.toNat_add, UInt32.toNat_add, toNat_length, dataLen,
      fourWord]
    omega
  have totalPlace : filled.bytes = [] ++ (host.encode (UInt32.ofNat container.length) ++
      (host.encode container.increments ++ (elementsBytes host (container.elements ++ [newData]) ++
        (rest.drop 4).drop newData.length))) := by
    rw [filledData, elementsBytes_append, elementsBytes_cons]
    simp [Container.bytes]
  obtain ⟨totalled, wroteTotal, filledTotal⟩ := Block.store32_append host 0
    (UInt32.ofNat larger.length) totalPlace rfl (by simp)
  rw [List.nil_append] at filledTotal
  obtain ⟨grown, wroteLimit, filledLimit⟩ := Block.store32_append host 4
    (UInt32.ofNat pckDataIncrements) filledTotal (by simp) (by simp)
  refine ⟨grown, ?_, larger, (rest.drop 4).drop newData.length, ?_, increments, rfl⟩
  · simp only [appendToPckData, totalRead, ok_bind, limitRead, if_neg noRealloc, toNat_length,
      wroteLen, wroteData, sum, wroteTotal, wroteLimit]
  · rw [filledLimit]
    simp only [Container.bytes, List.append_assoc, larger, increments]

/-- What has been appended had room. -/
theorem appendToPckData_room {newData : Bytes} {grown : Block pckDataIncrements}
    (built : Built host pckData elements)
    (ran : appendToPckData host pckData newData = .ok grown) :
    8 + elementsLength elements + 4 + newData.length ≤ pckDataIncrements := by
  obtain ⟨container, rest, content, -, rfl⟩ := built
  have start : pckData.bytes = [] ++ (container.bytes host ++ rest) := content
  have totalRead : pckData.load32 host 0 = .ok (UInt32.ofNat container.length) :=
    (at_container start rfl).1
  simp only [appendToPckData, totalRead, ok_bind, toNat_length] at ran
  obtain ⟨currentLim, -, ran⟩ := bind_eq_ok.mp ran
  split at ran
  · cases ran
  · obtain ⟨sized, wroteLen, ran⟩ := bind_eq_ok.mp ran
    obtain ⟨filled, wroteData, -⟩ := bind_eq_ok.mp ran
    have four := (Block.store32_eq_ok.mp wroteLen).1
    have lengthIs : container.length = 8 + elementsLength container.elements := rfl
    rcases (Block.write_eq_ok.mp wroteData).1 with fits | rfl
    · omega
    · rw [List.length_nil]
      omega

/-- Appending a part of an object means that the object had it and the container had room. -/
theorem append_part {pckData grown : Block pckDataIncrements} {elements : List Bytes}
    {object : Bytes} {count : Nat} (built : Built host pckData elements)
    (ran : (readBytes object 0 count >>= fun part => appendToPckData host pckData part) =
      .ok grown) :
    count ≤ object.length ∧ Built host grown (elements ++ [object.take count]) := by
  obtain ⟨part, read, appended⟩ := bind_eq_ok.mp ran
  obtain ⟨fits, rfl⟩ := readBytes_eq_ok.mp read
  have enough : count ≤ object.length := by omega
  have same : slice object 0 count = object.take count := rfl
  rw [same] at appended
  obtain ⟨grown', appended', builtAfter⟩ :=
    appendToPckData_ok built (object.take count) (appendToPckData_room built appended)
  obtain rfl := Except.ok.inj (appended'.symm.trans appended)
  exact ⟨enough, builtAfter⟩

end Building

end RentMate.ContainerCodec
