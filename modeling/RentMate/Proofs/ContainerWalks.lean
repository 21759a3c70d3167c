/-
Module: RentMate.Proofs.ContainerWalks
Purpose: The walks over a container that any bytes can stand in: the two conversions undo each
  other where the elements fill the container, and only there every walk stays inside it.
Trusted boundary: none
Main exports: SameOutside, conversions_inverse, Contents, WalksSafely, walks_safe_iff
-/
import RentMate.Proofs.ContainerCodec

namespace RentMate.ContainerWalks

open RentMate.Machine
open RentMate.PckData
open RentMate.ContainerCodec

/-! ### The words of a container -/

/-- Where the length words of elements lie, the first of them at `start`. -/
def lengthPlaces : Nat → List Bytes → List Nat
  | _, [] => []
  | start, element :: elements => start :: lengthPlaces (start + 4 + element.length) elements

/-- Where the words of a container lie: the two of its header and the lengths of its elements. -/
def wordPlaces (pckData : Nat) (container : Container) : List Nat :=
  pckData :: (pckData + 4) :: lengthPlaces (pckData + 8) container.elements

/-- The byte belongs to none of the words. -/
def Outside (places : List Nat) (index : Nat) : Prop :=
  ∀ place ∈ places, index < place ∨ place + 4 ≤ index

/-- The two differ in these words at most. -/
def SameOutside (places : List Nat) (one other : Bytes) : Prop :=
  ∀ index, Outside places index → one[index]? = other[index]?

section Words

/-- A place outside some words is outside all but the first of them. -/
theorem Outside.tail {place : Nat} {places : List Nat} {index : Nat}
    (outside : Outside (place :: places) index) : Outside places index :=
  fun later known => outside later (List.mem_cons_of_mem place known)

/-- Outside a word it does not matter what the word is. -/
theorem getElem?_word {index : Nat} (front one other behind : Bytes) (sameLength : one.length = 4)
    (otherLength : other.length = 4) (outside : index < front.length ∨ front.length + 4 ≤ index) :
    (front ++ (one ++ behind))[index]? = (front ++ (other ++ behind))[index]? := by
  rcases outside with before | after
  · rw [List.getElem?_append_left before, List.getElem?_append_left before]
  · have past : front.length ≤ index := by omega
    rw [List.getElem?_append_right past, List.getElem?_append_right past,
      List.getElem?_append_right (by omega), List.getElem?_append_right (by omega), sameLength,
      otherLength]

/-- Elements in two byte orders differ in their length words. -/
theorem elementsBytes_sameOutside (source target : ByteOrder) (elements : List Bytes)
    (front rest : Bytes) :
    SameOutside (lengthPlaces front.length elements)
      (front ++ (elementsBytes source elements ++ rest))
      (front ++ (elementsBytes target elements ++ rest)) := by
  induction elements generalizing front with
  | nil =>
      intro index _
      rfl
  | cons element elements ih =>
      intro index outside
      have word := outside _ List.mem_cons_self
      have behind : (front ++ (target.encode (UInt32.ofNat element.length) ++ element)).length =
          front.length + 4 + element.length := by
        simp only [List.length_append, ByteOrder.encode_length]
        omega
      have later := ih (front ++ (target.encode (UInt32.ofNat element.length) ++ element)) index
        (behind ▸ outside.tail)
      simp only [elementsBytes_cons, List.append_assoc] at later ⊢
      rw [← later]
      exact getElem?_word _ _ _ _ (by simp) (by simp) word

/-- A container in two byte orders differs in its words. -/
theorem bytes_sameOutside (source target : ByteOrder) (container : Container)
    (front rest : Bytes) :
    SameOutside (wordPlaces front.length container)
      (front ++ (container.bytes source ++ rest)) (front ++ (container.bytes target ++ rest)) := by
  intro index outside
  have total := outside _ List.mem_cons_self
  have increments := outside.tail _ List.mem_cons_self
  have words := outside.tail.tail
  have afterTotal : (front ++ target.encode (UInt32.ofNat container.length)).length =
      front.length + 4 := by
    simp
  have afterWords : (front ++ (target.encode (UInt32.ofNat container.length) ++
      target.encode container.increments)).length = front.length + 8 := by
    simp
  have elements := elementsBytes_sameOutside source target container.elements _ rest index
    (afterWords ▸ words)
  have atIncrements := getElem?_word (front ++ target.encode (UInt32.ofNat container.length))
    (source.encode container.increments) (target.encode container.increments)
    (elementsBytes source container.elements ++ rest) (by simp) (by simp)
    (afterTotal ▸ increments)
  have atTotal := getElem?_word front (source.encode (UInt32.ofNat container.length))
    (target.encode (UInt32.ofNat container.length))
    (source.encode container.increments ++ (elementsBytes source container.elements ++ rest))
    (by simp) (by simp) total
  simp only [Container.bytes, List.append_assoc] at elements atIncrements ⊢
  rw [atTotal, atIncrements, elements]

end Words

/-! ### The two conversions -/

section Conversions

variable {size : Nat} {front rest : Bytes}

/-- Between two objects that hold a container in the two orders, each conversion leads from one
to the other. -/
theorem conversions_between (host : ByteOrder) (container : Container)
    {inHost inNetwork : Block size}
    (hostContent : inHost.bytes = front ++ (container.bytes host ++ rest))
    (networkContent : inNetwork.bytes = front ++ (container.bytes .big ++ rest)) :
    pckDataToNetworkOrder host inHost front.length = .ok inNetwork ∧
      pckDataToHostOrder host inNetwork front.length = .ok inHost := by
  obtain ⟨network, toNetwork, networkBytes⟩ :=
    pckDataToNetworkOrder_ok host container hostContent rfl
  obtain ⟨back, toHost, backBytes⟩ := pckDataToHostOrder_ok host container networkContent rfl
  constructor
  · rw [toNetwork, Block.eq_of_bytes (networkBytes.trans networkContent.symm)]
  · rw [toHost, Block.eq_of_bytes (backBytes.trans hostContent.symm)]

/-- Each conversion of a container leaves it in the other byte order, the conversions undo each
other, whichever comes first, and they change nothing but its words. -/
theorem conversions_inverse (host : ByteOrder) (container : Container) (memory : Block size)
    (front rest : Bytes) :
    (memory.bytes = front ++ (container.bytes host ++ rest) →
      ∃ network, pckDataToNetworkOrder host memory front.length = .ok network ∧
        network.bytes = front ++ (container.bytes .big ++ rest) ∧
        pckDataToHostOrder host network front.length = .ok memory ∧
        SameOutside (wordPlaces front.length container) memory.bytes network.bytes) ∧
    (memory.bytes = front ++ (container.bytes .big ++ rest) →
      ∃ inHost, pckDataToHostOrder host memory front.length = .ok inHost ∧
        inHost.bytes = front ++ (container.bytes host ++ rest) ∧
        pckDataToNetworkOrder host inHost front.length = .ok memory ∧
        SameOutside (wordPlaces front.length container) memory.bytes inHost.bytes) := by
  constructor
  · intro content
    obtain ⟨network, toNetwork, networkBytes⟩ :=
      pckDataToNetworkOrder_ok host container content rfl
    have between := conversions_between host container content networkBytes
    refine ⟨network, toNetwork, networkBytes, between.2, ?_⟩
    rw [content, networkBytes]
    exact bytes_sameOutside host .big container front rest
  · intro content
    obtain ⟨inHost, toHost, hostBytes⟩ := pckDataToHostOrder_ok host container content rfl
    have between := conversions_between host container hostBytes content
    refine ⟨inHost, toHost, hostBytes, between.1, ?_⟩
    rw [content, hostBytes]
    exact bytes_sameOutside .big host container front rest

end Conversions

/-- A buffer with the two header words and one element word in front of one data byte. -/
def oneByteBehind (order : ByteOrder) (length : UInt32) : Block 13 :=
  .holding 13 (order.encode 13 ++ (order.encode 255 ++ (order.encode length ++ [7])))

/-- There and back on a little-endian host. -/
theorem oneByte_converts :
    ∃ network, pckDataToNetworkOrder .little (oneByteBehind .little 1) 0 = .ok network ∧
      network.bytes = (oneByteBehind .big 1).bytes ∧
      pckDataToHostOrder .little network 0 = .ok (oneByteBehind .little 1) ∧
      SameOutside [0, 4, 8] (oneByteBehind .little 1).bytes network.bytes := by
  obtain ⟨network, toNetwork, inNetwork, toHost, outside⟩ :=
    (conversions_inverse .little ⟨255, [[7]], by decide⟩ (oneByteBehind .little 1) [] []).1
      (by decide)
  exact ⟨network, toNetwork, inNetwork.trans (by decide), toHost, outside⟩

/-! ### Whatever stands in a buffer -/

/-- What is left behind the elements that are whole: less than a length word, or a length that
runs past the end. -/
inductive Remainder where
  | cut (bytes : Bytes) (short : bytes.length < 4)
  | overrun (length : UInt32) (bytes : Bytes) (short : bytes.length < length.toNat)

namespace Remainder

/-- The bytes of the remainder. -/
def bytes (order : ByteOrder) : Remainder → Bytes
  | .cut bytes _ => bytes
  | .overrun length bytes _ => order.encode length ++ bytes

/-- How many bytes the remainder has. -/
def length : Remainder → Nat
  | .cut bytes _ => bytes.length
  | .overrun _ bytes _ => 4 + bytes.length

/-- A remainder takes as many bytes as it says. -/
@[simp] theorem length_bytes (order : ByteOrder) (remainder : Remainder) :
    (remainder.bytes order).length = remainder.length := by
  cases remainder <;> simp [bytes, length]

end Remainder

/-- What any bytes say that begin with their own length: the elements that are whole and what is
left behind them. -/
structure Contents where
  increments : UInt32
  elements : List Bytes
  remainder : Remainder
  short : 8 + elementsLength elements + remainder.length < 4294967296

namespace Contents

/-- The length that the bytes begin with. -/
def length (contents : Contents) : Nat :=
  8 + elementsLength contents.elements + contents.remainder.length

/-- The bytes, with the words stored in `order`. -/
def bytes (order : ByteOrder) (contents : Contents) : Bytes :=
  order.encode (UInt32.ofNat contents.length) ++ (order.encode contents.increments ++
    (elementsBytes order contents.elements ++ contents.remainder.bytes order))

/-- The bytes of a container are as many as its parts say. -/
theorem length_bytes (order : ByteOrder) (contents : Contents) :
    (contents.bytes order).length = contents.length := by
  simp only [bytes, length, List.length_append, ByteOrder.encode_length, length_elementsBytes,
    Remainder.length_bytes]
  omega

end Contents

/-- Any bytes are elements and a remainder. -/
theorem exists_elements (order : ByteOrder) (bytes : Bytes) :
    ∃ elements remainder, bytes = elementsBytes order elements ++ Remainder.bytes order remainder := by
  induction count : bytes.length using Nat.strong_induction_on generalizing bytes with
  | _ count ih =>
      by_cases short : bytes.length < 4
      · exact ⟨[], .cut bytes short, rfl⟩
      · have four : (bytes.take 4).length = 4 := by
          rw [List.length_take]
          omega
        have word := order.encode_decode four
        by_cases overrun : (bytes.drop 4).length < (order.decode (bytes.take 4)).toNat
        · refine ⟨[], .overrun (order.decode (bytes.take 4)) (bytes.drop 4) overrun, ?_⟩
          rw [elementsBytes_nil, List.nil_append, Remainder.bytes, word, List.take_append_drop]
        · have whole : ((bytes.drop 4).take (order.decode (bytes.take 4)).toNat).length =
              (order.decode (bytes.take 4)).toNat := by
            rw [List.length_take]
            omega
          obtain ⟨elements, remainder, later⟩ := ih _ (by
            subst count
            simp only [List.length_drop]
            omega) ((bytes.drop 4).drop (order.decode (bytes.take 4)).toNat) rfl
          refine ⟨(bytes.drop 4).take (order.decode (bytes.take 4)).toNat :: elements, remainder,
            ?_⟩
          rw [elementsBytes_cons, whole, UInt32.ofNat_toNat, word, List.append_assoc,
            List.append_assoc, ← later, List.take_append_drop, List.take_append_drop]

/-- An element that a `uint32_t` can count has its own length in its length word. -/
theorem toNat_elementLen {element : Bytes} {elements : List Bytes}
    (short : elementsLength (element :: elements) < 4294967296) :
    (UInt32.ofNat element.length).toNat = element.length := by
  rw [elementsLength_cons] at short
  rw [UInt32.toNat_ofNat']
  exact Nat.mod_eq_of_lt (by omega)

/-- Elements that fill the bytes are the elements of these bytes, and nothing is left. -/
theorem elements_unique (order : ByteOrder) {elements others : List Bytes} {remainder : Remainder}
    (short : elementsLength elements < 4294967296)
    (otherShort : elementsLength others < 4294967296)
    (same : elementsBytes order others ++ remainder.bytes order = elementsBytes order elements) :
    others = elements ∧ remainder.length = 0 := by
  induction elements generalizing others with
  | nil =>
      have none := congrArg List.length same
      simp only [List.length_append, length_elementsBytes, Remainder.length_bytes,
        elementsLength_nil] at none
      have few := length_le_elementsLength others
      exact ⟨List.length_eq_zero_iff.mp (by omega), by omega⟩
  | cons element elements ih =>
      have toNat := toNat_elementLen short
      cases others with
      | nil =>
          exfalso
          rw [elementsBytes_nil, List.nil_append, elementsBytes_cons] at same
          have counted := congrArg List.length same
          simp only [List.length_append, ByteOrder.encode_length, Remainder.length_bytes] at counted
          cases remainder with
          | cut bytes less =>
              simp only [Remainder.length] at counted
              omega
          | overrun length bytes less =>
              obtain ⟨word, -⟩ := List.append_inj same (by simp)
              have sized := congrArg UInt32.toNat (order.encode_injective word)
              simp only [Remainder.length] at counted
              omega
      | cons other others =>
          simp only [elementsBytes_cons, List.append_assoc] at same
          obtain ⟨word, behind⟩ := List.append_inj same (by simp)
          have sized : other.length = element.length := by
            rw [← toNat_elementLen otherShort, order.encode_injective word, toNat]
          obtain ⟨rfl, later⟩ := List.append_inj behind sized
          rw [elementsLength_cons] at short otherShort
          obtain ⟨rfl, none⟩ := ih (by omega) (by omega) later
          exact ⟨rfl, none⟩

/-- Contents that are a container in one byte order are the same container in the other. -/
theorem bytes_eq_of_filled {contents : Contents} {container : Container} {order : ByteOrder}
    (same : contents.bytes order = container.bytes order) (other : ByteOrder) :
    contents.bytes other = container.bytes other := by
  have short := contents.short
  have shortContainer := container.short
  obtain ⟨total, behind⟩ := List.append_inj same (by simp)
  obtain ⟨increments, behind⟩ := List.append_inj behind (by simp)
  obtain ⟨elements, none⟩ := elements_unique order (by omega) (by omega) behind
  have empty : contents.remainder.bytes other = [] := by
    rw [← List.length_eq_zero_iff, Remainder.length_bytes, none]
  rw [Contents.bytes, Container.bytes, order.encode_injective total,
    order.encode_injective increments, elements, empty, List.append_nil]

/-- Any bytes that begin with their own length, and have a header, are contents. -/
theorem exists_contents (order : ByteOrder) {bytes : Bytes} (short : bytes.length < 4294967296)
    (header : 8 ≤ bytes.length)
    (total : order.decode (slice bytes 0 4) = UInt32.ofNat bytes.length) :
    ∃ contents : Contents, contents.bytes order = bytes := by
  obtain ⟨elements, remainder, behind⟩ := exists_elements order (bytes.drop 8)
  have counted := congrArg List.length behind
  simp only [List.length_drop, List.length_append, length_elementsBytes,
    Remainder.length_bytes] at counted
  have first : (slice bytes 0 4).length = 4 := length_slice (by omega)
  have second : (slice bytes 4 4).length = 4 := length_slice (by omega)
  have whole : 8 + elementsLength elements + remainder.length = bytes.length := by omega
  let contents : Contents :=
    { increments := order.decode (slice bytes 4 4)
      elements := elements
      remainder := remainder
      short := by omega }
  have length : contents.length = bytes.length := whole
  refine ⟨contents, ?_⟩
  rw [Contents.bytes, length, ← total, order.encode_decode first, order.encode_decode second,
    ← behind]
  simp only [slice, List.drop_zero]
  have parts : bytes.drop 4 = (bytes.drop 4).take 4 ++ bytes.drop 8 := by
    conv_lhs => rw [← List.take_append_drop 4 (bytes.drop 4), List.drop_drop]
  rw [← parts, List.take_append_drop]

/-! ### Walks that stay inside -/

/-- Where the element with this index lies, as the lengths in front of it say. -/
def elementPosition (host : ByteOrder) (bytes : Bytes) : Nat → Nat
  | 0 => 8
  | index + 1 =>
      elementPosition host bytes index + 4 +
        (host.decode (slice bytes (elementPosition host bytes index) 4)).toNat

/-- The element with this index has the length `found` and is whole. -/
structure Whole (host : ByteOrder) (bytes : Bytes) (index : Nat) (found : UInt32) : Prop where
  length : found = host.decode (slice bytes (elementPosition host bytes index) 4)
  inside : elementPosition host bytes index + 4 + found.toNat ≤ bytes.length

/-- Every walk over an object that ends where its container does stays inside the object and
ends, and what it returns for an element is an element that is whole, or `-1`. -/
structure WalksSafely (host : ByteOrder) {total : Nat} (inHost inNetwork : Block total) :
    Prop where
  toNetworkOrder : ∃ converted, pckDataToNetworkOrder host inHost 0 = .ok converted
  toHostOrder : ∃ converted, pckDataToHostOrder host inNetwork 0 = .ok converted
  element : ∀ (index outputSize : Nat) (output : Block outputSize), total ≤ outputSize →
    ∃ found left, getElementFromPckData host inHost 0 output index = .ok (found, left) ∧
      (found = minusOne ∨
        Whole host inHost.bytes index found ∧ left.bytes.take found.toNat =
          slice inHost.bytes (elementPosition host inHost.bytes index + 4) found.toNat)
  elementLength : ∀ index,
    ∃ found, getElementLengthFromPckData host inHost 0 index = .ok found ∧
      (found = minusOne ∨ Whole host inHost.bytes index found)

/-! #### Over elements that fill the container -/

section Filled

variable {host : ByteOrder} {container : Container} {index : Nat} {element : Bytes}

/-- The bytes of elements, taken apart at one of them. -/
theorem elementsBytes_split (host : ByteOrder) {elements : List Bytes}
    (known : elements[index]? = some element) :
    elementsBytes host elements = elementsBytes host (elements.take index) ++
      (host.encode (UInt32.ofNat element.length) ++
        (element ++ elementsBytes host (elements.drop (index + 1)))) := by
  obtain ⟨inside, rfl⟩ := List.getElem?_eq_some_iff.mp known
  rw [← elementsBytes_cons, ← elementsBytes_append, ← List.drop_eq_getElem_cons inside,
    List.take_append_drop]

/-- The lengths in front of an element say where it lies. -/
theorem elementPosition_eq (host : ByteOrder) {bytes front rest : Bytes} {elements : List Bytes}
    (content : bytes = front ++ (elementsBytes host elements ++ rest)) (header : front.length = 8)
    (short : elementsLength elements < 4294967296) {index : Nat}
    (inside : index ≤ elements.length) :
    elementPosition host bytes index = 8 + elementsLength (elements.take index) := by
  induction index with
  | zero => rfl
  | succ index ih =>
      have known : elements[index]? = some elements[index] := List.getElem?_eq_getElem inside
      have split := elementsBytes_split host known
      have counted := congrArg List.length split
      simp only [List.length_append, ByteOrder.encode_length, length_elementsBytes] at counted
      have taken : elementsLength (elements.take (index + 1)) =
          elementsLength (elements.take index) + (4 + elements[index].length) := by
        rw [List.take_succ_eq_append_getElem inside, elementsLength_append]
        simp
      have word : slice bytes (8 + elementsLength (elements.take index)) 4 =
          host.encode (UInt32.ofNat elements[index].length) := by
        rw [content, split]
        simp only [List.append_assoc]
        rw [← List.append_assoc front]
        exact slice_append_of_length (by simp [header]) (by simp)
      rw [elementPosition, ih (Nat.le_of_succ_le inside), word, ByteOrder.decode_encode,
        UInt32.toNat_ofNat', Nat.mod_eq_of_lt (by omega), taken]
      omega

/-- Every element of a container is whole. -/
theorem whole_of_known (host : ByteOrder) (known : container.elements[index]? = some element) :
    Whole host (container.bytes host) index (UInt32.ofNat element.length) ∧
      (UInt32.ofNat element.length).toNat = element.length ∧
      slice (container.bytes host) (elementPosition host (container.bytes host) index + 4)
        element.length = element := by
  have inside := (List.getElem?_eq_some_iff.mp known).1
  have split := elementsBytes_split host known
  have counted := congrArg List.length split
  simp only [List.length_append, ByteOrder.encode_length, length_elementsBytes] at counted
  have short := container.short
  have content : container.bytes host = (host.encode (UInt32.ofNat container.length) ++
      host.encode container.increments) ++ (elementsBytes host container.elements ++ []) := by
    simp [Container.bytes]
  have position := elementPosition_eq host content (by simp) (by omega) (Nat.le_of_lt inside)
  have small : (UInt32.ofNat element.length).toNat = element.length := by
    rw [UInt32.toNat_ofNat']
    exact Nat.mod_eq_of_lt (by omega)
  have place : container.bytes host = (host.encode (UInt32.ofNat container.length) ++
      (host.encode container.increments ++ elementsBytes host (container.elements.take index))) ++
      (host.encode (UInt32.ofNat element.length) ++
        (element ++ elementsBytes host (container.elements.drop (index + 1)))) := by
    rw [Container.bytes, split]
    simp only [List.append_assoc]
  have before : (host.encode (UInt32.ofNat container.length) ++ (host.encode container.increments ++
      elementsBytes host (container.elements.take index))).length =
      8 + elementsLength (container.elements.take index) := by
    simp only [List.length_append, ByteOrder.encode_length, length_elementsBytes]
    omega
  refine ⟨⟨?_, ?_⟩, small, ?_⟩
  · rw [position, place, slice_append_of_length before (by simp), ByteOrder.decode_encode]
  · rw [position, small, length_bytes, Container.length]
    omega
  · rw [position, place, ← List.append_assoc]
    refine slice_append_of_length ?_ rfl
    rw [List.length_append, before, ByteOrder.encode_length]

/-- Where elements fill the object, every walk stays inside it. -/
theorem walksSafely_of_filled {total : Nat} {inHost inNetwork : Block total}
    (begun : container.elements ≠ []) (hostContent : inHost.bytes = container.bytes host)
    (networkContent : inNetwork.bytes = container.bytes .big) :
    WalksSafely host inHost inNetwork := by
  have hostAll : inHost.bytes = [] ++ (container.bytes host ++ []) := by simp [hostContent]
  have networkAll : inNetwork.bytes = [] ++ (container.bytes .big ++ []) := by
    simp [networkContent]
  have between := conversions_between host container hostAll networkAll
  have sized : container.length = total := by
    rw [← length_bytes host container, ← hostContent, inHost.allocated]
  constructor
  · exact ⟨inNetwork, between.1⟩
  · exact ⟨inHost, between.2⟩
  · intro index outputSize output room
    cases known : container.elements[index]? with
    | none =>
        have behind := List.getElem?_eq_none_iff.mp known
        exact ⟨minusOne, output, getElement_missing hostAll rfl begun behind, .inl rfl⟩
    | some element =>
        obtain ⟨whole, small, data⟩ := whole_of_known host known
        by_cases empty : element = [] ∧ index + 1 = container.elements.length
        · obtain ⟨rfl, last⟩ := empty
          exact ⟨minusOne, output, getElement_empty hostAll rfl known last, .inl rfl⟩
        · have inside := (List.getElem?_eq_some_iff.mp known).1
          have more : element ≠ [] ∨ index + 1 < container.elements.length := by
            by_cases some : element = []
            · exact .inr (Nat.lt_of_le_of_ne inside fun last => empty ⟨some, last⟩)
            · exact .inl some
          have fits := whole.inside
          rw [small, length_bytes, sized] at fits
          obtain ⟨left, ran, filled⟩ := getElement_ok output hostAll rfl known more (by omega)
          refine ⟨_, left, ran, .inr ⟨hostContent ▸ whole, ?_⟩⟩
          rw [small, filled, hostContent, data, List.take_left]
  · intro index
    cases known : container.elements[index]? with
    | none =>
        have behind := List.getElem?_eq_none_iff.mp known
        exact ⟨minusOne, getElementLength_missing hostAll rfl begun behind, .inl rfl⟩
    | some element =>
        exact ⟨_, getElementLength_ok hostAll rfl known,
          .inr (hostContent ▸ (whole_of_known host known).1)⟩

end Filled

/-! #### Over anything else -/

section Malformed

variable {size : Nat} {host : ByteOrder} {memory : Block size} {front rest : Bytes}
  {elements : List Bytes} {pckData later : Nat} {totalLen currentPosition reached : UInt32}

/-- The walk of `getElementLengthFromPckData` passes whole elements in front of the end. -/
theorem getElementLengthFrom_pass
    (stands : At host memory pckData reached currentPosition front elements rest)
    (farther : reached < totalLen) :
    getElementLengthFrom host memory pckData totalLen (elements.length + later)
        currentPosition =
      getElementLengthFrom host memory pckData totalLen later reached := by
  induction elements generalizing front currentPosition with
  | nil =>
      have here : reached = currentPosition := UInt32.toNat_inj.mp stands.total
      rw [here, List.length_nil, Nat.zero_add]
  | cons element elements ih =>
      have goesOn : ¬ totalLen ≤ currentPosition + 4 + UInt32.ofNat element.length := by
        have behind := stands.next.total
        rw [UInt32.lt_iff_toNat_lt] at farther
        rw [UInt32.le_iff_toNat_le]
        omega
      rw [List.length_cons, Nat.add_right_comm, getElementLengthFrom, stands.elementLen, ok_bind,
        if_neg goesOn]
      exact ih stands.next

/-- So does the walk of `getElementFromPckData`. -/
theorem getElementFrom_pass {outputSize : Nat} {output : Block outputSize}
    (stands : At host memory pckData reached currentPosition front elements rest)
    (farther : reached < totalLen) :
    getElementFrom host memory pckData totalLen output (elements.length + later)
        currentPosition =
      getElementFrom host memory pckData totalLen output later reached := by
  induction elements generalizing front currentPosition with
  | nil =>
      have here : reached = currentPosition := UInt32.toNat_inj.mp stands.total
      rw [here, List.length_nil, Nat.zero_add]
  | cons element elements ih =>
      have behind := stands.next.total
      obtain ⟨before, after⟩ := stands.ends
      rw [UInt32.lt_iff_toNat_lt] at farther
      have inside : ¬ totalLen ≤ currentPosition + 4 := by
        rw [UInt32.le_iff_toNat_le]
        omega
      have goesOn : ¬ totalLen ≤ currentPosition + 4 + UInt32.ofNat element.length := by
        rw [UInt32.le_iff_toNat_le]
        omega
      rw [List.length_cons, Nat.add_right_comm, getElementFrom, stands.elementLen, ok_bind,
        if_neg inside, if_neg goesOn]
      exact ih stands.next

end Malformed

section Contents

variable {host : ByteOrder} {total : Nat} {inHost inNetwork : Block total} {contents : Contents}

/-- The walks over contents stand behind their header, and the elements that are whole lead to
the remainder. -/
theorem at_contents (content : inHost.bytes = contents.bytes host) :
    inHost.load32 host 0 = .ok (UInt32.ofNat total) ∧
      (UInt32.ofNat total).toNat = total ∧
      (UInt32.ofNat (8 + elementsLength contents.elements)).toNat =
        8 + elementsLength contents.elements ∧
      total = 8 + elementsLength contents.elements + contents.remainder.length ∧
      ∃ front, front.length = 8 ∧
        At host inHost 0 (UInt32.ofNat (8 + elementsLength contents.elements)) 8 front
          contents.elements (contents.remainder.bytes host) := by
  have sized : contents.length = total := by
    rw [← contents.length_bytes host, ← content, inHost.allocated]
  have short := contents.short
  have counted : contents.length =
      8 + elementsLength contents.elements + contents.remainder.length := rfl
  have place : inHost.bytes = [] ++ (host.encode (UInt32.ofNat contents.length) ++
      (host.encode contents.increments ++ (elementsBytes host contents.elements ++
        contents.remainder.bytes host))) := content
  have toNat_of_short : ∀ count, count < 4294967296 → (UInt32.ofNat count).toNat = count := by
    intro count small
    rw [UInt32.toNat_ofNat']
    exact Nat.mod_eq_of_lt small
  have reached := toNat_of_short (8 + elementsLength contents.elements) (by omega)
  refine ⟨?_, toNat_of_short total (by omega), reached, by omega,
    host.encode (UInt32.ofNat contents.length) ++ host.encode contents.increments, by simp, ?_⟩
  · rw [Block.load32_append host 0 place rfl (by simp), ByteOrder.decode_encode, sized]
  · constructor
    · simpa only [List.append_assoc, List.nil_append] using place
    · simp
    · rw [reached]
      rfl

/-- The end does not cut off a length word. -/
theorem cut_eq_nil (safe : WalksSafely host inHost inNetwork)
    (content : inHost.bytes = contents.bytes host) {bytes : Bytes} {short : bytes.length < 4}
    (behind : contents.remainder = .cut bytes short) : bytes = [] := by
  obtain ⟨totalRead, totalIs, reachedIs, whole, front, header, stands⟩ := at_contents content
  rw [behind] at whole stands
  simp only [Remainder.length, Remainder.bytes] at whole stands
  by_contra some
  have positive := List.length_pos_iff.mpr some
  have farther : UInt32.ofNat (8 + elementsLength contents.elements) < UInt32.ofNat total := by
    rw [UInt32.lt_iff_toNat_lt]
    omega
  obtain ⟨found, ran, -⟩ := safe.elementLength (contents.elements.length + 0)
  rw [getElementLengthFromPckData, totalRead, ok_bind, getElementLengthFrom_pass stands farther,
    getElementLengthFrom] at ran
  have inside := (Block.load32_eq_ok.mp ran).1
  omega

/-- No length runs past the end. The length that is reported as it is would have to be `-1`, and
with this length the walk goes back by one byte and reads a word that the end cuts off. -/
theorem remainder_ne_overrun (safe : WalksSafely host inHost inNetwork)
    (content : inHost.bytes = contents.bytes host) {length : UInt32} {bytes : Bytes}
    {short : bytes.length < length.toNat} :
    contents.remainder ≠ .overrun length bytes short := by
  intro behind
  obtain ⟨totalRead, totalIs, reachedIs, whole, front, header, stands⟩ := at_contents content
  have bound := contents.short
  rw [behind] at whole stands bound
  simp only [Remainder.length, Remainder.bytes] at whole stands bound
  have farther : UInt32.ofNat (8 + elementsLength contents.elements) < UInt32.ofNat total := by
    rw [UInt32.lt_iff_toNat_lt]
    omega
  have position : elementPosition host inHost.bytes contents.elements.length =
      8 + elementsLength contents.elements := by
    rw [elementPosition_eq host stands.content header (by omega) (Nat.le_refl _),
      List.take_length]
  have word : inHost.load32 host
      (0 + (UInt32.ofNat (8 + elementsLength contents.elements)).toNat) = .ok length := by
    have place := stands.content
    rw [← List.append_assoc] at place
    rw [Block.load32_append host _ place ?_ (by simp), ByteOrder.decode_encode]
    rw [List.length_append, header, length_elementsBytes, reachedIs, Nat.zero_add]
  have reported : length = minusOne := by
    obtain ⟨found, ran, reported⟩ := safe.elementLength (contents.elements.length + 0)
    rw [getElementLengthFromPckData, totalRead, ok_bind, getElementLengthFrom_pass stands farther,
      getElementLengthFrom, word] at ran
    obtain rfl : length = found := Except.ok.inj ran
    rcases reported with error | impossible
    · exact error
    · have inside := impossible.inside
      simp only [Nat.add_zero, position, inHost.allocated] at inside
      omega
  subst reported
  have large : (minusOne : UInt32).toNat = 4294967295 := rfl
  have four : (4 : UInt32).toNat = 4 := rfl
  have next : (UInt32.ofNat (8 + elementsLength contents.elements) + 4).toNat =
      8 + elementsLength contents.elements + 4 := by
    rw [UInt32.toNat_add, reachedIs, four]
    omega
  have ended : total = 8 + elementsLength contents.elements + 4 := by
    obtain ⟨found, left, ran, -⟩ := safe.element (contents.elements.length + 0) total
      (Block.fill total 0) (Nat.le_refl total)
    rw [getElementFromPckData, totalRead, ok_bind, getElementFrom_pass stands farther,
      getElementFrom, word, ok_bind] at ran
    by_contra more
    rw [if_neg (by rw [UInt32.le_iff_toNat_le]; omega)] at ran
    obtain ⟨data, read, -⟩ := bind_eq_ok.mp ran
    rcases (Block.read_eq_ok.mp read).1 with inside | none <;> omega
  have back : (UInt32.ofNat (8 + elementsLength contents.elements) + 4 + minusOne).toNat =
      8 + elementsLength contents.elements + 3 := by
    rw [UInt32.toNat_add, next, large]
    omega
  obtain ⟨found, ran, -⟩ := safe.elementLength (contents.elements.length + 1)
  rw [getElementLengthFromPckData, totalRead, ok_bind, getElementLengthFrom_pass stands farther,
    getElementLengthFrom, word, ok_bind, if_neg (by rw [UInt32.le_iff_toNat_le]; omega),
    getElementLengthFrom] at ran
  have inside := (Block.load32_eq_ok.mp ran).1
  omega

/-- A walk that stays inside has room for a length word behind the header. -/
theorem room_of_walksSafely (safe : WalksSafely host inHost inNetwork) : 12 ≤ total := by
  obtain ⟨found, ran, -⟩ := safe.elementLength 0
  obtain ⟨totalLen, -, ran⟩ := bind_eq_ok.mp ran
  rw [getElementLengthFrom] at ran
  have inside := (Block.load32_eq_ok.mp ran).1
  have eight : (8 : UInt32).toNat = 8 := rfl
  omega

/-- Where every walk stays inside and reports only whole elements, the elements fill the
object. -/
theorem filled_of_walksSafely (safe : WalksSafely host inHost inNetwork)
    (content : inHost.bytes = contents.bytes host) :
    ∃ container : Container, container.elements ≠ [] ∧ inHost.bytes = container.bytes host := by
  obtain ⟨-, -, -, whole, -⟩ := at_contents content
  have room := room_of_walksSafely safe
  cases behind : contents.remainder with
  | cut bytes short =>
      obtain rfl := cut_eq_nil safe content behind
      rw [behind] at whole
      refine ⟨⟨contents.increments, contents.elements, ?_⟩, ?_, ?_⟩
      · exact Nat.lt_of_le_of_lt (Nat.le_add_right _ _) contents.short
      · intro empty
        have none : contents.elements = [] := empty
        rw [none] at whole
        simp only [elementsLength_nil, Remainder.length, List.length_nil] at whole
        omega
      · simp [content, Contents.bytes, Container.bytes, Contents.length, Container.length, behind,
          Remainder.length, Remainder.bytes]
  | overrun length bytes short => exact absurd behind (remainder_ne_overrun safe content)

end Contents

/-! ### Buffers that are longer than what they hold -/

section Buffers

variable {host : ByteOrder} {lengthOf : UInt32 → UInt32} {size total : Nat}
  {memory : Block size} {object : Block total} {behind : Bytes}

/-- A read inside the front of a buffer is the same read of the buffer. -/
theorem read_longer (content : memory.bytes = object.bytes ++ behind) {offset count : Nat}
    {data : Bytes} (ran : object.read offset count = .ok data) :
    memory.read offset count = .ok data := by
  have sized := congrArg List.length content
  rw [List.length_append, memory.allocated, object.allocated] at sized
  obtain ⟨inside, rfl⟩ := Block.read_eq_ok.mp ran
  rw [Block.read_eq_ok]
  rcases inside with fits | rfl
  · refine ⟨.inl (by omega), ?_⟩
    rw [content, slice, slice, List.drop_append, List.take_append_of_le_length]
    rw [List.length_drop, object.allocated]
    omega
  · exact ⟨.inr rfl, by simp⟩

/-- A word that is loaded is loaded from more memory as well. -/
theorem load32_longer (content : memory.bytes = object.bytes ++ behind) {offset : Nat}
    {word : UInt32} (ran : object.load32 host offset = .ok word) :
    memory.load32 host offset = .ok word := by
  obtain ⟨bytes, read, decoded⟩ := bind_eq_ok.mp ran
  have same : readBytes memory.bytes offset 4 = .ok bytes := read_longer content read
  rw [Block.load32, Machine.load32, same, ok_bind, decoded]

/-- A store inside the front of a buffer leaves what is behind it. -/
theorem store32_longer (content : memory.bytes = object.bytes ++ behind) {offset : Nat}
    {word : UInt32} {stored : Block total} (ran : object.store32 host offset word = .ok stored) :
    ∃ whole, memory.store32 host offset word = .ok whole ∧
      whole.bytes = stored.bytes ++ behind := by
  obtain ⟨fits, filled⟩ := Block.store32_eq_ok.mp ran
  have sized := congrArg List.length content
  rw [List.length_append, memory.allocated, object.allocated] at sized
  obtain ⟨whole, wrote, changed⟩ := memory.write_ok offset (host.encode word)
    (by rw [host.encode_length]; omega)
  refine ⟨whole, wrote, ?_⟩
  have short : offset ≤ object.bytes.length := by
    rw [object.allocated]
    omega
  rw [changed, filled, content, splice, splice, List.take_append_of_le_length short,
    List.drop_append_of_le_length (by rw [host.encode_length, object.allocated]; exact fits)]
  simp only [List.append_assoc]

/-- The conversion of the elements does the same in more memory. -/
theorem convertElements_longer (content : memory.bytes = object.bytes ++ behind)
    {pckData fuel : Nat} {totalLen currentLen : UInt32} {converted : Block total}
    (ran : convertElements host lengthOf pckData totalLen fuel currentLen object =
      .ok converted) :
    ∃ whole, convertElements host lengthOf pckData totalLen fuel currentLen memory = .ok whole ∧
      whole.bytes = converted.bytes ++ behind := by
  induction fuel generalizing memory object currentLen with
  | zero => cases ran
  | succ fuel ih =>
      rw [convertElements] at ran ⊢
      split at ran
      · rename_i goesOn
        obtain ⟨word, loaded, ran⟩ := bind_eq_ok.mp ran
        obtain ⟨stored, wrote, ran⟩ := bind_eq_ok.mp ran
        obtain ⟨longer, wroteLonger, longerBytes⟩ := store32_longer content wrote
        obtain ⟨whole, ranWhole, wholeBytes⟩ := ih longerBytes ran
        refine ⟨whole, ?_, wholeBytes⟩
        rw [if_pos goesOn, load32_longer content loaded, ok_bind, wroteLonger, ok_bind, ranWhole]
      · rename_i ended
        obtain rfl := Except.ok.inj ran
        exact ⟨memory, by rw [if_neg ended], content⟩

/-- The conversion of a container does the same in more memory. -/
theorem convertPckData_longer (content : memory.bytes = object.bytes ++ behind) {pckData : Nat}
    {converted : Block total} (ran : convertPckData host lengthOf object pckData = .ok converted) :
    ∃ whole, convertPckData host lengthOf memory pckData = .ok whole ∧
      whole.bytes = converted.bytes ++ behind := by
  simp only [convertPckData, bind_eq_ok] at ran
  obtain ⟨word, readTotal, first, wroteTotal, increments, readIncrements, second,
    wroteIncrements, ran⟩ := ran
  obtain ⟨longFirst, ranFirst, firstBytes⟩ := store32_longer content wroteTotal
  obtain ⟨longSecond, ranSecond, secondBytes⟩ := store32_longer firstBytes wroteIncrements
  obtain ⟨whole, ranWhole, wholeBytes⟩ := convertElements_longer secondBytes ran
  refine ⟨whole, ?_, wholeBytes⟩
  rw [convertPckData, load32_longer content readTotal, ok_bind, ranFirst, ok_bind,
    load32_longer firstBytes readIncrements, ok_bind, ranSecond, ok_bind, ranWhole]

/-- The search for an element finds the same in more memory. -/
theorem getElementFrom_longer (content : memory.bytes = object.bytes ++ behind)
    {pckData index outputSize : Nat} {totalLen currentPosition : UInt32}
    {output : Block outputSize} {result : UInt32 × Block outputSize}
    (ran : getElementFrom host object pckData totalLen output index currentPosition =
      .ok result) :
    getElementFrom host memory pckData totalLen output index currentPosition = .ok result := by
  induction index generalizing currentPosition with
  | zero =>
      rw [getElementFrom] at ran ⊢
      obtain ⟨word, loaded, ran⟩ := bind_eq_ok.mp ran
      rw [load32_longer content loaded, ok_bind]
      split at ran
      · rename_i ended
        rw [if_pos ended, ran]
      · rename_i more
        obtain ⟨element, read, ran⟩ := bind_eq_ok.mp ran
        rw [if_neg more, read_longer content read, ok_bind, ran]
  | succ index ih =>
      rw [getElementFrom] at ran ⊢
      obtain ⟨word, loaded, ran⟩ := bind_eq_ok.mp ran
      rw [load32_longer content loaded, ok_bind]
      split at ran
      · rename_i ended
        rw [if_pos ended, ran]
      · rename_i more
        rw [if_neg more]
        split at ran
        · rename_i ended
          rw [if_pos ended, ran]
        · rename_i goesOn
          rw [if_neg goesOn, ih ran]

/-- The search for the length of an element finds the same in more memory. -/
theorem getElementLengthFrom_longer (content : memory.bytes = object.bytes ++ behind)
    {pckData index : Nat} {totalLen currentPosition found : UInt32}
    (ran : getElementLengthFrom host object pckData totalLen index currentPosition = .ok found) :
    getElementLengthFrom host memory pckData totalLen index currentPosition = .ok found := by
  induction index generalizing currentPosition with
  | zero => exact load32_longer content ran
  | succ index ih =>
      rw [getElementLengthFrom] at ran ⊢
      obtain ⟨word, loaded, ran⟩ := bind_eq_ok.mp ran
      rw [load32_longer content loaded, ok_bind]
      split at ran
      · rename_i ended
        rw [if_pos ended, ran]
      · rename_i goesOn
        rw [if_neg goesOn, ih ran]

/-- What the functions do on an object that ends where the container does, they do on a buffer
that goes on behind it, and they leave what is behind. -/
theorem same_on_buffer (content : memory.bytes = object.bytes ++ behind) :
    (∀ converted, pckDataToNetworkOrder host object 0 = .ok converted →
      ∃ whole, pckDataToNetworkOrder host memory 0 = .ok whole ∧
        whole.bytes = converted.bytes ++ behind) ∧
    (∀ converted, pckDataToHostOrder host object 0 = .ok converted →
      ∃ whole, pckDataToHostOrder host memory 0 = .ok whole ∧
        whole.bytes = converted.bytes ++ behind) ∧
    (∀ (index outputSize : Nat) (output : Block outputSize) result,
      getElementFromPckData host object 0 output index = .ok result →
        getElementFromPckData host memory 0 output index = .ok result) ∧
    (∀ index found, getElementLengthFromPckData host object 0 index = .ok found →
      getElementLengthFromPckData host memory 0 index = .ok found) := by
  refine ⟨fun converted ran => convertPckData_longer content ran,
    fun converted ran => convertPckData_longer content ran, ?_, ?_⟩
  · intro index outputSize output result ran
    obtain ⟨totalLen, loaded, ran⟩ := bind_eq_ok.mp ran
    rw [getElementFromPckData, load32_longer content loaded, ok_bind,
      getElementFrom_longer content ran]
  · intro index found ran
    obtain ⟨totalLen, loaded, ran⟩ := bind_eq_ok.mp ran
    rw [getElementLengthFromPckData, load32_longer content loaded, ok_bind,
      getElementLengthFrom_longer content ran]

end Buffers

/-! ### The safe containers -/

section Safe

variable {host : ByteOrder} {size : Nat} {inHost inNetwork : Block size} {totalLen : UInt32}

/-- The container in a buffer: the bytes below the total length. -/
def upTo (memory : Block size) (totalLen : UInt32) (fits : totalLen.toNat ≤ size) :
    Block totalLen.toNat :=
  { bytes := memory.bytes.take totalLen.toNat
    allocated := by rw [List.length_take, memory.allocated, Nat.min_eq_left fits] }

/-- Two buffers hold the same container, one with its words in host order and one with its words
in network order. A total length that has no room for the header leaves nothing to compare. -/
structure SameContents (host : ByteOrder) (totalLen : UInt32) (inHost inNetwork : Block size) :
    Prop where
  fits : totalLen.toNat ≤ size
  hostTotal : inHost.load32 host 0 = .ok totalLen
  networkTotal : inNetwork.load32 host 0 = .ok (htonl host totalLen)
  contents : 8 ≤ totalLen.toNat → ∃ contents : Contents,
    inHost.bytes.take totalLen.toNat = contents.bytes host ∧
      inNetwork.bytes.take totalLen.toNat = contents.bytes .big

/-- The bytes below the total length of a buffer are contents. -/
theorem contents_of_total {order : ByteOrder} {memory : Block size}
    (fits : totalLen.toNat ≤ size) (total : memory.load32 order 0 = .ok totalLen)
    (header : 8 ≤ totalLen.toNat) :
    ∃ contents : Contents, contents.bytes order = memory.bytes.take totalLen.toNat := by
  have sized : (memory.bytes.take totalLen.toNat).length = totalLen.toNat :=
    (upTo memory totalLen fits).allocated
  refine exists_contents order (by rw [sized]; exact totalLen.toNat_lt) (by rw [sized]; exact header)
    ?_
  obtain ⟨-, loaded⟩ := Block.load32_eq_ok.mp total
  have front : (memory.bytes.take totalLen.toNat).take 4 = memory.bytes.take 4 := by
    rw [List.take_take, Nat.min_eq_left (by omega)]
  rw [sized, UInt32.ofNat_toNat, slice, List.drop_zero, front]
  exact loaded.symm

/-- Contents in the other byte order, in a buffer of the same size. -/
theorem exists_rendering (memory : Block size) {contents : Contents} {order other : ByteOrder}
    (begun : memory.bytes.take contents.length = contents.bytes order) :
    ∃ rendering : Block size, rendering.bytes.take contents.length = contents.bytes other := by
  have fits := congrArg List.length begun
  rw [Contents.length_bytes, List.length_take, memory.allocated] at fits
  refine ⟨Block.holding size (contents.bytes other), ?_⟩
  have room : (contents.bytes other).length ≤ size := by
    rw [Contents.length_bytes]
    omega
  have whole := List.prefix_iff_eq_take.mp (Block.prefix_holding room)
  rw [Contents.length_bytes] at whole
  exact whole.symm

/-- Contents are as long as the bytes that they are taken from. -/
theorem length_of_take {order : ByteOrder} {memory : Block size} {contents : Contents}
    (fits : totalLen.toNat ≤ size)
    (taken : contents.bytes order = memory.bytes.take totalLen.toNat) :
    contents.length = totalLen.toNat := by
  rw [← Contents.length_bytes order, taken]
  exact (upTo memory totalLen fits).allocated

/-- The total length that a buffer begins with. -/
theorem total_of_front {order : ByteOrder} {memory : Block size} {rest : Bytes}
    (begun : memory.bytes = order.encode totalLen ++ rest) :
    memory.load32 order 0 = .ok totalLen := by
  have place : memory.bytes = [] ++ (order.encode totalLen ++ rest) := begun
  rw [Block.load32_append order 0 place rfl (by simp), ByteOrder.decode_encode]

/-- The total length of contents that a buffer begins with. -/
theorem total_of_take {order : ByteOrder} {memory : Block size} {contents : Contents}
    (length : contents.length = totalLen.toNat)
    (begun : memory.bytes.take contents.length = contents.bytes order) :
    memory.load32 order 0 = .ok totalLen := by
  have whole := List.take_append_drop contents.length memory.bytes
  rw [begun, Contents.bytes, length, UInt32.ofNat_toNat, List.append_assoc] at whole
  exact total_of_front whole.symm

/-- The word of a total length in network order, as the host loads it. -/
theorem load32_big {memory : Block size} :
    memory.load32 .big 0 = .ok totalLen ↔ memory.load32 host 0 = .ok (htonl host totalLen) := by
  rw [Block.load32_eq_ok, Block.load32_eq_ok]
  refine and_congr_right fun fits => ?_
  have four : (slice memory.bytes 0 4).length = 4 :=
    length_slice (by rw [memory.allocated]; exact fits)
  rw [← ntohl_decode host four]
  constructor
  · rintro rfl
    rw [htonl_ntohl]
  · intro loaded
    rw [← loaded, ntohl_htonl]

/-- Every buffer with a container in host order has one beside it with the same container in
network order. -/
theorem exists_inNetwork (fits : totalLen.toNat ≤ size)
    (total : inHost.load32 host 0 = .ok totalLen) :
    ∃ inNetwork, SameContents host totalLen inHost inNetwork := by
  have room := (Block.load32_eq_ok.mp total).1
  by_cases header : 8 ≤ totalLen.toNat
  · obtain ⟨contents, taken⟩ := contents_of_total fits total header
    have length := length_of_take fits taken
    obtain ⟨inNetwork, begun⟩ := exists_rendering inHost (length ▸ taken.symm)
    refine ⟨inNetwork, fits, total, load32_big.mp (total_of_take length begun), fun _ => ?_⟩
    exact ⟨contents, taken.symm, length ▸ begun⟩
  · have four : (ByteOrder.big.encode totalLen).length ≤ size := by simpa using room
    obtain ⟨inNetwork, -, filled⟩ := inHost.write_front four
    exact ⟨inNetwork, fits, total, load32_big.mp (total_of_front filled),
      fun impossible => absurd impossible header⟩

/-- And the other way. -/
theorem exists_inHost (fits : totalLen.toNat ≤ size)
    (total : inNetwork.load32 host 0 = .ok (htonl host totalLen)) :
    ∃ inHost, SameContents host totalLen inHost inNetwork := by
  have room := (Block.load32_eq_ok.mp total).1
  by_cases header : 8 ≤ totalLen.toNat
  · obtain ⟨contents, taken⟩ := contents_of_total fits (load32_big.mpr total) header
    have length := length_of_take fits taken
    obtain ⟨inHost, begun⟩ := exists_rendering inNetwork (length ▸ taken.symm)
    refine ⟨inHost, fits, total_of_take length begun, total, fun _ => ?_⟩
    exact ⟨contents, length ▸ begun, taken.symm⟩
  · have four : (host.encode totalLen).length ≤ size := by simpa using room
    obtain ⟨inHost, -, filled⟩ := inNetwork.write_front four
    exact ⟨inHost, fits, total_of_front filled, total,
      fun impossible => absurd impossible header⟩

/-- The walks over a container stay inside it, end and report only what is whole exactly where
its elements fill it and there is one at least. -/
theorem walks_safe_iff (same : SameContents host totalLen inHost inNetwork) :
    WalksSafely host (upTo inHost totalLen same.fits) (upTo inNetwork totalLen same.fits) ↔
      ∃ container : Container, container.elements ≠ [] ∧
        inHost.bytes.take totalLen.toNat = container.bytes host := by
  constructor
  · intro safe
    have room := room_of_walksSafely safe
    obtain ⟨contents, hostContent, -⟩ := same.contents (by omega)
    exact filled_of_walksSafely safe hostContent
  · rintro ⟨container, begun, filled⟩
    have length := congrArg List.length filled
    rw [length_bytes, Container.length] at length
    have header : 8 ≤ totalLen.toNat := by
      rw [List.length_take] at length
      omega
    obtain ⟨contents, hostContent, networkContent⟩ := same.contents header
    refine walksSafely_of_filled begun filled ?_
    exact networkContent.trans (bytes_eq_of_filled (hostContent.symm.trans filled) .big)

end Safe

/-- The two buffers differ in their byte order alone. -/
theorem oneByteBehind_same (length : UInt32) (declared : length = 1 ∨ length = 200) :
    SameContents .little 13 (oneByteBehind .little length) (oneByteBehind .big length) := by
  rcases declared with rfl | rfl
  · refine ⟨by decide, by decide, by decide, fun _ => ?_⟩
    exact ⟨⟨255, [[7]], .cut [] (by decide), by decide⟩, by decide, by decide⟩
  · refine ⟨by decide, by decide, by decide, fun _ => ?_⟩
    exact ⟨⟨255, [], .overrun 200 [7] (by decide), by decide⟩, by decide, by decide⟩

/-- An element of one byte that says so. -/
theorem oneByte_safe :
    WalksSafely .little
      (upTo (oneByteBehind .little 1) 13 (oneByteBehind_same 1 (.inl rfl)).fits)
      (upTo (oneByteBehind .big 1) 13 (oneByteBehind_same 1 (.inl rfl)).fits) := by
  apply (walks_safe_iff (oneByteBehind_same 1 (.inl rfl))).mpr
  exact ⟨⟨255, [[7]], by decide⟩, by decide, by decide⟩

/-- An element of one byte that claims 200: its length is reported, and the copy of the element
leaves the container. -/
theorem overrun_not_safe :
    ∃ same : SameContents .little 13 (oneByteBehind .little 200) (oneByteBehind .big 200),
      getElementLengthFromPckData .little (upTo (oneByteBehind .little 200) 13 same.fits) 0 0 =
        .ok 200 ∧
      getElementFromPckData .little (upTo (oneByteBehind .little 200) 13 same.fits) 0
        (Block.fill 255 0) 0 = .error .outOfBounds ∧
      ¬ WalksSafely .little (upTo (oneByteBehind .little 200) 13 same.fits)
        (upTo (oneByteBehind .big 200) 13 same.fits) := by
  refine ⟨oneByteBehind_same 200 (.inr rfl), by decide +kernel, by decide +kernel, ?_⟩
  intro safe
  obtain ⟨found, left, ran, -⟩ := safe.element 0 255 (Block.fill 255 0) (by decide)
  have stops : (getElementFromPckData .little (upTo (oneByteBehind .little 200) 13
      (oneByteBehind_same 200 (.inr rfl)).fits) 0 (Block.fill 255 0) 0).toOption.isSome = false := by
    decide +kernel
  rw [ran] at stops
  cases stops

end RentMate.ContainerWalks
