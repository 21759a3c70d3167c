/-
Module: RentMate.Proofs.MessageCodec
Purpose: A message as three sections behind a header, and what composing, printing, encrypting
  and decrypting do to its bytes in a buffer.
Trusted boundary: none
Main exports: message, printMessage_ok, encryptPckData_ok, decryptPckData_ok
-/
import RentMate.PckData.Message
import RentMate.Proofs.ContainerCodec

namespace RentMate.MessageCodec

open RentMate.Machine
open RentMate.PckData
open RentMate.ContainerCodec

/-- The sizes that the layout of a message is made of. -/
theorem layout : headerLen = 40 ∧ ivPtr = 12 ∧ tagPtr = 24 ∧ ivLen = 12 ∧ tagLen = 16 ∧
    protocolSpecificAddLen = 4 ∧ protocolSpecificExtraDataLen = 0 ∧
    protocolSpecificEncryptedDataLen = 8 := by
  decide

/-! ### Messages -/

/-- The header of a message whose lengths are stored in `order`. -/
def messageHead (order : ByteOrder) (iv tag : Bytes) (extraLen addLen encryptedLen : Nat) :
    Bytes :=
  order.encode (UInt32.ofNat (headerLen + extraLen + addLen + encryptedLen)) ++
    (order.encode (UInt32.ofNat addLen) ++
      (order.encode (UInt32.ofNat extraLen) ++ (iv ++ tag)))

/-- A message: the header and the extra, ADD and encrypted sections. -/
def message (order : ByteOrder) (iv tag extra add encrypted : Bytes) : Bytes :=
  messageHead order iv tag extra.length add.length encrypted.length ++
    (extra ++ (add ++ encrypted))

/-- The bytes of a container that may be absent. -/
def givenBytes (order : ByteOrder) : Option Container → Bytes
  | none => []
  | some container => container.bytes order

/-- The length of a container that may be absent. -/
def givenLength : Option Container → Nat
  | none => 0
  | some container => container.length

/-- A container takes as many bytes as it says, and none if there is none. -/
@[simp] theorem length_givenBytes (order : ByteOrder) (container : Option Container) :
    (givenBytes order container).length = givenLength container := by
  cases container with
  | none => rfl
  | some container => exact length_bytes order container

section Header

variable {order : ByteOrder} {iv tag extra add encrypted rest : Bytes} {size : Nat}
  {memory : Block size}

/-- Vector and tag have their sizes. -/
structure Sealed (iv tag : Bytes) : Prop where
  iv : iv.length = ivLen
  tag : tag.length = tagLen

/-- The head of a message has a fixed length. -/
theorem length_messageHead (order : ByteOrder) (sized : Sealed iv tag)
    (extraLen addLen encryptedLen : Nat) :
    (messageHead order iv tag extraLen addLen encryptedLen).length = headerLen := by
  simp only [messageHead, List.length_append, ByteOrder.encode_length, sized.iv, sized.tag]
  rfl

/-- The length of a message is that of its head and its three sections. -/
theorem length_message (sized : Sealed iv tag) :
    (message order iv tag extra add encrypted).length =
      headerLen + extra.length + add.length + encrypted.length := by
  simp only [message, List.length_append, length_messageHead _ sized]
  omega

/-- Behind the version number lies the ADD container. -/
theorem drop_message (sized : Sealed iv tag) {version : Bytes} {offset : Nat}
    (position : headerLen + extra.length + version.length = offset) :
    (message order iv tag extra (version ++ add) encrypted ++ rest).drop offset =
      add ++ (encrypted ++ rest) := by
  have grouped : message order iv tag extra (version ++ add) encrypted ++ rest =
      (messageHead order iv tag extra.length (version ++ add).length encrypted.length ++
        extra ++ version) ++ (add ++ (encrypted ++ rest)) := by
    simp only [message, List.append_assoc]
  rw [grouped, List.drop_left']
  simp only [List.length_append, length_messageHead _ sized, ← position]

/-- The header and the sections of a message in a buffer. -/
theorem message_sections
    (content : memory.bytes = message order iv tag extra add encrypted ++ rest) :
    memory.bytes = messageHead order iv tag extra.length add.length encrypted.length ++
      (extra ++ (add ++ (encrypted ++ rest))) := by
  simpa only [message, List.append_assoc] using content

/-- The three lengths of a message in a buffer. -/
theorem message_lengths (host : ByteOrder) {extraLen addLen encryptedLen : Nat}
    (content : memory.bytes = messageHead order iv tag extraLen addLen encryptedLen ++ rest) :
    memory.load32 host 0 = .ok (host.decode
        (order.encode (UInt32.ofNat (headerLen + extraLen + addLen + encryptedLen)))) ∧
      memory.load32 host 4 = .ok (host.decode (order.encode (UInt32.ofNat addLen))) ∧
      memory.load32 host 8 = .ok (host.decode (order.encode (UInt32.ofNat extraLen))) := by
  simp only [messageHead, List.append_assoc] at content
  have first : memory.bytes = [] ++ (order.encode
      (UInt32.ofNat (headerLen + extraLen + addLen + encryptedLen)) ++
        (order.encode (UInt32.ofNat addLen) ++
          (order.encode (UInt32.ofNat extraLen) ++ (iv ++ (tag ++ rest))))) := content
  have third : memory.bytes = (order.encode
      (UInt32.ofNat (headerLen + extraLen + addLen + encryptedLen)) ++
        order.encode (UInt32.ofNat addLen)) ++
          (order.encode (UInt32.ofNat extraLen) ++ (iv ++ (tag ++ rest))) := by
    simpa only [List.append_assoc] using content
  refine ⟨?_, ?_, ?_⟩
  · exact Block.load32_append host 0 first rfl (by simp)
  · exact Block.load32_append host 4 content (by simp) (by simp)
  · exact Block.load32_append host 8 third (by simp) (by simp)

/-- The vector and the tag of a message in a buffer. -/
theorem message_seal (sized : Sealed iv tag) {extraLen addLen encryptedLen : Nat}
    (content : memory.bytes = messageHead order iv tag extraLen addLen encryptedLen ++ rest) :
    memory.read ivPtr ivLen = .ok iv ∧ memory.read tagPtr tagLen = .ok tag := by
  obtain ⟨lengths, twelve, opening⟩ : ∃ lengths : Bytes, lengths.length = ivPtr ∧
      messageHead order iv tag extraLen addLen encryptedLen = lengths ++ (iv ++ tag) := by
    refine ⟨order.encode (UInt32.ofNat (headerLen + extraLen + addLen + encryptedLen)) ++
      (order.encode (UInt32.ofNat addLen) ++ order.encode (UInt32.ofNat extraLen)), by simp, ?_⟩
    simp only [messageHead, List.append_assoc]
  have ivPlace : memory.bytes = lengths ++ (iv ++ (tag ++ rest)) := by
    rw [content, opening, List.append_assoc, List.append_assoc]
  have tagPlace : memory.bytes = (lengths ++ iv) ++ (tag ++ rest) := by
    rw [ivPlace, List.append_assoc]
  exact ⟨Block.read_append _ _ ivPlace twelve sized.iv,
    Block.read_append _ _ tagPlace (by rw [List.length_append, twelve, sized.iv]) sized.tag⟩

end Header

/-! ### Lengths as `uint32_t` -/

section Lengths

variable {extraLen addLen encryptedLen : Nat}

/-- A number that fits a word comes back from it. -/
theorem toNat_ofNat_short {count : Nat} (short : count < 4294967296) :
    (UInt32.ofNat count).toNat = count := by
  rw [UInt32.toNat_ofNat']
  exact Nat.mod_eq_of_lt short

/-- A length is not taken for the `-1` that says that there is no element. -/
theorem ofNat_ne_minusOne {count : Nat} (short : count < 4294967295) :
    UInt32.ofNat count ≠ minusOne := by
  have huge : minusOne.toNat = 4294967295 := rfl
  have counted : (UInt32.ofNat count).toNat = count := toNat_ofNat_short (by omega)
  intro same
  rw [same] at counted
  omega

/-- Words are subtracted as their numbers are. -/
theorem ofNat_sub_ofNat {whole part : Nat} (fits : part ≤ whole) :
    UInt32.ofNat whole - UInt32.ofNat part = UInt32.ofNat (whole - part) := by
  obtain ⟨more, rfl⟩ := Nat.exists_eq_add_of_le fits
  rw [UInt32.ofNat_add, UInt32.add_comm, UInt32.add_sub_cancel, Nat.add_sub_cancel_left]

/-- A number that fits a word is zero as a word only if it is zero. -/
theorem ofNat_ne_zero_iff {count : Nat} (short : count < 4294967296) :
    UInt32.ofNat count ≠ 0 ↔ count ≠ 0 := by
  rw [ne_eq, ← UInt32.toNat_inj, toNat_ofNat_short short]
  rfl

/-- The length of the encrypted section as the code computes it. -/
theorem encryptedLen_eq (extraLen addLen encryptedLen : Nat) :
    UInt32.ofNat (headerLen + extraLen + addLen + encryptedLen) -
        (UInt32.ofNat headerLen + UInt32.ofNat extraLen + UInt32.ofNat addLen) =
      UInt32.ofNat encryptedLen := by
  rw [← UInt32.ofNat_add, ← UInt32.ofNat_add, ofNat_sub_ofNat (Nat.le_add_right _ _),
    Nat.add_sub_cancel_left]

/-- A number that fits a word is positive as a word exactly if it is positive. -/
theorem zero_lt_ofNat_iff {count : Nat} (short : count < 4294967296) :
    0 < UInt32.ofNat count ↔ 0 < count := by
  rw [UInt32.lt_iff_toNat_lt, toNat_ofNat_short short]
  rfl

end Lengths

/-! ### Printing a message -/

/-- What printing does to a section, wherever it lies: nothing happens to an empty one, and
another one is a container that `printPckData` leaves with these bytes. -/
inductive Prints (host : ByteOrder) (isSerialized : Bool) : Bytes → Bytes → Prop where
  | absent : Prints host isSerialized [] []
  | present {before after : Bytes} (begun : before ≠ []) (sameLength : after.length = before.length)
      (printed : ∀ {size : Nat} {memory : Block size} {front rest : Bytes} {pckData : Nat},
        memory.bytes = front ++ (before ++ rest) → front.length = pckData →
        ∃ left, printPckData host memory pckData isSerialized = .ok left ∧
          left.bytes = front ++ (after ++ rest)) :
      Prints host isSerialized before after

/-- What printing leaves of a serialized container that may be absent. -/
def givenPrinted (host : ByteOrder) : Option Container → Bytes
  | none => []
  | some container => printed host container

section Printing

variable {host : ByteOrder} {isSerialized : Bool} {before after : Bytes}

/-- A container has at least its header. -/
theorem bytes_ne_nil (order : ByteOrder) (container : Container) : container.bytes order ≠ [] := by
  intro empty
  have total := length_bytes order container
  rw [empty] at total
  simp only [Container.length, List.length_nil] at total
  omega

/-- A print of a container does not change how long it is. -/
theorem length_printed (container : Container) :
    (printed host container).length = container.length := by
  unfold printed
  split <;> exact length_bytes _ container

/-- A print does not change the length of a section. -/
theorem Prints.length_eq (prints : Prints host isSerialized before after) :
    after.length = before.length := by
  cases prints with
  | absent => rfl
  | present _ sameLength _ => exact sameLength

/-- A print that converts nothing leaves a section in host order as it is. -/
theorem prints_plain (container : Option Container) :
    Prints host false (givenBytes host container) (givenBytes host container) := by
  cases container with
  | none => exact .absent
  | some container =>
      exact .present (bytes_ne_nil host container) rfl fun content position =>
        ⟨_, printPckData_plain container content position, content⟩

/-- A print that converts turns a section in network order into what it leaves of it. -/
theorem prints_serialized (container : Option Container) :
    Prints host true (givenBytes .big container) (givenPrinted host container) := by
  cases container with
  | none => exact .absent
  | some container =>
      refine .present (bytes_ne_nil .big container) ?_ fun content position =>
        printPckData_serialized container content position
      exact (length_printed container).trans (length_bytes .big container).symm

/-- A section of a message is printed if its length says that it has a container. -/
theorem Prints.section_ok (prints : Prints host isSerialized before after) {size : Nat}
    {memory : Block size} {front rest : Bytes} (pckData : Nat)
    (content : memory.bytes = front ++ (before ++ rest)) (position : front.length = pckData)
    {length : UInt32} (counted : length ≠ 0 ↔ before.length ≠ 0) :
    ∃ left,
      (if length ≠ 0 then printPckData host memory pckData isSerialized else pure memory) =
          .ok left ∧
        left.bytes = front ++ (after ++ rest) := by
  cases prints with
  | absent => exact ⟨memory, by rw [if_neg (by simp [counted])]; rfl, content⟩
  | present begun _ printed =>
      have some : before.length ≠ 0 := by simpa using begun
      rw [if_pos (counted.mpr some)]
      exact printed content position

/-- Printing changes nothing of the header of a message. -/
theorem printMessage_take {size : Nat} {memory left : Block size} {isEncrypted : Bool}
    (ran : printMessage host memory isEncrypted isSerialized = .ok left) :
    left.bytes.take headerLen = memory.bytes.take headerLen := by
  have section_take : ∀ {before after : Block size} {counted : Prop} [Decidable counted]
      {pckData : Nat}, headerLen ≤ pckData →
      (if counted then printPckData host before pckData isSerialized else pure before) =
        .ok after → after.bytes.take headerLen = before.bytes.take headerLen := by
    intro before after counted _ pckData behind printed
    split at printed
    · exact printPckData_take printed behind
    · rw [Except.ok.inj printed]
  simp only [printMessage, bind_eq_ok] at ran
  obtain ⟨-, -, totalWord, -, addWord, -, extraWord, -, first, printedExtra, -, -, second,
    printedAdd, ran⟩ := ran
  have keptByAdd := (section_take (by omega) printedAdd).trans
    (section_take (Nat.le_add_right _ _) printedExtra)
  split at ran
  · simp only [bind_eq_ok] at ran
    obtain ⟨-, -, ran⟩ := ran
    rw [← Except.ok.inj ran, keptByAdd]
  · simp only [bind_eq_ok] at ran
    obtain ⟨-, -, ran⟩ := ran
    rw [section_take (by omega) ran, keptByAdd]

/-- What printing does to the encrypted section: as long as it is masked it is only read, and
otherwise nonce and settings are read and the container behind them is printed. -/
inductive PrintsEncrypted (host : ByteOrder) (isSerialized : Bool) :
    Bool → Bytes → Bytes → Prop where
  | masked (bytes : Bytes) : PrintsEncrypted host isSerialized true bytes bytes
  | plain {before after : Bytes} (settings : Bytes)
      (sized : settings.length = protocolSpecificEncryptedDataLen)
      (prints : Prints host isSerialized before after) :
      PrintsEncrypted host isSerialized false (settings ++ before) (settings ++ after)

/-- `printMessage` on a message whose containers can be printed. -/
theorem printMessage_ok {size : Nat} {memory : Block size} {order : ByteOrder}
    (isEncrypted : Bool) {iv tag version extra extra' add add' encrypted encrypted' rest : Bytes}
    (stored : order = if isSerialized then .big else host) (sized : Sealed iv tag)
    (content : memory.bytes = message order iv tag extra (version ++ add) encrypted ++ rest)
    (versioned : version.length = protocolSpecificAddLen)
    (short : (message order iv tag extra (version ++ add) encrypted).length < 4294967296)
    (printsExtra : Prints host isSerialized extra extra')
    (printsAdd : Prints host isSerialized add add')
    (printsEncrypted : PrintsEncrypted host isSerialized isEncrypted encrypted encrypted') :
    ∃ left,
      printMessage host memory isEncrypted isSerialized = .ok left ∧
        left.bytes = message order iv tag extra' (version ++ add') encrypted' ++ rest := by
  rw [length_message sized] at short
  have deserialized : ∀ count, (if isSerialized then
      ntohl host (host.decode (order.encode (UInt32.ofNat count)))
      else host.decode (order.encode (UInt32.ofNat count))) = UInt32.ofNat count := by
    intro count
    subst stored
    cases isSerialized <;> simp
  have sections := message_sections content
  obtain ⟨total, addWord, extraWord⟩ := message_lengths host sections
  have lengthAdd : (version ++ add).length = protocolSpecificAddLen + add.length := by
    rw [List.length_append, versioned]
  generalize headIs : messageHead order iv tag extra.length (version ++ add).length
    encrypted.length = head at sections
  have headLength : head.length = headerLen := by rw [← headIs, length_messageHead _ sized]
  have inBuffer : 0 + 40 ≤ size := by
    rw [← memory.allocated, sections, List.length_append, headLength]
    exact Nat.le_add_right _ _
  have addPtr : headerLen + (UInt32.ofNat extra.length).toNat = headerLen + extra.length := by
    rw [toNat_ofNat_short (by omega)]
  have encryptedPtr : headerLen + extra.length + (UInt32.ofNat (version ++ add).length).toNat =
      headerLen + extra.length + (version ++ add).length := by
    rw [toNat_ofNat_short (by omega)]
  -- The extra section
  obtain ⟨first, printedExtra, contentFirst⟩ := printsExtra.section_ok headerLen sections headLength
    (ofNat_ne_zero_iff (by omega))
  have lengthExtra := printsExtra.length_eq
  -- The ADD section
  have versionPlace : first.bytes = (head ++ extra') ++
      (version ++ (add ++ (encrypted ++ rest))) := by
    simpa only [List.append_assoc] using contentFirst
  have readVersion := Block.read_append (headerLen + extra.length) protocolSpecificAddLen
    versionPlace (by simp [headLength, lengthExtra]) versioned
  have addPlace : first.bytes = (head ++ (extra' ++ version)) ++ (add ++ (encrypted ++ rest)) := by
    simpa only [List.append_assoc] using contentFirst
  have addCounted : UInt32.ofNat ((version ++ add).length - protocolSpecificAddLen) ≠ 0 ↔
      add.length ≠ 0 := by
    rw [lengthAdd, Nat.add_sub_cancel_left]
    exact ofNat_ne_zero_iff (by omega)
  have addAt : (head ++ (extra' ++ version)).length =
      headerLen + extra.length + protocolSpecificAddLen := by
    simp only [List.length_append, headLength, lengthExtra, versioned]
    omega
  obtain ⟨second, printedAdd, contentSecond⟩ :=
    printsAdd.section_ok _ addPlace addAt addCounted
  have lengthAfter := printsAdd.length_eq
  -- The encrypted section
  have encryptedPlace : second.bytes = (head ++ (extra' ++ (version ++ add'))) ++
      (encrypted ++ rest) := by
    simpa only [List.append_assoc] using contentSecond
  have encryptedAt : (head ++ (extra' ++ (version ++ add'))).length =
      headerLen + extra.length + (version ++ add).length := by
    simp only [List.length_append, headLength, lengthExtra, lengthAfter]
    omega
  have result : ∀ after : Bytes, after.length = encrypted.length →
      (head ++ (extra' ++ (version ++ add'))) ++ (after ++ rest) =
        message order iv tag extra' (version ++ add') after ++ rest := by
    intro after same
    simp only [message, ← headIs, List.length_append, lengthExtra, lengthAfter, same,
      List.append_assoc]
  simp only [printMessage, memory.read_ok inBuffer, ok_bind, total, addWord, extraWord,
    deserialized, encryptedLen_eq, addPtr, encryptedPtr, ofNat_sub_ofNat (Nat.zero_le _), Nat.sub_zero,
    ofNat_sub_ofNat (lengthAdd ▸ Nat.le_add_right _ _ :
      protocolSpecificAddLen ≤ (version ++ add).length)]
  have extraPtr : headerLen + protocolSpecificExtraDataLen = headerLen := rfl
  rw [extraPtr, printedExtra, ok_bind, readVersion, ok_bind, printedAdd, ok_bind]
  cases printsEncrypted with
  | masked =>
      have readEncrypted := Block.read_append _ encrypted.length encryptedPlace encryptedAt rfl
      refine ⟨second, ?_, by rw [encryptedPlace, result encrypted rfl]⟩
      rw [if_pos rfl, toNat_ofNat_short (by omega), readEncrypted]
      rfl
  | @plain before after settings settingsSized prints =>
      rw [List.append_assoc settings] at encryptedPlace
      have readSettings := Block.read_append _ protocolSpecificEncryptedDataLen encryptedPlace
        encryptedAt settingsSized
      have lengthBody : (settings ++ before).length =
          protocolSpecificEncryptedDataLen + before.length := by
        rw [List.length_append, settingsSized]
      have containerPlace : second.bytes = (head ++ (extra' ++ (version ++ add')) ++ settings) ++
          (before ++ rest) := by
        simpa only [List.append_assoc] using encryptedPlace
      have counted : UInt32.ofNat
          ((settings ++ before).length - protocolSpecificEncryptedDataLen) ≠ 0 ↔
            before.length ≠ 0 := by
        rw [lengthBody, Nat.add_sub_cancel_left]
        exact ofNat_ne_zero_iff (by omega)
      obtain ⟨third, printedContainer, contentThird⟩ := prints.section_ok _ containerPlace
        (by rw [List.length_append, encryptedAt, settingsSized]) counted
      refine ⟨third, ?_, ?_⟩
      · rw [if_neg (by simp), readSettings, ok_bind, ofNat_sub_ofNat (lengthBody ▸
          Nat.le_add_right _ _), printedContainer]
      · rw [contentThird, ← result (settings ++ after) (by simp [prints.length_eq])]
        simp only [List.append_assoc]

end Printing

/-! ### Composing a message -/

/-- The caller's pointer is `NULL`, or points to an object that begins with the container. -/
inductive Given (order : ByteOrder) :
    Option (Block pckDataIncrements) → Option Container → Prop where
  | absent : Given order none none
  | present {object : Block pckDataIncrements} {container : Container} {rest : Bytes}
      (content : object.bytes = container.bytes order ++ rest) :
      Given order (some object) (some container)

section Giving

variable {host order : ByteOrder} {pckData : Option (Block pckDataIncrements)}
  {container : Option Container}

/-- The length that is read from a container that is given, or zero. -/
theorem givenLen_ok (given : Given host pckData container) :
    givenLen host pckData = .ok (UInt32.ofNat (givenLength container)) := by
  cases given with
  | absent => rfl
  | @present object container rest content =>
      have start : object.bytes = [] ++ (container.bytes host ++ rest) := content
      exact (at_container start rfl).1

/-- A container that is given is converted to network order before it is sent. -/
theorem givenToNetworkOrder_ok (given : Given host pckData container) :
    ∃ converted, givenToNetworkOrder host pckData = .ok converted ∧
      Given .big converted container := by
  cases given with
  | absent => exact ⟨none, rfl, .absent⟩
  | @present object container rest content =>
      have start : object.bytes = [] ++ (container.bytes host ++ rest) := content
      obtain ⟨converted, ran, result⟩ := pckDataToNetworkOrder_ok host container start rfl
      exact ⟨some converted, by simp [givenToNetworkOrder, show pckDataToNetworkOrder host object 0 =
        .ok converted from ran], .present result⟩

/-- The length of a container fits a word. -/
theorem givenLength_lt (container : Option Container) : givenLength container < 4294967296 := by
  cases container with
  | none => exact Nat.zero_lt_succ _
  | some container => exact length_lt container

/-- A container that is not too long can be given. -/
theorem exists_given (order : ByteOrder) (container : Option Container)
    (room : givenLength container ≤ pckDataIncrements) :
    ∃ pckData, Given order pckData container := by
  cases container with
  | none => exact ⟨none, .absent⟩
  | some container =>
      refine ⟨some ⟨container.bytes order ++
        List.replicate (pckDataIncrements - container.length) 0, ?_⟩, .present rfl⟩
      rw [List.length_append, length_bytes, List.length_replicate]
      exact Nat.add_sub_cancel' room

/-- The copy of a container fills the field that is as long as the container. -/
theorem copyGiven_ok {size : Nat} {outputBuf : Block size} {fields : List Bytes}
    {sizes : List Nat} {rest : Bytes} (index offset : Nat) (given : Given .big pckData container)
    (content : outputBuf.bytes = fields.flatten ++ rest) (lengths : fields.map List.length = sizes)
    (position : (sizes.take index).sum = offset)
    (sized : sizes[index]? = some (givenLength container)) :
    ∃ copied,
      copyGiven outputBuf offset pckData (UInt32.ofNat (givenLength container)) = .ok copied ∧
        copied.bytes = (fields.set index (givenBytes .big container)).flatten ++ rest ∧
        (fields.set index (givenBytes .big container)).map List.length = sizes := by
  obtain ⟨copied, wrote, filled⟩ := Block.write_field index offset (givenBytes .big container)
    content lengths position (by rw [sized, length_givenBytes])
  refine ⟨copied, ?_, filled⟩
  cases given with
  | absent =>
      rw [givenBytes, Block.write_nil] at wrote
      exact wrote
  | @present object container behind inObject =>
      have some : 0 < container.length := by
        simp only [Container.length]
        omega
      have start : object.bytes = [] ++ (container.bytes .big ++ behind) := inObject
      have read := Block.read_append 0 container.length start rfl (length_bytes .big container)
      have counted : 0 < UInt32.ofNat container.length :=
        (zero_lt_ofNat_iff container.short).mpr some
      simp only [givenBytes] at wrote
      simp only [copyGiven, givenLength, if_pos counted, toNat_length, read, ok_bind, wrote]

end Giving

/-- The plain encrypted section: nonce, settings and container. -/
def settingsBytes (order : ByteOrder) (nonce pckGSettings : UInt32) : Bytes :=
  order.encode nonce ++ order.encode pckGSettings

/-- The nonce and the settings take a fixed number of bytes. -/
@[simp] theorem length_settingsBytes (order : ByteOrder) (nonce pckGSettings : UInt32) :
    (settingsBytes order nonce pckGSettings).length = protocolSpecificEncryptedDataLen := by
  simp [settingsBytes]

section Composing

variable {size : Nat} {host : ByteOrder}
  {pckData addDataPck extraDataPck : Option (Block pckDataIncrements)}
  {enc add extra : Option Container}

/-- The length of the message that is composed. -/
def composedLength (enc add extra : Option Container) : Nat :=
  headerLen + givenLength extra + (protocolSpecificAddLen + givenLength add) +
    (protocolSpecificEncryptedDataLen + givenLength enc)

/-- No container is longer than the message. -/
theorem givenLength_le (fits : composedLength enc add extra ≤ size) :
    givenLength enc ≤ size ∧ givenLength add ≤ size ∧ givenLength extra ≤ size := by
  unfold composedLength at fits
  omega

/-- The fields of a message, of which only those up to the tag have a size that is fixed. -/
theorem exists_front_fields {fields : List Bytes} {extraLen addLen encryptedLen : Nat}
    (lengths : fields.map List.length =
      [4, 4, 4, 12, 16, extraLen, 4, addLen, 4, 4, encryptedLen]) :
    ∃ f0 f1 f2 f3 tag f5 f6 f7 f8 f9 f10, fields = [f0, f1, f2, f3, tag, f5, f6, f7, f8, f9, f10] ∧
      (f0 ++ f1 ++ f2 ++ f3).length = 24 ∧ tag.length = 16 := by
  simp only [List.map_eq_cons_iff, List.map_eq_nil_iff] at lengths
  obtain ⟨f0, _, rfl, four0, f1, _, rfl, four1, f2, _, rfl, four2, f3, _, rfl, twelve, tag, _,
    rfl, tagged, f5, _, rfl, -, f6, _, rfl, -, f7, _, rfl, -, f8, _, rfl, -, f9, _, rfl, -, f10,
    _, rfl, -, rfl⟩ := lengths
  refine ⟨f0, f1, f2, f3, tag, f5, f6, f7, f8, f9, f10, rfl, ?_, tagged⟩
  simp only [List.length_append, four0, four1, four2, twelve]

/-- `composePckData` puts the message together over whatever the buffer held. Where the tag
belongs, the buffer keeps its bytes. -/
theorem composePckData_ok (givenEnc : Given host pckData enc) (givenAdd : Given host addDataPck add)
    (givenExtra : Given host extraDataPck extra) (pckGSettings nonce : UInt32)
    (newIv : Block ivLen) (outputBuf : Block size) (small : size < 4294967296)
    (fits : composedLength enc add extra ≤ size) :
    ∃ composed tag,
      composePckData host pckData addDataPck extraDataPck pckGSettings nonce newIv outputBuf =
          .ok composed ∧
        tag = slice outputBuf.bytes tagPtr tagLen ∧
        composed.pckDataLen = UInt32.ofNat (givenLength enc) ∧
        composed.addLen = UInt32.ofNat (protocolSpecificAddLen + givenLength add) ∧
        composed.extraDataLen = UInt32.ofNat (givenLength extra) ∧
        composed.msgLen = UInt32.ofNat (composedLength enc add extra) ∧
        Sealed newIv.bytes tag ∧
        composed.outputBuf.bytes =
          message .big newIv.bytes tag (givenBytes .big extra)
            (ByteOrder.big.encode 0 ++ givenBytes .big add)
            (settingsBytes .big nonce pckGSettings ++ givenBytes .big enc) ++
              outputBuf.bytes.drop (composedLength enc add extra) := by
  let sizes := [4, 4, 4, 12, 16, givenLength extra, 4, givenLength add, 4, 4, givenLength enc]
  have sum : sizes.sum = composedLength enc add extra := by
    simp only [sizes, composedLength, headerLen, ivLen, tagLen, protocolSpecificAddLen,
      protocolSpecificEncryptedDataLen, List.sum_cons, List.sum_nil]
    omega
  have wide : sizes.sum ≤ outputBuf.bytes.length := by
    rw [sum, outputBuf.allocated]
    exact fits
  have short : composedLength enc add extra < 4294967296 := Nat.lt_of_le_of_lt fits small
  simp only [composedLength, headerLen, ivLen, tagLen, protocolSpecificAddLen,
    protocolSpecificEncryptedDataLen] at short
  obtain ⟨fields, lengths, content⟩ := Block.exists_fields wide
  rw [sum] at content
  -- The offsets as the code computes them
  have addPtr : (UInt32.ofNat (givenLength extra)).toNat = givenLength extra :=
    toNat_ofNat_short (by omega)
  have addLen : (UInt32.ofNat (4 + givenLength add)).toNat = 4 + givenLength add :=
    toNat_ofNat_short (by omega)
  -- The writes in the order of the code
  obtain ⟨b1, wrote1, content1, lengths1⟩ := Block.store32_field host 6
    (40 + givenLength extra) 0 content lengths (by simp [sizes]; omega) rfl
  obtain ⟨b2, wrote2, content2, lengths2⟩ := Block.store32_field host 0 0
    (htonl host (UInt32.ofNat (composedLength enc add extra))) content1 lengths1 rfl rfl
  obtain ⟨b3, wrote3, content3, lengths3⟩ := Block.store32_field host 1 4
    (htonl host (UInt32.ofNat (4 + givenLength add))) content2 lengths2 rfl rfl
  obtain ⟨b4, wrote4, content4, lengths4⟩ := Block.store32_field host 2 8
    (htonl host (UInt32.ofNat (givenLength extra))) content3 lengths3 rfl rfl
  obtain ⟨b5, wrote5, content5, lengths5⟩ := Block.write_field 3 12 newIv.bytes content4 lengths4
    rfl (by rw [newIv.allocated]; rfl)
  obtain ⟨b6, wrote6, content6, lengths6⟩ := Block.store32_field host 8
    (40 + givenLength extra + (4 + givenLength add)) (htonl host nonce) content5 lengths5
    (by simp [sizes]; omega) rfl
  obtain ⟨b7, wrote7, content7, lengths7⟩ := Block.store32_field host 9
    (40 + givenLength extra + (4 + givenLength add) + 4) (htonl host pckGSettings) content6
    lengths6 (by simp [sizes]; omega) rfl
  obtain ⟨encNetwork, convertedEnc, givenEnc'⟩ := givenToNetworkOrder_ok givenEnc
  obtain ⟨addNetwork, convertedAdd, givenAdd'⟩ := givenToNetworkOrder_ok givenAdd
  obtain ⟨extraNetwork, convertedExtra, givenExtra'⟩ := givenToNetworkOrder_ok givenExtra
  obtain ⟨b8, wrote8, content8, lengths8⟩ := copyGiven_ok 10
    (40 + givenLength extra + (4 + givenLength add) + 4 + 4) givenEnc' content7 lengths7
    (by simp [sizes]; omega) rfl
  obtain ⟨b9, wrote9, content9, lengths9⟩ := copyGiven_ok 7 (40 + givenLength extra + 4)
    givenAdd' content8 lengths8 (by simp [sizes]; omega) rfl
  obtain ⟨b10, wrote10, content10, lengths10⟩ := copyGiven_ok 5 40 givenExtra' content9 lengths9
    rfl rfl
  -- Only the tag is left of what the buffer held.
  obtain ⟨f0, f1, f2, f3, tag, f5, f6, f7, f8, f9, f10, rfl, before, tagged⟩ :=
    exists_front_fields lengths
  have tagIs : slice outputBuf.bytes tagPtr tagLen = tag := by
    rw [content]
    simp only [List.flatten_cons, List.append_assoc]
    rw [← List.append_assoc f0, ← List.append_assoc (f0 ++ f1), ← List.append_assoc (f0 ++ f1 ++ f2)]
    exact slice_append_of_length before tagged
  have msgLen : UInt32.ofNat 40 + UInt32.ofNat (4 + givenLength add) +
      UInt32.ofNat (givenLength extra) + 4 + 4 + UInt32.ofNat (givenLength enc) =
        UInt32.ofNat (composedLength enc add extra) := by
    have four : (4 : UInt32) = UInt32.ofNat 4 := rfl
    rw [four]
    simp only [← UInt32.ofNat_add, composedLength, headerLen, ivLen, tagLen,
      protocolSpecificAddLen, protocolSpecificEncryptedDataLen]
    congr 1
    omega
  refine ⟨⟨UInt32.ofNat (givenLength enc), UInt32.ofNat (4 + givenLength add),
    UInt32.ofNat (givenLength extra), UInt32.ofNat (composedLength enc add extra), b10⟩, tag, ?_,
    tagIs.symm, rfl, rfl, rfl, rfl, ⟨newIv.allocated, tagged⟩, ?_⟩
  · have noExtra : UInt32.ofNat 0 + UInt32.ofNat (givenLength extra) =
        UInt32.ofNat (givenLength extra) := by
      rw [← UInt32.ofNat_add, Nat.zero_add]
    simp only [composePckData, givenLen_ok givenEnc, givenLen_ok givenAdd, givenLen_ok givenExtra,
      ok_bind, headerLen, ivPtr, ivLen, tagLen, protocolSpecificAddLen,
      protocolSpecificExtraDataLen, Nat.reduceAdd, ← UInt32.ofNat_add 4, noExtra, addPtr, addLen,
      msgLen, wrote1, wrote2, wrote3, wrote4, wrote5, wrote6, wrote7, convertedEnc, convertedAdd,
      convertedExtra, wrote8, Nat.add_zero, wrote9, wrote10, pure_eq_ok]
  · have version : host.encode 0 = ByteOrder.big.encode 0 := by
      rw [← encode_htonl host 0, htonl_zero]
    have addSection : (ByteOrder.big.encode 0 ++ givenBytes .big add).length =
        4 + givenLength add := by
      simp
    have encryptedSection :
        (settingsBytes .big nonce pckGSettings ++ givenBytes .big enc).length =
          protocolSpecificEncryptedDataLen + givenLength enc := by
      simp
    rw [content10, message, messageHead, addSection, encryptedSection, length_givenBytes]
    simp only [List.set_cons_zero, List.set_cons_succ, List.flatten_cons, List.flatten_nil,
      encode_htonl, version, settingsBytes, List.append_assoc, List.append_nil]
    rfl

/-- A container in an object is no longer than the object. -/
theorem givenLength_le_of_given {pckData : Option (Block pckDataIncrements)}
    {container : Option Container} (given : Given host pckData container) :
    givenLength container ≤ pckDataIncrements := by
  cases given with
  | absent => exact Nat.zero_le _
  | @present object container rest content =>
      have total := object.allocated
      rw [content, List.length_append, length_bytes] at total
      simp only [givenLength]
      omega

/-- A container that has been copied into the message fits it there. -/
theorem copyGiven_fits {container : Container} {outputBuf copied : Block size} {offset : Nat}
    (given : Given .big pckData (some container))
    (ran : copyGiven outputBuf offset pckData (UInt32.ofNat (givenLength (some container))) =
      .ok copied) :
    offset + givenLength (some container) ≤ size := by
  cases given with
  | @present object _ behind content =>
      have some : 0 < container.length := by
        simp only [Container.length]
        omega
      have counted : 0 < UInt32.ofNat container.length :=
        (zero_lt_ofNat_iff container.short).mpr some
      simp only [copyGiven, givenLength, if_pos counted, toNat_length] at ran
      obtain ⟨bytes, read, wrote⟩ := bind_eq_ok.mp ran
      have length := Block.length_read read
      rcases (Block.write_eq_ok.mp wrote).1 with fits | rfl
      · rw [length] at fits
        exact fits
      · rw [List.length_nil] at length
        omega

/-- A message that has been composed was not longer than its buffer. -/
theorem composePckData_fits {pckGSettings nonce : UInt32} {newIv : Block ivLen}
    {outputBuf : Block size} {composed : Composed size} (givenEnc : Given host pckData enc)
    (givenAdd : Given host addDataPck add) (givenExtra : Given host extraDataPck extra)
    (ran : composePckData host pckData addDataPck extraDataPck pckGSettings nonce newIv outputBuf =
      .ok composed) :
    composedLength enc add extra ≤ size := by
  have sizes := layout
  have room : pckDataIncrements = 255 := rfl
  have encShort := givenLength_le_of_given givenEnc
  have addShort := givenLength_le_of_given givenAdd
  have extraShort := givenLength_le_of_given givenExtra
  obtain ⟨encNetwork, convertedEnc, givenEnc'⟩ := givenToNetworkOrder_ok givenEnc
  simp only [composePckData, givenLen_ok givenEnc, givenLen_ok givenAdd, givenLen_ok givenExtra,
    ok_bind, convertedEnc, ← UInt32.ofNat_add] at ran
  rw [toNat_ofNat_short (by omega), toNat_ofNat_short (by omega)] at ran
  -- The seventh access stores the settings, and the eighth copies the encrypted container.
  obtain ⟨_, -, ran⟩ := bind_eq_ok.mp ran
  obtain ⟨_, -, ran⟩ := bind_eq_ok.mp ran
  obtain ⟨_, -, ran⟩ := bind_eq_ok.mp ran
  obtain ⟨_, -, ran⟩ := bind_eq_ok.mp ran
  obtain ⟨_, -, ran⟩ := bind_eq_ok.mp ran
  obtain ⟨_, -, ran⟩ := bind_eq_ok.mp ran
  obtain ⟨_, storedSettings, ran⟩ := bind_eq_ok.mp ran
  obtain ⟨_, -, ran⟩ := bind_eq_ok.mp ran
  obtain ⟨_, -, ran⟩ := bind_eq_ok.mp ran
  obtain ⟨copied, copiedEnc, -⟩ := bind_eq_ok.mp ran
  have settingsInside := (Block.store32_eq_ok.mp storedSettings).1
  rw [composedLength]
  cases enc with
  | none =>
      have absent : givenLength none = 0 := rfl
      omega
  | some container =>
      have inside := copyGiven_fits givenEnc' copiedEnc
      omega

end Composing

/-! ### Encrypting a message -/

section Sealing

variable {size : Nat} {order : ByteOrder} {memory : Block size}
  {iv tag extra add encrypted rest : Bytes}

/-- The vector and the tag of a message in a buffer. -/
theorem message_sealed
    (content : memory.bytes = message order iv tag extra add encrypted ++ rest) :
    ∃ lengths : Bytes, lengths.length = ivPtr ∧
      memory.bytes = lengths ++ (iv ++ (tag ++ (extra ++ (add ++ (encrypted ++ rest))))) ∧
      ∀ otherTag : Bytes, messageHead order iv otherTag extra.length add.length encrypted.length =
        lengths ++ (iv ++ otherTag) := by
  refine ⟨order.encode (UInt32.ofNat (headerLen + extra.length + add.length + encrypted.length)) ++
    (order.encode (UInt32.ofNat add.length) ++ order.encode (UInt32.ofNat extra.length)), ?_, ?_, ?_⟩
  · simp
  · rw [message_sections content]
    simp only [messageHead, List.append_assoc]
  · intro otherTag
    simp only [messageHead, List.append_assoc]

/-- The reads of the GCM functions. -/
theorem message_reads (sized : Sealed iv tag)
    (content : memory.bytes = message order iv tag extra add encrypted ++ rest) :
    memory.read ivPtr ivLen = .ok iv ∧ memory.read tagPtr tagLen = .ok tag ∧
      memory.read (headerLen + extra.length) add.length = .ok add ∧
      memory.read (headerLen + extra.length + add.length) encrypted.length = .ok encrypted := by
  have sections := message_sections content
  obtain ⟨readIv, readTag⟩ := message_seal sized sections
  have headLength : (messageHead order iv tag extra.length add.length encrypted.length).length =
      headerLen := length_messageHead _ sized _ _ _
  have addPlace : memory.bytes = (messageHead order iv tag extra.length add.length
      encrypted.length ++ extra) ++ (add ++ (encrypted ++ rest)) := by
    simpa only [List.append_assoc] using sections
  have encryptedPlace : memory.bytes = (messageHead order iv tag extra.length add.length
      encrypted.length ++ (extra ++ add)) ++ (encrypted ++ rest) := by
    simpa only [List.append_assoc] using sections
  refine ⟨readIv, readTag, ?_, ?_⟩
  · exact Block.read_append _ _ addPlace (by rw [List.length_append, headLength]) rfl
  · refine Block.read_append _ _ encryptedPlace ?_ rfl
    simp only [List.length_append, headLength]
    exact (Nat.add_assoc _ _ _).symm

/-- `encryptGcm` masks the encrypted section of a message and writes the tag. -/
theorem encryptGcm_ok (gcm : Gcm) (gcmKey : Bytes) (sized : Sealed iv tag)
    (content : memory.bytes = message order iv tag extra add encrypted ++ rest) :
    ∃ masked,
      encryptGcm gcm gcmKey memory (headerLen + extra.length + add.length) encrypted.length ivPtr
          (headerLen + extra.length) add.length tagPtr = .ok masked ∧
        masked.bytes = message order iv
          (gcm.tagOf gcmKey iv add (gcm.crypt gcmKey iv encrypted)) extra add
          (gcm.crypt gcmKey iv encrypted) ++ rest := by
  obtain ⟨readIv, -, readAdd, readPlain⟩ := message_reads sized content
  obtain ⟨lengths, twelve, parts, heads⟩ := message_sealed content
  have encryptedPlace : memory.bytes = (lengths ++ (iv ++ (tag ++ (extra ++ add)))) ++
      (encrypted ++ rest) := by
    simpa only [List.append_assoc] using parts
  have encryptedAt : (lengths ++ (iv ++ (tag ++ (extra ++ add)))).length =
      headerLen + extra.length + add.length := by
    have sizes := layout
    simp only [List.length_append, twelve, sized.iv, sized.tag]
    omega
  obtain ⟨crypted, wroteCipher, filledCipher⟩ := Block.write_append _ encryptedPlace encryptedAt
    (gcm.length_crypt gcmKey iv encrypted)
  have tagPlace : crypted.bytes = (lengths ++ iv) ++
      (tag ++ (extra ++ (add ++ (gcm.crypt gcmKey iv encrypted ++ rest)))) := by
    simpa only [List.append_assoc] using filledCipher
  obtain ⟨masked, wroteTag, filledTag⟩ := Block.write_append tagPtr tagPlace
    (by rw [List.length_append, twelve, sized.iv])
    ((gcm.length_tagOf gcmKey iv add (gcm.crypt gcmKey iv encrypted)).trans sized.tag.symm)
  refine ⟨masked, ?_, ?_⟩
  · simp only [encryptGcm, readIv, readAdd, readPlain, ok_bind, wroteCipher, wroteTag]
  · rw [filledTag, message, StreamAead.length_crypt, heads]
    simp only [List.append_assoc]

end Sealing

/-- A message as `encryptPckData` seals it, with what its first print has left of the
containers. -/
def sealedMessage (host : ByteOrder) (gcm : Gcm) (gcmKey iv : Bytes)
    (enc add extra : Option Container) (pckGSettings nonce : UInt32) : Bytes :=
  let addSection := ByteOrder.big.encode 0 ++ givenPrinted host add
  let cipher := gcm.crypt gcmKey iv
    (settingsBytes .big nonce pckGSettings ++ givenPrinted host enc)
  message .big iv (gcm.tagOf gcmKey iv addSection cipher) (givenPrinted host extra) addSection
    cipher

section Encrypting

variable {size : Nat} {host : ByteOrder}
  {pckData addDataPck extraDataPck : Option (Block pckDataIncrements)}
  {enc add extra : Option Container}

/-- A print leaves a section as long as it was. -/
@[simp] theorem length_givenPrinted (container : Option Container) :
    (givenPrinted host container).length = givenLength container := by
  cases container with
  | none => rfl
  | some container => exact length_printed container

/-- Everything that `encryptPckData` does before its second print. -/
theorem encryptPckData_eq (gcm : Gcm) (gcmKey : Bytes) (givenEnc : Given host pckData enc)
    (givenAdd : Given host addDataPck add) (givenExtra : Given host extraDataPck extra)
    (pckGSettings nonce : UInt32) (newIv : Block ivLen) (outputBuf : Block size)
    (small : size < 4294967296) (fits : composedLength enc add extra ≤ size) :
    ∃ sealedBuf : Block size,
      encryptPckData host gcm (some gcmKey) pckData addDataPck extraDataPck pckGSettings nonce
          newIv outputBuf =
        (printMessage host sealedBuf true true >>= fun printedBuf =>
          .ok (UInt32.ofNat (composedLength enc add extra), printedBuf)) ∧
      sealedBuf.bytes =
        sealedMessage host gcm gcmKey newIv.bytes enc add extra pckGSettings nonce ++
          outputBuf.bytes.drop (composedLength enc add extra) := by
  obtain ⟨composed, tag, ran, -, encLen, addLen, extraLen, msgLen, sized, content⟩ :=
    composePckData_ok givenEnc givenAdd givenExtra pckGSettings nonce newIv outputBuf small fits
  have short : composedLength enc add extra < 4294967296 := Nat.lt_of_le_of_lt fits small
  have whole : (message .big newIv.bytes tag (givenBytes .big extra)
      (ByteOrder.big.encode 0 ++ givenBytes .big add)
      (settingsBytes .big nonce pckGSettings ++ givenBytes .big enc)).length < 4294967296 := by
    rw [length_message sized]
    simpa [composedLength] using short
  obtain ⟨shown, printedFirst, contentShown⟩ := printMessage_ok false
    (if_pos rfl).symm sized content (by simp) whole (prints_serialized extra)
    (prints_serialized add) (.plain _ (by simp) (prints_serialized enc))
  obtain ⟨sealedBuf, crypted, contentSealed⟩ := encryptGcm_ok gcm gcmKey sized contentShown
  refine ⟨sealedBuf, ?_, contentSealed⟩
  have sizes := layout
  unfold composedLength at short
  have extraNat : composed.extraDataLen.toNat = (givenPrinted host extra).length := by
    rw [extraLen, length_givenPrinted, toNat_ofNat_short (by omega)]
  have addNat : composed.addLen.toNat =
      (ByteOrder.big.encode 0 ++ givenPrinted host add).length := by
    rw [addLen, toNat_ofNat_short (by omega)]
    simp
  have encNat : (UInt32.ofNat protocolSpecificEncryptedDataLen + composed.pckDataLen).toNat =
      (settingsBytes .big nonce pckGSettings ++ givenPrinted host enc).length := by
    rw [encLen, ← UInt32.ofNat_add, toNat_ofNat_short (by omega)]
    simp
  simp only [encryptPckData, ran, ok_bind, printedFirst, extraNat, addNat, encNat, crypted,
    msgLen, pure_eq_ok]

/-- The container comes out of a print as it went in: it has elements, or the host stores words
in network order anyway. -/
def Settled (host : ByteOrder) (container : Option Container) : Prop :=
  ∀ given, container = some given → given.elements = [] → host = .big

/-- A print leaves a settled section as it was sent. -/
theorem givenPrinted_eq {container : Option Container} (settled : Settled host container) :
    givenPrinted host container = givenBytes .big container := by
  cases container with
  | none => rfl
  | some container =>
      rw [givenPrinted, printed]
      split
      · rename_i empty
        rw [settled container rfl empty, givenBytes]
      · rfl

/-- `encryptPckData` composes the sealed message over what the buffer held. -/
theorem encryptPckData_ok (gcm : Gcm) (gcmKey : Bytes) (givenEnc : Given host pckData enc)
    (givenAdd : Given host addDataPck add) (givenExtra : Given host extraDataPck extra)
    (settledAdd : Settled host add) (settledExtra : Settled host extra)
    (pckGSettings nonce : UInt32) (newIv : Block ivLen) (outputBuf : Block size)
    (small : size < 4294967296) (fits : composedLength enc add extra ≤ size) :
    ∃ out : Block size,
      encryptPckData host gcm (some gcmKey) pckData addDataPck extraDataPck pckGSettings nonce
          newIv outputBuf = .ok (UInt32.ofNat (composedLength enc add extra), out) ∧
      out.bytes =
        sealedMessage host gcm gcmKey newIv.bytes enc add extra pckGSettings nonce ++
          outputBuf.bytes.drop (composedLength enc add extra) := by
  obtain ⟨sealedBuf, ran, content⟩ := encryptPckData_eq gcm gcmKey givenEnc givenAdd givenExtra
    pckGSettings nonce newIv outputBuf small fits
  have short : composedLength enc add extra < 4294967296 := Nat.lt_of_le_of_lt fits small
  have content' := content
  rw [sealedMessage, givenPrinted_eq settledExtra, givenPrinted_eq settledAdd] at content'
  have sized : Sealed newIv.bytes (gcm.tagOf gcmKey newIv.bytes
      (ByteOrder.big.encode 0 ++ givenBytes .big add)
      (gcm.crypt gcmKey newIv.bytes (settingsBytes .big nonce pckGSettings ++
        givenPrinted host enc))) :=
    ⟨newIv.allocated, gcm.length_tagOf ..⟩
  obtain ⟨out, printedSecond, contentOut⟩ := printMessage_ok true
    (if_pos rfl).symm sized content' (by simp)
    (by rw [length_message sized]; simpa [composedLength] using short)
    (prints_serialized extra) (prints_serialized add) (.masked _)
  refine ⟨out, by rw [ran, printedSecond, ok_bind], ?_⟩
  rw [contentOut, sealedMessage, givenPrinted_eq settledExtra, givenPrinted_eq settledAdd]

end Encrypting

/-! ### Decrypting a message -/

section Decrypting

variable {size outputSize : Nat} {host : ByteOrder} {gcm : Gcm} {gcmKey : Bytes}
  {memory : Block size} {iv tag extra add encrypted rest plain : Bytes}

/-- A section under the right tag is opened into the output buffer. -/
theorem decryptGcm_ok {order : ByteOrder} (sized : Sealed iv tag)
    (content : memory.bytes = message order iv tag extra add encrypted ++ rest)
    (decrypted : gcm.authDecrypt gcmKey iv add tag encrypted = some plain)
    (msgOut : Block outputSize) (fits : encrypted.length ≤ outputSize) :
    ∃ written,
      decryptGcm gcm gcmKey memory (headerLen + extra.length + add.length) encrypted.length ivPtr
          (headerLen + extra.length) add.length tagPtr msgOut = .ok (0, written) ∧
        written.bytes = plain ++ msgOut.bytes.drop plain.length := by
  obtain ⟨readIv, readTag, readAdd, readCipher⟩ := message_reads sized content
  have same := StreamAead.length_authDecrypt decrypted
  obtain ⟨written, wrote, filled⟩ := msgOut.write_front (show plain.length ≤ outputSize by omega)
  refine ⟨written, ?_, filled⟩
  simp only [decryptGcm, readIv, readAdd, readCipher, readTag, ok_bind, decrypted, wrote,
    pure_eq_ok]

/-- What `decryptGcm` has read when it returns zero. -/
theorem decryptGcm_eq_zero {msg msgLen iv add addLen tag : Nat} {msgOut written : Block outputSize}
    (ran : decryptGcm gcm gcmKey memory msg msgLen iv add addLen tag msgOut = .ok (0, written)) :
    ∃ ivBytes addBytes cipher tagBytes,
      memory.read iv ivLen = .ok ivBytes ∧ memory.read add addLen = .ok addBytes ∧
        memory.read msg msgLen = .ok cipher ∧ memory.read tag tagLen = .ok tagBytes ∧
        gcm.tagOf gcmKey ivBytes addBytes cipher = tagBytes := by
  simp only [decryptGcm, bind_eq_ok] at ran
  obtain ⟨ivBytes, readIv, addBytes, readAdd, cipher, readCipher, tagBytes, readTag, ran⟩ := ran
  refine ⟨ivBytes, addBytes, cipher, tagBytes, readIv, readAdd, readCipher, readTag, ?_⟩
  cases decrypted : gcm.authDecrypt gcmKey ivBytes addBytes tagBytes cipher with
  | some plain => exact (StreamAead.authDecrypt_eq_some.mp decrypted).1
  | none => simp [decrypted, bind_eq_ok] at ran

/-- `*(uint32_t *)ptr = ntohl(*(uint32_t *)ptr)` on a word in network order. -/
theorem toHostWord_ok (host : ByteOrder) {front : Bytes} (ptr : Nat) (word : UInt32)
    (content : memory.bytes = front ++ (ByteOrder.big.encode word ++ rest))
    (position : front.length = ptr) :
    ∃ converted, toHostWord host memory ptr = .ok converted ∧
      converted.bytes = front ++ (host.encode word ++ rest) := by
  have read := Block.load32_append host ptr content position (by simp)
  obtain ⟨converted, wrote, filled⟩ := Block.store32_append host ptr word content position (by simp)
  refine ⟨converted, ?_, filled⟩
  simp only [toHostWord, read, ok_bind, ntohl_decode_big, wrote]

/-- What `decryptPckData` has done to the decrypted text when it returns zero. -/
theorem decryptPckData_eq_zero {outputBuf : Block outputSize}
    {opened : Decrypted size outputSize}
    (ran : decryptPckData host gcm gcmKey memory outputBuf = .ok opened)
    (returned : opened.returnValue = 0) :
    ∃ msgLenWord addLenWord extraDataLenWord written,
      memory.load32 host 0 = .ok msgLenWord ∧ memory.load32 host 4 = .ok addLenWord ∧
        memory.load32 host 8 = .ok extraDataLenWord ∧
        decryptGcm gcm gcmKey memory
          (headerLen + (ntohl host addLenWord).toNat + (ntohl host extraDataLenWord).toNat)
          (ntohl host msgLenWord - (UInt32.ofNat headerLen + ntohl host addLenWord)).toNat
          ivPtr headerLen (ntohl host addLenWord).toNat tagPtr outputBuf = .ok (0, written) ∧
        ∃ withNonce withSettings withContainer,
          toHostWord host written 0 = .ok withNonce ∧
            toHostWord host withNonce 4 = .ok withSettings ∧
            (if UInt32.ofNat protocolSpecificEncryptedDataLen <
                ntohl host msgLenWord - (UInt32.ofNat headerLen + ntohl host addLenWord) then
              pckDataToHostOrder host withSettings protocolSpecificEncryptedDataLen
            else pure withSettings) = .ok withContainer := by
  obtain ⟨msgLenWord, readMsgLen, ran⟩ := bind_eq_ok.mp ran
  obtain ⟨addLenWord, readAddLen, ran⟩ := bind_eq_ok.mp ran
  obtain ⟨extraDataLenWord, readExtraLen, ran⟩ := bind_eq_ok.mp ran
  obtain ⟨⟨result, written⟩, ranGcm, ran⟩ := bind_eq_ok.mp ran
  refine ⟨msgLenWord, addLenWord, extraDataLenWord, written, readMsgLen, readAddLen,
    readExtraLen, ?_⟩
  by_cases wrong : result ≠ 0
  · simp only [if_pos wrong, pure_eq_ok] at ran
    obtain rfl := Except.ok.inj ran
    simp at returned
  · obtain rfl := not_not.mp wrong
    simp only [if_neg wrong] at ran
    obtain ⟨withNonce, ranNonce, ran⟩ := bind_eq_ok.mp ran
    obtain ⟨withSettings, ranSettings, ran⟩ := bind_eq_ok.mp ran
    obtain ⟨withContainer, ranContainer, -⟩ := bind_eq_ok.mp ran
    exact ⟨ranGcm, withNonce, withSettings, withContainer, ranNonce, ranSettings, ranContainer⟩

/-! ### Frames of any contents -/

/-- A length field of a frame, as both ends read it. -/
def lengthField (frame : Block size) (offset : Nat) : UInt32 :=
  ByteOrder.big.decode (slice frame.bytes offset 4)

/-- A length field as it is read and converted. -/
theorem ntohl_load32 {word : UInt32} {offset : Nat}
    (loaded : memory.load32 host offset = .ok word) : ntohl host word = lengthField memory offset := by
  obtain ⟨fits, rfl⟩ := Block.load32_eq_ok.mp loaded
  have four : (slice memory.bytes offset 4).length = 4 :=
    length_slice (by rw [memory.allocated]; exact fits)
  rw [ntohl_decode host four, lengthField]

/-- How many bytes of a frame `decryptPckData` takes for masked text. -/
def maskedLen (frame : Block size) : Nat :=
  (lengthField frame 0 - (UInt32.ofNat headerLen + lengthField frame 4)).toNat

/-- The tag of a frame is the one over its ADD section and its masked text, where
`decryptPckData` looks for them. -/
def Genuine (gcm : Gcm) (gcmKey : Bytes) (frame : Block size) : Prop :=
  gcm.tagOf gcmKey (slice frame.bytes ivPtr ivLen)
      (slice frame.bytes headerLen (lengthField frame 4).toNat)
      (slice frame.bytes
        (headerLen + (lengthField frame 4).toNat + (lengthField frame 8).toNat)
        (maskedLen frame)) =
    slice frame.bytes tagPtr tagLen

instance (gcm : Gcm) (gcmKey : Bytes) (frame : Block size) : Decidable (Genuine gcm gcmKey frame) :=
  inferInstanceAs (Decidable (_ = _))

/-- The tag that would make a message genuine depends on its vector and its sections and on what
lies behind it, but not on the tag it has. -/
def rightTag (gcm : Gcm) (gcmKey iv extra add encrypted rest : Bytes) : Bytes :=
  let body := extra ++ (add ++ (encrypted ++ rest))
  let addLen := (UInt32.ofNat add.length).toNat
  gcm.tagOf gcmKey iv (slice body 0 addLen)
    (slice body (addLen + (UInt32.ofNat extra.length).toNat)
      (UInt32.ofNat (headerLen + extra.length + add.length + encrypted.length) -
        (UInt32.ofNat headerLen + UInt32.ofNat add.length)).toNat)

/-- A message is genuine exactly if it carries the tag of its own sections. -/
theorem genuine_iff_rightTag (sized : Sealed iv tag)
    (content : memory.bytes = message .big iv tag extra add encrypted ++ rest) :
    Genuine gcm gcmKey memory ↔ rightTag gcm gcmKey iv extra add encrypted rest = tag := by
  have sections := message_sections content
  obtain ⟨total, addWord, extraWord⟩ := message_lengths .big sections
  have totalIs := ntohl_load32 total
  have addIs := ntohl_load32 addWord
  have extraIs := ntohl_load32 extraWord
  rw [ntohl_decode_big] at totalIs addIs extraIs
  obtain ⟨readIv, readTag⟩ := message_seal sized sections
  have headLength := length_messageHead .big sized extra.length add.length encrypted.length
  have behind : ∀ offset count, slice memory.bytes (headerLen + offset) count =
      slice (extra ++ (add ++ (encrypted ++ rest))) offset count := by
    intro offset count
    rw [sections, slice_append_right (by omega), headLength, Nat.add_sub_cancel_left]
  rw [Genuine, rightTag, maskedLen, ← totalIs, ← addIs, ← extraIs, ← (Block.read_eq_ok.mp readIv).2,
    ← (Block.read_eq_ok.mp readTag).2, Nat.add_assoc headerLen, behind, ← Nat.add_zero headerLen,
    behind]

/-- A decryption succeeds under the right tag, and otherwise fails and clears the output. -/
theorem decryptGcm_cases {msg msgLen iv add addLen tag : Nat}
    {msgOut written : Block outputSize} {result : Int}
    (ran : decryptGcm gcm gcmKey memory msg msgLen iv add addLen tag msgOut =
      .ok (result, written)) :
    (result = 0 ∧ gcm.tagOf gcmKey (slice memory.bytes iv ivLen) (slice memory.bytes add addLen)
        (slice memory.bytes msg msgLen) = slice memory.bytes tag tagLen) ∨
      (result = 1 ∧ gcm.tagOf gcmKey (slice memory.bytes iv ivLen)
        (slice memory.bytes add addLen) (slice memory.bytes msg msgLen) ≠
          slice memory.bytes tag tagLen ∧
        written.bytes = splice msgOut.bytes 0 (List.replicate msgLen 0)) := by
  simp only [decryptGcm, bind_eq_ok, Block.read_eq_ok] at ran
  obtain ⟨_, ⟨-, rfl⟩, _, ⟨-, rfl⟩, _, ⟨-, rfl⟩, _, ⟨-, rfl⟩, ran⟩ := ran
  split at ran
  · rename_i plain decrypted
    obtain ⟨_, -, ran⟩ := bind_eq_ok.mp ran
    obtain ⟨rfl, -⟩ := Prod.mk.inj (Except.ok.inj ran)
    exact .inl ⟨rfl, (StreamAead.authDecrypt_eq_some.mp decrypted).1⟩
  · rename_i refused
    obtain ⟨zeroed, wrote, ran⟩ := bind_eq_ok.mp ran
    obtain ⟨rfl, rfl⟩ := Prod.mk.inj (Except.ok.inj ran)
    refine .inr ⟨rfl, fun right => ?_, (Block.write_eq_ok.mp wrote).2⟩
    simp [StreamAead.authDecrypt, right] at refused

/-- `decryptPckData` returns zero for a genuine frame. For any other it returns `-1`, leaves the
frame alone and zeroes what it has put out. -/
theorem decryptPckData_cases {outputBuf : Block outputSize} {opened : Decrypted size outputSize}
    (ran : decryptPckData host gcm gcmKey memory outputBuf = .ok opened) :
    (opened.returnValue = 0 ∧ Genuine gcm gcmKey memory) ∨
      (opened.returnValue = -1 ∧ ¬ Genuine gcm gcmKey memory ∧ opened.encryptedMsg = memory ∧
        opened.outputBuf.bytes =
          splice outputBuf.bytes 0 (List.replicate (maskedLen memory) 0)) := by
  obtain ⟨msgLenWord, readMsgLen, ran⟩ := bind_eq_ok.mp ran
  obtain ⟨addLenWord, readAddLen, ran⟩ := bind_eq_ok.mp ran
  obtain ⟨extraDataLenWord, readExtraLen, ran⟩ := bind_eq_ok.mp ran
  simp only [ntohl_load32 readMsgLen, ntohl_load32 readAddLen, ntohl_load32 readExtraLen] at ran
  obtain ⟨⟨result, written⟩, ranGcm, ran⟩ := bind_eq_ok.mp ran
  rcases decryptGcm_cases ranGcm with ⟨rfl, right⟩ | ⟨rfl, wrong, zeroed⟩
  · left
    refine ⟨?_, right⟩
    simp only [ne_eq, not_true, if_false, bind_eq_ok] at ran
    obtain ⟨_, -, _, -, _, -, _, -, _, -, _, -, _, -, _, -, _, -, _, -, _, -, ran⟩ := ran
    rw [← Except.ok.inj ran]
  · right
    have refused : (1 : Int) ≠ 0 := by decide
    simp only [if_pos refused] at ran
    obtain rfl := Except.ok.inj ran
    exact ⟨rfl, wrong, rfl, zeroed⟩

/-- A section of a message is converted if its length says that it has a container. -/
theorem givenToHost_ok (host : ByteOrder) {front : Bytes} (container : Option Container)
    (pckData : Nat)
    (content : memory.bytes = front ++ (givenBytes .big container ++ rest))
    (position : front.length = pckData) {counted : Prop} [Decidable counted]
    (counts : counted ↔ givenLength container ≠ 0) :
    ∃ converted,
      (if counted then pckDataToHostOrder host memory pckData else pure memory) =
          .ok converted ∧
        converted.bytes = front ++ (givenBytes host container ++ rest) := by
  cases container with
  | none => exact ⟨memory, by rw [if_neg (by simp [counts, givenLength])]; rfl, content⟩
  | some container =>
      have some : givenLength (some container) ≠ 0 := by
        simp only [givenLength, Container.length]
        omega
      rw [if_pos (counts.mpr some)]
      exact pckDataToHostOrder_ok host container content position

/-- The three lengths of a message in network order, converted to host order. -/
theorem lengths_toHost (host : ByteOrder) {iv tag : Bytes} {extraLen addLen encryptedLen : Nat}
    (content : memory.bytes = messageHead .big iv tag extraLen addLen encryptedLen ++ rest) :
    ∃ first second third,
      toHostWord host memory 0 = .ok first ∧ toHostWord host first 4 = .ok second ∧
        toHostWord host second 8 = .ok third ∧
        third.bytes = messageHead host iv tag extraLen addLen encryptedLen ++ rest := by
  simp only [messageHead, List.append_assoc] at content ⊢
  have placeFirst : memory.bytes = [] ++ (ByteOrder.big.encode
      (UInt32.ofNat (headerLen + extraLen + addLen + encryptedLen)) ++
        (ByteOrder.big.encode (UInt32.ofNat addLen) ++
          (ByteOrder.big.encode (UInt32.ofNat extraLen) ++ (iv ++ (tag ++ rest))))) := content
  obtain ⟨first, ranFirst, contentFirst⟩ := toHostWord_ok host 0 _ placeFirst rfl
  rw [List.nil_append] at contentFirst
  obtain ⟨second, ranSecond, contentSecond⟩ := toHostWord_ok host 4 _ contentFirst
    (by simp)
  rw [← List.append_assoc] at contentSecond
  obtain ⟨third, ranThird, contentThird⟩ := toHostWord_ok host 8 _ contentSecond
    (by simp)
  refine ⟨first, second, third, ranFirst, ranSecond, ranThird, ?_⟩
  simpa only [List.append_assoc] using contentThird

/-- The message in host order, with its encrypted section in the clear. -/
def openedMessage (host : ByteOrder) (iv tag : Bytes) (version : UInt32)
    (enc add : Option Container) (pckGSettings nonce : UInt32) : Bytes :=
  message host iv tag [] (host.encode version ++ givenBytes host add)
    (settingsBytes host nonce pckGSettings ++ givenBytes host enc)

/-- `decryptPckData` on a message without an extra section whose tag is right. -/
theorem decryptPckData_ok (host : ByteOrder) (sized : Sealed iv tag)
    {version pckGSettings nonce : UInt32}
    {enc addContainer : Option Container}
    (content : memory.bytes = message .big iv tag []
      (ByteOrder.big.encode version ++ givenBytes .big addContainer) encrypted ++ rest)
    (decrypted : gcm.authDecrypt gcmKey iv
      (ByteOrder.big.encode version ++ givenBytes .big addContainer) tag encrypted =
        some (settingsBytes .big nonce pckGSettings ++ givenBytes .big enc))
    (small : size < 4294967296) (outputBuf : Block outputSize)
    (fits : encrypted.length ≤ outputSize) :
    ∃ opened : Decrypted size outputSize,
      decryptPckData host gcm gcmKey memory outputBuf = .ok opened ∧
        opened.returnValue = 0 ∧
        opened.encryptedMsg.bytes =
          openedMessage host iv tag version enc addContainer pckGSettings nonce ++ rest ∧
        opened.outputBuf.bytes =
          settingsBytes host nonce pckGSettings ++
            (givenBytes host enc ++ outputBuf.bytes.drop encrypted.length) := by
  have sizes := layout
  have plainLength := StreamAead.length_authDecrypt decrypted
  have settingsLength := length_settingsBytes .big nonce pckGSettings
  rw [List.length_append, length_givenBytes, settingsLength] at plainLength
  have addLength : (ByteOrder.big.encode version ++ givenBytes .big addContainer).length =
      protocolSpecificAddLen + givenLength addContainer := by
    simp
  have total := memory.allocated
  rw [content, List.length_append, length_message sized, List.length_nil, addLength] at total
  obtain ⟨msgLenWord, addLenWord, extraDataLenWord⟩ :=
    message_lengths host (message_sections content)
  rw [addLength] at msgLenWord addLenWord
  simp only [List.length_nil, Nat.add_zero] at msgLenWord extraDataLenWord
  -- The GCM call
  obtain ⟨written, ranGcm, contentWritten⟩ := decryptGcm_ok sized content decrypted outputBuf fits
  rw [addLength] at ranGcm
  -- Nonce, settings and container in the output buffer
  have outputPlace : written.bytes = [] ++ (ByteOrder.big.encode nonce ++
      (ByteOrder.big.encode pckGSettings ++ (givenBytes .big enc ++
        outputBuf.bytes.drop encrypted.length))) := by
    rw [contentWritten, List.length_append, length_givenBytes, settingsLength, plainLength]
    simp only [settingsBytes, List.append_assoc, List.nil_append]
  obtain ⟨o1, ranNonce, contentNonce⟩ := toHostWord_ok host 0 nonce outputPlace rfl
  rw [List.nil_append] at contentNonce
  obtain ⟨o2, ranSettings, contentSettings⟩ :=
    toHostWord_ok host 4 pckGSettings contentNonce (by simp)
  have containerPlace : o2.bytes = settingsBytes host nonce pckGSettings ++
      (givenBytes .big enc ++ outputBuf.bytes.drop encrypted.length) := by
    simpa only [settingsBytes, List.append_assoc] using contentSettings
  have encCounts : UInt32.ofNat protocolSpecificEncryptedDataLen <
      UInt32.ofNat encrypted.length ↔ givenLength enc ≠ 0 := by
    rw [UInt32.lt_iff_toNat_lt, toNat_ofNat_short (by omega), toNat_ofNat_short (by omega)]
    omega
  obtain ⟨o3, ranContainer, contentContainer⟩ := givenToHost_ok host enc
    protocolSpecificEncryptedDataLen containerPlace (by simp) encCounts
  -- The ADD container in the message
  have sections := message_sections content
  generalize headIs : messageHead .big iv tag ([] : Bytes).length
    (ByteOrder.big.encode version ++ givenBytes .big addContainer).length encrypted.length = head
    at sections
  have headLength : head.length = headerLen := by rw [← headIs, length_messageHead _ sized]
  have addPlace : memory.bytes = (head ++ ByteOrder.big.encode version) ++
      (givenBytes .big addContainer ++ (encrypted ++ rest)) := by
    simpa only [List.append_assoc, List.nil_append] using sections
  have addCounts : 0 < UInt32.ofNat (givenLength addContainer) ↔ givenLength addContainer ≠ 0 := by
    rw [zero_lt_ofNat_iff (by omega)]
    exact Nat.pos_iff_ne_zero
  obtain ⟨m1, ranAdd, contentAdd⟩ := givenToHost_ok host addContainer
    (headerLen + protocolSpecificAddLen) addPlace (by simp [headLength]) addCounts
  -- The decrypted section, copied into the message
  have plainPlace : o3.bytes = [] ++ ((settingsBytes host nonce pckGSettings ++
      givenBytes host enc) ++ outputBuf.bytes.drop encrypted.length) := by
    simpa only [List.append_assoc, List.nil_append] using contentContainer
  have plainSize : (settingsBytes host nonce pckGSettings ++ givenBytes host enc).length =
      encrypted.length := by
    rw [List.length_append, length_settingsBytes, length_givenBytes, plainLength]
  have readPlain := Block.read_append 0 encrypted.length plainPlace rfl plainSize
  have encryptedPlace : m1.bytes = (head ++ (ByteOrder.big.encode version ++
      givenBytes host addContainer)) ++ (encrypted ++ rest) := by
    simpa only [List.append_assoc] using contentAdd
  have encryptedAt : (head ++ (ByteOrder.big.encode version ++
      givenBytes host addContainer)).length =
        headerLen + (protocolSpecificAddLen + givenLength addContainer) := by
    simp [headLength]
  obtain ⟨m2, wrotePlain, contentPlain⟩ :=
    Block.write_append _ encryptedPlace encryptedAt plainSize
  -- The lengths and the version
  rw [← headIs, List.append_assoc] at contentPlain
  obtain ⟨m3, m4, m5, ranFirst, ranSecond, ranThird, contentLengths⟩ :=
    lengths_toHost host contentPlain
  have versionPlace : m5.bytes = messageHead host iv tag ([] : Bytes).length
      (ByteOrder.big.encode version ++ givenBytes .big addContainer).length encrypted.length ++
        (ByteOrder.big.encode version ++ (givenBytes host addContainer ++
          ((settingsBytes host nonce pckGSettings ++ givenBytes host enc) ++ rest))) := by
    simpa only [List.append_assoc] using contentLengths
  obtain ⟨m6, ranVersion, contentVersion⟩ := toHostWord_ok host headerLen version versionPlace
    (length_messageHead _ sized _ _ _)
  refine ⟨⟨0, m6, o3⟩, ?_, rfl, ?_, ?_⟩
  · simp only [List.length_nil, Nat.add_zero] at ranGcm
    simp only [pure_eq_ok] at ranContainer ranAdd
    have headPtr : tagPtr + tagLen = headerLen := rfl
    have noExtra : UInt32.ofNat 0 - UInt32.ofNat protocolSpecificExtraDataLen = 0 := rfl
    have noExtraNat : (UInt32.ofNat 0).toNat = 0 := rfl
    have addNat : (UInt32.ofNat (protocolSpecificAddLen + givenLength addContainer)).toNat =
        protocolSpecificAddLen + givenLength addContainer := toNat_ofNat_short (by omega)
    have dataNat : (UInt32.ofNat encrypted.length).toNat = encrypted.length :=
      toNat_ofNat_short (by omega)
    have beforeNat :
        (UInt32.ofNat (headerLen + (protocolSpecificAddLen + givenLength addContainer))).toNat =
          headerLen + (protocolSpecificAddLen + givenLength addContainer) :=
      toNat_ofNat_short (by omega)
    have addSome : ¬ UInt32.ofNat (protocolSpecificAddLen + givenLength addContainer) = 0 := by
      rw [← ne_eq, ofNat_ne_zero_iff (by omega)]
      omega
    simp only [decryptPckData, msgLenWord, addLenWord, extraDataLenWord, ok_bind, ntohl_decode_big,
      headPtr, noExtra, noExtraNat, Nat.add_zero, addNat, ← UInt32.ofNat_add headerLen,
      ofNat_sub_ofNat (Nat.le_add_right _ _), Nat.add_sub_cancel_left, dataNat, beforeNat, ranGcm]
    simp only [ne_eq, not_true, if_false, ranNonce, ranSettings, ranContainer, ranAdd, readPlain,
      wrotePlain, ranFirst, ranSecond, ranThird, ranVersion, ok_bind, pure_eq_ok, addSome,
      UInt32.lt_irrefl]
  · rw [contentVersion, openedMessage, message, plainSize]
    simp only [List.length_append, length_givenBytes, ByteOrder.encode_length, List.append_assoc,
      List.nil_append]
  · rw [contentContainer]

end Decrypting

end RentMate.MessageCodec
