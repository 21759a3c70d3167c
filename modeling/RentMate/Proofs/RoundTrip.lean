/-
Module: RentMate.Proofs.RoundTrip
Purpose: For which containers `decryptPckData` undoes `encryptPckData`.
Trusted boundary: none
Main exports: Recovers, recovers_iff
-/
import RentMate.Proofs.MessageCodec

namespace RentMate.RoundTrip

open RentMate.Machine
open RentMate.PckData
open RentMate.ContainerCodec
open RentMate.MessageCodec

/-- Whatever the keystream, the tag and the key are and whatever the buffers held before, the
message that `encryptPckData` composes of the containers is decrypted, nonce, settings and
encrypted container come out in the output buffer, and the other two containers come out in
host order where their sections lie. -/
def Recovers (host : ByteOrder) (enc add extra : Option Container)
    (pckGSettings nonce : UInt32) : Prop :=
  ∀ (gcm : Gcm) (gcmKey : Bytes)
    (pckData addDataPck extraDataPck : Option (Block pckDataIncrements)),
    Given host pckData enc → Given host addDataPck add → Given host extraDataPck extra →
    ∀ (newIv : Block ivLen) (outputBuf decrypted : Block maxMsgLen),
      ∃ msgLen out opened,
        encryptPckData host gcm (some gcmKey) pckData addDataPck extraDataPck pckGSettings nonce
            newIv outputBuf = .ok (msgLen, out) ∧
          decryptPckData host gcm gcmKey out decrypted = .ok opened ∧
          opened.returnValue = 0 ∧
          settingsBytes host nonce pckGSettings ++ givenBytes host enc <+:
            opened.outputBuf.bytes ∧
          givenBytes host add <+: opened.encryptedMsg.bytes.drop
            (headerLen + givenLength extra + protocolSpecificAddLen) ∧
          givenBytes host extra <+: opened.encryptedMsg.bytes.drop headerLen

section Recovering

variable {host : ByteOrder} {enc add : Option Container} {pckGSettings nonce : UInt32}

/-- Without an extra section, containers that a print leaves as they are come back. -/
theorem recovers_of_settled (settledEnc : Settled host enc) (settledAdd : Settled host add)
    (fits : composedLength enc add none ≤ maxMsgLen) :
    Recovers host enc add none pckGSettings nonce := by
  intro gcm gcmKey pckData addDataPck extraDataPck givenEnc givenAdd givenExtra newIv outputBuf
    decrypted
  have noExtra : Settled host none := fun given impossible => by simp at impossible
  obtain ⟨out, encrypted, content⟩ := encryptPckData_ok gcm gcmKey givenEnc givenAdd givenExtra
    settledAdd noExtra pckGSettings nonce newIv outputBuf (by decide) fits
  rw [sealedMessage, givenPrinted_eq noExtra, givenPrinted_eq settledAdd,
    givenPrinted_eq settledEnc] at content
  have sized : Sealed newIv.bytes (gcm.tagOf gcmKey newIv.bytes
      (ByteOrder.big.encode 0 ++ givenBytes .big add)
      (gcm.crypt gcmKey newIv.bytes (settingsBytes .big nonce pckGSettings ++
        givenBytes .big enc))) :=
    ⟨newIv.allocated, gcm.length_tagOf ..⟩
  have cipherFits : (gcm.crypt gcmKey newIv.bytes (settingsBytes .big nonce pckGSettings ++
      givenBytes .big enc)).length ≤ maxMsgLen := by
    have sizes := layout
    simp only [StreamAead.length_crypt, List.length_append, length_settingsBytes,
      length_givenBytes]
    simp only [composedLength] at fits
    omega
  obtain ⟨opened, decryptedOk, returned, inMessage, inOutput⟩ := decryptPckData_ok host
    sized content (gcm.authDecrypt_crypt ..) (by decide) decrypted cipherFits
  refine ⟨_, out, opened, encrypted, decryptedOk, returned, ?_, ?_, ?_⟩
  · rw [inOutput, ← List.append_assoc]
    exact List.prefix_append _ _
  · have version : headerLen + ([] : Bytes).length + (host.encode 0).length =
        headerLen + givenLength none + protocolSpecificAddLen := by
      rw [host.encode_length]
      rfl
    rw [inMessage, openedMessage, drop_message sized version]
    exact List.prefix_append _ _
  · exact List.nil_prefix

/-- A tag that says how long the masked text is, over text that is not masked. -/
def lengthTagged : Gcm :=
  { keystream := fun _ _ _ => 0
    authenticate := fun _ _ _ cipher => Block.fill tagLen (UInt8.ofNat cipher.length) }

/-- With an extra section `decryptPckData` looks for the ADD section in the wrong place and takes
as many bytes behind the message for masked text, so that the tag is not the one it computes. -/
theorem extra_not_recovered {container : Container}
    (fits : composedLength enc add (some container) ≤ maxMsgLen) :
    ¬ Recovers host enc add (some container) pckGSettings nonce := by
  intro recovers
  obtain ⟨encShort, addShort, extraShort⟩ := givenLength_le fits
  obtain ⟨encObject, givenEnc⟩ := exists_given host enc encShort
  obtain ⟨addObject, givenAdd⟩ := exists_given host add addShort
  obtain ⟨extraObject, givenExtra⟩ := exists_given host (some container) extraShort
  obtain ⟨msgLen, out, opened, encrypted, decrypted, returned, -⟩ := recovers lengthTagged []
    encObject addObject extraObject givenEnc givenAdd givenExtra default default default
  obtain ⟨sealedBuf, ran, content⟩ := encryptPckData_eq lengthTagged [] givenEnc givenAdd givenExtra
    pckGSettings nonce default (default : Block maxMsgLen) (by decide) fits
  rw [encrypted] at ran
  obtain ⟨printedBuf, shown, same⟩ := bind_eq_ok.mp ran.symm
  obtain ⟨-, rfl⟩ := Prod.mk.inj (Except.ok.inj same)
  have kept := printMessage_take shown
  simp only [sealedMessage] at content
  generalize cipherIs : lengthTagged.crypt [] (default : Block ivLen).bytes
    (settingsBytes .big nonce pckGSettings ++ givenPrinted host enc) = cipher at content
  generalize addIs : ByteOrder.big.encode 0 ++ givenPrinted host add = addSection at content
  have cipherLength : cipher.length = 8 + givenLength enc := by
    rw [← cipherIs]
    simp
  have addLength : addSection.length = 4 + givenLength add := by
    rw [← addIs]
    simp
  -- The header that `decryptPckData` reads is the one that was sealed.
  have opening := content
  simp only [message, List.append_assoc] at opening
  have header := length_messageHead .big ⟨(default : Block ivLen).allocated,
    lengthTagged.length_tagOf [] (default : Block ivLen).bytes addSection cipher⟩
    (givenPrinted host (some container)).length addSection.length cipher.length
  rw [opening, List.take_left' header] at kept
  have place := (List.take_append_drop headerLen printedBuf.bytes).symm
  rw [kept] at place
  obtain ⟨msgLenRead, addLenRead, extraLenRead⟩ := message_lengths host place
  obtain ⟨msgLenWord, addLenWord, extraDataLenWord, written, msgLenIs, addLenIs, extraLenIs,
    ranGcm, -⟩ := decryptPckData_eq_zero decrypted returned
  obtain rfl := Except.ok.inj (msgLenIs.symm.trans msgLenRead)
  obtain rfl := Except.ok.inj (addLenIs.symm.trans addLenRead)
  obtain rfl := Except.ok.inj (extraLenIs.symm.trans extraLenRead)
  obtain ⟨ivBytes, addBytes, masked, tagBytes, -, -, readMasked, readTag, tagIs⟩ :=
    decryptGcm_eq_zero ranGcm
  simp only [ntohl_decode_big] at readMasked
  obtain ⟨-, tagRead⟩ := message_seal ⟨(default : Block ivLen).allocated,
    lengthTagged.length_tagOf [] (default : Block ivLen).bytes addSection cipher⟩ place
  obtain rfl := Except.ok.inj (readTag.symm.trans tagRead)
  -- Its tag is over a text that is longer by the extra section.
  have sizes := layout
  have total : composedLength enc add (some container) ≤ 255 := fits
  have eight : 8 ≤ givenLength (some container) := Nat.le_add_right _ _
  rw [composedLength] at total
  have maskedLength : masked.length = givenLength (some container) + cipher.length := by
    have regrouped : headerLen + givenLength (some container) + addSection.length +
        cipher.length = headerLen + addSection.length +
          (givenLength (some container) + cipher.length) := by
      omega
    rw [Block.length_read readMasked, length_givenPrinted, regrouped, ← UInt32.ofNat_add,
      ofNat_sub_ofNat (Nat.le_add_right _ _), Nat.add_sub_cancel_left]
    exact toNat_ofNat_short (by omega)
  have sameByte : UInt8.ofNat masked.length = UInt8.ofNat cipher.length := by
    have same := congrArg List.head? tagIs
    exact Option.some.inj same
  have sameNat := congrArg UInt8.toNat sameByte
  rw [UInt8.toNat_ofNat', UInt8.toNat_ofNat', maskedLength] at sameNat
  omega

/-- A keystream that is the text itself. -/
def selfMasked (plain : Bytes) : Gcm :=
  { keystream := fun _ _ index => plain.getD index 0
    authenticate := fun _ _ _ _ => default }

/-- A text masked with itself is zeros. -/
theorem crypt_selfMasked (gcmKey iv plain : Bytes) :
    (selfMasked plain).crypt gcmKey iv plain = List.replicate plain.length 0 := by
  refine List.ext_getElem (by simp) fun index inside _ => ?_
  have within : index < plain.length := by simpa using inside
  simp [StreamAead.crypt, selfMasked, within]

/-- The bytes of an empty container as `printMessage` leaves them on a little-endian host. -/
theorem printed_empty {container : Container} (empty : container.elements = []) :
    givenPrinted .little (some container) =
      ByteOrder.little.encode 8 ++ ByteOrder.little.encode container.increments := by
  simp [givenPrinted, printed, empty, Container.bytes, Container.length]

/-- In host order the length of an empty container is taken for a length past every buffer. -/
theorem empty_toHost {size : Nat} {memory converted : Block size} {front : Bytes}
    {increments : UInt32} {zeros pckData : Nat}
    (content : memory.bytes = front ++ (ByteOrder.little.encode 8 ++
      (ByteOrder.little.encode increments ++ List.replicate zeros 0)))
    (position : front.length = pckData) (small : size < 134217728) :
    pckDataToHostOrder .little memory pckData ≠ .ok converted := by
  refine convertPckData_zeros content position (by simp) (by simp) rfl ?_
  have swapped : (ntohl .little (ByteOrder.little.decode (ByteOrder.little.encode 8))).toNat =
      134217728 := by
    decide
  rw [swapped]
  exact small

/-- What is left of a block of zeros is zeros. -/
theorem drop_zeros (size count : Nat) :
    (default : Block size).bytes.drop count = List.replicate (size - count) 0 :=
  List.drop_replicate

/-- An empty ADD container is left in host order by the first print of `encryptPckData`, and the
second one takes its length for one in network order. -/
theorem empty_add_not_recovered {container : Container} (empty : container.elements = [])
    (fits : composedLength enc (some container) none ≤ maxMsgLen) :
    ¬ Recovers .little enc (some container) none pckGSettings nonce := by
  intro recovers
  obtain ⟨encShort, addShort, -⟩ := givenLength_le fits
  obtain ⟨encObject, givenEnc⟩ := exists_given .little enc encShort
  obtain ⟨addObject, givenAdd⟩ := exists_given .little (some container) addShort
  let plain := settingsBytes .big nonce pckGSettings ++ givenPrinted .little enc
  obtain ⟨msgLen, out, opened, encrypted, -⟩ := recovers (selfMasked plain) [] encObject addObject
    none givenEnc givenAdd .absent default default default
  obtain ⟨sealedBuf, ran, content⟩ := encryptPckData_eq (selfMasked plain) [] givenEnc givenAdd
    .absent pckGSettings nonce default (default : Block maxMsgLen) (by decide) fits
  rw [encrypted] at ran
  obtain ⟨printedBuf, shown, -⟩ := bind_eq_ok.mp ran.symm
  have absent : givenPrinted .little none = [] := rfl
  simp only [sealedMessage, printed_empty empty, absent] at content
  rw [crypt_selfMasked, drop_zeros] at content
  have tagged := (selfMasked plain).length_tagOf [] (default : Block ivLen).bytes
    (ByteOrder.big.encode 0 ++ (ByteOrder.little.encode 8 ++
      ByteOrder.little.encode container.increments)) (List.replicate plain.length 0)
  generalize (selfMasked plain).tagOf [] (default : Block ivLen).bytes _ _ = tag at content tagged
  have sized : Sealed (default : Block ivLen).bytes tag :=
    ⟨(default : Block ivLen).allocated, tagged⟩
  have sections := message_sections content
  rw [← List.replicate_add] at sections
  have addLength : (ByteOrder.big.encode 0 ++ (ByteOrder.little.encode 8 ++
      ByteOrder.little.encode container.increments)).length = 12 := by
    simp
  have noExtra : ([] : Bytes).length = 0 := rfl
  rw [addLength, noExtra] at sections
  obtain ⟨total, addWord, extraWord⟩ := message_lengths .little sections
  have header : (messageHead .big (default : Block ivLen).bytes tag 0 12
      (List.replicate plain.length (0 : UInt8)).length).length = headerLen :=
    length_messageHead _ sized 0 12 _
  simp only [printMessage, total, addWord, extraWord, ok_bind, if_true, ntohl_decode_big,
    bind_eq_ok] at shown
  obtain ⟨-, -, first, keptExtra, -, -, second, printedAdd, -⟩ := shown
  obtain rfl : sealedBuf = first := Except.ok.inj keptExtra
  have addPrinted : printPckData .little sealedBuf 44 true = .ok second := printedAdd
  obtain ⟨converted, toHost, -⟩ := bind_eq_ok.mp addPrinted
  have place : sealedBuf.bytes = (messageHead .big (default : Block ivLen).bytes tag 0 12
      (List.replicate plain.length (0 : UInt8)).length ++ ByteOrder.big.encode 0) ++
      (ByteOrder.little.encode 8 ++ (ByteOrder.little.encode container.increments ++
        List.replicate (plain.length +
          (maxMsgLen - composedLength enc (some container) none)) 0)) := by
    simpa only [List.append_assoc, List.nil_append] using sections
  refine empty_toHost place ?_ (by decide) toHost
  rw [List.length_append, header, ByteOrder.encode_length]
  rfl

/-- An empty encrypted container is encrypted in host order. -/
theorem empty_enc_not_recovered {container : Container} (empty : container.elements = [])
    (settledAdd : Settled .little add)
    (fits : composedLength (some container) add none ≤ maxMsgLen) :
    ¬ Recovers .little (some container) add none pckGSettings nonce := by
  intro recovers
  obtain ⟨encShort, addShort, -⟩ := givenLength_le fits
  obtain ⟨encObject, givenEnc⟩ := exists_given .little (some container) encShort
  obtain ⟨addObject, givenAdd⟩ := exists_given .little add addShort
  have noExtra : Settled .little none := fun given impossible => by simp at impossible
  obtain ⟨out, encrypted, content⟩ := encryptPckData_ok lengthTagged [] givenEnc givenAdd .absent
    settledAdd noExtra pckGSettings nonce default (default : Block maxMsgLen) (by decide) fits
  obtain ⟨_, _, opened, encrypted', decrypted, returned, -⟩ := recovers lengthTagged [] encObject
    addObject none givenEnc givenAdd .absent default default default
  obtain ⟨-, rfl⟩ := Prod.mk.inj (Except.ok.inj (encrypted.symm.trans encrypted'))
  simp only [sealedMessage, givenPrinted_eq noExtra, givenPrinted_eq settledAdd,
    printed_empty empty] at content
  obtain ⟨msgLenWord, addLenWord, extraDataLenWord, written, msgLenIs, addLenIs, extraLenIs,
    ranGcm, o1, o2, o3, ranNonce, ranSettings, ranContainer⟩ :=
      decryptPckData_eq_zero decrypted returned
  have sized : Sealed (default : Block ivLen).bytes (lengthTagged.tagOf []
      (default : Block ivLen).bytes (ByteOrder.big.encode 0 ++ givenBytes .big add)
      (lengthTagged.crypt [] (default : Block ivLen).bytes (settingsBytes .big nonce pckGSettings ++
        (ByteOrder.little.encode 8 ++ ByteOrder.little.encode container.increments)))) :=
    ⟨(default : Block ivLen).allocated, lengthTagged.length_tagOf ..⟩
  have sections := message_sections content
  obtain ⟨total, addWord, extraWord⟩ := message_lengths .little sections
  obtain rfl := Except.ok.inj (msgLenIs.symm.trans total)
  obtain rfl := Except.ok.inj (addLenIs.symm.trans addWord)
  obtain rfl := Except.ok.inj (extraLenIs.symm.trans extraWord)
  simp only [ntohl_decode_big] at ranGcm ranContainer
  have sizes := layout
  have total : composedLength (some container) add none ≤ 255 := fits
  rw [composedLength] at total
  have addLength : (ByteOrder.big.encode 0 ++ givenBytes .big add).length =
      4 + givenLength add := by
    simp
  have cipherLength : (lengthTagged.crypt [] (default : Block ivLen).bytes
      (settingsBytes .big nonce pckGSettings ++ (ByteOrder.little.encode 8 ++
        ByteOrder.little.encode container.increments))).length = 16 := by
    simp
  have absent : (givenBytes .big none).length = 0 := rfl
  obtain ⟨written', ranGcm', plainContent⟩ := decryptGcm_ok sized content
    (lengthTagged.authDecrypt_crypt ..) (default : Block maxMsgLen) (by rw [cipherLength]; decide)
  rw [addLength, cipherLength, absent] at ranGcm' ranGcm ranContainer
  have addNat : (UInt32.ofNat (4 + givenLength add)).toNat = 4 + givenLength add :=
    toNat_ofNat_short (by omega)
  have dataLen : UInt32.ofNat (headerLen + 0 + (4 + givenLength add) + 16) -
      (UInt32.ofNat headerLen + UInt32.ofNat (4 + givenLength add)) = 16 := by
    have noExtra : headerLen + 0 + (4 + givenLength add) + 16 =
        headerLen + (4 + givenLength add) + 16 := rfl
    rw [noExtra, ← UInt32.ofNat_add headerLen, ofNat_sub_ofNat (Nat.le_add_right _ _),
      Nat.add_sub_cancel_left]
    rfl
  have dataNat : (16 : UInt32).toNat = 16 := rfl
  have noneNat : (UInt32.ofNat 0).toNat = 0 := rfl
  rw [dataLen, dataNat, addNat, noneNat, Nat.add_zero] at ranGcm
  rw [Nat.add_zero] at ranGcm'
  obtain ⟨-, rfl⟩ := Prod.mk.inj (Except.ok.inj (ranGcm'.symm.trans ranGcm))
  -- The container lies behind nonce and settings.
  have noncePlace : written'.bytes = [] ++ (ByteOrder.big.encode nonce ++
      (ByteOrder.big.encode pckGSettings ++ (ByteOrder.little.encode 8 ++
        (ByteOrder.little.encode container.increments ++ List.replicate (maxMsgLen - 16) 0)))) := by
    rw [plainContent, drop_zeros]
    simp only [settingsBytes, List.append_assoc, List.nil_append, List.length_append,
      ByteOrder.encode_length]
  obtain ⟨withNonce, ranNonce', nonceContent⟩ := toHostWord_ok .little 0 nonce noncePlace rfl
  obtain rfl := Except.ok.inj (ranNonce'.symm.trans ranNonce)
  rw [List.nil_append] at nonceContent
  obtain ⟨withSettings, ranSettings', settingsContent⟩ :=
    toHostWord_ok .little 4 pckGSettings nonceContent (by simp)
  obtain rfl := Except.ok.inj (ranSettings'.symm.trans ranSettings)
  rw [← List.append_assoc] at settingsContent
  rw [dataLen, if_pos (by decide)] at ranContainer
  exact empty_toHost settingsContent (by simp) (by decide) ranContainer

/-- Exactly the messages without an extra section whose containers a print leaves as they are
come back. -/
theorem recovers_iff {extra : Option Container}
    (fits : composedLength enc add extra ≤ maxMsgLen) :
    Recovers host enc add extra pckGSettings nonce ↔
      extra = none ∧ Settled host enc ∧ Settled host add := by
  constructor
  · intro recovers
    cases extra with
    | some container => exact absurd recovers (extra_not_recovered fits)
    | none =>
        have settledAdd : Settled host add := by
          rintro container rfl empty
          cases host with
          | big => rfl
          | little => exact absurd recovers (empty_add_not_recovered empty fits)
        refine ⟨rfl, ?_, settledAdd⟩
        rintro container rfl empty
        cases host with
        | big => rfl
        | little => exact absurd recovers (empty_enc_not_recovered empty settledAdd fits)
  · rintro ⟨rfl, settledEnc, settledAdd⟩
    exact recovers_of_settled settledEnc settledAdd fits

end Recovering

/-! ### Concrete messages -/

/-- A container with these elements that `initPckData` has begun. -/
def containerOf (elements : List Bytes) (short : 8 + elementsLength elements < 4294967296) :
    Container :=
  { increments := 255, elements := elements, short := short }

/-- A container with elements comes out of a print as it went in. -/
theorem settled_of_elements {host : ByteOrder} {container : Container}
    (begun : container.elements ≠ []) : Settled host (some container) := by
  intro given known empty
  obtain rfl := Option.some.inj known
  exact absurd empty begun

/-- A beacon with the device's identifier in its ADD container comes back. -/
theorem recovers_beacon :
    Recovers .little (some (containerOf [[2], [0], [1, 1, 0]] (by decide)))
      (some (containerOf [List.replicate devIdLen 7] (by decide))) none 0 5 :=
  (recovers_iff (by decide)).mpr
    ⟨rfl, settled_of_elements (by decide), settled_of_elements (by decide)⟩

/-- AES-GCM under the zero key and the zero vector: its keystream, its tag over the masked text
below with four zero bytes as additional data, and its tag over the 21 bytes that begin with this
text and go on with zeros, with the length of the extra container as additional data. -/
def zeroKeyGcm : Gcm :=
  { keystream := fun _ _ index => [3, 136, 218, 206, 96, 182, 163, 146].getD index 0
    authenticate := fun _ _ _ cipher =>
      if cipher.length = 8 then
        ⟨[150, 22, 224, 149, 217, 124, 196, 16, 222, 134, 117, 166, 1, 167, 7, 104], rfl⟩
      else ⟨[217, 65, 214, 169, 33, 57, 20, 107, 210, 81, 112, 156, 142, 75, 110, 236], rfl⟩ }

/-- The object of an extra container with the one byte `42`. -/
def extraObject : Block pckDataIncrements :=
  ⟨(containerOf [[42]] (by decide)).bytes .little ++ List.replicate 242 0, by decide +kernel⟩

/-- A message with an extra section is rejected by the key that has encrypted it. -/
theorem extra_section_rejected :
    (∃ msgLen out opened,
      encryptPckData .little zeroKeyGcm (some (List.replicate keyLen 0)) none none
          (some extraObject) 0 0 (Block.fill ivLen 0) (Block.fill maxMsgLen 0) =
        .ok (msgLen, out) ∧
      decryptPckData .little zeroKeyGcm (List.replicate keyLen 0) out (Block.fill maxMsgLen 0) =
        .ok opened ∧
      opened.returnValue = -1) ∧
    ¬ Recovers .little none none (some (containerOf [[42]] (by decide))) 0 0 := by
  have ran : (do
      let (msgLen, out) ← encryptPckData .little zeroKeyGcm (some (List.replicate keyLen 0)) none
        none (some extraObject) 0 0 (Block.fill ivLen 0) (Block.fill maxMsgLen 0)
      let opened ← decryptPckData .little zeroKeyGcm (List.replicate keyLen 0) out
        (Block.fill maxMsgLen 0)
      pure (msgLen, opened.returnValue)) = .ok (65, -1) := by
    decide +kernel
  obtain ⟨⟨msgLen, out⟩, encrypted, ran⟩ := bind_eq_ok.mp ran
  obtain ⟨opened, decrypted, same⟩ := bind_eq_ok.mp ran
  have rejected : opened.returnValue = -1 := (Prod.mk.inj (Except.ok.inj same)).2
  refine ⟨⟨msgLen, out, opened, encrypted, decrypted, rejected⟩, fun recovers => ?_⟩
  obtain ⟨msgLen', out', opened', encrypted', decrypted', returned, -⟩ := recovers zeroKeyGcm
    (List.replicate keyLen 0) none none (some extraObject) .absent .absent (.present rfl)
    (Block.fill ivLen 0) (Block.fill maxMsgLen 0) (Block.fill maxMsgLen 0)
  obtain ⟨-, rfl⟩ := Prod.mk.inj (Except.ok.inj (encrypted.symm.trans encrypted'))
  obtain rfl := Except.ok.inj (decrypted.symm.trans decrypted')
  rw [rejected] at returned
  simp at returned

end RentMate.RoundTrip
