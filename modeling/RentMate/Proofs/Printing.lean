/-
Module: RentMate.Proofs.Printing
Purpose: What the debug prints do to the messages they print: they convert the live containers
  to host order and back, except that an empty container is not converted back.
Trusted boundary: none
Main exports: Unaltered, unaltered_iff_settled
-/
import RentMate.Proofs.RoundTrip

namespace RentMate.Printing

open RentMate.Machine
open RentMate.PckData
open RentMate.ContainerCodec
open RentMate.MessageCodec

/-! ### One container -/

section Containers

variable {size : Nat} {host : ByteOrder} {memory : Block size} {front rest : Bytes}
  {container : Container}

/-- A container that a print leaves as it was has elements, or its host stores network order. -/
theorem settled_of_printed {container : Option Container}
    (same : givenPrinted host container = givenBytes .big container) :
    Settled host container := by
  rintro given rfl empty
  rw [givenPrinted, givenBytes, printed, if_pos empty] at same
  obtain ⟨total, -⟩ := List.append_inj same (by simp)
  rw [Container.length, empty] at total
  cases host with
  | little => exact absurd total (by decide)
  | big => rfl

/-- A settled container is printed and left as it was. -/
theorem printPckData_settled (settled : Settled host (some container))
    (content : memory.bytes = front ++ (container.bytes .big ++ rest)) {pckData : Nat}
    (position : front.length = pckData) :
    printPckData host memory pckData true = .ok memory := by
  obtain ⟨left, ran, leftBytes⟩ := printPckData_serialized container content position
  have same : printed host container = container.bytes .big := givenPrinted_eq settled
  rw [same, ← content] at leftBytes
  rw [ran, Block.eq_of_bytes leftBytes]

end Containers

/-! ### The containers of a message -/

/-- The containers of the message in the buffer, wherever they lie in it, can be printed without
a change. -/
structure ContainersKept (host : ByteOrder) (isSerialized : Bool) {size : Nat}
    (memory : Block size) (enc add extra : Option Container) : Prop where
  inExtra : extra ≠ none → printPckData host memory headerLen isSerialized = .ok memory
  inAdd : add ≠ none →
    printPckData host memory (headerLen + givenLength extra + protocolSpecificAddLen)
      isSerialized = .ok memory
  inEnc : enc ≠ none →
    printPckData host memory
      (headerLen + givenLength extra + (protocolSpecificAddLen + givenLength add) +
        protocolSpecificEncryptedDataLen) isSerialized = .ok memory

section Messages

variable {size : Nat} {host order : ByteOrder} {memory : Block size}
  {iv tag version settings rest : Bytes} {enc add extra : Option Container}

/-- Containers that can be printed without a change wherever they lie. -/
theorem containersKept {isSerialized : Bool} (sized : Sealed iv tag)
    (versioned : version.length = protocolSpecificAddLen)
    (settingsSized : settings.length = protocolSpecificEncryptedDataLen)
    (content : memory.bytes = message order iv tag (givenBytes order extra)
      (version ++ givenBytes order add) (settings ++ givenBytes order enc) ++ rest)
    (kept : ∀ container, some container = extra ∨ some container = add ∨ some container = enc →
      ∀ {front behind : Bytes} {pckData : Nat},
        memory.bytes = front ++ (container.bytes order ++ behind) → front.length = pckData →
          printPckData host memory pckData isSerialized = .ok memory) :
    ContainersKept host isSerialized memory enc add extra := by
  have sections := message_sections content
  generalize headIs : messageHead order iv tag (givenBytes order extra).length
    (version ++ givenBytes order add).length (settings ++ givenBytes order enc).length = head
      at sections
  have headLength : head.length = headerLen := by rw [← headIs, length_messageHead _ sized]
  constructor
  · intro present
    obtain ⟨container, rfl⟩ := Option.ne_none_iff_exists'.mp present
    exact kept container (.inl rfl) sections headLength
  · intro present
    obtain ⟨container, rfl⟩ := Option.ne_none_iff_exists'.mp present
    have place : memory.bytes = (head ++ (givenBytes order extra ++ version)) ++
        (container.bytes order ++ ((settings ++ givenBytes order enc) ++ rest)) := by
      simpa only [givenBytes, List.append_assoc] using sections
    refine kept container (.inr (.inl rfl)) place ?_
    simp only [List.length_append, headLength, length_givenBytes, versioned]
    omega
  · intro present
    obtain ⟨container, rfl⟩ := Option.ne_none_iff_exists'.mp present
    have place : memory.bytes = (head ++ (givenBytes order extra ++
        (version ++ (givenBytes order add ++ settings)))) ++ (container.bytes order ++ rest) := by
      simpa only [givenBytes, List.append_assoc] using sections
    refine kept container (.inr (.inr rfl)) place ?_
    simp only [List.length_append, headLength, length_givenBytes, versioned, settingsSized]
    omega

/-- The sections of two messages with the same header fields are the same if the messages are. -/
theorem sections_eq {one other : Option Container → Bytes} (sized : Sealed iv tag)
    (lengths : ∀ container, (one container).length = (other container).length)
    (same : message order iv tag (one extra) (version ++ one add) (settings ++ one enc) ++ rest =
      message order iv tag (other extra) (version ++ other add) (settings ++ other enc) ++ rest) :
    one extra = other extra ∧ one add = other add ∧ one enc = other enc := by
  simp only [message, List.append_assoc] at same
  obtain ⟨-, behind⟩ := List.append_inj same (by simp only [length_messageHead _ sized])
  obtain ⟨sameExtra, behind⟩ := List.append_inj behind (lengths extra)
  obtain ⟨-, behind⟩ := List.append_inj behind rfl
  obtain ⟨sameAdd, behind⟩ := List.append_inj behind (lengths add)
  obtain ⟨-, behind⟩ := List.append_inj behind rfl
  obtain ⟨sameEnc, -⟩ := List.append_inj behind (lengths enc)
  exact ⟨sameExtra, sameAdd, sameEnc⟩

/-- A message in host order is printed without a change, whatever its containers are. -/
theorem printMessage_plain (sized : Sealed iv tag)
    (versioned : version.length = protocolSpecificAddLen)
    (settingsSized : settings.length = protocolSpecificEncryptedDataLen)
    (content : memory.bytes = message host iv tag (givenBytes host extra)
      (version ++ givenBytes host add) (settings ++ givenBytes host enc) ++ rest)
    (short : (message host iv tag (givenBytes host extra) (version ++ givenBytes host add)
      (settings ++ givenBytes host enc)).length < 4294967296) :
    printMessage host memory false false = .ok memory := by
  obtain ⟨left, ran, leftBytes⟩ := printMessage_ok false (if_neg Bool.false_ne_true).symm sized
    content versioned short (prints_plain extra) (prints_plain add)
    (.plain settings settingsSized (prints_plain enc))
  rw [ran, Block.eq_of_bytes (leftBytes.trans content.symm)]

end Messages

/-! ### The messages that are composed -/

/-- The encryption between the two prints of `encryptPckData`. -/
def encryptComposed {size : Nat} (gcm : Gcm) (ctx : Option Bytes) (composed : Composed size) :
    Checked (Block size) :=
  let addPtr := headerLen + composed.extraDataLen.toNat
  let noncePtr := addPtr + composed.addLen.toNat
  match ctx with
  | none => pure composed.outputBuf
  | some gcmKey =>
      encryptGcm gcm gcmKey composed.outputBuf noncePtr
        (UInt32.ofNat protocolSpecificEncryptedDataLen + composed.pckDataLen).toNat ivPtr
        addPtr composed.addLen.toNat tagPtr

/-- The steps of `encryptPckData`. -/
theorem encryptPckData_steps {size : Nat} {host : ByteOrder} {gcm : Gcm} {ctx : Option Bytes}
    {pckData addDataPck extraDataPck : Option (Block pckDataIncrements)}
    {pckGSettings nonce : UInt32} {newIv : Block ivLen} {outputBuf sealedBuf : Block size}
    {composed : Composed size}
    (ran : composePckData host pckData addDataPck extraDataPck pckGSettings nonce newIv outputBuf =
      .ok composed)
    (shown : printMessage host composed.outputBuf false true = .ok composed.outputBuf)
    (encrypted : encryptComposed gcm ctx composed = .ok sealedBuf)
    (shownAfter : printMessage host sealedBuf true true = .ok sealedBuf) :
    encryptPckData host gcm ctx pckData addDataPck extraDataPck pckGSettings nonce newIv
      outputBuf = .ok (composed.msgLen, sealedBuf) := by
  rw [encryptPckData, ran, ok_bind, shown, ok_bind]
  cases ctx with
  | none =>
      obtain rfl : composed.outputBuf = sealedBuf := Except.ok.inj encrypted
      simp only [pure_eq_ok, ok_bind, shownAfter]
  | some gcmKey =>
      simp only [encryptComposed] at encrypted
      simp only [encrypted, ok_bind, shownAfter, pure_eq_ok]

/-- What the caller of `encryptPckData` hands over. -/
structure Request where
  pckData : Option (Block pckDataIncrements)
  addDataPck : Option (Block pckDataIncrements)
  extraDataPck : Option (Block pckDataIncrements)
  pckGSettings : UInt32
  nonce : UInt32
  newIv : Block ivLen

/-- No print changes a byte of the message: neither the two in `encryptPckData`, so that what it
encrypts and returns is what it has composed, nor the print of one of the containers, nor a print
of the message in host order. -/
structure Unaltered (host : ByteOrder) (gcm : Gcm) (ctx : Option Bytes) {size : Nat}
    (request : Request) (enc add extra : Option Container) (outputBuf : Block size)
    (composed : Composed size) : Prop where
  beforeEncryption : printMessage host composed.outputBuf false true = .ok composed.outputBuf
  containers : ContainersKept host true composed.outputBuf enc add extra
  afterEncryption : ∃ sealedBuf, encryptComposed gcm ctx composed = .ok sealedBuf ∧
    printMessage host sealedBuf true true = .ok sealedBuf ∧
    encryptPckData host gcm ctx request.pckData request.addDataPck request.extraDataPck
      request.pckGSettings request.nonce request.newIv outputBuf =
        .ok (composed.msgLen, sealedBuf)
  inHostOrder : ∀ (opened : Block size) (tag rest : Bytes), tag.length = tagLen →
    opened.bytes = message host request.newIv.bytes tag (givenBytes host extra)
      (host.encode 0 ++ givenBytes host add)
      (settingsBytes host request.nonce request.pckGSettings ++ givenBytes host enc) ++ rest →
    printMessage host opened false false = .ok opened ∧
      ContainersKept host false opened enc add extra

section Composed

variable {size : Nat} {host : ByteOrder} {gcm : Gcm} {ctx : Option Bytes} {request : Request}
  {enc add extra : Option Container} {outputBuf : Block size} {composed : Composed size}

/-- The encryption replaces the tag and the encrypted section, if at all. -/
theorem encryptComposed_ok {iv tag rest : Bytes} {pckGSettings nonce : UInt32} (gcm : Gcm)
    (ctx : Option Bytes) (sized : Sealed iv tag)
    (encLen : composed.pckDataLen = UInt32.ofNat (givenLength enc))
    (addLen : composed.addLen = UInt32.ofNat (protocolSpecificAddLen + givenLength add))
    (extraLen : composed.extraDataLen = UInt32.ofNat (givenLength extra))
    (short : composedLength enc add extra < 4294967296)
    (content : composed.outputBuf.bytes = message .big iv tag (givenBytes .big extra)
      (ByteOrder.big.encode 0 ++ givenBytes .big add)
      (settingsBytes .big nonce pckGSettings ++ givenBytes .big enc) ++ rest) :
    ∃ (sealedBuf : Block size) (sealedTag sealedSection : Bytes),
      encryptComposed gcm ctx composed = .ok sealedBuf ∧
        sealedSection.length =
          (settingsBytes .big nonce pckGSettings ++ givenBytes .big enc).length ∧
        Sealed iv sealedTag ∧
        sealedBuf.bytes = message .big iv sealedTag (givenBytes .big extra)
          (ByteOrder.big.encode 0 ++ givenBytes .big add) sealedSection ++ rest := by
  cases ctx with
  | none => exact ⟨composed.outputBuf, tag, _, rfl, rfl, sized, content⟩
  | some gcmKey =>
      obtain ⟨sealedBuf, crypted, sealedContent⟩ := encryptGcm_ok gcm gcmKey sized content
      unfold composedLength at short
      have extraNat : composed.extraDataLen.toNat = (givenBytes .big extra).length := by
        rw [extraLen, length_givenBytes, toNat_ofNat_short (by omega)]
      have addNat : composed.addLen.toNat =
          (ByteOrder.big.encode 0 ++ givenBytes .big add).length := by
        rw [addLen, toNat_ofNat_short (by omega)]
        simp
      have encNat : (UInt32.ofNat protocolSpecificEncryptedDataLen +
          composed.pckDataLen).toNat =
          (settingsBytes .big nonce pckGSettings ++ givenBytes .big enc).length := by
        rw [encLen, ← UInt32.ofNat_add, toNat_ofNat_short (by omega)]
        simp
      refine ⟨sealedBuf, _, _, ?_, gcm.length_crypt .., ⟨sized.iv, gcm.length_tagOf ..⟩,
        sealedContent⟩
      simp only [encryptComposed, extraNat, addNat, encNat, crypted]

/-- The prints of a message that `encryptPckData` composes leave every byte of it exactly where
each of the containers is absent, has elements, or is stored in network order anyway. -/
theorem unaltered_iff_settled (givenEnc : Given host request.pckData enc)
    (givenAdd : Given host request.addDataPck add)
    (givenExtra : Given host request.extraDataPck extra) (small : size < 4294967296)
    (ran : composePckData host request.pckData request.addDataPck request.extraDataPck
      request.pckGSettings request.nonce request.newIv outputBuf = .ok composed) :
    Unaltered host gcm ctx request enc add extra outputBuf composed ↔
      Settled host enc ∧ Settled host add ∧ Settled host extra := by
  have fits := composePckData_fits givenEnc givenAdd givenExtra ran
  obtain ⟨composed', tag, ran', -, encLen, addLen, extraLen, msgLen, sized, content⟩ :=
    composePckData_ok givenEnc givenAdd givenExtra request.pckGSettings request.nonce
      request.newIv outputBuf small fits
  obtain rfl : composed = composed' := Except.ok.inj (ran.symm.trans ran')
  have short : composedLength enc add extra < 4294967296 := Nat.lt_of_le_of_lt fits small
  have whole : ∀ order : ByteOrder, ∀ {tag : Bytes}, Sealed request.newIv.bytes tag →
      (message order request.newIv.bytes tag (givenBytes order extra)
        (order.encode 0 ++ givenBytes order add)
        (settingsBytes order request.nonce request.pckGSettings ++
          givenBytes order enc)).length < 4294967296 := by
    intro order tag sized
    rw [length_message sized]
    simpa [composedLength] using short
  constructor
  · intro unaltered
    obtain ⟨left, printed, leftBytes⟩ := printMessage_ok false (if_pos rfl).symm sized content
      (by simp) (whole .big sized) (prints_serialized extra) (prints_serialized add)
      (.plain _ (by simp) (prints_serialized enc))
    obtain rfl : left = composed.outputBuf :=
      Except.ok.inj (printed.symm.trans unaltered.beforeEncryption)
    obtain ⟨sameExtra, sameAdd, sameEnc⟩ := sections_eq sized (by simp)
      (leftBytes.symm.trans content)
    exact ⟨settled_of_printed sameEnc, settled_of_printed sameAdd, settled_of_printed sameExtra⟩
  · rintro ⟨settledEnc, settledAdd, settledExtra⟩
    have shown : printMessage host composed.outputBuf false true = .ok composed.outputBuf := by
      obtain ⟨left, printed, leftBytes⟩ := printMessage_ok false (if_pos rfl).symm sized content
        (by simp) (whole .big sized) (prints_serialized extra) (prints_serialized add)
        (.plain _ (by simp) (prints_serialized enc))
      rw [givenPrinted_eq settledExtra, givenPrinted_eq settledAdd, givenPrinted_eq settledEnc,
        ← content] at leftBytes
      rw [printed, Block.eq_of_bytes leftBytes]
    constructor
    · exact shown
    · refine containersKept sized (by simp) (by simp) content ?_
      intro container which front behind pckData place position
      have settled : Settled host (some container) := by
        rcases which with rfl | rfl | rfl
        · exact settledExtra
        · exact settledAdd
        · exact settledEnc
      exact printPckData_settled settled place position
    · obtain ⟨sealedBuf, sealedTag, sealedSection, encrypted, sealedLength, sealedSized,
        sealedContent⟩ := encryptComposed_ok gcm ctx sized encLen addLen extraLen short content
      have shownAfter : printMessage host sealedBuf true true = .ok sealedBuf := by
        obtain ⟨left, printed, leftBytes⟩ := printMessage_ok true (if_pos rfl).symm sealedSized
          sealedContent (by simp)
          (by rw [length_message sealedSized, sealedLength, ← length_message sized]
              exact whole .big sized)
          (prints_serialized extra) (prints_serialized add) (.masked _)
        rw [givenPrinted_eq settledExtra, givenPrinted_eq settledAdd, ← sealedContent] at leftBytes
        rw [printed, Block.eq_of_bytes leftBytes]
      exact ⟨sealedBuf, encrypted, shownAfter,
        encryptPckData_steps ran shown encrypted shownAfter⟩
    · intro opened otherTag rest tagSized openedBytes
      have openedSized : Sealed request.newIv.bytes otherTag := ⟨sized.iv, tagSized⟩
      refine ⟨printMessage_plain openedSized (by simp) (by simp) openedBytes
        (whole host openedSized), ?_⟩
      exact containersKept openedSized (by simp) (by simp) openedBytes
        fun container _ {_ _ _} place position => printPckData_plain container place position

end Composed

/-- A request with one container in host order, as its ADD container. -/
def requestWith (container : Container) : Request :=
  { pckData := none
    addDataPck := some (.holding pckDataIncrements (container.bytes .little))
    extraDataPck := none
    pckGSettings := 0
    nonce := 0
    newIv := default }

/-- A container without elements. -/
def emptyContainer : Container :=
  { increments := 255, elements := [], short := by decide }

/-- A container with one element. -/
def oneElement : Container :=
  { increments := 255, elements := [[1, 2]], short := by decide }

/-- The additional data of the request are the container. -/
theorem requestWith_given (container : Container)
    (room : (container.bytes .little).length ≤ pckDataIncrements) :
    Given .little (requestWith container).addDataPck (some container) := by
  obtain ⟨rest, content⟩ := Block.prefix_holding room
  exact .present content.symm

/-- The message with the container that has an element. -/
theorem oneElement_unaltered :
    ∃ composed, composePckData .little none (requestWith oneElement).addDataPck none 0 0 default
        (default : Block maxMsgLen) = .ok composed ∧
      Unaltered .little RoundTrip.zeroKeyGcm none (requestWith oneElement) none (some oneElement)
        none default composed := by
  have given := requestWith_given oneElement (by decide)
  obtain ⟨composed, -, ran, -⟩ := composePckData_ok .absent given .absent 0 0 default
    (default : Block maxMsgLen) (by decide) (by decide)
  refine ⟨composed, ran, ?_⟩
  apply (unaltered_iff_settled .absent given .absent (by decide) ran).mpr
  refine ⟨?_, ?_, ?_⟩
  · intro container absent
    cases absent
  · rintro container present empty
    cases present
    cases empty
  · intro container absent
    cases absent

/-- The message with the empty container: its first print leaves the two words of the container in
the order of the host. -/
theorem emptyContainer_altered :
    ∃ composed, composePckData .little none (requestWith emptyContainer).addDataPck none 0 0
        default (default : Block maxMsgLen) = .ok composed ∧
      slice composed.outputBuf.bytes 44 8 = [0, 0, 0, 8, 0, 0, 0, 255] ∧
      (printMessage .little composed.outputBuf false true).map
        (fun printed => slice printed.bytes 44 8) = .ok [8, 0, 0, 0, 255, 0, 0, 0] ∧
      ¬ Unaltered .little RoundTrip.zeroKeyGcm none (requestWith emptyContainer) none
        (some emptyContainer) none default composed := by
  have ran : (composePckData .little none (requestWith emptyContainer).addDataPck none 0 0
      default (default : Block maxMsgLen)).map
        (fun composed => (slice composed.outputBuf.bytes 44 8,
          (printMessage .little composed.outputBuf false true).map
            (fun printed => slice printed.bytes 44 8))) =
      .ok ([0, 0, 0, 8, 0, 0, 0, 255], .ok [8, 0, 0, 0, 255, 0, 0, 0]) := by
    decide +kernel
  obtain ⟨composed, composedRan, view⟩ := map_eq_ok.mp ran
  obtain ⟨before, after⟩ := Prod.mk.inj view
  refine ⟨composed, composedRan, before, after, ?_⟩
  intro unaltered
  obtain ⟨printed, printedRan, changed⟩ := map_eq_ok.mp after
  obtain rfl : composed.outputBuf = printed :=
    Except.ok.inj (unaltered.beforeEncryption.symm.trans printedRan)
  rw [before] at changed
  exact absurd changed (by decide)

end RentMate.Printing
