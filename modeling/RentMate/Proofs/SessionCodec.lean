/-
Module: RentMate.Proofs.SessionCodec
Purpose: What the two ends make of each other's frames: the frame that a send puts together, and
  what each `processMsg` goes on with when it receives such a frame unmodified.
Trusted boundary: none
Main exports: frame, sendMessage_ok, clientProcessMsg_frame, serverProcessMsg_frame
-/
import RentMate.Proofs.MessageCodec
import RentMate.Proofs.ServerSteps
import RentMate.NodeClient.Client

namespace RentMate.SessionCodec

open RentMate.Machine
open RentMate.PckData
open RentMate.ContainerCodec
open RentMate.MessageCodec

/-! ### Frames -/

/-- The container is absent or has elements, so that a print leaves it alone on every host. -/
def Begun (container : Option Container) : Prop :=
  ∀ given, container = some given → given.elements ≠ []

/-- A section that is absent is settled from the start. -/
theorem begun_none : Begun none := by
  intro given impossible
  simp at impossible

/-- A container with elements has begun. -/
theorem begun_some {container : Container} (begun : container.elements ≠ []) :
    Begun (some container) := by
  intro given known
  obtain rfl := Option.some.inj known
  exact begun

/-- A container that has begun is printed without a change. -/
theorem Begun.settled {container : Option Container} (begun : Begun container)
    (host : ByteOrder) : Settled host container :=
  fun given known empty => absurd empty (begun given known)

/-- The version number and the ADD container. -/
def addSection (add : Option Container) : Bytes :=
  ByteOrder.big.encode 0 ++ givenBytes .big add

/-- The masked nonce, settings and encrypted container. -/
def cipherSection (gcm : Gcm) (gcmKey iv : Bytes) (enc : Option Container)
    (pckGSettings nonce : UInt32) : Bytes :=
  gcm.crypt gcmKey iv (settingsBytes .big nonce pckGSettings ++ givenBytes .big enc)

/-- The frame of a session that carries these containers, whichever host has composed it. -/
def frame (gcm : Gcm) (gcmKey iv : Bytes) (enc add : Option Container)
    (pckGSettings nonce : UInt32) : Bytes :=
  message .big iv
    (gcm.tagOf gcmKey iv (addSection add) (cipherSection gcm gcmKey iv enc pckGSettings nonce)) []
    (addSection add) (cipherSection gcm gcmKey iv enc pckGSettings nonce)

section Frames

variable {gcm : Gcm} {gcmKey iv : Bytes} {enc add : Option Container}
  {pckGSettings nonce : UInt32}

/-- The ADD section is its version number and its container. -/
@[simp] theorem length_addSection :
    (addSection add).length = protocolSpecificAddLen + givenLength add := by
  simp [addSection]

/-- Masking does not change the length of the encrypted section. -/
@[simp] theorem length_cipherSection :
    (cipherSection gcm gcmKey iv enc pckGSettings nonce).length =
      protocolSpecificEncryptedDataLen + givenLength enc := by
  simp [cipherSection]

/-- The vector and the tag of a frame have their proper sizes. -/
theorem sealedFrame (vector : iv.length = ivLen) :
    Sealed iv (gcm.tagOf gcmKey iv (addSection add)
      (cipherSection gcm gcmKey iv enc pckGSettings nonce)) :=
  ⟨vector, gcm.length_tagOf ..⟩

/-- A frame is as long as the message that was composed. -/
theorem length_frame (gcm : Gcm) (gcmKey : Bytes) (enc add : Option Container)
    (pckGSettings nonce : UInt32) (vector : iv.length = ivLen) :
    (frame gcm gcmKey iv enc add pckGSettings nonce).length = composedLength enc add none := by
  rw [frame, length_message (sealedFrame vector), length_addSection, length_cipherSection]
  rfl

/-- What is sealed for sections that have begun is a frame, on any host. -/
theorem sealedMessage_eq_frame {host : ByteOrder} (begunEnc : Begun enc) (begunAdd : Begun add) :
    sealedMessage host gcm gcmKey iv enc add none pckGSettings nonce =
      frame gcm gcmKey iv enc add pckGSettings nonce := by
  simp only [sealedMessage, givenPrinted_eq (begunEnc.settled host),
    givenPrinted_eq (begunAdd.settled host), givenPrinted_eq (begun_none.settled host), frame,
    addSection, cipherSection]
  rfl

end Frames

/-! ### Sending -/

section Sending

variable {host : ByteOrder} {gcm : Gcm} {gcmKey : Bytes}
  {pckData addDataPck : Option (Block pckDataIncrements)} {enc add : Option Container}

/-- The two containers can be sent: they are what the pointers point to, a print leaves them
alone, and the message fits. -/
structure Sendable (host : ByteOrder) (pckData addDataPck : Option (Block pckDataIncrements))
    (enc add : Option Container) : Prop where
  givenEnc : Given host pckData enc
  givenAdd : Given host addDataPck add
  begunEnc : Begun enc
  begunAdd : Begun add
  fits : composedLength enc add none ≤ maxMsgLen

/-- The bytes of a message are sent, and nothing behind them. -/
theorem sendall_append {size : Nat} {buf : Block size} {bytes rest : Bytes} {len : UInt32}
    (content : buf.bytes = bytes ++ rest) (counted : len.toNat = bytes.length)
    (short : bytes.length < 2147483648) : sendall buf len = .ok bytes := by
  have start : buf.bytes = [] ++ (bytes ++ rest) := content
  rw [sendall, if_pos (by omega), counted]
  exact Block.read_append 0 bytes.length start rfl rfl

/-- A send puts the frame together and sends it. -/
theorem sendMessage_ok (gcm : Gcm) (gcmKey : Bytes)
    (sendable : Sendable host pckData addDataPck enc add) (connInfo : Option ConnInfo)
    (pckGSettings nonce : UInt32) (newIv : Block ivLen)
    (outBuf : Block maxMsgLen) :
    ∃ out,
      sendMessage host gcm connInfo (some gcmKey) pckData addDataPck none pckGSettings nonce newIv
          outBuf =
        .ok
          { returnValue := 0
            connInfo := connInfo
            outBuf := out
            sent := some (frame gcm gcmKey newIv.bytes enc add pckGSettings nonce) } := by
  obtain ⟨out, encrypted, content⟩ := encryptPckData_ok gcm gcmKey sendable.givenEnc
    sendable.givenAdd .absent (sendable.begunAdd.settled host) (begun_none.settled host)
    pckGSettings nonce newIv outBuf (by decide) sendable.fits
  rw [sealedMessage_eq_frame sendable.begunEnc sendable.begunAdd] at content
  have fits : composedLength enc add none ≤ 255 := sendable.fits
  have whole := length_frame gcm gcmKey enc add pckGSettings nonce newIv.allocated
  have counted : (UInt32.ofNat (composedLength enc add none)).toNat =
      (frame gcm gcmKey newIv.bytes enc add pckGSettings nonce).length := by
    rw [whole]
    exact toNat_ofNat_short (by omega)
  refine ⟨out, ?_⟩
  simp only [sendMessage, encrypted, ok_bind, sendall_append content counted (by omega), pure_eq_ok]

/-- The connection after one more message of a session. -/
def afterSend (connInfo : ConnInfo) : ConnInfo :=
  { connInfo with sendSessionIncrements := connInfo.sendSessionIncrements + 1 }

/-- The nonce of the next message of a session, as it goes into the message. -/
def nextNonce (host : ByteOrder) (connInfo : ConnInfo) : UInt32 :=
  htonl host (connInfo.sessionId + (connInfo.sendSessionIncrements + 1))

/-- In an established session a send puts the frame with the next nonce together. -/
theorem encryptAndSendAll_session (gcm : Gcm) (gcmKey : Bytes)
    (sendable : Sendable host pckData addDataPck enc add) {connInfo : ConnInfo}
    (established : connInfo.sessionId ≠ 0) (pckGSettings : UInt32) (draw : Draw)
    (outBuf : Block maxMsgLen) :
    ∃ out,
      encryptAndSendAll host gcm (some connInfo) (some gcmKey) pckData addDataPck none pckGSettings
          draw outBuf =
        .ok
          { returnValue := 0
            connInfo := some (afterSend connInfo)
            outBuf := out
            sent := some (frame gcm gcmKey draw.newIv.bytes enc add pckGSettings
              (nextNonce host connInfo)) } := by
  obtain ⟨out, ran⟩ := sendMessage_ok gcm gcmKey sendable (some (afterSend connInfo)) pckGSettings
    (nextNonce host connInfo) draw.newIv outBuf
  refine ⟨out, ?_⟩
  rw [← ran]
  simp only [encryptAndSendAll, ne_eq, established, not_false_eq_true, if_true]
  rfl

/-- The first send on a connection draws the nonce that it carries. -/
theorem encryptAndSendAll_fresh (gcm : Gcm) (gcmKey : Bytes)
    (sendable : Sendable host pckData addDataPck enc add) (connInfo : ConnInfo)
    (noSession : connInfo.sessionId = 0) (noNonce : connInfo.localNonce = 0)
    (pckGSettings : UInt32) (draw : Draw) (outBuf : Block maxMsgLen) :
    ∃ out,
      encryptAndSendAll host gcm (some connInfo) (some gcmKey) pckData addDataPck none pckGSettings
          draw outBuf =
        .ok
          { returnValue := 0
            connInfo := some { connInfo with localNonce := nonceOf draw.localNonce }
            outBuf := out
            sent := some (frame gcm gcmKey draw.newIv.bytes enc add pckGSettings
              (htonl host (nonceOf draw.localNonce))) } := by
  obtain ⟨out, ran⟩ := sendMessage_ok gcm gcmKey sendable
    (some { connInfo with localNonce := nonceOf draw.localNonce }) pckGSettings
    (htonl host (nonceOf draw.localNonce)) draw.newIv outBuf
  refine ⟨out, ?_⟩
  rw [← ran]
  simp only [encryptAndSendAll, noSession, noNonce, ne_eq, not_true, if_false]

/-- A nonce is never zero. -/
theorem nonceOf_ne_zero (random : UInt32) : nonceOf random ≠ 0 := by
  unfold nonceOf
  split
  · decide
  · assumption

/-- Nothing but the ADD container goes with a nonce. -/
theorem sendable_alone (host : ByteOrder) {addDataPck : Option (Block pckDataIncrements)}
    {add : Option Container}
    (givenAdd : Given host addDataPck add) (begunAdd : Begun add)
    (fits : composedLength none add none ≤ maxMsgLen) : Sendable host none addDataPck none add :=
  { givenEnc := .absent
    givenAdd := givenAdd
    begunEnc := begun_none
    begunAdd := begunAdd
    fits := fits }

/-- What has been built can be given. -/
theorem given_of_built {object : Block pckDataIncrements} {elements : List Bytes}
    (built : Built host object elements) :
    ∃ container : Container, container.elements = elements ∧
      Given host (some object) (some container) := by
  obtain ⟨container, rest, content, -, same⟩ := built
  exact ⟨container, same, .present content⟩

end Sending

/-! ### Receiving -/

section Receiving

variable {host : ByteOrder} {gcm : Gcm} {gcmKey iv rest : Bytes} {enc add : Option Container}
  {pckGSettings nonce : UInt32} {memory : Block maxMsgLen}

/-- The containers of a frame that has been received whole were sent in a message that fits. -/
theorem fits_of_content (vector : iv.length = ivLen)
    (content : memory.bytes = frame gcm gcmKey iv enc add pckGSettings nonce ++ rest) :
    composedLength enc add none ≤ maxMsgLen := by
  have total := memory.allocated
  rw [content, List.length_append, length_frame _ _ _ _ _ _ vector] at total
  omega

/-- A frame that has come in is printed and left as it was. -/
theorem printMessage_frame (vector : iv.length = ivLen) (begunAdd : Begun add)
    (content : memory.bytes = frame gcm gcmKey iv enc add pckGSettings nonce ++ rest) :
    printMessage host memory true true = .ok memory := by
  have fits : composedLength enc add none ≤ 255 := fits_of_content vector content
  have printsAdd : Prints host true _ _ := prints_serialized add
  rw [givenPrinted_eq (begunAdd.settled host)] at printsAdd
  have whole := length_frame gcm gcmKey enc add pckGSettings nonce vector
  obtain ⟨left, ran, result⟩ := printMessage_ok true (if_pos rfl).symm (sealedFrame vector) content
    (by simp) (whole ▸ by omega) .absent printsAdd (.masked _)
  obtain rfl : left = memory := Block.eq_of_bytes (result.trans content.symm)
  exact ran

/-- An opened message is printed and left as it was. -/
theorem printMessage_opened {tag : Bytes} (sized : Sealed iv tag)
    (content : memory.bytes = openedMessage host iv tag 0 enc add pckGSettings nonce ++ rest) :
    printMessage host memory false false = .ok memory := by
  have total : (openedMessage host iv tag 0 enc add pckGSettings nonce).length + rest.length =
      255 := by
    rw [← List.length_append, ← content]
    exact memory.allocated
  obtain ⟨left, ran, result⟩ := printMessage_ok false (if_neg (by decide)).symm sized content
    (by simp) (by rw [openedMessage] at total; omega) .absent (prints_plain add)
    (.plain _ (by simp) (prints_plain enc))
  obtain rfl : left = memory := Block.eq_of_bytes (result.trans content.symm)
  exact ran

/-- A frame is opened under the key it was sealed with. -/
theorem decryptPckData_frame (host : ByteOrder) (vector : iv.length = ivLen)
    (content : memory.bytes = frame gcm gcmKey iv enc add pckGSettings nonce ++ rest)
    (outputBuf : Block maxMsgLen) :
    ∃ opened : Decrypted maxMsgLen maxMsgLen,
      decryptPckData host gcm gcmKey memory outputBuf = .ok opened ∧
        opened.returnValue = 0 ∧
        opened.encryptedMsg.bytes =
          openedMessage host iv (gcm.tagOf gcmKey iv (addSection add)
            (cipherSection gcm gcmKey iv enc pckGSettings nonce)) 0 enc add pckGSettings nonce ++
              rest ∧
        opened.outputBuf.bytes =
          settingsBytes host nonce pckGSettings ++ (givenBytes host enc ++
            outputBuf.bytes.drop (protocolSpecificEncryptedDataLen + givenLength enc)) := by
  have fits : composedLength enc add none ≤ 255 := fits_of_content vector content
  have sizes := layout
  have room : maxMsgLen = 255 := rfl
  unfold composedLength at fits
  obtain ⟨opened, ran, returned, inMessage, inOutput⟩ := decryptPckData_ok host
    (sealedFrame vector) content (gcm.authDecrypt_crypt ..) (by decide) outputBuf
    (by rw [length_cipherSection]; omega)
  exact ⟨opened, ran, returned, inMessage, by rw [inOutput, length_cipherSection]⟩

/-- The three lengths of a frame as both ends read them. -/
theorem frame_lengths (host : ByteOrder)
    (content : memory.bytes = frame gcm gcmKey iv enc add pckGSettings nonce ++ rest) :
    ∃ msgLenWord addLenWord extraLenWord,
      memory.load32 host 0 = .ok msgLenWord ∧ memory.load32 host 4 = .ok addLenWord ∧
        memory.load32 host 8 = .ok extraLenWord ∧
        ntohl host msgLenWord = UInt32.ofNat (composedLength enc add none) ∧
        ntohl host addLenWord = UInt32.ofNat (protocolSpecificAddLen + givenLength add) ∧
        ntohl host extraLenWord = UInt32.ofNat 0 := by
  obtain ⟨total, addWord, extraWord⟩ := message_lengths host (message_sections content)
  rw [length_addSection] at total addWord
  rw [length_cipherSection] at total
  exact ⟨_, _, _, total, addWord, extraWord, ntohl_decode_big _ _, ntohl_decode_big _ _,
    ntohl_decode_big _ _⟩

/-- Where the ADD container of a message lies. -/
theorem add_place {order : ByteOrder} {tag version container encrypted : Bytes}
    (sized : Sealed iv tag) (versioned : version.length = protocolSpecificAddLen)
    (content : memory.bytes = message order iv tag [] (version ++ container) encrypted ++ rest) :
    ∃ front : Bytes, front.length = headerLen + protocolSpecificAddLen ∧
      memory.bytes = front ++ (container ++ (encrypted ++ rest)) := by
  refine ⟨messageHead order iv tag ([] : Bytes).length (version ++ container).length
    encrypted.length ++ version, ?_, ?_⟩
  · rw [List.length_append, length_messageHead _ sized, versioned]
  · simpa only [List.append_assoc, List.nil_append] using message_sections content

/-- Where the encrypted section of a message lies. -/
theorem encrypted_place {order : ByteOrder} {tag located encrypted : Bytes}
    (sized : Sealed iv tag)
    (content : memory.bytes = message order iv tag [] located encrypted ++ rest) :
    ∃ front : Bytes, front.length = headerLen + located.length ∧
      memory.bytes = front ++ (encrypted ++ rest) := by
  refine ⟨messageHead order iv tag ([] : Bytes).length located.length encrypted.length ++
    located, ?_, ?_⟩
  · rw [List.length_append, length_messageHead _ sized]
  · simpa only [List.append_assoc, List.nil_append] using message_sections content

/-- Where the encrypted container of a frame lies. -/
def encryptedPckDataPtr (add : Option Container) : Nat :=
  headerLen + (protocolSpecificAddLen + givenLength add) + protocolSpecificEncryptedDataLen

/-- The nonce and the container of a frame that has been opened. -/
theorem opened_place {tag : Bytes} (sized : Sealed iv tag)
    (content : memory.bytes = openedMessage host iv tag 0 enc add pckGSettings nonce ++ rest) :
    memory.load32 host (headerLen + (protocolSpecificAddLen + givenLength add)) = .ok nonce ∧
      ∃ front : Bytes, front.length = encryptedPckDataPtr add ∧
        memory.bytes = front ++ (givenBytes host enc ++ rest) := by
  obtain ⟨front, atEncrypted, place⟩ := encrypted_place sized content
  have addSize : (host.encode 0 ++ givenBytes host add).length =
      protocolSpecificAddLen + givenLength add := by
    simp
  rw [addSize] at atEncrypted
  constructor
  · have noncePlace : memory.bytes = front ++ (host.encode nonce ++
        (host.encode pckGSettings ++ (givenBytes host enc ++ rest))) := by
      simpa only [settingsBytes, List.append_assoc] using place
    rw [Block.load32_append host _ noncePlace atEncrypted (by simp), ByteOrder.decode_encode]
  · refine ⟨front ++ settingsBytes host nonce pckGSettings, ?_, ?_⟩
    · rw [List.length_append, atEncrypted, length_settingsBytes, encryptedPckDataPtr]
    · simpa only [List.append_assoc] using place

end Receiving

/-! ### The node -/

section Node

variable {host : ByteOrder} {gcm : Gcm} {ecdh : Ecdh} {env : NodeClient.NodeEnv}
  {connInfo : ConnInfo} {node : NodeClient.NodeState} {message : Block maxMsgLen}
  {iv rest : Bytes} {enc add : Option Container} {pckGSettings nonce : UInt32}

/-- What a command of the session does: one handler is called, and nothing else changes. -/
theorem dispatchCommand_cases {pointer : Nat} {result : NodeClient.NodeResult}
    (ran : NodeClient.dispatchCommand host env connInfo node message pointer = .ok result) :
    ∃ call printed, result =
      { returnValue := 0
        connInfo := some connInfo
        node := node
        message := printed
        called := some call } := by
  obtain ⟨printed, -, ran⟩ := bind_eq_ok.mp ran
  obtain ⟨_, -, ran⟩ := bind_eq_ok.mp ran
  obtain ⟨_, -, ran⟩ := bind_eq_ok.mp ran
  obtain ⟨argsLen, -, ran⟩ := bind_eq_ok.mp ran
  split at ran
  · cases ran
  · obtain ⟨_, -, ran⟩ := bind_eq_ok.mp ran
    obtain ⟨command, -, ran⟩ := bind_eq_ok.mp ran
    obtain ⟨_, -, ran⟩ := bind_eq_ok.mp ran
    exact ⟨_, printed, (Except.ok.inj ran).symm⟩

/-- The node opens a frame that has been encrypted under its key, and goes on by its session. -/
theorem clientProcessMsg_frame (host : ByteOrder) (ecdh : Ecdh) (env : NodeClient.NodeEnv)
    (connInfo : ConnInfo) (vector : iv.length = ivLen) (begunAdd : Begun add)
    (content : message.bytes =
      frame gcm node.pointerToKey.bytes iv enc add pckGSettings nonce ++ rest) :
    ∃ tag, Sealed iv tag ∧ ∃ opened buffer : Block maxMsgLen,
      NodeClient.processMsg host gcm ecdh env (some connInfo) node message =
          (if connInfo.sessionId = 0 then
            NodeClient.takeNonce host connInfo { node with decryptionBuffer := buffer } opened
          else
            NodeClient.dispatchCommand host env connInfo { node with decryptionBuffer := buffer }
              opened (encryptedPckDataPtr add)) ∧
        opened.bytes = openedMessage host iv tag 0 enc add pckGSettings nonce ++ rest ∧
        buffer.bytes = settingsBytes host nonce pckGSettings ++ (givenBytes host enc ++
          node.decryptionBuffer.bytes.drop
            (protocolSpecificEncryptedDataLen + givenLength enc)) := by
  obtain ⟨msgLenWord, addLenWord, extraLenWord, total, addWord, extraWord, -, addLen, extraLen⟩ :=
    frame_lengths host content
  obtain ⟨decrypted, ran, -, inMessage, inOutput⟩ :=
    decryptPckData_frame host vector content node.decryptionBuffer
  have fits : composedLength enc add none ≤ 255 := fits_of_content vector content
  unfold composedLength at fits
  have addNat : (UInt32.ofNat (protocolSpecificAddLen + givenLength add)).toNat =
      protocolSpecificAddLen + givenLength add := toNat_ofNat_short (by omega)
  have extraNat : (UInt32.ofNat 0).toNat = 0 := rfl
  refine ⟨_, sealedFrame vector, decrypted.encryptedMsg, decrypted.outputBuf, ?_, inMessage,
    inOutput⟩
  simp only [NodeClient.processMsg, total, addWord, extraWord, ok_bind, addLen, extraLen,
    addNat, extraNat, Nat.add_zero, printMessage_frame vector begunAdd content, NodeClient.processConnected, ran,
    encryptedPckDataPtr]

end Node

/-! ### The server -/

section Server

open RentMate.MainServer (ServerEnv ServerState DevInfo Identity findDevInfo)

variable {host : ByteOrder} {gcm : Gcm} {ecdh : Ecdh} {env : ServerEnv}
  {connInfo : ConnInfo} {server : ServerState} {msg : Block maxMsgLen} {devInfo : DevInfo}
  {devId : Block devIdLen} {front iv rest : Bytes} {enc : Option Container}
  {container : Container} {pckData index : Nat} {pckGSettings nonce : UInt32}

/-- The ADD container of a frame names its sender: the DEVID comes first, and what follows it are
single bytes. -/
structure NamesDevice (devId : Block devIdLen) (container : Container) : Prop where
  first : container.elements[0]? = some devId.bytes
  bytes : ∀ index element, 0 < index → container.elements[index]? = some element →
    element.length = 1

/-- A container that names a device has elements. -/
theorem NamesDevice.begun (names : NamesDevice devId container) : container.elements ≠ [] := by
  intro empty
  have first := names.first
  simp [empty] at first

/-- The type of the device takes one byte at most. -/
theorem NamesDevice.shortType (names : NamesDevice devId container) (element : Bytes)
    (known : container.elements[1]? = some element) : element.length ≤ 1 :=
  Nat.le_of_eq (names.bytes 1 element Nat.one_pos known)

/-- The connection type takes one byte at most. -/
theorem NamesDevice.shortConnection (names : NamesDevice devId container) (element : Bytes)
    (known : container.elements[2]? = some element) : element.length ≤ 1 :=
  Nat.le_of_eq (names.bytes 2 element Nat.two_pos known)

/-- A container with nothing but a DEVID names its device. -/
theorem names_alone (same : container.elements = [devId.bytes]) : NamesDevice devId container := by
  refine ⟨by simp [same], ?_⟩
  intro index element behind known
  rw [same, List.getElem?_eq_none behind] at known
  cases known

/-- An element that the array has room for is read or is missing. -/
theorem getElement_short {outputSize : Nat} (begun : container.elements ≠ [])
    (short : ∀ element, container.elements[index]? = some element → element.length ≤ outputSize)
    (content : msg.bytes = front ++ (container.bytes host ++ rest))
    (position : front.length = pckData) (output : Block outputSize) :
    ∃ found written,
      getElementFromPckData host msg pckData output index = .ok (found, written) := by
  cases known : container.elements[index]? with
  | none =>
      have missing : container.elements.length ≤ index := List.getElem?_eq_none_iff.mp known
      exact ⟨minusOne, output, getElement_missing content position begun missing⟩
  | some element =>
      have inside := (List.getElem?_eq_some_iff.mp known).1
      by_cases last : element = [] ∧ index + 1 = container.elements.length
      · obtain ⟨rfl, last⟩ := last
        exact ⟨minusOne, output, getElement_empty content position known last⟩
      · have copied : element ≠ [] ∨ index + 1 < container.elements.length := by
          by_cases empty : element = []
          · exact .inr (Nat.lt_of_le_of_ne inside fun same => last ⟨empty, same⟩)
          · exact .inl empty
        obtain ⟨written, ran, -⟩ := getElement_ok output content position known copied
          (short element known)
        exact ⟨_, written, ran⟩

/-- A first ADD element that is copied is the beginning of the DEVID. The frame is left as it
was. -/
theorem readIdentity_read (host : ByteOrder) (env : ServerEnv) {first : Bytes}
    (begins : container.elements[0]? = some first)
    (copied : first ≠ [] ∨ 0 + 1 < container.elements.length) (short : first.length ≤ devIdLen)
    (shortType : ∀ element, container.elements[1]? = some element → element.length ≤ 1)
    (shortConnection : ∀ element, container.elements[2]? = some element → element.length ≤ 1)
    (content : msg.bytes = front ++ (container.bytes .big ++ rest))
    (position : front.length = pckData) :
    ∃ identity : Identity,
      identity.devIdFromMessage.bytes = first ++ env.devIdFromMessage.bytes.drop first.length ∧
        MainServer.readIdentity host env msg pckData = .ok (some identity, msg) := by
  obtain ⟨converted, toHost, inHost⟩ := pckDataToHostOrder_ok host container content position
  have begun : container.elements ≠ [] := by
    intro empty
    simp [empty] at begins
  obtain ⟨devIdRead, ranDevId, filled⟩ := getElement_ok env.devIdFromMessage inHost position
    begins copied short
  obtain ⟨foundType, devType, ranDevType⟩ := getElement_short begun shortType inHost position
    (Block.fill 1 0)
  obtain ⟨foundConnection, connectionType, ranType⟩ :=
    getElement_short begun shortConnection inHost position (Block.fill 1 0)
  obtain ⟨restored, toNetwork, inNetwork⟩ :=
    pckDataToNetworkOrder_ok host container inHost position
  obtain rfl : restored = msg := Block.eq_of_bytes (inNetwork.trans content.symm)
  have sixteen : devIdLen = 16 := rfl
  have known : UInt32.ofNat first.length ≠ minusOne := ofNat_ne_minusOne (by omega)
  refine ⟨⟨devIdRead, devType.bytes.getD 0 0, connectionType.bytes.getD 0 0⟩, filled, ?_⟩
  simp only [MainServer.readIdentity, toHost, ranDevId, ok_bind, if_neg known, ranDevType, ranType,
    toNetwork, pure_eq_ok]

/-- The server reads the DEVID that comes first in an ADD container, and leaves the frame as it
was. -/
theorem readIdentity_first (host : ByteOrder) (env : ServerEnv)
    (first : container.elements[0]? = some devId.bytes)
    (shortType : ∀ element, container.elements[1]? = some element → element.length ≤ 1)
    (shortConnection : ∀ element, container.elements[2]? = some element → element.length ≤ 1)
    (content : msg.bytes = front ++ (container.bytes .big ++ rest))
    (position : front.length = pckData) :
    ∃ identity : Identity, identity.devIdFromMessage = devId ∧
      MainServer.readIdentity host env msg pckData = .ok (some identity, msg) := by
  have sixteen := devId.allocated
  have some : devId.bytes ≠ [] := by
    intro empty
    simp [empty] at sixteen
  obtain ⟨identity, filled, ran⟩ := readIdentity_read host env first (.inl some)
    (Nat.le_of_eq sixteen) shortType shortConnection content position
  refine ⟨identity, Block.eq_of_bytes ?_, ran⟩
  rw [filled, sixteen, List.drop_of_length_le (Nat.le_of_eq env.devIdFromMessage.allocated),
    List.append_nil]

/-- The server reads the DEVID from the ADD container and leaves the frame as it was. -/
theorem readIdentity_ok (host : ByteOrder) (env : ServerEnv) (names : NamesDevice devId container)
    (content : msg.bytes = front ++ (container.bytes .big ++ rest))
    (position : front.length = pckData) :
    ∃ identity : Identity, identity.devIdFromMessage = devId ∧
      MainServer.readIdentity host env msg pckData = .ok (some identity, msg) :=
  readIdentity_first host env names.first names.shortType names.shortConnection content position

/-- The server opens a frame that has been encrypted under the key of the device that its first ADD
element names. -/
theorem serverProcessMsg_first (host : ByteOrder) (ecdh : Ecdh) (env : ServerEnv)
    (vector : iv.length = ivLen) (first : container.elements[0]? = some devId.bytes)
    (shortType : ∀ element, container.elements[1]? = some element → element.length ≤ 1)
    (shortConnection : ∀ element, container.elements[2]? = some element → element.length ≤ 1)
    (fromNode : connInfo.connectionType = 0)
    (registered : findDevInfo server.devInfos devId.bytes = some devInfo)
    (content : msg.bytes =
      frame gcm devInfo.key.bytes iv enc (some container) pckGSettings nonce ++ rest) :
    ∃ tag, Sealed iv tag ∧ ∃ opened buffer : Block maxMsgLen,
      MainServer.processMsg host gcm ecdh env connInfo server msg =
          MainServer.processDecrypted host gcm env connInfo
            { server with decryptedMsgBuffer := buffer } opened
            (headerLen + (protocolSpecificAddLen + container.length)) devInfo devId.bytes ∧
        opened.bytes =
          openedMessage host iv tag 0 enc (some container) pckGSettings nonce ++ rest := by
  have fits : composedLength enc (some container) none ≤ 255 := fits_of_content vector content
  unfold composedLength at fits
  have lengthIs : givenLength (some container) = container.length := rfl
  obtain ⟨msgLenWord, addLenWord, extraLenWord, total, addWord, extraWord, msgLen, addLen,
    extraLen⟩ := frame_lengths host content
  -- The DEVID in the ADD section
  obtain ⟨front, atAdd, place⟩ := add_place (sealedFrame vector) (by simp) content
  obtain ⟨identity, rfl, identified⟩ :=
    readIdentity_first host env first shortType shortConnection place atAdd
  have begun : container.elements ≠ [] := by
    intro empty
    simp [empty] at first
  -- The decryption, and the copy of what it gave over itself
  obtain ⟨decrypted, ran, returned, inMessage, inOutput⟩ :=
    decryptPckData_frame host vector content server.decryptedMsgBuffer
  have plain : decrypted.outputBuf.bytes = [] ++ ((settingsBytes host nonce pckGSettings ++
      givenBytes host enc) ++ server.decryptedMsgBuffer.bytes.drop
        (protocolSpecificEncryptedDataLen + givenLength enc)) := by
    simpa only [List.append_assoc, List.nil_append] using inOutput
  have plainSize : (settingsBytes host nonce pckGSettings ++ givenBytes host enc).length =
      protocolSpecificEncryptedDataLen + givenLength enc := by
    simp
  have readPlain := Block.read_append 0 _ plain rfl plainSize
  obtain ⟨before, atEncrypted, encryptedPlace⟩ := encrypted_place (sealedFrame vector) inMessage
  have addSize : (host.encode 0 ++ givenBytes host (some container)).length =
      protocolSpecificAddLen + container.length := by
    simp [givenLength]
  rw [addSize] at atEncrypted
  obtain ⟨copied, wrote, filled⟩ := Block.write_append _ encryptedPlace atEncrypted rfl
  obtain rfl : copied = decrypted.encryptedMsg :=
    Block.eq_of_bytes (filled.trans encryptedPlace.symm)
  refine ⟨_, sealedFrame vector, decrypted.encryptedMsg, decrypted.outputBuf, ?_, inMessage⟩
  have addNat : (UInt32.ofNat (protocolSpecificAddLen + givenLength (some container))).toNat =
      protocolSpecificAddLen + givenLength (some container) := toNat_ofNat_short (by omega)
  have extraNat : (UInt32.ofNat 0).toNat = 0 := rfl
  have plainLen : (UInt32.ofNat (composedLength enc (some container) none) -
      (UInt32.ofNat headerLen + UInt32.ofNat 0 +
        UInt32.ofNat (protocolSpecificAddLen + givenLength (some container)))).toNat =
          protocolSpecificEncryptedDataLen + givenLength enc := by
    rw [composedLength, givenLength, encryptedLen_eq]
    exact toNat_ofNat_short (by omega)
  have beforeNat : (UInt32.ofNat headerLen + UInt32.ofNat 0 +
      UInt32.ofNat (protocolSpecificAddLen + givenLength (some container))).toNat =
        headerLen + (protocolSpecificAddLen + container.length) := by
    rw [← UInt32.ofNat_add, ← UInt32.ofNat_add]
    exact toNat_ofNat_short (by omega)
  simp only [MainServer.processMsg, total, addWord, extraWord, ok_bind, msgLen, addLen, extraLen,
    addNat, extraNat, Nat.add_zero, fromNode, if_true,
    printMessage_frame vector (begun_some begun) content, identified, registered,
    MainServer.processKnown, ran, returned, not_true, ne_eq, if_false, plainLen, beforeNat,
    readPlain, wrote, printMessage_opened (sealedFrame vector) inMessage]
  rfl

/-- The server opens a frame that has been encrypted under the key of the device it names. -/
theorem serverProcessMsg_frame (host : ByteOrder) (ecdh : Ecdh) (env : ServerEnv)
    (vector : iv.length = ivLen) (names : NamesDevice devId container)
    (fromNode : connInfo.connectionType = 0)
    (registered : findDevInfo server.devInfos devId.bytes = some devInfo)
    (content : msg.bytes =
      frame gcm devInfo.key.bytes iv enc (some container) pckGSettings nonce ++ rest) :
    ∃ tag, Sealed iv tag ∧ ∃ opened buffer : Block maxMsgLen,
      MainServer.processMsg host gcm ecdh env connInfo server msg =
          MainServer.processDecrypted host gcm env connInfo
            { server with decryptedMsgBuffer := buffer } opened
            (headerLen + (protocolSpecificAddLen + container.length)) devInfo devId.bytes ∧
        opened.bytes =
          openedMessage host iv tag 0 enc (some container) pckGSettings nonce ++ rest :=
  serverProcessMsg_first host ecdh env vector names.first names.shortType names.shortConnection
    fromNode registered content

/-- With the other side's nonce and a session id a message is dispatched. -/
theorem processDecrypted_session {encryptedDataPtr : Nat} {devIdBytes : Bytes}
    (nonceTaken : connInfo.remoteNonce ≠ 0) (established : connInfo.sessionId ≠ 0) :
    MainServer.processDecrypted host gcm env connInfo server msg encryptedDataPtr devInfo
        devIdBytes =
      MainServer.dispatchMessage host env connInfo server msg
        (encryptedDataPtr + protocolSpecificEncryptedDataLen) devIdBytes := by
  rw [MainServer.processDecrypted, if_neg fun both => nonceTaken both.2,
    if_neg fun both => nonceTaken both.1, if_pos established]

end Server

end RentMate.SessionCodec
