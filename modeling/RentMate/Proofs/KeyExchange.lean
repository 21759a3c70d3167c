/-
Module: RentMate.Proofs.KeyExchange
Purpose: Key exchanges between a node and the server over connections that can be lost at any
  step, with a node that begins again while frames of earlier exchanges are still unread, and that
  can be restarted without its key: in which runs a node without a key always gets one that the
  server has, too.
Trusted boundary: none
Main exports: Pairing, pair, Recoverable, Harmless, exchange_ran, recoverable_iff
-/
import RentMate.Machine.Run
import RentMate.NodeClient.Link
import RentMate.Proofs.SessionCodec

namespace RentMate.KeyExchange

open RentMate.Machine
open RentMate.PckData
open RentMate.MainServer (ServerEnv ServerState ServerResult DevInfo Identity findDevInfo)
open RentMate.NodeClient (NodeEnv NodeState NodeResult startKeyExchange startedNode targetDevtype)
open RentMate.ContainerCodec
open RentMate.MessageCodec
open RentMate.SessionCodec
open RentMate.ServerSteps

/-! ### Frames without encryption -/

/-- The frame of a key exchange. Where the tag belongs, it has what the buffer held. -/
def plainFrame (iv tag : Bytes) (add extra : Option Container) : Bytes :=
  message .big iv tag (givenBytes .big extra) (addSection add)
    (settingsBytes .big 0 0 ++ givenBytes .big none)

section PlainFrames

variable {host : ByteOrder} {gcm : Gcm} {iv tag rest : Bytes} {add extra : Option Container}
  {memory : Block maxMsgLen} {addDataPck extraDataPck : Option (Block pckDataIncrements)}

/-- A frame of a key exchange is as long as the message that was composed. -/
theorem length_plainFrame (sized : Sealed iv tag) :
    (plainFrame iv tag add extra).length = composedLength none add extra := by
  rw [plainFrame, length_message sized]
  simp [composedLength, givenLength]

/-- The vector is the one that was drawn, and the tag is what the buffer held. -/
theorem sealed_plain (newIv : Block ivLen) (outBuf : Block maxMsgLen) :
    Sealed newIv.bytes (slice outBuf.bytes tagPtr tagLen) :=
  ⟨newIv.allocated, length_slice (by rw [outBuf.allocated]; decide)⟩

/-- A frame of a key exchange is printed and left as it was. -/
theorem printMessage_plainFrame (host : ByteOrder) (sized : Sealed iv tag) (begunAdd : Begun add)
    (begunExtra : Begun extra) (content : memory.bytes = plainFrame iv tag add extra ++ rest) :
    printMessage host memory true true = .ok memory := by
  have total := memory.allocated
  have room : maxMsgLen = 255 := rfl
  rw [content, List.length_append, length_plainFrame sized] at total
  have printsAdd : Prints host true _ _ := prints_serialized add
  have printsExtra : Prints host true _ _ := prints_serialized extra
  rw [givenPrinted_eq (begunAdd.settled host)] at printsAdd
  rw [givenPrinted_eq (begunExtra.settled host)] at printsExtra
  have whole : (plainFrame iv tag add extra).length = composedLength none add extra :=
    length_plainFrame sized
  obtain ⟨left, ran, result⟩ := printMessage_ok true (if_pos rfl).symm sized content (by simp)
    (lt_of_eq_of_lt whole (by omega)) printsExtra printsAdd (.masked _)
  obtain rfl : left = memory := Block.eq_of_bytes (result.trans content.symm)
  exact ran

/-- A send without a key puts the frame together and sends it. -/
theorem sendPlain_ok (gcm : Gcm) (givenAdd : Given host addDataPck add)
    (givenExtra : Given host extraDataPck extra) (begunAdd : Begun add) (begunExtra : Begun extra)
    (fits : composedLength none add extra ≤ maxMsgLen) (draw : Draw) (outBuf : Block maxMsgLen) :
    ∃ out,
      encryptAndSendAll host gcm none none none addDataPck extraDataPck 0 draw outBuf =
        .ok
          { returnValue := 0
            connInfo := none
            outBuf := out
            sent := some (plainFrame draw.newIv.bytes (slice outBuf.bytes tagPtr tagLen) add
              extra) } := by
  obtain ⟨composed, tag, ran, rfl, encLen, addLen, extraLen, msgLen, sized, content⟩ :=
    composePckData_ok .absent givenAdd givenExtra 0 0 draw.newIv outBuf (by decide) fits
  have frameContent : composed.outputBuf.bytes =
      plainFrame draw.newIv.bytes (slice outBuf.bytes tagPtr tagLen) add extra ++
        outBuf.bytes.drop (composedLength none add extra) := content
  have room : maxMsgLen = 255 := rfl
  have whole : (plainFrame draw.newIv.bytes (slice outBuf.bytes tagPtr tagLen) add extra).length =
      composedLength none add extra := length_plainFrame sized
  -- The first print shows the settings, too.
  have printsAdd : Prints host true _ _ := prints_serialized add
  have printsExtra : Prints host true _ _ := prints_serialized extra
  have printsNone : Prints host true _ _ := prints_serialized none
  rw [givenPrinted_eq (begunAdd.settled host)] at printsAdd
  rw [givenPrinted_eq (begunExtra.settled host)] at printsExtra
  obtain ⟨shown, printedFirst, contentShown⟩ := printMessage_ok false (if_pos rfl).symm sized
    content (by simp) (lt_of_eq_of_lt whole (by omega)) printsExtra printsAdd
    (.plain _ (by simp) printsNone)
  obtain rfl : shown = composed.outputBuf := Block.eq_of_bytes (contentShown.trans content.symm)
  have counted : composed.msgLen.toNat =
      (plainFrame draw.newIv.bytes (slice outBuf.bytes tagPtr tagLen) add extra).length := by
    rw [msgLen, whole]
    exact toNat_ofNat_short (by omega)
  refine ⟨composed.outputBuf, ?_⟩
  simp only [encryptAndSendAll, sendMessage, encryptPckData, ran, ok_bind, printedFirst,
    printMessage_plainFrame host sized begunAdd begunExtra frameContent, pure_eq_ok,
    sendall_append frameContent counted (by omega)]

/-- The words of a frame that say how long its sections are, as both ends read them. -/
theorem plainFrame_lengths (host : ByteOrder)
    (content : memory.bytes = plainFrame iv tag add extra ++ rest) :
    ∃ msgLenWord addLenWord extraLenWord,
      memory.load32 host 0 = .ok msgLenWord ∧ memory.load32 host 4 = .ok addLenWord ∧
        memory.load32 host 8 = .ok extraLenWord ∧
        ntohl host addLenWord = UInt32.ofNat (protocolSpecificAddLen + givenLength add) ∧
        ntohl host extraLenWord = UInt32.ofNat (givenLength extra) := by
  obtain ⟨total, addWord, extraWord⟩ := message_lengths host (message_sections content)
  rw [length_addSection] at addWord
  rw [length_givenBytes] at extraWord
  exact ⟨_, _, _, total, addWord, extraWord, ntohl_decode_big _ _, ntohl_decode_big _ _⟩

/-- Where the extra container of a frame lies. -/
theorem plainFrame_extra {container : Container} (sized : Sealed iv tag)
    (content : memory.bytes = plainFrame iv tag add (some container) ++ rest) :
    ∃ front behind : Bytes, front.length = headerLen ∧
      memory.bytes = front ++ (container.bytes .big ++ behind) :=
  ⟨_, _, length_messageHead _ sized _ _ _, message_sections content⟩

/-- Where the ADD container of a frame lies. -/
theorem plainFrame_add {container : Container} (sized : Sealed iv tag)
    (content : memory.bytes = plainFrame iv tag (some container) extra ++ rest) :
    ∃ front behind : Bytes,
      front.length = headerLen + givenLength extra + protocolSpecificAddLen ∧
        memory.bytes = front ++ (container.bytes .big ++ behind) := by
  have sections := message_sections content
  refine ⟨messageHead .big iv tag (givenBytes .big extra).length
    (addSection (some container)).length
    (settingsBytes .big 0 0 ++ givenBytes .big none).length ++
      (givenBytes .big extra ++ ByteOrder.big.encode 0),
    settingsBytes .big 0 0 ++ givenBytes .big none ++ rest, ?_, ?_⟩
  · rw [List.length_append, length_messageHead _ sized, List.length_append, length_givenBytes,
      ByteOrder.encode_length]
    exact (Nat.add_assoc _ _ _).symm
  · rw [sections]
    simp only [addSection, givenBytes, List.append_assoc]

/-- The public key that comes first in an extra container is read, and the frame is left as it
was. -/
theorem readKey_ok {container : Container} {front behind : Bytes} {pckData : Nat}
    {publicKey : Block eccPubKeySize} (host : ByteOrder) (output : Block eccPubKeySize)
    (first : container.elements[0]? = some publicKey.bytes)
    (content : memory.bytes = front ++ (container.bytes .big ++ behind))
    (position : front.length = pckData) :
    ∃ converted found, pckDataToHostOrder host memory pckData = .ok converted ∧
      getElementFromPckData host converted pckData output 0 = .ok (found, publicKey) ∧
      pckDataToNetworkOrder host converted pckData = .ok memory := by
  obtain ⟨converted, toHost, inHost⟩ := pckDataToHostOrder_ok host container content position
  have begun : publicKey.bytes ≠ [] := by
    intro empty
    have size := publicKey.allocated
    simp [empty] at size
  obtain ⟨read, same, ran⟩ := getElement_full output inHost position first begun
    publicKey.allocated
  obtain rfl : read = publicKey := Block.eq_of_bytes same
  obtain ⟨restored, toNetwork, inNetwork⟩ :=
    pckDataToNetworkOrder_ok host container inHost position
  obtain rfl : restored = memory := Block.eq_of_bytes (inNetwork.trans content.symm)
  exact ⟨converted, _, toHost, ran, toNetwork⟩

end PlainFrames

/-! ### The three steps of an exchange -/

section Steps

variable {nodeHost host : ByteOrder} {gcm : Gcm} {ecdh : Ecdh} {devId : Block devIdLen}

/-- The public key of the side that draws this private key. -/
def publicKeyOf (ecdh : Ecdh) (drawn : Block eccPrvKeySize) : Block eccPubKeySize :=
  (ecdh.generateKeys drawn).2.1

/-- The private key as the library leaves it. -/
def privateKeyOf (ecdh : Ecdh) (drawn : Block eccPrvKeySize) : Block eccPrvKeySize :=
  (ecdh.generateKeys drawn).2.2

/-- An extra container with nothing but a public key. -/
theorem keyContainer_ok (host : ByteOrder) (malloced : Block pckDataIncrements)
    (publicKey : Block eccPubKeySize) :
    ∃ begun built container, initPckData host malloced = .ok begun ∧
      appendToPckData host begun publicKey.bytes = .ok built ∧
      container.elements = [publicKey.bytes] ∧ Given host (some built) (some container) := by
  obtain ⟨begun, ranInit, builtBegun⟩ := initPckData_ok host malloced
  obtain ⟨built, ranAppend, builtKey⟩ := appendToPckData_ok builtBegun publicKey.bytes
    (by rw [publicKey.allocated]; decide)
  obtain ⟨container, same, given⟩ := given_of_built builtKey
  exact ⟨begun, built, container, ranInit, ranAppend, same, given⟩

/-- The frame that begins an exchange: its containers are the same whatever the node sends it
from. -/
theorem startKeyExchange_ok (nodeHost : ByteOrder) (gcm : Gcm) (ecdh : Ecdh)
    (addMalloced extraMalloced : Block pckDataIncrements) (drawn : Block eccPrvKeySize)
    (devId : Block devIdLen) :
    ∃ add extra, NamesDevice devId add ∧ extra.elements = [(publicKeyOf ecdh drawn).bytes] ∧
      composedLength none (some add) (some extra) ≤ maxMsgLen ∧
      ∀ draw node (outBuf : Block maxMsgLen), ∃ out,
      startKeyExchange nodeHost gcm ecdh addMalloced extraMalloced drawn draw devId node outBuf =
        .ok ({ node with privateDHKeyBuffer := privateKeyOf ecdh drawn },
          { returnValue := 0
            connInfo := none
            outBuf := out
            sent := some (plainFrame draw.newIv.bytes (slice outBuf.bytes tagPtr tagLen) (some add)
              (some extra)) }) := by
  obtain ⟨begun, ranInit, builtBegun⟩ := initPckData_ok nodeHost addMalloced
  obtain ⟨withId, ranId, builtId⟩ := appendToPckData_ok builtBegun devId.bytes
    (by rw [devId.allocated]; decide)
  have roomType : 8 + elementsLength ([] ++ [devId.bytes]) + 4 + 1 ≤ pckDataIncrements := by
    simp only [elementsLength, List.nil_append, List.map_cons, List.map_nil, devId.allocated]
    decide
  obtain ⟨withType, ranType, builtType⟩ := appendToPckData_ok builtId [targetDevtype] roomType
  have roomConnection :
      8 + elementsLength ([] ++ [devId.bytes] ++ [[targetDevtype]]) + 4 + 1 ≤ pckDataIncrements := by
    simp only [elementsLength, List.nil_append, List.cons_append, List.map_cons, List.map_nil,
      devId.allocated]
    decide
  obtain ⟨withConnection, ranConnection, builtConnection⟩ :=
    appendToPckData_ok builtType [1] roomConnection
  obtain ⟨add, sameAdd, givenAdd⟩ := given_of_built builtConnection
  obtain ⟨extraBegun, extraBuilt, extra, ranExtra, ranKey, sameExtra, givenExtra⟩ :=
    keyContainer_ok nodeHost extraMalloced (publicKeyOf ecdh drawn)
  have names : NamesDevice devId add := by
    refine ⟨by simp [sameAdd], ?_⟩
    intro index element behind known
    simp only [sameAdd] at known
    rcases index with _ | _ | _ | more
    · exact absurd behind (Nat.lt_irrefl 0)
    · obtain rfl := Option.some.inj known
      rfl
    · obtain rfl := Option.some.inj known
      rfl
    · simp at known
  have fits : composedLength none (some add) (some extra) ≤ maxMsgLen := by
    simp only [composedLength, givenLength, Container.length, sameAdd, sameExtra, elementsLength,
      List.nil_append, List.cons_append, List.map_cons, List.map_nil, List.sum_cons, List.sum_nil,
      devId.allocated, (publicKeyOf ecdh drawn).allocated]
    decide
  refine ⟨add, extra, names, sameExtra, fits, fun draw node outBuf => ?_⟩
  obtain ⟨out, ran⟩ := sendPlain_ok gcm givenAdd givenExtra (begun_some (by simp [sameAdd]))
    (begun_some (by simp [sameExtra])) fits draw outBuf
  refine ⟨out, ?_⟩
  unfold publicKeyOf at ranKey
  simp only [startKeyExchange, ranInit, ranId, ranType, ranConnection, ranExtra, ranKey, ok_bind,
    ran, pure_eq_ok]
  rfl

/-- The key that an end derives from the other side's public key. `left` is what it keeps if that
is not a point of the curve. -/
def derivedKey (ecdh : Ecdh) (drawn : Block eccPrvKeySize) (publicKey left : Block eccPubKeySize) :
    Block keyLen :=
  keyOf ((ecdh.sharedSecret (privateKeyOf ecdh drawn) publicKey).getD left)

/-- The entry of a device that has been registered with this public key. -/
def registeredDevice (ecdh : Ecdh) (env : ServerEnv) (identity : Identity)
    (publicKey : Block eccPubKeySize) : DevInfo :=
  { env.newDevInfo with
    devId := identity.devIdFromMessage
    key := derivedKey ecdh env.privateDHKey publicKey env.sharedDHKey
    devType := identity.devType.toUInt32
    deviceConnectionType := identity.connectionType }

/-- A device is registered with whatever the read of the public key has left in the array, and is
sent the server's. -/
theorem registerDevice_read (gcm : Gcm) (ecdh : Ecdh) (env : ServerEnv) (connInfo : ConnInfo)
    (server : ServerState) (identity : Identity) {msg converted restored : Block maxMsgLen}
    {extraDataPckPtr : Nat} {found : UInt32} {publicKey : Block eccPubKeySize}
    (toHost : pckDataToHostOrder host msg extraDataPckPtr = .ok converted)
    (ranKey : getElementFromPckData host converted extraDataPckPtr env.publicDHKeyRemote 0 =
      .ok (found, publicKey))
    (toNetwork : pckDataToNetworkOrder host converted extraDataPckPtr = .ok restored) :
    ∃ out reply, reply.elements = [(publicKeyOf ecdh env.privateDHKey).bytes] ∧
      composedLength none none (some reply) ≤ maxMsgLen ∧
      MainServer.registerDevice host gcm ecdh env connInfo server msg extraDataPckPtr identity =
        .ok
          { returnValue := some 0
            connInfo := connInfo
            server :=
              { server with
                devInfos := server.devInfos ++ [registeredDevice ecdh env identity publicKey]
                savedDevices :=
                  server.savedDevices ++ [registeredDevice ecdh env identity publicKey]
                sendProcessingBuffer := out }
            msg := restored
            sent := [plainFrame (env.draws 0).newIv.bytes
              (slice server.sendProcessingBuffer.bytes tagPtr tagLen) none (some reply)]
            called := none } := by
  obtain ⟨begun, built, reply, ranInit, ranAppend, sameReply, givenReply⟩ :=
    keyContainer_ok host (env.malloced 0) (publicKeyOf ecdh env.privateDHKey)
  have fits : composedLength none none (some reply) ≤ maxMsgLen := by
    simp only [composedLength, givenLength, Container.length, sameReply, elementsLength,
      List.map_cons, List.map_nil, List.sum_cons, List.sum_nil,
      (publicKeyOf ecdh env.privateDHKey).allocated]
    decide
  obtain ⟨out, ranSend⟩ := sendPlain_ok gcm .absent givenReply begun_none
    (begun_some (by simp [sameReply])) fits (env.draws 0) server.sendProcessingBuffer
  refine ⟨out, reply, sameReply, fits, ?_⟩
  unfold publicKeyOf at ranAppend
  simp only [MainServer.registerDevice, toHost, ok_bind, ranKey, toNetwork, ranInit, ranAppend,
    ranSend, pure_eq_ok]
  rfl

/-- A device is registered with the public key that comes first in the extra container, and is sent
the server's. -/
theorem registerDevice_ok (host : ByteOrder) (gcm : Gcm) (ecdh : Ecdh) (env : ServerEnv)
    (connInfo : ConnInfo) (server : ServerState) (identity : Identity) {msg : Block maxMsgLen}
    {extra : Container} {front behind : Bytes} {extraDataPckPtr : Nat}
    {publicKey : Block eccPubKeySize} (first : extra.elements[0]? = some publicKey.bytes)
    (content : msg.bytes = front ++ (extra.bytes .big ++ behind))
    (position : front.length = extraDataPckPtr) :
    ∃ out reply, reply.elements = [(publicKeyOf ecdh env.privateDHKey).bytes] ∧
      composedLength none none (some reply) ≤ maxMsgLen ∧
      MainServer.registerDevice host gcm ecdh env connInfo server msg extraDataPckPtr identity =
        .ok
          { returnValue := some 0
            connInfo := connInfo
            server :=
              { server with
                devInfos := server.devInfos ++ [registeredDevice ecdh env identity publicKey]
                savedDevices :=
                  server.savedDevices ++ [registeredDevice ecdh env identity publicKey]
                sendProcessingBuffer := out }
            msg := msg
            sent := [plainFrame (env.draws 0).newIv.bytes
              (slice server.sendProcessingBuffer.bytes tagPtr tagLen) none (some reply)]
            called := none } := by
  obtain ⟨converted, found, toHost, ranKey, toNetwork⟩ :=
    readKey_ok host env.publicDHKeyRemote first content position
  exact registerDevice_read gcm ecdh env connInfo server identity toHost ranKey toNetwork

/-- A device that the server does not know is registered under the key that the server derives,
and is sent the server's public key. -/
theorem server_registers (host : ByteOrder) (gcm : Gcm) (ecdh : Ecdh) (env : ServerEnv)
    {connInfo : ConnInfo} {server : ServerState} {msg : Block maxMsgLen} {iv tag rest : Bytes}
    {add extra : Container}
    {publicKey : Block eccPubKeySize} (sized : Sealed iv tag) (names : NamesDevice devId add)
    (carries : extra.elements = [publicKey.bytes]) (fromNode : connInfo.connectionType = 0)
    (unknown : findDevInfo server.devInfos devId.bytes = none)
    (content : msg.bytes = plainFrame iv tag (some add) (some extra) ++ rest) :
    ∃ result devInfo vector answerTag reply,
      MainServer.processMsg host gcm ecdh env connInfo server msg = .ok result ∧
        result.server.devInfos = server.devInfos ++ [devInfo] ∧ devInfo.devId = devId ∧
        devInfo.key = derivedKey ecdh env.privateDHKey publicKey env.sharedDHKey ∧
        Sealed vector answerTag ∧ reply.elements = [(publicKeyOf ecdh env.privateDHKey).bytes] ∧
        composedLength none none (some reply) ≤ maxMsgLen ∧
        result.sent = [plainFrame vector answerTag none (some reply)] := by
  obtain ⟨msgLenWord, addLenWord, extraLenWord, total, addWord, extraWord, addLen, extraLen⟩ :=
    plainFrame_lengths host content
  have extraNat : (UInt32.ofNat (givenLength (some extra))).toNat = givenLength (some extra) :=
    toNat_ofNat_short (givenLength_lt _)
  obtain ⟨front, behind, atAdd, addPlace⟩ := plainFrame_add sized content
  obtain ⟨identity, rfl, identified⟩ := readIdentity_ok host env names addPlace atAdd
  obtain ⟨head, body, atExtra, extraPlace⟩ := plainFrame_extra sized content
  obtain ⟨out, reply, sameReply, fits, registering⟩ := registerDevice_ok host gcm ecdh env connInfo
    server identity (show extra.elements[0]? = some publicKey.bytes by simp [carries]) extraPlace
    atExtra
  have answerSealed := sealed_plain (env.draws 0).newIv server.sendProcessingBuffer
  have processed : MainServer.processMsg host gcm ecdh env connInfo server msg =
      MainServer.registerDevice host gcm ecdh env connInfo server msg headerLen identity := by
    simp only [MainServer.processMsg, total, addWord, extraWord, ok_bind, extraLen, extraNat,
      fromNode, if_true, printMessage_plainFrame host sized (begun_some names.begun)
        (begun_some (by simp [carries])) content, identified, unknown,
      protocolSpecificExtraDataLen, Nat.add_zero]
  exact ⟨_, registeredDevice ecdh env identity publicKey, _, _, reply,
    processed.trans registering, rfl, rfl, rfl, answerSealed, sameReply, fits, rfl⟩

/-- The node takes the server's public key, and from then on it has a key. -/
theorem node_takes (nodeHost : ByteOrder) (gcm : Gcm) (ecdh : Ecdh) (env : NodeEnv)
    (node : NodeState) {message : Block maxMsgLen} {iv tag rest : Bytes} {extra : Container}
    {publicKey : Block eccPubKeySize} (sized : Sealed iv tag)
    (carries : extra.elements = [publicKey.bytes])
    (content : message.bytes = plainFrame iv tag none (some extra) ++ rest) :
    NodeClient.processMsg nodeHost gcm ecdh env none node message =
      .ok
        { returnValue := 0
          connInfo := none
          node :=
            { node with
              pointerToKey := keyOf
                ((ecdh.sharedSecret node.privateDHKeyBuffer publicKey).getD env.sharedDHKey)
              hasEncryptionContextBeenEstablished := true }
          message := message
          called := none } := by
  obtain ⟨msgLenWord, addLenWord, extraLenWord, total, addWord, extraWord, -⟩ :=
    plainFrame_lengths nodeHost content
  obtain ⟨head, body, atExtra, extraPlace⟩ := plainFrame_extra sized content
  obtain ⟨converted, found, toHost, ranKey, toNetwork⟩ :=
    readKey_ok nodeHost env.publicDHKeyRemote
      (show extra.elements[0]? = some publicKey.bytes by simp [carries]) extraPlace atExtra
  simp only [NodeClient.processMsg, total, addWord, extraWord, ok_bind,
    printMessage_plainFrame nodeHost sized begun_none (begun_some (by simp [carries])) content,
    NodeClient.takeKey, protocolSpecificExtraDataLen, Nat.add_zero, toHost, ranKey, toNetwork,
    pure_eq_ok]

end Steps

/-! ### Runs -/

/-- The connection of an exchange: the frame on it that the server has not read, and what the
server has sent on it and the node has not read. -/
structure Link where
  toServer : Option Bytes
  toNode : List Bytes

/-- A node and a server during key exchanges. `link` is the connection on which `socketThread`
waits in `recvAll`, and `left` the frames on connections that the node has given up: the server can
still read them, and nobody reads what it answers. -/
structure Pairing where
  node : NodeState
  server : ServerState
  link : Option Link
  left : List Bytes

/-- What happens during key exchanges. A frame reaches the other end in the buffer that its
`processMsg` is given; the server has accepted a connection for it. `stopped` is the return of
`recvAll`, because the connection is lost or because nothing has come for 500 ms; a frame that is
lost with the connection never reaches the server. The node can be started anew, too. -/
inductive PairingEvent where
  | started (addMalloced extraMalloced : Block pckDataIncrements)
      (privateDHKey : Block eccPrvKeySize) (draw : Draw) (outBuf : Block maxMsgLen)
  | reachedServer (newFd : Int) (env : ServerEnv) (msg : Block maxMsgLen)
  | leftReachedServer (index : Nat) (newFd : Int) (env : ServerEnv) (msg : Block maxMsgLen)
  | reachedNode (env : NodeEnv) (message : Block maxMsgLen)
  | stopped
  | restarted

/-- The node waits in no exchange. -/
def Idle (pairing : Pairing) : Prop := pairing.link = none

instance (pairing : Pairing) : Decidable (Idle pairing) :=
  inferInstanceAs (Decidable (pairing.link = none))

/-- The frames that the server can still read. -/
def Pairing.onTheWay (pairing : Pairing) : List Bytes :=
  pairing.left ++ (pairing.link.bind Link.toServer).toList

/-- The node reads from the connection no more. -/
def Pairing.leave (pairing : Pairing) : Pairing :=
  { pairing with link := none, left := pairing.onTheWay }

/-- The server reads a frame from a connection that it has accepted for it. -/
def serverReads (host : ByteOrder) (gcm : Gcm) (ecdh : Ecdh) (newFd : Int) (env : ServerEnv)
    (msg : Block maxMsgLen) (server : ServerState) (frame : Bytes) : Checked ServerResult := do
  let msg ← msg.write 0 frame
  MainServer.processMsg host gcm ecdh env (acceptedConnInfo newFd 0) server msg

/-- One event. `socketThread` begins an exchange, on a connection of its own, whenever it has no
key and waits in no other one. -/
def pair (nodeHost host : ByteOrder) (gcm : Gcm) (ecdh : Ecdh) (devId : Block devIdLen)
    (pairing : Pairing) : PairingEvent → Checked Pairing
  | .started addMalloced extraMalloced privateDHKey draw outBuf =>
      if pairing.node.hasEncryptionContextBeenEstablished = false ∧ Idle pairing then do
        let (node, result) ← startKeyExchange nodeHost gcm ecdh addMalloced extraMalloced
          privateDHKey draw devId pairing.node outBuf
        pure { pairing with node := node, link := some ⟨result.sent, []⟩ }
      else .ok pairing
  | .reachedServer newFd env msg =>
      match pairing.link with
      | some ⟨some frame, toNode⟩ => do
          let result ← serverReads host gcm ecdh newFd env msg pairing.server frame
          pure
            { pairing with
              server := result.server
              link := some ⟨none, toNode ++ result.sent⟩ }
      | _ => .ok pairing
  | .leftReachedServer index newFd env msg =>
      match pairing.left[index]? with
      | some frame => do
          let result ← serverReads host gcm ecdh newFd env msg pairing.server frame
          pure { pairing with server := result.server, left := pairing.left.eraseIdx index }
      | none => .ok pairing
  | .reachedNode env message =>
      match pairing.link with
      | some ⟨toServer, frame :: rest⟩ => do
          let message ← message.write 0 frame
          let result ← NodeClient.processMsg nodeHost gcm ecdh env none pairing.node message
          pure { pairing with node := result.node, link := some ⟨toServer, rest⟩ }
      | _ => .ok pairing
  | .stopped => .ok pairing.leave
  | .restarted => .ok { pairing.leave with node := startedNode }

/-- What an exchange takes from outside: sockets, random numbers, and what the buffers held. -/
structure Surroundings where
  addMalloced : Block pckDataIncrements
  extraMalloced : Block pckDataIncrements
  privateDHKey : Block eccPrvKeySize
  draw : Draw
  outBuf : Block maxMsgLen
  newFd : Int
  env : ServerEnv
  msg : Block maxMsgLen
  nodeEnv : NodeEnv
  message : Block maxMsgLen
deriving Inhabited

/-- An exchange that nothing interrupts. -/
def exchange (around : Surroundings) : List PairingEvent :=
  [.started around.addMalloced around.extraMalloced around.privateDHKey around.draw around.outBuf,
    .reachedServer around.newFd around.env around.msg,
    .reachedNode around.nodeEnv around.message]

/-- The library takes both private keys and makes valid public keys of them. -/
def Valid (ecdh : Ecdh) (around : Surroundings) : Prop :=
  ecdh.Usable around.privateDHKey ∧ ecdh.Usable around.env.privateDHKey

/-- The node has the key under which the server has registered it. -/
def CommonKey (devId : Block devIdLen) (pairing : Pairing) : Prop :=
  pairing.node.hasEncryptionContextBeenEstablished = true ∧
    ∃ devInfo, findDevInfo pairing.server.devInfos devId.bytes = some devInfo ∧
      devInfo.key = pairing.node.pointerToKey

/-- If the node has no key and waits in no exchange, the next one gives both ends a common key if
nothing interrupts it. -/
def Recoverable (nodeHost host : ByteOrder) (gcm : Gcm) (ecdh : Ecdh) (devId : Block devIdLen)
    (pairing : Pairing) : Prop :=
  pairing.node.hasEncryptionContextBeenEstablished = false → Idle pairing →
    ∀ around, Valid ecdh around →
      ∃ done, runFrom (pair nodeHost host gcm ecdh devId) pairing (exchange around) = .ok done ∧
        CommonKey devId done

/-- The node does not stop waiting after the server has registered it and before it has a key; a
frame of an exchange that it has given up does not register it while it has no key and waits in no
other exchange; and it is not started anew once the server has registered it. -/
def Harmless (devId : Block devIdLen) (pairing : Pairing) : PairingEvent → Prop
  | .stopped =>
      findDevInfo pairing.server.devInfos devId.bytes ≠ none →
        pairing.node.hasEncryptionContextBeenEstablished = true
  | .leftReachedServer index _ _ _ =>
      pairing.node.hasEncryptionContextBeenEstablished = false → Idle pairing →
        findDevInfo pairing.server.devInfos devId.bytes = none → pairing.left.length ≤ index
  | .restarted => findDevInfo pairing.server.devInfos devId.bytes = none
  | _ => True

/-- Whether an event is harmless can be computed. -/
instance decidableHarmless (devId : Block devIdLen) (pairing : Pairing) :
    (event : PairingEvent) → Decidable (Harmless devId pairing event)
  | .stopped => inferInstanceAs (Decidable (_ → _))
  | .leftReachedServer _ _ _ _ => inferInstanceAs (Decidable (_ → _ → _ → _))
  | .restarted => inferInstanceAs (Decidable (_ = none))
  | .started _ _ _ _ _ => .isTrue trivial
  | .reachedServer _ _ _ => .isTrue trivial
  | .reachedNode _ _ => .isTrue trivial

section Exchanging

variable {nodeHost host : ByteOrder} {gcm : Gcm} {ecdh : Ecdh} {devId : Block devIdLen}
  {pairing next : Pairing}

/-- The node's frame, on its way. -/
theorem started_ok (nodeHost host : ByteOrder) (gcm : Gcm) (ecdh : Ecdh) (devId : Block devIdLen)
    (addMalloced extraMalloced : Block pckDataIncrements) (drawn : Block eccPrvKeySize) :
    ∃ add extra, NamesDevice devId add ∧ extra.elements = [(publicKeyOf ecdh drawn).bytes] ∧
      composedLength none (some add) (some extra) ≤ maxMsgLen ∧
      ∀ (pairing : Pairing) draw outBuf,
        pairing.node.hasEncryptionContextBeenEstablished = false → Idle pairing →
        pair nodeHost host gcm ecdh devId pairing
            (.started addMalloced extraMalloced drawn draw outBuf) =
          .ok
            { pairing with
              node := { pairing.node with privateDHKeyBuffer := privateKeyOf ecdh drawn }
              link := some
                ⟨some (plainFrame draw.newIv.bytes (slice outBuf.bytes tagPtr tagLen) (some add)
                  (some extra)), []⟩ } := by
  obtain ⟨add, extra, names, carries, fits, starts⟩ :=
    startKeyExchange_ok nodeHost gcm ecdh addMalloced extraMalloced drawn devId
  refine ⟨add, extra, names, carries, fits, fun pairing draw outBuf keyless idle => ?_⟩
  obtain ⟨out, ran⟩ := starts draw pairing.node outBuf
  simp only [pair, if_pos (And.intro keyless idle), ran, ok_bind, pure_eq_ok]

/-- A device that is added to a list without it is found there. -/
theorem findDevInfo_added {devInfos : List DevInfo} {devInfo : DevInfo}
    (unknown : findDevInfo devInfos devId.bytes = none) (own : devInfo.devId = devId) :
    findDevInfo (devInfos ++ [devInfo]) devId.bytes = some devInfo := by
  rw [findDevInfo, List.find?_append]
  unfold findDevInfo at unknown
  rw [unknown]
  simp [own]

/-- Where an exchange ends that nothing interrupts, when the server does not know the node: each
end has the key that it derives. -/
theorem exchange_ran (nodeHost host : ByteOrder) (gcm : Gcm) (ecdh : Ecdh)
    (unknown : findDevInfo pairing.server.devInfos devId.bytes = none)
    (keyless : pairing.node.hasEncryptionContextBeenEstablished = false) (idle : Idle pairing)
    (around : Surroundings) :
    ∃ done, runFrom (pair nodeHost host gcm ecdh devId) pairing (exchange around) = .ok done ∧
      done.node.pointerToKey = derivedKey ecdh around.privateDHKey
        (publicKeyOf ecdh around.env.privateDHKey) around.nodeEnv.sharedDHKey ∧
      (CommonKey devId done ↔
        derivedKey ecdh around.env.privateDHKey (publicKeyOf ecdh around.privateDHKey)
            around.env.sharedDHKey =
          done.node.pointerToKey) := by
  obtain ⟨add, extra, names, carries, fits, starts⟩ := started_ok nodeHost host gcm ecdh devId
    around.addMalloced around.extraMalloced around.privateDHKey
  have sized := sealed_plain around.draw.newIv around.outBuf
  have fromNode : (acceptedConnInfo around.newFd 0).connectionType = 0 := rfl
  obtain ⟨msg, wroteMsg, inMsg⟩ := around.msg.write_front
    (le_of_eq_of_le (length_plainFrame sized) fits)
  obtain ⟨result, devInfo, vector, answerTag, reply, processed, devInfos, own, key, answerSealed,
    carriesReply, fitsReply, sent⟩ := server_registers host gcm ecdh around.env sized names carries
      fromNode unknown inMsg
  obtain ⟨message, wroteMessage, inMessage⟩ := around.message.write_front
    (le_of_eq_of_le (length_plainFrame answerSealed) fitsReply)
  let done : Pairing :=
    { node :=
        { pairing.node with
          privateDHKeyBuffer := privateKeyOf ecdh around.privateDHKey
          pointerToKey := derivedKey ecdh around.privateDHKey
            (publicKeyOf ecdh around.env.privateDHKey) around.nodeEnv.sharedDHKey
          hasEncryptionContextBeenEstablished := true }
      server := result.server
      link := some ⟨none, []⟩
      left := pairing.left }
  have ran : runFrom (pair nodeHost host gcm ecdh devId) pairing (exchange around) = .ok done := by
    rw [exchange, runFrom_cons, starts pairing around.draw around.outBuf keyless idle, ok_bind,
      runFrom_cons]
    simp only [pair, serverReads, wroteMsg, ok_bind, processed, pure_eq_ok, List.nil_append]
    rw [runFrom_cons]
    simp only [pair, sent, wroteMessage, ok_bind, pure_eq_ok,
      node_takes nodeHost gcm ecdh around.nodeEnv _ answerSealed carriesReply inMessage]
    exact runFrom_nil
  have registered : findDevInfo done.server.devInfos devId.bytes = some devInfo := by
    have known := findDevInfo_added unknown own
    rwa [← devInfos] at known
  refine ⟨done, ran, rfl, ?_⟩
  rw [← key]
  constructor
  · rintro ⟨-, found, again, same⟩
    obtain rfl : devInfo = found := Option.some.inj (registered.symm.trans again)
    exact same
  · intro same
    exact ⟨rfl, devInfo, registered, same⟩

/-- A node that the server does not know gets its key. -/
theorem recoverable_of_unknown (nodeHost host : ByteOrder) (gcm : Gcm) (correct : ecdh.Correct)
    (unknown : findDevInfo pairing.server.devInfos devId.bytes = none) :
    Recoverable nodeHost host gcm ecdh devId pairing := by
  intro keyless idle around valid
  obtain ⟨done, ran, key, common⟩ :=
    exchange_ran nodeHost host gcm ecdh unknown keyless idle around
  obtain ⟨secret, ofNode, ofServer⟩ :=
    correct.agree around.privateDHKey around.env.privateDHKey valid.1 valid.2
  have derivesNode : ecdh.sharedSecret (privateKeyOf ecdh around.privateDHKey)
      (publicKeyOf ecdh around.env.privateDHKey) = some secret := ofNode
  have derivesServer : ecdh.sharedSecret (privateKeyOf ecdh around.env.privateDHKey)
      (publicKeyOf ecdh around.privateDHKey) = some secret := ofServer
  refine ⟨done, ran, common.mpr ?_⟩
  rw [key]
  simp only [derivedKey, derivesNode, derivesServer, Option.getD_some]

/-- A frame of a node that the server knows is taken for an encrypted one. With a wrong tag it is
not answered. -/
theorem server_refuses {env : ServerEnv} {connInfo : ConnInfo} {server : ServerState}
    {msg : Block maxMsgLen} {iv tag rest : Bytes} {add extra : Container} {devInfo : DevInfo}
    {result : ServerResult} (sized : Sealed iv tag) (names : NamesDevice devId add)
    (begunExtra : extra.elements ≠ []) (fromNode : connInfo.connectionType = 0)
    (registered : findDevInfo server.devInfos devId.bytes = some devInfo)
    (content : msg.bytes = plainFrame iv tag (some add) (some extra) ++ rest)
    (forged : ¬ Genuine gcm devInfo.key.bytes msg)
    (ran : MainServer.processMsg host gcm ecdh env connInfo server msg = .ok result) :
    result.sent = [] := by
  obtain ⟨msgLenWord, addLenWord, extraLenWord, total, addWord, extraWord, addLen, extraLen⟩ :=
    plainFrame_lengths host content
  have extraNat : (UInt32.ofNat (givenLength (some extra))).toNat = givenLength (some extra) :=
    toNat_ofNat_short (givenLength_lt _)
  obtain ⟨front, behind, atAdd, addPlace⟩ := plainFrame_add sized content
  obtain ⟨identity, rfl, identified⟩ := readIdentity_ok host env names addPlace atAdd
  simp only [MainServer.processMsg, total, addWord, extraWord, ok_bind, extraLen, extraNat,
    fromNode, if_true, printMessage_plainFrame host sized (begun_some names.begun)
      (begun_some begunExtra) content, identified, registered, MainServer.processKnown] at ran
  obtain ⟨opened, decrypted, ran⟩ := bind_eq_ok.mp ran
  rcases decryptPckData_cases decrypted with ⟨-, genuine⟩ | ⟨failed, -⟩
  · exact absurd genuine forged
  · have refused : opened.returnValue ≠ 0 := by
      rw [failed]
      decide
    simp only [if_pos refused] at ran
    rw [← Except.ok.inj ran]

/-- Whatever the right tag is, the send buffer can hold another one. -/
theorem exists_wrongTag (tag : Bytes) :
    ∃ byte : UInt8, tag ≠ slice (Block.fill maxMsgLen byte).bytes tagPtr tagLen := by
  by_contra every
  have both : ∀ byte : UInt8, tag = slice (Block.fill maxMsgLen byte).bytes tagPtr tagLen :=
    fun byte => not_not.mp (not_exists.mp every byte)
  exact absurd ((both 0).symm.trans (both 1)) (by decide)

/-- A node without a key that the server knows does not get one. -/
theorem not_recoverable_of_known (nodeHost host : ByteOrder) (gcm : Gcm) {devInfo : DevInfo}
    (correct : ecdh.Correct)
    (keyless : pairing.node.hasEncryptionContextBeenEstablished = false) (idle : Idle pairing)
    (registered : findDevInfo pairing.server.devInfos devId.bytes = some devInfo) :
    ¬ Recoverable nodeHost host gcm ecdh devId pairing := by
  intro recoverable
  obtain ⟨drawn, usable⟩ := correct.usable
  obtain ⟨add, extra, names, carries, fits, starts⟩ :=
    started_ok nodeHost host gcm ecdh devId default default drawn
  have length : ∀ outBuf : Block maxMsgLen, (plainFrame (default : Block ivLen).bytes
      (slice outBuf.bytes tagPtr tagLen) (some add) (some extra)).length =
        composedLength none (some add) (some extra) :=
    fun outBuf => length_plainFrame (sealed_plain default outBuf)
  obtain ⟨byte, wrong⟩ : ∃ byte : UInt8,
      rightTag gcm devInfo.key.bytes (default : Block ivLen).bytes (givenBytes .big (some extra))
        (addSection (some add)) (settingsBytes .big 0 0 ++ givenBytes .big none)
        ((default : Block maxMsgLen).bytes.drop (composedLength none (some add) (some extra))) ≠
          slice (Block.fill maxMsgLen byte).bytes tagPtr tagLen := exists_wrongTag _
  let around : Surroundings :=
    { (default : Surroundings) with
      privateDHKey := drawn
      outBuf := .fill maxMsgLen byte
      env := { (default : ServerEnv) with privateDHKey := drawn } }
  obtain ⟨done, ran, established, -⟩ := recoverable keyless idle around ⟨usable, usable⟩
  obtain ⟨msg, wroteMsg, inMsg⟩ := (default : Block maxMsgLen).write_front
    (le_of_eq_of_le (length (.fill maxMsgLen byte)) fits)
  rw [length] at inMsg
  have sized := sealed_plain (default : Block ivLen) (.fill maxMsgLen byte)
  have forged : ¬ Genuine gcm devInfo.key.bytes msg := by
    rw [genuine_iff_rightTag sized inMsg]
    exact wrong
  have fromNode : (acceptedConnInfo around.newFd 0).connectionType = 0 := rfl
  have begun : pair nodeHost host gcm ecdh devId pairing (.started around.addMalloced
      around.extraMalloced around.privateDHKey around.draw around.outBuf) = _ :=
    starts pairing default (.fill maxMsgLen byte) keyless idle
  rw [exchange, runFrom_cons, begun, ok_bind, runFrom_cons] at ran
  obtain ⟨asked, ranServer, ran⟩ := bind_eq_ok.mp ran
  simp only [pair, serverReads, bind_assoc] at ranServer
  obtain ⟨written, wrote, ranServer⟩ := bind_eq_ok.mp ranServer
  obtain rfl := Except.ok.inj (wroteMsg.symm.trans wrote)
  obtain ⟨result, processed, same⟩ := bind_eq_ok.mp ranServer
  have silent := server_refuses sized names (by simp [carries]) fromNode registered inMsg forged
    processed
  obtain rfl := Except.ok.inj same
  rw [runFrom_cons] at ran
  simp only [pair, silent, List.append_nil, ok_bind, runFrom_nil] at ran
  obtain rfl := Except.ok.inj ran
  rw [keyless] at established
  cases established

/-- A node without a key that waits in no exchange can recover exactly if the server does not know
it. -/
theorem recoverable_iff_unknown (nodeHost host : ByteOrder) (gcm : Gcm) (correct : ecdh.Correct) :
    Recoverable nodeHost host gcm ecdh devId pairing ↔
      (pairing.node.hasEncryptionContextBeenEstablished = false → Idle pairing →
        findDevInfo pairing.server.devInfos devId.bytes = none) := by
  constructor
  · intro recoverable keyless idle
    by_contra known
    obtain ⟨devInfo, registered⟩ := Option.ne_none_iff_exists'.mp known
    exact not_recoverable_of_known nodeHost host gcm correct keyless idle registered recoverable
  · intro unknown keyless idle
    exact recoverable_of_unknown nodeHost host gcm correct (unknown keyless idle) keyless idle

/-! Which half-completed states a run can reach. -/

end Exchanging

/-- A new node and a server that knows no device. -/
def newPairing : Pairing :=
  { node := startedNode
    server :=
      { devInfos := []
        savedDevices := []
        commandsQueue := []
        decryptedMsgBuffer := default
        sendProcessingBuffer := default }
    link := none
    left := [] }

/-- The node draws 2^80 and the server 2^80 + 1, everything else being zero. -/
def sampleAround : Surroundings :=
  { (default : Surroundings) with
    privateDHKey := onePrivateKey
    env := { (default : ServerEnv) with privateDHKey := otherPrivateKey } }

/-- AES-GCM under the key of the exchange and the zero vector: its tag over what the server takes
for the ADD section and the masked text of the node's frame. Nothing is masked. -/
def exchangeGcm : Gcm :=
  { keystream := fun _ _ _ => 0
    authenticate := fun _ _ _ _ =>
      ⟨[145, 128, 53, 177, 74, 175, 42, 31, 81, 212, 87, 55, 114, 50, 71, 66], rfl⟩ }

end RentMate.KeyExchange
