/-
Module: RentMate.Proofs.Handshake
Purpose: The exchange of nonces that begins a session, over a channel that delivers both frames
  unmodified: which session it leads to, and when that session can be used.
Trusted boundary: none
Main exports: handshake, handshake_cases, Agree, handshake_agrees, usable_iff
-/
import RentMate.Proofs.CommandDelivery
import RentMate.Proofs.NodeMessageDelivery
import RentMate.Proofs.CommandQueueFifo

namespace RentMate.Handshake

open RentMate.Machine
open RentMate.PckData
open RentMate.MainServer
open RentMate.NodeClient (NodeEnv NodeState NodeResult initializeConnInfo startSession)
open RentMate.ContainerCodec
open RentMate.MessageCodec
open RentMate.SessionCodec
open RentMate.CommandDelivery
open RentMate.ServerSteps
open RentMate.CommandQueueFifo (entriesFor history)

/-! ### The exchange -/

/-- A node and a server that knows it, with the same key. -/
structure Ends where
  node : NodeState
  devId : Block devIdLen
  server : ServerState
  devInfo : DevInfo
  registered : findDevInfo server.devInfos devId.bytes = some devInfo
  sameKey : devInfo.key = node.pointerToKey

/-- What one handshake takes from outside: sockets, random numbers, and what the buffers held. -/
structure Surroundings where
  nodeSocket : Int
  newFd : Int
  addMalloced : Block pckDataIncrements
  draw : Draw
  outBuf : Block maxMsgLen
  msg : Block maxMsgLen
  env : ServerEnv
  message : Block maxMsgLen
  nodeEnv : NodeEnv
deriving Inhabited

/-- What the three steps of a handshake leave. -/
structure Outcome where
  opening : SendResult maxMsgLen
  result : ServerResult
  answer : NodeResult

/-- The node sends its nonce, the server processes the frame, and the node processes the first
frame that the server has sent. -/
def handshake (nodeHost host : ByteOrder) (gcm : Gcm) (ecdh : Ecdh) (ends : Ends)
    (around : Surroundings) : Checked Outcome := do
  let opening ← startSession nodeHost gcm around.addMalloced around.draw ends.devId
    (initializeConnInfo around.nodeSocket) ends.node around.outBuf
  let msg ← around.msg.write 0 (opening.sent.getD [])
  let result ← MainServer.processMsg host gcm ecdh around.env (acceptedConnInfo around.newFd 0)
    ends.server msg
  let message ← around.message.write 0 (result.sent.headD [])
  let answer ← NodeClient.processMsg nodeHost gcm ecdh around.nodeEnv opening.connInfo ends.node
    message
  pure { opening := opening, result := result, answer := answer }

section Nonces

variable (nodeHost host : ByteOrder) (around : Surroundings)

/-- The node's nonce as both ends store it: converted once. -/
def nodeNonce : UInt32 := htonl nodeHost (nonceOf around.draw.localNonce)

/-- The server's nonce as both ends store it. -/
def serverNonce : UInt32 := htonl host (nonceOf (around.env.draws 0).localNonce)

/-- The node's connection after its own frame. -/
def nodeBegun : ConnInfo :=
  { initializeConnInfo around.nodeSocket with localNonce := nonceOf around.draw.localNonce }

/-- The node's connection after the handshake. -/
def nodeSession : ConnInfo :=
  { initializeConnInfo around.nodeSocket with
    remoteNonce := serverNonce host around
    localNonce := nodeNonce nodeHost around
    sessionId := nodeNonce nodeHost around + serverNonce host around }

/-- The server's connection after the handshake, before it sends commands. -/
def serverSession : ConnInfo :=
  { acceptedConnInfo around.newFd 0 with
    remoteNonce := nodeNonce nodeHost around
    localNonce := serverNonce host around
    sessionId := nodeNonce nodeHost around + serverNonce host around }

/-- The nonce of the node is not zero. -/
theorem nodeNonce_ne_zero : nodeNonce nodeHost around ≠ 0 := by
  rw [nodeNonce, ne_eq, htonl_eq_zero_iff]
  exact nonceOf_ne_zero _

/-- The nonce of the server is not zero. -/
theorem serverNonce_ne_zero : serverNonce host around ≠ 0 := by
  rw [serverNonce, ne_eq, htonl_eq_zero_iff]
  exact nonceOf_ne_zero _

end Nonces

/-! ### The three steps -/

section Steps

variable {nodeHost host : ByteOrder} {gcm : Gcm} {ecdh : Ecdh} {ends : Ends}
  {around : Surroundings}

/-- The ADD container of the frame that begins a session. -/
theorem startSession_ok (nodeHost : ByteOrder) (gcm : Gcm) (addMalloced : Block pckDataIncrements)
    (draw : Draw) (devId : Block devIdLen) (socket : Int) (node : NodeState)
    (outBuf : Block maxMsgLen) :
    ∃ out container, container.elements = [devId.bytes] ∧
      composedLength none (some container) none ≤ maxMsgLen ∧
      startSession nodeHost gcm addMalloced draw devId (initializeConnInfo socket) node outBuf =
        .ok
          { returnValue := 0
            connInfo := some
              { initializeConnInfo socket with localNonce := nonceOf draw.localNonce }
            outBuf := out
            sent := some (frame gcm node.pointerToKey.bytes draw.newIv.bytes none (some container) 0
              (htonl nodeHost (nonceOf draw.localNonce))) } := by
  obtain ⟨begun, ranInit, built⟩ := initPckData_ok nodeHost addMalloced
  obtain ⟨added, ranAppend, builtAdd⟩ := appendToPckData_ok built devId.bytes
    (by rw [devId.allocated]; decide)
  obtain ⟨container, same, givenAdd⟩ := given_of_built builtAdd
  have fits : composedLength none (some container) none ≤ maxMsgLen := by
    simp only [composedLength, givenLength, Container.length, same, elementsLength, List.map_cons,
      List.map_nil, List.nil_append, List.sum_cons, List.sum_nil, devId.allocated]
    decide
  obtain ⟨out, ran⟩ := encryptAndSendAll_fresh gcm node.pointerToKey.bytes
    (sendable_alone nodeHost givenAdd (begun_some (by simp [same])) fits) (initializeConnInfo socket) rfl
    rfl 0 draw outBuf
  refine ⟨out, container, same, fits, ?_⟩
  simp only [startSession, ranInit, ranAppend, ok_bind, ran]

/-- The server takes the node's nonce, sends its own and goes on with the commands. -/
theorem answerNonce_eq (host : ByteOrder) (gcm : Gcm) (env : ServerEnv) {connInfo : ConnInfo}
    (noSession : connInfo.sessionId = 0) (noNonce : connInfo.localNonce = 0)
    (server : ServerState) (devInfo : DevInfo) (remoteNonce : UInt32) :
    ∃ out,
      answerNonce host gcm env connInfo server devInfo remoteNonce =
        releaseCommands host gcm env
          { connInfo with
            remoteNonce := remoteNonce
            localNonce := htonl host (nonceOf (env.draws 0).localNonce)
            sessionId := remoteNonce + htonl host (nonceOf (env.draws 0).localNonce) }
          { server with sendProcessingBuffer := out } devInfo.devId.bytes
          [frame gcm devInfo.key.bytes (env.draws 0).newIv.bytes none none 0
            (htonl host (nonceOf (env.draws 0).localNonce))] := by
  obtain ⟨out, ran⟩ := encryptAndSendAll_fresh gcm devInfo.key.bytes
    (sendable_alone host .absent begun_none (by decide)) { connInfo with remoteNonce := remoteNonce }
    noSession noNonce 0 (env.draws 0) server.sendProcessingBuffer 
  refine ⟨out, ?_⟩
  simp only [answerNonce, ran, ok_bind, Option.getD_some, ntohl_eq_htonl]
  rfl

/-- The reply of the server: its nonce under the key of the device. -/
def reply (host : ByteOrder) (gcm : Gcm) (ends : Ends) (around : Surroundings) : Bytes :=
  frame gcm ends.node.pointerToKey.bytes (around.env.draws 0).newIv.bytes none none 0
    (serverNonce host around)

/-- The server's step, up to the commands. -/
theorem serverStep (nodeHost host : ByteOrder) (gcm : Gcm) (ecdh : Ecdh) (ends : Ends)
    (around : Surroundings) :
    ∃ opening msg buffer out,
      startSession nodeHost gcm around.addMalloced around.draw ends.devId
          (initializeConnInfo around.nodeSocket) ends.node around.outBuf = .ok opening ∧
        opening.connInfo = some (nodeBegun around) ∧
        around.msg.write 0 (opening.sent.getD []) = .ok msg ∧
        MainServer.processMsg host gcm ecdh around.env (acceptedConnInfo around.newFd 0) ends.server
            msg =
          releaseCommands host gcm around.env (serverSession nodeHost host around)
            { ends.server with decryptedMsgBuffer := buffer, sendProcessingBuffer := out }
            ends.devId.bytes [reply host gcm ends around] := by
  obtain ⟨sendBuf, container, same, fits, ran⟩ := startSession_ok nodeHost gcm around.addMalloced
    around.draw ends.devId around.nodeSocket ends.node around.outBuf
  have vector := around.draw.newIv.allocated
  have short := length_frame gcm ends.node.pointerToKey.bytes none (some container) 0
    (htonl nodeHost (nonceOf around.draw.localNonce)) vector
  obtain ⟨msg, wrote, filled⟩ := around.msg.write_front (by rw [short]; exact fits)
  rw [← ends.sameKey] at filled
  have fromNode : (acceptedConnInfo around.newFd 0).connectionType = 0 := rfl
  have noSession : (acceptedConnInfo around.newFd 0).sessionId = 0 := rfl
  obtain ⟨tag, sized, opened, buffer, processed, inMessage⟩ := serverProcessMsg_frame host ecdh
    around.env vector (names_alone same) fromNode ends.registered filled
  obtain ⟨nonce, -⟩ := opened_place sized inMessage
  obtain ⟨out, answered⟩ := answerNonce_eq host gcm around.env noSession rfl
    { ends.server with decryptedMsgBuffer := buffer } ends.devInfo
    (htonl nodeHost (nonceOf around.draw.localNonce))
  refine ⟨_, msg, buffer, out, ran, rfl, wrote, ?_⟩
  rw [findDevInfo_devId ends.registered, ends.sameKey] at answered
  have atNonce : opened.load32 host (headerLen + (protocolSpecificAddLen + container.length)) =
      .ok (htonl nodeHost (nonceOf around.draw.localNonce)) := nonce
  rw [processed, MainServer.processDecrypted, if_pos ⟨rfl, rfl⟩, atNonce, ok_bind, answered]
  rfl

/-- What `processMsg` returns after the commands have been handed over. -/
def afterRelease (server : ServerState) (devId : Bytes) (outgoing : Outgoing) : ServerResult :=
  { returnValue := none
    connInfo := outgoing.connInfo
    server :=
      { server with
        commandsQueue := leftBehind devId server.commandsQueue
        sendProcessingBuffer := outgoing.sendProcessingBuffer }
    msg := Block.fill maxMsgLen 0
    sent := outgoing.sent
    called := none }

/-- Releasing the queue sends off what it hands over for the device. -/
theorem releaseCommands_eq (host : ByteOrder) (gcm : Gcm) (env : ServerEnv) (connInfo : ConnInfo)
    (server : ServerState) (devId : Bytes) (sent : List Bytes) :
    releaseCommands host gcm env connInfo server devId sent =
      (sendOffCommands (sendOffCommand host gcm server.devInfos devId env)
          (handedOver devId server.commandsQueue)
          ⟨connInfo, server.sendProcessingBuffer, sent, 0⟩ >>= fun outgoing =>
        .ok (afterRelease server devId outgoing)) := by
  simp only [releaseCommands, sendQueuedMessages_eq, bind_assoc, pure_eq_ok, ok_bind, afterRelease]

/-- The server's frames begin with its reply, and its session is the one that was set up. -/
theorem releaseCommands_session {env : ServerEnv} {connInfo : ConnInfo} {server : ServerState}
    {devId first : Bytes} {result : ServerResult} (nonce : connInfo.localNonce ≠ 0)
    (ran : releaseCommands host gcm env connInfo server devId [first] = .ok result) :
    SameSession connInfo result.connInfo ∧ result.sent.headD [] = first := by
  rw [releaseCommands_eq] at ran
  obtain ⟨reached, ranSends, ran⟩ := bind_eq_ok.mp ran
  obtain rfl := Except.ok.inj ran
  obtain ⟨same, more, sent⟩ := sendOffCommands_sameSession ranSends nonce
  refine ⟨same, ?_⟩
  simp only [afterRelease, ← sent, List.singleton_append, List.headD_cons]

/-- The node's step: it takes the server's nonce. -/
theorem nodeStep (nodeHost host : ByteOrder) (gcm : Gcm) (ecdh : Ecdh) (ends : Ends)
    (around : Surroundings) :
    ∃ message answer, around.message.write 0 (reply host gcm ends around) = .ok message ∧
      NodeClient.processMsg nodeHost gcm ecdh around.nodeEnv (some (nodeBegun around)) ends.node
          message = .ok answer ∧
        answer.connInfo = some (nodeSession nodeHost host around) ∧
        answer.node.pointerToKey = ends.node.pointerToKey := by
  have vector := (around.env.draws 0).newIv.allocated
  have short := length_frame gcm ends.node.pointerToKey.bytes none none 0
    (serverNonce host around) vector
  obtain ⟨message, wrote, filled⟩ := around.message.write_front
    (show (reply host gcm ends around).length ≤ maxMsgLen by rw [reply, short]; decide)
  rw [reply] at filled
  obtain ⟨tag, sized, opened, buffer, processed, -, inOutput⟩ := clientProcessMsg_frame nodeHost
    ecdh around.nodeEnv (nodeBegun around) vector begun_none filled
  have place : buffer.bytes = [] ++ (nodeHost.encode (serverNonce host around) ++
      (nodeHost.encode 0 ++ (givenBytes nodeHost none ++ ends.node.decryptionBuffer.bytes.drop
        (protocolSpecificEncryptedDataLen + givenLength none)))) := by
    simpa only [settingsBytes, List.append_assoc, List.nil_append] using inOutput
  have remoteNonce := Block.load32_append nodeHost 0 place rfl (by simp)
  rw [ByteOrder.decode_encode] at remoteNonce
  let answer : NodeResult :=
    { returnValue := 0
      connInfo := some (nodeSession nodeHost host around)
      node := { ends.node with decryptionBuffer := buffer }
      message := opened
      called := none }
  refine ⟨message, answer, wrote, ?_, rfl, rfl⟩
  have noSession : (nodeBegun around).sessionId = 0 := rfl
  rw [processed, if_pos noSession]
  simp only [NodeClient.takeNonce, remoteNonce, ok_bind, pure_eq_ok]
  rfl

/-- A handshake ends as soon as the server has handed over its commands. -/
theorem handshake_cases (nodeHost host : ByteOrder) (gcm : Gcm) (ecdh : Ecdh) (ends : Ends)
    (around : Surroundings) :
    ∃ opening buffer out answer,
      answer.connInfo = some (nodeSession nodeHost host around) ∧
        answer.node.pointerToKey = ends.node.pointerToKey ∧
        ∀ done, handshake nodeHost host gcm ecdh ends around = .ok done ↔
          ∃ result,
            releaseCommands host gcm around.env (serverSession nodeHost host around)
                { ends.server with decryptedMsgBuffer := buffer, sendProcessingBuffer := out }
                ends.devId.bytes [reply host gcm ends around] = .ok result ∧
              done = { opening := opening, result := result, answer := answer } := by
  obtain ⟨opening, msg, buffer, out, ranOpening, connInfo, wroteMsg, processed⟩ :=
    serverStep nodeHost host gcm ecdh ends around
  obtain ⟨message, answer, wroteMessage, ranNode, sessionNode, sameKey⟩ :=
    nodeStep nodeHost host gcm ecdh ends around
  refine ⟨opening, buffer, out, answer, sessionNode, sameKey, fun done => ?_⟩
  simp only [handshake, ranOpening, ok_bind, wroteMsg, processed, connInfo, bind_eq_ok,
    pure_eq_ok]
  refine exists_congr fun result => and_congr_right fun released => ?_
  have first := (releaseCommands_session (serverNonce_ne_zero host around) released).2
  rw [first]
  constructor
  · rintro ⟨message', wrote', answer', ranNode', same⟩
    obtain rfl := Except.ok.inj (wroteMessage.symm.trans wrote')
    obtain rfl := Except.ok.inj (ranNode.symm.trans ranNode')
    exact (Except.ok.inj same).symm
  · rintro rfl
    exact ⟨message, wroteMessage, answer, ranNode, rfl⟩

end Steps

/-! ### Agreement -/

/-- Each end stores the nonce that it has drawn for its own. Both ends have the same session id,
which is the sum of the nonces that each of them stores, and each stores the other's nonces the
other way round. -/
structure Agree (nodeHost host : ByteOrder) (around : Surroundings) (node server : ConnInfo) :
    Prop where
  nodeDrawn : node.localNonce = htonl nodeHost (nonceOf around.draw.localNonce)
  serverDrawn : server.localNonce = htonl host (nonceOf (around.env.draws 0).localNonce)
  sessionId : node.sessionId = server.sessionId
  nodeSum : node.sessionId = node.localNonce + node.remoteNonce
  serverSum : server.sessionId = server.localNonce + server.remoteNonce
  nodeNonce : node.localNonce = server.remoteNonce
  serverNonce : node.remoteNonce = server.localNonce

section Agreement

variable {nodeHost host : ByteOrder} {gcm : Gcm} {ecdh : Ecdh} {ends : Ends}
  {around : Surroundings}

/-- The commands that wait for the device can be released. -/
theorem released_of_fit (around : Surroundings) (server : ServerState)
    (fit : Fit (handedOver ends.devId.bytes ends.server.commandsQueue))
    (sameDevices : server.devInfos = ends.server.devInfos)
    (sameQueue : server.commandsQueue = ends.server.commandsQueue) {connInfo : ConnInfo}
    (nonce : connInfo.localNonce ≠ 0) (first : Bytes) :
    ∃ result frames,
      releaseCommands host gcm around.env connInfo server ends.devId.bytes [first] = .ok result ∧
        result.sent = first :: frames ∧
        (if connInfo.sessionId = 0 then frames = []
        else List.Forall₂ (IsFrameOf host gcm ends.node.pointerToKey.bytes)
          (handedOver ends.devId.bytes ends.server.commandsQueue) frames) := by
  have known : findEncryptionKey server.devInfos ends.devId.bytes =
      some ends.node.pointerToKey := by
    rw [findEncryptionKey, sameDevices, ends.registered, Option.map_some, ends.sameKey]
  by_cases noSession : connInfo.sessionId = 0
  · obtain ⟨reached, ran, sent, -⟩ := sendOffCommands_dropped host gcm around.env
      ⟨connInfo, server.sendProcessingBuffer, [first], 0⟩ fit known noSession nonce
    refine ⟨afterRelease server ends.devId.bytes reached, [], ?_, sent, by rw [if_pos noSession]⟩
    rw [releaseCommands_eq, sameQueue, ran, ok_bind]
  · obtain ⟨reached, frames, ran, sent, carried, -⟩ := sendOffCommands_session host gcm around.env
      ⟨connInfo, server.sendProcessingBuffer, [first], 0⟩ fit known noSession
    refine ⟨afterRelease server ends.devId.bytes reached, frames, ?_, sent, ?_⟩
    · rw [releaseCommands_eq, sameQueue, ran, ok_bind]
    · rw [if_neg noSession]
      exact carried

/-- A handshake completes if the commands that it releases can be sent. -/
theorem handshake_completes (nodeHost host : ByteOrder) (gcm : Gcm) (ecdh : Ecdh) (ends : Ends)
    (around : Surroundings) (fit : Fit (handedOver ends.devId.bytes ends.server.commandsQueue)) :
    ∃ done, handshake nodeHost host gcm ecdh ends around = .ok done := by
  obtain ⟨opening, buffer, out, answer, -, -, cases⟩ :=
    handshake_cases nodeHost host gcm ecdh ends around
  have nonce : (serverSession nodeHost host around).localNonce ≠ 0 :=
    serverNonce_ne_zero host around
  obtain ⟨result, frames, released, -⟩ := released_of_fit around
    { ends.server with decryptedMsgBuffer := buffer, sendProcessingBuffer := out } fit rfl rfl
    nonce (reply host gcm ends around)
  exact ⟨_, (cases _).mpr ⟨result, released, rfl⟩⟩

/-- After every handshake the two ends agree on the nonces that they drew, whatever these are and
whatever the byte orders of the two hosts are, and no handshake fails whose commands can be
sent. -/
theorem handshake_agrees (nodeHost host : ByteOrder) (gcm : Gcm) (ecdh : Ecdh) (ends : Ends)
    (around : Surroundings) :
    (∀ done, handshake nodeHost host gcm ecdh ends around = .ok done →
      ∃ connInfo, done.answer.connInfo = some connInfo ∧
        Agree nodeHost host around connInfo done.result.connInfo) ∧
    (Fit (handedOver ends.devId.bytes ends.server.commandsQueue) →
      ∃ done, handshake nodeHost host gcm ecdh ends around = .ok done) := by
  obtain ⟨opening, buffer, out, answer, sessionNode, -, cases⟩ :=
    handshake_cases nodeHost host gcm ecdh ends around
  refine ⟨fun done ran => ?_, handshake_completes nodeHost host gcm ecdh ends around⟩
  obtain ⟨result, released, rfl⟩ := (cases done).mp ran
  have same := (releaseCommands_session (serverNonce_ne_zero host around) released).1
  refine ⟨_, sessionNode, ?_⟩
  rw [same]
  exact
    { nodeDrawn := rfl
      serverDrawn := rfl
      sessionId := rfl
      nodeSum := rfl
      serverSum := UInt32.add_comm _ _
      nodeNonce := rfl
      serverNonce := rfl }

end Agreement

/-- Node and server have the zero key where nothing has been set. -/
theorem zeroKey : (default : DevInfo).key = (default : NodeState).pointerToKey := rfl

/-- The device of zeros is found among the devices that it is the only one of. -/
theorem zeroKnown : findDevInfo [default] (default : Block devIdLen).bytes = some default := by
  simp only [findDevInfo]
  decide +kernel

/-- A node and a server that know each other by the zero key. -/
def sampleEnds (commandsQueue : List CommandRequest) : Ends :=
  { node := { (default : NodeState) with hasEncryptionContextBeenEstablished := true }
    devId := default
    server :=
      { devInfos := [default]
        savedDevices := []
        commandsQueue := commandsQueue
        decryptedMsgBuffer := default
        sendProcessingBuffer := default }
    devInfo := default
    registered := zeroKnown
    sameKey := zeroKey }

/-- What the two ends draw, everything else being zero. -/
def drawing (nodeRandom serverRandom : UInt32) : Surroundings :=
  { (default : Surroundings) with
    draw := { (default : Draw) with localNonce := nodeRandom }
    env := { (default : ServerEnv) with
      draws := fun _ => { (default : Draw) with localNonce := serverRandom } } }

/-- A little-endian node and a big-endian server. -/
theorem handshake_agrees_mixed :
    ∃ done, handshake .little .big RoundTrip.zeroKeyGcm degenerateEcdh (sampleEnds [])
        (drawing 17 0) = .ok done ∧
      ∃ connInfo, done.answer.connInfo = some connInfo ∧
        Agree .little .big (drawing 17 0) connInfo done.result.connInfo := by
  obtain ⟨agrees, ends⟩ := handshake_agrees .little .big RoundTrip.zeroKeyGcm degenerateEcdh
    (sampleEnds []) (drawing 17 0)
  obtain ⟨done, ran⟩ := ends (fun command impossible => by cases impossible)
  exact ⟨done, ran, agrees done ran⟩

/-! ### Use -/

/-- What a session is for: the commands that wait for the device have been sent, and every later
message of the node is dispatched. -/
structure Usable (nodeHost host : ByteOrder) (gcm : Gcm) (ecdh : Ecdh) (ends : Ends)
    (done : Outcome) : Prop where
  onNode : ∃ connInfo, done.answer.connInfo = some connInfo ∧ connInfo.sessionId ≠ 0
  onServer : done.result.connInfo.sessionId ≠ 0
  released : ∀ commands ∈ entriesFor ends.devId.bytes ends.server.commandsQueue,
    ∀ command ∈ commands, ∃ sent ∈ done.result.sent.tail,
      IsFrameOf host gcm ends.node.pointerToKey.bytes command sent
  dispatched : ∀ addMalloced encryptedMalloced draw (outBuf : Block maxMsgLen) env cmdInfo command
      nodeConnInfo connInfo (server : ServerState) devInfo,
    done.answer.connInfo = some connInfo → SameSession connInfo nodeConnInfo →
    cmdInfo.devId = ends.devId → findDevInfo server.devInfos ends.devId.bytes = some devInfo →
    devInfo.key = ends.devInfo.key → cmdInfo.argsLen.toNat ≤ cmdInfo.args.length →
    NodeMessageDelivery.messageLength cmdInfo ≤ maxMsgLen →
    serverCommands (NodeMessageDelivery.commandRow cmdInfo) cmdInfo.opcode = .ok command →
    ∃ out sent,
      NodeClient.sendNodeMessage nodeHost gcm addMalloced encryptedMalloced draw nodeConnInfo
          done.answer.node cmdInfo outBuf =
        .ok
          { returnValue := 0
            connInfo := some (afterSend nodeConnInfo)
            outBuf := out
            sent := some sent } ∧
        ∀ msg : Block maxMsgLen, sent <+: msg.bytes →
          NodeMessageDelivery.Dispatched host gcm ecdh env done.result.connInfo server msg cmdInfo
            command

section Use

variable {nodeHost host : ByteOrder} {gcm : Gcm} {ecdh : Ecdh} {ends : Ends}
  {around : Surroundings}

/-- The list of waiting commands is one that calls have left. -/
def QueueLeft (commandsQueue : List CommandRequest) : Prop :=
  ∃ calls reached, history calls = .ok reached ∧ reached.commandsQueue = commandsQueue

/-- With a session id every command that waits for the device is sent. -/
theorem released_all {env : ServerEnv} {connInfo : ConnInfo} {server : ServerState}
    {devId first : Bytes} {key : Block keyLen} {result : ServerResult}
    (ran : releaseCommands host gcm env connInfo server devId [first] = .ok result)
    (established : connInfo.sessionId ≠ 0)
    (nested : CommandQueueFifo.Nested server.commandsQueue)
    (known : findEncryptionKey server.devInfos devId = some key) :
    ∀ commands ∈ entriesFor devId server.commandsQueue, ∀ command ∈ commands,
      ∃ sent ∈ result.sent.tail, IsFrameOf host gcm key.bytes command sent := by
  rw [releaseCommands_eq] at ran
  obtain ⟨reached, ranSends, ran⟩ := bind_eq_ok.mp ran
  obtain rfl := Except.ok.inj ran
  have fit := fit_of_sendOffCommands known established ranSends
  obtain ⟨reached', frames, ranSends', sent, carried, -⟩ := sendOffCommands_session host gcm env
    ⟨connInfo, server.sendProcessingBuffer, [first], 0⟩ fit known established
  obtain rfl := Except.ok.inj (ranSends'.symm.trans ranSends)
  intro commands queued command inside
  have handed := CommandQueueFifo.subset_handedOver nested queued inside
  simp only [afterRelease, sent, List.singleton_append, List.tail_cons]
  exact forall₂_mem carried handed

/-- A handshake that has been completed has established a usable session exactly if the two nonces,
as the ends store them, do not add up to zero. -/
theorem usable_iff {done : Outcome} (left : QueueLeft ends.server.commandsQueue)
    (ran : handshake nodeHost host gcm ecdh ends around = .ok done) :
    Usable nodeHost host gcm ecdh ends done ↔
      nodeNonce nodeHost around + serverNonce host around ≠ 0 := by
  obtain ⟨opening, buffer, out, answer, sessionNode, sameKey, cases⟩ :=
    handshake_cases nodeHost host gcm ecdh ends around
  obtain ⟨result, released, rfl⟩ := (cases done).mp ran
  have session := (releaseCommands_session (serverNonce_ne_zero host around) released).1
  constructor
  · intro usable
    have onServer := usable.onServer
    rw [session] at onServer
    exact onServer
  · intro nonzero
    obtain ⟨calls, reached, ranCalls, same⟩ := left
    have nested : CommandQueueFifo.Nested ends.server.commandsQueue :=
      same ▸ CommandQueueFifo.history_nested ranCalls
    have known : findEncryptionKey ends.server.devInfos ends.devId.bytes =
        some ends.node.pointerToKey := by
      rw [findEncryptionKey, ends.registered, Option.map_some, ends.sameKey]
    refine
      { onNode := ⟨_, sessionNode, nonzero⟩
        onServer := by rw [session]; exact nonzero
        released := ?_
        dispatched := ?_ }
    · apply released_all released
      · exact nonzero
      · exact nested
      · exact known
    intro addMalloced encryptedMalloced draw outBuf env cmdInfo command nodeConnInfo connInfo server
      devInfo known sameSession own registered key wellFormed fits inTable
    obtain rfl := Option.some.inj (sessionNode.symm.trans known)
    have onNode : nodeConnInfo.sessionId ≠ 0 := by
      rw [sameSession]
      exact nonzero
    obtain ⟨out, sent, ranSend, -, dispatched⟩ :=
      NodeMessageDelivery.nodeMessage_dispatched nodeHost host gcm ecdh addMalloced
        encryptedMalloced draw outBuf env result.connInfo (own ▸ registered)
        ((key.trans ends.sameKey).trans sameKey.symm) onNode (by rw [session]; rfl)
        (by rw [session]; exact nodeNonce_ne_zero nodeHost around)
        (by rw [session]; exact nonzero) wellFormed fits inTable
    exact ⟨out, sent, ranSend, dispatched⟩

/-- A list with one command for the device. -/
def oneWaiting : List CommandRequest :=
  [{ devId := List.replicate devIdLen 0, commandRequestsCommands := [passcodeCommand] }]

/-- The queue with one command has been left as it should be. -/
theorem oneWaiting_left : QueueLeft oneWaiting :=
  ⟨[.addToCommandQueue (List.replicate devIdLen 0) passcodeCommand], _, rfl, rfl⟩

/-- A change of the passcode fits its containers. -/
theorem passcode_fit : Fit [passcodeCommand] := by
  intro command known
  obtain rfl := List.mem_singleton.mp known
  refine ⟨⟨?_, ?_⟩, by decide⟩
  · rintro argsPtr given
    obtain rfl := Option.some.inj given
    decide
  · rintro addPtr impossible
    cases impossible

/-- With other nonces the command is sent. -/
theorem usable_sample :
    ∃ done, handshake .little .little RoundTrip.zeroKeyGcm degenerateEcdh (sampleEnds oneWaiting)
        (drawing 1 2) = .ok done ∧
      Usable .little .little RoundTrip.zeroKeyGcm degenerateEcdh (sampleEnds oneWaiting) done := by
  obtain ⟨done, ran⟩ := handshake_completes .little .little RoundTrip.zeroKeyGcm degenerateEcdh
    (sampleEnds oneWaiting) (drawing 1 2) passcode_fit
  exact ⟨done, ran, (usable_iff oneWaiting_left ran).mpr (by decide)⟩

/-- AES-GCM under the zero key and the zero vector: its keystream and its tags over the frames of
the two ends that draw 1 and 255. -/
def zeroSumGcm : Gcm :=
  { keystream := fun _ _ index => [3, 136, 218, 206, 96, 182, 163, 146].getD index 0
    authenticate := fun _ _ add _ =>
      if add.length = 32 then
        ⟨[199, 119, 9, 89, 22, 69, 231, 158, 162, 177, 134, 163, 166, 30, 83, 240], rfl⟩
      else ⟨[0, 242, 78, 103, 19, 122, 235, 26, 124, 38, 154, 136, 66, 75, 143, 254], rfl⟩ }

/-- Two little-endian ends that draw 1 and 255: both have the session id zero, and the command
that was waiting is neither sent nor left. -/
theorem zeroSum_not_usable :
    ∃ done, handshake .little .little zeroSumGcm degenerateEcdh (sampleEnds oneWaiting)
        (drawing 1 255) = .ok done ∧
      done.answer.connInfo.map ConnInfo.sessionId = some 0 ∧
      done.result.connInfo.sessionId = 0 ∧ done.result.sent.length = 1 ∧
      done.result.server.commandsQueue = [] ∧
      ¬ Usable .little .little zeroSumGcm degenerateEcdh (sampleEnds oneWaiting) done := by
  have ran : (handshake .little .little zeroSumGcm degenerateEcdh (sampleEnds oneWaiting)
      (drawing 1 255)).map (fun done =>
        (done.answer.connInfo.map ConnInfo.sessionId, done.result.connInfo.sessionId,
          done.result.sent.length, done.result.server.commandsQueue)) =
      .ok (some 0, 0, 1, []) := by
    decide +kernel
  obtain ⟨done, completed, view⟩ := map_eq_ok.mp ran
  obtain ⟨onNode, view⟩ := Prod.mk.inj view
  obtain ⟨onServer, view⟩ := Prod.mk.inj view
  obtain ⟨sent, queue⟩ := Prod.mk.inj view
  exact ⟨done, completed, onNode, onServer, sent, queue, fun usable => usable.onServer onServer⟩

end Use

end RentMate.Handshake
