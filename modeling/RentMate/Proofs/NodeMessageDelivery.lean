/-
Module: RentMate.Proofs.NodeMessageDelivery
Purpose: What becomes of a node's message between `composeNodeMessage` and the handler on the
  server, in an established session.
Trusted boundary: none
Main exports: sendNodeMessage_ok, Reaches, nodeMessage_reaches
-/
import RentMate.Proofs.SessionCodec
import RentMate.Proofs.RoundTrip

namespace RentMate.NodeMessageDelivery

open RentMate.Machine
open RentMate.PckData
open RentMate.MainServer
open RentMate.NodeClient (NodeState NodeCmdInfo composeNodeMessage sendNodeMessage)
open RentMate.ContainerCodec
open RentMate.MessageCodec
open RentMate.SessionCodec
open RentMate.ServerSteps

/-! ### Composing the message -/

/-- The argument bytes of a node's message. -/
def argsOf (cmdInfo : NodeCmdInfo) : Bytes := cmdInfo.args.take cmdInfo.argsLen.toNat

/-- The elements of the encrypted container. The two words are in network order. -/
def encryptedElements (cmdInfo : NodeCmdInfo) : List Bytes :=
  [ByteOrder.big.encode cmdInfo.devType, ByteOrder.big.encode cmdInfo.opcode, argsOf cmdInfo]

/-- The length of the message that is composed. -/
def messageLength (cmdInfo : NodeCmdInfo) : Nat :=
  headerLen + (protocolSpecificAddLen + (8 + (4 + devIdLen))) +
    (protocolSpecificEncryptedDataLen + (8 + (4 + 4) + (4 + 4) + (4 + cmdInfo.argsLen.toNat)))

/-- The length of the encrypted container. -/
def encryptedLength (cmdInfo : NodeCmdInfo) : Nat :=
  8 + (4 + 4) + (4 + 4) + (4 + cmdInfo.argsLen.toNat)

/-- What fits a message fits its encrypted container. -/
theorem encryptedLength_le {cmdInfo : NodeCmdInfo} (fits : messageLength cmdInfo ≤ maxMsgLen) :
    encryptedLength cmdInfo ≤ pckDataIncrements := by
  have sizes := layout
  have room : maxMsgLen = 255 ∧ pckDataIncrements = 255 := ⟨rfl, rfl⟩
  unfold messageLength at fits
  unfold encryptedLength
  omega

/-- The containers carry a node's message. -/
structure Carries (cmdInfo : NodeCmdInfo) (container add : Container) : Prop where
  encrypted : container.elements = encryptedElements cmdInfo
  add : add.elements = [cmdInfo.devId.bytes]

section Composing

variable {host : ByteOrder} {cmdInfo : NodeCmdInfo} {elements : List Bytes}
  {object : Block pckDataIncrements} {container add : Container}

/-- The arguments are as long as the message says. -/
theorem length_argsOf (wellFormed : cmdInfo.argsLen.toNat ≤ cmdInfo.args.length) :
    (argsOf cmdInfo).length = cmdInfo.argsLen.toNat := by
  simp [argsOf, wellFormed]

/-- A container that has just been built is printed and left alone. -/
theorem printPckData_built (built : Built host object elements) :
    printPckData host object 0 false = .ok object := by
  obtain ⟨container, rest, content, -, -⟩ := built
  have start : object.bytes = [] ++ (container.bytes host ++ rest) := content
  exact printPckData_plain container start rfl

/-- A node's message is composed but for its arguments, and these come last. -/
theorem composeNodeMessage_eq (host : ByteOrder)
    (addMalloced encryptedMalloced : Block pckDataIncrements) (cmdInfo : NodeCmdInfo) :
    ∃ begun added, Built host begun
        [ByteOrder.big.encode cmdInfo.devType, ByteOrder.big.encode cmdInfo.opcode] ∧
      Built host added [cmdInfo.devId.bytes] ∧
      composeNodeMessage host addMalloced encryptedMalloced cmdInfo =
        (readBytes cmdInfo.args 0 cmdInfo.argsLen.toNat >>= fun args =>
          appendToPckData host begun args).map fun encrypted => (encrypted, added) := by
  obtain ⟨a0, ranA0, builtA0⟩ := initPckData_ok host addMalloced
  obtain ⟨e0, ranE0, builtE0⟩ := initPckData_ok host encryptedMalloced
  obtain ⟨a1, ranA1, builtA1⟩ := appendToPckData_ok builtA0 cmdInfo.devId.bytes
    (by rw [cmdInfo.devId.allocated]; decide)
  obtain ⟨e1, ranE1, builtE1⟩ :=
    appendToPckData_ok builtE0 (ByteOrder.big.encode cmdInfo.devType) (by simp; decide)
  obtain ⟨e2, ranE2, builtE2⟩ :=
    appendToPckData_ok builtE1 (ByteOrder.big.encode cmdInfo.opcode) (by simp; decide)
  refine ⟨e2, a1, builtE2, builtA1, ?_⟩
  simp only [composeNodeMessage, ranA0, ranE0, ranA1, encode_htonl, ranE1, ranE2, ok_bind]
  rw [← bind_assoc]
  cases appended : readBytes cmdInfo.args 0 cmdInfo.argsLen.toNat >>= fun args =>
      appendToPckData host e2 args with
  | error fault => rfl
  | ok encrypted =>
      obtain ⟨-, built⟩ := append_part builtE2 appended
      simp only [ok_bind, printPckData_built built, printPckData_built builtA1, pure_eq_ok,
        Except.map]

/-- The containers of a message that has been composed hold what they should. -/
theorem built_of_composed {addMalloced encryptedMalloced encrypted add : Block pckDataIncrements}
    (ran : composeNodeMessage host addMalloced encryptedMalloced cmdInfo = .ok (encrypted, add)) :
    Built host encrypted (encryptedElements cmdInfo) ∧ Built host add [cmdInfo.devId.bytes] := by
  obtain ⟨begun, added, builtBegun, builtAdd, composed⟩ :=
    composeNodeMessage_eq host addMalloced encryptedMalloced cmdInfo
  rw [composed] at ran
  obtain ⟨whole, appended, same⟩ := map_eq_ok.mp ran
  obtain ⟨rfl, rfl⟩ := Prod.mk.inj same
  exact ⟨(append_part builtBegun appended).2, builtAdd⟩

/-- Both containers of a message are built from its elements. -/
theorem composeNodeMessage_ok (host : ByteOrder)
    (addMalloced encryptedMalloced : Block pckDataIncrements)
    (wellFormed : cmdInfo.argsLen.toNat ≤ cmdInfo.args.length)
    (fits : encryptedLength cmdInfo ≤ pckDataIncrements) :
    ∃ encrypted add,
      composeNodeMessage host addMalloced encryptedMalloced cmdInfo = .ok (encrypted, add) ∧
        Built host encrypted (encryptedElements cmdInfo) ∧
        Built host add [cmdInfo.devId.bytes] := by
  have length := length_argsOf wellFormed
  unfold encryptedLength at fits
  obtain ⟨begun, added, builtBegun, builtAdd, composed⟩ :=
    composeNodeMessage_eq host addMalloced encryptedMalloced cmdInfo
  obtain ⟨whole, appended, built⟩ := appendToPckData_ok builtBegun (argsOf cmdInfo) (by
    rw [length]
    simp only [elementsLength, List.map_cons, ByteOrder.encode_length, List.map_nil,
      List.sum_cons, List.sum_nil]
    omega)
  have readArgs : readBytes cmdInfo.args 0 cmdInfo.argsLen.toNat = .ok (argsOf cmdInfo) :=
    readBytes_ok (by omega)
  refine ⟨whole, added, ?_, built, builtAdd⟩
  rw [composed, readArgs, ok_bind, appended]
  rfl

/-- The length of the encrypted container of a message. -/
theorem Carries.encryptedLength_eq (carries : Carries cmdInfo container add)
    (wellFormed : cmdInfo.argsLen.toNat ≤ cmdInfo.args.length) :
    givenLength (some container) = encryptedLength cmdInfo := by
  simp only [givenLength, Container.length, carries.encrypted, encryptedElements, encryptedLength,
    elementsLength, List.map_cons, List.map_nil, List.sum_cons, List.sum_nil,
    ByteOrder.encode_length, length_argsOf wellFormed]
  omega

/-- Both containers of a message have elements. -/
theorem Carries.begun (carries : Carries cmdInfo container add) :
    Begun (some container) ∧ Begun (some add) := by
  constructor
  · exact begun_some (by simp [carries.encrypted, encryptedElements])
  · exact begun_some (by simp [carries.add])

/-- The length of the message that is composed. -/
theorem Carries.composedLength_eq (carries : Carries cmdInfo container add)
    (wellFormed : cmdInfo.argsLen.toNat ≤ cmdInfo.args.length) :
    composedLength (some container) (some add) none = messageLength cmdInfo := by
  have addLength : givenLength (some add) = 8 + (4 + devIdLen) := by
    simp only [givenLength, Container.length, carries.add, elementsLength, List.map_cons,
      List.map_nil, List.sum_cons, List.sum_nil, cmdInfo.devId.allocated, Nat.add_zero]
  rw [composedLength, carries.encryptedLength_eq wellFormed, addLength, messageLength]
  rfl

end Composing

/-! ### Sending the message -/

section Sending

variable {cmdInfo : NodeCmdInfo} {connInfo : ConnInfo}

/-- In an established session one frame that carries the message is sent. -/
theorem sendNodeMessage_ok (host : ByteOrder) (gcm : Gcm)
    (addMalloced encryptedMalloced : Block pckDataIncrements) (draw : Draw) (node : NodeState)
    (outBuf : Block maxMsgLen) (wellFormed : cmdInfo.argsLen.toNat ≤ cmdInfo.args.length)
    (fits : messageLength cmdInfo ≤ maxMsgLen) (established : connInfo.sessionId ≠ 0) :
    ∃ container add out, Carries cmdInfo container add ∧
      sendNodeMessage host gcm addMalloced encryptedMalloced draw connInfo node cmdInfo outBuf =
        .ok
          { returnValue := 0
            connInfo := some (afterSend connInfo)
            outBuf := out
            sent := some (frame gcm node.pointerToKey.bytes draw.newIv.bytes (some container)
              (some add) 0 (nextNonce host connInfo)) } := by
  obtain ⟨encrypted, added, ranCompose, builtEnc, builtAdd⟩ :=
    composeNodeMessage_ok host addMalloced encryptedMalloced wellFormed (encryptedLength_le fits)
  obtain ⟨container, sameEnc, givenEnc⟩ := given_of_built builtEnc
  obtain ⟨add, sameAdd, givenAdd⟩ := given_of_built builtAdd
  have carries : Carries cmdInfo container add := ⟨sameEnc, sameAdd⟩
  have sendable : Sendable host (some encrypted) (some added) (some container) (some add) :=
    { givenEnc := givenEnc
      givenAdd := givenAdd
      begunEnc := carries.begun.1
      begunAdd := carries.begun.2
      fits := by rw [carries.composedLength_eq wellFormed]; exact fits }
  obtain ⟨out, ran⟩ := encryptAndSendAll_session gcm node.pointerToKey.bytes sendable established 0
    draw outBuf
  refine ⟨container, add, out, carries, ?_⟩
  simp only [sendNodeMessage, ranCompose, ok_bind, ran]

end Sending

/-! ### The registry under a message -/

section Registry

variable {devInfos changed : List DevInfo} {devId : Bytes} {old : DevInfo}

/-- An update that cannot fail leaves a list. -/
theorem updateDevInfo_total (devId : Bytes) {update : DevInfo → Checked DevInfo}
    (total : ∀ old, ∃ new, update old = .ok new) (devInfos : List DevInfo) :
    ∃ changed, updateDevInfo devId update devInfos = .ok changed := by
  induction devInfos with
  | nil => exact ⟨[], rfl⟩
  | cons devInfo rest ih =>
      rw [updateDevInfo]
      split
      · obtain ⟨new, ran⟩ := total devInfo
        rw [ran]
        exact ⟨_, rfl⟩
      · obtain ⟨behind, ran⟩ := ih
        rw [ran]
        exact ⟨_, rfl⟩

/-- The entry that is found is the one that an update changes. -/
theorem findDevInfo_updated {update : DevInfo → Checked DevInfo}
    (keeps : ∀ old new, update old = .ok new → new.devId = old.devId)
    (ran : updateDevInfo devId update devInfos = .ok changed)
    (found : findDevInfo devInfos devId = some old) :
    ∃ new, update old = .ok new ∧ findDevInfo changed devId = some new := by
  induction devInfos generalizing changed with
  | nil => cases found
  | cons devInfo rest ih =>
      rw [updateDevInfo] at ran
      split at ran
      · rename_i own
        obtain ⟨updated, ranUpdate, ran⟩ := bind_eq_ok.mp ran
        obtain rfl := Except.ok.inj ran
        rw [findDevInfo, List.find?_cons_of_pos (by simpa using own)] at found
        obtain rfl := Option.some.inj found
        refine ⟨updated, ranUpdate, ?_⟩
        rw [findDevInfo, List.find?_cons_of_pos (by simpa [keeps _ _ ranUpdate] using own)]
      · rename_i other
        obtain ⟨behind, ranBehind, ran⟩ := bind_eq_ok.mp ran
        obtain rfl := Except.ok.inj ran
        rw [findDevInfo, List.find?_cons_of_neg (by simpa using other)] at found
        obtain ⟨new, ranUpdate, foundNew⟩ := ih ranBehind found
        refine ⟨new, ranUpdate, ?_⟩
        rw [findDevInfo, List.find?_cons_of_neg (by simpa using other)]
        exact foundNew

/-- No handler changes the type of the device that it is called for. -/
theorem runServerCommand_devType {call : ServerCall} {password : Block 12}
    (ran : runServerCommand devInfos call password = .ok changed)
    (found : findDevInfo devInfos call.devId = some old) :
    ∃ new, findDevInfo changed call.devId = some new ∧ new.devType = old.devType := by
  rcases ServerSteps.runServerCommand_cases ran with rfl | ⟨update, updated, keeps⟩
  · exact ⟨old, found, rfl⟩
  · obtain ⟨new, given, foundNew⟩ :=
      findDevInfo_updated (fun old new given => (keeps old new given).1) updated found
    exact ⟨new, foundNew, (keeps old new given).2.2⟩

end Registry

/-! ### Receiving the message -/

/-- The call that a node's message is meant to lead to. -/
def intendedCall (cmdInfo : NodeCmdInfo) (command : ServerCommand) : ServerCall :=
  { command := command
    devId := cmdInfo.devId.bytes
    devtype := cmdInfo.devType.toUInt8
    args := argsOf cmdInfo
    argsLen := cmdInfo.argsLen }

/-- The row of the command table that an opcode is looked up in. -/
def commandRow (cmdInfo : NodeCmdInfo) : UInt32 :=
  if cmdInfo.opcode ≤ nodeToServerReservedOpCodesUpperLimit then 0 else cmdInfo.devType

/-- What `processMsg` returns and leaves after the handler. -/
def afterCall (connInfo : ConnInfo) (server : ServerState) (call : ServerCall)
    (devInfos : List DevInfo) : ServerResult :=
  { returnValue := none
    connInfo := connInfo
    server := { server with devInfos := devInfos }
    msg := Block.fill maxMsgLen 0
    sent := []
    called := some call }

section Receiving

variable {host : ByteOrder} {env : ServerEnv} {connInfo : ConnInfo} {server : ServerState}
  {msg : Block maxMsgLen} {iv tag rest : Bytes} {cmdInfo : NodeCmdInfo} {container add : Container}
  {pckGSettings nonce : UInt32} {devInfos : List DevInfo} {command : ServerCommand}

/-- The server sets the type of the device and runs the handler of the opcode on the third element.
What follows it is not looked at. -/
theorem dispatchMessage_present (env : ServerEnv) (connInfo : ConnInfo) (sized : Sealed iv tag)
    {devtype opcode : UInt32} {devId args : Bytes}
    (first : container.elements[0]? = some (ByteOrder.big.encode devtype))
    (second : container.elements[1]? = some (ByteOrder.big.encode opcode))
    (third : container.elements[2]? = some args)
    (set : updateDevInfo devId (fun devInfo => .ok { devInfo with devType := devtype })
      server.devInfos = .ok devInfos)
    (registered : serverCommands
      (if opcode ≤ nodeToServerReservedOpCodesUpperLimit then 0 else devtype) opcode =
        .ok command)
    (content : msg.bytes =
      openedMessage host iv tag 0 (some container) (some add) pckGSettings nonce ++ rest) :
    dispatchMessage host env connInfo server msg (encryptedPckDataPtr (some add)) devId =
      (runServerCommand devInfos ⟨command, devId, devtype.toUInt8, args, UInt32.ofNat args.length⟩
          env.password >>= fun changed =>
        .ok (afterCall connInfo server
          ⟨command, devId, devtype.toUInt8, args, UInt32.ofNat args.length⟩ changed)) := by
  have room : maxMsgLen = 255 ∧ MainServer.stackSize = 8388608 := ⟨rfl, rfl⟩
  obtain ⟨-, front, position, place⟩ := opened_place sized content
  have inside := element_inside place third
  have length : (UInt32.ofNat args.length).toNat = args.length := by
    rw [UInt32.toNat_ofNat']
    omega
  obtain ⟨devtypeRead, sameType, ranType⟩ := getElement_full env.devtype place position first
    (ByteOrder.encode_ne_nil _ _) (ByteOrder.encode_length _ _)
  obtain ⟨opcodeRead, sameOpcode, ranOpcode⟩ := getElement_full env.opcode place position second
    (ByteOrder.encode_ne_nil _ _) (ByteOrder.encode_length _ _)
  have ranLength := getElementLength_ok place position third
  obtain ⟨found, argsRead, sameArgs, ranArgs⟩ := getElement_sized
    (env.args (UInt32.ofNat args.length).toNat) place position third length.symm
  have short : ¬ MainServer.stackSize < (UInt32.ofNat args.length).toNat := by omega
  simp only [dispatchMessage, ranType, ranOpcode, ranLength, if_neg short, ranArgs, sameType,
    sameOpcode, sameArgs, ntohl_decode_big, set, ok_bind, registered]
  rfl

/-- What a node has composed is dispatched as it intends. -/
theorem dispatchMessage_carried (env : ServerEnv) (connInfo : ConnInfo) (sized : Sealed iv tag)
    (carries : Carries cmdInfo container add)
    (wellFormed : cmdInfo.argsLen.toNat ≤ cmdInfo.args.length)
    (set : updateDevInfo cmdInfo.devId.bytes
      (fun devInfo => .ok { devInfo with devType := cmdInfo.devType }) server.devInfos =
        .ok devInfos)
    (registered : serverCommands (commandRow cmdInfo) cmdInfo.opcode = .ok command)
    (content : msg.bytes =
      openedMessage host iv tag 0 (some container) (some add) pckGSettings nonce ++ rest) :
    dispatchMessage host env connInfo server msg (encryptedPckDataPtr (some add))
        cmdInfo.devId.bytes =
      (runServerCommand devInfos (intendedCall cmdInfo command) env.password >>= fun changed =>
        .ok (afterCall connInfo server (intendedCall cmdInfo command) changed)) := by
  have length := length_argsOf wellFormed
  have first : container.elements[0]? = some (ByteOrder.big.encode cmdInfo.devType) := by
    simp [carries.encrypted, encryptedElements]
  have second : container.elements[1]? = some (ByteOrder.big.encode cmdInfo.opcode) := by
    simp [carries.encrypted, encryptedElements]
  have third : container.elements[2]? = some (argsOf cmdInfo) := by
    simp [carries.encrypted, encryptedElements]
  have dispatched := dispatchMessage_present env connInfo sized first second third set registered
    content
  rw [length, UInt32.ofNat_toNat] at dispatched
  exact dispatched

end Receiving

/-! ### From one end to the other -/

/-- The two ends of an established session: a device that is registered with the key of the node,
and a session id on both ends. -/
structure Session where
  node : NodeState
  nodeConnInfo : ConnInfo
  server : ServerState
  connInfo : ConnInfo
  devId : Block devIdLen
  devInfo : DevInfo
  registered : findDevInfo server.devInfos devId.bytes = some devInfo
  sameKey : devInfo.key = node.pointerToKey
  onNode : nodeConnInfo.sessionId ≠ 0
  fromNode : connInfo.connectionType = 0
  nonceTaken : connInfo.remoteNonce ≠ 0
  onServer : connInfo.sessionId ≠ 0

/-- What the server has done with a node's message. -/
structure Handled (session : Session) (cmdInfo : NodeCmdInfo) (command : ServerCommand)
    (result : ServerResult) : Prop where
  called : result.called = some (intendedCall cmdInfo command)
  devType : ∃ devInfo, findDevInfo result.server.devInfos session.devId.bytes = some devInfo ∧
    devInfo.devType = cmdInfo.devType
  others : UpdatedFor session.devId.bytes session.server.devInfos result.server.devInfos

/-- `processMsg` sets the type of the device, makes the intended call and returns what the handler
leaves. -/
def Dispatched (host : ByteOrder) (gcm : Gcm) (ecdh : Ecdh) (env : ServerEnv) (connInfo : ConnInfo)
    (server : ServerState) (msg : Block maxMsgLen) (cmdInfo : NodeCmdInfo)
    (command : ServerCommand) : Prop :=
  ∃ devInfos buffer,
    updateDevInfo cmdInfo.devId.bytes
        (fun devInfo => .ok { devInfo with devType := cmdInfo.devType }) server.devInfos =
      .ok devInfos ∧
      MainServer.processMsg host gcm ecdh env connInfo server msg =
        (runServerCommand devInfos (intendedCall cmdInfo command) env.password >>= fun changed =>
          .ok (afterCall connInfo { server with decryptedMsgBuffer := buffer }
            (intendedCall cmdInfo command) changed))

/-- One frame is sent for the message, and wherever the server receives it unmodified, whatever
lies behind it in the buffer, it makes the intended call; if the handler returns, the type of the
device is set and no other device has changed. -/
def Reaches (nodeHost host : ByteOrder) (gcm : Gcm) (ecdh : Ecdh)
    (addMalloced encryptedMalloced : Block pckDataIncrements) (draw : Draw)
    (outBuf : Block maxMsgLen) (env : ServerEnv) (session : Session) (cmdInfo : NodeCmdInfo)
    (command : ServerCommand) : Prop :=
  ∃ out sent,
    sendNodeMessage nodeHost gcm addMalloced encryptedMalloced draw session.nodeConnInfo
        session.node cmdInfo outBuf =
      .ok
        { returnValue := 0
          connInfo := some (afterSend session.nodeConnInfo)
          outBuf := out
          sent := some sent } ∧
      sent.length ≤ maxMsgLen ∧
      ∀ msg : Block maxMsgLen, sent <+: msg.bytes →
        Dispatched host gcm ecdh env session.connInfo session.server msg cmdInfo command ∧
          ∀ result,
            MainServer.processMsg host gcm ecdh env session.connInfo session.server msg =
              .ok result → Handled session cmdInfo command result

section Reaching

variable {nodeHost host : ByteOrder} {gcm : Gcm} {ecdh : Ecdh}
  {addMalloced encryptedMalloced : Block pckDataIncrements} {draw : Draw}
  {outBuf : Block maxMsgLen} {env : ServerEnv} {session : Session} {cmdInfo : NodeCmdInfo}
  {command : ServerCommand} {devInfos changed : List DevInfo} {buffer : Block maxMsgLen}

/-- A handler that returns leaves the type of the device set and the other devices alone. -/
theorem handled_of_ran (own : cmdInfo.devId = session.devId)
    (set : updateDevInfo session.devId.bytes
      (fun devInfo => .ok { devInfo with devType := cmdInfo.devType }) session.server.devInfos =
        .ok devInfos)
    (ran : runServerCommand devInfos (intendedCall cmdInfo command) env.password = .ok changed) :
    Handled session cmdInfo command
      (afterCall session.connInfo { session.server with decryptedMsgBuffer := buffer }
        (intendedCall cmdInfo command) changed) := by
  have ownCall : (intendedCall cmdInfo command).devId = session.devId.bytes := by
    rw [intendedCall, own]
  obtain ⟨new, updated, foundNew⟩ := findDevInfo_updated (by
    intro old new updated
    obtain rfl := Except.ok.inj updated
    rfl) set session.registered
  obtain rfl := Except.ok.inj updated
  obtain ⟨last, foundLast, sameType⟩ := runServerCommand_devType ran (ownCall ▸ foundNew)
  have setOnly : UpdatedFor session.devId.bytes session.server.devInfos devInfos := by
    refine updateDevInfo_updatedFor ?_ set
    intro old new updated
    obtain rfl := Except.ok.inj updated
    exact ⟨rfl, rfl⟩
  have handlerOnly := runServerCommand_updatedFor ran
  rw [ownCall] at foundLast handlerOnly
  exact
    { called := rfl
      devType := ⟨last, foundLast, sameType⟩
      others := setOnly.trans handlerOnly }

/-- In an established session a node's message is sent, and the server runs the handler of its
opcode on it, whatever the byte orders of the two hosts are. -/
theorem nodeMessage_dispatched (nodeHost host : ByteOrder) (gcm : Gcm) (ecdh : Ecdh)
    (addMalloced encryptedMalloced : Block pckDataIncrements) (draw : Draw)
    (outBuf : Block maxMsgLen) (env : ServerEnv) (connInfo : ConnInfo) {node : NodeState}
    {nodeConnInfo : ConnInfo} {server : ServerState} {devInfo : DevInfo}
    (registered : findDevInfo server.devInfos cmdInfo.devId.bytes = some devInfo)
    (sameKey : devInfo.key = node.pointerToKey) (onNode : nodeConnInfo.sessionId ≠ 0)
    (fromNode : connInfo.connectionType = 0) (nonceTaken : connInfo.remoteNonce ≠ 0)
    (onServer : connInfo.sessionId ≠ 0)
    (wellFormed : cmdInfo.argsLen.toNat ≤ cmdInfo.args.length)
    (fits : messageLength cmdInfo ≤ maxMsgLen)
    (known : serverCommands (commandRow cmdInfo) cmdInfo.opcode = .ok command) :
    ∃ out sent,
      sendNodeMessage nodeHost gcm addMalloced encryptedMalloced draw nodeConnInfo node cmdInfo
          outBuf =
        .ok
          { returnValue := 0
            connInfo := some (afterSend nodeConnInfo)
            outBuf := out
            sent := some sent } ∧
        sent.length ≤ maxMsgLen ∧
        ∀ msg : Block maxMsgLen, sent <+: msg.bytes →
          Dispatched host gcm ecdh env connInfo server msg cmdInfo command := by
  obtain ⟨container, add, out, carries, ran⟩ := sendNodeMessage_ok nodeHost gcm addMalloced
    encryptedMalloced draw node outBuf wellFormed fits onNode
  refine ⟨out, _, ran, ?_, ?_⟩
  · rw [length_frame _ _ _ _ _ _ draw.newIv.allocated, carries.composedLength_eq wellFormed]
    exact fits
  · rintro msg ⟨rest, content⟩
    obtain ⟨devInfos, set⟩ := updateDevInfo_total cmdInfo.devId.bytes
      (fun devInfo => ⟨{ devInfo with devType := cmdInfo.devType }, rfl⟩) server.devInfos
    rw [← sameKey] at content
    obtain ⟨tag, sized, opened, buffer, processed, inMessage⟩ := serverProcessMsg_frame host ecdh
      env draw.newIv.allocated (names_alone carries.add) fromNode registered content.symm
    have setOpened : updateDevInfo cmdInfo.devId.bytes
        (fun devInfo => .ok { devInfo with devType := cmdInfo.devType })
        { server with decryptedMsgBuffer := buffer }.devInfos = .ok devInfos := set
    have dispatched := dispatchMessage_carried env connInfo sized carries wellFormed setOpened
      known inMessage
    rw [processDecrypted_session nonceTaken onServer] at processed
    exact ⟨devInfos, buffer, set, processed.trans dispatched⟩

/-- In an established session a node's message reaches the handler of its opcode unchanged,
whatever the byte orders of the two hosts are. -/
theorem nodeMessage_reaches (own : cmdInfo.devId = session.devId)
    (wellFormed : cmdInfo.argsLen.toNat ≤ cmdInfo.args.length)
    (fits : messageLength cmdInfo ≤ maxMsgLen)
    (registered : serverCommands (commandRow cmdInfo) cmdInfo.opcode = .ok command) :
    Reaches nodeHost host gcm ecdh addMalloced encryptedMalloced draw outBuf env session cmdInfo
      command := by
  have knownDevice : findDevInfo session.server.devInfos cmdInfo.devId.bytes =
      some session.devInfo := by
    rw [own]
    exact session.registered
  obtain ⟨out, sent, ran, short, dispatched⟩ := nodeMessage_dispatched nodeHost host gcm ecdh
    addMalloced encryptedMalloced draw outBuf env session.connInfo knownDevice session.sameKey session.onNode
    session.fromNode session.nonceTaken session.onServer wellFormed fits registered
  refine ⟨out, sent, ran, short, fun msg held => ⟨dispatched msg held, fun result ranServer => ?_⟩⟩
  obtain ⟨devInfos, buffer, set, whole⟩ := dispatched msg held
  rw [whole] at ranServer
  obtain ⟨changed, ranCommand, ranServer⟩ := bind_eq_ok.mp ranServer
  obtain rfl := Except.ok.inj ranServer
  rw [own] at set
  exact handled_of_ran own set ranCommand

/-- A node in an established session. -/
def sampleConnInfo : ConnInfo :=
  { acceptedConnInfo 4 0 with remoteNonce := 3, localNonce := 2, sessionId := 5 }

/-- The connection is in a session. -/
theorem sampleConnInfo_established : sampleConnInfo.sessionId ≠ 0 := by decide

/-- A lock that the server knows, in an established session. -/
def sampleSession : Session :=
  { node := { (default : NodeState) with hasEncryptionContextBeenEstablished := true }
    nodeConnInfo := sampleConnInfo
    server :=
      { devInfos := [default]
        savedDevices := []
        commandsQueue := []
        decryptedMsgBuffer := default
        sendProcessingBuffer := default }
    connInfo := { acceptedConnInfo 7 0 with remoteNonce := 2, localNonce := 3, sessionId := 5 }
    devId := default
    devInfo := default
    registered := by decide +kernel
    sameKey := rfl
    onNode := sampleConnInfo_established
    fromNode := rfl
    nonceTaken := by decide
    onServer := by decide }

/-- A text of two characters. -/
def textMessage : NodeCmdInfo :=
  { devId := default
    devType := 2
    opcode := 1
    argsLen := 2
    args := [104, 105] }

/-- The text reaches a server of the other byte order. -/
theorem textMessage_reaches :
    Reaches .little .big RoundTrip.zeroKeyGcm degenerateEcdh default default default default default
      sampleSession textMessage .nodeToServerMessage :=
  nodeMessage_reaches rfl (by decide) (by decide) rfl

end Reaching

end RentMate.NodeMessageDelivery
