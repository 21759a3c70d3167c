/-
Module: RentMate.Proofs.DispatchSafety
Purpose: Which of the messages that an end of an established session can open are dispatched from
  elements that are there, to entries of the command table that are assigned.
Trusted boundary: none
Main exports: ServerReceives, ServerDispatches, ServerRegular, NodeReceives, NodeDispatches,
  NodeRegular, dispatch_safe_iff
-/
import RentMate.Proofs.CommandDelivery
import RentMate.Proofs.PasscodeReport
import RentMate.Proofs.Registration

namespace RentMate.DispatchSafety

open RentMate.Machine
open RentMate.PckData
open RentMate.MainServer
open RentMate.NodeClient (NodeState NodeEnv NodeResult NodeCall nodeCommands)
open RentMate.ContainerCodec
open RentMate.MessageCodec
open RentMate.SessionCodec

/-- The elements of an encrypted container, none where there is no container. -/
def elementsOf (enc : Option Container) : List Bytes := (enc.map Container.elements).getD []

/-- A section with an element has a container. -/
theorem exists_container {enc : Option Container} {element : Bytes} {index : Nat}
    (known : (elementsOf enc)[index]? = some element) :
    ∃ container, enc = some container ∧ container.elements = elementsOf enc := by
  cases enc with
  | none => cases known
  | some container => exact ⟨container, rfl, rfl⟩

/-- The elements that are looked up come first, one behind the other. -/
theorem first_two {elements : List Bytes} {first second : Bytes}
    (isFirst : elements[0]? = some first) (isSecond : elements[1]? = some second) :
    ∃ rest, elements = [first, second] ++ rest := by
  match elements with
  | [] => cases isFirst
  | [_] => cases isSecond
  | one :: two :: rest =>
      obtain rfl := Option.some.inj isFirst
      obtain rfl := Option.some.inj isSecond
      exact ⟨rest, rfl⟩

/-- A list begins with its first three elements. -/
theorem first_three {elements : List Bytes} {first second third : Bytes}
    (isFirst : elements[0]? = some first) (isSecond : elements[1]? = some second)
    (isThird : elements[2]? = some third) : ∃ rest, elements = [first, second, third] ++ rest := by
  obtain ⟨behind, rfl⟩ := first_two isFirst isSecond
  cases behind with
  | nil => cases isThird
  | cons three rest =>
      obtain rfl := Option.some.inj isThird
      exact ⟨rest, rfl⟩

/-! ### The server -/

/-- The server holds a frame with these containers in its buffer. It comes over a connection with
an established session, names a registered device, and is encrypted under the key of that
device. -/
structure ServerReceives (gcm : Gcm) (connInfo : ConnInfo) (server : ServerState)
    (msg : Block maxMsgLen) (devId : Block devIdLen) (enc : Option Container) (add : Container) :
    Prop where
  fromNode : connInfo.connectionType = 0
  nonceTaken : connInfo.remoteNonce ≠ 0
  established : connInfo.sessionId ≠ 0
  named : add.elements[0]? = some devId.bytes
  sent : ∃ devInfo iv rest pckGSettings nonce,
    findDevInfo server.devInfos devId.bytes = some devInfo ∧ iv.length = ivLen ∧
      msg.bytes = frame gcm devInfo.key.bytes iv enc (some add) pckGSettings nonce ++ rest

/-- The server has called an assigned handler with what three elements hold. -/
def ServerCalled (devId : Bytes) (elements : List Bytes) (result : ServerResult) : Prop :=
  ∃ devtype opcode args command,
    elements[0]? = some (ByteOrder.big.encode devtype) ∧
      elements[1]? = some (ByteOrder.big.encode opcode) ∧ elements[2]? = some args ∧
      serverCommands (if opcode ≤ nodeToServerReservedOpCodesUpperLimit then 0 else devtype)
        opcode = .ok command ∧
      result.called =
        some ⟨command, devId, devtype.toUInt8, args, UInt32.ofNat args.length⟩

/-- The server has ignored a message. -/
def ServerIgnored (connInfo : ConnInfo) (server : ServerState) (result : ServerResult) : Prop :=
  result.called = none ∧ result.sent = [] ∧ result.connInfo = connInfo ∧
    result.server.devInfos = server.devInfos ∧
    result.server.commandsQueue = server.commandsQueue

/-- `processMsg` returns, and it has called a handler as it should or ignored the message. -/
def ServerDispatches (host : ByteOrder) (gcm : Gcm) (ecdh : Ecdh) (env : ServerEnv)
    (connInfo : ConnInfo) (server : ServerState) (msg : Block maxMsgLen) (devId : Bytes)
    (elements : List Bytes) : Prop :=
  ∃ result, MainServer.processMsg host gcm ecdh env connInfo server msg = .ok result ∧
    (ServerIgnored connInfo server result ∨ ServerCalled devId elements result)

/-- The arguments that the handlers read without looking at their length: the fields of a smart
lock's beacon with a passcode that fits its array, and the level of a noise monitor's. -/
def Sufficient (devtype opcode : UInt32) (args : Bytes) : Prop :=
  opcode = 0 →
    (devtype.toUInt8 = 2 → ∃ lockState doorState passwordLen digits,
      args = [lockState, doorState, passwordLen] ++ digits ∧
        passwordLen.toNat ≤ digits.length ∧ passwordLen.toNat ≤ 12) ∧
    (devtype.toUInt8 = 5 → args ≠ [])

/-- The messages that the server can dispatch: a word for the type of the device, a word for an
opcode that is assigned, arguments that suffice, and anything behind them, in a frame with single
bytes behind its DEVID. -/
structure ServerRegular (elements : List Bytes) (add : Container) : Prop where
  shortType : ∀ element, add.elements[1]? = some element → element.length ≤ 1
  shortConnection : ∀ element, add.elements[2]? = some element → element.length ≤ 1
  elements : ∃ devtype opcode args rest,
    elements = [ByteOrder.big.encode devtype, ByteOrder.big.encode opcode, args] ++ rest ∧
      (opcode = 0 ∨ opcode = 1) ∧ Sufficient devtype opcode args

section Server

variable {host : ByteOrder} {gcm : Gcm} {ecdh : Ecdh} {env : ServerEnv} {connInfo : ConnInfo}
  {server : ServerState} {msg : Block maxMsgLen} {devId : Block devIdLen} {enc : Option Container}
  {add : Container} {devtype opcode row : UInt32} {command : ServerCommand}
  {devInfos changed : List DevInfo} {name args : Bytes} {argsLen : UInt32} {password : Block 12}
  {result : ServerResult} {pointer : Nat}

/-- The entries of the table that are assigned. -/
theorem serverCommands_assigned (registered : serverCommands row opcode = .ok command) :
    opcode = 0 ∧ command = .nodeToServerBeacon ∨ opcode = 1 ∧ command = .nodeToServerMessage := by
  unfold serverCommands at registered
  split at registered
  · split at registered
    · rename_i beacon
      exact .inl ⟨beacon, (Except.ok.inj registered).symm⟩
    · split at registered
      · rename_i message
        exact .inr ⟨message, (Except.ok.inj registered).symm⟩
      · cases registered
  · cases registered

/-- A smart lock's beacon that has been read was there, and its passcode fits the array. -/
theorem smartLockBeacon_sufficient
    (ran : smartLockBeacon devInfos name args password = .ok changed) :
    ∃ lockState doorState passwordLen digits,
      args = [lockState, doorState, passwordLen] ++ digits ∧
        passwordLen.toNat ≤ digits.length ∧ passwordLen.toNat ≤ 12 := by
  obtain ⟨lockStatus, -, ran⟩ := bind_eq_ok.mp ran
  obtain ⟨doorStatus, -, ran⟩ := bind_eq_ok.mp ran
  obtain ⟨lengthByte, readLength, ran⟩ := bind_eq_ok.mp ran
  obtain ⟨digits, readDigits, ran⟩ := bind_eq_ok.mp ran
  obtain ⟨written, wrote, -⟩ := bind_eq_ok.mp ran
  obtain ⟨present | none, rfl⟩ := readBytes_eq_ok.mp readLength
  · obtain ⟨lockState, doorState, passwordLen, behind, rfl⟩ :
        ∃ lockState doorState passwordLen behind,
          args = [lockState, doorState, passwordLen] ++ behind := by
      match args, present with
      | lockState :: doorState :: passwordLen :: behind, _ =>
          exact ⟨lockState, doorState, passwordLen, behind, rfl⟩
    have byte : (slice ([lockState, doorState, passwordLen] ++ behind) 2 1).getD 0 0 =
        passwordLen := rfl
    have size : ([lockState, doorState, passwordLen] ++ behind).length = 3 + behind.length := by
      rw [List.length_append]
      rfl
    rw [byte] at readDigits
    obtain ⟨inside, rfl⟩ := readBytes_eq_ok.mp readDigits
    have few : passwordLen.toNat ≤ behind.length := by omega
    have count : (slice ([lockState, doorState, passwordLen] ++ behind) 3
        passwordLen.toNat).length = passwordLen.toNat := length_slice (by omega)
    refine ⟨lockState, doorState, passwordLen, behind, rfl, few, ?_⟩
    rcases (Block.write_eq_ok.mp wrote).1 with fits | empty
    · omega
    · rw [empty] at count
      rw [← count]
      exact Nat.zero_le _
  · cases none

/-- What a handler has read was among its arguments. -/
theorem runServerCommand_sufficient
    (registered : serverCommands row opcode = .ok command)
    (ran : runServerCommand devInfos ⟨command, name, devtype.toUInt8, args, argsLen⟩ password =
      .ok changed) : Sufficient devtype opcode args := by
  intro beacon
  obtain ⟨-, rfl⟩ | ⟨message, -⟩ := serverCommands_assigned registered
  · obtain ⟨printed, -, ran⟩ := bind_eq_ok.mp ran
    constructor
    · intro lock
      rw [if_pos (show devtype.toUInt8 = 2 from lock)] at ran
      exact smartLockBeacon_sufficient ran
    · rintro monitor rfl
      have other : ¬ devtype.toUInt8 = 2 := by
        rw [monitor]
        decide
      rw [if_neg other, if_pos (show devtype.toUInt8 = 5 from monitor)] at ran
      obtain ⟨noiseLevel, read, -⟩ := bind_eq_ok.mp ran
      rcases (readBytes_eq_ok.mp read).1 with inside | none
      · cases inside
      · cases none
  · rw [beacon] at message
    cases message

/-- A handler that has been called with sufficient arguments returns. -/
theorem runServerCommand_total (devInfos : List DevInfo) (name : Bytes) (password : Block 12)
    (registered : serverCommands row opcode = .ok command)
    (length : argsLen.toNat = args.length) (sufficient : Sufficient devtype opcode args) :
    ∃ changed,
      runServerCommand devInfos ⟨command, name, devtype.toUInt8, args, argsLen⟩ password =
        .ok changed := by
  have printed : readBytes args 0 argsLen.toNat = .ok (slice args 0 argsLen.toNat) :=
    readBytes_ok (by omega)
  obtain ⟨rfl, rfl⟩ | ⟨-, rfl⟩ := serverCommands_assigned registered
  · obtain ⟨asLock, asMonitor⟩ := sufficient rfl
    simp only [runServerCommand, nodeToServerBeacon, printed, ok_bind]
    split
    · rename_i lock
      obtain ⟨lockState, doorState, passwordLen, digits, rfl, present, short⟩ := asLock lock
      obtain ⟨changed, ran, -⟩ := PasscodeReport.smartLockBeacon_told devInfos name lockState
        doorState passwordLen password present short
      exact ⟨changed, ran⟩
    · split
      · rename_i monitor
        have begun : 0 < args.length := List.length_pos_iff.mpr (asMonitor monitor)
        have read : readBytes args 0 1 = .ok (slice args 0 1) := readBytes_ok (by omega)
        rw [noiseMonitorBeacon, read, ok_bind]
        exact NodeMessageDelivery.updateDevInfo_total name (fun devInfo => ⟨_, rfl⟩) devInfos
      · exact ⟨devInfos, rfl⟩
  · refine ⟨devInfos, ?_⟩
    simp only [runServerCommand, nodeToServerMessage, printed, ok_bind, pure_eq_ok]

/-- The reads from an ADD container that begins with a DEVID find it, and single bytes behind
it. -/
theorem readIdentity_named {identity : Option Identity} {left : Block maxMsgLen} {place : Nat}
    (lies : Registration.Lies msg place add) (named : add.elements[0]? = some devId.bytes)
    (ran : readIdentity host env msg place = .ok (identity, left)) :
    (∀ element, add.elements[1]? = some element → element.length ≤ 1) ∧
      ∀ element, add.elements[2]? = some element → element.length ≤ 1 := by
  cases identity with
  | some identity => exact (Registration.readIdentity_short lies ran).2
  | none =>
      exfalso
      obtain ⟨front, rest, position, content⟩ := lies
      obtain ⟨converted, toHost, inHost⟩ := pckDataToHostOrder_ok host add content position
      have sixteen := devId.allocated
      have begun : devId.bytes ≠ [] := by
        intro empty
        simp [empty] at sixteen
      obtain ⟨read, -, ranDevId⟩ := getElement_full env.devIdFromMessage inHost position named begun
        devId.allocated
      have known : UInt32.ofNat devId.bytes.length ≠ minusOne := by
        rw [devId.allocated]
        decide
      simp only [readIdentity, toHost, ranDevId, ok_bind, if_neg known] at ran
      obtain ⟨⟨_, _⟩, -, ran⟩ := bind_eq_ok.mp ran
      obtain ⟨⟨_, _⟩, -, ran⟩ := bind_eq_ok.mp ran
      obtain ⟨restored, -, ran⟩ := bind_eq_ok.mp ran
      cases ran

/-- A frame that has been processed has single bytes behind its DEVID. -/
theorem ServerReceives.short (receives : ServerReceives gcm connInfo server msg devId enc add)
    (ran : MainServer.processMsg host gcm ecdh env connInfo server msg = .ok result) :
    (∀ element, add.elements[1]? = some element → element.length ≤ 1) ∧
      ∀ element, add.elements[2]? = some element → element.length ≤ 1 := by
  obtain ⟨devInfo, iv, rest, pckGSettings, nonce, -, vector, content⟩ := receives.sent
  have named := receives.named
  have begun : add.elements ≠ [] := by
    intro empty
    simp [empty] at named
  obtain ⟨msgLenWord, addLenWord, extraLenWord, total, addWord, extraWord, -, -, extraLen⟩ :=
    frame_lengths host content
  obtain ⟨front, position, place⟩ := add_place (sealedFrame vector) (by simp) content
  have extraNat : (UInt32.ofNat 0).toNat = 0 := rfl
  simp only [MainServer.processMsg, total, addWord, extraWord, ok_bind, extraLen, extraNat,
    Nat.add_zero, printMessage_frame vector (begun_some begun) content,
    if_pos receives.fromNode] at ran
  obtain ⟨⟨identity, left⟩, identified, -⟩ := bind_eq_ok.mp ran
  exact readIdentity_named ⟨front, _, position, place⟩ named identified

/-- The server opens the frame and dispatches what it holds. -/
theorem ServerReceives.dispatched (host : ByteOrder) (ecdh : Ecdh) (env : ServerEnv)
    (receives : ServerReceives gcm connInfo server msg devId enc add)
    (shortType : ∀ element, add.elements[1]? = some element → element.length ≤ 1)
    (shortConnection : ∀ element, add.elements[2]? = some element → element.length ≤ 1) :
    ∃ iv tag rest pckGSettings nonce, Sealed iv tag ∧ ∃ opened buffer : Block maxMsgLen,
      MainServer.processMsg host gcm ecdh env connInfo server msg =
          dispatchMessage host env connInfo { server with decryptedMsgBuffer := buffer } opened
            (encryptedPckDataPtr (some add)) devId.bytes ∧
        opened.bytes =
          openedMessage host iv tag 0 enc (some add) pckGSettings nonce ++ rest := by
  obtain ⟨devInfo, iv, rest, pckGSettings, nonce, registered, vector, content⟩ := receives.sent
  obtain ⟨tag, sized, opened, buffer, processed, inMessage⟩ := serverProcessMsg_first host ecdh env
    vector receives.named shortType shortConnection receives.fromNode registered content
  rw [processDecrypted_session receives.nonceTaken receives.established] at processed
  exact ⟨iv, tag, rest, pckGSettings, nonce, sized, opened, buffer, processed, inMessage⟩

/-- The server dispatches exactly the regular messages as it should. It ignores none of the
others. -/
theorem serverDispatches_iff (host : ByteOrder) (ecdh : Ecdh) (env : ServerEnv)
    (receives : ServerReceives gcm connInfo server msg devId enc add) :
    ServerDispatches host gcm ecdh env connInfo server msg devId.bytes (elementsOf enc) ↔
      ServerRegular (elementsOf enc) add := by
  constructor
  · rintro ⟨result, ran, outcome⟩
    obtain ⟨shortType, shortConnection⟩ := receives.short ran
    obtain ⟨_, _, _, _, _, -, opened, buffer, processed, -⟩ :=
      receives.dispatched host ecdh env shortType shortConnection
    rw [processed] at ran
    obtain ⟨_, call, devInfos, changed, -, -, ranCommand, rfl⟩ :=
      ServerSteps.dispatchMessage_cases ran
    rcases outcome with ignored | ⟨devtype, opcode, args, command, first, second, third,
      registered, own⟩
    · cases ignored.1
    · obtain rfl := Option.some.inj own
      obtain ⟨rest, same⟩ := first_three first second third
      refine ⟨shortType, shortConnection, devtype, opcode, args, rest, same, ?_, ?_⟩
      · exact (serverCommands_assigned registered).imp And.left And.left
      · exact runServerCommand_sufficient registered ranCommand
  · rintro ⟨shortType, shortConnection, devtype, opcode, args, rest, same, assigned, sufficient⟩
    have first : (elementsOf enc)[0]? = some (ByteOrder.big.encode devtype) := by rw [same]; rfl
    have second : (elementsOf enc)[1]? = some (ByteOrder.big.encode opcode) := by rw [same]; rfl
    have third : (elementsOf enc)[2]? = some args := by rw [same]; rfl
    obtain ⟨container, rfl, own⟩ := exists_container first
    obtain ⟨iv, tag, behind, pckGSettings, nonce, sized, opened, buffer, processed, content⟩ :=
      receives.dispatched host ecdh env shortType shortConnection
    obtain ⟨command, registered⟩ : ∃ command, serverCommands
        (if opcode ≤ nodeToServerReservedOpCodesUpperLimit then 0 else devtype) opcode =
          .ok command := by
      rcases assigned with rfl | rfl
      · exact ⟨.nodeToServerBeacon, rfl⟩
      · exact ⟨.nodeToServerMessage, rfl⟩
    obtain ⟨devInfos, set⟩ := NodeMessageDelivery.updateDevInfo_total devId.bytes
      (fun devInfo => ⟨{ devInfo with devType := devtype }, rfl⟩)
      { server with decryptedMsgBuffer := buffer }.devInfos
    have length : (UInt32.ofNat args.length).toNat = args.length := by
      obtain ⟨-, front, -, place⟩ := opened_place sized content
      have room : maxMsgLen = 255 := rfl
      have inside := element_inside place third
      rw [UInt32.toNat_ofNat']
      omega
    obtain ⟨changed, ranCommand⟩ := runServerCommand_total devInfos devId.bytes env.password
      registered length sufficient
    rw [NodeMessageDelivery.dispatchMessage_present env connInfo sized first second third set
      registered content, ranCommand, ok_bind] at processed
    exact ⟨_, processed, .inr ⟨devtype, opcode, args, command, first, second, third, registered,
      rfl⟩⟩

end Server

/-! ### The node -/

/-- The node holds a frame with these containers in its buffer. It comes over a connection with an
established session and is encrypted under the key of the node. -/
structure NodeReceives (gcm : Gcm) (connInfo : ConnInfo) (node : NodeState)
    (message : Block maxMsgLen) (enc add : Option Container) : Prop where
  established : connInfo.sessionId ≠ 0
  begunAdd : Begun add
  sent : ∃ iv rest pckGSettings nonce, iv.length = ivLen ∧
    message.bytes = frame gcm node.pointerToKey.bytes iv enc add pckGSettings nonce ++ rest

/-- The node has called an assigned handler with what two elements hold. -/
def NodeCalled (host : ByteOrder) (elements : List Bytes) (result : NodeResult) : Prop :=
  ∃ opcode args command,
    elements[0]? = some (host.encode opcode) ∧ elements[1]? = some args ∧
      nodeCommands opcode = .ok command ∧
      result.called = some ⟨opcode, command, args, UInt32.ofNat args.length⟩

/-- `processMsg` returns, and it has called a handler as it should or none. -/
def NodeDispatches (host : ByteOrder) (gcm : Gcm) (ecdh : Ecdh) (env : NodeEnv)
    (connInfo : ConnInfo) (node : NodeState) (message : Block maxMsgLen)
    (elements : List Bytes) : Prop :=
  ∃ result, NodeClient.processMsg host gcm ecdh env (some connInfo) node message = .ok result ∧
    (result.called = none ∨ NodeCalled host elements result)

/-- The messages that a node can dispatch: a word for an opcode that is assigned, arguments, and
anything behind them, in a container that begins early enough for what the node prints of it. -/
structure NodeRegular (host : ByteOrder) (elements : List Bytes) (add : Option Container) :
    Prop where
  shown : CommandDelivery.Shown add
  carried : ∃ opcode args rest, elements = [host.encode opcode, args] ++ rest ∧
    (opcode = 0 ∨ opcode = 1 ∨ opcode = 2 ∨ opcode = 129)

section Node

variable {host : ByteOrder} {gcm : Gcm} {ecdh : Ecdh} {env : NodeEnv} {connInfo : ConnInfo}
  {node : NodeState} {message : Block maxMsgLen} {enc add : Option Container} {opcode : UInt32}
  {result : NodeResult} {pointer : Nat}

/-- The entries of the table that are assigned. -/
theorem nodeCommands_assigned_iff :
    (∃ command, nodeCommands opcode = .ok command) ↔
      opcode = 0 ∨ opcode = 1 ∨ opcode = 2 ∨ opcode = 129 := by
  constructor
  · rintro ⟨command, registered⟩
    unfold nodeCommands at registered
    by_contra other
    obtain ⟨notFirst, notSecond, notThird, notFourth⟩ : opcode ≠ 0 ∧ opcode ≠ 1 ∧ opcode ≠ 2 ∧
        opcode ≠ 129 := by
      simpa only [not_or] using other
    rw [if_neg notFirst, if_neg notSecond, if_neg notThird, if_neg notFourth] at registered
    cases registered
  · rintro (rfl | rfl | rfl | rfl)
    · exact ⟨.poweroffMessage, rfl⟩
    · exact ⟨.serverToNodeMessage, rfl⟩
    · exact ⟨.rebootMessage, rfl⟩
    · exact ⟨.changePasscode, rfl⟩

/-- The node dispatches exactly the regular messages as it should. It ignores none of the
others. -/
theorem nodeDispatches_iff (host : ByteOrder) (ecdh : Ecdh) (env : NodeEnv)
    (receives : NodeReceives gcm connInfo node message enc add) :
    NodeDispatches host gcm ecdh env connInfo node message (elementsOf enc) ↔
      NodeRegular host (elementsOf enc) add := by
  obtain ⟨iv, rest, pckGSettings, nonce, vector, sent⟩ := receives.sent
  obtain ⟨tag, sized, opened, buffer, processed, content, -⟩ :=
    clientProcessMsg_frame host ecdh env connInfo vector receives.begunAdd sent
  rw [if_neg receives.established] at processed
  constructor
  · rintro ⟨result, ran, outcome⟩
    rw [processed] at ran
    have shown : CommandDelivery.Shown add := by
      by_contra far
      rw [CommandDelivery.dispatchCommand_not_shown sized far content] at ran
      cases ran
    obtain ⟨call, printed, rfl⟩ := dispatchCommand_cases ran
    rcases outcome with ignored | ⟨opcode, args, command, first, second, registered, -⟩
    · cases ignored
    · obtain ⟨behind, same⟩ := first_two first second
      exact ⟨shown, opcode, args, behind, same,
        nodeCommands_assigned_iff.mp ⟨command, registered⟩⟩
  · rintro ⟨shown, opcode, args, behind, same, assigned⟩
    have first : (elementsOf enc)[0]? = some (host.encode opcode) := by rw [same]; rfl
    have second : (elementsOf enc)[1]? = some args := by rw [same]; rfl
    obtain ⟨container, rfl, own⟩ := exists_container first
    obtain ⟨command, registered⟩ := nodeCommands_assigned_iff.mpr assigned
    rw [CommandDelivery.dispatchCommand_present env connInfo _ sized shown
      (ByteOrder.encode_length host opcode) first second content, ByteOrder.decode_encode,
      registered, ok_bind] at processed
    exact ⟨_, processed, .inr ⟨opcode, args, command, first, second, registered, rfl⟩⟩

end Node

/-! ### Both ends -/

section Both

variable {gcm : Gcm} {connInfo nodeConnInfo : ConnInfo} {server : ServerState} {node : NodeState}
  {msg message : Block maxMsgLen} {devId : Block devIdLen} {fromNode fromServer : Option Container}
  {add : Container} {serverAdd : Option Container}

/-- Of the messages that they can open in an established session, both ends dispatch exactly the
regular ones as they should, and ignore none of the others. -/
theorem dispatch_safe_iff (host nodeHost : ByteOrder) (ecdh : Ecdh) (env : ServerEnv)
    (nodeEnv : NodeEnv)
    (onServer : ServerReceives gcm connInfo server msg devId fromNode add)
    (onNode : NodeReceives gcm nodeConnInfo node message fromServer serverAdd) :
    (ServerDispatches host gcm ecdh env connInfo server msg devId.bytes (elementsOf fromNode) ↔
      ServerRegular (elementsOf fromNode) add) ∧
    (NodeDispatches nodeHost gcm ecdh nodeEnv nodeConnInfo node message (elementsOf fromServer) ↔
      NodeRegular nodeHost (elementsOf fromServer) serverAdd) :=
  ⟨serverDispatches_iff host ecdh env onServer, nodeDispatches_iff nodeHost ecdh nodeEnv onNode⟩

end Both

/-- AES-GCM under the zero key and the zero vector: its keystream, and its tags over the masked
frames of the four messages below. -/
def dispatchGcm : Gcm :=
  { keystream := fun _ _ index =>
      [3, 136, 218, 206, 96, 182, 163, 146, 243, 40, 194, 185, 113, 178, 254, 120, 247, 149, 170,
        171, 73, 75, 89, 35, 247, 253, 137, 255, 148, 139, 193, 224, 32, 2, 17, 33, 78,
        115].getD index 0
    authenticate := fun _ _ _ cipher =>
      .holding tagLen
        (if cipher.length = 38 then
          [90, 113, 40, 176, 10, 176, 28, 24, 67, 28, 196, 161, 233, 131, 25, 216]
        else if cipher.length = 32 then
          [150, 151, 231, 67, 255, 172, 55, 197, 230, 87, 123, 23, 215, 26, 216, 62]
        else if cipher[20]? = some 72 then
          [227, 139, 67, 212, 140, 164, 84, 194, 227, 140, 117, 200, 157, 154, 173, 165]
        else [36, 153, 172, 235, 40, 162, 190, 2, 80, 251, 63, 164, 177, 230, 151, 56]) }

/-- A message of the node of the zero key, as the server has received it. -/
def fromSampleNode (container : Container) : Block maxMsgLen :=
  .holding maxMsgLen
    (frame dispatchGcm (List.replicate keyLen 0) (List.replicate ivLen 0) (some container)
      (some (RoundTrip.containerOf [List.replicate devIdLen 0] (by decide))) 0 6)

/-- A command for that node, as it has received it. -/
def fromSampleServer (container : Container) : Block maxMsgLen :=
  .holding maxMsgLen
    (frame dispatchGcm (List.replicate keyLen 0) (List.replicate ivLen 0) (some container) none 0 6)

/-- A text for the server, and one for the node. -/
def textForServer : Container :=
  RoundTrip.containerOf [[0, 0, 0, 2], [0, 0, 0, 1], [104, 105]] (by decide)

def textForNode : Container :=
  RoundTrip.containerOf [[1, 0, 0, 0], [104, 105]] (by decide)

/-- The server receives the message of the node. -/
theorem sample_onServer :
    ServerReceives dispatchGcm NodeMessageDelivery.sampleSession.connInfo
      NodeMessageDelivery.sampleSession.server (fromSampleNode textForServer) default
      (some textForServer)
      (RoundTrip.containerOf [List.replicate devIdLen 0] (by decide)) := by
  obtain ⟨rest, content⟩ := Block.prefix_holding (show (frame dispatchGcm
    (List.replicate keyLen 0) (List.replicate ivLen 0) (some textForServer)
    (some (RoundTrip.containerOf [List.replicate devIdLen 0] (by decide))) 0 6).length ≤
      maxMsgLen by decide +kernel)
  exact
    { fromNode := rfl
      nonceTaken := by decide
      established := by decide
      named := rfl
      sent := ⟨default, _, rest, 0, 6, by decide +kernel, List.length_replicate, content.symm⟩ }

/-- The node receives the message of the server. -/
theorem sample_onNode :
    NodeReceives dispatchGcm NodeMessageDelivery.sampleConnInfo
      NodeMessageDelivery.sampleSession.node (fromSampleServer textForNode) (some textForNode)
      none := by
  obtain ⟨rest, content⟩ := Block.prefix_holding (show (frame dispatchGcm
    (List.replicate keyLen 0) (List.replicate ivLen 0) (some textForNode) none 0 6).length ≤
      maxMsgLen by decide +kernel)
  exact
    { established := by decide
      begunAdd := begun_none
      sent := ⟨_, rest, 0, 6, List.length_replicate, content.symm⟩ }

/-- A text is dispatched on both ends. -/
theorem texts_dispatched :
    ServerDispatches .little dispatchGcm degenerateEcdh default
        NodeMessageDelivery.sampleSession.connInfo NodeMessageDelivery.sampleSession.server
        (fromSampleNode textForServer) (List.replicate devIdLen 0)
        (elementsOf (some textForServer)) ∧
      NodeDispatches .little dispatchGcm degenerateEcdh default
        NodeMessageDelivery.sampleConnInfo NodeMessageDelivery.sampleSession.node
        (fromSampleServer textForNode) (elementsOf (some textForNode)) := by
  obtain ⟨onServer, onNode⟩ := dispatch_safe_iff .little .little degenerateEcdh default default
    sample_onServer sample_onNode
  constructor
  · apply onServer.mpr
    constructor
    · rintro element ⟨⟩
    · rintro element ⟨⟩
    · exact ⟨2, 1, [104, 105], [], rfl, .inr rfl, by rintro ⟨⟩⟩
  · apply onNode.mpr
    exact ⟨by decide, 1, [104, 105], [], rfl, .inr (.inl rfl)⟩

/-- A message without arguments, and a command with an opcode that is not assigned. -/
def withoutArgs : Container := RoundTrip.containerOf [[0, 0, 0, 2], [0, 0, 0, 1]] (by decide)

def unassigned : Container := RoundTrip.containerOf [[7, 0, 0, 0], [104, 105]] (by decide)

/-- Without arguments the server makes an array of the length -1, and the opcode 7 makes the node
call what lies in an entry that was never assigned. -/
theorem irregular_undefined :
    ((MainServer.processMsg .little dispatchGcm degenerateEcdh default
        NodeMessageDelivery.sampleSession.connInfo NodeMessageDelivery.sampleSession.server
        (fromSampleNode withoutArgs)).map ServerResult.called = .error .stackExhausted ∧
      ¬ ServerDispatches .little dispatchGcm degenerateEcdh default
        NodeMessageDelivery.sampleSession.connInfo NodeMessageDelivery.sampleSession.server
        (fromSampleNode withoutArgs) (List.replicate devIdLen 0) (elementsOf (some withoutArgs))) ∧
    ((NodeClient.processMsg .little dispatchGcm degenerateEcdh default
        (some NodeMessageDelivery.sampleConnInfo) NodeMessageDelivery.sampleSession.node
        (fromSampleServer unassigned)).map NodeResult.called = .error .invalidCall ∧
      ¬ NodeDispatches .little dispatchGcm degenerateEcdh default
        NodeMessageDelivery.sampleConnInfo NodeMessageDelivery.sampleSession.node
        (fromSampleServer unassigned) (elementsOf (some unassigned))) := by
  constructor
  · exact no_result_of_fault (by decide +kernel)
  · exact no_result_of_fault (by decide +kernel)

end RentMate.DispatchSafety
