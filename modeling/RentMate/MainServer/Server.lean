/-
Module: RentMate.MainServer.Server
Purpose: The server's `processMsg` with the functions of `server.c` that it calls: it registers
  a device, answers a handshake, releases the commands that wait for the device, or calls the
  handler of a message.
Trusted boundary: human-reviewed spec
Main exports: ServerState, ServerEnv, ServerResult, sendOffCommand, processMsg
-/
import RentMate.PckData.Session
import RentMate.PckData.Ecdh
import RentMate.MainServer.Commands
import RentMate.MainServer.CommandQueue

namespace RentMate.MainServer

open RentMate.Machine
open RentMate.PckData

/-- The globals of the server that `processMsg` uses. `savedDevices` are the devices that have
been given to `saveDevInfoToConfigFile`, in order; what becomes of the file is `saveDevices`. -/
structure ServerState where
  devInfos : List DevInfo
  savedDevices : List DevInfo
  commandsQueue : List CommandRequest
  decryptedMsgBuffer : Block maxMsgLen
  sendProcessingBuffer : Block maxMsgLen
deriving DecidableEq

/-- What one call of `processMsg` takes from outside: random numbers, the memory that `malloc`
returns, and what its local variables hold before they are set. -/
structure ServerEnv where
  draws : Nat → Draw
  malloced : Nat → Block pckDataIncrements
  privateDHKey : Block eccPrvKeySize
  devIdFromMessage : Block devIdLen
  publicDHKeyRemote : Block eccPubKeySize
  sharedDHKey : Block eccPubKeySize
  newDevInfo : DevInfo
  devtype : Block 4
  opcode : Block 4
  args : (argsLen : Nat) → Block argsLen
  password : Block 12
deriving Inhabited

/-- What `processMsg` returns (nothing, where it falls off its end) and leaves, the frames it has
sent and the handler it has called. -/
structure ServerResult where
  returnValue : Option Int
  connInfo : ConnInfo
  server : ServerState
  msg : Block maxMsgLen
  sent : List Bytes
  called : Option ServerCall
deriving DecidableEq

/-- The space of a thread's stack. A local array that is longer does not fit on it. -/
abbrev stackSize : Nat := 8388608

/-! ### Sending a command -/

/-- `findEncryptionKey`. -/
def findEncryptionKey (devInfos : List DevInfo) (devId : Bytes) : Option (Block keyLen) :=
  (findDevInfo devInfos devId).map DevInfo.key

/-- What `sendQueuedMessages` has done to the connection and the buffer, what it has sent, and
how many commands it has handed over. -/
structure Outgoing where
  connInfo : ConnInfo
  sendProcessingBuffer : Block maxMsgLen
  sent : List Bytes
  handed : Nat

section Processing

variable (host : ByteOrder) (gcm : Gcm) (ecdh : Ecdh)

/-- The ADD container of a command, if it has one. -/
def commandAddData (malloced : Block pckDataIncrements) (command : CommandRequestCommand) :
    Checked (Option (Block pckDataIncrements)) :=
  match command.addPtr with
  | none => .ok none
  | some addPtr => do
      let addPckData ← initPckData host malloced
      let addData ← readBytes addPtr 0 command.addLen.toNat
      let addPckData ← appendToPckData host addPckData addData
      pure (some addPckData)

/-- The encrypted container of a command. Its operation code is stored as the host stores it. -/
def commandEncryptedData (malloced : Block pckDataIncrements) (command : CommandRequestCommand) :
    Checked (Block pckDataIncrements) := do
  let encryptedPckData ← initPckData host malloced
  let encryptedPckData ← appendToPckData host encryptedPckData (host.encode command.opCode)
  match command.argsPtr with
  | none => pure encryptedPckData
  | some argsPtr => do
      let args ← readBytes argsPtr 0 command.argsLen.toNat
      appendToPckData host encryptedPckData args

/-- `sendOffCommand`. -/
def sendOffCommand (devInfos : List DevInfo) (devId : Bytes) (env : ServerEnv)
    (command : CommandRequestCommand) (outgoing : Outgoing) : Checked Outgoing := do
  let addPckData ← commandAddData host (env.malloced (2 * outgoing.handed)) command
  let encryptedPckData ←
    commandEncryptedData host (env.malloced (2 * outgoing.handed + 1)) command
  match findEncryptionKey devInfos devId with
  | none => .error .nullPointer
  | some key => do
      let result ← encryptAndSendAll host gcm (some outgoing.connInfo) (some key.bytes)
        (some encryptedPckData) addPckData none command.gSettings
        (env.draws (outgoing.handed + 1)) outgoing.sendProcessingBuffer
      pure
        { connInfo := result.connInfo.getD outgoing.connInfo
          sendProcessingBuffer := result.outBuf
          sent := outgoing.sent ++ result.sent.toList
          handed := outgoing.handed + 1 }

/-! ### The parts of `processMsg` -/

/-- What the ADD container says about the sender. -/
structure Identity where
  devIdFromMessage : Block devIdLen
  devType : UInt8
  connectionType : UInt8

/-- The reads from the ADD container. Without a DEVID the container is left in host order. -/
def readIdentity (env : ServerEnv) (msg : Block maxMsgLen) (addPckDataPtr : Nat) :
    Checked (Option Identity × Block maxMsgLen) := do
  let msg ← pckDataToHostOrder host msg addPckDataPtr
  let (found, devIdFromMessage) ←
    getElementFromPckData host msg addPckDataPtr env.devIdFromMessage 0
  if found = minusOne then pure (none, msg)
  else
    let (_, devType) ← getElementFromPckData host msg addPckDataPtr (Block.fill 1 0) 1
    let (_, connectionType) ← getElementFromPckData host msg addPckDataPtr (Block.fill 1 0) 2
    let msg ← pckDataToNetworkOrder host msg addPckDataPtr
    pure
      (some
        { devIdFromMessage := devIdFromMessage
          devType := devType.bytes.getD 0 0
          connectionType := connectionType.bytes.getD 0 0 },
        msg)

/-- The answer to a device that is not known: its key is derived, it is registered, and the
public key of the server is sent. -/
def registerDevice (env : ServerEnv) (connInfo : ConnInfo) (server : ServerState)
    (msg : Block maxMsgLen) (extraDataPckPtr : Nat) (identity : Identity) :
    Checked ServerResult := do
  let msg ← pckDataToHostOrder host msg extraDataPckPtr
  let (_, publicDHKeyRemote) ←
    getElementFromPckData host msg extraDataPckPtr env.publicDHKeyRemote 0
  let msg ← pckDataToNetworkOrder host msg extraDataPckPtr
  let (_, publicDHKeyLocal, privateDHKey) := ecdh.generateKeys env.privateDHKey
  let sharedDHKey := (ecdh.sharedSecret privateDHKey publicDHKeyRemote).getD env.sharedDHKey
  let newDevInfo :=
    { env.newDevInfo with
      devId := identity.devIdFromMessage
      key := keyOf sharedDHKey
      devType := identity.devType.toUInt32
      deviceConnectionType := identity.connectionType }
  let extraPckData ← initPckData host (env.malloced 0)
  let extraPckData ← appendToPckData host extraPckData publicDHKeyLocal.bytes
  let result ← encryptAndSendAll host gcm none none none none (some extraPckData) 0
    (env.draws 0) server.sendProcessingBuffer
  pure
    { returnValue := some 0
      connInfo := connInfo
      server :=
        { server with
          devInfos := server.devInfos ++ [newDevInfo]
          savedDevices := server.savedDevices ++ [newDevInfo]
          sendProcessingBuffer := result.outBuf }
      msg := msg
      sent := result.sent.toList
      called := none }

/-- `sendQueuedMessages` for a device on a connection, after the frames in `sent`. The message
buffer is cleared behind it, at the end of `processMsg`. -/
def releaseCommands (env : ServerEnv) (connInfo : ConnInfo) (server : ServerState)
    (devId : Bytes) (sent : List Bytes) : Checked ServerResult := do
  let (commandsQueue, outgoing) ←
    sendQueuedMessages (sendOffCommand host gcm server.devInfos devId env) devId
      server.commandsQueue
      { connInfo := connInfo
        sendProcessingBuffer := server.sendProcessingBuffer
        sent := sent
        handed := 0 }
  pure
    { returnValue := none
      connInfo := outgoing.connInfo
      server :=
        { server with
          commandsQueue := commandsQueue
          sendProcessingBuffer := outgoing.sendProcessingBuffer }
      msg := Block.fill maxMsgLen 0
      sent := outgoing.sent
      called := none }

/-- The branch for the first frame of a connection: the node's nonce is taken and the server's
is sent. -/
def answerNonce (env : ServerEnv) (connInfo : ConnInfo) (server : ServerState)
    (devInfo : DevInfo) (remoteNonce : UInt32) : Checked ServerResult := do
  let connInfo := { connInfo with remoteNonce := remoteNonce }
  let result ← encryptAndSendAll host gcm (some connInfo) (some devInfo.key.bytes) none none none
    0 (env.draws 0) server.sendProcessingBuffer
  let connInfo := result.connInfo.getD connInfo
  let connInfo := { connInfo with localNonce := ntohl host connInfo.localNonce }
  let connInfo := { connInfo with sessionId := connInfo.remoteNonce + connInfo.localNonce }
  releaseCommands host gcm env connInfo { server with sendProcessingBuffer := result.outBuf }
    devInfo.devId.bytes result.sent.toList

/-- The branch for a nonce that comes after the server's own. -/
def takeNonce (env : ServerEnv) (connInfo : ConnInfo) (server : ServerState)
    (devInfo : DevInfo) (remoteNonce : UInt32) : Checked ServerResult :=
  let connInfo := { connInfo with remoteNonce := remoteNonce }
  let connInfo := { connInfo with sessionId := connInfo.remoteNonce + connInfo.localNonce }
  releaseCommands host gcm env connInfo server devInfo.devId.bytes []

/-- The branch for the messages of an established session. -/
def dispatchMessage (env : ServerEnv) (connInfo : ConnInfo) (server : ServerState)
    (msg : Block maxMsgLen) (encryptedPckDataPtr : Nat) (devId : Bytes) :
    Checked ServerResult := do
  let (_, devtypeBytes) ← getElementFromPckData host msg encryptedPckDataPtr env.devtype 0
  let (_, opcodeBytes) ← getElementFromPckData host msg encryptedPckDataPtr env.opcode 1
  let argsLen ← getElementLengthFromPckData host msg encryptedPckDataPtr 2
  if stackSize < argsLen.toNat then .error .stackExhausted
  else
    let (_, args) ←
      getElementFromPckData host msg encryptedPckDataPtr (env.args argsLen.toNat) 2
    let devtype := ntohl host (host.decode devtypeBytes.bytes)
    let opcode := ntohl host (host.decode opcodeBytes.bytes)
    let devInfos ← updateDevInfo devId
      (fun devInfo => .ok { devInfo with devType := devtype }) server.devInfos
    let command ←
      serverCommands (if opcode ≤ nodeToServerReservedOpCodesUpperLimit then 0 else devtype)
        opcode
    let call : ServerCall :=
      { command := command
        devId := devId
        devtype := devtype.toUInt8
        args := args.bytes
        argsLen := argsLen }
    let devInfos ← runServerCommand devInfos call env.password
    pure
      { returnValue := none
        connInfo := connInfo
        server := { server with devInfos := devInfos }
        msg := Block.fill maxMsgLen 0
        sent := []
        called := some call }

/-- What `processMsg` does with a message that it has decrypted. -/
def processDecrypted (env : ServerEnv) (connInfo : ConnInfo) (server : ServerState)
    (msg : Block maxMsgLen) (encryptedDataPtr : Nat) (devInfo : DevInfo) (devId : Bytes) :
    Checked ServerResult :=
  if connInfo.localNonce = 0 ∧ connInfo.remoteNonce = 0 then do
    let remoteNonce ← msg.load32 host encryptedDataPtr
    answerNonce host gcm env connInfo server devInfo remoteNonce
  else if connInfo.remoteNonce = 0 ∧ connInfo.localNonce ≠ 0 then do
    let remoteNonce ← msg.load32 host encryptedDataPtr
    takeNonce host gcm env connInfo server devInfo remoteNonce
  else if connInfo.sessionId ≠ 0 then
    dispatchMessage host env connInfo server msg
      (encryptedDataPtr + protocolSpecificEncryptedDataLen) devId
  else
    pure
      { returnValue := none
        connInfo := connInfo
        server := server
        msg := Block.fill maxMsgLen 0
        sent := []
        called := none }

/-- The decryption under the key of a known device, and what follows it. -/
def processKnown (env : ServerEnv) (connInfo : ConnInfo) (server : ServerState)
    (msg : Block maxMsgLen) (msgLen addMsgLen extraMsgLen : UInt32) (devInfo : DevInfo)
    (devId : Bytes) : Checked ServerResult := do
  let decrypted ← decryptPckData host gcm devInfo.key.bytes msg server.decryptedMsgBuffer
  let server := { server with decryptedMsgBuffer := decrypted.outputBuf }
  if decrypted.returnValue ≠ 0 then
    pure
      { returnValue := some (-1)
        connInfo := connInfo
        server := server
        msg := decrypted.encryptedMsg
        sent := []
        called := none }
  else
    let msgLenBeforeEncryptedData := UInt32.ofNat headerLen + extraMsgLen + addMsgLen
    let plain ← server.decryptedMsgBuffer.read 0 (msgLen - msgLenBeforeEncryptedData).toNat
    let msg ← decrypted.encryptedMsg.write msgLenBeforeEncryptedData.toNat plain
    let msg ← printMessage host msg false false
    processDecrypted host gcm env connInfo server msg
      (headerLen + extraMsgLen.toNat + addMsgLen.toNat) devInfo devId

/-- `processMsg`. -/
def processMsg (env : ServerEnv) (connInfo : ConnInfo) (server : ServerState)
    (msg : Block maxMsgLen) : Checked ServerResult := do
  let msgLenWord ← msg.load32 host 0
  let addMsgLenWord ← msg.load32 host 4
  let extraMsgLenWord ← msg.load32 host 8
  let msgLen := ntohl host msgLenWord
  let addMsgLen := ntohl host addMsgLenWord
  let extraMsgLen := ntohl host extraMsgLenWord
  let extraDataPckPtr := headerLen + protocolSpecificExtraDataLen
  let addPckDataPtr := headerLen + extraMsgLen.toNat + protocolSpecificAddLen
  let msg ← printMessage host msg true true
  if connInfo.connectionType = 0 then
    let (identity, msg) ← readIdentity host env msg addPckDataPtr
    match identity with
    | none =>
        pure
          { returnValue := some (-1)
            connInfo := connInfo
            server := server
            msg := msg
            sent := []
            called := none }
    | some identity =>
        match findDevInfo server.devInfos identity.devIdFromMessage.bytes with
        | none =>
            registerDevice host gcm ecdh env connInfo server msg extraDataPckPtr identity
        | some devInfo =>
            processKnown host gcm env connInfo server msg msgLen addMsgLen extraMsgLen devInfo
              identity.devIdFromMessage.bytes
  else
    pure
      { returnValue := none
        connInfo := connInfo
        server := server
        msg := Block.fill maxMsgLen 0
        sent := []
        called := none }

end Processing

end RentMate.MainServer
