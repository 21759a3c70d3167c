/-
Module: RentMate.NodeClient.Client
Purpose: The node's `processMsg`, the messages it composes, and the pieces of `socketThread` that
  begin a key exchange or a session.
Trusted boundary: human-reviewed spec
Main exports: NodeState, NodeEnv, NodeResult, processMsg, composeNodeMessage, startKeyExchange,
  startSession, sendNodeMessage
-/
import RentMate.PckData.Session
import RentMate.PckData.Ecdh
import RentMate.NodeClient.Commands

namespace RentMate.NodeClient

open RentMate.Machine
open RentMate.PckData

/-- The globals of the node that `processMsg` uses. -/
structure NodeState where
  pointerToKey : Block keyLen
  hasEncryptionContextBeenEstablished : Bool
  privateDHKeyBuffer : Block eccPrvKeySize
  decryptionBuffer : Block maxMsgLen
deriving DecidableEq, Inhabited

/-- What the local variables of `processMsg` hold before they are set. -/
structure NodeEnv where
  publicDHKeyRemote : Block eccPubKeySize
  sharedDHKey : Block eccPubKeySize
  opcode : Block 4
  args : (argsLen : Nat) → Block argsLen
deriving Inhabited

/-- What `processMsg` returns and leaves, and the handler it has called. -/
structure NodeResult where
  returnValue : Int
  connInfo : Option ConnInfo
  node : NodeState
  message : Block maxMsgLen
  called : Option NodeCall
deriving DecidableEq

/-- `nodeCmdInfo`. `args` are the bytes that the pointer points to. -/
structure NodeCmdInfo where
  devId : Block devIdLen
  devType : UInt32
  opcode : UInt32
  argsLen : UInt32
  args : Bytes
deriving DecidableEq

/-- The space of a thread's stack. A local array that is longer does not fit on it. -/
abbrev stackSize : Nat := 8388608

/-- `initializeConnInfo`. -/
def initializeConnInfo (socket : Int) : ConnInfo :=
  { socket := socket
    connectionType := 0
    remoteNonce := 0
    localNonce := 0
    sessionId := 0
    sendSessionIncrements := 0
    rcvSessionIncrements := 0 }

section Processing

variable (host : ByteOrder) (gcm : Gcm) (ecdh : Ecdh)

/-! ### Receiving -/

/-- The branch without a connection: the server's answer to a key exchange. -/
def takeKey (env : NodeEnv) (node : NodeState) (message : Block maxMsgLen)
    (extraDataPckPtr : Nat) : Checked NodeResult := do
  let message ← pckDataToHostOrder host message extraDataPckPtr
  let (_, publicDHKeyRemote) ←
    getElementFromPckData host message extraDataPckPtr env.publicDHKeyRemote 0
  let message ← pckDataToNetworkOrder host message extraDataPckPtr
  let sharedDHKey :=
    (ecdh.sharedSecret node.privateDHKeyBuffer publicDHKeyRemote).getD env.sharedDHKey
  pure
    { returnValue := 0
      connInfo := none
      node :=
        { node with
          pointerToKey := keyOf sharedDHKey
          hasEncryptionContextBeenEstablished := true }
      message := message
      called := none }

/-- The branch that takes the server's nonce. -/
def takeNonce (connInfo : ConnInfo) (node : NodeState) (message : Block maxMsgLen) :
    Checked NodeResult := do
  let remoteNonce ← node.decryptionBuffer.load32 host 0
  let connInfo := { connInfo with remoteNonce := remoteNonce }
  let connInfo := { connInfo with localNonce := htonl host connInfo.localNonce }
  let connInfo := { connInfo with sessionId := connInfo.localNonce + connInfo.remoteNonce }
  pure
    { returnValue := 0
      connInfo := some connInfo
      node := node
      message := message
      called := none }

/-- How many bytes `processMsg` prints from the encrypted container on, however long it is. -/
abbrev shownLen : Nat := 40

/-- The branch for the commands of an established session. -/
def dispatchCommand (env : NodeEnv) (connInfo : ConnInfo) (node : NodeState)
    (message : Block maxMsgLen) (encryptedPckDataPtr : Nat) : Checked NodeResult := do
  let message ← printMessage host message false false
  let _ ← message.read encryptedPckDataPtr shownLen
  let (_, opcodeBytes) ←
    getElementFromPckData host message encryptedPckDataPtr env.opcode 0
  let argsLen ← getElementLengthFromPckData host message encryptedPckDataPtr 1
  if stackSize < argsLen.toNat then .error .stackExhausted
  else
    let (_, args) ←
      getElementFromPckData host message encryptedPckDataPtr (env.args argsLen.toNat) 1
    let opcode := host.decode opcodeBytes.bytes
    let command ← nodeCommands opcode
    let call : NodeCall :=
      { opcode := opcode
        command := command
        args := args.bytes
        argsLen := argsLen }
    runNodeCommand call
    pure
      { returnValue := 0
        connInfo := some connInfo
        node := node
        message := message
        called := some call }

/-- What `processMsg` does on a connection. The result of `decryptPckData` is not looked at. -/
def processConnected (env : NodeEnv) (connInfo : ConnInfo) (node : NodeState)
    (message : Block maxMsgLen) (encryptedPckDataPtr : Nat) : Checked NodeResult := do
  let decrypted ←
    decryptPckData host gcm node.pointerToKey.bytes message node.decryptionBuffer
  let node := { node with decryptionBuffer := decrypted.outputBuf }
  if connInfo.sessionId = 0 then
    takeNonce host connInfo node decrypted.encryptedMsg
  else
    dispatchCommand host env connInfo node decrypted.encryptedMsg encryptedPckDataPtr

/-- `processMsg`. -/
def processMsg (env : NodeEnv) (connInfo : Option ConnInfo) (node : NodeState)
    (message : Block maxMsgLen) : Checked NodeResult := do
  let _ ← message.load32 host 0
  let addMsgLenWord ← message.load32 host 4
  let extraMsgLenWord ← message.load32 host 8
  let addMsgLen := ntohl host addMsgLenWord
  let extraMsgLen := ntohl host extraMsgLenWord
  let extraDataPckPtr := headerLen + protocolSpecificExtraDataLen
  let encryptedPckDataPtr :=
    headerLen + extraMsgLen.toNat + addMsgLen.toNat + protocolSpecificEncryptedDataLen
  let message ← printMessage host message true true
  match connInfo with
  | none => takeKey host ecdh env node message extraDataPckPtr
  | some connInfo => processConnected host gcm env connInfo node message encryptedPckDataPtr

/-! ### Sending -/

/-- `composeNodeMessage`: the encrypted and the ADD container, as far as it changes memory. -/
def composeNodeMessage (addMalloced encryptedMalloced : Block pckDataIncrements)
    (cmdInfo : NodeCmdInfo) :
    Checked (Block pckDataIncrements × Block pckDataIncrements) := do
  let pckDataAdd ← initPckData host addMalloced
  let pckDataEncrypted ← initPckData host encryptedMalloced
  let pckDataAdd ← appendToPckData host pckDataAdd cmdInfo.devId.bytes
  let pckDataEncrypted ←
    appendToPckData host pckDataEncrypted (host.encode (htonl host cmdInfo.devType))
  let pckDataEncrypted ←
    appendToPckData host pckDataEncrypted (host.encode (htonl host cmdInfo.opcode))
  let args ← readBytes cmdInfo.args 0 cmdInfo.argsLen.toNat
  let pckDataEncrypted ← appendToPckData host pckDataEncrypted args
  let pckDataEncrypted ← printPckData host pckDataEncrypted 0 false
  let pckDataAdd ← printPckData host pckDataAdd 0 false
  pure (pckDataEncrypted, pckDataAdd)

/-- One command of the node's queue, composed and sent. -/
def sendNodeMessage {size : Nat} (addMalloced encryptedMalloced : Block pckDataIncrements)
    (draw : Draw) (connInfo : ConnInfo) (node : NodeState) (cmdInfo : NodeCmdInfo)
    (outBuf : Block size) : Checked (SendResult size) := do
  let (pckDataEncrypted, pckDataAdd) ←
    composeNodeMessage host addMalloced encryptedMalloced cmdInfo
  encryptAndSendAll host gcm (some connInfo) (some node.pointerToKey.bytes)
    (some pckDataEncrypted) (some pckDataAdd) none 0 draw outBuf

/-- The frame with the node's nonce, which begins a session. -/
def startSession {size : Nat} (addMalloced : Block pckDataIncrements) (draw : Draw)
    (devId : Block devIdLen) (connInfo : ConnInfo) (node : NodeState) (outBuf : Block size) :
    Checked (SendResult size) := do
  let addPckData ← initPckData host addMalloced
  let addPckData ← appendToPckData host addPckData devId.bytes
  encryptAndSendAll host gcm (some connInfo) (some node.pointerToKey.bytes) none
    (some addPckData) none 0 draw outBuf

/-- `targetDevtype` of a smart lock. -/
abbrev targetDevtype : UInt8 := 2

/-- The frame with the node's public key, which begins a key exchange, and the private key that
belongs to it. -/
def startKeyExchange {size : Nat} (addMalloced extraMalloced : Block pckDataIncrements)
    (privateDHKey : Block eccPrvKeySize) (draw : Draw) (devId : Block devIdLen)
    (node : NodeState) (outBuf : Block size) : Checked (NodeState × SendResult size) := do
  let (_, publicDHKeyLocalBuffer, privateDHKeyBuffer) := ecdh.generateKeys privateDHKey
  let addPckData ← initPckData host addMalloced
  let addPckData ← appendToPckData host addPckData devId.bytes
  let addPckData ← appendToPckData host addPckData [targetDevtype]
  let addPckData ← appendToPckData host addPckData [1]
  let extraPckData ← initPckData host extraMalloced
  let extraPckData ← appendToPckData host extraPckData publicDHKeyLocalBuffer.bytes
  let result ← encryptAndSendAll host gcm none none none (some addPckData) (some extraPckData) 0
    draw outBuf
  pure ({ node with privateDHKeyBuffer := privateDHKeyBuffer }, result)

end Processing

end RentMate.NodeClient
