/-
Module: RentMate.NodeClient.SocketThread
Purpose: The loop of `socketThread`, from a connection that has been made to the end of the
  iteration: which messages are sent on it, and how often the thread asks for the server's.
Trusted boundary: human-reviewed spec
Main exports: SocketThread, Connection, takeFrame, callRecvAll, awaitSession, sendCommands,
  converse
-/
import RentMate.PckData.RecvHolder
import RentMate.NodeClient.Link

namespace RentMate.NodeClient

open RentMate.Machine
open RentMate.PckData

/-! ### The beacon of a smart lock -/

/-- What a smart lock tells the server of itself. `currentPasscode` is the memory from that
variable on. -/
structure LockState where
  currentLockState : UInt8
  currentDoorState : UInt8
  currentPasscode : Bytes
  currentPasscodeLen : UInt8
deriving DecidableEq, Inhabited

/-- `composeBeaconPacketCmdInfo`. -/
def composeBeaconPacketCmdInfo (devId : Block devIdLen) (devType : UInt32) (beaconData : Bytes)
    (beaconDataLen : UInt8) : Checked NodeCmdInfo := do
  let args ← readBytes beaconData 0 beaconDataLen.toNat
  pure
    { devId := devId
      devType := devType
      opcode := 0
      argsLen := UInt32.ofNat beaconDataLen.toNat
      args := args }

/-- `composeSmartLockBeaconCmdInfo`. The length is passed on as a `uint8_t`. -/
def composeSmartLockBeaconCmdInfo (devId : Block devIdLen) (devType : UInt32)
    (lock : LockState) : Checked NodeCmdInfo := do
  let password ← readBytes lock.currentPasscode 0 lock.currentPasscodeLen.toNat
  composeBeaconPacketCmdInfo devId devType
    ([lock.currentLockState, lock.currentDoorState, lock.currentPasscodeLen] ++ password)
    (3 + lock.currentPasscodeLen)

/-! ### The thread -/

/-- What the calls of `processMsg` on a connection work on. -/
structure Listening where
  link : NodeLink
  taken : Nat

/-- The globals that the thread uses, and what `recv()` has not been asked for yet. -/
structure SocketThread where
  listening : Listening
  unread : List RecvResult
  recvHolders : List RecvHolder
  recvProcessingBuffer : Block maxMsgLen
  sendProcessingBuffer : Block maxMsgLen
  nodeCommandsQueue : List NodeCmdInfo

/-- What a connection takes from outside: its socket and what arrives on it, the settings of the
node, random numbers, and what memory held before it was set. -/
structure Connection where
  socket : Int
  results : List RecvResult
  devId : Block devIdLen
  devType : UInt32
  lock : LockState
  malloced : Block recvQueueSize
  containers : Nat → Block pckDataIncrements
  privateDHKey : Block eccPrvKeySize
  draws : Nat → Draw
  outBuf : Block maxMsgLen
  envs : Nat → NodeEnv

section Thread

variable (host : ByteOrder) (gcm : Gcm) (ecdh : Ecdh) (connection : Connection)

/-- `processMsg` as `recvAll` calls it, with the connection or with `NULL`. -/
def takeFrame (withConnInfo : Bool) : ProcessingCallback Listening :=
  fun processBuf listening => do
    let connInfo := if withConnInfo then some listening.link.connInfo else none
    let result ← processMsg host gcm ecdh (connection.envs listening.taken) connInfo
      listening.link.node processBuf
    pure
      (result.message,
        { link := listening.link.after result
          taken := listening.taken + 1 })

/-- One call of `recvAll`. -/
def callRecvAll (withConnInfo : Bool) (thread : SocketThread) : Checked (Int × SocketThread) := do
  let outcome ← recvAll host (takeFrame host gcm ecdh connection withConnInfo)
    connection.malloced thread.recvHolders connection.socket thread.unread
    thread.recvProcessingBuffer thread.listening
  pure
    (outcome.returnValue,
      { thread with
        listening := outcome.state
        unread := outcome.unread
        recvHolders := outcome.recvHolders
        recvProcessingBuffer := outcome.processBuf })

/-- The branch for a node that has no key. It does not close the socket. -/
def exchangeKeys (thread : SocketThread) : Checked SocketThread := do
  let link := thread.listening.link
  let (node, result) ← startKeyExchange host gcm ecdh (connection.containers 0)
    (connection.containers 1) connection.privateDHKey (connection.draws 0) connection.devId
    link.node thread.sendProcessingBuffer
  let (_, thread) ← callRecvAll host gcm ecdh connection false
    { thread with
      listening := { thread.listening with link := { link with node := node }.afterSending result }
      sendProcessingBuffer := result.outBuf }
  pure thread

/-- The loop that waits for the server's nonce. It is left after the first message, too. The fuel
bounds the number of closed connections. -/
def awaitSession : Nat → SocketThread → Checked SocketThread
  | 0, _ => .error .diverges
  | fuel + 1, thread =>
      if thread.listening.link.connInfo.sessionId ≠ 0 then .ok thread
      else do
        let (status, thread) ← callRecvAll host gcm ecdh connection true thread
        if status = 0 ∨ status = -1 then pure thread
        else awaitSession fuel thread

/-- The branch that sends the node's nonce and waits for the server's. -/
def establishSession (thread : SocketThread) : Checked SocketThread := do
  let link := thread.listening.link
  let result ← startSession host gcm (connection.containers 0) (connection.draws 0)
    connection.devId link.connInfo link.node thread.sendProcessingBuffer
  awaitSession host gcm ecdh connection (thread.unread.length + 1)
    { thread with
      listening := { thread.listening with link := link.afterSending result }
      sendProcessingBuffer := result.outBuf }

/-- The loop that pops and sends the commands of the queue, from the `count`th message on. -/
def sendCommands : Nat → List NodeCmdInfo → NodeLink → Block maxMsgLen → Checked NodeLink
  | _, [], link, _ => .ok link
  | count, cmdInfo :: commandQueue, link, outBuf => do
      let result ← sendNodeMessage host gcm (connection.containers (2 * count))
        (connection.containers (2 * count + 1)) (connection.draws count) link.connInfo link.node
        cmdInfo outBuf
      sendCommands (count + 1) commandQueue (link.afterSending result) result.outBuf

/-- What the thread does in a session: it sends its commands, the beacon last, and then calls
`recvAll` once. -/
def exchangeMessages (thread : SocketThread) : Checked SocketThread := do
  let beaconCmdInfo ← composeSmartLockBeaconCmdInfo connection.devId connection.devType
    connection.lock
  let link ← sendCommands host gcm connection 1 (thread.nodeCommandsQueue ++ [beaconCmdInfo])
    thread.listening.link connection.outBuf
  let (_, thread) ← callRecvAll host gcm ecdh connection true
    { thread with
      listening := { thread.listening with link := link }
      nodeCommandsQueue := [] }
  pure thread

/-- The thread when it has closed the socket. -/
def SocketThread.closed (thread : SocketThread) : SocketThread :=
  { thread with
    listening :=
      { thread.listening with
        link := { thread.listening.link with connInfo := initializeConnInfo 0 } } }

/-- The thread on a connection that has just been made. -/
def SocketThread.connected (thread : SocketThread) (connection : Connection) : SocketThread :=
  { thread with
    listening :=
      { link := { thread.listening.link with connInfo := initializeConnInfo connection.socket }
        taken := 0 }
    unread := connection.results }

/-- An iteration of the loop of `socketThread` in which the connection has been made. -/
def converse (thread : SocketThread) : Checked SocketThread := do
  let thread := thread.connected connection
  if thread.listening.link.node.hasEncryptionContextBeenEstablished = false then
    exchangeKeys host gcm ecdh connection thread
  else do
    let thread ←
      if thread.listening.link.connInfo.localNonce = 0 then
        establishSession host gcm ecdh connection thread
      else pure thread
    let thread ←
      if thread.listening.link.connInfo.sessionId ≠ 0 then
        exchangeMessages host gcm ecdh connection thread
      else pure thread
    pure thread.closed

end Thread

end RentMate.NodeClient
