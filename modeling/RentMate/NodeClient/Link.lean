/-
Module: RentMate.NodeClient.Link
Purpose: The node over a whole run: the pieces of `socketThread` that exchange keys, begin a
  session, send and receive, one after another on connections that come and go.
Trusted boundary: human-reviewed spec
Main exports: NodeLink, NodeEvent, follow
-/
import RentMate.NodeClient.Client

namespace RentMate.NodeClient

open RentMate.Machine
open RentMate.PckData

/-- The node's connection and the globals of its program, with the handlers it has called and
the frames it has sent. -/
structure NodeLink where
  connInfo : ConnInfo
  node : NodeState
  calls : List NodeCall
  sent : List Bytes
deriving DecidableEq

/-- What happens to the node. `socketThread` initializes the connection before it connects and
after it closes the socket. A frame comes in the buffer that `processMsg` is given: during a key
exchange `answered`, which passes no connection, and otherwise `received`. -/
inductive NodeEvent where
  | restarted
  | initialized (socket : Int)
  | startedKeyExchange (addMalloced extraMalloced : Block pckDataIncrements)
      (privateDHKey : Block eccPrvKeySize) (draw : Draw) (devId : Block devIdLen)
      (outBuf : Block maxMsgLen)
  | answered (env : NodeEnv) (message : Block maxMsgLen)
  | startedSession (addMalloced : Block pckDataIncrements) (draw : Draw)
      (devId : Block devIdLen) (outBuf : Block maxMsgLen)
  | sent (addMalloced encryptedMalloced : Block pckDataIncrements) (draw : Draw)
      (cmdInfo : NodeCmdInfo) (outBuf : Block maxMsgLen)
  | received (env : NodeEnv) (message : Block maxMsgLen)

/-- The globals of a program that has just been started and has found no key in its memory. -/
def startedNode : NodeState :=
  { pointerToKey := default
    hasEncryptionContextBeenEstablished := false
    privateDHKeyBuffer := default
    decryptionBuffer := default }

/-- What a frame leaves. -/
def NodeLink.after (link : NodeLink) (result : NodeResult) : NodeLink :=
  { connInfo := result.connInfo.getD link.connInfo
    node := result.node
    calls := link.calls ++ result.called.toList
    sent := link.sent }

/-- What a send leaves. -/
def NodeLink.afterSending {size : Nat} (link : NodeLink) (result : SendResult size) : NodeLink :=
  { link with
    connInfo := result.connInfo.getD link.connInfo
    sent := link.sent ++ result.sent.toList }

/-- One event. -/
def follow (host : ByteOrder) (gcm : Gcm) (ecdh : Ecdh) (link : NodeLink) :
    NodeEvent → Checked NodeLink
  | .restarted =>
      .ok { link with connInfo := initializeConnInfo 0, node := startedNode }
  | .initialized socket => .ok { link with connInfo := initializeConnInfo socket }
  | .startedKeyExchange addMalloced extraMalloced privateDHKey draw devId outBuf => do
      let (node, result) ←
        startKeyExchange host gcm ecdh addMalloced extraMalloced privateDHKey draw devId
          link.node outBuf
      pure ({ link with node := node }.afterSending result)
  | .answered env message => do
      let result ← processMsg host gcm ecdh env none link.node message
      pure (link.after result)
  | .startedSession addMalloced draw devId outBuf => do
      let result ← startSession host gcm addMalloced draw devId link.connInfo link.node outBuf
      pure (link.afterSending result)
  | .sent addMalloced encryptedMalloced draw cmdInfo outBuf => do
      let result ←
        sendNodeMessage host gcm addMalloced encryptedMalloced draw link.connInfo link.node
          cmdInfo outBuf
      pure (link.afterSending result)
  | .received env message => do
      let result ← processMsg host gcm ecdh env (some link.connInfo) link.node message
      pure (link.after result)

end RentMate.NodeClient
