/-
Module: RentMate.Network.World
Purpose: A server and a node over a whole run, with a network between them that keeps every frame
  that has been sent and can hand it over again, to either end and on any connection.
Trusted boundary: human-reviewed spec
Main exports: Side, FrameRef, Connection, Delivery, World, Event, step
-/
import RentMate.MainServer.Server
import RentMate.NodeClient.Client

namespace RentMate.Network

open RentMate.Machine
open RentMate.PckData
open RentMate.MainServer (ServerState ServerEnv ServerResult CommandRequest CommandRequestCommand
  addToCommandQueue)
open RentMate.NodeClient (NodeState NodeEnv NodeResult NodeCmdInfo initializeConnInfo startSession
  sendNodeMessage)

/-- The two ends of a connection. -/
inductive Side where
  | node
  | server
deriving Repr, DecidableEq

/-- One frame that has been sent: the connection, the end that has sent it, and how many frames
that end had sent on the connection before. -/
structure FrameRef where
  connection : Nat
  sender : Side
  place : Nat
deriving Repr, DecidableEq

/-- A connection that the server has accepted: what the ends keep for it and the frames that they
have sent on it. -/
structure Connection where
  nodeEnd : ConnInfo
  serverEnd : ConnInfo
  fromNode : List Bytes
  fromServer : List Bytes

/-- One frame that has been handed over. `before` is what the receiver had kept for the connection.
A frame is `dispatched` by calling a handler, and it has `released` commands when the queue of the
server is not what it was. -/
structure Delivery where
  receiver : Side
  connection : Nat
  frame : FrameRef
  before : ConnInfo
  dispatched : Bool
  released : Bool
deriving Repr, DecidableEq

/-- The two programs, all connections that there have been, the one that the node uses, and all
frames that have been handed over. -/
structure World where
  node : NodeState
  server : ServerState
  connections : List Connection
  current : Option Nat
  deliveries : List Delivery

/-- What happens. The node connects, begins a session or sends; somebody else connects; the
websocket thread queues a command; the network hands over a frame. Behind the frame the buffer
of the receiver holds what it held. -/
inductive Event where
  | connected (socket newFd : Int)
  | intruded (newFd : Int)
  | startedSession (addMalloced : Block pckDataIncrements) (draw : Draw)
      (outBuf : Block maxMsgLen)
  | sent (addMalloced encryptedMalloced : Block pckDataIncrements) (draw : Draw)
      (cmdInfo : NodeCmdInfo) (outBuf : Block maxMsgLen)
  | queued (devId : Bytes) (command : CommandRequestCommand)
  | handedToServer (connection : Nat) (frame : FrameRef) (env : ServerEnv)
      (msg : Block maxMsgLen)
  | handedToNode (frame : FrameRef) (env : NodeEnv) (message : Block maxMsgLen)

/-! ### What one end leaves -/

namespace Connection

variable (connection : Connection)

/-- The node has sent something, or has been refused. -/
def afterSending (result : SendResult maxMsgLen) : Connection :=
  { connection with
    nodeEnd := result.connInfo.getD connection.nodeEnd
    fromNode := connection.fromNode ++ result.sent.toList }

/-- The server has processed a frame. -/
def afterServer (result : ServerResult) : Connection :=
  { connection with
    serverEnd := result.connInfo
    fromServer := connection.fromServer ++ result.sent }

/-- The node has processed a frame. -/
def afterNode (result : NodeResult) : Connection :=
  { connection with nodeEnd := result.connInfo.getD connection.nodeEnd }

end Connection

/-- What is known of a frame that the server has processed. -/
def serverDelivery (index : Nat) (frame : FrameRef) (before : ConnInfo)
    (commandsQueue : List CommandRequest) (result : ServerResult) : Delivery :=
  { receiver := .server
    connection := index
    frame := frame
    before := before
    dispatched := result.called.isSome
    released := decide (result.server.commandsQueue ≠ commandsQueue) }

/-- What is known of a frame that the node has processed. -/
def nodeDelivery (index : Nat) (frame : FrameRef) (before : ConnInfo) (result : NodeResult) :
    Delivery :=
  { receiver := .node
    connection := index
    frame := frame
    before := before
    dispatched := result.called.isSome
    released := false }

/-! ### The network -/

namespace World

/-- The frame that has been sent. -/
def frame? (world : World) (frame : FrameRef) : Option Bytes :=
  match world.connections[frame.connection]? with
  | none => none
  | some connection =>
      match frame.sender with
      | .node => connection.fromNode[frame.place]?
      | .server => connection.fromServer[frame.place]?

/-- How many frames have been handed over to an end on a connection. -/
def handed (world : World) (receiver : Side) (connection : Nat) : Nat :=
  world.deliveries.countP fun delivery =>
    delivery.receiver = receiver ∧ delivery.connection = connection

/-- Another connection. -/
def accepting (world : World) (socket newFd : Int) : World :=
  { world with
    connections := world.connections ++
      [{ nodeEnd := initializeConnInfo socket
         serverEnd := acceptedConnInfo newFd 0
         fromNode := []
         fromServer := [] }] }

/-- The node sends something on its connection, if it has one. -/
def nodeSends (world : World) (send : ConnInfo → Checked (SendResult maxMsgLen)) :
    Checked World :=
  match world.current with
  | none => .ok world
  | some index =>
      match world.connections[index]? with
      | none => .ok world
      | some connection => do
          let result ← send connection.nodeEnd
          pure
            { world with
              connections := world.connections.set index (connection.afterSending result) }

end World

section Stepping

variable (nodeHost host : ByteOrder) (gcm : Gcm) (ecdh : Ecdh)

/-- The server processes a frame. -/
def serverReceives (world : World) (index : Nat) (frame : FrameRef) (bytes : Bytes)
    (connection : Connection) (env : ServerEnv) (msg : Block maxMsgLen) : Checked World := do
  let msg ← msg.write 0 bytes
  let result ← MainServer.processMsg host gcm ecdh env connection.serverEnd world.server msg
  pure
    { world with
      server := result.server
      connections := world.connections.set index (connection.afterServer result)
      deliveries := world.deliveries ++
        [serverDelivery index frame connection.serverEnd world.server.commandsQueue result] }

/-- The node processes a frame. -/
def nodeReceives (world : World) (index : Nat) (frame : FrameRef) (bytes : Bytes)
    (connection : Connection) (env : NodeEnv) (message : Block maxMsgLen) : Checked World := do
  let message ← message.write 0 bytes
  let result ←
    NodeClient.processMsg nodeHost gcm ecdh env (some connection.nodeEnd) world.node message
  pure
    { world with
      node := result.node
      connections := world.connections.set index (connection.afterNode result)
      deliveries := world.deliveries ++ [nodeDelivery index frame connection.nodeEnd result] }

/-- One event, for the node with this DEVID. What is said about a connection or a frame that there
is not changes nothing. -/
def step (devId : Block devIdLen) (world : World) : Event → Checked World
  | .connected socket newFd =>
      .ok { world.accepting socket newFd with current := some world.connections.length }
  | .intruded newFd => .ok (world.accepting 0 newFd)
  | .startedSession addMalloced draw outBuf =>
      world.nodeSends fun nodeEnd =>
        startSession nodeHost gcm addMalloced draw devId nodeEnd world.node outBuf
  | .sent addMalloced encryptedMalloced draw cmdInfo outBuf =>
      world.nodeSends fun nodeEnd =>
        sendNodeMessage nodeHost gcm addMalloced encryptedMalloced draw nodeEnd world.node
          { cmdInfo with devId := devId } outBuf
  | .queued addressee command =>
      .ok
        { world with
          server :=
            { world.server with
              commandsQueue := addToCommandQueue world.server.commandsQueue addressee command } }
  | .handedToServer index frame env msg =>
      match world.connections[index]?, world.frame? frame with
      | some connection, some bytes =>
          serverReceives host gcm ecdh world index frame bytes connection env msg
      | _, _ => .ok world
  | .handedToNode frame env message =>
      match world.current, world.frame? frame with
      | some index, some bytes =>
          match world.connections[index]? with
          | some connection =>
              nodeReceives nodeHost gcm ecdh world index frame bytes connection env message
          | none => .ok world
      | _, _ => .ok world

end Stepping

end RentMate.Network
