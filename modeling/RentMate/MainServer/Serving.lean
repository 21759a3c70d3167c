/-
Module: RentMate.MainServer.Serving
Purpose: The server over a whole run: connections are accepted and closed, frames are processed
  on them one at a time, and the websocket thread queues commands in between.
Trusted boundary: human-reviewed spec
Main exports: Serving, ServingEvent, serve
-/
import RentMate.MainServer.Server

namespace RentMate.MainServer

open RentMate.Machine
open RentMate.PckData

/-- The connections and the globals of the server, with the handlers it has called and the
frames it has sent. -/
structure Serving where
  connections : List ConnInfo
  server : ServerState
  calls : List ServerCall
  sent : List Bytes
deriving DecidableEq

/-- What happens to the server. A frame comes on the connection at an index, in the buffer that
`processMsg` is given. -/
inductive ServingEvent where
  | accepted (newFd : Int) (connType : UInt8)
  | frame (index : Nat) (env : ServerEnv) (msg : Block maxMsgLen)
  | closed (index : Nat)
  | queued (devId : Bytes) (command : CommandRequestCommand)

/-- One event. -/
def serve (host : ByteOrder) (gcm : Gcm) (ecdh : Ecdh) (serving : Serving) :
    ServingEvent → Checked Serving
  | .accepted newFd connType =>
      .ok
        { serving with
          connections := serving.connections ++ [acceptedConnInfo newFd connType] }
  | .frame index env msg =>
      match serving.connections[index]? with
      | none => .ok serving
      | some connInfo => do
          let result ← processMsg host gcm ecdh env connInfo serving.server msg
          pure
            { connections := serving.connections.set index result.connInfo
              server := result.server
              calls := serving.calls ++ result.called.toList
              sent := serving.sent ++ result.sent }
  | .closed index => .ok { serving with connections := serving.connections.eraseIdx index }
  | .queued devId command =>
      .ok
        { serving with
          server :=
            { serving.server with
              commandsQueue := addToCommandQueue serving.server.commandsQueue devId command } }

end RentMate.MainServer
