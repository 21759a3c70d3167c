/-
Module: RentMate.MainServer.EpollThread
Purpose: The loop of `epollRecievingThread`: one event of the epoll instance after another, with
  the kernel's sockets and the connections that the thread keeps for them.
Trusted boundary: human-reviewed spec
Main exports: Kernel, EpollThread, EpollEvent, epollStep
-/
import RentMate.PckData.RecvHolder
import RentMate.MainServer.Server

namespace RentMate.MainServer

open RentMate.Machine
open RentMate.PckData

/-! ### The kernel -/

/-- What the kernel keeps for the thread: the listening sockets, the accepted sockets that are
open, with the connection type that belongs to their listener, and the epoll instance, which
maps a registered descriptor to the `data.fd` it was registered with. -/
structure Kernel where
  listening : List Int
  accepted : List (Int × UInt8)
  registered : List (Int × Int)
deriving Repr, DecidableEq

namespace Kernel

/-- The descriptors that the thread has open. -/
def openSockets (kernel : Kernel) : List Int :=
  kernel.listening ++ kernel.accepted.map Prod.fst

/-- `close`: a closed descriptor leaves the epoll instance, too. -/
def close (kernel : Kernel) (fd : Int) : Kernel :=
  { listening := kernel.listening.filter (· ≠ fd)
    accepted := kernel.accepted.filter (·.1 ≠ fd)
    registered := kernel.registered.filter (·.1 ≠ fd) }

/-- `EPOLL_CTL_ADD`, which fails for a descriptor that is not open or registered already, and
where the kernel has no room for another one. `others` are descriptors of other threads. -/
def epollAdd (kernel : Kernel) (room : Bool) (others : List Int) (fd data : Int) :
    Option Kernel :=
  if room = true ∧ (fd ∈ kernel.openSockets ∨ fd ∈ others) ∧
      fd ∉ kernel.registered.map Prod.fst then
    some { kernel with registered := kernel.registered ++ [(fd, data)] }
  else none

end Kernel

/-! ### The table of connections -/

/-- `findConnInfo`. -/
def findConnInfo (connectionsInfo : List ConnInfo) (socket : Int) : Option ConnInfo :=
  connectionsInfo.find? fun connInfo => connInfo.socket = socket

/-- What has been written through the pointer that `findConnInfo` gave. -/
def storeConnInfo (socket : Int) (changed : ConnInfo) : List ConnInfo → List ConnInfo
  | [] => []
  | connInfo :: rest =>
      if connInfo.socket = socket then changed :: rest
      else connInfo :: storeConnInfo socket changed rest

/-- The table behind a `recvAll`, which may have been given no connection. -/
def storeReceived (connectionsInfo : List ConnInfo) (socket : Int) :
    Option ConnInfo → List ConnInfo
  | none => connectionsInfo
  | some changed => storeConnInfo socket changed connectionsInfo

/-- `removeConnInfo`, and the same loop at the end of `close1`. -/
def removeConnInfo (connectionsInfo : List ConnInfo) (socket : Int) : List ConnInfo :=
  connectionsInfo.eraseP fun connInfo => connInfo.socket = socket

/-! ### The thread -/

/-- The local variables and the globals of the thread. A thread that has called `pthread_exit` no
longer runs. -/
structure EpollThread where
  sockNodeLocal : Int
  sockLANLocal : Int
  sockNodeRemote : Int
  connectionsInfo : List ConnInfo
  recvHolders : List RecvHolder
  processMsgBuffer : Block maxMsgLen
  server : ServerState
  running : Bool
  kernel : Kernel

/-- One entry of `events`, with what the system calls give while it is handled: `EPOLLHUP`,
`EPOLLERR` or no `EPOLLIN`, or else `EPOLLIN` alone, since nothing else is registered for.
`nonblocking` says whether `fcntl` sets a new socket so. -/
structure EpollEvent where
  hangup : Bool
  fd : Int
  accepted : Option Int
  nonblocking : Bool
  room : Bool
  others : List Int
  results : List RecvResult
  malloced : Block recvQueueSize
  envs : Nat → ServerEnv

/-- What the calls of `processMsg` in one `recvAll` work on. -/
structure Receiving where
  connInfo : Option ConnInfo
  server : ServerState
  calls : Nat

section Thread

variable (host : ByteOrder) (gcm : Gcm) (ecdh : Ecdh)

/-- `processMsg` as `recvAll` calls it. Without a `connInfo` it dereferences `NULL`. -/
def receiveFrame (envs : Nat → ServerEnv) : ProcessingCallback Receiving :=
  fun msg receiving =>
    match receiving.connInfo with
    | none => .error .nullPointer
    | some connInfo => do
        let result ← processMsg host gcm ecdh (envs receiving.calls) connInfo receiving.server msg
        pure
          (result.msg,
            { connInfo := some result.connInfo
              server := result.server
              calls := receiving.calls + 1 })

/-- `close1`. -/
def close1 (thread : EpollThread) (socket : Int) : EpollThread :=
  if socket ∈ thread.kernel.openSockets then
    { thread with
      kernel := thread.kernel.close socket
      connectionsInfo := removeConnInfo thread.connectionsInfo socket }
  else thread

/-- `accept1` on a listener of this connection type, and what the thread does with the new
socket: `fcntl` on it, and `epoll_ctl` with `toRegister` as the descriptor. If either fails, the
thread exits. -/
def acceptConnection (thread : EpollThread) (event : EpollEvent) (newFd : Int) (connType : UInt8)
    (toRegister : Int) : EpollThread :=
  let kernel := { thread.kernel with accepted := thread.kernel.accepted ++ [(newFd, connType)] }
  let thread :=
    { thread with
      kernel := kernel
      connectionsInfo := thread.connectionsInfo ++ [acceptedConnInfo newFd connType] }
  if event.nonblocking = true then
    match kernel.epollAdd event.room event.others toRegister newFd with
    | some kernel => { thread with kernel := kernel }
    | none => { thread with running := false }
  else { thread with running := false }

/-- The branch for the node listener. -/
def acceptNode (thread : EpollThread) (event : EpollEvent) : EpollThread :=
  match event.accepted with
  | none => { thread with sockNodeRemote := -1, running := false }
  | some newFd => acceptConnection { thread with sockNodeRemote := newFd } event newFd 0 newFd

/-- The branch for the LAN listener. The descriptor it registers is the last one that the other
branch accepted. -/
def acceptLAN (thread : EpollThread) (event : EpollEvent) : EpollThread :=
  match event.accepted with
  | none => { thread with running := false }
  | some newFd => acceptConnection thread event newFd 1 thread.sockNodeRemote

/-- The branch for a socket that can be read. -/
def receiveMessage (thread : EpollThread) (event : EpollEvent) : Checked EpollThread := do
  let connInfo := findConnInfo thread.connectionsInfo event.fd
  let outcome ← recvAll host (receiveFrame host gcm ecdh event.envs) event.malloced
    thread.recvHolders event.fd event.results thread.processMsgBuffer
    { connInfo := connInfo, server := thread.server, calls := 0 }
  let thread :=
    { thread with
      connectionsInfo :=
        storeReceived thread.connectionsInfo event.fd outcome.state.connInfo
      recvHolders := outcome.recvHolders
      processMsgBuffer := outcome.processBuf
      server := outcome.state.server }
  -- `recvAll` has closed the socket when it returns 1.
  if outcome.returnValue = 1 then
    pure
      { thread with
        kernel := thread.kernel.close event.fd
        connectionsInfo := removeConnInfo thread.connectionsInfo event.fd }
  else pure thread

/-- One iteration of the loop over `events`. -/
def epollStep (thread : EpollThread) (event : EpollEvent) : Checked EpollThread :=
  if event.hangup = true then .ok (close1 thread event.fd)
  else if event.fd = thread.sockNodeLocal then .ok (acceptNode thread event)
  else if event.fd = thread.sockLANLocal then .ok (acceptLAN thread event)
  else receiveMessage host gcm ecdh thread event

/-- The thread when its loop begins. `sockNodeRemote` holds whatever the stack held. -/
def startThread (sockNodeLocal sockLANLocal sockNodeRemote : Int)
    (processMsgBuffer : Block maxMsgLen) (server : ServerState) : EpollThread :=
  { sockNodeLocal := sockNodeLocal
    sockLANLocal := sockLANLocal
    sockNodeRemote := sockNodeRemote
    connectionsInfo := []
    recvHolders := []
    processMsgBuffer := processMsgBuffer
    server := server
    running := true
    kernel :=
      { listening := [sockNodeLocal, sockLANLocal]
        accepted := []
        registered := [(sockNodeLocal, sockNodeLocal), (sockLANLocal, sockLANLocal)] } }

end Thread

end RentMate.MainServer
