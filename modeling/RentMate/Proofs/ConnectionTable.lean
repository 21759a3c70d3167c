/-
Module: RentMate.Proofs.ConnectionTable
Purpose: The server's list of connections against the kernel's open sockets and the epoll
  instance, over every run of the epoll thread.
Trusted boundary: none
Main exports: Consistent, Feasible, RegistersAccepted, consistent_along_iff
-/
import RentMate.Machine.Run
import RentMate.MainServer.EpollThread
import RentMate.Proofs.RoundTrip
import RentMate.Proofs.ServerSteps
import Mathlib.Data.List.Nodup

namespace RentMate.ConnectionTable

open RentMate.Machine
open RentMate.PckData
open RentMate.MainServer
open RentMate.RoundTrip
open RentMate.ServerSteps

variable {host : ByteOrder} {gcm : Gcm} {ecdh : Ecdh} {thread next : EpollThread}
  {event : EpollEvent} {events : List EpollEvent}

/-- The listed sockets are the accepted ones that are open, each once with the type of its
listener, and the epoll instance watches each of them. -/
structure Consistent (thread : EpollThread) : Prop where
  listed : ∀ socket connType,
    (∃ connInfo ∈ thread.connectionsInfo,
      connInfo.socket = socket ∧ connInfo.connectionType = connType) ↔
      (socket, connType) ∈ thread.kernel.accepted
  once : (thread.connectionsInfo.map ConnInfo.socket).Nodup
  watched : ∀ connInfo ∈ thread.connectionsInfo,
    ∃ data, (connInfo.socket, data) ∈ thread.kernel.registered

/-- What the kernel can report: an event comes from a registered descriptor, and `accept` gives a
descriptor that is not in use, for a socket that listens. -/
structure Feasible (thread : EpollThread) (event : EpollEvent) : Prop where
  running : thread.running = true
  reported : ∃ fd, (fd, event.fd) ∈ thread.kernel.registered
  fresh : ∀ newFd, event.accepted = some newFd →
    event.fd ∈ thread.kernel.listening ∧ newFd ∉ thread.kernel.openSockets ∧
      newFd ∉ event.others

/-- A socket that is accepted can be set as non-blocking, the kernel has room to watch it, and the
descriptor that the branch registers is that of the socket: on the LAN listener, the new socket has
the number of the last one accepted on the node listener. -/
def RegistersAccepted (thread : EpollThread) (event : EpollEvent) : Prop :=
  ∀ newFd, event.hangup = false → event.accepted = some newFd →
    event.nonblocking = true ∧ event.room = true ∧
      (event.fd ≠ thread.sockNodeLocal → newFd = thread.sockNodeRemote)

/-! ### What the calls of `processMsg` keep -/

section Callback

variable {σ : Type} {callback : ProcessingCallback σ} (kept : σ → Prop)

/-- What every frame keeps is kept by a whole chunk. -/
theorem handleMsgData_keeps
    (keeps : ∀ msg state msg' state', kept state → callback msg state = .ok (msg', state') →
      kept state')
    {fuel : Nat} {holder : RecvHolder} {rs : Nat} {processMsgBuffer : Block maxMsgLen} {state : σ}
    {handled : Handled σ} (holds : kept state)
    (ran : handleMsgData host callback fuel holder rs processMsgBuffer state = .ok handled) :
    kept handled.state := by
  induction fuel generalizing holder processMsgBuffer state handled with
  | zero => cases ran
  | succ fuel ih =>
      rw [handleMsgData] at ran
      split at ran
      · obtain ⟨copied, -, ran⟩ := bind_eq_ok.mp ran
        obtain ⟨⟨msg, called⟩, ranCall, ran⟩ := bind_eq_ok.mp ran
        have holdsThen := keeps _ _ _ _ holds ranCall
        simp only at ran
        split at ran
        · obtain ⟨further, -, ran⟩ := bind_eq_ok.mp ran
          obtain ⟨handledRest, ranRest, ran⟩ := bind_eq_ok.mp ran
          have holdsRest := ih holdsThen ranRest
          obtain rfl := Except.ok.inj ran
          exact holdsRest
        · obtain rfl := Except.ok.inj ran
          exact holdsThen
      · obtain rfl := Except.ok.inj ran
        exact holds

/-- What every frame keeps is kept by the loop over `recv()`. -/
theorem recvLoop_keeps
    (keeps : ∀ msg state msg' state', kept state → callback msg state = .ok (msg', state') →
      kept state')
    {index : Nat} {recvHolders : List RecvHolder} {results : List RecvResult}
    {processBuf : Block maxMsgLen} {state : σ} {outcome : RecvAllOutcome σ} (holds : kept state)
    (ran : recvLoop host callback index results recvHolders processBuf state = .ok outcome) :
    kept outcome.state := by
  induction results generalizing recvHolders processBuf state with
  | nil =>
      obtain rfl := Except.ok.inj ran
      exact holds
  | cons result results ih =>
      cases result with
      | closed =>
          obtain rfl := Except.ok.inj ran
          exact holds
      | bytes chunk =>
          simp only [recvLoop] at ran
          split at ran
          · cases ran
          · obtain ⟨handled, ranChunk, ran⟩ := bind_eq_ok.mp ran
            obtain ⟨obtained, -, ranData⟩ := bind_eq_ok.mp ranChunk
            have holdsThen := handleMsgData_keeps kept keeps holds ranData
            split at ran
            · obtain rfl := Except.ok.inj ran
              exact holdsThen
            · exact ih holdsThen ran

end Callback

/-! ### The invariant -/

/-- What the kernel knows a connection by. -/
def linkOf (connInfo : ConnInfo) : Int × UInt8 := (connInfo.socket, connInfo.connectionType)

/-- The list follows the kernel's accepted sockets, and the epoll instance watches exactly what
is open, each socket under its own number. -/
structure Tracked (thread : EpollThread) : Prop where
  links : thread.connectionsInfo.map linkOf = thread.kernel.accepted
  distinct : (thread.kernel.accepted.map Prod.fst).Nodup
  watches : ∀ fd data, (fd, data) ∈ thread.kernel.registered ↔
    data = fd ∧ fd ∈ thread.kernel.openSockets
  listeners : ∀ fd ∈ thread.kernel.listening,
    fd = thread.sockNodeLocal ∨ fd = thread.sockLANLocal
  apart : ∀ fd ∈ thread.kernel.listening, fd ∉ thread.kernel.accepted.map Prod.fst

/-- The connections have the sockets that were accepted. -/
theorem Tracked.sockets (tracked : Tracked thread) :
    thread.connectionsInfo.map ConnInfo.socket = thread.kernel.accepted.map Prod.fst := by
  rw [← tracked.links, List.map_map]
  rfl

/-- A tracked table is consistent. -/
theorem Tracked.consistent (tracked : Tracked thread) : Consistent thread := by
  constructor
  · intro socket connType
    rw [← tracked.links, List.mem_map]
    simp [linkOf]
  · rw [tracked.sockets]
    exact tracked.distinct
  · intro connInfo inside
    refine ⟨connInfo.socket, (tracked.watches _ _).mpr ⟨rfl, ?_⟩⟩
    rw [Kernel.openSockets, List.mem_append, ← tracked.sockets]
    exact .inr (List.mem_map_of_mem inside)

/-- The table is tracked when the thread starts. -/
theorem tracked_start {sockNodeLocal sockLANLocal sockNodeRemote : Int}
    {processMsgBuffer : Block maxMsgLen} {server : ServerState} :
    Tracked (startThread sockNodeLocal sockLANLocal sockNodeRemote processMsgBuffer server) := by
  constructor
  · rfl
  · exact List.nodup_nil
  · intro fd data
    simp [startThread, Kernel.openSockets]
    constructor
    · rintro (⟨rfl, rfl⟩ | ⟨rfl, rfl⟩)
      · exact ⟨rfl, .inl rfl⟩
      · exact ⟨rfl, .inr rfl⟩
    · rintro ⟨rfl, rfl | rfl⟩
      · exact .inl ⟨rfl, rfl⟩
      · exact .inr ⟨rfl, rfl⟩
  · intro fd listens
    simpa [startThread] using listens
  · intro fd _
    simp [startThread]

/-! ### Closing -/

/-- Removing the first connection of a socket removes all of them where there is one at most. -/
theorem removeConnInfo_links {connectionsInfo : List ConnInfo}
    (distinct : (connectionsInfo.map ConnInfo.socket).Nodup) (socket : Int) :
    (removeConnInfo connectionsInfo socket).map linkOf =
      (connectionsInfo.map linkOf).filter (·.1 ≠ socket) := by
  induction connectionsInfo with
  | nil => rfl
  | cons connInfo rest ih =>
      rw [List.map_cons, List.nodup_cons] at distinct
      rw [removeConnInfo, List.eraseP_cons]
      by_cases own : connInfo.socket = socket
      · have others : (rest.map linkOf).filter (·.1 ≠ socket) = rest.map linkOf := by
          refine List.filter_eq_self.mpr fun link inside => ?_
          rcases List.mem_map.mp inside with ⟨other, member, rfl⟩
          have differs : other.socket ≠ socket := by
            intro same
            exact distinct.1 (by rw [own, ← same]; exact List.mem_map_of_mem member)
          exact decide_eq_true differs
        simp only [own, decide_true, cond_true, List.map_cons, List.filter_cons, linkOf, ne_eq,
          not_true, decide_false]
        simpa [linkOf] using others.symm
      · have behind := ih distinct.2
        rw [removeConnInfo] at behind
        simp [own, linkOf] at behind ⊢
        exact behind

/-- Closing a socket and removing its entry keeps the table tracked. -/
theorem tracked_close (tracked : Tracked thread) (fd : Int) :
    Tracked
      { thread with
        kernel := thread.kernel.close fd
        connectionsInfo := removeConnInfo thread.connectionsInfo fd } := by
  constructor
  · have distinct : (thread.connectionsInfo.map ConnInfo.socket).Nodup := by
      rw [tracked.sockets]
      exact tracked.distinct
    rw [removeConnInfo_links distinct, tracked.links]
    rfl
  · exact tracked.distinct.sublist ((List.filter_sublist).map Prod.fst)
  · intro other data
    have before := tracked.watches other data
    simp only [Kernel.close, Kernel.openSockets, List.mem_append, List.mem_filter, List.mem_map,
      decide_eq_true_eq] at before ⊢
    constructor
    · rintro ⟨inside, different⟩
      rcases before.mp inside with ⟨same, listens | ⟨link, accepted, rfl⟩⟩
      · exact ⟨same, .inl ⟨listens, different⟩⟩
      · exact ⟨same, .inr ⟨link, ⟨accepted, different⟩, rfl⟩⟩
    · rintro ⟨same, ⟨listens, different⟩ | ⟨link, ⟨accepted, different⟩, rfl⟩⟩
      · exact ⟨before.mpr ⟨same, .inl listens⟩, different⟩
      · exact ⟨before.mpr ⟨same, .inr ⟨link, accepted, rfl⟩⟩, different⟩
  · intro other listens
    exact tracked.listeners other (List.mem_filter.mp listens).1
  · intro other listens accepted
    refine tracked.apart other (List.mem_filter.mp listens).1 ?_
    exact List.Sublist.subset ((List.filter_sublist).map Prod.fst) accepted

/-! ### Accepting -/

/-- Accepting a socket and appending its entry keeps the table tracked. -/
theorem tracked_accept (tracked : Tracked thread) {newFd : Int} {connType : UInt8}
    (fresh : newFd ∉ thread.kernel.openSockets) :
    Tracked
      { thread with
        connectionsInfo := thread.connectionsInfo ++ [acceptedConnInfo newFd connType]
        kernel :=
          { listening := thread.kernel.listening
            accepted := thread.kernel.accepted ++ [(newFd, connType)]
            registered := thread.kernel.registered ++ [(newFd, newFd)] } } := by
  rw [Kernel.openSockets, List.mem_append, not_or] at fresh
  constructor
  · simp [tracked.links, linkOf, acceptedConnInfo]
  · rw [List.map_append, List.nodup_append]
    refine ⟨tracked.distinct, List.nodup_singleton _, ?_⟩
    rintro known inside other member rfl
    obtain rfl : known = newFd := by simpa using member
    exact fresh.2 inside
  · intro other data
    have before := tracked.watches other data
    simp only [Kernel.openSockets, List.mem_append, List.map_append, List.map_cons, List.map_nil,
      List.mem_singleton, Prod.mk.injEq] at before ⊢
    constructor
    · rintro (inside | ⟨rfl, rfl⟩)
      · exact ⟨(before.mp inside).1, (before.mp inside).2.imp id .inl⟩
      · exact ⟨rfl, .inr (.inr rfl)⟩
    · rintro ⟨same, listens | accepted | isNew⟩
      · exact .inl (before.mpr ⟨same, .inl listens⟩)
      · exact .inl (before.mpr ⟨same, .inr accepted⟩)
      · exact .inr ⟨isNew, same.trans isNew⟩
  · exact tracked.listeners
  · intro other listens
    rw [List.map_append, List.mem_append, not_or]
    refine ⟨tracked.apart other listens, fun isNew => fresh.1 ?_⟩
    obtain rfl : other = newFd := by simpa using isNew
    exact listens

/-- The kernel takes the registration of the socket that has just been accepted. -/
theorem acceptConnection_registered (tracked : Tracked thread) {newFd : Int} (connType : UInt8)
    (fresh : newFd ∉ thread.kernel.openSockets) (nonblocking : event.nonblocking = true)
    (room : event.room = true) :
    Tracked (acceptConnection thread event newFd connType newFd) := by
  have unwatched : newFd ∉ thread.kernel.registered.map Prod.fst := by
    intro inside
    rcases List.mem_map.mp inside with ⟨⟨fd, data⟩, watched, rfl⟩
    exact fresh ((tracked.watches _ _).mp watched).2
  have added : ({ thread.kernel with
      accepted := thread.kernel.accepted ++ [(newFd, connType)] } : Kernel).epollAdd event.room
        event.others newFd newFd =
      some
        { listening := thread.kernel.listening
          accepted := thread.kernel.accepted ++ [(newFd, connType)]
          registered := thread.kernel.registered ++ [(newFd, newFd)] } := by
    rw [Kernel.epollAdd, if_pos]
    exact ⟨room, .inl (by simp [Kernel.openSockets]), unwatched⟩
  rw [acceptConnection]
  simp only [if_pos nonblocking, added]
  exact tracked_accept tracked fresh

/-- A socket that was accepted and is watched got there by its own registration. -/
theorem registers_of_watched (tracked : Tracked thread) {newFd toRegister : Int} {connType : UInt8}
    (fresh : newFd ∉ thread.kernel.openSockets)
    (consistent : Consistent (acceptConnection thread event newFd connType toRegister)) :
    event.nonblocking = true ∧ event.room = true ∧ newFd = toRegister := by
  have unwatched : ∀ data, (newFd, data) ∉ thread.kernel.registered :=
    fun data watched => fresh ((tracked.watches _ _).mp watched).2
  have listed : acceptedConnInfo newFd connType ∈
      (acceptConnection thread event newFd connType toRegister).connectionsInfo := by
    rw [acceptConnection]
    split
    · split <;> simp
    · simp
  obtain ⟨data, watched⟩ := consistent.watched _ listed
  rw [acceptConnection] at watched
  simp only [Kernel.epollAdd] at watched
  split at watched
  · rename_i nonblocking
    split at watched
    · rename_i kernel added
      split at added
      · rename_i taken
        obtain rfl := Option.some.inj added
        rcases List.mem_append.mp watched with known | isNew
        · exact absurd known (unwatched data)
        · obtain ⟨own, -⟩ : newFd = toRegister ∧ data = newFd := by
            simpa [acceptedConnInfo] using isNew
          exact ⟨nonblocking, taken.1, own⟩
      · cases added
    · exact absurd watched (unwatched data)
  · exact absurd watched (unwatched data)

/-! ### Receiving -/

/-- What is written through the pointer keeps the socket and the type of the connection. -/
theorem storeConnInfo_links {connectionsInfo : List ConnInfo} {socket : Int}
    {found changed : ConnInfo} (known : findConnInfo connectionsInfo socket = some found)
    (same : linkOf changed = linkOf found) :
    (storeConnInfo socket changed connectionsInfo).map linkOf = connectionsInfo.map linkOf := by
  induction connectionsInfo with
  | nil => cases known
  | cons connInfo rest ih =>
      rw [findConnInfo, List.find?_cons] at known
      rw [storeConnInfo]
      by_cases own : connInfo.socket = socket
      · simp only [own, decide_true] at known
        obtain rfl := Option.some.inj known
        rw [if_pos own, List.map_cons, List.map_cons, same]
      · simp only [own, decide_false] at known
        rw [if_neg own, List.map_cons, List.map_cons, ih known]

/-- `processMsg` keeps the link of the connection it works on. -/
theorem receiveFrame_keeps {envs : Nat → ServerEnv} {link : Option (Int × UInt8)}
    {msg msg' : Block maxMsgLen} {receiving receiving' : Receiving}
    (holds : receiving.connInfo.map linkOf = link)
    (ran : receiveFrame host gcm ecdh envs msg receiving = .ok (msg', receiving')) :
    receiving'.connInfo.map linkOf = link := by
  unfold receiveFrame at ran
  split at ran
  · cases ran
  · rename_i connInfo given
    obtain ⟨result, processed, ran⟩ := bind_eq_ok.mp ran
    obtain ⟨-, rfl⟩ := Prod.mk.inj (Except.ok.inj ran)
    have same := processMsg_link processed
    rw [← holds, given]
    simp only [Option.map_some, linkOf, same.1, same.2]

/-- Receiving a message keeps the table tracked. -/
theorem tracked_receive (tracked : Tracked thread)
    (ran : receiveMessage host gcm ecdh thread event = .ok next) : Tracked next := by
  unfold receiveMessage at ran
  obtain ⟨outcome, received, ran⟩ := bind_eq_ok.mp ran
  have link : outcome.state.connInfo.map linkOf =
      (findConnInfo thread.connectionsInfo event.fd).map linkOf :=
    recvLoop_keeps (fun receiving => receiving.connInfo.map linkOf =
        (findConnInfo thread.connectionsInfo event.fd).map linkOf)
      (fun _ _ _ _ => receiveFrame_keeps) rfl received
  have links : (storeReceived thread.connectionsInfo event.fd outcome.state.connInfo).map linkOf =
      thread.connectionsInfo.map linkOf := by
    cases known : findConnInfo thread.connectionsInfo event.fd with
    | none =>
        rw [known, Option.map_none, Option.map_eq_none_iff] at link
        rw [link, storeReceived]
    | some found =>
        rw [known, Option.map_some, Option.map_eq_some_iff] at link
        obtain ⟨changed, given, same⟩ := link
        rw [given, storeReceived]
        exact storeConnInfo_links known same
  have stored : Tracked
      { thread with
        connectionsInfo := storeReceived thread.connectionsInfo event.fd outcome.state.connInfo
        recvHolders := outcome.recvHolders
        processMsgBuffer := outcome.processBuf
        server := outcome.state.server } :=
    ⟨links.trans tracked.links, tracked.distinct, tracked.watches, tracked.listeners,
      tracked.apart⟩
  simp only at ran
  split at ran
  · obtain rfl := Except.ok.inj ran
    exact tracked_close stored event.fd
  · obtain rfl := Except.ok.inj ran
    exact stored

/-! ### One event -/

/-- Every event of the thread keeps the table tracked. -/
theorem tracked_step (tracked : Tracked thread) (feasible : Feasible thread event)
    (registers : RegistersAccepted thread event)
    (stepped : epollStep host gcm ecdh thread event = .ok next) : Tracked next := by
  unfold epollStep at stepped
  split at stepped
  · obtain rfl := Except.ok.inj stepped
    rw [close1]
    split
    · exact tracked_close tracked event.fd
    · exact tracked
  · rename_i readable
    have notHung : event.hangup = false := by simpa using readable
    split at stepped
    · rename_i onNode
      obtain rfl := Except.ok.inj stepped
      unfold acceptNode
      split
      · exact { tracked with }
      · rename_i newFd given
        obtain ⟨nonblocking, room, -⟩ := registers newFd notHung given
        obtain ⟨-, fresh, -⟩ := feasible.fresh newFd given
        have moved : Tracked { thread with sockNodeRemote := newFd } := { tracked with }
        exact acceptConnection_registered moved 0 fresh nonblocking room
    · rename_i notNode
      split at stepped
      · obtain rfl := Except.ok.inj stepped
        rw [acceptLAN]
        split
        · exact { tracked with }
        · rename_i newFd given
          obtain ⟨nonblocking, room, own⟩ := registers newFd notHung given
          obtain ⟨-, fresh, -⟩ := feasible.fresh newFd given
          rw [← own notNode]
          exact acceptConnection_registered tracked 1 fresh nonblocking room
      · exact tracked_receive tracked stepped

/-- The table is consistent behind an event exactly when the event registers what it accepts. -/
theorem consistent_step_iff (tracked : Tracked thread) (feasible : Feasible thread event) :
    (∀ next, epollStep host gcm ecdh thread event = .ok next → Consistent next) ↔
      RegistersAccepted thread event := by
  constructor
  · intro consistent newFd notHung given
    obtain ⟨listens, fresh, -⟩ := feasible.fresh newFd given
    have readable : ¬ event.hangup = true := by simp [notHung]
    by_cases onNode : event.fd = thread.sockNodeLocal
    · have after := consistent (acceptNode thread event)
        (by rw [epollStep, if_neg readable, if_pos onNode])
      unfold acceptNode at after
      simp only [given] at after
      have moved : Tracked { thread with sockNodeRemote := newFd } := { tracked with }
      obtain ⟨nonblocking, room, -⟩ := registers_of_watched moved fresh after
      exact ⟨nonblocking, room, fun notNode => absurd onNode notNode⟩
    · have onLAN : event.fd = thread.sockLANLocal :=
        (tracked.listeners _ listens).resolve_left onNode
      have after := consistent (acceptLAN thread event)
        (by rw [epollStep, if_neg readable, if_neg onNode, if_pos onLAN])
      unfold acceptLAN at after
      simp only [given] at after
      obtain ⟨nonblocking, room, own⟩ := registers_of_watched tracked fresh after
      exact ⟨nonblocking, room, fun _ => own⟩
  · intro registers next stepped
    exact (tracked_step tracked feasible registers stepped).consistent

/-! ### Runs -/

/-- Over every run that the kernel can give, the table is consistent behind every event exactly
when every event registers what it accepts. -/
theorem consistent_along_iff (sockNodeLocal sockLANLocal sockNodeRemote : Int)
    (processMsgBuffer : Block maxMsgLen) (server : ServerState)
    (feasible : Along (epollStep host gcm ecdh)
      (startThread sockNodeLocal sockLANLocal sockNodeRemote processMsgBuffer server)
      (fun _ reached event => Feasible reached event) events) :
    Along (epollStep host gcm ecdh)
        (startThread sockNodeLocal sockLANLocal sockNodeRemote processMsgBuffer server)
        (fun _ reached event => ∀ next,
          epollStep host gcm ecdh reached event = .ok next → Consistent next) events ↔
      Along (epollStep host gcm ecdh)
        (startThread sockNodeLocal sockLANLocal sockNodeRemote processMsgBuffer server)
        (fun _ reached event => RegistersAccepted reached event) events := by
  refine along_congr (fun _ reached => Tracked reached) tracked_start ?_ ?_ feasible
  · intro _ reached event tracked possible
    exact consistent_step_iff tracked possible
  · intro _ reached event next tracked possible registers stepped
    exact tracked_step tracked possible registers stepped

/-! ### A LAN connection with and without the number of the last node connection -/

/-- A listener reports a connection, and the kernel takes its registration. -/
def acceptEvent (listener newFd : Int) : EpollEvent :=
  { hangup := false
    fd := listener
    accepted := some newFd
    nonblocking := true
    room := true
    others := []
    results := []
    malloced := default
    envs := fun _ => default }

/-- A socket reports `EPOLLHUP`. -/
def hangupEvent (socket : Int) : EpollEvent :=
  { acceptEvent socket 0 with hangup := true, accepted := none }

/-- The thread with its listeners on the descriptors 4 and 5. -/
def listeningThread : EpollThread :=
  startThread 4 5 0 default
    { devInfos := []
      savedDevices := []
      commandsQueue := []
      decryptedMsgBuffer := default
      sendProcessingBuffer := default }

/-- A LAN user whose socket reuses the number of a node connection that has ended is watched. -/
theorem consistent_when_reused :
    Along (epollStep .little lengthTagged degenerateEcdh) listeningThread
      (fun _ reached event => ∀ next,
        epollStep .little lengthTagged degenerateEcdh reached event = .ok next → Consistent next)
      [acceptEvent 4 6, hangupEvent 6, acceptEvent 5 6] := by
  refine (consistent_along_iff 4 5 0 default _ ?_).mpr ?_
  · refine along_cons.mpr ⟨⟨rfl, ⟨4, by decide⟩, ?_⟩, fun next stepped => ?_⟩
    · intro newFd given
      obtain rfl := Option.some.inj given
      decide
    obtain rfl := Except.ok.inj stepped
    refine along_cons.mpr ⟨⟨rfl, ⟨6, by decide⟩, ?_⟩, fun next stepped => ?_⟩
    · intro newFd given
      cases given
    obtain rfl := Except.ok.inj stepped
    refine along_cons.mpr ⟨⟨rfl, ⟨5, by decide⟩, ?_⟩, fun _ _ => along_nil⟩
    intro newFd given
    obtain rfl := Option.some.inj given
    decide
  · refine along_cons.mpr ⟨fun newFd _ _ => ⟨rfl, rfl, fun notNode => absurd rfl notNode⟩, ?_⟩
    intro next stepped
    obtain rfl := Except.ok.inj stepped
    refine along_cons.mpr ⟨fun newFd hung => (by cases hung), fun next stepped => ?_⟩
    obtain rfl := Except.ok.inj stepped
    refine along_cons.mpr ⟨fun newFd _ given => ⟨rfl, rfl, fun _ => ?_⟩, fun _ _ => along_nil⟩
    obtain rfl := Option.some.inj given
    rfl

/-- A node connects and then a LAN user: the user's socket is listed and not watched. -/
theorem inconsistent_after_user :
    Along (epollStep .little lengthTagged degenerateEcdh) listeningThread
        (fun _ reached event => Feasible reached event) [acceptEvent 4 6, acceptEvent 5 7] ∧
      ¬ Along (epollStep .little lengthTagged degenerateEcdh) listeningThread
        (fun _ reached event => ∀ next,
          epollStep .little lengthTagged degenerateEcdh reached event = .ok next →
            Consistent next) [acceptEvent 4 6, acceptEvent 5 7] := by
  constructor
  · refine along_cons.mpr ⟨⟨rfl, ⟨4, by decide⟩, ?_⟩, fun next stepped => ?_⟩
    · intro newFd given
      obtain rfl := Option.some.inj given
      decide
    obtain rfl := Except.ok.inj stepped
    refine along_cons.mpr ⟨⟨rfl, ⟨5, by decide⟩, ?_⟩, fun _ _ => along_nil⟩
    intro newFd given
    obtain rfl := Option.some.inj given
    decide
  · intro along
    obtain ⟨consistent, -⟩ := along_cons.mp ((along_cons.mp along).2 _ rfl)
    obtain ⟨data, watched⟩ := (consistent _ rfl).watched (acceptedConnInfo 7 1) (by decide)
    have inside : (7 : Int) ∈ (acceptLAN (acceptNode listeningThread (acceptEvent 4 6))
        (acceptEvent 5 7)).kernel.registered.map Prod.fst :=
      List.mem_map_of_mem watched
    exact absurd inside (by decide)

end RentMate.ConnectionTable
