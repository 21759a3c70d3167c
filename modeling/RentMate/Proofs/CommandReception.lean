/-
Module: RentMate.Proofs.CommandReception
Purpose: A connection of the node from one end to the other: which of the command frames that the
  server sends on it are dispatched, depending on how they arrive.
Trusted boundary: none
Main exports: Meeting, AllDispatched, converse_ends, dispatched_iff
-/
import RentMate.NodeClient.SocketThread
import RentMate.Proofs.RecvCalls
import RentMate.Proofs.Handshake
import RentMate.Proofs.NodeGate
import RentMate.Proofs.NodeMessageDelivery

namespace RentMate.CommandReception

open RentMate.Machine
open RentMate.PckData
open RentMate.MainServer
open RentMate.NodeClient (NodeCall NodeState NodeCmdInfo NodeLink SocketThread Connection Listening
  initializeConnInfo startSession takeFrame callRecvAll awaitSession establishSession sendCommands
  exchangeMessages converse composeSmartLockBeaconCmdInfo nodeCommands)
open RentMate.Reassembly
open RentMate.StreamIndependence
open RentMate.RecvCalls
open RentMate.MessageCodec
open RentMate.SessionCodec
open RentMate.CommandDelivery
open RentMate.Handshake

/-! ### The two ends -/

/-- A node that has a key connects to a server that knows it. -/
structure Meeting where
  ends : Handshake.Ends
  thread : SocketThread
  connection : Connection
  newFd : Int
  msg : Block maxMsgLen
  env : ServerEnv
  sameNode : thread.listening.link.node = ends.node
  keyed : ends.node.hasEncryptionContextBeenEstablished = true
  sameDevId : connection.devId = ends.devId

section Meetings

variable (nodeHost host : ByteOrder) (gcm : Gcm) (ecdh : Ecdh) (meeting : Meeting)

/-- What the handshake of this connection takes from outside. -/
def Meeting.around : Surroundings :=
  { (default : Surroundings) with
    nodeSocket := meeting.connection.socket
    newFd := meeting.newFd
    addMalloced := meeting.connection.containers 0
    draw := meeting.connection.draws 0
    outBuf := meeting.thread.sendProcessingBuffer
    msg := meeting.msg
    env := meeting.env }

/-- The commands that wait for the node on the server. -/
def Meeting.commands : List CommandRequestCommand :=
  handedOver meeting.ends.devId.bytes meeting.ends.server.commandsQueue

/-- The server's answer to the frame with which the node begins the session. -/
def Meeting.answer : Checked ServerResult := do
  let opening ← startSession nodeHost gcm (meeting.connection.containers 0)
    (meeting.connection.draws 0) meeting.connection.devId
    (initializeConnInfo meeting.connection.socket) meeting.thread.listening.link.node
    meeting.thread.sendProcessingBuffer
  let msg ← meeting.msg.write 0 (opening.sent.getD [])
  MainServer.processMsg host gcm ecdh meeting.env (acceptedConnInfo meeting.newFd 0)
    meeting.ends.server msg

/-- The frame carries a command, and this is the call that the node makes for it. -/
def Dispatched (gcmKey sent : Bytes) (call : NodeCall) : Prop :=
  ∃ command, IsFrameOf host gcm gcmKey command sent ∧
    call.opcode = opcodeRead host nodeHost command ∧ call.args = argsOf command ∧
    call.argsLen = command.argsLen

/-- Each frame that the server has sent behind its nonce has been dispatched, in order and
once. -/
def AllDispatched (result : ServerResult) (done : SocketThread) : Prop :=
  ∃ calls, done.listening.link.calls = meeting.thread.listening.link.calls ++ calls ∧
    List.Forall₂ (Dispatched nodeHost host gcm meeting.ends.node.pointerToKey.bytes)
      result.sent.tail calls

end Meetings

/-! ### What the server sends -/

section Server

variable {nodeHost host : ByteOrder} {gcm : Gcm} {ecdh : Ecdh} {meeting : Meeting}

/-- What is sealed is a frame to the receiver. -/
theorem isFrame_frame {gcmKey iv : Bytes} {enc add : Option ContainerCodec.Container}
    {pckGSettings nonce : UInt32} (vector : iv.length = ivLen)
    (fits : composedLength enc add none ≤ maxMsgLen) :
    messageFraming.IsFrame (frame gcm gcmKey iv enc add pckGSettings nonce) := by
  have short : composedLength enc add none ≤ 255 := fits
  have whole := length_frame gcm gcmKey enc add pckGSettings nonce vector
  have header : headerLen = 40 := rfl
  refine isFrame_iff.mpr ⟨?_, ?_⟩
  · rw [whole, composedLength]
    omega
  · have lengths : headerLen + ([] : Bytes).length + (addSection add).length +
        (cipherSection gcm gcmKey iv enc pckGSettings nonce).length =
        composedLength enc add none := by
      rw [length_addSection, length_cipherSection]
      rfl
    rw [whole, declaredLength, frame, message, messageHead, lengths]
    simp only [List.append_assoc]
    rw [List.take_left' (ByteOrder.encode_length _ _), ByteOrder.decode_encode]
    exact toNat_ofNat_short (by omega)

/-- With a nonce but without a session id no command is sent. -/
theorem sendOffCommands_silent {devInfos : List DevInfo} {devId : Bytes} {env : ServerEnv}
    {commands : List CommandRequestCommand} {outgoing reached : Outgoing}
    (ran : sendOffCommands (sendOffCommand host gcm devInfos devId env) commands outgoing =
      .ok reached)
    (noSession : outgoing.connInfo.sessionId = 0) (nonce : outgoing.connInfo.localNonce ≠ 0) :
    reached.sent = outgoing.sent := by
  induction commands generalizing outgoing with
  | nil =>
      obtain rfl := Except.ok.inj ran
      rfl
  | cons command commands ih =>
      obtain ⟨next, ranOne, ranRest⟩ := bind_eq_ok.mp ran
      have step : next.connInfo = outgoing.connInfo ∧ next.sent = outgoing.sent := by
        obtain ⟨_, _, _, sentOne, -, -, ranSend, rfl⟩ := ServerSteps.sendOffCommand_cases ranOne
        simp only [encryptAndSendAll, noSession, ne_eq, not_true, if_false, nonce,
          not_false_eq_true, if_true] at ranSend
        obtain rfl := Except.ok.inj ranSend
        simp
      obtain ⟨connInfo, sent⟩ := step
      rw [← sent]
      exact ih ranRest (by rw [connInfo]; exact noSession) (by rw [connInfo]; exact nonce)

/-- The server's frames: its nonce, and in an established session one for each command that was
waiting and is no longer. -/
structure Answered (nodeHost host : ByteOrder) (gcm : Gcm) (meeting : Meeting)
    (result : ServerResult) (frames : List Bytes) : Prop where
  sent : result.sent = reply host gcm meeting.ends meeting.around :: frames
  released : result.server.commandsQueue =
    leftBehind meeting.ends.devId.bytes meeting.ends.server.commandsQueue
  fit : (serverSession nodeHost host meeting.around).sessionId ≠ 0 → Fit meeting.commands
  carried : (serverSession nodeHost host meeting.around).sessionId ≠ 0 →
    List.Forall₂ (IsFrameOf host gcm meeting.ends.node.pointerToKey.bytes) meeting.commands frames
  silent : (serverSession nodeHost host meeting.around).sessionId = 0 → frames = []

/-- The server's answer is a nonce and the frames of the queued commands. -/
theorem answered {result : ServerResult}
    (ran : meeting.answer nodeHost host gcm ecdh = .ok result) :
    ∃ frames, Answered nodeHost host gcm meeting result frames := by
  obtain ⟨opening, msg, buffer, out, ranOpening, -, wrote, processed⟩ :=
    serverStep nodeHost host gcm ecdh meeting.ends meeting.around
  have begun : startSession nodeHost gcm (meeting.connection.containers 0)
      (meeting.connection.draws 0) meeting.connection.devId
      (initializeConnInfo meeting.connection.socket) meeting.thread.listening.link.node
      meeting.thread.sendProcessingBuffer = .ok opening := by
    rw [meeting.sameDevId, meeting.sameNode]
    exact ranOpening
  have wroteMsg : meeting.msg.write 0 (opening.sent.getD []) = .ok msg := wrote
  have processedMsg : MainServer.processMsg host gcm ecdh meeting.env
      (acceptedConnInfo meeting.newFd 0) meeting.ends.server msg = _ := processed
  rw [Meeting.answer, begun, ok_bind, wroteMsg, ok_bind, processedMsg, releaseCommands_eq] at ran
  obtain ⟨reached, ranSends, ran⟩ := bind_eq_ok.mp ran
  obtain rfl := Except.ok.inj ran
  have nonce : (serverSession nodeHost host meeting.around).localNonce ≠ 0 :=
    serverNonce_ne_zero host meeting.around
  have known : findEncryptionKey meeting.ends.server.devInfos meeting.ends.devId.bytes =
      some meeting.ends.node.pointerToKey := by
    rw [findEncryptionKey, meeting.ends.registered, Option.map_some, meeting.ends.sameKey]
  by_cases noSession : (serverSession nodeHost host meeting.around).sessionId = 0
  · have sent := sendOffCommands_silent ranSends noSession nonce
    exact
      ⟨[],
        { sent := sent
          released := rfl
          fit := fun established => absurd noSession established
          carried := fun established => absurd noSession established
          silent := fun _ => rfl }⟩
  · have fit := fit_of_sendOffCommands known noSession ranSends
    obtain ⟨reached', frames, ranAgain, sent, carried, -⟩ := sendOffCommands_session host gcm
      meeting.env ⟨serverSession nodeHost host meeting.around, out,
        [reply host gcm meeting.ends meeting.around], 0⟩ fit known noSession
    obtain rfl := Except.ok.inj (ranSends.symm.trans ranAgain)
    exact
      ⟨frames,
        { sent := sent
          released := rfl
          fit := fun _ => fit
          carried := fun _ => carried
          silent := fun established => absurd established noSession }⟩

/-- All frames of the server are whole messages. -/
theorem Answered.isFrame {result : ServerResult} {frames : List Bytes}
    (answered : Answered nodeHost host gcm meeting result frames) :
    ∀ sent ∈ result.sent, messageFraming.IsFrame sent := by
  intro sent mem
  rw [answered.sent] at mem
  rcases List.mem_cons.mp mem with rfl | later
  · exact isFrame_frame (Block.allocated _) (by decide)
  · by_cases noSession : (serverSession nodeHost host meeting.around).sessionId = 0
    · rw [answered.silent noSession] at later
      cases later
    · obtain ⟨command, waiting, container, add, iv, nonce, carries, vector, rfl⟩ :=
        forall₂_mem (answered.carried noSession).flip later
      obtain ⟨wellFormed, fits⟩ := answered.fit noSession command waiting
      exact isFrame_frame vector (by rw [carries.composedLength_eq wellFormed]; exact fits)

end Server

/-! ### What the node takes -/

section Node

variable {nodeHost host : ByteOrder} {gcm : Gcm} {ecdh : Ecdh} {meeting : Meeting}
  {result : ServerResult} {frames : List Bytes} {excused : Prop}

/-- The node behind the first frames of the server: it waits for the nonce, or it has taken it and
has dispatched the frames that followed. -/
def Followed (nodeHost host : ByteOrder) (gcm : Gcm) (meeting : Meeting) :
    List Bytes → Listening → Prop
  | [], listening =>
      listening.link.connInfo = nodeBegun meeting.around ∧
        listening.link.node = meeting.ends.node ∧
        listening.link.calls = meeting.thread.listening.link.calls
  | _ :: frames, listening =>
      SameSession (nodeSession nodeHost host meeting.around) listening.link.connInfo ∧
        listening.link.node.pointerToKey = meeting.ends.node.pointerToKey ∧
        ∃ calls, listening.link.calls = meeting.thread.listening.link.calls ++ calls ∧
          List.Forall₂ (Dispatched nodeHost host gcm meeting.ends.node.pointerToKey.bytes) frames
            calls

/-- The node can make the call that a command is meant to lead to, and has in its buffer what it
prints before. -/
structure Callable (nodeHost host : ByteOrder) (command : CommandRequestCommand) : Prop where
  present : command.argsPtr ≠ none
  shortAdd : ShortAdd command
  registered : ∃ handler, nodeCommands (opcodeRead host nodeHost command) = .ok handler

/-- The server's nonce, in whatever buffer it has been received. -/
theorem takes_reply (nodeHost host : ByteOrder) (gcm : Gcm) (ecdh : Ecdh) (meeting : Meeting) :
    Takes (takeFrame nodeHost gcm ecdh meeting.connection true) excused
      (Followed nodeHost host gcm meeting) [] (reply host gcm meeting.ends meeting.around) := by
  rintro processBuf ⟨link, taken⟩ isFrame ⟨rest, held⟩ ⟨waiting, node, calls⟩
  let around : Surroundings :=
    { meeting.around with message := processBuf, nodeEnv := meeting.connection.envs taken }
  obtain ⟨message, answer, wrote, processed, session, sameKey⟩ :=
    nodeStep nodeHost host gcm ecdh meeting.ends around
  obtain rfl : processBuf = message := by
    have short : (reply host gcm meeting.ends meeting.around).length ≤ maxMsgLen := by
      rw [← processBuf.allocated, ← held, List.length_append]
      exact Nat.le_add_right _ _
    obtain ⟨written, ran, filled⟩ := processBuf.write_front short
    rw [← held, List.drop_left, held] at filled
    obtain rfl := Except.ok.inj (ran.symm.trans wrote)
    exact Block.eq_of_bytes filled.symm
  have ran : NodeClient.processMsg nodeHost gcm ecdh (meeting.connection.envs taken)
      (some link.connInfo) link.node processBuf = .ok answer := by
    rw [show link.connInfo = _ from waiting, show link.node = _ from node]
    exact processed
  have uncalled : answer.called = none := by
    obtain ⟨-, -, -, -, ⟨-, -, -, -, uncalled⟩ | ⟨established, -⟩⟩ := NodeGate.received_cases ran
    · exact uncalled
    · rw [show link.connInfo = _ from waiting] at established
      exact absurd rfl established
  simp only [takeFrame, if_true, ran, ok_bind, pure_eq_ok, endsIn_ok]
  refine ⟨?_, sameKey, [], ?_, .nil⟩
  · simp only [NodeLink.after, session, Option.getD_some]
    exact .refl _
  · simp only [NodeLink.after, uncalled, Option.toList_none, List.append_nil]
    exact calls

/-- A command frame behind the server's nonce, in an established session. -/
theorem takes_command {sent : Bytes} {log : List Bytes} {command : CommandRequestCommand}
    (established : (nodeSession nodeHost host meeting.around).sessionId ≠ 0)
    (isFrameOf : IsFrameOf host gcm meeting.ends.node.pointerToKey.bytes command sent)
    (wellFormed : WellFormed command) (callable : excused ∨ Callable nodeHost host command)
    (first : Bytes) :
    Takes (takeFrame nodeHost gcm ecdh meeting.connection true) excused
      (Followed nodeHost host gcm meeting) (first :: log) sent := by
  rintro processBuf ⟨link, taken⟩ isFrame ⟨rest, held⟩ ⟨session, sameKey, calls, called, dispatched⟩
  obtain ⟨container, add, iv, nonce, carries, vector, sentIs⟩ := isFrameOf
  have content : processBuf.bytes = frame gcm link.node.pointerToKey.bytes iv (some container) add
      command.gSettings nonce ++ rest := by
    rw [show link.node.pointerToKey = _ from sameKey, ← sentIs, held]
  obtain ⟨tag, sized, opened, buffer, processed, inMessage, -⟩ := clientProcessMsg_frame nodeHost
    ecdh (meeting.connection.envs taken) link.connInfo vector carries.begun.2 content
  have goesOn : link.connInfo.sessionId ≠ 0 := by
    rw [show link.connInfo = _ from session]
    exact established
  rw [if_neg goesOn] at processed
  simp only [takeFrame, if_true]
  rw [processed]
  by_cases shown : Shown add
  swap
  · rw [dispatchCommand_not_shown sized shown inMessage]
    rcases callable with excused | good
    · exact excused
    · exact absurd ((carries.shown_iff wellFormed).mpr good.shortAdd) shown
  cases given : command.argsPtr with
  | none =>
      rw [dispatchCommand_without_args sized shown carries given inMessage]
      rcases callable with excused | good
      · exact excused
      · exact absurd given good.present
  | some argsPtr =>
      rw [dispatchCommand_with_args sized shown carries wellFormed given inMessage]
      cases handled : nodeCommands (opcodeRead host nodeHost command) with
      | error fault =>
          rcases callable with excused | good
          · exact excused
          · obtain ⟨handler, registered⟩ := good.registered
            rw [handled] at registered
            cases registered
      | ok handler =>
          simp only [ok_bind, pure_eq_ok, endsIn_ok, List.cons_append, NodeLink.after,
            Option.getD_some, Option.toList_some]
          refine ⟨session, sameKey, calls ++ [_], by rw [called, List.append_assoc], ?_⟩
          refine List.rel_append dispatched (.cons ?_ .nil)
          exact ⟨command, ⟨container, add, iv, nonce, carries, vector, sentIs⟩, rfl, rfl, rfl⟩

/-- The node takes each of the server's frames behind the ones before it. -/
theorem takes_answered (answered : Answered nodeHost host gcm meeting result frames)
    (callable : excused ∨ ∀ command ∈ meeting.commands, Callable nodeHost host command)
    {log : List Bytes} {sent : Bytes} (front : log ++ [sent] <+: result.sent) :
    Takes (takeFrame nodeHost gcm ecdh meeting.connection true) excused
      (Followed nodeHost host gcm meeting) log sent := by
  rw [answered.sent] at front
  cases log with
  | nil =>
      obtain rfl := (List.cons_prefix_cons.mp front).1
      exact takes_reply nodeHost host gcm ecdh meeting
  | cons first log =>
      have behind := (List.cons_prefix_cons.mp front).2
      have mem : sent ∈ frames := behind.subset (by simp)
      by_cases noSession : (serverSession nodeHost host meeting.around).sessionId = 0
      · rw [answered.silent noSession] at mem
        cases mem
      · obtain ⟨command, waiting, isFrameOf⟩ :=
          forall₂_mem (answered.carried noSession).flip mem
        obtain ⟨wellFormed, -⟩ := answered.fit noSession command waiting
        exact takes_command noSession isFrameOf wellFormed
          (callable.imp_right fun all => all command waiting) first

end Node

/-! ### The thread -/

section Thread

variable {nodeHost host : ByteOrder} {gcm : Gcm} {ecdh : Ecdh} {meeting : Meeting}
  {result : ServerResult} {frames before chunks : List Bytes} {excused : Prop}

/-- A message of the node can be sent. -/
def Fits (cmdInfo : NodeCmdInfo) : Prop :=
  cmdInfo.argsLen.toNat ≤ cmdInfo.args.length ∧
    NodeMessageDelivery.messageLength cmdInfo ≤ maxMsgLen

/-- Sending one message of a session. -/
theorem sendNodeMessage_ends {cmdInfo : NodeCmdInfo} (fits : excused ∨ Fits cmdInfo)
    (nodeHost : ByteOrder) (gcm : Gcm) (addMalloced encryptedMalloced : Block pckDataIncrements)
    (draw : Draw) (link : NodeLink) (outBuf : Block maxMsgLen)
    (established : link.connInfo.sessionId ≠ 0) (nonce : link.connInfo.localNonce ≠ 0) :
    EndsIn excused
      (NodeClient.sendNodeMessage nodeHost gcm addMalloced encryptedMalloced draw link.connInfo
        link.node cmdInfo outBuf)
      fun sent => SameSession link.connInfo (link.afterSending sent).connInfo := by
  cases ran : NodeClient.sendNodeMessage nodeHost gcm addMalloced encryptedMalloced draw
      link.connInfo link.node cmdInfo outBuf with
  | error fault =>
      rcases fits with excused | ⟨wellFormed, short⟩
      · exact excused
      · obtain ⟨container, add, out, -, good⟩ := NodeMessageDelivery.sendNodeMessage_ok nodeHost gcm
          addMalloced encryptedMalloced draw link.node outBuf wellFormed short established
        rw [ran] at good
        cases good
  | ok sent =>
      obtain ⟨composed, -, ranSend⟩ := bind_eq_ok.mp ran
      exact encryptAndSendAll_sameSession ranSend nonce

/-- Sending the whole queue leaves the session and the calls as they are. -/
theorem sendCommands_ends {commandQueue : List NodeCmdInfo}
    (fits : excused ∨ ∀ cmdInfo ∈ commandQueue, Fits cmdInfo) (nodeHost : ByteOrder) (gcm : Gcm)
    (connection : Connection) (count : Nat) (link : NodeLink) (outBuf : Block maxMsgLen)
    (established : link.connInfo.sessionId ≠ 0) (nonce : link.connInfo.localNonce ≠ 0) :
    EndsIn excused (sendCommands nodeHost gcm connection count commandQueue link outBuf)
      fun next => SameSession link.connInfo next.connInfo ∧ next.node = link.node ∧
        next.calls = link.calls := by
  induction commandQueue generalizing count link outBuf with
  | nil => exact ⟨.refl _, rfl, rfl⟩
  | cons cmdInfo commandQueue ih =>
      have here := sendNodeMessage_ends (fits.imp_right fun all => all cmdInfo List.mem_cons_self)
        nodeHost gcm (connection.containers (2 * count)) (connection.containers (2 * count + 1))
        (connection.draws count) link outBuf established nonce
      refine here.bind fun sent _ same => ?_
      have later := ih (fits.imp_right fun all other mem => all other (List.mem_cons_of_mem _ mem))
        (count + 1) (link.afterSending sent) sent.outBuf
        (by rw [show (link.afterSending sent).connInfo = _ from same]; exact established)
        (by rw [show (link.afterSending sent).connInfo = _ from same]; exact nonce)
      refine later.imp ?_
      rintro next ⟨sameNext, node, calls⟩
      exact ⟨same.trans sameNext, node, calls⟩

/-- The thread between two calls of `recvAll`: the chunks `before` have been read, and the others
are still to come. -/
structure Waiting (nodeHost host : ByteOrder) (gcm : Gcm) (meeting : Meeting)
    (before chunks : List Bytes) (thread : SocketThread) : Prop where
  unread : thread.unread = chunks.map RecvResult.bytes
  follows : Followed nodeHost host gcm meeting (messageFraming.split before.flatten).1
    thread.listening
  holder : ∃ holder,
    Finds meeting.connection.malloced thread.recvHolders meeting.connection.socket holder ∧
      Holding holder (messageFraming.split before.flatten).2 ∧
      OnBoundaries nodeHost before holder chunks

/-- What a call of `recvAll` leaves that had these chunks to read. -/
structure Heard (nodeHost host : ByteOrder) (gcm : Gcm) (meeting : Meeting)
    (before read unread : List Bytes) (heard : Int × SocketThread) : Prop where
  status : heard.1 = 0 ∨ heard.1 = -1
  waiting : Waiting nodeHost host gcm meeting (before ++ read) unread heard.2
  progress : unread ≠ [] → (messageFraming.split before.flatten).1.length <
    (messageFraming.split (before ++ read).flatten).1.length
  atMostOne : completions (messageFraming.split before.flatten).2 (read ++ unread) ≤
    1 + completions (messageFraming.split (before ++ read).flatten).2 unread
  exactlyOne : unread ≠ [] →
    completions (messageFraming.split before.flatten).2 (read ++ unread) =
      1 + completions (messageFraming.split (before ++ read).flatten).2 unread

/-- The whole messages of the stream are the server's frames. -/
theorem Answered.split_eq (answered : Answered nodeHost host gcm meeting result frames)
    {stream : Bytes} (all : stream = result.sent.flatten) :
    messageFraming.split stream = (result.sent, []) := by
  have cut := messageFraming.split_flatten answered.isFrame []
  rwa [List.append_nil, Framing.split_nil, List.append_nil, ← all] at cut

/-- One call of `recvAll` takes the frames that arrive during it. -/
theorem callRecvAll_ends (answered : Answered nodeHost host gcm meeting result frames)
    (callable : excused ∨ ∀ command ∈ meeting.commands, Callable nodeHost host command)
    (ecdh : Ecdh) {thread : SocketThread}
    (waiting : Waiting nodeHost host gcm meeting before chunks thread)
    (all : (before ++ chunks).flatten = result.sent.flatten) :
    EndsIn excused (callRecvAll nodeHost gcm ecdh meeting.connection true thread)
      fun heard => heard.2.nodeCommandsQueue = thread.nodeCommandsQueue ∧
        ∃ read unread, chunks = read ++ unread ∧
          Heard nodeHost host gcm meeting before read unread heard := by
  obtain ⟨holder, finds, holding, boundaries⟩ := waiting.holder
  have takes : ∀ log sent,
      log ++ [sent] <+: (messageFraming.split (before ++ chunks).flatten).1 →
      Takes (takeFrame nodeHost gcm ecdh meeting.connection true) excused
        (Followed nodeHost host gcm meeting) log sent := by
    intro log sent front
    rw [answered.split_eq all] at front
    exact takes_answered answered callable front
  unfold callRecvAll
  rw [waiting.unread]
  refine (recvAll_ends finds takes holding waiting.follows boundaries).bind ?_
  rintro outcome - ⟨read, unread, last, rfl, findsNext, called⟩
  refine ⟨rfl, read, unread, rfl, ?_⟩
  exact
    { status := called.status
      waiting :=
        { unread := called.leaves
          follows := called.follows
          holder := ⟨last, findsNext, called.holding, called.boundaries⟩ }
      progress := called.progress
      atMostOne := called.atMostOne
      exactlyOne := called.exactlyOne }

/-- The loop that waits for the session is left after one call. -/
theorem awaitSession_ends (answered : Answered nodeHost host gcm meeting result frames)
    (callable : excused ∨ ∀ command ∈ meeting.commands, Callable nodeHost host command)
    (ecdh : Ecdh) {thread : SocketThread}
    (waiting : Waiting nodeHost host gcm meeting [] chunks thread)
    (all : chunks.flatten = result.sent.flatten) (fuel : Nat) :
    EndsIn excused (awaitSession nodeHost gcm ecdh meeting.connection (fuel + 1) thread)
      fun next => next.nodeCommandsQueue = thread.nodeCommandsQueue ∧
        ∃ read unread status, chunks = read ++ unread ∧
          Heard nodeHost host gcm meeting [] read unread (status, next) := by
  have start : Followed nodeHost host gcm meeting [] thread.listening := by
    simpa using waiting.follows
  have noSession : ¬ thread.listening.link.connInfo.sessionId ≠ 0 := by
    rw [show thread.listening.link.connInfo = _ from start.1]
    exact fun established => established rfl
  rw [awaitSession, if_neg noSession]
  refine (callRecvAll_ends answered callable ecdh waiting all).bind ?_
  rintro ⟨status, next⟩ - ⟨queue, read, unread, cut, heard⟩
  simp only [if_pos heard.status, pure_eq_ok, endsIn_ok]
  exact ⟨queue, read, unread, status, cut, heard⟩

/-- The beacon can be composed and sent. -/
def BeaconFits (connection : Connection) : Prop :=
  ∃ beaconCmdInfo, composeSmartLockBeaconCmdInfo connection.devId connection.devType
    connection.lock = .ok beaconCmdInfo ∧ Fits beaconCmdInfo

/-- The node has drawn a nonce. -/
theorem nodeSession_localNonce (nodeHost host : ByteOrder) (around : Surroundings) :
    (nodeSession nodeHost host around).localNonce ≠ 0 :=
  nodeNonce_ne_zero nodeHost around

/-- In a session the thread sends its commands and calls `recvAll` once more. -/
theorem exchangeMessages_ends (answered : Answered nodeHost host gcm meeting result frames)
    (callable : excused ∨ ∀ command ∈ meeting.commands, Callable nodeHost host command)
    (ecdh : Ecdh) {thread : SocketThread} {first : Bytes} {log : List Bytes}
    (fits : excused ∨ BeaconFits meeting.connection ∧ ∀ cmdInfo ∈ thread.nodeCommandsQueue,
      Fits cmdInfo)
    (waiting : Waiting nodeHost host gcm meeting before chunks thread)
    (begun : (messageFraming.split before.flatten).1 = first :: log)
    (established : (nodeSession nodeHost host meeting.around).sessionId ≠ 0)
    (all : (before ++ chunks).flatten = result.sent.flatten) :
    EndsIn excused (exchangeMessages nodeHost gcm ecdh meeting.connection thread)
      fun next => ∃ read unread status, chunks = read ++ unread ∧
        Heard nodeHost host gcm meeting before read unread (status, next) := by
  have follows := waiting.follows
  rw [begun] at follows
  obtain ⟨session, sameKey, calls, called, dispatched⟩ := follows
  have goesOn : thread.listening.link.connInfo.sessionId ≠ 0 := by
    rw [show thread.listening.link.connInfo = _ from session]
    exact established
  have nonce : thread.listening.link.connInfo.localNonce ≠ 0 := by
    rw [show thread.listening.link.connInfo = _ from session]
    exact nodeSession_localNonce nodeHost host meeting.around
  have composing : EndsIn excused (composeSmartLockBeaconCmdInfo meeting.connection.devId
      meeting.connection.devType meeting.connection.lock)
      fun beaconCmdInfo => excused ∨ Fits beaconCmdInfo := by
    cases composed : composeSmartLockBeaconCmdInfo meeting.connection.devId
        meeting.connection.devType meeting.connection.lock with
    | error fault =>
        rcases fits with excused | ⟨⟨beaconCmdInfo, good, -⟩, -⟩
        · exact excused
        · rw [composed] at good
          cases good
    | ok beaconCmdInfo =>
        refine fits.imp_right ?_
        rintro ⟨⟨beaconCmdInfo', good, short⟩, -⟩
        obtain rfl := Except.ok.inj (composed.symm.trans good)
        exact short
  unfold exchangeMessages
  refine composing.bind fun beaconCmdInfo _ beaconFits => ?_
  have allFit : excused ∨ ∀ cmdInfo ∈ thread.nodeCommandsQueue ++ [beaconCmdInfo],
      Fits cmdInfo := by
    rcases fits with excused | ⟨-, queueFits⟩
    · exact .inl excused
    · refine beaconFits.imp_right fun short cmdInfo mem => ?_
      rcases List.mem_append.mp mem with queued | last
      · exact queueFits cmdInfo queued
      · rw [List.mem_singleton.mp last]
        exact short
  have sending := sendCommands_ends allFit nodeHost gcm meeting.connection 1 thread.listening.link
    meeting.connection.outBuf goesOn nonce
  refine sending.bind ?_
  rintro link - ⟨sameSession, node, sameCalls⟩
  have waitingNext : Waiting nodeHost host gcm meeting before chunks
      { thread with
        listening := { thread.listening with link := link }
        nodeCommandsQueue := [] } := by
    refine { unread := waiting.unread, follows := ?_, holder := waiting.holder }
    rw [begun]
    refine ⟨session.trans sameSession, ?_, calls, sameCalls.trans called, dispatched⟩
    exact (congrArg _ node).trans sameKey
  refine (callRecvAll_ends answered callable ecdh waitingNext all).bind ?_
  rintro ⟨status, next⟩ - ⟨-, read, unread, cut, heard⟩
  exact ⟨read, unread, status, cut, heard⟩

/-- What is still to come is the rest of the server's frames. -/
theorem Answered.split_behind (answered : Answered nodeHost host gcm meeting result frames)
    (all : (before ++ chunks).flatten = result.sent.flatten) :
    (messageFraming.split before.flatten).1 ++
        (messageFraming.split ((messageFraming.split before.flatten).2 ++ chunks.flatten)).1 =
          result.sent ∧
      (messageFraming.split ((messageFraming.split before.flatten).2 ++ chunks.flatten)).2 =
        [] := by
  have whole := answered.split_eq all
  rw [List.flatten_append, Framing.split_append] at whole
  exact Prod.mk.inj whole

/-- Between the calls the next bytes that arrive are some. -/
theorem Waiting.arrives {thread : SocketThread}
    (waiting : Waiting nodeHost host gcm meeting before chunks thread) (left : chunks ≠ []) :
    chunks.flatten ≠ [] := by
  obtain ⟨holder, -, -, recorded, -, along⟩ := waiting.holder
  cases chunks with
  | nil => exact absurd rfl left
  | cons chunk chunks =>
      intro empty
      have begun := (along_cons.mp along).1.1.1
      exact begun (List.append_eq_nil_iff.mp empty).1

/-- A session has dispatched all frames exactly if it leaves nothing unread. -/
theorem allDispatched_iff (answered : Answered nodeHost host gcm meeting result frames)
    {thread : SocketThread} (waiting : Waiting nodeHost host gcm meeting before chunks thread)
    {first : Bytes} {log : List Bytes}
    (begun : (messageFraming.split before.flatten).1 = first :: log)
    (all : (before ++ chunks).flatten = result.sent.flatten) :
    AllDispatched nodeHost host gcm meeting result thread ↔ chunks = [] := by
  obtain ⟨frontSent, nothingLeft⟩ := answered.split_behind all
  have follows := waiting.follows
  rw [begun] at follows frontSent
  obtain ⟨-, -, calls, called, dispatched⟩ := follows
  constructor
  · rintro ⟨calls', called', all'⟩
    by_contra left
    obtain rfl := List.append_cancel_left (called.symm.trans called')
    -- As many frames as there are in all leave none behind.
    have sameLength := dispatched.length_eq.trans all'.length_eq.symm
    rw [← frontSent, List.cons_append, List.tail_cons, List.length_append] at sameLength
    have noFrame := List.length_eq_zero_iff.mp (Nat.left_eq_add.mp sameLength)
    have rest := messageFraming.split_join
      ((messageFraming.split before.flatten).2 ++ chunks.flatten)
    rw [noFrame, nothingLeft] at rest
    exact waiting.arrives left (List.append_eq_nil_iff.mp rest.symm).2
  · rintro rfl
    rw [List.append_nil] at all
    have sent : first :: log = result.sent := by
      rw [← begun, answered.split_eq all]
    refine ⟨calls, called, ?_⟩
    rw [← sent]
    exact dispatched

/-- The frames are dispatched exactly if two calls read all chunks. -/
theorem unread_iff (answered : Answered nodeHost host gcm meeting result frames)
    {read more unread : List Bytes} {one two : Int × SocketThread}
    (firstCall : Heard nodeHost host gcm meeting [] read (more ++ unread) one)
    (secondCall : Heard nodeHost host gcm meeting read more unread two)
    (all : (read ++ more ++ unread).flatten = result.sent.flatten) :
    unread = [] ↔ completions [] (read ++ (more ++ unread)) ≤ 2 := by
  have atMostTwo := firstCall.atMostOne
  have second := secondCall.atMostOne
  have exactlyTwo := firstCall.exactlyOne
  simp only [List.flatten_nil, Framing.split_nil, List.nil_append] at atMostTwo exactlyTwo
  constructor
  · rintro rfl
    rw [completions] at second
    omega
  · intro few
    by_contra left
    have behind : more ++ unread ≠ [] := by simp [left]
    have third := completions_pos (secondCall.waiting.arrives left)
      (answered.split_behind all).2
    have exactlySecond := secondCall.exactlyOne left
    have exactlyFirst := exactlyTwo behind
    omega

/-- Before the connection is made, the receive queue of the socket is between messages, and what
arrives then are the server's frames, cut on boundaries and into chunks that lie in the queue. -/
structure Arrives (nodeHost : ByteOrder) (meeting : Meeting) (result : ServerResult)
    (chunks : List Bytes) : Prop where
  results : meeting.connection.results = chunks.map RecvResult.bytes
  all : chunks.flatten = result.sent.flatten
  holder : ∃ holder,
    Finds meeting.connection.malloced meeting.thread.recvHolders meeting.connection.socket
        holder ∧
      Holding holder [] ∧ OnBoundaries nodeHost [] holder chunks

/-- The server's commands can be called, and the node's own messages can be sent. -/
structure Sound (nodeHost host : ByteOrder) (meeting : Meeting) : Prop where
  callable : ∀ command ∈ meeting.commands, Callable nodeHost host command
  beacon : BeaconFits meeting.connection
  queue : ∀ cmdInfo ∈ meeting.thread.nodeCommandsQueue, Fits cmdInfo

/-- The first call of a session hands over the server's nonce. -/
theorem Heard.begun (answered : Answered nodeHost host gcm meeting result frames)
    {read unread : List Bytes} {heard : Int × SocketThread}
    (firstCall : Heard nodeHost host gcm meeting [] read unread heard)
    (all : (read ++ unread).flatten = result.sent.flatten) :
    ∃ log, (messageFraming.split read.flatten).1 =
        reply host gcm meeting.ends meeting.around :: log ∧
      log <+: frames := by
  have front := (answered.split_behind all).1
  rw [answered.sent] at front
  cases begun : (messageFraming.split read.flatten).1 with
  | nil =>
      exfalso
      by_cases left : unread = []
      · subst left
        rw [List.append_nil] at all
        have sent := congrArg Prod.fst (answered.split_eq all)
        rw [begun, answered.sent] at sent
        cases sent
      · have more := firstCall.progress left
        rw [List.nil_append, begun] at more
        exact Nat.not_lt_zero _ more
  | cons first log =>
      rw [begun, List.cons_append] at front
      obtain ⟨rfl, behind⟩ := List.cons.inj front
      exact ⟨log, rfl, _, behind⟩

/-- The session is established, with the frames that arrive meanwhile taken. -/
theorem establishSession_ends (answered : Answered nodeHost host gcm meeting result frames)
    (callable : excused ∨ ∀ command ∈ meeting.commands, Callable nodeHost host command)
    (arrives : Arrives nodeHost meeting result chunks) (ecdh : Ecdh) :
    EndsIn excused
      (establishSession nodeHost gcm ecdh meeting.connection
        (meeting.thread.connected meeting.connection))
      fun next => next.nodeCommandsQueue = meeting.thread.nodeCommandsQueue ∧
        ∃ read unread status, chunks = read ++ unread ∧
          Heard nodeHost host gcm meeting [] read unread (status, next) := by
  obtain ⟨out, container, -, -, ranOpening⟩ := startSession_ok nodeHost gcm
    (meeting.connection.containers 0) (meeting.connection.draws 0) meeting.connection.devId
    meeting.connection.socket meeting.thread.listening.link.node
    meeting.thread.sendProcessingBuffer
  generalize startedIs : meeting.thread.connected meeting.connection = started
  obtain ⟨opening, ran, connInfo⟩ : ∃ opening,
      startSession nodeHost gcm (meeting.connection.containers 0) (meeting.connection.draws 0)
        meeting.connection.devId started.listening.link.connInfo started.listening.link.node
        started.sendProcessingBuffer = .ok opening ∧
      opening.connInfo = some (nodeBegun meeting.around) := by
    subst startedIs
    exact ⟨_, ranOpening, rfl⟩
  have waiting : Waiting nodeHost host gcm meeting [] chunks
      { started with
        listening := { started.listening with link := started.listening.link.afterSending opening }
        sendProcessingBuffer := opening.outBuf } := by
    obtain ⟨holder, finds, holding, boundaries⟩ := arrives.holder
    subst startedIs
    refine { unread := arrives.results, follows := ?_, holder := ?_ }
    · refine ⟨?_, meeting.sameNode, rfl⟩
      simp only [NodeLink.afterSending, connInfo, Option.getD_some]
    · exact ⟨holder, finds, by simpa using holding, boundaries⟩
  have queue : started.nodeCommandsQueue = meeting.thread.nodeCommandsQueue := by
    rw [← startedIs]
    rfl
  simp only [establishSession, ran, ok_bind]
  rw [← queue]
  exact awaitSession_ends answered callable ecdh waiting arrives.all _

/-- The thread on the whole connection. -/
theorem converse_ends (answered : Answered nodeHost host gcm meeting result frames)
    (arrives : Arrives nodeHost meeting result chunks)
    (sound : excused ∨ Sound nodeHost host meeting) (ecdh : Ecdh) :
    EndsIn excused (converse nodeHost gcm ecdh meeting.connection meeting.thread)
      fun done => AllDispatched nodeHost host gcm meeting result done ↔
        completions [] chunks ≤ 2 := by
  have keyed : (meeting.thread.connected
      meeting.connection).listening.link.node.hasEncryptionContextBeenEstablished = true := by
    rw [← meeting.keyed, ← meeting.sameNode]
    rfl
  have fresh : (meeting.thread.connected meeting.connection).listening.link.connInfo.localNonce =
      0 := rfl
  have callable := sound.imp_right Sound.callable
  unfold converse
  simp only [keyed, Bool.true_eq_false, if_false, fresh, if_true]
  refine (establishSession_ends answered callable arrives ecdh).bind ?_
  rintro next - ⟨queue, read, unread, status, rfl, firstCall⟩
  obtain ⟨log, begun, front⟩ := firstCall.begun answered arrives.all
  have follows := firstCall.waiting.follows
  rw [List.nil_append, begun] at follows
  obtain ⟨session, -, calls, called, dispatched⟩ := follows
  by_cases noSession : (nodeSession nodeHost host meeting.around).sessionId = 0
  · -- Without a session id the server has sent no command.
    have stops : ¬ next.listening.link.connInfo.sessionId ≠ 0 := by
      rw [show next.listening.link.connInfo = _ from session]
      exact fun established => established noSession
    obtain rfl := answered.silent noSession
    obtain rfl := List.prefix_nil.mp front
    rw [if_neg stops]
    have one := completions_le [] (read ++ unread)
    rw [List.nil_append, answered.split_eq arrives.all, answered.sent] at one
    simp only [pure_eq_ok, ok_bind, endsIn_ok]
    refine ⟨fun _ => Nat.le_succ_of_le one, fun _ => ⟨calls, called, ?_⟩⟩
    rw [answered.sent]
    exact dispatched
  · have goesOn : next.listening.link.connInfo.sessionId ≠ 0 := by
      rw [show next.listening.link.connInfo = _ from session]
      exact noSession
    have fits : excused ∨ BeaconFits meeting.connection ∧ ∀ cmdInfo ∈ next.nodeCommandsQueue,
        Fits cmdInfo := by
      rw [queue]
      exact sound.imp_right fun good => ⟨good.beacon, good.queue⟩
    rw [if_pos goesOn]
    refine (exchangeMessages_ends answered callable ecdh fits firstCall.waiting begun noSession
      arrives.all).bind ?_
    rintro last - ⟨more, unread, lastStatus, rfl, secondCall⟩
    have all : (read ++ more ++ unread).flatten = result.sent.flatten := by
      rw [List.append_assoc]
      exact arrives.all
    obtain ⟨further, behind⟩ := messageFraming.split_prefix read.flatten more.flatten
    rw [begun, List.cons_append, ← List.flatten_append] at behind
    simp only [pure_eq_ok, endsIn_ok]
    rw [← unread_iff answered firstCall secondCall all,
      ← allDispatched_iff answered secondCall.waiting behind.symm all]
    exact Iff.rfl

/-- When the server's frames arrive on boundaries inside the queue, the commands that have left its
queue have all been dispatched at the end of the connection exactly if at most two of the `recv()` calls complete
a message; and no connection faults on which every message can be handled. -/
theorem allDispatched_iff_two_completions
    (answers : meeting.answer nodeHost host gcm ecdh = .ok result)
    (arrives : Arrives nodeHost meeting result chunks) :
    (∀ done, converse nodeHost gcm ecdh meeting.connection meeting.thread = .ok done →
      (AllDispatched nodeHost host gcm meeting result done ↔ completions [] chunks ≤ 2)) ∧
    (Sound nodeHost host meeting →
      ∃ done, converse nodeHost gcm ecdh meeting.connection meeting.thread = .ok done) := by
  obtain ⟨frames, sent⟩ := answered answers
  refine ⟨endsIn_true.mp (converse_ends sent arrives (.inl trivial) ecdh), fun sound => ?_⟩
  obtain ⟨done, ran, -⟩ := endsIn_false.mp (converse_ends sent arrives (.inr sound) ecdh)
  exact ⟨done, ran⟩

end Thread

/-! ### Two connections -/

/-- `serverToNodeMessage` with two characters. -/
def helloCommand : CommandRequestCommand :=
  { opCode := 1
    argsPtr := some [72, 105]
    argsLen := 2
    addPtr := none
    addLen := 0
    gSettings := 0 }

/-- AES-GCM under the zero key and the zero vector: its keystream, and its tags over the two frames
of the node, the server's nonce and the frames of the two commands. -/
def conversationGcm : Gcm :=
  { keystream := fun _ _ index =>
      [3, 136, 218, 206, 96, 182, 163, 146, 243, 40, 194, 185, 113, 178, 254, 120, 247, 149, 170,
        171, 73, 75, 89, 35, 247, 253, 137, 255, 148, 139, 193, 224, 32, 2, 17, 33, 78, 115,
        148].getD index 0
    authenticate := fun _ _ add cipher =>
      if add.length = 32 then
        if cipher.length = 8 then
          .holding tagLen [199, 119, 9, 89, 22, 69, 231, 158, 162, 177, 134, 163, 166, 30, 83, 240]
        else .holding tagLen [14, 0, 241, 193, 48, 126, 106, 122, 64, 229, 143, 24, 27, 159, 231, 28]
      else if cipher.length = 8 then
        .holding tagLen [183, 235, 70, 213, 183, 174, 2, 52, 197, 82, 99, 210, 144, 190, 117, 41]
      else if cipher.length = 32 then
        .holding tagLen [250, 107, 34, 10, 61, 6, 181, 106, 4, 43, 47, 86, 94, 105, 24, 37]
      else .holding tagLen [168, 40, 196, 39, 216, 43, 101, 207, 145, 84, 182, 195, 223, 144, 30, 149] }

/-- A node that has the zero key and draws 1 connects to a server that draws 2 and has these
commands for it. -/
def sampleMeeting (commands : List CommandRequestCommand) (chunks : List Bytes) : Meeting :=
  { ends := sampleEnds
      [{ devId := List.replicate devIdLen 0, commandRequestsCommands := commands }]
    thread :=
      { listening :=
          { link :=
              { connInfo := initializeConnInfo 0
                node := { (default : NodeState) with hasEncryptionContextBeenEstablished := true }
                calls := []
                sent := [] }
            taken := 0 }
        unread := []
        recvHolders := []
        recvProcessingBuffer := default
        sendProcessingBuffer := default
        nodeCommandsQueue := [] }
    connection :=
      { socket := 3
        results := chunks.map .bytes
        devId := default
        devType := 2
        lock := default
        malloced := default
        containers := fun _ => default
        privateDHKey := default
        draws := fun _ => { (default : Draw) with localNonce := 1 }
        outBuf := default
        envs := fun _ => default }
    newFd := 7
    msg := default
    env :=
      { (default : ServerEnv) with
        draws := fun _ => { (default : Draw) with localNonce := 2 } }
    sameNode := rfl
    keyed := rfl
    sameDevId := rfl }

/-- The server's nonce in a frame. -/
def nonceFrame : Bytes :=
  [0, 0, 0, 52, 0, 0, 0, 4] ++ List.replicate 16 0 ++
    [183, 235, 70, 213, 183, 174, 2, 52, 197, 82, 99, 210, 144, 190, 117, 41, 0, 0, 0, 0, 1, 136,
      218, 206, 96, 182, 163, 146]

/-- The first message of the session, with `passcodeCommand`. -/
def passcodeFrame : Bytes :=
  [0, 0, 0, 76, 0, 0, 0, 4] ++ List.replicate 16 0 ++
    [250, 107, 34, 10, 61, 6, 181, 106, 4, 43, 47, 86, 94, 105, 24, 37, 0, 0, 0, 0, 2, 136, 218,
      205, 96, 182, 163, 146, 243, 40, 194, 161, 113, 178, 254, 135, 247, 149, 170, 175, 200, 75,
      89, 35, 247, 253, 137, 251, 165, 185, 242, 212]

/-- The second message of the session, with `helloCommand`. -/
def helloFrame : Bytes :=
  [0, 0, 0, 74, 0, 0, 0, 4] ++ List.replicate 16 0 ++
    [168, 40, 196, 39, 216, 43, 101, 207, 145, 84, 182, 195, 223, 144, 30, 149, 0, 0, 0, 0, 1, 136,
      218, 205, 96, 182, 163, 146, 243, 40, 194, 175, 113, 178, 254, 135, 247, 149, 170, 175, 72,
      75, 89, 35, 247, 253, 137, 253, 220, 226]

/-- Each frame arrives in a `recv()` of its own. -/
theorem sample_arrives {commands : List CommandRequestCommand} {chunks : List Bytes}
    {result : ServerResult} (sent : result.sent = chunks)
    (along : Along (receive .little (recordFrame id)) (fresh default 3 default [])
      (fun before reached chunk => RecvGives reached.holder chunk ∧
        EndsOnBoundary before reached.holder chunk) chunks) :
    Arrives .little (sampleMeeting commands chunks) result chunks :=
  { results := rfl
    all := by rw [sent]
    holder := ⟨initRecvHolder default 3, ⟨[initRecvHolder default 3], 0, rfl, rfl⟩,
      holding_init default 3, fresh default 3 default [], rfl, along⟩ }

/-- One command waits for the node. -/
def oneCommand : Meeting := sampleMeeting [passcodeCommand] [nonceFrame, passcodeFrame]

/-- The second call of `recvAll` is enough for it. -/
theorem one_command_dispatched :
    ∃ result done,
      oneCommand.answer .little .little conversationGcm degenerateEcdh = .ok result ∧
        converse .little conversationGcm degenerateEcdh oneCommand.connection oneCommand.thread =
          .ok done ∧
        AllDispatched .little .little conversationGcm oneCommand result done := by
  have answers : (oneCommand.answer .little .little conversationGcm degenerateEcdh).map
      (fun result => result.sent) = .ok [nonceFrame, passcodeFrame] := by
    decide +kernel
  obtain ⟨result, answered, sent⟩ := map_eq_ok.mp answers
  have along : Along (receive .little (recordFrame id)) (fresh default 3 default [])
      (fun before reached chunk => RecvGives reached.holder chunk ∧
        EndsOnBoundary before reached.holder chunk) [nonceFrame, passcodeFrame] := by
    decide +kernel
  obtain ⟨dispatches, completes⟩ :=
    allDispatched_iff_two_completions answered (sample_arrives sent along)
  have sound : Sound .little .little oneCommand := by
    refine
      { callable := ?_
        beacon := ⟨_, rfl, by decide, by decide⟩
        queue := fun _ none => by cases none }
    intro command waiting
    have alone : oneCommand.commands = [passcodeCommand] := by
      rfl
    rw [alone, List.mem_singleton] at waiting
    subst waiting
    exact ⟨by decide, by decide, .changePasscode, rfl⟩
  obtain ⟨done, ran⟩ := completes sound
  exact ⟨result, done, answered, ran, (dispatches done ran).mpr (by decide +kernel)⟩

/-- Two commands wait for the node. -/
def twoCommands : Meeting :=
  sampleMeeting [passcodeCommand, helloCommand] [nonceFrame, passcodeFrame, helloFrame]

/-- The frame of the second one is still unread when the node closes the connection, and the server
no longer has it. -/
theorem second_command_lost :
    ∃ result done,
      twoCommands.answer .little .little conversationGcm degenerateEcdh = .ok result ∧
        Arrives .little twoCommands result [nonceFrame, passcodeFrame, helloFrame] ∧
        converse .little conversationGcm degenerateEcdh twoCommands.connection
            twoCommands.thread = .ok done ∧
        result.server.commandsQueue = [] ∧ result.sent.length = 3 ∧
        done.listening.link.calls = [intendedCall passcodeCommand .changePasscode] ∧
        ¬ AllDispatched .little .little conversationGcm twoCommands result done := by
  have answers : (twoCommands.answer .little .little conversationGcm degenerateEcdh).map
      (fun result => (result.sent, result.server.commandsQueue, result.sent.length)) =
        .ok ([nonceFrame, passcodeFrame, helloFrame], [], 3) := by
    decide +kernel
  obtain ⟨result, answered, view⟩ := map_eq_ok.mp answers
  obtain ⟨sent, queue, three⟩ : result.sent = _ ∧ result.server.commandsQueue = _ ∧
      result.sent.length = 3 := by
    simpa only [Prod.mk.injEq] using view
  have along : Along (receive .little (recordFrame id)) (fresh default 3 default [])
      (fun before reached chunk => RecvGives reached.holder chunk ∧
        EndsOnBoundary before reached.holder chunk) [nonceFrame, passcodeFrame, helloFrame] := by
    decide +kernel
  have runs : (converse .little conversationGcm degenerateEcdh twoCommands.connection
      twoCommands.thread).map (fun done => done.listening.link.calls) =
        .ok [intendedCall passcodeCommand .changePasscode] := by
    decide +kernel
  obtain ⟨done, ran, calls⟩ := map_eq_ok.mp runs
  refine ⟨result, done, answered, sample_arrives sent along, ran, queue, three, calls, ?_⟩
  rintro ⟨dispatched, called, all⟩
  -- Two command frames, but one call.
  have two := all.length_eq
  rw [List.length_tail, three] at two
  have one := congrArg List.length called
  have none : twoCommands.thread.listening.link.calls.length = 0 := rfl
  rw [calls, List.length_append, none, List.length_singleton] at one
  omega

end RentMate.CommandReception
