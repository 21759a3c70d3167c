/-
Module: RentMate.Proofs.ReplayProtection
Purpose: In which runs of a server and a node no frame is acted on twice or on another connection
  than its own, and every frame that is acted on in a session carries the number that is next.
Trusted boundary: none
Main exports: ReplayProtected, InTurn, Intact, protected_along
-/
import RentMate.Network.World
import RentMate.Proofs.Handshake
import RentMate.Proofs.MessageNumbers

namespace RentMate.ReplayProtection

open RentMate.Machine
open RentMate.PckData
open RentMate.MainServer
open RentMate.NodeClient (NodeState NodeEnv NodeCmdInfo initializeConnInfo startSession
  sendNodeMessage composeNodeMessage)
open RentMate.Network
open RentMate.ContainerCodec
open RentMate.MessageCodec
open RentMate.SessionCodec
open RentMate.ServerSteps
open RentMate.CommandDelivery (carries_of_built Carries)
open RentMate.Handshake (Ends)
open RentMate.MessageNumbers (Recovers recovers_frame)

/-! ### The promise -/

/-- The byte order of an end. -/
def orderOf (nodeHost host : ByteOrder) : Side → ByteOrder
  | .node => nodeHost
  | .server => host

/-- How many of the frames that an end has been handed on a connection came in a session. -/
def sessionMessages (deliveries : List Delivery) (receiver : Side) (connection : Nat) : Nat :=
  deliveries.countP fun delivery =>
    delivery.receiver = receiver ∧ delivery.connection = connection ∧
      delivery.before.sessionId ≠ 0

/-- An end has acted on a frame. -/
def ActedOn (delivery : Delivery) : Prop :=
  delivery.dispatched = true ∨ delivery.released = true

section Promise

variable (nodeHost host : ByteOrder) (gcm : Gcm) (gcmKey : Bytes)

/-- The frame carries the session id plus the number of messages that its receiver has got in the
session, this one included. The number is the one that the sender converts. -/
def Expected (world : World) (earlier : List Delivery) (delivery : Delivery) : Prop :=
  ∃ bytes, world.frame? delivery.frame = some bytes ∧
    Recovers (orderOf nodeHost host delivery.receiver) gcm gcmKey bytes
      (htonl (orderOf nodeHost host delivery.frame.sender)
        (delivery.before.sessionId +
          UInt32.ofNat (sessionMessages earlier delivery.receiver delivery.connection + 1)))

/-- Nothing that has been replayed has had an effect. -/
structure ReplayProtected (world : World) : Prop where
  once : ∀ receiver, ((world.deliveries.filter fun delivery =>
    delivery.receiver = receiver ∧ delivery.dispatched = true).map Delivery.frame).Nodup
  ownConnection : ∀ delivery ∈ world.deliveries, delivery.receiver = .server →
    ActedOn delivery → delivery.frame.connection = delivery.connection
  expected : ∀ earlier delivery later, world.deliveries = earlier ++ delivery :: later →
    delivery.before.sessionId ≠ 0 → ActedOn delivery →
    Expected nodeHost host gcm gcmKey world earlier delivery

end Promise

/-- The network hands over what the other end has sent on the connection, every frame once and in
its turn. -/
def InTurn (world : World) : Event → Prop
  | .handedToServer connection frame _ _ =>
      frame.connection = connection ∧ frame.sender = .node ∧
        frame.place = world.handed .server connection
  | .handedToNode frame _ _ =>
      world.current = some frame.connection ∧ frame.sender = .server ∧
        frame.place = world.handed .node frame.connection
  | _ => True

instance (world : World) (event : Event) : Decidable (InTurn world event) := by
  cases event <;> unfold InTurn <;> infer_instance

/-- A server and a node that know each other, before the first connection. -/
def startWorld (ends : Ends) : World :=
  { node := ends.node
    server := ends.server
    connections := []
    current := none
    deliveries := [] }

/-! ### Frames and sends -/

/-- The node has put this nonce into a frame that names it. -/
def FromNode (gcm : Gcm) (gcmKey : Bytes) (devId : Block devIdLen) (nonce : UInt32)
    (bytes : Bytes) : Prop :=
  ∃ iv enc container pckGSettings, iv.length = ivLen ∧ NamesDevice devId container ∧
    bytes = frame gcm gcmKey iv enc (some container) pckGSettings nonce

/-- The server has put this nonce into a frame. -/
def FromServer (gcm : Gcm) (gcmKey : Bytes) (nonce : UInt32) (bytes : Bytes) : Prop :=
  ∃ iv enc add pckGSettings, iv.length = ivLen ∧ Begun add ∧
    bytes = frame gcm gcmKey iv enc add pckGSettings nonce

/-- What a send on a connection may do: it opens the connection with a nonce, it is refused since
there is a nonce but no session, or it is numbered. -/
inductive Sends {size : Nat} (host : ByteOrder) (carries : UInt32 → Bytes → Prop)
    (connInfo : ConnInfo) (result : SendResult size) : Prop
  | opened (nonce : UInt32) (bytes : Bytes) (noSession : connInfo.sessionId = 0)
      (noNonce : connInfo.localNonce = 0) (nonzero : nonce ≠ 0)
      (isFrame : carries (htonl host nonce) bytes) (sent : result.sent = some bytes)
      (left : result.connInfo = some { connInfo with localNonce := nonce })
  | refused (noSession : connInfo.sessionId = 0) (nonce : connInfo.localNonce ≠ 0)
      (sent : result.sent = none) (left : result.connInfo = some connInfo)
  | numbered (bytes : Bytes) (established : connInfo.sessionId ≠ 0)
      (isFrame : carries (nextNonce host connInfo) bytes) (sent : result.sent = some bytes)
      (left : result.connInfo = some (afterSend connInfo))

section Sending

variable {host : ByteOrder} {gcm : Gcm} {gcmKey : Bytes} {carries : UInt32 → Bytes → Prop}
  {pckData addDataPck : Option (Block pckDataIncrements)} {enc add : Option Container}
  {connInfo : ConnInfo} {pckGSettings : UInt32} {draw : Draw} {outBuf : Block maxMsgLen}
  {result : SendResult maxMsgLen}

/-- A message that has been sent was not too long. -/
theorem fits_of_sendMessage {left : Option ConnInfo} {ctx : Option Bytes} {nonce : UInt32}
    {newIv : Block ivLen} (givenEnc : Given host pckData enc) (givenAdd : Given host addDataPck add)
    (ran : sendMessage host gcm left ctx pckData addDataPck none pckGSettings nonce newIv outBuf =
      .ok result) : composedLength enc add none ≤ maxMsgLen := by
  obtain ⟨encrypted, ranEncrypt, -⟩ := bind_eq_ok.mp ran
  obtain ⟨composed, ranCompose, -⟩ := bind_eq_ok.mp ranEncrypt
  exact composePckData_fits givenEnc givenAdd .absent ranCompose

/-- A send of containers that survive a print does one of the three things. -/
theorem encryptAndSendAll_sends (givenEnc : Given host pckData enc)
    (givenAdd : Given host addDataPck add) (begunEnc : Begun enc) (begunAdd : Begun add)
    (isFrame : ∀ nonce,
      carries nonce (frame gcm gcmKey draw.newIv.bytes enc add pckGSettings nonce))
    (ran : encryptAndSendAll host gcm (some connInfo) (some gcmKey) pckData addDataPck none
      pckGSettings draw outBuf = .ok result) : Sends host carries connInfo result := by
  have sendable : composedLength enc add none ≤ maxMsgLen →
      Sendable host pckData addDataPck enc add :=
    fun fits => ⟨givenEnc, givenAdd, begunEnc, begunAdd, fits⟩
  by_cases noSession : connInfo.sessionId = 0
  · by_cases noNonce : connInfo.localNonce = 0
    · have ranSend := ran
      simp only [encryptAndSendAll, noSession, noNonce, ne_eq, not_true, if_false] at ranSend
      obtain ⟨out, sent⟩ := encryptAndSendAll_fresh gcm gcmKey
        (sendable (fits_of_sendMessage givenEnc givenAdd ranSend)) connInfo noSession noNonce
        pckGSettings draw outBuf
      obtain rfl := Except.ok.inj (sent.symm.trans ran)
      exact .opened _ _ noSession noNonce (nonceOf_ne_zero _) (isFrame _) rfl rfl
    · simp only [encryptAndSendAll, noSession, noNonce, ne_eq, not_true, not_false_eq_true,
        if_false, if_true] at ran
      obtain rfl := Except.ok.inj ran
      exact .refused noSession noNonce rfl rfl
  · have ranSend := ran
    simp only [encryptAndSendAll, ne_eq, noSession, not_false_eq_true, if_true] at ranSend
    obtain ⟨out, sent⟩ := encryptAndSendAll_session gcm gcmKey
      (sendable (fits_of_sendMessage givenEnc givenAdd ranSend)) noSession pckGSettings draw outBuf
    obtain rfl := Except.ok.inj (sent.symm.trans ran)
    exact .numbered _ noSession (isFrame _) rfl rfl

end Sending

section Senders

variable {nodeHost host : ByteOrder} {gcm : Gcm} {devId : Block devIdLen} {node : NodeState}
  {connInfo : ConnInfo} {addMalloced encryptedMalloced : Block pckDataIncrements} {draw : Draw}
  {outBuf : Block maxMsgLen} {result : SendResult maxMsgLen} {cmdInfo : NodeCmdInfo}
  {encrypted add : Block pckDataIncrements}

/-- The first frame of a connection and whatever comes after it is sent like any other. -/
theorem startSession_sends
    (ran : startSession nodeHost gcm addMalloced draw devId connInfo node outBuf = .ok result) :
    Sends nodeHost (FromNode gcm node.pointerToKey.bytes devId) connInfo result := by
  obtain ⟨a0, ranA0, builtA0⟩ := initPckData_ok nodeHost addMalloced
  obtain ⟨a1, ranA1, builtA1⟩ := appendToPckData_ok builtA0 devId.bytes
    (by rw [devId.allocated]; decide)
  obtain ⟨container, same, givenAdd⟩ := given_of_built builtA1
  have names : NamesDevice devId container := names_alone same
  simp only [startSession, ranA0, ranA1, ok_bind] at ran
  exact encryptAndSendAll_sends .absent givenAdd begun_none (begun_some names.begun)
    (fun nonce => ⟨_, _, container, 0, draw.newIv.allocated, names, rfl⟩) ran

/-- A message of the node is sent once, and counted by its connection. -/
theorem sendNodeMessage_sends (own : cmdInfo.devId = devId)
    (ran : sendNodeMessage nodeHost gcm addMalloced encryptedMalloced draw connInfo node cmdInfo
      outBuf = .ok result) :
    Sends nodeHost (FromNode gcm node.pointerToKey.bytes devId) connInfo result := by
  obtain ⟨⟨encrypted, add⟩, composed, ran⟩ := bind_eq_ok.mp ran
  obtain ⟨builtEnc, builtAdd⟩ := NodeMessageDelivery.built_of_composed composed
  obtain ⟨enc, sameEnc, givenEnc⟩ := given_of_built builtEnc
  obtain ⟨container, sameAdd, givenAdd⟩ := given_of_built builtAdd
  have names : NamesDevice devId container := names_alone (by rw [sameAdd, own])
  have begunEnc : Begun (some enc) :=
    begun_some (by simp [sameEnc, NodeMessageDelivery.encryptedElements])
  exact encryptAndSendAll_sends givenEnc givenAdd begunEnc (begun_some names.begun)
    (fun nonce => ⟨_, _, container, 0, draw.newIv.allocated, names, rfl⟩) ran

end Senders

/-! ### The frames of one end -/

/-- The number of the frame at a place: a nonce, and behind it the session id plus the place. -/
def numberAt (first session : UInt32) (place : Nat) : UInt32 :=
  if place = 0 then first else session + UInt32.ofNat place

/-- The frames of one end carry their numbers. -/
def Numbered (host : ByteOrder) (carries : UInt32 → Bytes → Prop) (first session : UInt32)
    (frames : List Bytes) : Prop :=
  ∀ place bytes, frames[place]? = some bytes →
    carries (htonl host (numberAt first session place)) bytes

/-- What an end keeps for a session, after these frames. Without a session id it sends nothing
behind its nonce. -/
structure Counts (connInfo : ConnInfo) (session : UInt32) (frames : List Bytes) : Prop where
  agreed : connInfo.sessionId = session
  nonce : connInfo.localNonce ≠ 0
  begun : frames ≠ []
  counted : session ≠ 0 → connInfo.sendSessionIncrements + 1 = UInt32.ofNat frames.length
  silent : session = 0 → frames.length = 1

section Numbers

variable {host : ByteOrder} {carries : UInt32 → Bytes → Prop} {first session : UInt32}
  {frames : List Bytes} {connInfo : ConnInfo} {bytes : Bytes} {result : SendResult maxMsgLen}

/-- One frame with the first number. -/
theorem numbered_single (isFrame : carries (htonl host first) bytes) :
    Numbered host carries first session [bytes] := by
  intro place found known
  obtain ⟨inside, rfl⟩ := List.getElem?_eq_some_iff.mp known
  have only : place = 0 := Nat.lt_one_iff.mp inside
  subst only
  exact isFrame

/-- The next frame has the next number. -/
theorem Numbered.snoc (numbered : Numbered host carries first session frames)
    (isFrame : carries (htonl host (numberAt first session frames.length)) bytes) :
    Numbered host carries first session (frames ++ [bytes]) := by
  intro place found known
  by_cases old : place < frames.length
  · rw [List.getElem?_append_left old] at known
    exact numbered place found known
  · obtain ⟨inside, rfl⟩ := List.getElem?_eq_some_iff.mp known
    rw [List.length_append, List.length_singleton] at inside
    have last : place = frames.length := by omega
    subst last
    simpa using isFrame

/-- A send in a session puts the next number into its frame. -/
theorem Counts.send (counts : Counts connInfo session frames)
    (numbered : Numbered host carries first session frames)
    (sends : Sends host carries connInfo result) :
    CommandDelivery.SameSession connInfo (result.connInfo.getD connInfo) ∧
      Counts (result.connInfo.getD connInfo) session (frames ++ result.sent.toList) ∧
      Numbered host carries first session (frames ++ result.sent.toList) := by
  cases sends with
  | opened nonce bytes noSession noNonce => exact absurd noNonce counts.nonce
  | refused noSession nonce sent left =>
      rw [sent, left, Option.toList_none, List.append_nil]
      exact ⟨.refl _, counts, numbered⟩
  | numbered bytes established isFrame sent left =>
      have nonzero : session ≠ 0 := counts.agreed ▸ established
      have count := counts.counted nonzero
      have behind : frames.length ≠ 0 := fun none => counts.begun (List.length_eq_zero_iff.mp none)
      rw [sent, left, Option.toList_some, Option.getD_some]
      refine ⟨rfl, ?_, numbered.snoc ?_⟩
      · exact
          { agreed := counts.agreed
            nonce := counts.nonce
            begun := by simp
            counted := by
              intro _
              rw [List.length_append, List.length_singleton, UInt32.ofNat_add, ← count]
              rfl
            silent := fun zero => absurd zero nonzero }
      · rw [numberAt, if_neg behind, ← count, ← counts.agreed]
        exact isFrame

end Numbers

/-! ### What the server does with its own connection -/

section Server

variable {nodeHost host : ByteOrder} {gcm : Gcm} {ecdh : Ecdh} {env : ServerEnv}
  {devInfos changed : List DevInfo} {devId : Block devIdLen} {name : Bytes} {key : Block keyLen}
  {first session : UInt32} {outgoing reached : Outgoing} {connInfo : ConnInfo}
  {server : ServerState} {msg : Block maxMsgLen} {result : ServerResult}

/-- A queued command is sent once, under the key of its device. -/
theorem sendOffCommand_sends {command : CommandRequestCommand}
    (known : findEncryptionKey devInfos name = some key)
    (ran : sendOffCommand host gcm devInfos name env command outgoing = .ok reached) :
    ∃ sent : SendResult maxMsgLen,
      Sends host (FromServer gcm key.bytes) outgoing.connInfo sent ∧
        reached.connInfo = sent.connInfo.getD outgoing.connInfo ∧
        reached.sent = outgoing.sent ++ sent.sent.toList := by
  obtain ⟨addPckData, ranAdd, ran⟩ := bind_eq_ok.mp ran
  obtain ⟨encryptedPckData, ranEncrypted, ran⟩ := bind_eq_ok.mp ran
  obtain ⟨-, container, add, carries, givenEnc, givenAdd⟩ :=
    carries_of_built ranAdd ranEncrypted
  simp only [known] at ran
  obtain ⟨sent, ranSend, ran⟩ := bind_eq_ok.mp ran
  refine ⟨sent, ?_, ?_⟩
  · exact encryptAndSendAll_sends givenEnc givenAdd carries.begun.1 carries.begun.2
      (fun nonce => ⟨_, _, add, _, Block.allocated _, carries.begun.2, rfl⟩) ranSend
  · rw [← Except.ok.inj ran]
    exact ⟨rfl, rfl⟩

/-- The commands that are released go on with the numbers. -/
theorem sendOffCommands_numbered {commands : List CommandRequestCommand}
    (known : findEncryptionKey devInfos name = some key)
    (counts : Counts outgoing.connInfo session outgoing.sent)
    (numbered : Numbered host (FromServer gcm key.bytes) first session outgoing.sent)
    (ran : sendOffCommands (sendOffCommand host gcm devInfos name env) commands outgoing =
      .ok reached) :
    CommandDelivery.SameSession outgoing.connInfo reached.connInfo ∧
      Counts reached.connInfo session reached.sent ∧
      Numbered host (FromServer gcm key.bytes) first session reached.sent := by
  induction commands generalizing outgoing with
  | nil =>
      obtain rfl := Except.ok.inj ran
      exact ⟨.refl _, counts, numbered⟩
  | cons command commands ih =>
      obtain ⟨next, ranOne, ranRest⟩ := bind_eq_ok.mp ran
      obtain ⟨sent, sends, connInfo, frames⟩ := sendOffCommand_sends known ranOne
      obtain ⟨same, countsNext, numberedNext⟩ := counts.send numbered sends
      rw [← connInfo] at same countsNext
      rw [← frames] at countsNext numberedNext
      obtain ⟨sameRest, rest⟩ := ih countsNext numberedNext ranRest
      exact ⟨same.trans sameRest, rest⟩

/-- So do the commands behind the answer to a nonce. -/
theorem releaseCommands_numbered {sent : List Bytes}
    (known : findEncryptionKey server.devInfos name = some key)
    (counts : Counts connInfo session sent)
    (numbered : Numbered host (FromServer gcm key.bytes) first session sent)
    (ran : releaseCommands host gcm env connInfo server name sent = .ok result) :
    CommandDelivery.SameSession connInfo result.connInfo ∧
      Counts result.connInfo session result.sent ∧
      Numbered host (FromServer gcm key.bytes) first session result.sent ∧
      result.server.devInfos = server.devInfos := by
  rw [Handshake.releaseCommands_eq] at ran
  obtain ⟨reached, ranSends, ran⟩ := bind_eq_ok.mp ran
  obtain ⟨same, countsReached, numberedReached⟩ :=
    sendOffCommands_numbered known counts numbered ranSends
  rw [← Except.ok.inj ran]
  exact ⟨same, countsReached, numberedReached, rfl⟩

/-- The server answers the first frame with its nonce and sends the commands behind it. -/
theorem answerNonce_numbered {devInfo : DevInfo} {nonce : UInt32} (newFd : Int)
    (registered : findDevInfo server.devInfos devInfo.devId.bytes = some devInfo)
    (nonzero : nonce ≠ 0)
    (ran : answerNonce host gcm env (acceptedConnInfo newFd 0) server devInfo nonce =
      .ok result) :
    ∃ own, Counts result.connInfo (nonce + htonl host own) result.sent ∧
      Numbered host (FromServer gcm devInfo.key.bytes) own (nonce + htonl host own) result.sent ∧
      result.connInfo.connectionType = 0 ∧ result.connInfo.remoteNonce ≠ 0 ∧
      result.server.devInfos = server.devInfos := by
  obtain ⟨out, answered⟩ := Handshake.answerNonce_eq host gcm env
    (show (acceptedConnInfo newFd 0).sessionId = 0 from rfl) rfl server devInfo nonce
  rw [answered] at ran
  have known : findEncryptionKey { server with sendProcessingBuffer := out }.devInfos
      devInfo.devId.bytes = some devInfo.key := by
    rw [findEncryptionKey, registered, Option.map_some]
  have drawn : htonl host (nonceOf (env.draws 0).localNonce) ≠ 0 :=
    mt (htonl_eq_zero_iff host _).mp (nonceOf_ne_zero _)
  generalize nonceOf (env.draws 0).localNonce = own at drawn ran
  have isFrame : FromServer gcm devInfo.key.bytes (htonl host own) _ :=
    ⟨(env.draws 0).newIv.bytes, none, none, 0, Block.allocated _, begun_none, rfl⟩
  generalize frame gcm devInfo.key.bytes (env.draws 0).newIv.bytes none none 0 (htonl host own) =
    bytes at ran isFrame
  obtain ⟨same, counts, numbered, devices⟩ := releaseCommands_numbered known
    { agreed := rfl
      nonce := drawn
      begun := List.cons_ne_nil bytes []
      counted := fun _ => rfl
      silent := fun _ => rfl } (numbered_single isFrame) ran
  refine ⟨own, counts, numbered, ?_, ?_, devices⟩
  · rw [same]
    rfl
  · rw [same]
    exact nonzero

/-- A change of one device leaves the keys of all. -/
theorem registered_updated {found : DevInfo} (updated : UpdatedFor name devInfos changed)
    (registered : findDevInfo devInfos devId.bytes = some found) :
    ∃ now, findDevInfo changed devId.bytes = some now ∧ now.key = found.key := by
  induction updated with
  | nil => cases registered
  | cons revised rest ih =>
      rename_i old new before after
      obtain ⟨sameId, sameKey, -⟩ := revised
      by_cases own : old.devId.bytes = devId.bytes
      · rw [findDevInfo, List.find?_cons_of_pos (by simpa using own)] at registered
        obtain rfl := Option.some.inj registered
        refine ⟨new, ?_, sameKey⟩
        rw [findDevInfo, List.find?_cons_of_pos (by simpa [sameId] using own)]
      · rw [findDevInfo, List.find?_cons_of_neg (by simpa using own)] at registered
        obtain ⟨now, found, key⟩ := ih registered
        refine ⟨now, ?_, key⟩
        rw [findDevInfo, List.find?_cons_of_neg (by simpa [sameId] using own)]
        exact found

end Server

/-! ### One connection -/

/-- The session id that both ends compute from these nonces. -/
def sessionOf (nodeHost host : ByteOrder) (nodeNonce serverNonce : UInt32) : UInt32 :=
  htonl nodeHost nodeNonce + htonl host serverNonce

section Linked

variable (nodeHost host : ByteOrder) (gcm : Gcm) (gcmKey : Bytes) (devId : Block devIdLen)

/-- The server has taken the first frame of the node. Of the frames that it has been handed all
but this one came in the session. -/
structure OnServer (nodeNonce serverNonce : UInt32) (link : Connection)
    (toServer inServer : Nat) : Prop where
  fromNode : Numbered nodeHost (FromNode gcm gcmKey devId) nodeNonce
    (sessionOf nodeHost host nodeNonce serverNonce) link.fromNode
  fromServer : Numbered host (FromServer gcm gcmKey) serverNonce
    (sessionOf nodeHost host nodeNonce serverNonce) link.fromServer
  counts : Counts link.serverEnd (sessionOf nodeHost host nodeNonce serverNonce) link.fromServer
  ofNode : link.serverEnd.connectionType = 0
  nonceTaken : link.serverEnd.remoteNonce ≠ 0
  taken : 0 < toServer
  inSession : sessionOf nodeHost host nodeNonce serverNonce ≠ 0 → inServer + 1 = toServer

/-- How far a connection has come, when every frame has been handed over in its turn: `toServer`
and `toNode` frames, `inServer` and `inNode` of them in the session. -/
inductive Linked (link : Connection) (toServer inServer toNode inNode : Nat) : Prop
  | idle (socket newFd : Int) (node : link.nodeEnd = initializeConnInfo socket)
      (server : link.serverEnd = acceptedConnInfo newFd 0) (noneFromNode : link.fromNode = [])
      (noneFromServer : link.fromServer = []) (noneToServer : toServer = 0 ∧ inServer = 0)
      (noneToNode : toNode = 0 ∧ inNode = 0)
  | offered (socket newFd : Int) (nodeNonce : UInt32) (bytes : Bytes) (nonzero : nodeNonce ≠ 0)
      (node : link.nodeEnd = { initializeConnInfo socket with localNonce := nodeNonce })
      (server : link.serverEnd = acceptedConnInfo newFd 0) (first : link.fromNode = [bytes])
      (isFrame : FromNode gcm gcmKey devId (htonl nodeHost nodeNonce) bytes)
      (noneFromServer : link.fromServer = []) (noneToServer : toServer = 0 ∧ inServer = 0)
      (noneToNode : toNode = 0 ∧ inNode = 0)
  | answered (socket : Int) (nodeNonce serverNonce : UInt32) (nonzero : nodeNonce ≠ 0)
      (node : link.nodeEnd = { initializeConnInfo socket with localNonce := nodeNonce })
      (onServer : OnServer nodeHost host gcm gcmKey devId nodeNonce serverNonce link toServer
        inServer)
      (only : link.fromNode.length = 1) (noneToNode : toNode = 0 ∧ inNode = 0)
  | established (nodeNonce serverNonce : UInt32)
      (onServer : OnServer nodeHost host gcm gcmKey devId nodeNonce serverNonce link toServer
        inServer)
      (counts : Counts link.nodeEnd (sessionOf nodeHost host nodeNonce serverNonce)
        link.fromNode)
      (taken : 0 < toNode)
      (inSession : sessionOf nodeHost host nodeNonce serverNonce ≠ 0 → inNode + 1 = toNode)

end Linked

section Steps

variable {nodeHost host : ByteOrder} {gcm : Gcm} {ecdh : Ecdh} {gcmKey : Bytes}
  {devId : Block devIdLen} {key : Block keyLen} {link : Connection}
  {toServer inServer toNode inNode : Nat} {bytes : Bytes}

/-- A send of the node. -/
theorem Linked.send {result : SendResult maxMsgLen}
    (linked : Linked nodeHost host gcm gcmKey devId link toServer inServer toNode inNode)
    (sends : Sends nodeHost (FromNode gcm gcmKey devId) link.nodeEnd result) :
    Linked nodeHost host gcm gcmKey devId (link.afterSending result) toServer inServer toNode
      inNode := by
  unfold Connection.afterSending
  cases linked with
  | idle socket newFd node server noneFromNode noneFromServer noneToServer noneToNode =>
      cases sends with
      | opened nonce bytes noSession noNonce nonzero isFrame sent left =>
          refine .offered socket newFd nonce bytes nonzero ?_ server ?_ isFrame noneFromServer
            noneToServer noneToNode
          · rw [left, node, Option.getD_some]
          · rw [sent, noneFromNode, Option.toList_some, List.nil_append]
      | refused noSession nonce => exact absurd (by rw [node]; rfl) nonce
      | numbered bytes established => exact absurd (by rw [node]; rfl) established
  | offered socket newFd nodeNonce bytes nonzero node server first isFrame noneFromServer
      noneToServer noneToNode =>
      cases sends with
      | opened nonce bytes noSession noNonce => exact absurd (by rw [← noNonce, node]) nonzero
      | refused noSession nonce sent left =>
          rw [sent, left, Option.toList_none, List.append_nil, Option.getD_some]
          exact .offered socket newFd nodeNonce bytes nonzero node server first isFrame
            noneFromServer noneToServer noneToNode
      | numbered bytes established => exact absurd (by rw [node]; rfl) established
  | answered socket nodeNonce serverNonce nonzero node onServer only noneToNode =>
      cases sends with
      | opened nonce bytes noSession noNonce => exact absurd (by rw [← noNonce, node]) nonzero
      | refused noSession nonce sent left =>
          rw [sent, left, Option.toList_none, List.append_nil, Option.getD_some]
          exact .answered socket nodeNonce serverNonce nonzero node onServer only noneToNode
      | numbered bytes established => exact absurd (by rw [node]; rfl) established
  | established nodeNonce serverNonce onServer counts taken inSession =>
      obtain ⟨-, countsAfter, numbered⟩ := counts.send onServer.fromNode sends
      exact .established nodeNonce serverNonce { onServer with fromNode := numbered } countsAfter
        taken inSession

/-- What is written to the front of a buffer is what it begins with. -/
theorem front_of_write {size : Nat} {block written : Block size}
    (wrote : block.write 0 bytes = .ok written) : ∃ rest, written.bytes = bytes ++ rest := by
  obtain ⟨-, same⟩ := Block.write_eq_ok.mp wrote
  exact ⟨_, by rw [same, splice, List.take_zero, List.nil_append]⟩

section ServerReceives

variable {env : ServerEnv} {server : ServerState} {devInfo : DevInfo}
  {msg : Block maxMsgLen} {result : ServerResult} {rest : Bytes} {nodeNonce serverNonce : UInt32}

/-- The server takes the node's nonce from the first frame. -/
theorem server_takes_first (newFd : Int) (nonzero : nodeNonce ≠ 0)
    (accepted : link.serverEnd = acceptedConnInfo newFd 0)
    (noneFromServer : link.fromServer = [])
    (registered : findDevInfo server.devInfos devId.bytes = some devInfo)
    (isFrame : FromNode gcm devInfo.key.bytes devId (htonl nodeHost nodeNonce) bytes)
    (only : link.fromNode = [bytes]) (content : msg.bytes = bytes ++ rest)
    (ran : MainServer.processMsg host gcm ecdh env link.serverEnd server msg = .ok result) :
    ∃ serverNonce, OnServer nodeHost host gcm devInfo.key.bytes devId nodeNonce serverNonce
        (link.afterServer result) 1 0 ∧
      result.server.devInfos = server.devInfos := by
  have own := isFrame
  obtain ⟨iv, enc, container, pckGSettings, vector, names, rfl⟩ := isFrame
  rw [accepted] at ran
  have fromNode : (acceptedConnInfo newFd 0).connectionType = 0 := rfl
  obtain ⟨tag, sized, opened, buffer, processed, inMessage⟩ := serverProcessMsg_frame host ecdh
    env vector names fromNode registered content
  have atNonce : opened.load32 host (headerLen + (protocolSpecificAddLen + container.length)) =
      .ok (htonl nodeHost nodeNonce) := (opened_place sized inMessage).1
  rw [processed, MainServer.processDecrypted, if_pos ⟨rfl, rfl⟩, atNonce, ok_bind] at ran
  have taken : htonl nodeHost nodeNonce ≠ 0 := mt (htonl_eq_zero_iff nodeHost _).mp nonzero
  obtain ⟨serverNonce, counts, numbered, ofNode, nonceTaken, devices⟩ := answerNonce_numbered newFd
    (by rw [findDevInfo_devId registered]; exact registered) taken ran
  refine ⟨serverNonce, ?_, devices⟩
  have sent : (link.afterServer result).fromServer = result.sent := by
    rw [Connection.afterServer, noneFromServer, List.nil_append]
  exact
    { fromNode := by
        rw [Connection.afterServer, only]
        exact numbered_single own
      fromServer := by rw [sent]; exact numbered
      counts := by rw [sent]; exact counts
      ofNode := ofNode
      nonceTaken := nonceTaken
      taken := Nat.one_pos
      inSession := fun _ => rfl }

/-- The node's next message carries the number that is next, and the server only counts it. -/
theorem OnServer.message
    (onServer : OnServer nodeHost host gcm devInfo.key.bytes devId nodeNonce serverNonce link
      toServer inServer)
    (nonzero : sessionOf nodeHost host nodeNonce serverNonce ≠ 0)
    (registered : findDevInfo server.devInfos devId.bytes = some devInfo)
    (next : link.fromNode[toServer]? = some bytes) (content : msg.bytes = bytes ++ rest)
    (ran : MainServer.processMsg host gcm ecdh env link.serverEnd server msg = .ok result) :
    OnServer nodeHost host gcm devInfo.key.bytes devId nodeNonce serverNonce
        (link.afterServer result) (toServer + 1) (inServer + 1) ∧
      UpdatedFor devId.bytes server.devInfos result.server.devInfos ∧
      FromNode gcm devInfo.key.bytes devId
        (htonl nodeHost (link.serverEnd.sessionId + UInt32.ofNat (inServer + 1))) bytes := by
  have counted := onServer.inSession nonzero
  have isFrame := onServer.fromNode _ _ next
  rw [numberAt, if_neg (Nat.ne_of_gt onServer.taken), ← counted, ← onServer.counts.agreed]
    at isFrame
  have own := isFrame
  obtain ⟨iv, enc, container, pckGSettings, vector, names, rfl⟩ := isFrame
  obtain ⟨tag, sized, opened, buffer, processed, inMessage⟩ := serverProcessMsg_frame host ecdh
    env vector names onServer.ofNode registered content
  rw [processed, processDecrypted_session onServer.nonceTaken
    (by rw [onServer.counts.agreed]; exact nonzero)] at ran
  have acted := dispatchMessage_acted ran
  obtain ⟨_, _, _, _, -, -, -, left⟩ := dispatchMessage_cases ran
  have same : link.afterServer result = link := by
    rw [left, Connection.afterServer, List.append_nil]
  rw [same]
  refine ⟨?_, acted.registry, own⟩
  exact
    { onServer with
      taken := Nat.succ_pos toServer
      inSession := fun _ => by rw [counted] }

/-- What the server does with the node's next frame: the first one opens the session, and every
later one comes in the session with the number that is next. -/
theorem Linked.serverReceives
    (linked : Linked nodeHost host gcm devInfo.key.bytes devId link toServer inServer toNode
      inNode)
    (registered : findDevInfo server.devInfos devId.bytes = some devInfo)
    (next : link.fromNode[toServer]? = some bytes) (content : msg.bytes = bytes ++ rest)
    (ran : MainServer.processMsg host gcm ecdh env link.serverEnd server msg = .ok result) :
    Linked nodeHost host gcm devInfo.key.bytes devId (link.afterServer result) (toServer + 1)
        (if link.serverEnd.sessionId = 0 then inServer else inServer + 1) toNode inNode ∧
      UpdatedFor devId.bytes server.devInfos result.server.devInfos ∧
      (link.serverEnd.sessionId ≠ 0 → FromNode gcm devInfo.key.bytes devId
        (htonl nodeHost (link.serverEnd.sessionId + UInt32.ofNat (inServer + 1))) bytes) := by
  cases linked with
  | idle socket newFd node server noneFromNode => simp [noneFromNode] at next
  | offered socket newFd nodeNonce first nonzero node accepted only isFrame noneFromServer
      noneToServer noneToNode =>
      obtain ⟨rfl, rfl⟩ := noneToServer
      have isFirst := next
      rw [only] at isFirst
      obtain rfl := Option.some.inj isFirst
      obtain ⟨serverNonce, onServer, devices⟩ := server_takes_first newFd nonzero accepted
        noneFromServer registered isFrame only content ran
      have noSession : link.serverEnd.sessionId = 0 := by rw [accepted]; rfl
      rw [if_pos noSession, devices]
      refine ⟨.answered socket nodeNonce serverNonce nonzero node onServer ?_ noneToNode,
        .refl _ _, fun established => absurd noSession established⟩
      rw [Connection.afterServer, only]
      rfl
  | answered socket nodeNonce serverNonce nonzero node onServer only =>
      have inside := (List.getElem?_eq_some_iff.mp next).1
      have taken := onServer.taken
      omega
  | established nodeNonce serverNonce onServer counts taken inSession =>
      have nonzero : sessionOf nodeHost host nodeNonce serverNonce ≠ 0 := by
        intro zero
        have inside := (List.getElem?_eq_some_iff.mp next).1
        have only := counts.silent zero
        have taken := onServer.taken
        omega
      obtain ⟨onServerAfter, updated, isFrame⟩ :=
        onServer.message nonzero registered next content ran
      rw [if_neg (by rw [onServer.counts.agreed]; exact nonzero)]
      exact ⟨.established nodeNonce serverNonce onServerAfter counts taken inSession, updated,
        fun _ => isFrame⟩

end ServerReceives

section NodeReceives

variable {env : NodeEnv} {node : NodeState} {message : Block maxMsgLen}
  {result : NodeClient.NodeResult} {rest : Bytes} {connInfo : ConnInfo} {pointer : Nat}

/-- The node takes the server's nonce from the first frame. -/
theorem node_takes_first {socket : Int} {nodeNonce serverNonce : UInt32}
    (begun : connInfo = { initializeConnInfo socket with localNonce := nodeNonce })
    (isFrame : FromServer gcm node.pointerToKey.bytes (htonl host serverNonce) bytes)
    (content : message.bytes = bytes ++ rest)
    (ran : NodeClient.processMsg nodeHost gcm ecdh env (some connInfo) node message =
      .ok result) :
    result.connInfo = some
        { initializeConnInfo socket with
          remoteNonce := htonl host serverNonce
          localNonce := htonl nodeHost nodeNonce
          sessionId := sessionOf nodeHost host nodeNonce serverNonce } ∧
      result.node.pointerToKey = node.pointerToKey := by
  obtain ⟨iv, enc, add, pckGSettings, vector, begunAdd, rfl⟩ := isFrame
  obtain ⟨tag, sized, opened, buffer, processed, -, inOutput⟩ := clientProcessMsg_frame nodeHost
    ecdh env connInfo vector begunAdd content
  have place : buffer.bytes = [] ++ (nodeHost.encode (htonl host serverNonce) ++
      (nodeHost.encode pckGSettings ++ (givenBytes nodeHost enc ++ node.decryptionBuffer.bytes.drop
        (protocolSpecificEncryptedDataLen + givenLength enc)))) := by
    simpa only [settingsBytes, List.append_assoc, List.nil_append] using inOutput
  have remoteNonce := Block.load32_append nodeHost 0 place rfl (by simp)
  rw [ByteOrder.decode_encode] at remoteNonce
  have noSession : connInfo.sessionId = 0 := by rw [begun]; rfl
  rw [processed, if_pos noSession] at ran
  simp only [NodeClient.takeNonce, remoteNonce, ok_bind, pure_eq_ok] at ran
  rw [← Except.ok.inj ran, begun]
  exact ⟨rfl, rfl⟩

/-- What the node does with the server's next frame: the first one opens the session, and every
later one comes in the session with the number that is next. -/
theorem Linked.nodeReceives
    (linked : Linked nodeHost host gcm node.pointerToKey.bytes devId link toServer inServer toNode
      inNode)
    (next : link.fromServer[toNode]? = some bytes) (content : message.bytes = bytes ++ rest)
    (ran : NodeClient.processMsg nodeHost gcm ecdh env (some link.nodeEnd) node message =
      .ok result) :
    Linked nodeHost host gcm node.pointerToKey.bytes devId (link.afterNode result) toServer
        inServer (toNode + 1) (if link.nodeEnd.sessionId = 0 then inNode else inNode + 1) ∧
      result.node.pointerToKey = node.pointerToKey ∧
      (link.nodeEnd.sessionId ≠ 0 → FromServer gcm node.pointerToKey.bytes
        (htonl host (link.nodeEnd.sessionId + UInt32.ofNat (inNode + 1))) bytes) := by
  cases linked with
  | idle socket newFd begun server noneFromNode noneFromServer => simp [noneFromServer] at next
  | offered socket newFd nodeNonce first nonzero begun server only isFrame noneFromServer =>
      simp [noneFromServer] at next
  | answered socket nodeNonce serverNonce nonzero begun onServer only noneToNode =>
      obtain ⟨rfl, rfl⟩ := noneToNode
      have isFrame := onServer.fromServer _ _ next
      obtain ⟨left, sameKey⟩ := node_takes_first begun isFrame content ran
      have noSession : link.nodeEnd.sessionId = 0 := by rw [begun]; rfl
      rw [if_pos noSession]
      refine ⟨.established nodeNonce serverNonce { onServer with } ?_ Nat.one_pos fun _ => rfl,
        sameKey, fun established => absurd noSession established⟩
      rw [Connection.afterNode, left]
      exact
        { agreed := rfl
          nonce := mt (htonl_eq_zero_iff nodeHost _).mp nonzero
          begun := by
            intro empty
            rw [empty] at only
            cases only
          counted := fun _ => by rw [only]; rfl
          silent := fun _ => only }
  | established nodeNonce serverNonce onServer counts taken inSession =>
      have nonzero : sessionOf nodeHost host nodeNonce serverNonce ≠ 0 := by
        intro zero
        have inside := (List.getElem?_eq_some_iff.mp next).1
        have only := onServer.counts.silent zero
        omega
      have counted := inSession nonzero
      have established : link.nodeEnd.sessionId ≠ 0 := by rw [counts.agreed]; exact nonzero
      have isFrame := onServer.fromServer _ _ next
      rw [numberAt, if_neg (Nat.ne_of_gt taken), ← counted, ← counts.agreed] at isFrame
      have own := isFrame
      obtain ⟨iv, enc, add, pckGSettings, vector, begunAdd, rfl⟩ := isFrame
      obtain ⟨tag, sized, opened, buffer, processed, -, -⟩ := clientProcessMsg_frame nodeHost ecdh
        env link.nodeEnd vector begunAdd content
      rw [processed, if_neg established] at ran
      obtain ⟨call, printed, rfl⟩ := dispatchCommand_cases ran
      rw [Connection.afterNode, Option.getD_some, if_neg established]
      exact ⟨.established nodeNonce serverNonce onServer counts (Nat.succ_pos toNode)
        fun _ => by rw [counted], rfl, fun _ => own⟩

end NodeReceives

end Steps

/-! ### The whole world -/

/-- What holds between the two ends as long as every frame is handed over in its turn. -/
structure Intact (nodeHost host : ByteOrder) (gcm : Gcm) (devId : Block devIdLen)
    (key : Block keyLen) (world : World) : Prop where
  nodeKey : world.node.pointerToKey = key
  registered : ∃ devInfo, findDevInfo world.server.devInfos devId.bytes = some devInfo ∧
    devInfo.key = key
  linked : ∀ index link, world.connections[index]? = some link →
    Linked nodeHost host gcm key.bytes devId link
      (world.handed .server index) (sessionMessages world.deliveries .server index)
      (world.handed .node index) (sessionMessages world.deliveries .node index)
  existing : ∀ delivery ∈ world.deliveries, delivery.connection < world.connections.length
  inTurn : ∀ delivery ∈ world.deliveries, delivery.frame.connection = delivery.connection ∧
    delivery.frame.place < world.handed delivery.receiver delivery.connection
  distinct : world.deliveries.Pairwise fun one other =>
    one.receiver = other.receiver → one.frame ≠ other.frame
  expected : ∀ earlier delivery later, world.deliveries = earlier ++ delivery :: later →
    delivery.before.sessionId ≠ 0 → Expected nodeHost host gcm key.bytes world earlier delivery

/-- The connections that there were are there, with the frames that had been sent on them. -/
def Grown (world next : World) : Prop :=
  ∀ (index : Nat) (link : Connection), world.connections[index]? = some link →
    ∃ later : Connection, next.connections[index]? = some later ∧ link.fromNode <+: later.fromNode ∧
      link.fromServer <+: later.fromServer

section Whole

variable {nodeHost host : ByteOrder} {gcm : Gcm} {ecdh : Ecdh} {devId : Block devIdLen}
  {key : Block keyLen} {world next : World} {delivery : Delivery} {index : Nat}
  {link later : Connection}

/-- An intact world is protected. -/
theorem intact_protected (intact : Intact nodeHost host gcm devId key world) :
    ReplayProtected nodeHost host gcm key.bytes world where
  once receiver := by
    rw [List.Nodup, List.pairwise_map]
    refine (intact.distinct.filter _).imp_of_mem ?_
    intro one other isOne isOther different
    simp only [List.mem_filter, decide_eq_true_eq] at isOne isOther
    exact different (isOne.2.1.trans isOther.2.1.symm)
  ownConnection delivery inside _ _ := (intact.inTurn delivery inside).1
  expected earlier delivery later split established _ :=
    intact.expected earlier delivery later split established

/-- A frame keeps its place when more are sent. -/
theorem getElem?_of_prefix {frames more : List Bytes} (grown : frames <+: more) {place : Nat}
    {bytes : Bytes} (known : frames[place]? = some bytes) : more[place]? = some bytes := by
  obtain ⟨behind, rfl⟩ := grown
  rw [List.getElem?_append_left (List.getElem?_eq_some_iff.mp known).1, known]

/-- A frame that has been sent stays where it is. -/
theorem Grown.frame? (grown : Grown world next) {frame : FrameRef} {bytes : Bytes}
    (known : world.frame? frame = some bytes) : next.frame? frame = some bytes := by
  unfold World.frame? at known ⊢
  split at known
  · cases known
  · rename_i link found
    obtain ⟨later, foundLater, fromNode, fromServer⟩ := grown _ _ found
    rw [foundLater]
    cases sender : frame.sender with
    | node =>
        rw [sender] at known
        exact getElem?_of_prefix fromNode known
    | server =>
        rw [sender] at known
        exact getElem?_of_prefix fromServer known

/-- No connection is ever removed. -/
theorem Grown.length (grown : Grown world next) :
    world.connections.length ≤ next.connections.length := by
  by_contra fewer
  have inside : next.connections.length < world.connections.length := Nat.lt_of_not_le fewer
  obtain ⟨later, found, -⟩ := grown _ _ (List.getElem?_eq_getElem inside)
  exact Nat.lt_irrefl _ (List.getElem?_eq_some_iff.mp found).1

/-- A delivery that was expected remains so. -/
theorem Expected.mono {gcmKey : Bytes} {earlier : List Delivery} (grown : Grown world next)
    (expected : Expected nodeHost host gcm gcmKey world earlier delivery) :
    Expected nodeHost host gcm gcmKey next earlier delivery := by
  obtain ⟨bytes, known, recovers⟩ := expected
  exact ⟨bytes, grown.frame? known, recovers⟩

/-- One connection is replaced by a later one. -/
theorem grown_set (found : world.connections[index]? = some link)
    (replaced : next.connections = world.connections.set index later)
    (fromNode : link.fromNode <+: later.fromNode)
    (fromServer : link.fromServer <+: later.fromServer) : Grown world next := by
  intro other old known
  by_cases own : index = other
  · subst own
    obtain rfl := Option.some.inj (found.symm.trans known)
    refine ⟨later, ?_, fromNode, fromServer⟩
    rw [replaced, List.getElem?_set_self (List.getElem?_eq_some_iff.mp known).1]
  · refine ⟨old, ?_, List.prefix_refl _, List.prefix_refl _⟩
    rw [replaced, List.getElem?_set_ne own, known]

/-- No frame has been handed over on a connection that there is not. -/
theorem handed_none (intact : Intact nodeHost host gcm devId key world) (receiver : Side)
    (beyond : world.connections.length ≤ index) : world.handed receiver index = 0 := by
  refine List.countP_eq_zero.mpr ?_
  intro delivery inside counted
  have existing := intact.existing delivery inside
  simp only [decide_eq_true_eq] at counted
  omega

/-- The messages of sessions are among the frames that have been handed over. -/
theorem sessionMessages_le (world : World) (receiver : Side) (index : Nat) :
    sessionMessages world.deliveries receiver index ≤ world.handed receiver index := by
  refine List.countP_mono_left ?_
  intro delivery inside counted
  simp only [decide_eq_true_eq] at counted ⊢
  exact ⟨counted.1, counted.2.1⟩

/-- Nothing has been handed over. -/
theorem Intact.quiet (intact : Intact nodeHost host gcm devId key world)
    (grown : Grown world next) (same : next.deliveries = world.deliveries)
    (nodeKey : next.node.pointerToKey = key)
    (devices : next.server.devInfos = world.server.devInfos)
    (linked : ∀ index link, next.connections[index]? = some link →
      Linked nodeHost host gcm key.bytes devId link
        (world.handed .server index) (sessionMessages world.deliveries .server index)
        (world.handed .node index) (sessionMessages world.deliveries .node index)) :
    Intact nodeHost host gcm devId key next := by
  have handed : ∀ receiver index, next.handed receiver index = world.handed receiver index := by
    intro receiver index
    rw [World.handed, same]
    rfl
  exact
    { nodeKey := nodeKey
      registered := by rw [devices]; exact intact.registered
      linked := by simpa only [handed, same] using linked
      existing := by
        rw [same]
        exact fun delivery inside =>
          Nat.lt_of_lt_of_le (intact.existing delivery inside) grown.length
      inTurn := by simpa only [handed, same] using intact.inTurn
      distinct := by rw [same]; exact intact.distinct
      expected := by
        rw [same]
        exact fun earlier delivery later split established =>
          (intact.expected earlier delivery later split established).mono grown }

/-- One more frame is counted where it has been handed over. -/
theorem handed_snoc (receiver : Side) (index : Nat)
    (delivered : next.deliveries = world.deliveries ++ [delivery]) :
    next.handed receiver index = world.handed receiver index +
      if delivery.receiver = receiver ∧ delivery.connection = index then 1 else 0 := by
  simp only [World.handed, delivered, List.countP_append, List.countP_singleton,
    decide_eq_true_eq]

/-- A delivery is counted if it falls into the session. -/
theorem sessionMessages_snoc (deliveries : List Delivery) (delivery : Delivery) (receiver : Side)
    (index : Nat) :
    sessionMessages (deliveries ++ [delivery]) receiver index =
      sessionMessages deliveries receiver index +
        if delivery.receiver = receiver ∧ delivery.connection = index ∧
          delivery.before.sessionId ≠ 0 then 1 else 0 := by
  simp only [sessionMessages, List.countP_append, List.countP_singleton, decide_eq_true_eq]

/-- What is split at an item behind a list, or in it. -/
theorem split_snoc {deliveries earlier later : List Delivery} {last : Delivery}
    (split : deliveries ++ [last] = earlier ++ delivery :: later) :
    (earlier = deliveries ∧ delivery = last) ∨
      ∃ between, deliveries = earlier ++ delivery :: between := by
  rcases List.eq_nil_or_concat later with rfl | ⟨between, item, rfl⟩
  · obtain ⟨rfl, same⟩ := List.append_inj' split rfl
    exact .inl ⟨rfl, (List.singleton_inj.mp same).symm⟩
  · have regrouped : deliveries ++ [last] = (earlier ++ delivery :: between) ++ [item] := by
      rw [split]
      simp
    exact .inr ⟨between, (List.append_inj' regrouped rfl).1⟩

/-- A frame has been handed over in its turn. -/
theorem Intact.deliver (intact : Intact nodeHost host gcm devId key world)
    (found : world.connections[index]? = some link)
    (replaced : next.connections = world.connections.set index later)
    (fromNode : link.fromNode <+: later.fromNode)
    (fromServer : link.fromServer <+: later.fromServer)
    (delivered : next.deliveries = world.deliveries ++ [delivery])
    (here : delivery.connection = index) (own : delivery.frame.connection = index)
    (place : delivery.frame.place = world.handed delivery.receiver index)
    (nodeKey : next.node.pointerToKey = key)
    (registered : ∃ devInfo, findDevInfo next.server.devInfos devId.bytes = some devInfo ∧
      devInfo.key = key)
    (linked : Linked nodeHost host gcm key.bytes devId later
      (next.handed .server index) (sessionMessages next.deliveries .server index)
      (next.handed .node index) (sessionMessages next.deliveries .node index))
    (expected : delivery.before.sessionId ≠ 0 →
      Expected nodeHost host gcm key.bytes world world.deliveries delivery) :
    Intact nodeHost host gcm devId key next := by
  have grown : Grown world next := grown_set found replaced fromNode fromServer
  have more : ∀ receiver other, world.handed receiver other ≤ next.handed receiver other := by
    intro receiver other
    rw [handed_snoc receiver other delivered]
    exact Nat.le_add_right _ _
  exact
    { nodeKey := nodeKey
      registered := registered
      linked := by
        intro other old known
        rw [replaced] at known
        by_cases same : index = other
        · subst same
          rw [List.getElem?_set_self (List.getElem?_eq_some_iff.mp found).1] at known
          obtain rfl := Option.some.inj known
          exact linked
        · rw [List.getElem?_set_ne same] at known
          have elsewhere : delivery.connection ≠ other := here ▸ same
          rw [delivered, handed_snoc .server other delivered, handed_snoc .node other delivered,
            sessionMessages_snoc, sessionMessages_snoc]
          simp only [elsewhere, false_and, and_false, if_false, Nat.add_zero]
          exact intact.linked other old known
      existing := by
        intro one inside
        refine Nat.lt_of_lt_of_le ?_ grown.length
        rw [delivered] at inside
        rcases List.mem_append.mp inside with earlier | last
        · exact intact.existing one earlier
        · rw [List.mem_singleton.mp last, here]
          exact (List.getElem?_eq_some_iff.mp found).1
      inTurn := by
        intro one inside
        rw [delivered] at inside
        rcases List.mem_append.mp inside with earlier | last
        · obtain ⟨same, before⟩ := intact.inTurn one earlier
          exact ⟨same, Nat.lt_of_lt_of_le before (more _ _)⟩
        · rw [List.mem_singleton.mp last]
          refine ⟨own.trans here.symm, ?_⟩
          rw [handed_snoc _ _ delivered, if_pos ⟨rfl, rfl⟩, place, here]
          exact Nat.lt_succ_self _
      distinct := by
        rw [delivered, List.pairwise_append]
        refine ⟨intact.distinct, List.pairwise_singleton _ _, ?_⟩
        intro one earlier other last sameReceiver sameFrame
        rw [List.mem_singleton.mp last] at sameReceiver sameFrame
        obtain ⟨same, before⟩ := intact.inTurn one earlier
        rw [← same, sameFrame, sameReceiver, own, place] at before
        exact Nat.lt_irrefl _ before
      expected := by
        intro earlier one later split established
        rw [delivered] at split
        rcases split_snoc split with ⟨rfl, rfl⟩ | ⟨between, split⟩
        · exact (expected established).mono grown
        · exact (intact.expected earlier one between split established).mono grown }

/-! Every event. -/

/-- Frames that stay as they are have grown. -/
theorem Grown.refl_of (same : next.connections = world.connections) : Grown world next := by
  intro index link known
  exact ⟨link, by rw [same]; exact known, List.prefix_refl _, List.prefix_refl _⟩

/-- On a new connection nothing has happened. -/
theorem Intact.accepting (intact : Intact nodeHost host gcm devId key world) (socket newFd : Int)
    (current : Option Nat) :
    Intact nodeHost host gcm devId key
      { world.accepting socket newFd with current := current } := by
  refine intact.quiet ?_ rfl intact.nodeKey rfl ?_
  · intro index link known
    refine ⟨link, ?_, List.prefix_refl _, List.prefix_refl _⟩
    rw [World.accepting, List.getElem?_append_left (List.getElem?_eq_some_iff.mp known).1, known]
  · intro index link known
    rw [World.accepting] at known
    by_cases old : index < world.connections.length
    · rw [List.getElem?_append_left old] at known
      exact intact.linked index link known
    · have beyond : world.connections.length ≤ index := Nat.le_of_not_lt old
      rw [List.getElem?_append_right beyond] at known
      obtain ⟨-, rfl⟩ := List.getElem?_eq_some_iff.mp known
      have none : ∀ receiver, world.handed receiver index = 0 ∧
          sessionMessages world.deliveries receiver index = 0 := by
        intro receiver
        have unused := handed_none intact receiver beyond
        exact ⟨unused, Nat.le_zero.mp (unused ▸ sessionMessages_le world receiver index)⟩
      exact .idle socket newFd (by simp) (by simp) (by simp) (by simp) (none .server) (none .node)

/-- The node sends on its connection. -/
theorem Intact.nodeSends (intact : Intact nodeHost host gcm devId key world)
    {send : ConnInfo → Checked (SendResult maxMsgLen)}
    (sends : ∀ connInfo result, send connInfo = .ok result →
      Sends nodeHost (FromNode gcm world.node.pointerToKey.bytes devId) connInfo result)
    (stepped : world.nodeSends send = .ok next) : Intact nodeHost host gcm devId key next := by
  unfold World.nodeSends at stepped
  split at stepped
  · obtain rfl := Except.ok.inj stepped
    exact intact
  · rename_i current _
    split at stepped
    · obtain rfl := Except.ok.inj stepped
      exact intact
    · rename_i link found
      obtain ⟨result, ran, stepped⟩ := bind_eq_ok.mp stepped
      obtain rfl := Except.ok.inj stepped
      have sent := sends _ _ ran
      rw [intact.nodeKey] at sent
      refine intact.quiet ?_ rfl intact.nodeKey rfl ?_
      · exact grown_set found rfl (List.prefix_append _ _) (List.prefix_refl _)
      · intro other old known
        by_cases same : current = other
        · subst same
          rw [List.getElem?_set_self (List.getElem?_eq_some_iff.mp found).1] at known
          obtain rfl := Option.some.inj known
          exact (intact.linked current link found).send sent
        · rw [List.getElem?_set_ne same] at known
          exact intact.linked other old known

/-- The server is handed the node's next frame. -/
theorem Intact.serverReceives (intact : Intact nodeHost host gcm devId key world)
    {frame : FrameRef} {bytes : Bytes} {env : ServerEnv} {msg : Block maxMsgLen}
    (found : world.connections[index]? = some link) (known : world.frame? frame = some bytes)
    (own : frame.connection = index) (sender : frame.sender = .node)
    (place : frame.place = world.handed .server index)
    (stepped : serverReceives host gcm ecdh world index frame bytes link env msg = .ok next) :
    Intact nodeHost host gcm devId key next := by
  obtain ⟨filled, wrote, stepped⟩ := bind_eq_ok.mp stepped
  obtain ⟨result, ran, stepped⟩ := bind_eq_ok.mp stepped
  obtain ⟨rest, content⟩ := front_of_write wrote
  obtain ⟨devInfo, registered, rfl⟩ := intact.registered
  have sent : link.fromNode[world.handed .server index]? = some bytes := by
    rw [World.frame?, own, found, sender, place] at known
    exact known
  obtain ⟨linked, updated, numbered⟩ :=
    (intact.linked index link found).serverReceives registered sent content ran
  obtain rfl := Except.ok.inj stepped
  refine intact.deliver found rfl (List.prefix_refl _) (List.prefix_append _ _) rfl rfl own place
    intact.nodeKey (registered_updated updated registered) ?_ ?_
  · rw [handed_snoc .server index rfl, handed_snoc .node index rfl, sessionMessages_snoc,
      sessionMessages_snoc]
    by_cases noSession : link.serverEnd.sessionId = 0
    · simpa [serverDelivery, noSession] using linked
    · simpa [serverDelivery, noSession] using linked
  · intro established
    obtain ⟨iv, enc, container, pckGSettings, vector, -, rfl⟩ := numbered established
    refine ⟨_, known, ?_⟩
    simp only [serverDelivery, orderOf, sender]
    exact recovers_frame host vector _ _ _ _

/-- The node is handed the server's next frame. -/
theorem Intact.nodeReceives (intact : Intact nodeHost host gcm devId key world)
    {frame : FrameRef} {bytes : Bytes} {env : NodeEnv} {message : Block maxMsgLen}
    (found : world.connections[index]? = some link) (known : world.frame? frame = some bytes)
    (own : frame.connection = index) (sender : frame.sender = .server)
    (place : frame.place = world.handed .node index)
    (stepped : nodeReceives nodeHost gcm ecdh world index frame bytes link env message =
      .ok next) :
    Intact nodeHost host gcm devId key next := by
  obtain ⟨filled, wrote, stepped⟩ := bind_eq_ok.mp stepped
  obtain ⟨result, ran, stepped⟩ := bind_eq_ok.mp stepped
  obtain ⟨rest, content⟩ := front_of_write wrote
  have nodeKey := intact.nodeKey
  subst nodeKey
  have sent : link.fromServer[world.handed .node index]? = some bytes := by
    rw [World.frame?, own, found, sender, place] at known
    exact known
  obtain ⟨linked, sameKey, numbered⟩ :=
    (intact.linked index link found).nodeReceives sent content ran
  obtain rfl := Except.ok.inj stepped
  refine intact.deliver found rfl (List.prefix_refl _) (List.prefix_refl _) rfl rfl own place
    sameKey intact.registered ?_ ?_
  · rw [handed_snoc .server index rfl, handed_snoc .node index rfl, sessionMessages_snoc,
      sessionMessages_snoc]
    by_cases noSession : link.nodeEnd.sessionId = 0
    · simpa [nodeDelivery, noSession] using linked
    · simpa [nodeDelivery, noSession] using linked
  · intro established
    obtain ⟨iv, enc, add, pckGSettings, vector, -, rfl⟩ := numbered established
    refine ⟨_, known, ?_⟩
    simp only [nodeDelivery, orderOf, sender]
    exact recovers_frame nodeHost vector _ _ _ _

/-- An event that hands nothing over out of its turn keeps the world intact. -/
theorem intact_step {event : Event} (intact : Intact nodeHost host gcm devId key world)
    (inTurn : InTurn world event)
    (stepped : step nodeHost host gcm ecdh devId world event = .ok next) :
    Intact nodeHost host gcm devId key next := by
  cases event with
  | connected socket newFd =>
      obtain rfl := Except.ok.inj stepped
      exact intact.accepting socket newFd _
  | intruded newFd =>
      obtain rfl := Except.ok.inj stepped
      exact intact.accepting 0 newFd world.current
  | startedSession addMalloced draw outBuf =>
      exact intact.nodeSends (fun connInfo result ran => startSession_sends ran) stepped
  | sent addMalloced encryptedMalloced draw cmdInfo outBuf =>
      exact intact.nodeSends (fun connInfo result ran => sendNodeMessage_sends rfl ran) stepped
  | queued addressee command =>
      obtain rfl := Except.ok.inj stepped
      exact intact.quiet (.refl_of rfl) rfl intact.nodeKey rfl intact.linked
  | handedToServer index frame env msg =>
      obtain ⟨own, sender, place⟩ := inTurn
      simp only [step] at stepped
      split at stepped
      · rename_i link bytes found known
        exact intact.serverReceives found known own sender place stepped
      · obtain rfl := Except.ok.inj stepped
        exact intact
  | handedToNode frame env message =>
      obtain ⟨current, sender, place⟩ := inTurn
      simp only [step, current] at stepped
      split at stepped
      · rename_i index bytes same known
        obtain rfl := Option.some.inj same
        split at stepped
        · rename_i link found
          exact intact.nodeReceives found known rfl sender place stepped
        · obtain rfl := Except.ok.inj stepped
          exact intact
      · obtain rfl := Except.ok.inj stepped
        exact intact

/-- The world is intact at the start. -/
theorem intact_start (nodeHost host : ByteOrder) (gcm : Gcm) (ends : Ends) :
    Intact nodeHost host gcm ends.devId ends.node.pointerToKey (startWorld ends) where
  nodeKey := rfl
  registered := ⟨ends.devInfo, ends.registered, ends.sameKey⟩
  linked index link known := by simp [startWorld] at known
  existing delivery inside := by simp [startWorld] at inside
  inTurn delivery inside := by simp [startWorld] at inside
  distinct := .nil
  expected earlier delivery later split := by simp [startWorld] at split

end Whole

/-- In every run in which every frame is handed over once and in its turn, nothing is acted on
twice, nothing from another connection is acted on, and every number is the expected one. -/
theorem protected_along (nodeHost host : ByteOrder) (gcm : Gcm) (ecdh : Ecdh) (ends : Ends)
    {events : List Event}
    (along : Along (step nodeHost host gcm ecdh ends.devId) (startWorld ends)
      (fun _ world event => InTurn world event) events) :
    Throughout (step nodeHost host gcm ecdh ends.devId) (startWorld ends)
      (ReplayProtected nodeHost host gcm ends.node.pointerToKey.bytes) events := by
  have intact : Throughout (step nodeHost host gcm ecdh ends.devId) (startWorld ends)
      (Intact nodeHost host gcm ends.devId ends.node.pointerToKey) events := by
    refine throughout_of_along _ (intact_start nodeHost host gcm ends) ?_ along
    intro before world event next holds inTurn stepped
    exact intact_step holds inTurn stepped
  intro before rest split reached ran
  exact intact_protected (intact before rest split reached ran)

/-- AES-GCM under the zero key and the zero vector: its keystream and its tags over the frames of
the two runs below. -/
def recordedGcm : Gcm :=
  { keystream := fun _ _ index =>
      [3, 136, 218, 206, 96, 182, 163, 146, 243, 40, 194, 185, 113, 178, 254, 120, 247, 149, 170,
        171, 73, 75, 89, 35, 247, 253, 137, 255, 148, 139, 193, 224, 32, 2, 17, 33, 78,
        115].getD index 0
    authenticate := fun _ _ add cipher =>
      .holding tagLen
        (if cipher.length = 38 then
          [127, 169, 219, 180, 87, 92, 29, 55, 108, 179, 189, 49, 161, 221, 223, 110]
        else if cipher.length = 32 then
          [250, 107, 34, 10, 61, 6, 181, 106, 4, 43, 47, 86, 94, 105, 24, 37]
        else if add.length = 32 then
          [199, 119, 9, 89, 22, 69, 231, 158, 162, 177, 134, 163, 166, 30, 83, 240]
        else [183, 235, 70, 213, 183, 174, 2, 52, 197, 82, 99, 210, 144, 190, 117, 41]) }

/-- A text of the node. -/
def textInfo : NodeCmdInfo :=
  { devId := default
    devType := 2
    opcode := 1
    argsLen := 2
    args := [104, 105] }

/-- The server draws 2. -/
def drawingTwo : ServerEnv :=
  { (default : ServerEnv) with draws := fun _ => { (default : Draw) with localNonce := 2 } }

/-- The two ends begin a session, and the node sends a text. -/
def honestRun : List Event :=
  [.connected 3 4,
    .startedSession default { (default : Draw) with localNonce := 1 } default,
    .handedToServer 0 ⟨0, .node, 0⟩ drawingTwo default,
    .handedToNode ⟨0, .server, 0⟩ default default,
    .sent default default default textInfo default,
    .handedToServer 0 ⟨0, .node, 1⟩ default default]

/-- The frame with the text comes again. Then a command waits for the node, and somebody else
connects and sends the first frame of the node. -/
def replayingRun : List Event :=
  honestRun ++
    [.handedToServer 0 ⟨0, .node, 1⟩ default default,
      .queued (List.replicate devIdLen 0) CommandDelivery.passcodeCommand,
      .intruded 5,
      .handedToServer 1 ⟨0, .node, 0⟩ drawingTwo default]

/-- A run in which every frame is delivered once. -/
theorem honestRun_protected :
    Throughout (step .little .little recordedGcm degenerateEcdh default)
      (startWorld (Handshake.sampleEnds []))
      (ReplayProtected .little .little recordedGcm (List.replicate keyLen 0)) honestRun :=
  protected_along .little .little recordedGcm degenerateEcdh (Handshake.sampleEnds [])
    (by decide +kernel)

/-- The server dispatches the text twice, and hands the command over because of a frame of the
connection before. -/
theorem replayed_frames_acted_on :
    (runFrom (step .little .little recordedGcm degenerateEcdh default)
      (startWorld (Handshake.sampleEnds [])) replayingRun).map (fun world =>
        ((world.deliveries.filter fun delivery =>
            delivery.receiver = .server ∧ delivery.dispatched = true).map Delivery.frame,
          world.deliveries.getLast?.map fun delivery =>
            (delivery.receiver, delivery.connection, delivery.frame, delivery.released))) =
      .ok
        ([⟨0, .node, 1⟩, ⟨0, .node, 1⟩], some (.server, 1, ⟨0, .node, 0⟩, true)) ∧
    ¬ Throughout (step .little .little recordedGcm degenerateEcdh default)
      (startWorld (Handshake.sampleEnds []))
      (ReplayProtected .little .little recordedGcm (List.replicate keyLen 0)) replayingRun := by
  have ran : (runFrom (step .little .little recordedGcm degenerateEcdh default)
      (startWorld (Handshake.sampleEnds [])) replayingRun).map (fun world =>
        ((world.deliveries.filter fun delivery =>
            delivery.receiver = .server ∧ delivery.dispatched = true).map Delivery.frame,
          world.deliveries.getLast?.map fun delivery =>
            (delivery.receiver, delivery.connection, delivery.frame, delivery.released))) =
      .ok
        ([⟨0, .node, 1⟩, ⟨0, .node, 1⟩], some (.server, 1, ⟨0, .node, 0⟩, true)) := by
    decide +kernel
  refine ⟨ran, fun throughout => ?_⟩
  obtain ⟨world, reached, seen⟩ := map_eq_ok.mp ran
  have once := (throughout replayingRun [] (List.append_nil _).symm world reached).once .server
  rw [(Prod.mk.inj seen).1] at once
  exact (List.nodup_cons.mp once).1 (List.mem_singleton.mpr rfl)

end RentMate.ReplayProtection
