/-
Module: RentMate.Proofs.ServerSteps
Purpose: What one frame can do to the server, said once for every branch of `processMsg`, and
  what follows for the connection, the registry and the queue.
Trusted boundary: none
Main exports: Processed, processMsg_cases, Acted, processDecrypted_acted
-/
import RentMate.MainServer.Server
import RentMate.Machine.Growth

namespace RentMate.ServerSteps

open RentMate.Machine
open RentMate.PckData
open RentMate.MainServer

variable {host : ByteOrder} {gcm : Gcm} {ecdh : Ecdh}

/-! ### Sending on a connection -/

section Sending

variable {size : Nat} {connInfo : ConnInfo} {ctx : Option Bytes}
  {pckData addDataPck extraDataPck : Option (Block pckDataIncrements)}
  {pckGSettings nonce : UInt32} {draw : Draw} {outBuf : Block size} {result : SendResult size}

/-- The fields of a connection that sending leaves alone. -/
def SameLink (before after : ConnInfo) : Prop :=
  after.socket = before.socket ∧ after.connectionType = before.connectionType

/-- A connection is the same link as itself. -/
theorem SameLink.refl (connInfo : ConnInfo) : SameLink connInfo connInfo := ⟨rfl, rfl⟩

/-- Links are compared one after the other. -/
theorem SameLink.trans {before between after : ConnInfo} (first : SameLink before between)
    (second : SameLink between after) : SameLink before after :=
  ⟨second.1.trans first.1, second.2.trans first.2⟩

/-- A message that is composed is sent, and the connection is handed on. -/
theorem sendMessage_connInfo {connInfo : Option ConnInfo} {newIv : Block ivLen}
    (ran : sendMessage host gcm connInfo ctx pckData addDataPck extraDataPck pckGSettings nonce
      newIv outBuf = .ok result) :
    result.connInfo = connInfo ∧ ∃ sent, result.sent = some sent := by
  unfold sendMessage at ran
  obtain ⟨⟨msgLen, composed⟩, -, ran⟩ := bind_eq_ok.mp ran
  obtain ⟨sent, -, ran⟩ := bind_eq_ok.mp ran
  obtain rfl := Except.ok.inj ran
  exact ⟨rfl, sent, rfl⟩

/-- A send goes on with the same connection, whether or not it sends. -/
theorem encryptAndSendAll_link
    (ran : encryptAndSendAll host gcm (some connInfo) ctx pckData addDataPck extraDataPck
      pckGSettings draw outBuf = .ok result) :
    SameLink connInfo (result.connInfo.getD connInfo) := by
  unfold encryptAndSendAll at ran
  split at ran
  · rename_i impossible
    cases impossible
  · rename_i given
    cases given
    split at ran
    · rw [(sendMessage_connInfo ran).1]
      exact ⟨rfl, rfl⟩
    · split at ran
      · obtain rfl := Except.ok.inj ran
        exact ⟨rfl, rfl⟩
      · rw [(sendMessage_connInfo ran).1]
        exact ⟨rfl, rfl⟩

/-- Without a connection one frame is sent. -/
theorem encryptAndSendAll_alone
    (ran : encryptAndSendAll host gcm none ctx pckData addDataPck extraDataPck pckGSettings draw
      outBuf = .ok result) :
    ∃ sent, result.sent = some sent :=
  (sendMessage_connInfo ran).2

end Sending

/-! ### The branches of `processMsg` -/

section Branches

variable {env : ServerEnv} {connInfo : ConnInfo} {server : ServerState} {msg : Block maxMsgLen}
  {result : ServerResult}

/-- Where `processMsg` looks for the ADD container of a frame. -/
def addPckDataPtr (host : ByteOrder) (extraMsgLenWord : UInt32) : Nat :=
  headerLen + (ntohl host extraMsgLenWord).toNat + protocolSpecificAddLen

/-- `processMsg` reads an identity from the frame, after it has printed the frame. -/
def Names (host : ByteOrder) (env : ServerEnv) (msg : Block maxMsgLen) (identity : Identity)
    (left : Block maxMsgLen) : Prop :=
  ∃ extraMsgLenWord printed, msg.load32 host 8 = .ok extraMsgLenWord ∧
    printMessage host msg true true = .ok printed ∧
    readIdentity host env printed (addPckDataPtr host extraMsgLenWord) = .ok (some identity, left)

/-- What one frame can lead to. -/
inductive Processed (host : ByteOrder) (gcm : Gcm) (ecdh : Ecdh) (env : ServerEnv)
    (connInfo : ConnInfo) (server : ServerState) (msg : Block maxMsgLen) : ServerResult → Prop where
  | ofUser (user : connInfo.connectionType ≠ 0) :
      Processed host gcm ecdh env connInfo server msg
        { returnValue := none
          connInfo := connInfo
          server := server
          msg := Block.fill maxMsgLen 0
          sent := []
          called := none }
  | nameless (left : Block maxMsgLen) :
      Processed host gcm ecdh env connInfo server msg
        { returnValue := some (-1)
          connInfo := connInfo
          server := server
          msg := left
          sent := []
          called := none }
  | unknown {identity : Identity} {left : Block maxMsgLen} {result : ServerResult}
      (node : connInfo.connectionType = 0) (names : Names host env msg identity left)
      (unregistered : findDevInfo server.devInfos identity.devIdFromMessage.bytes = none)
      (ran : registerDevice host gcm ecdh env connInfo server left
        (headerLen + protocolSpecificExtraDataLen) identity = .ok result) :
      Processed host gcm ecdh env connInfo server msg result
  | rejected {identity : Identity} {left : Block maxMsgLen} {devInfo : DevInfo}
      {decrypted : Decrypted maxMsgLen maxMsgLen}
      (node : connInfo.connectionType = 0) (names : Names host env msg identity left)
      (registered : findDevInfo server.devInfos identity.devIdFromMessage.bytes = some devInfo)
      (ran : decryptPckData host gcm devInfo.key.bytes left server.decryptedMsgBuffer =
        .ok decrypted)
      (failed : decrypted.returnValue ≠ 0) :
      Processed host gcm ecdh env connInfo server msg
        { returnValue := some (-1)
          connInfo := connInfo
          server := { server with decryptedMsgBuffer := decrypted.outputBuf }
          msg := decrypted.encryptedMsg
          sent := []
          called := none }
  | accepted {identity : Identity} {left opened : Block maxMsgLen} {devInfo : DevInfo}
      {decrypted : Decrypted maxMsgLen maxMsgLen} {encryptedDataPtr : Nat} {result : ServerResult}
      (node : connInfo.connectionType = 0) (names : Names host env msg identity left)
      (registered : findDevInfo server.devInfos identity.devIdFromMessage.bytes = some devInfo)
      (ran : decryptPckData host gcm devInfo.key.bytes left server.decryptedMsgBuffer =
        .ok decrypted)
      (succeeded : decrypted.returnValue = 0)
      (acted : processDecrypted host gcm env connInfo
        { server with decryptedMsgBuffer := decrypted.outputBuf } opened encryptedDataPtr devInfo
        identity.devIdFromMessage.bytes = .ok result) :
      Processed host gcm ecdh env connInfo server msg result

/-- What the callback does to a frame: one case for each branch of the source. -/
theorem processMsg_cases
    (ran : processMsg host gcm ecdh env connInfo server msg = .ok result) :
    Processed host gcm ecdh env connInfo server msg result := by
  unfold processMsg at ran
  obtain ⟨msgLenWord, -, ran⟩ := bind_eq_ok.mp ran
  obtain ⟨addMsgLenWord, -, ran⟩ := bind_eq_ok.mp ran
  obtain ⟨extraMsgLenWord, extraLoaded, ran⟩ := bind_eq_ok.mp ran
  obtain ⟨printed, shown, ran⟩ := bind_eq_ok.mp ran
  split at ran
  · rename_i node
    obtain ⟨⟨found, left⟩, identified, ran⟩ := bind_eq_ok.mp ran
    cases found with
    | none =>
        obtain rfl := Except.ok.inj ran
        exact .nameless left
    | some identity =>
        have names : Names host env msg identity left :=
          ⟨extraMsgLenWord, printed, extraLoaded, shown, identified⟩
        simp only at ran
        split at ran
        · rename_i unregistered
          exact .unknown node names unregistered ran
        · rename_i devInfo registered
          obtain ⟨decrypted, opened, ran⟩ := bind_eq_ok.mp ran
          simp only at ran
          split at ran
          · rename_i failed
            obtain rfl := Except.ok.inj ran
            exact .rejected node names registered opened failed
          · rename_i succeeded
            obtain ⟨plain, -, ran⟩ := bind_eq_ok.mp ran
            obtain ⟨filled, -, ran⟩ := bind_eq_ok.mp ran
            obtain ⟨shownAgain, -, ran⟩ := bind_eq_ok.mp ran
            exact .accepted node names registered opened (not_not.mp succeeded) ran
  · rename_i user
    obtain rfl := Except.ok.inj ran
    exact .ofUser user

end Branches

/-! ### The registry -/

section Registry

variable {devInfos changed further : List DevInfo} {devId : Bytes} {devInfo : DevInfo}

/-- What a frame for one device may do to an entry: nothing to that of another device, and
nothing to the DEVID or the key of any. -/
def Revised (devId : Bytes) (old new : DevInfo) : Prop :=
  new.devId = old.devId ∧ new.key = old.key ∧ (old.devId.bytes ≠ devId → new = old)

/-- A device that is left as it is has been revised. -/
theorem Revised.refl (devInfo : DevInfo) : Revised devId devInfo devInfo :=
  ⟨rfl, rfl, fun _ => rfl⟩

/-- Two revisions are one. -/
theorem Revised.trans {old new newer : DevInfo} (first : Revised devId old new)
    (second : Revised devId new newer) : Revised devId old newer := by
  refine ⟨second.1.trans first.1, second.2.1.trans first.2.1, fun other => ?_⟩
  rw [← first.2.2 other]
  exact second.2.2 (by rwa [first.1])

/-- At most the entry of one device has changed, and not in its DEVID or its key. -/
def UpdatedFor (devId : Bytes) (before after : List DevInfo) : Prop :=
  List.Forall₂ (Revised devId) before after

/-- Leaving all devices as they are is an update. -/
theorem UpdatedFor.refl (devId : Bytes) (devInfos : List DevInfo) :
    UpdatedFor devId devInfos devInfos :=
  List.forall₂_same.mpr fun devInfo _ => Revised.refl devInfo

/-- Two updates for one device are one. -/
theorem UpdatedFor.trans (first : UpdatedFor devId devInfos changed)
    (second : UpdatedFor devId changed further) : UpdatedFor devId devInfos further :=
  Grows.revised_trans Revised.trans first second

/-- Updating the first entry of a device is an update for that device, if it keeps identifier and
key. -/
theorem updateDevInfo_updatedFor {update : DevInfo → Checked DevInfo}
    (keeps : ∀ old new, update old = .ok new → new.devId = old.devId ∧ new.key = old.key)
    (ran : updateDevInfo devId update devInfos = .ok changed) :
    UpdatedFor devId devInfos changed := by
  induction devInfos generalizing changed with
  | nil =>
      obtain rfl := Except.ok.inj ran
      exact .nil
  | cons devInfo rest ih =>
      rw [updateDevInfo] at ran
      split at ran
      · rename_i own
        obtain ⟨updated, ranUpdate, ran⟩ := bind_eq_ok.mp ran
        obtain rfl := Except.ok.inj ran
        obtain ⟨sameId, sameKey⟩ := keeps _ _ ranUpdate
        exact .cons ⟨sameId, sameKey, fun other => absurd own other⟩ (UpdatedFor.refl devId rest)
      · obtain ⟨behind, ranBehind, ran⟩ := bind_eq_ok.mp ran
        obtain rfl := Except.ok.inj ran
        exact .cons (.refl _) (ih ranBehind)

/-- A handler leaves the list, or it updates the device that it is called for, and what it updates
is the report of a beacon only. -/
theorem runServerCommand_cases {call : ServerCall} {password : Block 12}
    (ran : runServerCommand devInfos call password = .ok changed) :
    changed = devInfos ∨
      ∃ update, updateDevInfo call.devId update devInfos = .ok changed ∧
        ∀ old new : DevInfo, update old = .ok new →
          new.devId = old.devId ∧ new.key = old.key ∧ new.devType = old.devType := by
  unfold runServerCommand at ran
  split at ran
  · unfold nodeToServerBeacon at ran
    obtain ⟨_, -, ran⟩ := bind_eq_ok.mp ran
    split at ran
    · unfold smartLockBeacon at ran
      obtain ⟨_, -, ran⟩ := bind_eq_ok.mp ran
      obtain ⟨_, -, ran⟩ := bind_eq_ok.mp ran
      obtain ⟨_, -, ran⟩ := bind_eq_ok.mp ran
      obtain ⟨_, -, ran⟩ := bind_eq_ok.mp ran
      obtain ⟨_, -, ran⟩ := bind_eq_ok.mp ran
      refine .inr ⟨_, ran, fun old new updated => ?_⟩
      obtain ⟨_, -, updated⟩ := bind_eq_ok.mp updated
      obtain ⟨_, -, updated⟩ := bind_eq_ok.mp updated
      obtain rfl := Except.ok.inj updated
      exact ⟨rfl, rfl, rfl⟩
    · split at ran
      · unfold noiseMonitorBeacon at ran
        obtain ⟨_, -, ran⟩ := bind_eq_ok.mp ran
        refine .inr ⟨_, ran, fun old new updated => ?_⟩
        obtain rfl := Except.ok.inj updated
        exact ⟨rfl, rfl, rfl⟩
      · exact .inl (Except.ok.inj ran).symm
  · obtain ⟨_, -, ran⟩ := bind_eq_ok.mp ran
    exact .inl (Except.ok.inj ran).symm

/-- A handler changes at most the device that it is called for. -/
theorem runServerCommand_updatedFor {call : ServerCall} {password : Block 12}
    (ran : runServerCommand devInfos call password = .ok changed) :
    UpdatedFor call.devId devInfos changed := by
  rcases runServerCommand_cases ran with rfl | ⟨update, updated, keeps⟩
  · exact .refl _ _
  · refine updateDevInfo_updatedFor (fun old new given => ?_) updated
    obtain ⟨sameId, sameKey, -⟩ := keeps old new given
    exact ⟨sameId, sameKey⟩

/-- The entry that is found has the identifier that was looked for. -/
theorem findDevInfo_devId (found : findDevInfo devInfos devId = some devInfo) :
    devInfo.devId.bytes = devId := by
  have holds := List.find?_some found
  simpa using holds

end Registry

/-! ### What an accepted frame does -/

section Acting

variable {env : ServerEnv} {connInfo : ConnInfo} {server : ServerState} {msg : Block maxMsgLen}
  {result : ServerResult} {devInfo : DevInfo} {devId : Bytes} {remoteNonce : UInt32}
  {sent : List Bytes} {encryptedPckDataPtr : Nat}

/-- What a frame may do on behalf of one device. -/
structure Acted (devId : Bytes) (connInfo : ConnInfo) (server : ServerState)
    (result : ServerResult) : Prop where
  link : SameLink connInfo result.connInfo
  registry : UpdatedFor devId server.devInfos result.server.devInfos
  saved : result.server.savedDevices = server.savedDevices
  queue : result.server.commandsQueue = server.commandsQueue ∨
    result.server.commandsQueue = leftBehind devId server.commandsQueue
  onBehalf : ∀ call, result.called = some call → call.devId = devId

/-- A command that is sent off is composed, and encrypted with the key of a device. -/
theorem sendOffCommand_cases {devInfos : List DevInfo} {command : CommandRequestCommand}
    {outgoing next : Outgoing}
    (ran : sendOffCommand host gcm devInfos devId env command outgoing = .ok next) :
    ∃ addPckData encryptedPckData, ∃ (key : Block keyLen) (sentOne : SendResult maxMsgLen),
      commandAddData host (env.malloced (2 * outgoing.handed)) command = .ok addPckData ∧
      commandEncryptedData host (env.malloced (2 * outgoing.handed + 1)) command =
        .ok encryptedPckData ∧
      encryptAndSendAll host gcm (some outgoing.connInfo) (some key.bytes)
        (some encryptedPckData) addPckData none command.gSettings
        (env.draws (outgoing.handed + 1)) outgoing.sendProcessingBuffer = .ok sentOne ∧
      next =
        { connInfo := sentOne.connInfo.getD outgoing.connInfo
          sendProcessingBuffer := sentOne.outBuf
          sent := outgoing.sent ++ sentOne.sent.toList
          handed := outgoing.handed + 1 } := by
  obtain ⟨addPckData, ranAdd, ran⟩ := bind_eq_ok.mp ran
  obtain ⟨encryptedPckData, ranEncrypted, ran⟩ := bind_eq_ok.mp ran
  split at ran
  · cases ran
  · obtain ⟨sentOne, ranSend, ran⟩ := bind_eq_ok.mp ran
    exact ⟨addPckData, encryptedPckData, _, sentOne, ranAdd, ranEncrypted, ranSend,
      (Except.ok.inj ran).symm⟩

/-- Sending commands goes on with the same connection. -/
theorem sendOffCommands_link {devInfos : List DevInfo} {commands : List CommandRequestCommand}
    {outgoing reached : Outgoing}
    (ran : sendOffCommands (sendOffCommand host gcm devInfos devId env) commands outgoing =
      .ok reached) :
    SameLink outgoing.connInfo reached.connInfo := by
  induction commands generalizing outgoing with
  | nil =>
      obtain rfl := Except.ok.inj ran
      exact .refl _
  | cons command commands ih =>
      obtain ⟨next, ranOne, ranRest⟩ := bind_eq_ok.mp ran
      refine SameLink.trans ?_ (ih ranRest)
      obtain ⟨_, _, _, sentOne, -, -, ranSend, rfl⟩ := sendOffCommand_cases ranOne
      exact encryptAndSendAll_link ranSend

/-- Releasing the queued commands acts for the device alone. -/
theorem releaseCommands_acted
    (ran : releaseCommands host gcm env connInfo server devId sent = .ok result) :
    Acted devId connInfo server result := by
  unfold releaseCommands at ran
  rw [sendQueuedMessages_eq] at ran
  obtain ⟨⟨commandsQueue, outgoing⟩, released, ran⟩ := bind_eq_ok.mp ran
  obtain ⟨reached, ranSends, released⟩ := bind_eq_ok.mp released
  obtain ⟨rfl, rfl⟩ := Prod.mk.inj (Except.ok.inj released)
  obtain rfl := Except.ok.inj ran
  exact
    { link := sendOffCommands_link ranSends
      registry := .refl _ _
      saved := rfl
      queue := .inr rfl
      onBehalf := fun call impossible => by cases impossible }

/-- Answering a nonce acts for the device alone. -/
theorem answerNonce_acted (own : devInfo.devId.bytes = devId)
    (ran : answerNonce host gcm env connInfo server devInfo remoteNonce = .ok result) :
    Acted devId connInfo server result := by
  unfold answerNonce at ran
  obtain ⟨answer, ranSend, ran⟩ := bind_eq_ok.mp ran
  have acted := releaseCommands_acted ran
  rw [own] at acted
  exact
    { acted with
      link := (encryptAndSendAll_link ranSend).trans acted.link }

/-- Taking a nonce acts for the device alone. -/
theorem takeNonce_acted (own : devInfo.devId.bytes = devId)
    (ran : takeNonce host gcm env connInfo server devInfo remoteNonce = .ok result) :
    Acted devId connInfo server result := by
  have acted := releaseCommands_acted ran
  rw [own] at acted
  exact { acted with link := acted.link }

/-- What a message of the session does: the type of its device is set, and one handler is called,
whose changes are the only ones. -/
theorem dispatchMessage_cases
    (ran : dispatchMessage host env connInfo server msg encryptedPckDataPtr devId = .ok result) :
    ∃ (devtype : UInt32) (call : ServerCall) (devInfos changed : List DevInfo),
      updateDevInfo devId (fun devInfo => .ok { devInfo with devType := devtype })
          server.devInfos = .ok devInfos ∧
        call.devId = devId ∧
        runServerCommand devInfos call env.password = .ok changed ∧
        result =
          { returnValue := none
            connInfo := connInfo
            server := { server with devInfos := changed }
            msg := Block.fill maxMsgLen 0
            sent := []
            called := some call } := by
  obtain ⟨⟨_, devtypeBytes⟩, -, ran⟩ := bind_eq_ok.mp ran
  obtain ⟨_, -, ran⟩ := bind_eq_ok.mp ran
  obtain ⟨argsLen, -, ran⟩ := bind_eq_ok.mp ran
  split at ran
  · cases ran
  · obtain ⟨_, -, ran⟩ := bind_eq_ok.mp ran
    obtain ⟨devInfos, updated, ran⟩ := bind_eq_ok.mp ran
    obtain ⟨command, -, ran⟩ := bind_eq_ok.mp ran
    obtain ⟨changed, ranCommand, ran⟩ := bind_eq_ok.mp ran
    exact ⟨_, _, devInfos, changed, updated, rfl, ranCommand, (Except.ok.inj ran).symm⟩

/-- Dispatching a message acts for the device alone. -/
theorem dispatchMessage_acted
    (ran : dispatchMessage host env connInfo server msg encryptedPckDataPtr devId = .ok result) :
    Acted devId connInfo server result := by
  obtain ⟨devtype, call, devInfos, changed, updated, rfl, ranCommand, rfl⟩ :=
    dispatchMessage_cases ran
  refine
    { link := .refl _
      registry := .trans (updateDevInfo_updatedFor ?_ updated)
        (runServerCommand_updatedFor ranCommand)
      saved := rfl
      queue := .inl rfl
      onBehalf := fun other called => by cases called; rfl }
  intro old new typed
  obtain rfl := Except.ok.inj typed
  exact ⟨rfl, rfl⟩

/-- Whatever branch a decrypted frame takes, it acts for the device it was decrypted for. -/
theorem processDecrypted_acted (own : devInfo.devId.bytes = devId)
    (ran : processDecrypted host gcm env connInfo server msg encryptedPckDataPtr devInfo devId =
      .ok result) :
    Acted devId connInfo server result := by
  unfold processDecrypted at ran
  split at ran
  · obtain ⟨_, -, ran⟩ := bind_eq_ok.mp ran
    exact answerNonce_acted own ran
  · split at ran
    · obtain ⟨_, -, ran⟩ := bind_eq_ok.mp ran
      exact takeNonce_acted own ran
    · split at ran
      · exact dispatchMessage_acted ran
      · obtain rfl := Except.ok.inj ran
        exact
          { link := .refl _
            registry := .refl _ _
            saved := rfl
            queue := .inl rfl
            onBehalf := fun call impossible => by cases impossible }

end Acting

/-! ### What a frame of an unknown device does -/

section Registering

variable {env : ServerEnv} {connInfo : ConnInfo} {server : ServerState} {msg : Block maxMsgLen}
  {result : ServerResult} {extraDataPckPtr : Nat} {identity : Identity}

/-- One entry is appended, in memory and in the file, and one frame is sent. -/
structure Registered (identity : Identity) (connInfo : ConnInfo) (server : ServerState)
    (result : ServerResult) : Prop where
  connInfo : result.connInfo = connInfo
  registry : ∃ newDevInfo : DevInfo, newDevInfo.devId = identity.devIdFromMessage ∧
    result.server.devInfos = server.devInfos ++ [newDevInfo] ∧
    result.server.savedDevices = server.savedDevices ++ [newDevInfo]
  queue : result.server.commandsQueue = server.commandsQueue
  reply : ∃ frame, result.sent = [frame]
  called : result.called = none

/-- A registration adds one device at most, under the identity of the frame. -/
theorem registerDevice_registered
    (ran : registerDevice host gcm ecdh env connInfo server msg extraDataPckPtr identity =
      .ok result) :
    Registered identity connInfo server result := by
  unfold registerDevice at ran
  obtain ⟨_, -, ran⟩ := bind_eq_ok.mp ran
  obtain ⟨_, -, ran⟩ := bind_eq_ok.mp ran
  obtain ⟨_, -, ran⟩ := bind_eq_ok.mp ran
  obtain ⟨_, -, ran⟩ := bind_eq_ok.mp ran
  obtain ⟨_, -, ran⟩ := bind_eq_ok.mp ran
  obtain ⟨answer, ranSend, ran⟩ := bind_eq_ok.mp ran
  obtain rfl := Except.ok.inj ran
  obtain ⟨frame, sentOne⟩ := encryptAndSendAll_alone ranSend
  exact
    { connInfo := rfl
      registry := ⟨_, rfl, rfl, rfl⟩
      queue := rfl
      reply := ⟨frame, by simp [sentOne]⟩
      called := rfl }

end Registering

/-- No frame changes a connection's socket or type. -/
theorem processMsg_link {env : ServerEnv} {connInfo : ConnInfo} {server : ServerState}
    {msg : Block maxMsgLen} {result : ServerResult}
    (ran : processMsg host gcm ecdh env connInfo server msg = .ok result) :
    SameLink connInfo result.connInfo := by
  cases processMsg_cases ran with
  | ofUser => exact .refl _
  | nameless => exact .refl _
  | unknown _ _ _ registering =>
      rw [(registerDevice_registered registering).connInfo]
      exact .refl _
  | rejected => exact .refl _
  | accepted _ _ registered _ _ acted =>
      exact (processDecrypted_acted (findDevInfo_devId registered) acted).link

end RentMate.ServerSteps
