/-
Module: RentMate.Proofs.OutgoingLengths
Purpose: Which commands and which messages of a node stay inside the buffer that their frame is
  composed in.
Trusted boundary: none
Main exports: Contained, encryptAndSendAll_contained_iff, sendOffCommand_contained_iff,
  sendNodeMessage_contained_iff, outgoing_contained_iff
-/
import RentMate.Proofs.CommandDelivery
import RentMate.Proofs.NodeMessageDelivery
import RentMate.Proofs.RemoteGate
import RentMate.Proofs.SendErrors

namespace RentMate.OutgoingLengths

open RentMate.Machine
open RentMate.PckData
open RentMate.MainServer
open RentMate.NodeClient (NodeState NodeCmdInfo composeNodeMessage sendNodeMessage)
open RentMate.ContainerCodec
open RentMate.MessageCodec
open RentMate.SessionCodec
open RentMate.CommandDelivery (WellFormed ContainersFit)
open RentMate.SendErrors (Ignored)

/-! ### One send -/

section Send

variable {host : ByteOrder} {gcm : Gcm} {gcmKey : Bytes}
  {pckData addDataPck : Option (Block pckDataIncrements)} {enc add : Option Container}
  {connInfo : ConnInfo} {pckGSettings : UInt32} {draw : Draw} {outBuf : Block maxMsgLen}
  {result : SendResult maxMsgLen}

/-- A send on a connection is ignored, or composes its message. -/
theorem encryptAndSendAll_cases
    (ran : encryptAndSendAll host gcm (some connInfo) (some gcmKey) pckData addDataPck none
      pckGSettings draw outBuf = .ok result) :
    (Ignored (some connInfo) ∧ result.returnValue = -1 ∧ result.outBuf = outBuf ∧
      result.sent = none ∧ result.connInfo = some connInfo) ∨
    ∃ nonce composed, composePckData host pckData addDataPck none pckGSettings nonce draw.newIv
      outBuf = .ok composed := by
  have composes : ∀ {after : ConnInfo} {nonce : UInt32},
      sendMessage host gcm (some after) (some gcmKey) pckData addDataPck none pckGSettings nonce
        draw.newIv outBuf = .ok result →
      ∃ nonce composed, composePckData host pckData addDataPck none pckGSettings nonce draw.newIv
        outBuf = .ok composed := by
    intro after nonce sent
    obtain ⟨encrypted, ranEncrypt, -⟩ := bind_eq_ok.mp sent
    obtain ⟨composed, ranCompose, -⟩ := bind_eq_ok.mp ranEncrypt
    exact ⟨nonce, composed, ranCompose⟩
  simp only [encryptAndSendAll] at ran
  split at ran
  · exact .inr (composes ran)
  · rename_i noSession
    split at ran
    · rename_i waiting
      rw [← Except.ok.inj ran]
      exact .inl ⟨⟨connInfo, rfl, not_not.mp noSession, waiting⟩, rfl, rfl, rfl, rfl⟩
    · exact .inr (composes ran)

/-- A send that is ignored looks at none of its containers. -/
theorem encryptAndSendAll_ignored (gcm : Gcm) (gcmKey : Bytes)
    (pckData addDataPck : Option (Block pckDataIncrements)) (pckGSettings : UInt32) (draw : Draw)
    (outBuf : Block maxMsgLen) (ignored : Ignored (some connInfo)) :
    encryptAndSendAll host gcm (some connInfo) (some gcmKey) pckData addDataPck none pckGSettings
        draw outBuf =
      .ok { returnValue := -1, connInfo := some connInfo, outBuf := outBuf, sent := none } := by
  obtain ⟨info, same, noSession, waiting⟩ := ignored
  obtain rfl := Option.some.inj same
  simp only [encryptAndSendAll, noSession, ne_eq, not_true, if_false, waiting, not_false_eq_true,
    if_true, pure_eq_ok]

/-- A message that fits is sent, on whatever connection. -/
theorem encryptAndSendAll_total (gcm : Gcm) (gcmKey : Bytes)
    (sendable : Sendable host pckData addDataPck enc add) (connInfo : ConnInfo)
    (pckGSettings : UInt32) (draw : Draw) (outBuf : Block maxMsgLen) :
    ∃ result, encryptAndSendAll host gcm (some connInfo) (some gcmKey) pckData addDataPck none
      pckGSettings draw outBuf = .ok result := by
  by_cases established : connInfo.sessionId = 0
  · by_cases fresh : connInfo.localNonce = 0
    · obtain ⟨out, ran⟩ := encryptAndSendAll_fresh gcm gcmKey sendable connInfo established fresh
        pckGSettings draw outBuf
      exact ⟨_, ran⟩
    · exact ⟨_, encryptAndSendAll_ignored gcm gcmKey pckData addDataPck pckGSettings draw outBuf
        ⟨connInfo, rfl, established, fresh⟩⟩
  · obtain ⟨out, ran⟩ := encryptAndSendAll_session gcm gcmKey sendable established pckGSettings
      draw outBuf
    exact ⟨_, ran⟩

/-- A send stays inside its buffers exactly where it is ignored or its message fits. -/
theorem encryptAndSendAll_ok_iff (gcm : Gcm) (gcmKey : Bytes)
    (givenEnc : Given host pckData enc) (givenAdd : Given host addDataPck add)
    (begunEnc : Begun enc) (begunAdd : Begun add) (connInfo : ConnInfo) (pckGSettings : UInt32)
    (draw : Draw) (outBuf : Block maxMsgLen) :
    (∃ result, encryptAndSendAll host gcm (some connInfo) (some gcmKey) pckData addDataPck none
        pckGSettings draw outBuf = .ok result) ↔
      Ignored (some connInfo) ∨ composedLength enc add none ≤ maxMsgLen := by
  constructor
  · rintro ⟨result, ran⟩
    rcases encryptAndSendAll_cases ran with ⟨ignored, -⟩ | ⟨nonce, composed, ranCompose⟩
    · exact .inl ignored
    · exact .inr (composePckData_fits givenEnc givenAdd .absent ranCompose)
  · rintro (ignored | fits)
    · exact ⟨_, encryptAndSendAll_ignored gcm gcmKey pckData addDataPck pckGSettings draw outBuf
        ignored⟩
    · exact encryptAndSendAll_total gcm gcmKey ⟨givenEnc, givenAdd, begunEnc, begunAdd, fits⟩
        connInfo pckGSettings draw outBuf

/-- A message that is too long and does no harm has been refused. -/
theorem encryptAndSendAll_long (givenEnc : Given host pckData enc)
    (givenAdd : Given host addDataPck add) (long : maxMsgLen < composedLength enc add none)
    (ran : encryptAndSendAll host gcm (some connInfo) (some gcmKey) pckData addDataPck none
      pckGSettings draw outBuf = .ok result) :
    result.returnValue = -1 ∧ result.outBuf = outBuf ∧ result.sent = none := by
  rcases encryptAndSendAll_cases ran with ⟨-, minus, same, nothing, -⟩ | ⟨nonce, composed, ranCompose⟩
  · exact ⟨minus, same, nothing⟩
  · exact absurd (composePckData_fits givenEnc givenAdd .absent ranCompose) (Nat.not_le.mpr long)

end Send

/-! ### The commands of the server -/

/-- `sendOffCommand` stays inside its buffers. If the message of the command is longer than the
output buffer, nothing has been written or sent. What `encryptAndSendAll` returns is not passed
on. -/
def CommandContained (host : ByteOrder) (gcm : Gcm) (devInfos : List DevInfo) (devId : Bytes)
    (env : ServerEnv) (command : CommandRequestCommand) (outgoing : Outgoing) : Prop :=
  ∃ next, sendOffCommand host gcm devInfos devId env command outgoing = .ok next ∧
    (maxMsgLen < CommandDelivery.messageLength command →
      next.sendProcessingBuffer = outgoing.sendProcessingBuffer ∧ next.sent = outgoing.sent)

section Commands

variable {host : ByteOrder} {gcm : Gcm} {devInfos : List DevInfo} {devId : Bytes}
  {env : ServerEnv} {command : CommandRequestCommand} {outgoing : Outgoing} {key : Block keyLen}

/-- Containers that have been built fit into what `initPckData` allocates. -/
theorem containersFit_of_carries {encryptedPckData : Block pckDataIncrements}
    {addPckData : Option (Block pckDataIncrements)} {container : Container}
    {add : Option Container} (wellFormed : WellFormed command)
    (carries : CommandDelivery.Carries host command container add)
    (givenEnc : Given host (some encryptedPckData) (some container))
    (givenAdd : Given host addPckData add) : ContainersFit command := by
  constructor
  · rw [← carries.encryptedLength_eq wellFormed]
    exact givenLength_le_of_given givenEnc
  · rw [← carries.addLength_eq wellFormed]
    exact givenLength_le_of_given givenAdd

/-- The containers of a command can be built exactly where they fit. -/
theorem commandData_ok_iff (host : ByteOrder) (addMalloced malloced : Block pckDataIncrements)
    (wellFormed : WellFormed command) :
    (∃ addPckData encryptedPckData, commandAddData host addMalloced command = .ok addPckData ∧
        commandEncryptedData host malloced command = .ok encryptedPckData) ↔
      ContainersFit command := by
  constructor
  · rintro ⟨addPckData, encryptedPckData, ranAdd, ranEncrypted⟩
    obtain ⟨-, container, add, carries, givenEnc, givenAdd⟩ :=
      CommandDelivery.carries_of_built ranAdd ranEncrypted
    exact containersFit_of_carries wellFormed carries givenEnc givenAdd
  · intro fit
    obtain ⟨encryptedPckData, ranEncrypted, -⟩ :=
      CommandDelivery.commandEncryptedData_ok host malloced wellFormed fit
    obtain ⟨addPckData, -, ranAdd, -⟩ :=
      CommandDelivery.commandAddData_ok host addMalloced wellFormed fit
    exact ⟨addPckData, encryptedPckData, ranAdd, ranEncrypted⟩

/-- A command stays inside its buffers exactly where its containers fit and its send is ignored or
its message fits. -/
theorem sendOffCommand_contained_iff (host : ByteOrder) (gcm : Gcm) (env : ServerEnv)
    (outgoing : Outgoing) (wellFormed : WellFormed command)
    (known : findEncryptionKey devInfos devId = some key) :
    CommandContained host gcm devInfos devId env command outgoing ↔
      ContainersFit command ∧
        (Ignored (some outgoing.connInfo) ∨
          CommandDelivery.messageLength command ≤ maxMsgLen) := by
  have buildable := commandData_ok_iff host (env.malloced (2 * outgoing.handed))
    (env.malloced (2 * outgoing.handed + 1)) wellFormed
  constructor
  · rintro ⟨next, ran, -⟩
    obtain ⟨addPckData, ranAdd, ran⟩ := bind_eq_ok.mp ran
    obtain ⟨encryptedPckData, ranEncrypted, ran⟩ := bind_eq_ok.mp ran
    refine ⟨buildable.mp ⟨_, _, ranAdd, ranEncrypted⟩, ?_⟩
    obtain ⟨-, container, add, carries, givenEnc, givenAdd⟩ :=
      CommandDelivery.carries_of_built ranAdd ranEncrypted
    simp only [known] at ran
    obtain ⟨result, ranSend, -⟩ := bind_eq_ok.mp ran
    rw [← carries.composedLength_eq wellFormed]
    exact (encryptAndSendAll_ok_iff gcm key.bytes givenEnc givenAdd carries.begun.1
      carries.begun.2 _ _ _ _).mp ⟨result, ranSend⟩
  · rintro ⟨fit, inside⟩
    obtain ⟨addPckData, encryptedPckData, ranAdd, ranEncrypted⟩ := buildable.mpr fit
    obtain ⟨-, container, add, carries, givenEnc, givenAdd⟩ :=
      CommandDelivery.carries_of_built ranAdd ranEncrypted
    rw [← carries.composedLength_eq wellFormed] at inside
    obtain ⟨result, ranSend⟩ := (encryptAndSendAll_ok_iff gcm key.bytes givenEnc givenAdd
      carries.begun.1 carries.begun.2 outgoing.connInfo command.gSettings
      (env.draws (outgoing.handed + 1)) outgoing.sendProcessingBuffer).mpr inside
    have ran : sendOffCommand host gcm devInfos devId env command outgoing = .ok
        { connInfo := result.connInfo.getD outgoing.connInfo
          sendProcessingBuffer := result.outBuf
          sent := outgoing.sent ++ result.sent.toList
          handed := outgoing.handed + 1 } := by
      simp only [sendOffCommand, ranAdd, ranEncrypted, known, ok_bind, ranSend, pure_eq_ok]
    refine ⟨_, ran, fun long => ?_⟩
    rw [← carries.composedLength_eq wellFormed] at long
    obtain ⟨-, same, nothing⟩ := encryptAndSendAll_long givenEnc givenAdd long ranSend
    refine ⟨same, ?_⟩
    rw [nothing]
    exact List.append_nil _

/-- The pointers of a command of the remote server are good. -/
theorem commandOf_wellFormed (msgData : JsonObject) : WellFormed (commandOf msgData) := by
  have taken : ∀ field : JsonField, field.data.length = field.stringLen := by
    intro field
    rw [JsonField.data, List.length_take, Nat.min_eq_left field.within]
  constructor
  · intro argsPtr known
    obtain rfl := Option.some.inj known
    rw [taken]
    exact Nat.mod_le _ _
  · intro addPtr known
    obtain rfl := Option.some.inj known
    rw [taken]
    exact Nat.mod_le _ _

end Commands

/-! ### The messages of a node -/

/-- The send of a node's message stays inside its buffers. If the message is longer than the
output buffer, the send returns `-1`, and nothing has been written or sent. -/
def MessageContained (host : ByteOrder) (gcm : Gcm)
    (addMalloced encryptedMalloced : Block pckDataIncrements) (draw : Draw) (connInfo : ConnInfo)
    (node : NodeState) (cmdInfo : NodeCmdInfo) (outBuf : Block maxMsgLen) : Prop :=
  ∃ result,
    sendNodeMessage host gcm addMalloced encryptedMalloced draw connInfo node cmdInfo outBuf =
      .ok result ∧
    (maxMsgLen < NodeMessageDelivery.messageLength cmdInfo →
      result.returnValue = -1 ∧ result.outBuf = outBuf ∧ result.sent = none)

section Messages

variable {host : ByteOrder} {cmdInfo : NodeCmdInfo}
  {addMalloced encryptedMalloced encrypted added : Block pckDataIncrements}

/-- The containers that `composeNodeMessage` has built carry the message. -/
theorem carries_of_composed
    (ran : composeNodeMessage host addMalloced encryptedMalloced cmdInfo = .ok (encrypted, added)) :
    ∃ container add, NodeMessageDelivery.Carries cmdInfo container add ∧
      Given host (some encrypted) (some container) ∧ Given host (some added) (some add) := by
  obtain ⟨builtEnc, builtAdd⟩ := NodeMessageDelivery.built_of_composed ran
  obtain ⟨container, sameEnc, givenEnc⟩ := given_of_built builtEnc
  obtain ⟨add, sameAdd, givenAdd⟩ := given_of_built builtAdd
  exact ⟨container, add, ⟨sameEnc, sameAdd⟩, givenEnc, givenAdd⟩

/-- A message of a node stays inside its buffers exactly where its encrypted container fits and its
send is ignored or the message fits. -/
theorem sendNodeMessage_contained_iff (host : ByteOrder) (gcm : Gcm)
    (addMalloced encryptedMalloced : Block pckDataIncrements) (draw : Draw) (connInfo : ConnInfo)
    (node : NodeState) (outBuf : Block maxMsgLen)
    (wellFormed : cmdInfo.argsLen.toNat ≤ cmdInfo.args.length) :
    MessageContained host gcm addMalloced encryptedMalloced draw connInfo node cmdInfo outBuf ↔
      NodeMessageDelivery.encryptedLength cmdInfo ≤ pckDataIncrements ∧
        (Ignored (some connInfo) ∨ NodeMessageDelivery.messageLength cmdInfo ≤ maxMsgLen) := by
  constructor
  · rintro ⟨result, ran, -⟩
    obtain ⟨⟨encrypted, added⟩, composed, ranSend⟩ := bind_eq_ok.mp ran
    obtain ⟨container, add, carries, givenEnc, givenAdd⟩ := carries_of_composed composed
    constructor
    · rw [← carries.encryptedLength_eq wellFormed]
      exact givenLength_le_of_given givenEnc
    · rw [← carries.composedLength_eq wellFormed]
      exact (encryptAndSendAll_ok_iff gcm _ givenEnc givenAdd carries.begun.1 carries.begun.2
        _ _ _ _).mp ⟨result, ranSend⟩
  · rintro ⟨fit, inside⟩
    obtain ⟨encrypted, added, composed, -, -⟩ := NodeMessageDelivery.composeNodeMessage_ok host
      addMalloced encryptedMalloced wellFormed fit
    obtain ⟨container, add, carries, givenEnc, givenAdd⟩ := carries_of_composed composed
    rw [← carries.composedLength_eq wellFormed] at inside
    obtain ⟨result, ranSend⟩ := (encryptAndSendAll_ok_iff gcm node.pointerToKey.bytes givenEnc
      givenAdd carries.begun.1 carries.begun.2 connInfo 0 draw outBuf).mpr inside
    have ran : sendNodeMessage host gcm addMalloced encryptedMalloced draw connInfo node cmdInfo
        outBuf = .ok result := by
      simp only [sendNodeMessage, composed, ok_bind, ranSend]
    refine ⟨result, ran, fun long => ?_⟩
    rw [← carries.composedLength_eq wellFormed] at long
    exact encryptAndSendAll_long givenEnc givenAdd long ranSend

end Messages

/-! ### Both ends -/

section Both

variable {host : ByteOrder} {gcm : Gcm} {devInfos : List DevInfo} {devId : Bytes}
  {key : Block keyLen} {cmdInfo : NodeCmdInfo}

/-- The commands that the remote server asks for, and the messages of a node, stay inside their
buffers exactly where their containers fit and their send is ignored or the message fits. -/
theorem outgoing_contained_iff (host : ByteOrder) (gcm : Gcm) (env : ServerEnv)
    (outgoing : Outgoing) (msgData : JsonObject)
    (addMalloced encryptedMalloced : Block pckDataIncrements) (draw : Draw) (connInfo : ConnInfo)
    (node : NodeState) (outBuf : Block maxMsgLen)
    (known : findEncryptionKey devInfos devId = some key)
    (wellFormed : cmdInfo.argsLen.toNat ≤ cmdInfo.args.length) :
    (CommandContained host gcm devInfos devId env (commandOf msgData) outgoing ↔
      ContainersFit (commandOf msgData) ∧
        (Ignored (some outgoing.connInfo) ∨
          CommandDelivery.messageLength (commandOf msgData) ≤ maxMsgLen)) ∧
    (MessageContained host gcm addMalloced encryptedMalloced draw connInfo node cmdInfo outBuf ↔
      NodeMessageDelivery.encryptedLength cmdInfo ≤ pckDataIncrements ∧
        (Ignored (some connInfo) ∨ NodeMessageDelivery.messageLength cmdInfo ≤ maxMsgLen)) := by
  constructor
  · exact sendOffCommand_contained_iff host gcm env outgoing (commandOf_wellFormed msgData) known
  · exact sendNodeMessage_contained_iff host gcm addMalloced encryptedMalloced draw connInfo node
      outBuf wellFormed

end Both

/-- The beacon of a lock with a passcode of four digits. -/
def beacon : NodeCmdInfo :=
  { devId := default
    devType := 2
    opcode := 0
    argsLen := 7
    args := [1, 0, 4, 1, 2, 3, 4] }

/-- AES-GCM under the zero key and the zero vector: its keystream, and its tags over the masked
frames of the command and of the beacon below. -/
def containedGcm : Gcm :=
  { keystream := fun _ _ index =>
      [3, 136, 218, 206, 96, 182, 163, 146, 243, 40, 194, 185, 113, 178, 254, 120, 247, 149, 170,
        171, 73, 75, 89, 35, 247, 253, 137, 255, 148, 139, 193, 224, 32, 2, 17, 33, 78, 115, 148,
        218, 32, 137, 182].getD index 0
    authenticate := fun _ _ _ cipher =>
      .holding tagLen
        (if cipher.length = 30 then
          [93, 179, 215, 178, 117, 38, 90, 10, 188, 210, 126, 140, 194, 171, 21, 118]
        else [132, 98, 121, 128, 95, 232, 88, 184, 210, 17, 200, 57, 203, 245, 147, 2]) }

/-- A short command and a beacon stay inside their buffers. -/
theorem short_contained :
    CommandContained .little containedGcm CommandDelivery.sampleSession.devInfos
        CommandDelivery.sampleSession.devId default (commandOf (RemoteGate.commandMessage 1))
        CommandDelivery.sampleSession.outgoing ∧
      MessageContained .little containedGcm default default default
        NodeMessageDelivery.sampleConnInfo NodeMessageDelivery.sampleSession.node beacon
        default := by
  obtain ⟨command, message⟩ := outgoing_contained_iff .little containedGcm default
    CommandDelivery.sampleSession.outgoing (RemoteGate.commandMessage 1) default default default
    NodeMessageDelivery.sampleConnInfo NodeMessageDelivery.sampleSession.node default
    CommandDelivery.sampleSession.sameKey (show beacon.argsLen.toNat ≤ beacon.args.length by decide)
  constructor
  · apply command.mpr
    exact ⟨⟨by decide +kernel, by decide +kernel⟩, .inr (by decide +kernel)⟩
  · apply message.mpr
    exact ⟨by decide, .inr (by decide)⟩

/-- A value of so many letters. -/
def lettersField (count : Nat) : JsonField :=
  { int64 := 0
    int := 0
    string := some (List.replicate count 97)
    stringLen := count
    within := by simp }

/-- A command for a device with 200 bytes of arguments. -/
def longMessage : JsonObject :=
  [("state", RemoteGate.numberField 1), ("action", RemoteGate.textField "deviceCommand"),
    ("devid", RemoteGate.textField "TestTestTest1234"), ("opcode", RemoteGate.numberField 1),
    ("args", lettersField 200), ("addData", RemoteGate.textField ""),
    ("gSettings", RemoteGate.numberField 0)]

/-- The message of 284 bytes is composed in a buffer of 255. -/
theorem longCommand_overruns :
    (sendOffCommand .little containedGcm CommandDelivery.sampleSession.devInfos
        CommandDelivery.sampleSession.devId default (commandOf longMessage)
        CommandDelivery.sampleSession.outgoing).map Outgoing.sent = .error .outOfBounds ∧
      ¬ CommandContained .little containedGcm CommandDelivery.sampleSession.devInfos
        CommandDelivery.sampleSession.devId default (commandOf longMessage)
        CommandDelivery.sampleSession.outgoing := by
  exact no_result_of_fault (by decide +kernel)

end RentMate.OutgoingLengths
