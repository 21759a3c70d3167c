/-
Module: RentMate.Proofs.CommandDelivery
Purpose: What becomes of a command between `sendOffCommand` on the server and the handler on
  the node, in an established session.
Trusted boundary: none
Main exports: sendOffCommand_ok, Delivers, delivers_iff
-/
import RentMate.Proofs.SessionCodec
import RentMate.Proofs.RoundTrip

namespace RentMate.CommandDelivery

open RentMate.Machine
open RentMate.PckData
open RentMate.MainServer
open RentMate.NodeClient (NodeEnv NodeState NodeCall NodeCommand nodeCommands)
open RentMate.ContainerCodec
open RentMate.MessageCodec
open RentMate.SessionCodec
open RentMate.ServerSteps (sendMessage_connInfo sendOffCommand_cases)

/-! ### The containers of a command -/

/-- The pointers of a command point to as many bytes as it says. -/
structure WellFormed (command : CommandRequestCommand) : Prop where
  args : ∀ argsPtr, command.argsPtr = some argsPtr → command.argsLen.toNat ≤ argsPtr.length
  add : ∀ addPtr, command.addPtr = some addPtr → command.addLen.toNat ≤ addPtr.length

/-- The argument bytes of a command, none if there are no arguments. -/
def argsOf (command : CommandRequestCommand) : Bytes :=
  (command.argsPtr.getD []).take command.argsLen.toNat

/-- The elements of the encrypted container. Without arguments there is one element less. -/
def encryptedElements (host : ByteOrder) (command : CommandRequestCommand) : List Bytes :=
  host.encode command.opCode ::
    if command.argsPtr = none then [] else [argsOf command]

/-- The element of the ADD container, if there is one. -/
def addElements (command : CommandRequestCommand) : Option (List Bytes) :=
  command.addPtr.map fun addPtr => [addPtr.take command.addLen.toNat]

/-- The length of the message that is composed for a command. -/
def messageLength (command : CommandRequestCommand) : Nat :=
  headerLen +
    (protocolSpecificAddLen +
      if command.addPtr = none then 0 else 8 + (4 + command.addLen.toNat)) +
    (protocolSpecificEncryptedDataLen + (8 + (4 + 4) +
      if command.argsPtr = none then 0 else 4 + command.argsLen.toNat))

/-- The two containers of a command fit into what `initPckData` allocates. -/
structure ContainersFit (command : CommandRequestCommand) : Prop where
  encrypted : 8 + (4 + 4) + (if command.argsPtr = none then 0 else 4 + command.argsLen.toNat) ≤
    pckDataIncrements
  add : (if command.addPtr = none then 0 else 8 + (4 + command.addLen.toNat)) ≤
    pckDataIncrements

/-- What fits a message fits its containers. -/
theorem containersFit {command : CommandRequestCommand}
    (fits : messageLength command ≤ maxMsgLen) : ContainersFit command := by
  have sizes := layout
  have room : maxMsgLen = 255 ∧ pckDataIncrements = 255 := ⟨rfl, rfl⟩
  unfold messageLength at fits
  constructor
  · omega
  · omega

section Composing

variable {host : ByteOrder} {command : CommandRequestCommand} {elements : List Bytes}
  {object : Block pckDataIncrements}

/-- An argument is copied whole. -/
theorem read_argument {object : Bytes} {count : Nat} (enough : count ≤ object.length) :
    readBytes object 0 count = .ok (object.take count) :=
  readBytes_ok (by omega)

/-- The encrypted container of a command is built from its elements. -/
theorem commandEncryptedData_ok (host : ByteOrder) (malloced : Block pckDataIncrements)
    (wellFormed : WellFormed command) (fit : ContainersFit command) :
    ∃ encryptedPckData, commandEncryptedData host malloced command = .ok encryptedPckData ∧
      Built host encryptedPckData (encryptedElements host command) := by
  have fits := fit.encrypted
  obtain ⟨begun, ranInit, built⟩ := initPckData_ok host malloced
  obtain ⟨withOpcode, ranOpcode, builtOpcode⟩ :=
    appendToPckData_ok built (host.encode command.opCode) (by simp; decide)
  cases args : command.argsPtr with
  | none =>
      refine ⟨withOpcode, ?_, ?_⟩
      · simp only [commandEncryptedData, ranInit, ok_bind, ranOpcode, args, pure_eq_ok]
      · simpa [encryptedElements, args] using builtOpcode
  | some argsPtr =>
      have enough := wellFormed.args argsPtr args
      simp only [args, reduceCtorEq, if_false] at fits
      have length : (argsPtr.take command.argsLen.toNat).length = command.argsLen.toNat := by
        rw [List.length_take, Nat.min_eq_left enough]
      obtain ⟨withArgs, ranArgs, builtArgs⟩ :=
        appendToPckData_ok builtOpcode (argsPtr.take command.argsLen.toNat) (by
          rw [length]
          simp only [List.nil_append, elementsLength, List.map_cons, ByteOrder.encode_length,
            List.map_nil, List.sum_cons, List.sum_nil]
          omega)
      refine ⟨withArgs, ?_, ?_⟩
      · simp only [commandEncryptedData, ranInit, ok_bind, ranOpcode, args, read_argument enough,
          ranArgs]
      · simpa [encryptedElements, argsOf, args] using builtArgs

/-- The additional data of a command are built from its elements, or left out. -/
theorem commandAddData_ok (host : ByteOrder) (malloced : Block pckDataIncrements)
    (wellFormed : WellFormed command) (fit : ContainersFit command) :
    ∃ addPckData add, commandAddData host malloced command = .ok addPckData ∧
      Given host addPckData add ∧ add.map Container.elements = addElements command := by
  have fits := fit.add
  cases given : command.addPtr with
  | none =>
      refine ⟨none, none, ?_, .absent, ?_⟩
      · simp only [commandAddData, given]
      · simp [addElements, given]
  | some addPtr =>
      have enough := wellFormed.add addPtr given
      simp only [given, reduceCtorEq, if_false] at fits
      have length : (addPtr.take command.addLen.toNat).length = command.addLen.toNat := by
        rw [List.length_take, Nat.min_eq_left enough]
      obtain ⟨begun, ranInit, built⟩ := initPckData_ok host malloced
      obtain ⟨withAdd, ranAdd, builtAdd⟩ :=
        appendToPckData_ok built (addPtr.take command.addLen.toNat) (by
          rw [length]
          simp only [elementsLength, List.map_nil, List.sum_nil]
          omega)
      obtain ⟨container, same, givenAdd⟩ := given_of_built builtAdd
      refine ⟨some withAdd, some container, ?_, givenAdd, ?_⟩
      · simp only [commandAddData, given, ranInit, ok_bind, read_argument enough, ranAdd,
          pure_eq_ok]
      · simp [addElements, given, same]

/-- The containers carry a command. -/
structure Carries (host : ByteOrder) (command : CommandRequestCommand) (container : Container)
    (add : Option Container) : Prop where
  encrypted : container.elements = encryptedElements host command
  add : add.map Container.elements = addElements command

section Lengths

variable {container : Container} {add : Option Container}

/-- The length of the encrypted container of a command. -/
theorem Carries.encryptedLength_eq (carries : Carries host command container add)
    (wellFormed : WellFormed command) :
    givenLength (some container) = 8 + (4 + 4) +
      if command.argsPtr = none then 0 else 4 + command.argsLen.toNat := by
  rw [givenLength, Container.length, carries.encrypted]
  cases args : command.argsPtr with
  | none => simp [encryptedElements, args]
  | some argsPtr =>
      simp [encryptedElements, argsOf, args, wellFormed.args argsPtr args]
      omega

/-- The length of the additional data of a command. -/
theorem Carries.addLength_eq (carries : Carries host command container add)
    (wellFormed : WellFormed command) :
    givenLength add = if command.addPtr = none then 0 else 8 + (4 + command.addLen.toNat) := by
  have same := carries.add
  cases given : command.addPtr with
  | none =>
      rw [addElements, given, Option.map_none, Option.map_eq_none_iff] at same
      simp [same, givenLength]
  | some addPtr =>
      rw [addElements, given, Option.map_some, Option.map_eq_some_iff] at same
      obtain ⟨added, rfl, elements⟩ := same
      simp [givenLength, Container.length, elements, wellFormed.add addPtr given]

/-- The length of the message of a command. -/
theorem Carries.composedLength_eq (carries : Carries host command container add)
    (wellFormed : WellFormed command) :
    composedLength (some container) add none = messageLength command := by
  rw [composedLength, carries.encryptedLength_eq wellFormed, carries.addLength_eq wellFormed,
    messageLength]
  rfl

end Lengths

/-- The containers of a command are given or not from their first byte on. -/
theorem Carries.begun {container : Container} {add : Option Container}
    (carries : Carries host command container add) : Begun (some container) ∧ Begun add := by
  refine ⟨begun_some (by simp [carries.encrypted, encryptedElements]), ?_⟩
  rintro added rfl empty
  have same := carries.add
  rw [Option.map_some, empty] at same
  cases given : command.addPtr <;> simp [addElements, given] at same

/-- The pieces that `sendOffCommand` sends. -/
theorem command_sendable (host : ByteOrder) (env : ServerEnv) (handed : Nat)
    (wellFormed : WellFormed command)
    (fits : messageLength command ≤ maxMsgLen) :
    ∃ encryptedPckData addPckData container add,
      commandEncryptedData host (env.malloced (2 * handed + 1)) command = .ok encryptedPckData ∧
        commandAddData host (env.malloced (2 * handed)) command = .ok addPckData ∧
        Carries host command container add ∧
        Sendable host (some encryptedPckData) addPckData (some container) add := by
  obtain ⟨encryptedPckData, ranEncrypted, built⟩ :=
    commandEncryptedData_ok host (env.malloced (2 * handed + 1)) wellFormed (containersFit fits)
  obtain ⟨addPckData, add, ranAdd, givenAdd, sameAdd⟩ :=
    commandAddData_ok host (env.malloced (2 * handed)) wellFormed (containersFit fits)
  obtain ⟨container, same, givenEnc⟩ := given_of_built built
  have carries : Carries host command container add := ⟨same, sameAdd⟩
  refine ⟨encryptedPckData, addPckData, container, add, ranEncrypted, ranAdd, carries, ?_⟩
  exact
    { givenEnc := givenEnc
      givenAdd := givenAdd
      begunEnc := carries.begun.1
      begunAdd := carries.begun.2
      fits := by rw [carries.composedLength_eq wellFormed]; exact fits }

end Composing

/-! ### Sending a command -/

section Sending

variable {host : ByteOrder} {gcm : Gcm} {devInfos : List DevInfo} {devId : Bytes}
  {env : ServerEnv} {command : CommandRequestCommand} {outgoing : Outgoing} {key : Block keyLen}

/-- What a command that has been sent as this frame leaves. -/
def sentOff (outgoing : Outgoing) (out : Block maxMsgLen) (sent : Bytes) : Outgoing :=
  { connInfo := afterSend outgoing.connInfo
    sendProcessingBuffer := out
    sent := outgoing.sent ++ [sent]
    handed := outgoing.handed + 1 }

/-- In an established session `sendOffCommand` sends one frame that carries the command. -/
theorem sendOffCommand_ok (host : ByteOrder) (gcm : Gcm) (env : ServerEnv)
    (wellFormed : WellFormed command)
    (fits : messageLength command ≤ maxMsgLen)
    (known : findEncryptionKey devInfos devId = some key)
    (established : outgoing.connInfo.sessionId ≠ 0) :
    ∃ out container add, Carries host command container add ∧
      sendOffCommand host gcm devInfos devId env command outgoing =
        .ok (sentOff outgoing out
          (frame gcm key.bytes (env.draws (outgoing.handed + 1)).newIv.bytes (some container) add
            command.gSettings (nextNonce host outgoing.connInfo))) := by
  obtain ⟨encryptedPckData, addPckData, container, add, ranEncrypted, ranAdd, carries, sendable⟩ :=
    command_sendable host env outgoing.handed wellFormed fits
  obtain ⟨out, ran⟩ := encryptAndSendAll_session gcm key.bytes sendable established
    command.gSettings (env.draws (outgoing.handed + 1)) outgoing.sendProcessingBuffer
  refine ⟨out, container, add, carries, ?_⟩
  simp only [sendOffCommand, ranAdd, ranEncrypted, known, ok_bind, ran, pure_eq_ok]
  rfl

/-! ### What a command that has been sent was like -/

/-- The containers that were built carry the command, whose pointers were good. -/
theorem carries_of_built {malloced addMalloced encryptedPckData : Block pckDataIncrements}
    {addPckData : Option (Block pckDataIncrements)}
    (ranAdd : commandAddData host addMalloced command = .ok addPckData)
    (ranEncrypted : commandEncryptedData host malloced command = .ok encryptedPckData) :
    WellFormed command ∧ ∃ container add, Carries host command container add ∧
      Given host (some encryptedPckData) (some container) ∧ Given host addPckData add := by
  have adding : (∀ addPtr, command.addPtr = some addPtr →
      command.addLen.toNat ≤ addPtr.length) ∧
      ∃ add, Given host addPckData add ∧ add.map Container.elements = addElements command := by
    cases given : command.addPtr with
    | none =>
        simp only [commandAddData, given] at ranAdd
        obtain rfl := Except.ok.inj ranAdd
        refine ⟨fun _ impossible => ?_, none, .absent, by simp [addElements, given]⟩
        cases impossible
    | some addPtr =>
        obtain ⟨begun, ranInit, built⟩ := initPckData_ok host addMalloced
        simp only [commandAddData, given, ranInit, ok_bind, ← bind_assoc] at ranAdd
        obtain ⟨grown, appended, same⟩ := bind_eq_ok.mp ranAdd
        obtain rfl := Except.ok.inj same
        obtain ⟨enough, builtAfter⟩ := append_part built appended
        obtain ⟨container, elements, givenAdd⟩ := given_of_built builtAfter
        refine ⟨fun pointer known => ?_, some container, givenAdd, ?_⟩
        · obtain rfl := Option.some.inj known
          exact enough
        · simp [addElements, given, elements]
  have encrypting : (∀ argsPtr, command.argsPtr = some argsPtr →
      command.argsLen.toNat ≤ argsPtr.length) ∧
      Built host encryptedPckData (encryptedElements host command) := by
    obtain ⟨begun, ranInit, built⟩ := initPckData_ok host malloced
    obtain ⟨withOpcode, ranOpcode, builtOpcode⟩ :=
      appendToPckData_ok built (host.encode command.opCode) (by simp; decide)
    simp only [commandEncryptedData, ranInit, ranOpcode, ok_bind] at ranEncrypted
    cases given : command.argsPtr with
    | none =>
        simp only [given] at ranEncrypted
        obtain rfl := Except.ok.inj ranEncrypted
        refine ⟨fun _ impossible => ?_, ?_⟩
        · cases impossible
        · simpa [encryptedElements, given] using builtOpcode
    | some argsPtr =>
        simp only [given] at ranEncrypted
        obtain ⟨enough, builtAfter⟩ := append_part builtOpcode ranEncrypted
        refine ⟨fun pointer known => ?_, ?_⟩
        · obtain rfl := Option.some.inj known
          exact enough
        · simpa [encryptedElements, argsOf, given] using builtAfter
  obtain ⟨addGood, add, givenAdd, sameAdd⟩ := adding
  obtain ⟨argsGood, built⟩ := encrypting
  obtain ⟨container, sameEnc, givenEnc⟩ := given_of_built built
  exact ⟨⟨argsGood, addGood⟩, container, add, ⟨sameEnc, sameAdd⟩, givenEnc, givenAdd⟩

/-- In an established session a command that has been handed over without a fault was good, and
its message fits. -/
theorem fit_of_sent {next : Outgoing} (established : outgoing.connInfo.sessionId ≠ 0)
    (ran : sendOffCommand host gcm devInfos devId env command outgoing = .ok next) :
    WellFormed command ∧ messageLength command ≤ maxMsgLen := by
  obtain ⟨addPckData, encryptedPckData, key, sentOne, ranAdd, ranEncrypted, ranSend, -⟩ :=
    sendOffCommand_cases ran
  obtain ⟨wellFormed, container, add, carries, givenEnc, givenAdd⟩ :=
    carries_of_built ranAdd ranEncrypted
  refine ⟨wellFormed, ?_⟩
  rw [← carries.composedLength_eq wellFormed]
  simp only [encryptAndSendAll, ne_eq, established, not_false_eq_true, if_true] at ranSend
  obtain ⟨encrypted, ranEncrypt, -⟩ := bind_eq_ok.mp ranSend
  obtain ⟨composed, ranCompose, -⟩ := bind_eq_ok.mp ranEncrypt
  exact composePckData_fits givenEnc givenAdd .absent ranCompose

/-- The frame carries the command. -/
def IsFrameOf (host : ByteOrder) (gcm : Gcm) (gcmKey : Bytes) (command : CommandRequestCommand)
    (sent : Bytes) : Prop :=
  ∃ container add iv nonce, Carries host command container add ∧ iv.length = ivLen ∧
    sent = frame gcm gcmKey iv (some container) add command.gSettings nonce

/-- Every command can be sent: its pointers are good and its message fits. -/
def Fit (commands : List CommandRequestCommand) : Prop :=
  ∀ command ∈ commands, WellFormed command ∧ messageLength command ≤ maxMsgLen

/-- The connection but for the count of the messages that have been sent. -/
def SameSession (before after : ConnInfo) : Prop :=
  after = { before with sendSessionIncrements := after.sendSessionIncrements }

/-- A connection is in the same session as itself. -/
theorem SameSession.refl (connInfo : ConnInfo) : SameSession connInfo connInfo := rfl

/-- Sessions are compared one after the other. -/
theorem SameSession.trans {before between after : ConnInfo} (first : SameSession before between)
    (second : SameSession between after) : SameSession before after := by
  rw [SameSession] at first second ⊢
  rw [first] at second
  exact second

/-- Sending stays in the session. -/
theorem sameSession_afterSend (connInfo : ConnInfo) : SameSession connInfo (afterSend connInfo) :=
  rfl

/-- In an established session every command is sent, in order. -/
theorem sendOffCommands_session (host : ByteOrder) (gcm : Gcm) (env : ServerEnv)
    {commands : List CommandRequestCommand} (outgoing : Outgoing) (fit : Fit commands)
    (known : findEncryptionKey devInfos devId = some key)
    (established : outgoing.connInfo.sessionId ≠ 0) :
    ∃ reached frames,
      sendOffCommands (sendOffCommand host gcm devInfos devId env) commands outgoing =
          .ok reached ∧
        reached.sent = outgoing.sent ++ frames ∧
        List.Forall₂ (IsFrameOf host gcm key.bytes) commands frames ∧
        SameSession outgoing.connInfo reached.connInfo := by
  induction commands generalizing outgoing with
  | nil => exact ⟨outgoing, [], rfl, by simp, .nil, .refl _⟩
  | cons command commands ih =>
      obtain ⟨wellFormed, fits⟩ := fit command List.mem_cons_self
      obtain ⟨out, container, add, carries, ranOne⟩ :=
        sendOffCommand_ok host gcm env wellFormed fits known established
      generalize nextIs : sentOff outgoing out _ = next at ranOne
      have rest : Fit commands := fun other later => fit other (List.mem_cons_of_mem _ later)
      have goesOn : next.connInfo.sessionId ≠ 0 := by
        rw [← nextIs]
        exact established
      obtain ⟨reached, frames, ran, sent, carried, same⟩ := ih next rest goesOn
      rw [← nextIs] at same sent
      have own : IsFrameOf host gcm key.bytes command _ :=
        ⟨container, add, (env.draws (outgoing.handed + 1)).newIv.bytes,
          nextNonce host outgoing.connInfo, carries, Block.allocated _, rfl⟩
      refine ⟨reached, _ :: frames, ?_, ?_, .cons own carried,
        (sameSession_afterSend _).trans same⟩
      · rw [sendOffCommands, List.foldlM_cons, ranOne, ok_bind]
        exact ran
      · rw [sent]
        simp only [sentOff, List.append_assoc, List.singleton_append]

/-- In an established session commands that have been handed over without a fault were good. -/
theorem fit_of_sendOffCommands {commands : List CommandRequestCommand} {reached : Outgoing}
    (known : findEncryptionKey devInfos devId = some key)
    (established : outgoing.connInfo.sessionId ≠ 0)
    (ran : sendOffCommands (sendOffCommand host gcm devInfos devId env) commands outgoing =
      .ok reached) :
    Fit commands := by
  induction commands generalizing outgoing with
  | nil =>
      intro command impossible
      cases impossible
  | cons command commands ih =>
      obtain ⟨next, ranOne, ranRest⟩ := bind_eq_ok.mp ran
      obtain ⟨wellFormed, fits⟩ := fit_of_sent established ranOne
      obtain ⟨out, container, add, -, sentOne⟩ :=
        sendOffCommand_ok host gcm env wellFormed fits known established
      have goesOn : next.connInfo.sessionId ≠ 0 := by
        rw [← Except.ok.inj (sentOne.symm.trans ranOne)]
        exact established
      have rest : Fit commands := ih goesOn ranRest
      intro other later
      rcases List.mem_cons.mp later with rfl | behind
      · exact ⟨wellFormed, fits⟩
      · exact rest other behind

/-- With a nonce but without a session id nothing is sent. -/
theorem sendOffCommand_dropped (host : ByteOrder) (gcm : Gcm) (env : ServerEnv)
    (wellFormed : WellFormed command) (fits : messageLength command ≤ maxMsgLen)
    (known : findEncryptionKey devInfos devId = some key)
    (noSession : outgoing.connInfo.sessionId = 0) (nonce : outgoing.connInfo.localNonce ≠ 0) :
    sendOffCommand host gcm devInfos devId env command outgoing =
      .ok { outgoing with handed := outgoing.handed + 1 } := by
  obtain ⟨encryptedPckData, addPckData, -, -, ranEncrypted, ranAdd, -⟩ :=
    command_sendable host env outgoing.handed wellFormed fits
  simp only [sendOffCommand, ranAdd, ranEncrypted, known, ok_bind, encryptAndSendAll, noSession,
    ne_eq, not_true, if_false, nonce, not_false_eq_true, if_true, pure_eq_ok]
  simp

/-- With a nonce but without a session id every command is dropped. -/
theorem sendOffCommands_dropped (host : ByteOrder) (gcm : Gcm) (env : ServerEnv)
    {commands : List CommandRequestCommand} (outgoing : Outgoing) (fit : Fit commands)
    (known : findEncryptionKey devInfos devId = some key)
    (noSession : outgoing.connInfo.sessionId = 0) (nonce : outgoing.connInfo.localNonce ≠ 0) :
    ∃ reached,
      sendOffCommands (sendOffCommand host gcm devInfos devId env) commands outgoing =
          .ok reached ∧
        reached.sent = outgoing.sent ∧ reached.connInfo = outgoing.connInfo := by
  induction commands generalizing outgoing with
  | nil => exact ⟨outgoing, rfl, rfl, rfl⟩
  | cons command commands ih =>
      obtain ⟨wellFormed, fits⟩ := fit command List.mem_cons_self
      have rest : Fit commands := fun other later => fit other (List.mem_cons_of_mem _ later)
      have ranOne := sendOffCommand_dropped host gcm env wellFormed fits known noSession nonce
      obtain ⟨reached, ran, sent, same⟩ :=
        ih { outgoing with handed := outgoing.handed + 1 } rest noSession nonce
      refine ⟨reached, ?_, sent, same⟩
      rw [sendOffCommands, List.foldlM_cons, ranOne, ok_bind]
      exact ran

/-- Once a connection has a nonce, a send changes nothing of it but the count of messages. -/
theorem encryptAndSendAll_sameSession {connInfo : ConnInfo} {ctx : Option Bytes}
    {pckData addDataPck extraDataPck : Option (Block pckDataIncrements)} {pckGSettings : UInt32}
    {draw : Draw} {outBuf : Block maxMsgLen} {result : SendResult maxMsgLen}
    (ran : encryptAndSendAll host gcm (some connInfo) ctx pckData addDataPck extraDataPck
      pckGSettings draw outBuf = .ok result)
    (nonce : connInfo.localNonce ≠ 0) :
    SameSession connInfo (result.connInfo.getD connInfo) := by
  simp only [encryptAndSendAll] at ran
  split at ran
  · rw [(sendMessage_connInfo ran).1]
    rfl
  · obtain rfl := Except.ok.inj ran
    rfl

/-- Sending commands leaves the session as it is and goes on behind what has been sent. -/
theorem sendOffCommands_sameSession {commands : List CommandRequestCommand} {reached : Outgoing}
    (ran : sendOffCommands (sendOffCommand host gcm devInfos devId env) commands outgoing =
      .ok reached)
    (nonce : outgoing.connInfo.localNonce ≠ 0) :
    SameSession outgoing.connInfo reached.connInfo ∧ outgoing.sent <+: reached.sent := by
  induction commands generalizing outgoing with
  | nil =>
      obtain rfl := Except.ok.inj ran
      exact ⟨.refl _, List.prefix_refl _⟩
  | cons command commands ih =>
      obtain ⟨next, ranOne, ranRest⟩ := bind_eq_ok.mp ran
      have step : SameSession outgoing.connInfo next.connInfo ∧ outgoing.sent <+: next.sent := by
        obtain ⟨_, _, _, sentOne, -, -, ranSend, rfl⟩ := sendOffCommand_cases ranOne
        exact ⟨encryptAndSendAll_sameSession ranSend nonce, List.prefix_append _ _⟩
      have nonceNext : next.connInfo.localNonce ≠ 0 := by
        rw [step.1]
        exact nonce
      obtain ⟨same, further⟩ := ih ranRest nonceNext
      exact ⟨step.1.trans same, step.2.trans further⟩

end Sending

/-! ### Receiving a command -/

section Receiving

variable {serverHost host : ByteOrder} {env : NodeEnv} {connInfo : ConnInfo} {node : NodeState}
  {message : Block maxMsgLen} {iv tag rest : Bytes} {command : CommandRequestCommand}
  {container : Container} {add : Option Container} {pckGSettings nonce : UInt32}

/-- The opcode that the node reads: the server stores it as its own host stores words. -/
def opcodeRead (serverHost host : ByteOrder) (command : CommandRequestCommand) : UInt32 :=
  host.decode (serverHost.encode command.opCode)

/-- The arguments are as long as the command says. -/
theorem length_argsOf {argsPtr : Bytes} (wellFormed : WellFormed command)
    (given : command.argsPtr = some argsPtr) :
    (argsOf command).length = command.argsLen.toNat := by
  have enough := wellFormed.args argsPtr given
  simp [argsOf, given, enough]

/-- The bytes that the node prints from the encrypted container on lie in its buffer. -/
def Shown (add : Option Container) : Prop :=
  encryptedPckDataPtr add + NodeClient.shownLen ≤ maxMsgLen

instance (add : Option Container) : Decidable (Shown add) := inferInstanceAs (Decidable (_ ≤ _))

/-- The additional data of a command leave room for the bytes that the node prints. -/
def ShortAdd (command : CommandRequestCommand) : Prop :=
  command.addPtr ≠ none → command.addLen.toNat < 152

instance (command : CommandRequestCommand) : Decidable (ShortAdd command) :=
  inferInstanceAs (Decidable (_ → _))

/-- Where the encrypted container of a command begins depends on its additional data only. -/
theorem Carries.shown_iff (carries : Carries serverHost command container add)
    (wellFormed : WellFormed command) : Shown add ↔ ShortAdd command := by
  have sizes := layout
  have room : maxMsgLen = 255 ∧ NodeClient.shownLen = 40 := ⟨rfl, rfl⟩
  rw [Shown, encryptedPckDataPtr, carries.addLength_eq wellFormed, ShortAdd]
  by_cases absent : command.addPtr = none
  · simp only [absent, if_true, ne_eq, not_true_eq_false, false_implies, iff_true]
    omega
  · simp only [absent, if_false, ne_eq, not_false_eq_true, true_implies]
    omega

/-- A message whose container lies too far behind is not dispatched. -/
theorem dispatchCommand_not_shown (sized : Sealed iv tag) {enc : Option Container}
    (far : ¬ Shown add)
    (content : message.bytes =
      openedMessage host iv tag 0 enc add pckGSettings nonce ++ rest) :
    NodeClient.dispatchCommand host env connInfo node message (encryptedPckDataPtr add) =
      .error .outOfBounds := by
  simp only [NodeClient.dispatchCommand, printMessage_opened sized content, ok_bind,
    message.read_refused far (by decide)]
  rfl

/-- The bytes that are printed can be read. -/
theorem read_shown (message : Block maxMsgLen) (shown : Shown add) :
    message.read (encryptedPckDataPtr add) NodeClient.shownLen =
      .ok (slice message.bytes (encryptedPckDataPtr add) NodeClient.shownLen) :=
  message.read_ok shown

/-- The opcode and the length of the arguments, as `processMsg` looks them up. -/
theorem read_opcode (sized : Sealed iv tag) (carries : Carries serverHost command container add)
    (content : message.bytes =
      openedMessage host iv tag 0 (some container) add pckGSettings nonce ++ rest)
    (output : Block 4) :
    ∃ opcode : Block 4, opcode.bytes = serverHost.encode command.opCode ∧
      getElementFromPckData host message (encryptedPckDataPtr add) output 0 = .ok (4, opcode) := by
  obtain ⟨-, front, position, place⟩ := opened_place sized content
  have first : container.elements[0]? = some (serverHost.encode command.opCode) := by
    simp [carries.encrypted, encryptedElements]
  obtain ⟨opcode, same, ran⟩ := getElement_full output place position first
    (ByteOrder.encode_ne_nil _ _) (by simp)
  rw [ByteOrder.encode_length] at ran
  exact ⟨opcode, same, ran⟩

/-- Without arguments the length is taken for `-1`, and no array of that length fits on the
stack. -/
theorem dispatchCommand_without_args (sized : Sealed iv tag) (shown : Shown add)
    (carries : Carries serverHost command container add) (absent : command.argsPtr = none)
    (content : message.bytes =
      openedMessage host iv tag 0 (some container) add pckGSettings nonce ++ rest) :
    NodeClient.dispatchCommand host env connInfo node message (encryptedPckDataPtr add) =
      .error .stackExhausted := by
  obtain ⟨-, front, position, place⟩ := opened_place sized content
  obtain ⟨opcode, -, ranOpcode⟩ := read_opcode sized carries content env.opcode
  have alone : container.elements = [serverHost.encode command.opCode] := by
    simp [carries.encrypted, encryptedElements, absent]
  have missing : getElementLengthFromPckData host message (encryptedPckDataPtr add) 1 =
      .ok minusOne :=
    getElementLength_missing place position (by simp [alone]) (by simp [alone])
  simp only [NodeClient.dispatchCommand, printMessage_opened sized content, ok_bind,
    read_shown message shown, ranOpcode, missing]
  rfl

/-- No handler of the node reads past its arguments. -/
theorem runNodeCommand_ok {call : NodeCall} (enough : call.argsLen.toNat ≤ call.args.length) :
    NodeClient.runNodeCommand call = .ok () := by
  unfold NodeClient.runNodeCommand
  split
  · rfl
  · rfl
  · rw [read_argument enough]
    rfl
  · rw [read_argument enough]
    rfl

/-- The node calls the handler of the first element with the second one. What follows it is not
looked at. -/
theorem dispatchCommand_present (env : NodeEnv) (connInfo : ConnInfo) (node : NodeState)
    (sized : Sealed iv tag) (shown : Shown add) {opcodeBytes args : Bytes} (four : opcodeBytes.length = 4)
    (first : container.elements[0]? = some opcodeBytes)
    (second : container.elements[1]? = some args)
    (content : message.bytes =
      openedMessage host iv tag 0 (some container) add pckGSettings nonce ++ rest) :
    NodeClient.dispatchCommand host env connInfo node message (encryptedPckDataPtr add) =
      (nodeCommands (host.decode opcodeBytes) >>= fun handler =>
        .ok
          { returnValue := 0
            connInfo := some connInfo
            node := node
            message := message
            called := some
              { opcode := host.decode opcodeBytes
                command := handler
                args := args
                argsLen := UInt32.ofNat args.length } }) := by
  have room : maxMsgLen = 255 ∧ NodeClient.stackSize = 8388608 := ⟨rfl, rfl⟩
  obtain ⟨-, front, position, place⟩ := opened_place sized content
  have inside := element_inside place second
  have length : (UInt32.ofNat args.length).toNat = args.length := by
    rw [UInt32.toNat_ofNat']
    omega
  have some : opcodeBytes ≠ [] := by
    rintro rfl
    cases four
  obtain ⟨opcode, same, ranOpcode⟩ := getElement_full env.opcode place position first some four
  have ranLength := getElementLength_ok place position second
  obtain ⟨found, argsRead, sameArgs, ranArgs⟩ := getElement_sized
    (env.args (UInt32.ofNat args.length).toNat) place position second length.symm
  have short : ¬ NodeClient.stackSize < (UInt32.ofNat args.length).toNat := by omega
  simp only [NodeClient.dispatchCommand, printMessage_opened sized content, ok_bind,
    read_shown message shown, ranOpcode, ranLength, if_neg short, ranArgs, same, sameArgs]
  refine bind_congr fun handler => ?_
  rw [runNodeCommand_ok (Nat.le_of_eq length)]
  rfl

/-- With arguments, of any length, the handler of the opcode that was read is called with
them. -/
theorem dispatchCommand_with_args (sized : Sealed iv tag) (shown : Shown add)
    (carries : Carries serverHost command container add) (wellFormed : WellFormed command)
    {argsPtr : Bytes} (given : command.argsPtr = some argsPtr)
    (content : message.bytes =
      openedMessage host iv tag 0 (some container) add pckGSettings nonce ++ rest) :
    NodeClient.dispatchCommand host env connInfo node message (encryptedPckDataPtr add) =
      (nodeCommands (opcodeRead serverHost host command) >>= fun handler =>
        .ok
          { returnValue := 0
            connInfo := some connInfo
            node := node
            message := message
            called := some
              { opcode := opcodeRead serverHost host command
                command := handler
                args := argsOf command
                argsLen := command.argsLen } }) := by
  have length := length_argsOf wellFormed given
  have first : container.elements[0]? = some (serverHost.encode command.opCode) := by
    simp [carries.encrypted, encryptedElements]
  have second : container.elements[1]? = some (argsOf command) := by
    simp [carries.encrypted, encryptedElements, given]
  have dispatched := dispatchCommand_present env connInfo node sized shown
    (ByteOrder.encode_length serverHost command.opCode) first second content
  rw [length, UInt32.ofNat_toNat] at dispatched
  exact dispatched

end Receiving

/-! ### From one end to the other -/

/-- The two ends of an established session. They share the key of the device, and both have a
session id. -/
structure Session where
  devInfos : List DevInfo
  devId : Bytes
  outgoing : Outgoing
  connInfo : ConnInfo
  node : NodeState
  sameKey : findEncryptionKey devInfos devId = some node.pointerToKey
  onServer : outgoing.connInfo.sessionId ≠ 0
  onNode : connInfo.sessionId ≠ 0

/-- The call that a command is meant to lead to. -/
def intendedCall (command : CommandRequestCommand) (handler : NodeCommand) : NodeCall :=
  { opcode := command.opCode
    command := handler
    args := argsOf command
    argsLen := if command.argsPtr = none then 0 else command.argsLen }

/-- `sendOffCommand` sends one frame for the command, and wherever the node receives it
unmodified, whatever lies behind it in the buffer, it makes the intended call. -/
def Delivers (serverHost host : ByteOrder) (gcm : Gcm) (ecdh : Ecdh) (serverEnv : ServerEnv)
    (env : NodeEnv) (session : Session) (command : CommandRequestCommand)
    (handler : NodeCommand) : Prop :=
  ∃ next sent,
    sendOffCommand serverHost gcm session.devInfos session.devId serverEnv command
        session.outgoing = .ok next ∧
      next.sent = session.outgoing.sent ++ [sent] ∧ sent.length ≤ maxMsgLen ∧
      ∀ message : Block maxMsgLen, sent <+: message.bytes →
        ∃ result,
          NodeClient.processMsg host gcm ecdh env (some session.connInfo) session.node message =
              .ok result ∧
            result.called = some (intendedCall command handler)

section Delivering

variable {serverHost host : ByteOrder} {gcm : Gcm} {ecdh : Ecdh} {serverEnv : ServerEnv}
  {env : NodeEnv} {session : Session} {command : CommandRequestCommand} {handler : NodeCommand}

/-- The frame is sent, and the node dispatches what it opens. -/
theorem dispatched (serverHost host : ByteOrder) (gcm : Gcm) (ecdh : Ecdh) (serverEnv : ServerEnv)
    (env : NodeEnv) (session : Session) (wellFormed : WellFormed command)
    (fits : messageLength command ≤ maxMsgLen) :
    ∃ next sent container add,
      sendOffCommand serverHost gcm session.devInfos session.devId serverEnv command
          session.outgoing = .ok next ∧
        next.sent = session.outgoing.sent ++ [sent] ∧ sent.length ≤ maxMsgLen ∧
        Carries serverHost command container add ∧
        ∀ message : Block maxMsgLen, sent <+: message.bytes →
          ∃ iv tag rest buffer, ∃ opened : Block maxMsgLen, Sealed iv tag ∧
            NodeClient.processMsg host gcm ecdh env (some session.connInfo) session.node message =
                NodeClient.dispatchCommand host env session.connInfo
                  { session.node with decryptionBuffer := buffer } opened
                  (encryptedPckDataPtr add) ∧
              opened.bytes = openedMessage host iv tag 0 (some container) add command.gSettings
                (nextNonce serverHost session.outgoing.connInfo) ++ rest := by
  obtain ⟨out, container, add, carries, ran⟩ :=
    sendOffCommand_ok serverHost gcm serverEnv wellFormed fits session.sameKey session.onServer
  have vector := (serverEnv.draws (session.outgoing.handed + 1)).newIv.allocated
  refine ⟨_, _, container, add, ran, rfl, ?_, carries, ?_⟩
  · rw [length_frame _ _ _ _ _ _ vector, carries.composedLength_eq wellFormed]
    exact fits
  · rintro message ⟨rest, content⟩
    obtain ⟨tag, sized, opened, buffer, processed, inMessage, -⟩ :=
      clientProcessMsg_frame host ecdh env session.connInfo vector carries.begun.2 content.symm
    rw [if_neg session.onNode] at processed
    exact ⟨_, tag, rest, buffer, opened, sized, processed, inMessage⟩

/-- In an established session a command reaches its handler unchanged exactly if it has arguments,
the two hosts take the bytes of its opcode for the same number, and its additional data are
short. -/
theorem delivers_iff (wellFormed : WellFormed command)
    (fits : messageLength command ≤ maxMsgLen)
    (registered : nodeCommands command.opCode = .ok handler) :
    Delivers serverHost host gcm ecdh serverEnv env session command handler ↔
      command.argsPtr ≠ none ∧ opcodeRead serverHost host command = command.opCode ∧
        ShortAdd command := by
  obtain ⟨next, sent, container, add, ran, sentOne, short, carries, received⟩ :=
    dispatched serverHost host gcm ecdh serverEnv env session wellFormed fits
  constructor
  · rintro ⟨next', sent', ran', sentOne', -, delivered⟩
    obtain rfl := Except.ok.inj (ran.symm.trans ran')
    obtain rfl : sent = sent' := by simpa using sentOne.symm.trans sentOne'
    have held := Block.prefix_holding short
    obtain ⟨iv, tag, rest, buffer, opened, sized, processed, inMessage⟩ := received _ held
    obtain ⟨result, ranNode, called⟩ := delivered _ held
    rw [processed] at ranNode
    have shown : Shown add := by
      by_contra far
      rw [dispatchCommand_not_shown sized far inMessage] at ranNode
      cases ranNode
    cases args : command.argsPtr with
    | none =>
        rw [dispatchCommand_without_args sized shown carries args inMessage] at ranNode
        cases ranNode
    | some argsPtr =>
        rw [dispatchCommand_with_args sized shown carries wellFormed args inMessage] at ranNode
        obtain ⟨reached, -, ranNode⟩ := bind_eq_ok.mp ranNode
        obtain rfl := Except.ok.inj ranNode
        refine ⟨by simp, ?_, (carries.shown_iff wellFormed).mp shown⟩
        exact congrArg NodeCall.opcode (Option.some.inj called)
  · rintro ⟨present, sameOpcode, shortAdd⟩
    have shown : Shown add := (carries.shown_iff wellFormed).mpr shortAdd
    obtain ⟨argsPtr, given⟩ := Option.ne_none_iff_exists'.mp present
    refine ⟨next, sent, ran, sentOne, short, fun message held => ?_⟩
    obtain ⟨iv, tag, rest, buffer, opened, sized, processed, inMessage⟩ := received message held
    rw [processed, dispatchCommand_with_args sized shown carries wellFormed given inMessage,
      sameOpcode, registered]
    exact ⟨_, rfl, by simp [intendedCall, given]⟩

/-- A passcode of four digits reaches the lock, between hosts of one byte order. -/
def sampleSession : Session :=
  { devInfos := [default]
    devId := List.replicate devIdLen 0
    outgoing :=
      { connInfo := { acceptedConnInfo 7 0 with remoteNonce := 2, localNonce := 3, sessionId := 5 }
        sendProcessingBuffer := default
        sent := []
        handed := 0 }
    connInfo := { acceptedConnInfo 4 0 with remoteNonce := 3, localNonce := 2, sessionId := 5 }
    node := { (default : NodeState) with hasEncryptionContextBeenEstablished := true }
    sameKey := by decide +kernel
    onServer := by decide
    onNode := by decide }

/-- `changePasscode` with four digits. -/
def passcodeCommand : CommandRequestCommand :=
  { opCode := 129
    argsPtr := some [49, 50, 51, 52]
    argsLen := 4
    addPtr := none
    addLen := 0
    gSettings := 0 }

/-- A change of the passcode is delivered to its handler. -/
theorem delivers_passcode :
    Delivers .little .little RoundTrip.zeroKeyGcm degenerateEcdh default default sampleSession
      passcodeCommand .changePasscode := by
  refine (delivers_iff ⟨?_, ?_⟩ (by decide) rfl).mpr ⟨by decide, by decide, by decide⟩
  · rintro argsPtr given
    obtain rfl := Option.some.inj given
    decide
  · rintro addPtr impossible
    cases impossible

/-- `rebootMessage` without arguments. -/
def rebootCommand : CommandRequestCommand :=
  { opCode := 2
    argsPtr := none
    argsLen := 0
    addPtr := none
    addLen := 0
    gSettings := 0 }

/-- AES-GCM under the zero key and the zero vector: its keystream, and its tag over the masked
frame of `rebootCommand`. -/
def rebootGcm : Gcm :=
  { keystream := fun _ _ index =>
      [3, 136, 218, 206, 96, 182, 163, 146, 243, 40, 194, 185, 113, 178, 254, 120, 247, 149, 170,
        171, 73, 75, 89, 35].getD index 0
    authenticate := fun _ _ _ _ =>
      ⟨[82, 14, 113, 244, 99, 85, 16, 245, 61, 0, 131, 134, 233, 185, 252, 120], rfl⟩ }

/-- The reboot that an honest server sends in an established session overflows the node's
stack. -/
theorem reboot_overflows :
    (do
      let next ← sendOffCommand .little rebootGcm sampleSession.devInfos sampleSession.devId
        default rebootCommand sampleSession.outgoing
      NodeClient.processMsg .little rebootGcm degenerateEcdh default (some sampleSession.connInfo)
        sampleSession.node (Block.holding maxMsgLen (next.sent.getD 0 []))) =
        .error .stackExhausted ∧
      ¬ Delivers .little .little rebootGcm degenerateEcdh default default sampleSession
        rebootCommand .rebootMessage := by
  have ran : (do
      let next ← sendOffCommand .little rebootGcm sampleSession.devInfos sampleSession.devId
        default rebootCommand sampleSession.outgoing
      NodeClient.processMsg .little rebootGcm degenerateEcdh default (some sampleSession.connInfo)
        sampleSession.node (Block.holding maxMsgLen (next.sent.getD 0 []))) =
        .error .stackExhausted := by
    decide +kernel
  refine ⟨ran, ?_⟩
  rintro ⟨next, sent, sentOff, sentOne, short, delivered⟩
  obtain rfl : sent = next.sent.getD 0 [] := by simp [sentOne, sampleSession]
  obtain ⟨result, processed, -⟩ := delivered _ (Block.prefix_holding short)
  rw [sentOff, ok_bind, processed] at ran
  cases ran

end Delivering

end RentMate.CommandDelivery
