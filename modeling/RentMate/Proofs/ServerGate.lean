/-
Module: RentMate.Proofs.ServerGate
Purpose: Which frames may change a session, release commands, change a device or reach a handler
  of the server, over whole runs. The debug print in front of everything else can rewrite the
  frame; runs whose frames it leaves alone keep the gate.
Trusted boundary: none
Main exports: WellFormed, PrintKeeps, Authenticated, FrameGated, gate_along
-/
import RentMate.Machine.Run
import RentMate.MainServer.Serving
import RentMate.Proofs.CommandQueueFifo
import RentMate.Proofs.Registry

namespace RentMate.ServerGate

open RentMate.Machine
open RentMate.PckData
open RentMate.MainServer
open RentMate.CommandQueueFifo
open RentMate.ContainerCodec
open RentMate.MessageCodec
open RentMate.Registry
open RentMate.RoundTrip
open RentMate.ServerSteps

variable {host : ByteOrder} {gcm : Gcm} {ecdh : Ecdh}

/-! ### The ADD container of a frame -/

/-- Where the ADD container of a frame lies, by the length of the extra section that the frame
declares. -/
def frameAddPtr (msg : Block maxMsgLen) : Nat :=
  headerLen + (ByteOrder.big.decode (slice msg.bytes 8 4)).toNat + protocolSpecificAddLen

/-- The container lies at `ptr`, in network order. -/
def Holds (memory : Block maxMsgLen) (ptr : Nat) (container : Container) : Prop :=
  ∃ front rest, front.length = ptr ∧ memory.bytes = front ++ (container.bytes .big ++ rest)

/-- The first three elements, where present, have the sizes of a DEVID, a device type and a
connection type. -/
def WellSized (add : Container) : Prop :=
  ∀ (index size : Nat) (element : Bytes), [devIdLen, 1, 1][index]? = some size →
    add.elements[index]? = some element → element.length = size

/-- The frame has an ADD container with well-sized elements. -/
def WellFormed (msg : Block maxMsgLen) (add : Container) : Prop :=
  Holds msg (frameAddPtr msg) add ∧ WellSized add

/-- The print of the frame at the beginning of `processMsg` leaves the ADD container as it came
in. -/
def PrintKeeps (host : ByteOrder) (msg : Block maxMsgLen) (add : Container) : Prop :=
  ∀ printed, printMessage host msg true true = .ok printed → Holds printed (frameAddPtr msg) add

section Naming

variable {env : ServerEnv} {msg left : Block maxMsgLen} {identity : Identity} {add : Container}

/-- The ADD section lies where the first length field puts it. -/
theorem addPckDataPtr_eq {extraMsgLenWord : UInt32}
    (loaded : msg.load32 host 8 = .ok extraMsgLenWord) :
    addPckDataPtr host extraMsgLenWord = frameAddPtr msg := by
  obtain ⟨fits, rfl⟩ := Block.load32_eq_ok.mp loaded
  have four : (slice msg.bytes 8 4).length = 4 := length_slice (by rw [msg.allocated]; exact fits)
  rw [addPckDataPtr, ntohl_decode host four, frameAddPtr]

/-- Without an element there is no DEVID to find. -/
theorem getElement_nothing {size outputSize pckData : Nat} {memory : Block size}
    {front rest : Bytes} {container : Container} {output written : Block outputSize}
    {found : UInt32} (content : memory.bytes = front ++ (container.bytes host ++ rest))
    (position : front.length = pckData) (empty : container.elements = [])
    (ran : getElementFromPckData host memory pckData output 0 = .ok (found, written)) :
    found = minusOne := by
  obtain ⟨total, -⟩ := at_container content position
  have eight : UInt32.ofNat container.length = 8 := by simp [Container.length, empty]
  rw [getElementFromPckData, total, ok_bind, eight, getElementFrom] at ran
  obtain ⟨_, -, ran⟩ := bind_eq_ok.mp ran
  rw [if_pos (by decide)] at ran
  exact (Prod.mk.inj (Except.ok.inj ran)).1.symm

/-- The DEVID that `processMsg` reads is the first element of the frame's ADD container. -/
theorem named_element (wellFormed : WellFormed msg add) (keeps : PrintKeeps host msg add)
    (names : Names host env msg identity left) :
    add.elements[0]? = some identity.devIdFromMessage.bytes := by
  obtain ⟨extraMsgLenWord, printed, loaded, shown, identified⟩ := names
  obtain ⟨front, rest, position, content⟩ := keeps printed shown
  rw [addPckDataPtr_eq loaded] at identified
  unfold readIdentity at identified
  obtain ⟨converted, ranConvert, identified⟩ := bind_eq_ok.mp identified
  obtain ⟨converted', ranConvert', converts⟩ := pckDataToHostOrder_ok host add content position
  obtain rfl := Except.ok.inj (ranConvert'.symm.trans ranConvert)
  obtain ⟨⟨found, devIdFromMessage⟩, ranId, identified⟩ := bind_eq_ok.mp identified
  simp only at identified
  split at identified
  · simp at identified
  · rename_i present
    obtain ⟨⟨_, _⟩, -, identified⟩ := bind_eq_ok.mp identified
    obtain ⟨⟨_, _⟩, -, identified⟩ := bind_eq_ok.mp identified
    obtain ⟨_, -, identified⟩ := bind_eq_ok.mp identified
    obtain ⟨given, -⟩ := Prod.mk.inj (Except.ok.inj identified)
    obtain rfl := Option.some.inj given
    cases first : add.elements[0]? with
    | none =>
        have empty : add.elements = [] := by simpa using first
        exact absurd (getElement_nothing converts position empty ranId) present
    | some element =>
        have sized : element.length = devIdLen := wellFormed.2 0 devIdLen element rfl first
        have begun : element ≠ [] := by
          rintro rfl
          simp at sized
        obtain ⟨written, ranId', filled⟩ :=
          getElement_ok _ converts position first (.inl begun) (Nat.le_of_eq sized)
        obtain ⟨-, rfl⟩ := Prod.mk.inj (Except.ok.inj (ranId'.symm.trans ranId))
        have behind : env.devIdFromMessage.bytes.drop element.length = [] := by simp [sized]
        rw [filled, behind, List.append_nil]

end Naming

/-! ### The gate -/

/-- The frame's ADD element 0 is the device, the device is registered, and `decryptPckData`
succeeds on the frame, as it is once the ADD container has been read, under the device's key. -/
def Authenticated (host : ByteOrder) (gcm : Gcm) (server : ServerState) (msg : Block maxMsgLen)
    (add : Container) (devId : Bytes) : Prop :=
  add.elements[0]? = some devId ∧
    ∃ env identity left devInfo decrypted, Names host env msg identity left ∧
      findDevInfo server.devInfos devId = some devInfo ∧
      decryptPckData host gcm devInfo.key.bytes left server.decryptedMsgBuffer = .ok decrypted ∧
      decrypted.returnValue = 0

/-- What the frame on the connection at `index` may do. -/
structure FrameGated (host : ByteOrder) (gcm : Gcm) (before after : Serving) (index : Nat)
    (msg : Block maxMsgLen) (add : Container) : Prop where
  user : ∀ connInfo, before.connections[index]? = some connInfo →
    connInfo.connectionType ≠ 0 → after = before
  others : ∀ other, other ≠ index → after.connections[other]? = before.connections[other]?
  sessions : after.connections ≠ before.connections →
    ∃ devId, Authenticated host gcm before.server msg add devId
  commands : ∀ devId,
    entriesFor devId after.server.commandsQueue ≠ entriesFor devId before.server.commandsQueue →
      Authenticated host gcm before.server msg add devId
  devices : ∃ revised added, after.server.devInfos = revised ++ added ∧
    List.Forall₂ (fun old new => new ≠ old →
      Authenticated host gcm before.server msg add old.devId.bytes) before.server.devInfos revised ∧
    after.server.savedDevices = before.server.savedDevices ++ added ∧
    (added = [] ∨ ∃ newDevInfo : DevInfo, added = [newDevInfo] ∧
      add.elements[0]? = some newDevInfo.devId.bytes ∧
      findDevInfo before.server.devInfos newDevInfo.devId.bytes = none)
  handlers : ∃ calls, after.calls = before.calls ++ calls ∧
    ∀ call ∈ calls, Authenticated host gcm before.server msg add call.devId
  unregistered : ∀ devId, add.elements[0]? = some devId →
    findDevInfo before.server.devInfos devId = none →
      after.connections = before.connections ∧
        after.server.commandsQueue = before.server.commandsQueue ∧ after.calls = before.calls ∧
        ∃ sent, after.sent = before.sent ++ sent ∧ sent.length ≤ 1

section Gating

variable {before after : Serving} {index : Nat} {env : ServerEnv} {msg left : Block maxMsgLen}
  {connInfo : ConnInfo} {identity : Identity} {add : Container} {devInfo : DevInfo}
  {result : ServerResult} {server : ServerState}

/-- The server after a frame on the connection at `index`. -/
def afterFrame (serving : Serving) (index : Nat) (result : ServerResult) : Serving :=
  { connections := serving.connections.set index result.connInfo
    server := result.server
    calls := serving.calls ++ result.called.toList
    sent := serving.sent ++ result.sent }

/-- Putting a connection where it is changes nothing. -/
theorem set_known (known : before.connections[index]? = some connInfo) :
    before.connections.set index connInfo = before.connections := by
  obtain ⟨inside, rfl⟩ := List.getElem?_eq_some_iff.mp known
  exact List.set_getElem_self inside

/-- A frame that changes nothing needs no gate. -/
theorem frameGated_same : FrameGated host gcm before before index msg add := by
  constructor
  · intro _ _ _
    rfl
  · intro other _
    rfl
  · intro changed
    exact absurd rfl changed
  · intro devId changed
    exact absurd rfl changed
  · refine ⟨before.server.devInfos, [], by simp, ?_, by simp, .inl rfl⟩
    exact List.forall₂_same.mpr fun devInfo _ differs => absurd rfl differs
  · exact ⟨[], by simp, by simp⟩
  · intro devId _ _
    exact ⟨rfl, rfl, rfl, [], by simp, by simp⟩

/-- A frame that leaves connection, devices and queue alone is not gated. -/
theorem frameGated_idle (known : before.connections[index]? = some connInfo)
    (node : connInfo.connectionType = 0) (sameDevices : server.devInfos = before.server.devInfos)
    (sameSaved : server.savedDevices = before.server.savedDevices)
    (sameQueue : server.commandsQueue = before.server.commandsQueue) :
    FrameGated host gcm before
      { connections := before.connections.set index connInfo
        server := server
        calls := before.calls ++ []
        sent := before.sent ++ [] } index msg add := by
  rw [set_known known]
  constructor
  · intro connInfo' known' user
    rw [known] at known'
    obtain rfl := Option.some.inj known'
    exact absurd node user
  · intro other _
    rfl
  · intro changed
    exact absurd rfl changed
  · intro devId changed
    exact absurd (by rw [sameQueue]) changed
  · refine ⟨before.server.devInfos, [], by simp [sameDevices], ?_, by simp [sameSaved], .inl rfl⟩
    exact List.forall₂_same.mpr fun devInfo _ differs => absurd rfl differs
  · exact ⟨[], rfl, by simp⟩
  · intro devId _ _
    exact ⟨rfl, sameQueue, by simp, [], rfl, by simp⟩

/-- A registration is a gated step. -/
theorem frameGated_registered (known : before.connections[index]? = some connInfo)
    (node : connInfo.connectionType = 0)
    (named : add.elements[0]? = some identity.devIdFromMessage.bytes)
    (unregistered : findDevInfo before.server.devInfos identity.devIdFromMessage.bytes = none)
    (registered : Registered identity connInfo before.server result) :
    FrameGated host gcm before (afterFrame before index result) index msg add := by
  obtain ⟨newDevInfo, own, appended, saved⟩ := registered.registry
  obtain ⟨reply, sent⟩ := registered.reply
  rw [afterFrame, registered.connInfo, set_known known, registered.called, sent]
  constructor
  · intro connInfo' known' user
    rw [known] at known'
    obtain rfl := Option.some.inj known'
    exact absurd node user
  · intro other _
    rfl
  · intro changed
    exact absurd rfl changed
  · intro devId changed
    exact absurd (by rw [registered.queue]) changed
  · refine ⟨before.server.devInfos, [newDevInfo], appended, ?_, saved, .inr ?_⟩
    · exact List.forall₂_same.mpr fun devInfo _ differs => absurd rfl differs
    · exact ⟨newDevInfo, rfl, by rw [own]; exact named, by rw [own]; exact unregistered⟩
  · exact ⟨[], rfl, by simp⟩
  · intro devId _ _
    exact ⟨rfl, registered.queue, by simp, [reply], rfl, Nat.le_refl _⟩

/-- A decrypted frame acts for the device whose key it was decrypted under. -/
theorem frameGated_acted (known : before.connections[index]? = some connInfo)
    (node : connInfo.connectionType = 0)
    (authenticated : Authenticated host gcm before.server msg add
      identity.devIdFromMessage.bytes)
    (acted : Acted identity.devIdFromMessage.bytes connInfo before.server result) :
    FrameGated host gcm before (afterFrame before index result) index msg add := by
  constructor
  · intro connInfo' known' user
    rw [known] at known'
    obtain rfl := Option.some.inj known'
    exact absurd node user
  · intro other different
    exact List.getElem?_set_ne (Ne.symm different)
  · intro _
    exact ⟨_, authenticated⟩
  · intro devId changed
    by_cases own : devId = identity.devIdFromMessage.bytes
    · rw [own]
      exact authenticated
    · refine absurd ?_ changed
      rcases acted.queue with same | released
      · rw [afterFrame, same]
      · rw [afterFrame, released, entriesFor_leftBehind_of_ne own]
  · refine ⟨result.server.devInfos, [], by simp [afterFrame], ?_,
      by simp [afterFrame, acted.saved], .inl rfl⟩
    refine acted.registry.imp fun old new revised differs => ?_
    by_cases own : old.devId.bytes = identity.devIdFromMessage.bytes
    · rw [own]
      exact authenticated
    · exact absurd (revised.2.2 own) differs
  · refine ⟨result.called.toList, rfl, fun call called => ?_⟩
    rw [acted.onBehalf call (by simpa using called)]
    exact authenticated
  · intro devId element unknown
    obtain ⟨named, -, -, -, devInfo, -, -, registered, -⟩ := authenticated
    obtain rfl := Option.some.inj (element.symm.trans named)
    rw [unknown] at registered
    cases registered

/-- One frame whose ADD container survives the print keeps the gate. -/
theorem frame_gated (wellFormed : WellFormed msg add) (keeps : PrintKeeps host msg add)
    (ran : serve host gcm ecdh before (.frame index env msg) = .ok after) :
    FrameGated host gcm before after index msg add := by
  simp only [serve] at ran
  split at ran
  · obtain rfl := Except.ok.inj ran
    exact frameGated_same
  · rename_i connInfo known
    obtain ⟨result, processed, ran⟩ := bind_eq_ok.mp ran
    obtain rfl := Except.ok.inj ran
    cases processMsg_cases processed with
    | ofUser =>
        simp only [Option.toList_none, List.append_nil, set_known known]
        exact frameGated_same
    | nameless =>
        simp only [Option.toList_none, List.append_nil, set_known known]
        exact frameGated_same
    | unknown node names unregistered registering =>
        exact frameGated_registered known node (named_element wellFormed keeps names) unregistered
          (registerDevice_registered registering)
    | rejected node => exact frameGated_idle known node rfl rfl rfl
    | accepted node names registered decrypts succeeded acted =>
        have own := processDecrypted_acted (findDevInfo_devId registered) acted
        refine frameGated_acted known node ⟨named_element wellFormed keeps names, ?_⟩ ?_
        · exact ⟨env, _, _, _, _, names, registered, decrypts, succeeded⟩
        · exact { own with }

end Gating

/-! ### Runs -/

section Runs

variable {serving reached : Serving} {events : List ServingEvent}

/-- The gate of one event: only a frame needs one. -/
def Gate (host : ByteOrder) (gcm : Gcm) (ecdh : Ecdh) (before : Serving) : ServingEvent → Prop
  | .frame index env msg =>
      ∀ add, WellFormed msg add → ∀ after,
        serve host gcm ecdh before (.frame index env msg) = .ok after →
          FrameGated host gcm before after index msg add
  | _ => True

/-- The frame, if the event is one, keeps its ADD container through the print. -/
def FrameKept (host : ByteOrder) : ServingEvent → Prop
  | .frame _ _ msg => ∀ add, WellFormed msg add → PrintKeeps host msg add
  | _ => True

/-- A frame that the print leaves as it is keeps its ADD container. -/
theorem frameKept_of_unchanged {index : Nat} {env : ServerEnv} {msg : Block maxMsgLen}
    (same : printMessage host msg true true = .ok msg) :
    FrameKept host (.frame index env msg) := by
  intro add wellFormed printed shown
  obtain rfl := Except.ok.inj (same.symm.trans shown)
  exact wellFormed.1

/-- In every run whose frames keep their ADD container through the print, every frame is
gated. -/
theorem gate_along
    (kept : Along (serve host gcm ecdh) serving (fun _ _ event => FrameKept host event) events) :
    Along (serve host gcm ecdh) serving (fun _ reached event => Gate host gcm ecdh reached event)
      events := by
  intro before event rest split reached ran
  have keeps := kept before event rest split reached ran
  cases event with
  | frame index env msg =>
      intro add wellFormed after stepped
      exact frame_gated wellFormed (keeps add wellFormed) stepped
  | accepted | closed | queued => trivial

end Runs

/-! ### A host that stores words in network order -/

section BigEndian

variable {size pckData : Nat} {memory converted printed : Block size} {lengthOf : UInt32 → UInt32}
  {serving : Serving} {events : List ServingEvent}

/-- Storing a word where it was loaded changes nothing. -/
theorem store32_loaded {order : ByteOrder} {offset : Nat} {word : UInt32}
    (loaded : memory.load32 order offset = .ok word)
    (stored : memory.store32 order offset word = .ok converted) : converted = memory := by
  obtain ⟨fits, rfl⟩ := Block.load32_eq_ok.mp loaded
  obtain ⟨-, content⟩ := Block.store32_eq_ok.mp stored
  have inside : offset + 4 ≤ memory.bytes.length := by rw [memory.allocated]; exact fits
  apply Block.eq_of_bytes
  rw [content, order.encode_decode (length_slice inside), splice_slice inside]

/-- On a big-endian host the conversion of the elements changes nothing. -/
theorem convertElements_big {totalLen : UInt32} {fuel : Nat} {currentLen : UInt32}
    (ran : convertElements .big lengthOf pckData totalLen fuel currentLen memory =
      .ok converted) : converted = memory := by
  induction fuel generalizing currentLen memory with
  | zero => cases ran
  | succ fuel ih =>
      rw [convertElements] at ran
      split at ran
      · obtain ⟨word, loaded, ran⟩ := bind_eq_ok.mp ran
        obtain ⟨stored, ranStore, ran⟩ := bind_eq_ok.mp ran
        rw [htonl_big] at ranStore
        rw [store32_loaded loaded ranStore] at ran
        exact ih ran
      · exact (Except.ok.inj ran).symm

/-- On a big-endian host the conversion of a container changes nothing. -/
theorem convertPckData_big
    (ran : convertPckData .big lengthOf memory pckData = .ok converted) : converted = memory := by
  unfold convertPckData at ran
  obtain ⟨word, loaded, ran⟩ := bind_eq_ok.mp ran
  obtain ⟨stored, ranStore, ran⟩ := bind_eq_ok.mp ran
  rw [htonl_big] at ranStore
  rw [store32_loaded loaded ranStore] at ran
  obtain ⟨increments, loadedNext, ran⟩ := bind_eq_ok.mp ran
  obtain ⟨storedNext, ranStoreNext, ran⟩ := bind_eq_ok.mp ran
  rw [htonl_big] at ranStoreNext
  rw [store32_loaded loadedNext ranStoreNext] at ran
  exact convertElements_big ran

/-- On a big-endian host a print leaves the container as it was. -/
theorem printPckData_big {isSerialized : Bool}
    (ran : printPckData .big memory pckData isSerialized = .ok printed) : printed = memory := by
  unfold printPckData at ran
  obtain ⟨shown, ranShow, ran⟩ := bind_eq_ok.mp ran
  have same : shown = memory := by
    split at ranShow
    · exact convertPckData_big ranShow
    · exact (Except.ok.inj ranShow).symm
  rw [same] at ran
  obtain ⟨pckDataLen, -, ran⟩ := bind_eq_ok.mp ran
  split at ran
  · exact (Except.ok.inj ran).symm
  · obtain ⟨_, -, ran⟩ := bind_eq_ok.mp ran
    obtain ⟨_, -, ran⟩ := bind_eq_ok.mp ran
    split at ran
    · exact convertPckData_big ran
    · exact (Except.ok.inj ran).symm

/-- The print of a section that may not be there. -/
theorem printSection_big {present : Prop} [Decidable present] {isSerialized : Bool}
    (ran : (if present then printPckData .big memory pckData isSerialized else pure memory) =
      .ok printed) : printed = memory := by
  split at ran
  · exact printPckData_big ran
  · exact (Except.ok.inj ran).symm

/-- On a big-endian host a print leaves the message as it was. -/
theorem printMessage_big {isEncrypted isSerialized : Bool}
    (ran : printMessage .big memory isEncrypted isSerialized = .ok printed) :
    printed = memory := by
  unfold printMessage at ran
  obtain ⟨_, -, ran⟩ := bind_eq_ok.mp ran
  obtain ⟨_, -, ran⟩ := bind_eq_ok.mp ran
  obtain ⟨_, -, ran⟩ := bind_eq_ok.mp ran
  obtain ⟨_, -, ran⟩ := bind_eq_ok.mp ran
  obtain ⟨extraShown, ranExtra, ran⟩ := bind_eq_ok.mp ran
  rw [printSection_big ranExtra] at ran
  obtain ⟨_, -, ran⟩ := bind_eq_ok.mp ran
  obtain ⟨addShown, ranAdd, ran⟩ := bind_eq_ok.mp ran
  rw [printSection_big ranAdd] at ran
  cases isEncrypted with
  | true =>
      obtain ⟨_, -, ran⟩ := bind_eq_ok.mp ran
      exact (Except.ok.inj ran).symm
  | false =>
      obtain ⟨_, -, ran⟩ := bind_eq_ok.mp ran
      exact printSection_big ran

/-- Where the conversions change nothing, every run keeps the gate. -/
theorem gate_along_bigEndian :
    Along (serve .big gcm ecdh) serving (fun _ reached event => Gate .big gcm ecdh reached event)
      events := by
  refine gate_along fun before event rest _ reached _ => ?_
  cases event with
  | frame index env msg =>
      intro add wellFormed printed shown
      rw [printMessage_big shown]
      exact wellFormed.1
  | accepted | closed | queued => trivial

end BigEndian

/-- Two key exchanges keep the gate. -/
theorem gate_along_two_devices :
    Along (serve .little lengthTagged degenerateEcdh) emptyServing
      (fun _ reached event => Gate .little lengthTagged degenerateEcdh reached event)
      [.frame 0 default (.holding maxMsgLen (exchangeFrame 1)),
        .frame 0 default (.holding maxMsgLen (exchangeFrame 2))] := by
  have first : printMessage .little (.holding maxMsgLen (exchangeFrame 1)) true true =
      .ok (.holding maxMsgLen (exchangeFrame 1)) := by
    decide +kernel
  have second : printMessage .little (.holding maxMsgLen (exchangeFrame 2)) true true =
      .ok (.holding maxMsgLen (exchangeFrame 2)) := by
    decide +kernel
  refine gate_along (along_cons.mpr ⟨frameKept_of_unchanged first, fun _ _ => ?_⟩)
  exact along_cons.mpr ⟨frameKept_of_unchanged second, fun _ _ => along_nil⟩

/-! ### A frame that the print rewrites -/

/-- AES-GCM under the zero key, for the vectors of zeros and of ones: its keystreams, its tag over
the forged frame below, and its tag over the server's answer. -/
def forgedGcm : Gcm :=
  { keystream := fun _ iv index =>
      if iv = List.replicate ivLen 0 then
        [3, 136, 218, 206, 96, 182, 163, 146, 243, 40, 194, 185, 113, 178, 254, 120, 247, 149,
          170, 171, 73, 75, 89, 35].getD index 0
      else [81, 19, 107, 13, 80, 23, 84, 132].getD index 0
    authenticate := fun _ iv _ _ =>
      if iv = List.replicate ivLen 0 then
        ⟨[181, 205, 128, 170, 238, 49, 18, 10, 148, 251, 24, 188, 61, 94, 88, 150], rfl⟩
      else ⟨[21, 12, 37, 156, 63, 228, 231, 221, 250, 204, 71, 132, 245, 30, 124, 21], rfl⟩ }

/-- The DEVID in the ADD container of the forged frame. -/
def forgedDevId : Bytes := [0xff, 0xff, 0xff, 0xe1] ++ List.replicate 12 0

/-- The device that made the frame: the first word of its DEVID is stored the other way round. -/
def forgingDevice : DevInfo :=
  { (default : DevInfo) with
    devId := .holding devIdLen [0xe1, 0xff, 0xff, 0xff] }

/-- The extra section of the forged frame jumps into the DEVID and back to its own length. -/
def forgedFrame : Bytes :=
  message .big (List.replicate ivLen (0 : UInt8))
    [181, 205, 128, 170, 238, 49, 18, 10, 148, 251, 24, 188, 61, 94, 88, 150]
    [0, 0, 1, 0, 0, 0, 0, 0, 0, 0, 0, 16]
    (ByteOrder.big.encode 0 ++ (containerOf [forgedDevId] (by decide)).bytes .big)
    [16, 0, 0, 0, 0xff, 0xff, 0xff, 0xe4, 243, 40, 194, 185]

/-- The server with that device and one connection of a node. -/
def forgedServing : Serving :=
  { connections := [acceptedConnInfo 7 0]
    server :=
      { devInfos := [forgingDevice]
        savedDevices := [forgingDevice]
        commandsQueue := []
        decryptedMsgBuffer := default
        sendProcessingBuffer := default }
    calls := []
    sent := [] }

def forgedEnv : ServerEnv :=
  { (default : ServerEnv) with
    draws := fun _ => { localNonce := 0, newIv := .fill ivLen 1 } }

/-- The forged frame changes the session of its connection, and its DEVID is not registered. -/
theorem gate_broken :
    ¬ Along (serve .little forgedGcm degenerateEcdh) forgedServing
      (fun _ reached event => Gate .little forgedGcm degenerateEcdh reached event)
      [.frame 0 forgedEnv (.holding maxMsgLen forgedFrame)] := by
  intro along
  have gate := (along_cons.mp along).1
  have wellFormed : WellFormed (.holding maxMsgLen forgedFrame)
      (containerOf [forgedDevId] (by decide)) := by
    refine ⟨⟨forgedFrame.take 56, forgedFrame.drop 84 ++ List.replicate 159 0, by decide +kernel,
      by decide +kernel⟩, ?_⟩
    intro index size element sized known
    match index with
    | 0 =>
        obtain rfl := Option.some.inj sized
        obtain rfl := Option.some.inj known
        rfl
    | index + 1 => simp [containerOf] at known
  have ran : (serve .little forgedGcm degenerateEcdh forgedServing
      (.frame 0 forgedEnv (.holding maxMsgLen forgedFrame))).map
        (fun after => after.connections.map ConnInfo.sessionId) = .ok [344513230] := by
    decide +kernel
  obtain ⟨after, stepped, changed⟩ := map_eq_ok.mp ran
  have gated := gate _ wellFormed after stepped
  have differs : after.connections ≠ forgedServing.connections := by
    intro same
    rw [same] at changed
    revert changed
    decide
  obtain ⟨devId, named, env, identity, left, devInfo, decrypted, -, registered, -⟩ :=
    gated.sessions differs
  obtain rfl : forgedDevId = devId := Option.some.inj named
  have unregistered : findDevInfo forgedServing.server.devInfos forgedDevId = none := by
    decide +kernel
  rw [unregistered] at registered
  cases registered

end RentMate.ServerGate
