/-
Module: RentMate.Proofs.Registration
Purpose: For which frames of an unknown device the server registers a device only with a complete
  key exchange, and otherwise changes nothing.
Trusted boundary: none
Main exports: Entitles, AllOrNothing, Registrable, allOrNothing_iff
-/
import RentMate.Proofs.KeyExchange
import RentMate.Proofs.RoundTrip

namespace RentMate.Registration

open RentMate.Machine
open RentMate.PckData
open RentMate.MainServer
open RentMate.ContainerCodec
open RentMate.MessageCodec
open RentMate.SessionCodec
open RentMate.ServerSteps
open RentMate.RoundTrip (containerOf)
open RentMate.KeyExchange (privateKeyOf derivedKey registeredDevice registerDevice_ok)

/-! ### Containers of a frame -/

/-- A container in network order lies at this place of the frame. -/
def Lies (msg : Block maxMsgLen) (place : Nat) (container : Container) : Prop :=
  ∃ front rest : Bytes, front.length = place ∧
    msg.bytes = front ++ (container.bytes .big ++ rest)

/-- Where `processMsg` looks for the ADD container of a frame. -/
def addPlace (msg : Block maxMsgLen) : Nat :=
  headerLen + (lengthField msg 8).toNat + protocolSpecificAddLen

/-- The ADD section of the frame has this container. -/
structure HasAdd (msg : Block maxMsgLen) (container : Container) : Prop where
  lies : Lies msg (addPlace msg) container
  inside : protocolSpecificAddLen + container.length ≤ (lengthField msg 4).toNat

/-- The extra section of the frame has this container. -/
structure HasExtra (msg : Block maxMsgLen) (container : Container) : Prop where
  lies : Lies msg (headerLen + protocolSpecificExtraDataLen) container
  inside : protocolSpecificExtraDataLen + container.length ≤ (lengthField msg 8).toNat

/-! ### The promise -/

/-- The frame entitles a device to be registered as this entry: it holds the DEVID and a public
key, keys have been generated, and the key of the entry is the beginning of the secret that has
been derived. -/
structure Entitles (ecdh : Ecdh) (env : ServerEnv) (msg : Block maxMsgLen)
    (newDevInfo : DevInfo) : Prop where
  devId : ∃ add, HasAdd msg add ∧ add.elements[0]? = some newDevInfo.devId.bytes
  publicKey : ∃ extra secret, ∃ publicKey : Block eccPubKeySize, HasExtra msg extra ∧
    extra.elements[0]? = some publicKey.bytes ∧
    (ecdh.generateKeys env.privateDHKey).1 = true ∧
    ecdh.sharedSecret (privateKeyOf ecdh env.privateDHKey) publicKey = some secret ∧
    newDevInfo.key = keyOf secret

/-- The list of devices, the file and the connection are as they were, and nothing is sent. -/
structure Unchanged (connInfo : ConnInfo) (server : ServerState) (result : ServerResult) :
    Prop where
  devInfos : result.server.devInfos = server.devInfos
  savedDevices : result.server.savedDevices = server.savedDevices
  connInfo : result.connInfo = connInfo
  sent : result.sent = []

/-- One entry is appended to the list of devices and saved to the file. -/
structure Appended (server : ServerState) (newDevInfo : DevInfo) (result : ServerResult) :
    Prop where
  devInfos : result.server.devInfos = server.devInfos ++ [newDevInfo]
  savedDevices : result.server.savedDevices = server.savedDevices ++ [newDevInfo]

/-- The frame changes nothing, or registers a device that it entitles to that. -/
def AllOrNothing (host : ByteOrder) (gcm : Gcm) (ecdh : Ecdh) (env : ServerEnv)
    (connInfo : ConnInfo) (server : ServerState) (msg : Block maxMsgLen) : Prop :=
  ∃ result, processMsg host gcm ecdh env connInfo server msg = .ok result ∧
    (Unchanged connInfo server result ∨
      ∃ newDevInfo, Entitles ecdh env msg newDevInfo ∧ Appended server newDevInfo result)

/-! ### The condition -/

/-- The server finds no DEVID: converted, the ADD container has no more than its header and the
length of one element. -/
def Anonymous (host : ByteOrder) (printed : Block maxMsgLen) (place : Nat) : Prop :=
  ∃ converted totalLen firstLen, pckDataToHostOrder host printed place = .ok converted ∧
    converted.load32 host place = .ok totalLen ∧
    converted.load32 host (place + 8) = .ok firstLen ∧ totalLen ≤ 12

/-- The frame has a DEVID, with single bytes behind it if anything, and a public key that a secret
can be derived from with the private key that has been drawn. -/
structure Registrable (ecdh : Ecdh) (env : ServerEnv) (msg : Block maxMsgLen) : Prop where
  identity : ∃ add, ∃ devId : Block devIdLen, HasAdd msg add ∧
    add.elements[0]? = some devId.bytes ∧
    (∀ element, add.elements[1]? = some element → element.length ≤ 1) ∧
    ∀ element, add.elements[2]? = some element → element.length ≤ 1
  publicKey : ∃ extra secret, ∃ publicKey : Block eccPubKeySize, HasExtra msg extra ∧
    extra.elements[0]? = some publicKey.bytes ∧
    (ecdh.generateKeys env.privateDHKey).1 = true ∧
    ecdh.sharedSecret (privateKeyOf ecdh env.privateDHKey) publicKey = some secret

/-! ### Frames with containers -/

section Frames

variable {host : ByteOrder} {msg printed : Block maxMsgLen} {place : Nat}
  {add extra : Container}

/-- A container with a first element has elements. -/
theorem begun_of_first {container : Container} {element : Bytes}
    (first : container.elements[0]? = some element) : container.elements ≠ [] := by
  intro empty
  simp [empty] at first

/-- A container with elements is printed without a change. -/
theorem printPckData_lies (host : ByteOrder) (lies : Lies msg place add)
    (begun : add.elements ≠ []) : printPckData host msg place true = .ok msg := by
  obtain ⟨front, rest, position, content⟩ := lies
  obtain ⟨left, ran, result⟩ : ∃ left, printPckData host msg place true = .ok left ∧
      left.bytes = front ++ (ContainerCodec.printed host add ++ rest) :=
    printPckData_serialized add content position
  rw [ContainerCodec.printed, if_neg begun] at result
  obtain rfl : left = msg := Block.eq_of_bytes (result.trans content.symm)
  exact ran

/-- A frame whose containers have elements is printed without a change, if it can be printed. -/
theorem printed_eq (hasAdd : HasAdd msg add) (begunAdd : add.elements ≠ [])
    (hasExtra : HasExtra msg extra) (begunExtra : extra.elements ≠ [])
    (ran : printMessage host msg true true = .ok printed) : printed = msg := by
  have kept : ∀ {place : Nat} {container : Container} {counted : Prop} [Decidable counted]
      {after : Block maxMsgLen}, Lies msg place container → container.elements ≠ [] →
      (if counted then printPckData host msg place true else pure msg) = .ok after →
      after = msg := by
    intro place container counted _ after lies begun shown
    split at shown
    · rw [printPckData_lies host lies begun] at shown
      exact (Except.ok.inj shown).symm
    · exact (Except.ok.inj shown).symm
  simp only [printMessage, if_true, bind_eq_ok] at ran
  obtain ⟨-, -, totalWord, -, addWord, -, extraWord, extraLoaded, first, printedExtra, -, -,
    second, printedAdd, -, -, ran⟩ := ran
  obtain rfl := kept hasExtra.lies begunExtra printedExtra
  rw [ntohl_load32 extraLoaded] at printedAdd
  obtain rfl := kept hasAdd.lies begunAdd printedAdd
  exact (Except.ok.inj ran).symm

/-- The lengths of a frame as `processMsg` reads them. -/
theorem frame_words (host : ByteOrder) (msg : Block maxMsgLen) :
    ∃ msgLenWord addLenWord extraLenWord, msg.load32 host 0 = .ok msgLenWord ∧
      msg.load32 host 4 = .ok addLenWord ∧ msg.load32 host 8 = .ok extraLenWord ∧
      ntohl host extraLenWord = lengthField msg 8 := by
  have total : ∃ word, msg.load32 host 0 = .ok word :=
    ⟨_, Block.load32_eq_ok.mpr ⟨by decide, rfl⟩⟩
  have addWord : ∃ word, msg.load32 host 4 = .ok word :=
    ⟨_, Block.load32_eq_ok.mpr ⟨by decide, rfl⟩⟩
  have extraWord : ∃ word, msg.load32 host 8 = .ok word :=
    ⟨_, Block.load32_eq_ok.mpr ⟨by decide, rfl⟩⟩
  rcases total with ⟨msgLenWord, total⟩
  rcases addWord with ⟨addLenWord, addWord⟩
  rcases extraWord with ⟨extraLenWord, extraWord⟩
  exact ⟨msgLenWord, addLenWord, extraLenWord, total, addWord, extraWord, ntohl_load32 extraWord⟩

end Frames

/-! ### The identity -/

section Identity

variable {host : ByteOrder} {env : ServerEnv} {msg left : Block maxMsgLen} {place : Nat}
  {identity : Identity} {add : Container}

/-- The reads find no DEVID exactly in an anonymous container. -/
theorem readIdentity_none_iff (host : ByteOrder) (env : ServerEnv) (msg : Block maxMsgLen)
    (place : Nat) :
    (∃ left, readIdentity host env msg place = .ok (none, left)) ↔ Anonymous host msg place := by
  have eight : (8 : UInt32).toNat = 8 := rfl
  have header : (8 : UInt32) + 4 = 12 := rfl
  constructor
  · rintro ⟨left, ran⟩
    obtain ⟨converted, toHost, ran⟩ := bind_eq_ok.mp ran
    obtain ⟨⟨found, devId⟩, ranDevId, ran⟩ := bind_eq_ok.mp ran
    obtain ⟨totalLen, total, ranDevId⟩ := bind_eq_ok.mp ranDevId
    rw [getElementFrom] at ranDevId
    obtain ⟨firstLen, firstLoaded, ranDevId⟩ := bind_eq_ok.mp ranDevId
    rw [eight] at firstLoaded
    split at ranDevId
    · rename_i ended
      rw [header] at ended
      exact ⟨converted, totalLen, firstLen, toHost, total, firstLoaded, ended⟩
    · obtain ⟨element, read, ranDevId⟩ := bind_eq_ok.mp ranDevId
      obtain ⟨written, wrote, ranDevId⟩ := bind_eq_ok.mp ranDevId
      obtain ⟨rfl, rfl⟩ := Prod.mk.inj (Except.ok.inj ranDevId)
      simp only at ran
      split at ran
      · rename_i missing
        -- No object has room for an element of the length -1.
        have room : maxMsgLen = 255 := rfl
        have huge : minusOne.toNat = 4294967295 := rfl
        rw [missing] at read
        rcases (Block.read_eq_ok.mp read).1 with fits | none
        · omega
        · omega
      · obtain ⟨⟨foundType, devType⟩, -, ran⟩ := bind_eq_ok.mp ran
        obtain ⟨⟨foundConnection, connectionType⟩, -, ran⟩ := bind_eq_ok.mp ran
        obtain ⟨restored, -, ran⟩ := bind_eq_ok.mp ran
        cases ran
  · rintro ⟨converted, totalLen, firstLen, toHost, total, firstLoaded, ended⟩
    refine ⟨converted, ?_⟩
    simp only [readIdentity, getElementFromPckData, getElementFrom, toHost, total, ok_bind, eight,
      firstLoaded, header, if_pos ended, pure_eq_ok, if_true]

/-- What lies behind a DEVID that has been read is single bytes. -/
theorem readIdentity_short (lies : Lies msg place add)
    (ran : readIdentity host env msg place = .ok (some identity, left)) :
    left = msg ∧ (∀ element, add.elements[1]? = some element → element.length ≤ 1) ∧
      ∀ element, add.elements[2]? = some element → element.length ≤ 1 := by
  obtain ⟨front, rest, position, content⟩ := lies
  obtain ⟨converted, toHost, inHost⟩ := pckDataToHostOrder_ok host add content position
  obtain ⟨restored, toNetwork, inNetwork⟩ := pckDataToNetworkOrder_ok host add inHost position
  obtain rfl : restored = msg := Block.eq_of_bytes (inNetwork.trans content.symm)
  simp only [readIdentity, toHost, ok_bind] at ran
  obtain ⟨⟨found, devId⟩, -, ran⟩ := bind_eq_ok.mp ran
  simp only at ran
  split at ran
  · cases ran
  · obtain ⟨⟨foundType, devType⟩, ranType, ran⟩ := bind_eq_ok.mp ran
    obtain ⟨⟨foundConnection, connectionType⟩, ranConnection, ran⟩ := bind_eq_ok.mp ran
    simp only [toNetwork, ok_bind] at ran
    obtain ⟨-, rfl⟩ := Prod.mk.inj (Except.ok.inj ran)
    refine ⟨rfl, ?_, ?_⟩
    · intro element known
      exact getElement_fits inHost position known ranType
    · intro element known
      exact getElement_fits inHost position known ranConnection

end Identity

/-! ### The frames of unknown devices -/

section Frame

variable {host : ByteOrder} {gcm : Gcm} {ecdh : Ecdh} {env : ServerEnv} {connInfo : ConnInfo}
  {server : ServerState} {msg printed left : Block maxMsgLen} {identity : Identity}
  {result : ServerResult}

/-- The device that the frame names, if it names one, is not in the list. -/
def Unknown (host : ByteOrder) (env : ServerEnv) (server : ServerState) (msg : Block maxMsgLen) :
    Prop :=
  ∀ identity left, Names host env msg identity left →
    findDevInfo server.devInfos identity.devIdFromMessage.bytes = none

/-- A frame of an unknown device ends without a DEVID or registers the device. -/
theorem processMsg_unknown (unknown : Unknown host env server msg)
    (node : connInfo.connectionType = 0)
    (ran : processMsg host gcm ecdh env connInfo server msg = .ok result) :
    ∃ printed, printMessage host msg true true = .ok printed ∧
      ((∃ left, readIdentity host env printed (addPlace msg) = .ok (none, left)) ∨
      ∃ identity left, readIdentity host env printed (addPlace msg) = .ok (some identity, left) ∧
        registerDevice host gcm ecdh env connInfo server left
          (headerLen + protocolSpecificExtraDataLen) identity = .ok result) := by
  unfold processMsg at ran
  obtain ⟨msgLenWord, -, ran⟩ := bind_eq_ok.mp ran
  obtain ⟨addMsgLenWord, -, ran⟩ := bind_eq_ok.mp ran
  obtain ⟨extraMsgLenWord, extraLoaded, ran⟩ := bind_eq_ok.mp ran
  obtain ⟨printed, shown, ran⟩ := bind_eq_ok.mp ran
  refine ⟨printed, shown, ?_⟩
  rw [if_pos node] at ran
  obtain ⟨⟨found, left⟩, identified, ran⟩ := bind_eq_ok.mp ran
  have atAdd : addPckDataPtr host extraMsgLenWord = addPlace msg := by
    rw [addPckDataPtr, ntohl_load32 extraLoaded, addPlace]
  cases found with
  | none =>
      left
      exact ⟨left, by rw [← atAdd]; exact identified⟩
  | some identity =>
      right
      have unregistered := unknown identity left
        ⟨extraMsgLenWord, printed, extraLoaded, shown, identified⟩
      simp only [unregistered] at ran
      exact ⟨identity, left, by rw [← atAdd]; exact identified, ran⟩

/-- What a frame leaves that is not acted upon. -/
def ignoredResult (connInfo : ConnInfo) (server : ServerState) (returnValue : Option Int)
    (left : Block maxMsgLen) : ServerResult :=
  { returnValue := returnValue
    connInfo := connInfo
    server := server
    msg := left
    sent := []
    called := none }

/-- An ignored frame changes nothing. -/
theorem unchanged_ignoredResult (connInfo : ConnInfo) (server : ServerState)
    (returnValue : Option Int) (left : Block maxMsgLen) :
    Unchanged connInfo server (ignoredResult connInfo server returnValue left) :=
  ⟨rfl, rfl, rfl, rfl⟩

/-- A frame on the connection of a user changes nothing. -/
theorem processMsg_user (gcm : Gcm) (ecdh : Ecdh) (env : ServerEnv) (server : ServerState)
    (user : connInfo.connectionType ≠ 0) (shown : printMessage host msg true true = .ok printed) :
    ∃ result, processMsg host gcm ecdh env connInfo server msg = .ok result ∧
      Unchanged connInfo server result := by
  obtain ⟨msgLenWord, addLenWord, extraLenWord, total, addWord, extraWord, -⟩ :=
    frame_words host msg
  refine ⟨_, ?_, unchanged_ignoredResult connInfo server none (Block.fill maxMsgLen 0)⟩
  simp only [processMsg, total, addWord, extraWord, ok_bind, shown, if_neg user, pure_eq_ok,
    ignoredResult]

/-- A frame without a DEVID changes nothing. -/
theorem processMsg_anonymous (gcm : Gcm) (ecdh : Ecdh) (env : ServerEnv) (server : ServerState)
    (node : connInfo.connectionType = 0) (shown : printMessage host msg true true = .ok printed)
    (anonymous : Anonymous host printed (addPlace msg)) :
    ∃ result, processMsg host gcm ecdh env connInfo server msg = .ok result ∧
      Unchanged connInfo server result := by
  obtain ⟨msgLenWord, addLenWord, extraLenWord, total, addWord, extraWord, extraIs⟩ :=
    frame_words host msg
  obtain ⟨left, identified⟩ :=
    (readIdentity_none_iff host env printed (addPlace msg)).mpr anonymous
  rw [addPlace, ← extraIs] at identified
  refine ⟨_, ?_, unchanged_ignoredResult connInfo server (some (-1)) left⟩
  simp only [processMsg, total, addWord, extraWord, ok_bind, shown, if_pos node, identified,
    pure_eq_ok, ignoredResult]

/-- A registrable frame of an unknown device registers the device. -/
theorem processMsg_registrable (gcm : Gcm) (unknown : Unknown host env server msg)
    (node : connInfo.connectionType = 0) (shown : printMessage host msg true true = .ok printed)
    (registrable : Registrable ecdh env msg) :
    ∃ result newDevInfo, processMsg host gcm ecdh env connInfo server msg = .ok result ∧
      Entitles ecdh env msg newDevInfo ∧ Appended server newDevInfo result := by
  obtain ⟨add, devId, hasAdd, first, shortType, shortConnection⟩ := registrable.identity
  obtain ⟨extra, secret, publicKey, hasExtra, firstKey, generated, derived⟩ :=
    registrable.publicKey
  obtain rfl := printed_eq hasAdd (begun_of_first first) hasExtra (begun_of_first firstKey) shown
  obtain ⟨front, rest, position, content⟩ := hasAdd.lies
  obtain ⟨identity, rfl, identified⟩ := readIdentity_first host env first shortType
    shortConnection content position
  obtain ⟨head, body, atExtra, extraContent⟩ := hasExtra.lies
  obtain ⟨out, reply, -, -, registering⟩ := registerDevice_ok host gcm ecdh env connInfo server
    identity firstKey extraContent atExtra
  obtain ⟨msgLenWord, addLenWord, extraLenWord, total, addWord, extraWord, extraIs⟩ :=
    frame_words host printed
  rw [addPlace, ← extraIs] at identified
  have unregistered := unknown identity printed ⟨extraLenWord, printed, extraWord, shown,
    identified⟩
  have processed : processMsg host gcm ecdh env connInfo server printed =
      registerDevice host gcm ecdh env connInfo server printed
        (headerLen + protocolSpecificExtraDataLen) identity := by
    simp only [processMsg, total, addWord, extraWord, ok_bind, shown, if_pos node, identified,
      unregistered]
  have entitles : Entitles ecdh env printed (registeredDevice ecdh env identity publicKey) := by
    refine ⟨⟨add, hasAdd, first⟩, extra, secret, publicKey, hasExtra, firstKey, generated,
      derived, ?_⟩
    rw [registeredDevice, derivedKey, derived, Option.getD_some]
  exact ⟨_, _, processed.trans registering, entitles, rfl, rfl⟩

/-- A frame of an unknown device registers it only with a complete key exchange, and otherwise
changes nothing, exactly where the frame can be printed and comes from a user, holds no DEVID, or
is registrable. -/
theorem allOrNothing_iff (gcm : Gcm) (unknown : Unknown host env server msg) :
    AllOrNothing host gcm ecdh env connInfo server msg ↔
      ∃ printed, printMessage host msg true true = .ok printed ∧
        (connInfo.connectionType ≠ 0 ∨ Anonymous host printed (addPlace msg) ∨
          Registrable ecdh env msg) := by
  constructor
  · rintro ⟨result, ran, outcome⟩
    by_cases node : connInfo.connectionType = 0
    · obtain ⟨printed, shown, nameless | ⟨identity, left, identified, registering⟩⟩ :=
        processMsg_unknown unknown node ran
      · exact ⟨printed, shown, .inr (.inl ((readIdentity_none_iff host env printed _).mp nameless))⟩
      · refine ⟨printed, shown, .inr (.inr ?_)⟩
        rcases outcome with unchanged | ⟨newDevInfo, entitles, -⟩
        · obtain ⟨appended, -, registry, -⟩ := (registerDevice_registered registering).registry
          rw [unchanged.devInfos] at registry
          simp at registry
        · obtain ⟨add, hasAdd, first⟩ := entitles.devId
          obtain ⟨extra, secret, publicKey, hasExtra, firstKey, generated, derived, -⟩ :=
            entitles.publicKey
          obtain rfl :=
            printed_eq hasAdd (begun_of_first first) hasExtra (begun_of_first firstKey) shown
          obtain ⟨-, shortType, shortConnection⟩ := readIdentity_short hasAdd.lies identified
          exact ⟨⟨add, newDevInfo.devId, hasAdd, first, shortType, shortConnection⟩,
            extra, secret, publicKey, hasExtra, firstKey, generated, derived⟩
    · obtain ⟨msgLenWord, addLenWord, extraLenWord, total, addWord, extraWord, -⟩ :=
        frame_words host msg
      simp only [processMsg, total, addWord, extraWord, ok_bind] at ran
      obtain ⟨printed, shown, -⟩ := bind_eq_ok.mp ran
      exact ⟨printed, shown, .inl node⟩
  · rintro ⟨printed, shown, condition⟩
    by_cases node : connInfo.connectionType = 0
    · rcases condition with user | anonymous | registrable
      · exact absurd node user
      · obtain ⟨result, ran, unchanged⟩ :=
          processMsg_anonymous gcm ecdh env server node shown anonymous
        exact ⟨result, ran, .inl unchanged⟩
      · obtain ⟨result, newDevInfo, ran, entitles, appended⟩ :=
          processMsg_registrable gcm unknown node shown registrable
        exact ⟨result, ran, .inr ⟨newDevInfo, entitles, appended⟩⟩
    · obtain ⟨result, ran, unchanged⟩ := processMsg_user gcm ecdh env server node shown
      exact ⟨result, ran, .inl unchanged⟩

end Frame

/-! ### Two key exchanges -/

/-- The DEVID, a lock's type and its kind of connection. -/
def sampleAdd : Container := containerOf [List.replicate devIdLen 1, [2], [1]] (by simp; decide)

/-- A public key. -/
def sampleExtra (publicKey : Block eccPubKeySize) : Container :=
  { increments := UInt32.ofNat pckDataIncrements
    elements := [publicKey.bytes]
    short := by rw [elementsLength_cons, publicKey.allocated]; decide }

/-- The frame of a key exchange in a buffer. -/
def keyFrame (publicKey : Block eccPubKeySize) : Block maxMsgLen :=
  .holding maxMsgLen
    (message .big (List.replicate ivLen (0 : UInt8)) (List.replicate tagLen (0 : UInt8))
      ((sampleExtra publicKey).bytes .big)
      (ByteOrder.big.encode 0 ++ sampleAdd.bytes .big) (settingsBytes .big 0 0))

/-- The private key that the server draws. -/
def drawingEnv : ServerEnv := { (default : ServerEnv) with privateDHKey := onePrivateKey }

/-- A server without a device. -/
def emptyServer : ServerState :=
  { devInfos := []
    savedDevices := []
    commandsQueue := []
    decryptedMsgBuffer := default
    sendProcessingBuffer := default }

/-- A node with a public key of the curve is registered. -/
theorem keyFrame_allOrNothing :
    AllOrNothing .little RoundTrip.zeroKeyGcm sampleEcdh drawingEnv (acceptedConnInfo 7 0)
      emptyServer (keyFrame otherPublicKey) := by
  have unknown : Unknown .little drawingEnv emptyServer (keyFrame otherPublicKey) :=
    fun _ _ _ => rfl
  have hasAdd : HasAdd (keyFrame otherPublicKey) sampleAdd :=
    ⟨⟨(keyFrame otherPublicKey).bytes.take 104, (keyFrame otherPublicKey).bytes.drop 142,
      by decide +kernel, by decide +kernel⟩, by decide +kernel⟩
  have hasExtra : HasExtra (keyFrame otherPublicKey) (sampleExtra otherPublicKey) :=
    ⟨⟨(keyFrame otherPublicKey).bytes.take 40, (keyFrame otherPublicKey).bytes.drop 100,
      by decide +kernel, by decide +kernel⟩, by decide +kernel⟩
  have registrable : Registrable sampleEcdh drawingEnv (keyFrame otherPublicKey) := by
    refine ⟨⟨sampleAdd, Block.fill devIdLen 1, hasAdd, rfl, ?_, ?_⟩, sampleExtra otherPublicKey,
      commonSecret, otherPublicKey, hasExtra, rfl, by decide +kernel, by decide +kernel⟩
    · intro element known
      obtain rfl := Option.some.inj known
      exact Nat.le_refl 1
    · intro element known
      obtain rfl := Option.some.inj known
      exact Nat.le_refl 1
  apply (allOrNothing_iff RoundTrip.zeroKeyGcm unknown).mpr
  exact ⟨keyFrame otherPublicKey, by decide +kernel, .inr (.inr registrable)⟩

/-- The first element of a container lies behind its header and the length of the element. -/
theorem read_first {msg : Block maxMsgLen} {place : Nat} {container : Container} {element : Bytes}
    (lies : Lies msg place container) (first : container.elements[0]? = some element) :
    msg.read (place + 8 + 4) element.length = .ok element := by
  obtain ⟨front, rest, position, content⟩ := lies
  obtain ⟨-, stands⟩ := at_container content position
  cases elements : container.elements with
  | nil => simp [elements] at first
  | cons head later =>
      rw [elements] at first stands
      obtain rfl := Option.some.inj first
      exact stands.data

/-- A public key that is no point of the curve makes the server register the device under what
its stack held. -/
theorem zeroKey_registered :
    (∃ result, processMsg .little RoundTrip.zeroKeyGcm sampleEcdh drawingEnv
        (acceptedConnInfo 7 0) emptyServer (keyFrame (Block.fill eccPubKeySize 0)) = .ok result ∧
      result.server.devInfos.map DevInfo.key = [keyOf drawingEnv.sharedDHKey] ∧
      result.sent.length = 1) ∧
    ¬ AllOrNothing .little RoundTrip.zeroKeyGcm sampleEcdh drawingEnv (acceptedConnInfo 7 0)
      emptyServer (keyFrame (Block.fill eccPubKeySize 0)) := by
  have run : (processMsg .little RoundTrip.zeroKeyGcm sampleEcdh drawingEnv
      (acceptedConnInfo 7 0) emptyServer (keyFrame (Block.fill eccPubKeySize 0))).map
        (fun result => (result.server.devInfos.map DevInfo.key, result.sent.length)) =
      .ok ([keyOf drawingEnv.sharedDHKey], 1) := by
    decide +kernel
  obtain ⟨result, ran, view⟩ := map_eq_ok.mp run
  obtain ⟨registered, replied⟩ := Prod.mk.inj view
  refine ⟨⟨result, ran, registered, replied⟩, ?_⟩
  rintro ⟨same, ranAgain, outcome⟩
  obtain rfl := Except.ok.inj (ran.symm.trans ranAgain)
  rcases outcome with unchanged | ⟨newDevInfo, entitles, -⟩
  · rw [unchanged.sent] at replied
    cases replied
  · obtain ⟨extra, secret, publicKey, hasExtra, first, -, derived, -⟩ := entitles.publicKey
    have read := read_first hasExtra.lies first
    rw [publicKey.allocated] at read
    have zeros : (keyFrame (Block.fill eccPubKeySize 0)).read
        (headerLen + protocolSpecificExtraDataLen + 8 + 4) eccPubKeySize =
          .ok (Block.fill eccPubKeySize 0).bytes := by
      decide +kernel
    obtain rfl : publicKey = Block.fill eccPubKeySize 0 :=
      Block.eq_of_bytes (Except.ok.inj (read.symm.trans zeros))
    have none : sampleEcdh.sharedSecret (privateKeyOf sampleEcdh drawingEnv.privateDHKey)
        (Block.fill eccPubKeySize 0) = none := by
      decide +kernel
    rw [none] at derived
    cases derived

end RentMate.Registration
