/-
Module: RentMate.Proofs.FrameTolerance
Purpose: Which frames the server tolerates before it has authenticated them: `processMsg` up to
  the end of `decryptPckData` leaves no object, and the sections of the frame lie inside the frame
  unless it is rejected.
Trusted boundary: none
Main exports: authenticate, processMsg_eq, Tolerates, Orderly, Readable, tolerates_orderly
-/
import RentMate.Proofs.Registration

namespace RentMate.FrameTolerance

open RentMate.Machine
open RentMate.PckData
open RentMate.MainServer
open RentMate.ContainerCodec
open RentMate.MessageCodec
open RentMate.SessionCodec
open RentMate.Registration (HasAdd HasExtra Lies addPlace Unchanged)

/-! ### The part before the authentication -/

/-- How far `processMsg` has come with a frame: it has returned, or `decryptPckData` has
returned. -/
inductive Outcome where
  | returned (result : ServerResult)
  | opened (devInfo : DevInfo) (devId : Bytes) (decrypted : Decrypted maxMsgLen maxMsgLen)

section Authenticate

variable (host : ByteOrder) (gcm : Gcm) (ecdh : Ecdh)

/-- `processMsg` on the connection of a node, up to and including `decryptPckData`. -/
def authenticate (env : ServerEnv) (connInfo : ConnInfo) (server : ServerState)
    (msg : Block maxMsgLen) : Checked Outcome := do
  let extraMsgLenWord ← msg.load32 host 8
  let extraMsgLen := ntohl host extraMsgLenWord
  let extraDataPckPtr := headerLen + protocolSpecificExtraDataLen
  let addPckDataPtr := headerLen + extraMsgLen.toNat + protocolSpecificAddLen
  let msg ← printMessage host msg true true
  let (identity, msg) ← readIdentity host env msg addPckDataPtr
  match identity with
  | none =>
      pure (.returned
        { returnValue := some (-1)
          connInfo := connInfo
          server := server
          msg := msg
          sent := []
          called := none })
  | some identity =>
      match findDevInfo server.devInfos identity.devIdFromMessage.bytes with
      | none => do
          let result ←
            registerDevice host gcm ecdh env connInfo server msg extraDataPckPtr identity
          pure (.returned result)
      | some devInfo => do
          let decrypted ←
            decryptPckData host gcm devInfo.key.bytes msg server.decryptedMsgBuffer
          pure (.opened devInfo identity.devIdFromMessage.bytes decrypted)

/-- What `processMsg` does behind `decryptPckData`. -/
def proceed (env : ServerEnv) (connInfo : ConnInfo) (server : ServerState)
    (msgLen addMsgLen extraMsgLen : UInt32) : Outcome → Checked ServerResult
  | .returned result => .ok result
  | .opened devInfo devId decrypted =>
      let server := { server with decryptedMsgBuffer := decrypted.outputBuf }
      if decrypted.returnValue ≠ 0 then
        pure
          { returnValue := some (-1)
            connInfo := connInfo
            server := server
            msg := decrypted.encryptedMsg
            sent := []
            called := none }
      else do
        let msgLenBeforeEncryptedData := UInt32.ofNat headerLen + extraMsgLen + addMsgLen
        let plain ←
          server.decryptedMsgBuffer.read 0 (msgLen - msgLenBeforeEncryptedData).toNat
        let msg ← decrypted.encryptedMsg.write msgLenBeforeEncryptedData.toNat plain
        let msg ← printMessage host msg false false
        processDecrypted host gcm env connInfo server msg
          (headerLen + extraMsgLen.toNat + addMsgLen.toNat) devInfo devId

/-- On the connection of a node, `processMsg` is the two parts one after the other. -/
theorem processMsg_eq (env : ServerEnv) {connInfo : ConnInfo} (server : ServerState)
    (msg : Block maxMsgLen) (node : connInfo.connectionType = 0) :
    processMsg host gcm ecdh env connInfo server msg =
      (authenticate host gcm ecdh env connInfo server msg >>=
        proceed host gcm env connInfo server (lengthField msg 0) (lengthField msg 4)
          (lengthField msg 8)) := by
  obtain ⟨msgLenWord, addLenWord, extraLenWord, total, addWord, extraWord, -⟩ :=
    Registration.frame_words host msg
  simp only [processMsg, authenticate, total, addWord, extraWord, ok_bind, if_pos node, bind_assoc,
    ntohl_load32 total, ntohl_load32 addWord, ntohl_load32 extraWord]
  refine bind_congr fun printed => bind_congr fun identified => ?_
  obtain ⟨identity, left⟩ := identified
  cases identity with
  | none => rfl
  | some identity =>
      cases found : findDevInfo server.devInfos identity.devIdFromMessage.bytes with
      | none => simp only [found, bind_assoc, pure_eq_ok, ok_bind, proceed, bind_ok]
      | some devInfo =>
          simp only [found, processKnown, bind_assoc, pure_eq_ok, ok_bind, proceed]

end Authenticate

/-! ### The promise -/

/-- The three sections lie one behind the other inside a frame of this length, and the ADD section
has room for the version number: no difference of lengths that is computed is negative. -/
structure Sectioned (msg : Block maxMsgLen) (frameLen : Nat) : Prop where
  version : protocolSpecificAddLen ≤ (lengthField msg 4).toNat
  sections : headerLen + (lengthField msg 8).toNat + (lengthField msg 4).toNat ≤
    (lengthField msg 0).toNat
  received : (lengthField msg 0).toNat ≤ frameLen

/-- The frame is rejected. Nothing has changed but the buffer that it would have been decrypted
into. -/
structure Rejected (connInfo : ConnInfo) (server : ServerState) (result : ServerResult) : Prop where
  returnValue : result.returnValue = some (-1)
  connInfo : result.connInfo = connInfo
  server : ∃ buffer, result.server = { server with decryptedMsgBuffer := buffer }
  sent : result.sent = []
  called : result.called = none

/-- Up to the end of `decryptPckData` no access leaves its object, be it the frame's buffer or an
array that an element is copied into, and the sections lie inside the frame, or `processMsg`
rejects it. -/
def Tolerates (host : ByteOrder) (gcm : Gcm) (ecdh : Ecdh) (env : ServerEnv)
    (connInfo : ConnInfo) (server : ServerState) (msg : Block maxMsgLen) (frameLen : Nat) : Prop :=
  ∃ outcome, authenticate host gcm ecdh env connInfo server msg = .ok outcome ∧
    (Sectioned msg frameLen ∨
      ∃ result, processMsg host gcm ecdh env connInfo server msg = .ok result ∧
        Rejected connInfo server result)

/-! ### The condition -/

/-- The frame of an unknown device has a public key that is not too long, or no extra section and
the version number zero, where the key is then looked for. -/
def KeyFits (msg : Block maxMsgLen) : Prop :=
  (∃ extra key, HasExtra msg extra ∧ extra.elements[0]? = some key ∧
    key.length ≤ eccPubKeySize) ∨
    (lengthField msg 8 = 0 ∧ lengthField msg headerLen = 0)

/-- Without an extra section, the decrypted text is at most the nonce and the settings, or goes on
with a container. -/
def TextFits (gcm : Gcm) (gcmKey : Bytes) (msg : Block maxMsgLen) : Prop :=
  lengthField msg 8 = 0 ∧
    (maskedLen msg ≤ protocolSpecificEncryptedDataLen ∨
      ∃ (settings : Bytes) (container : Container) (behind : Bytes),
        settings.length = protocolSpecificEncryptedDataLen ∧
          gcm.crypt gcmKey (slice msg.bytes ivPtr ivLen)
            (slice msg.bytes (headerLen + (lengthField msg 4).toNat) (maskedLen msg)) =
              settings ++ (container.bytes .big ++ behind))

/-- The DEVID as `processMsg` has it: an element that is shorter leaves the end of the array. -/
def devIdRead (env : ServerEnv) (element : Bytes) : Bytes :=
  element ++ env.devIdFromMessage.bytes.drop element.length

/-- The ADD container has a DEVID that is not too long and single bytes behind it. If the device is
unknown, its public key fits; if it is known, what `decryptPckData` takes for the masked text lies
in the buffer, and a frame that it accepts is whole and has a text that fits. -/
structure FitsSender (gcm : Gcm) (env : ServerEnv) (server : ServerState) (msg : Block maxMsgLen)
    (frameLen : Nat) (add : Container) (first : Bytes) : Prop where
  begins : add.elements[0]? = some first
  shortDevId : first.length ≤ devIdLen
  shortType : ∀ element, add.elements[1]? = some element → element.length ≤ 1
  shortConnection : ∀ element, add.elements[2]? = some element → element.length ≤ 1
  unknown : findDevInfo server.devInfos (devIdRead env first) = none →
    (lengthField msg 0).toNat ≤ frameLen ∧ KeyFits msg
  known : ∀ devInfo, findDevInfo server.devInfos (devIdRead env first) = some devInfo →
    (lengthField msg 0).toNat + (lengthField msg 8).toNat ≤ maxMsgLen ∧
      (Genuine gcm devInfo.key.bytes msg →
        (lengthField msg 0).toNat ≤ frameLen ∧ TextFits gcm devInfo.key.bytes msg)

/-- The sections lie in the buffer. The extra section, if there is one, and the ADD section have a
container with elements. -/
structure Regular (msg : Block maxMsgLen) : Prop where
  version : protocolSpecificAddLen ≤ (lengthField msg 4).toNat
  sections : headerLen + (lengthField msg 8).toNat + (lengthField msg 4).toNat ≤
    (lengthField msg 0).toNat
  room : (lengthField msg 0).toNat ≤ maxMsgLen
  extra : lengthField msg 8 ≠ 0 → ∃ extra, HasExtra msg extra ∧ extra.elements ≠ []
  add : ∃ add, HasAdd msg add ∧ add.elements ≠ []

/-- The frames that are tolerated. The ADD container has nothing but an empty element, which makes
the server ignore the frame, or it fits. -/
structure Orderly (gcm : Gcm) (env : ServerEnv) (server : ServerState) (msg : Block maxMsgLen)
    (frameLen : Nat) : Prop where
  regular : Regular msg
  sender : ∃ add, HasAdd msg add ∧
    (add.elements = [[]] ∨ ∃ first, FitsSender gcm env server msg frameLen add first)

/-- Wherever the server looks for a container there is one, or a length of zero. -/
structure Readable (gcm : Gcm) (server : ServerState) (msg : Block maxMsgLen) : Prop where
  regular : Regular msg
  version : lengthField msg 8 = 0 → lengthField msg headerLen = 0
  text : ∀ devInfo ∈ server.devInfos, Genuine gcm devInfo.key.bytes msg →
    TextFits gcm devInfo.key.bytes msg

/-! ### Every part of it -/

section Parts

variable {host : ByteOrder} {gcm : Gcm} {ecdh : Ecdh} {env : ServerEnv} {connInfo : ConnInfo}
  {server : ServerState} {msg : Block maxMsgLen} {frameLen place : Nat} {add : Container}
  {first : Bytes}

/-- The length of the encrypted section as the code computes it. -/
theorem toNat_encryptedLen {total extraLen addLen : UInt32} (room : total.toNat ≤ 255)
    (sections : headerLen + extraLen.toNat + addLen.toNat ≤ total.toNat) :
    (total - (UInt32.ofNat headerLen + extraLen + addLen)).toNat =
      total.toNat - (headerLen + extraLen.toNat + addLen.toNat) := by
  have forty : headerLen = 40 := rfl
  have header : (UInt32.ofNat headerLen).toNat = 40 := rfl
  rw [UInt32.toNat_sub, UInt32.toNat_add, UInt32.toNat_add, header]
  omega

/-- The length of the masked text as `decryptPckData` computes it. -/
theorem maskedLen_eq (msg : Block maxMsgLen) (room : (lengthField msg 0).toNat ≤ 255)
    (sections : headerLen + (lengthField msg 4).toNat ≤ (lengthField msg 0).toNat) :
    maskedLen msg = (lengthField msg 0).toNat - (headerLen + (lengthField msg 4).toNat) := by
  have forty : headerLen = 40 := rfl
  have header : (UInt32.ofNat headerLen).toNat = 40 := rfl
  rw [maskedLen, UInt32.toNat_sub, UInt32.toNat_add, header]
  omega

/-- A regular frame is printed and left alone. -/
theorem printMessage_kept (host : ByteOrder) (regular : Regular msg) :
    printMessage host msg true true = .ok msg := by
  have forty : headerLen = 40 := rfl
  have space : maxMsgLen = 255 := rfl
  have four : protocolSpecificAddLen = 4 := rfl
  have version := regular.version
  have sections := regular.sections
  have room := regular.room
  obtain ⟨add, hasAdd, begunAdd⟩ := regular.add
  obtain ⟨totalWord, addWord, extraWord, totalLoaded, addLoaded, extraLoaded, -⟩ :=
    Registration.frame_words host msg
  have printsExtra : (if lengthField msg 8 - UInt32.ofNat protocolSpecificExtraDataLen ≠ 0 then
      printPckData host msg (headerLen + protocolSpecificExtraDataLen) true
    else pure msg) = .ok msg := by
    split
    · rename_i some
      obtain ⟨extra, hasExtra, begun⟩ := regular.extra fun zero => some (by rw [zero]; rfl)
      exact Registration.printPckData_lies host hasExtra.lies begun
    · rfl
  have printsAdd : (if lengthField msg 4 - UInt32.ofNat protocolSpecificAddLen ≠ 0 then
      printPckData host msg (headerLen + (lengthField msg 8).toNat + protocolSpecificAddLen) true
    else pure msg) = .ok msg := by
    split
    · exact Registration.printPckData_lies host hasAdd.lies begunAdd
    · rfl
  simp only [printMessage, totalLoaded, addLoaded, extraLoaded, ok_bind, if_true,
    ntohl_load32 totalLoaded, ntohl_load32 addLoaded, ntohl_load32 extraLoaded,
    toNat_encryptedLen room sections, printsExtra, printsAdd]
  rw [Block.read_ok msg (by omega), ok_bind, Block.read_ok msg (by omega), ok_bind,
    Block.read_ok msg (by omega)]
  rfl

/-- From an ADD container with nothing but an empty element no DEVID is read. -/
theorem readIdentity_empty (host : ByteOrder) (env : ServerEnv) (lies : Lies msg place add)
    (empty : add.elements = [[]]) :
    ∃ left, readIdentity host env msg place = .ok (none, left) := by
  obtain ⟨front, rest, position, content⟩ := lies
  obtain ⟨converted, toHost, inHost⟩ := pckDataToHostOrder_ok host add content position
  have missing : getElementFromPckData host converted place env.devIdFromMessage 0 =
      .ok (minusOne, env.devIdFromMessage) :=
    getElement_empty inHost position (by simp [empty]) (by simp [empty])
  refine ⟨converted, ?_⟩
  simp only [readIdentity, toHost, ok_bind, missing, if_true, pure_eq_ok]

/-- From an ADD container that fits the DEVID is read, and the frame is left as it was. -/
theorem readIdentity_fits (host : ByteOrder)
    (fits : FitsSender gcm env server msg frameLen add first) (lies : Lies msg place add)
    (begun : add.elements ≠ [[]]) :
    ∃ identity : Identity, identity.devIdFromMessage.bytes = devIdRead env first ∧
      readIdentity host env msg place = .ok (some identity, msg) := by
  obtain ⟨front, rest, position, content⟩ := lies
  have copied : first ≠ [] ∨ 0 + 1 < add.elements.length := by
    cases elements : add.elements with
    | nil => exact absurd elements (Registration.begun_of_first fits.begins)
    | cons element later =>
        obtain rfl : element = first := by simpa [elements] using fits.begins
        cases later with
        | nil => exact .inl fun empty => begun (by rw [elements, empty])
        | cons second later => exact .inr (by simp)
  exact readIdentity_read host env fits.begins copied fits.shortDevId fits.shortType
    fits.shortConnection content position

/-- A conversion of a container whose total length is zero ends with its two words. -/
theorem convertPckData_empty (lengthOf : UInt32 → UInt32) {memory : Block maxMsgLen}
    (zeroLength : lengthOf 0 = 0) (total : memory.load32 host place = .ok 0)
    (room : place + 8 ≤ maxMsgLen) :
    ∃ converted, convertPckData host lengthOf memory place = .ok converted ∧
      converted.load32 host place = .ok 0 := by
  obtain ⟨-, zero⟩ := Block.load32_eq_ok.mp total
  obtain ⟨increments, incrementsLoaded⟩ : ∃ word, memory.load32 host (place + 4) = .ok word :=
    ⟨_, Block.load32_eq_ok.mpr ⟨by omega, rfl⟩⟩
  have allocated := memory.allocated
  have four : (slice memory.bytes place 4).length = 4 := length_slice (by omega)
  have same : ByteOrder.encode host (htonl host 0) = slice memory.bytes place 4 := by
    rw [htonl_zero, zero, ByteOrder.encode_decode host four]
  have stored : memory.store32 host place (htonl host 0) = .ok memory := by
    rw [Block.store32_eq_ok, same]
    exact ⟨by omega, (splice_slice (by omega)).symm⟩
  obtain ⟨converted, wrote, filled⟩ := memory.write_ok (place + 4)
    (host.encode (htonl host increments)) (by rw [ByteOrder.encode_length]; omega)
  refine ⟨converted, ?_, ?_⟩
  · have done : ¬ (8 : UInt32) < 0 := by decide
    obtain ⟨fuel, bound⟩ : ∃ fuel, conversionBound = fuel + 1 := ⟨4294967295, rfl⟩
    have ends : convertElements host lengthOf place 0 conversionBound 8 converted =
        .ok converted := by
      rw [bound, convertElements, if_neg done]
    rw [convertPckData, total, ok_bind, stored, ok_bind, incrementsLoaded, ok_bind, Block.store32,
      wrote, ok_bind, zeroLength, ends]
  · rw [Block.load32_eq_ok]
    refine ⟨by omega, ?_⟩
    have kept : slice converted.bytes place 4 = slice memory.bytes place 4 := by
      have stored : memory.store32 host (place + 4) (htonl host increments) = .ok converted :=
        wrote
      have front : converted.bytes.take (place + 4) = memory.bytes.take (place + 4) :=
        Block.store32_take stored (Nat.le_refl _)
      rw [slice, slice, List.take_drop, List.take_drop, front]
    rw [kept, zero]

/-- The read of a public key that fits stays in the frame and in the array. -/
theorem readKey_fits (host : ByteOrder) (output : Block eccPubKeySize) (fits : KeyFits msg) :
    ∃ converted found publicKey restored,
      pckDataToHostOrder host msg (headerLen + protocolSpecificExtraDataLen) = .ok converted ∧
        getElementFromPckData host converted (headerLen + protocolSpecificExtraDataLen) output 0 =
          .ok (found, publicKey) ∧
        pckDataToNetworkOrder host converted (headerLen + protocolSpecificExtraDataLen) =
          .ok restored := by
  rcases fits with ⟨extra, key, hasExtra, begins, short⟩ | ⟨-, version⟩
  · obtain ⟨front, rest, position, content⟩ := hasExtra.lies
    obtain ⟨converted, toHost, inHost⟩ := pckDataToHostOrder_ok host extra content position
    have shortKey : ∀ element, extra.elements[0]? = some element →
        element.length ≤ eccPubKeySize := by
      intro element known
      rw [begins] at known
      rw [← Option.some.inj known]
      exact short
    obtain ⟨found, publicKey, ran⟩ := getElement_short (Registration.begun_of_first begins)
      shortKey inHost position output
    obtain ⟨restored, toNetwork, -⟩ := pckDataToNetworkOrder_ok host extra inHost position
    exact ⟨converted, found, publicKey, restored, toHost, ran, toNetwork⟩
  · -- The version number is taken for the total length of a container.
    obtain ⟨word, loaded⟩ :
        ∃ word, msg.load32 host (headerLen + protocolSpecificExtraDataLen) = .ok word :=
      ⟨_, Block.load32_eq_ok.mpr ⟨by decide, rfl⟩⟩
    have zero : ntohl host word = 0 := (ntohl_load32 loaded).trans version
    rw [ntohl_eq_htonl, htonl_eq_zero_iff] at zero
    subst zero
    obtain ⟨converted, toHost, total⟩ := convertPckData_empty (ntohl host)
      (by rw [ntohl_eq_htonl, htonl_zero]) loaded (by decide)
    obtain ⟨restored, toNetwork, -⟩ := convertPckData_empty id rfl total (by decide)
    obtain ⟨firstLen, firstLoaded⟩ : ∃ firstLen, converted.load32 host
        (headerLen + protocolSpecificExtraDataLen + (8 : UInt32).toNat) = .ok firstLen :=
      ⟨_, Block.load32_eq_ok.mpr ⟨by decide, rfl⟩⟩
    have ended : (0 : UInt32) ≤ 8 + 4 := by decide
    refine ⟨converted, minusOne, output, restored, toHost, ?_, toNetwork⟩
    simp only [getElementFromPckData, getElementFrom, total, ok_bind, firstLoaded, if_pos ended,
      pure_eq_ok]

/-- A device is registered with a public key that fits. -/
theorem registerDevice_fits (host : ByteOrder) (gcm : Gcm) (ecdh : Ecdh) (env : ServerEnv)
    (connInfo : ConnInfo) (server : ServerState) (identity : Identity) (fits : KeyFits msg) :
    ∃ result, registerDevice host gcm ecdh env connInfo server msg
      (headerLen + protocolSpecificExtraDataLen) identity = .ok result := by
  obtain ⟨converted, found, publicKey, restored, toHost, ran, toNetwork⟩ :=
    readKey_fits host env.publicDHKeyRemote fits
  obtain ⟨out, reply, -, -, registers⟩ := KeyExchange.registerDevice_read gcm ecdh env connInfo
    server identity toHost ran toNetwork
  exact ⟨_, registers⟩

end Parts

/-! ### The decryption -/

section Opening

variable {size outputSize : Nat} {host : ByteOrder} {gcm : Gcm} {gcmKey : Bytes}
  {msg : Block maxMsgLen} {add : Container}

/-- `decryptGcm` on parts of an object that lie in it. -/
theorem decryptGcm_inside (gcm : Gcm) (gcmKey : Bytes) (memory : Block size)
    (text textLen : Nat) {iv added addedLen tag : Nat}
    (ivInside : iv + ivLen ≤ size) (addedInside : added + addedLen ≤ size)
    (textInside : text + textLen ≤ size) (tagInside : tag + tagLen ≤ size)
    (msgOut : Block outputSize) (room : textLen ≤ outputSize) :
    ∃ result written,
      decryptGcm gcm gcmKey memory text textLen iv added addedLen tag msgOut =
          .ok (result, written) ∧
        (result = 0 → written.bytes =
          gcm.crypt gcmKey (slice memory.bytes iv ivLen) (slice memory.bytes text textLen) ++
            msgOut.bytes.drop textLen) := by
  have textLength : (slice memory.bytes text textLen).length = textLen :=
    length_slice (by rw [memory.allocated]; exact textInside)
  cases decrypted : gcm.authDecrypt gcmKey (slice memory.bytes iv ivLen)
      (slice memory.bytes added addedLen) (slice memory.bytes tag tagLen)
      (slice memory.bytes text textLen) with
  | none =>
      obtain ⟨written, wrote, -⟩ := msgOut.write_ok 0 (List.replicate textLen 0)
        (by rw [List.length_replicate, Nat.zero_add]; exact room)
      refine ⟨1, written, ?_, fun zero => absurd zero (by decide)⟩
      simp only [decryptGcm, Block.read_ok memory ivInside, Block.read_ok memory addedInside,
        Block.read_ok memory textInside, Block.read_ok memory tagInside, ok_bind, decrypted, wrote,
        pure_eq_ok]
  | some plain =>
      have plainLength : plain.length = textLen :=
        (StreamAead.length_authDecrypt decrypted).trans textLength
      obtain ⟨-, rfl⟩ := StreamAead.authDecrypt_eq_some.mp decrypted
      obtain ⟨written, wrote, filled⟩ := msgOut.write_front (plainLength.trans_le room)
      refine ⟨0, written, ?_, fun _ => by rw [filled, plainLength]⟩
      simp only [decryptGcm, Block.read_ok memory ivInside, Block.read_ok memory addedInside,
        Block.read_ok memory textInside, Block.read_ok memory tagInside, ok_bind, decrypted, wrote,
        pure_eq_ok]

/-- A word of an object is converted. -/
theorem toHostWord_inside (host : ByteOrder) (memory : Block size) (ptr : Nat)
    (inside : ptr + 4 ≤ size) : ∃ converted, toHostWord host memory ptr = .ok converted := by
  obtain ⟨word, loaded⟩ : ∃ word, memory.load32 host ptr = .ok word :=
    ⟨_, Block.load32_eq_ok.mpr ⟨inside, rfl⟩⟩
  obtain ⟨converted, wrote, -⟩ := memory.write_ok ptr (host.encode (ntohl host word))
    (by rw [ByteOrder.encode_length]; exact inside)
  exact ⟨converted, by rw [toHostWord, loaded, ok_bind, Block.store32, wrote]⟩

/-- The nonce and the settings are converted, and what lies behind them is left alone. -/
theorem settings_toHost (host : ByteOrder) {memory : Block size} (settings : Bytes) {rest : Bytes}
    (sized : settings.length = protocolSpecificEncryptedDataLen)
    (content : memory.bytes = settings ++ rest) :
    ∃ withNonce withSettings, toHostWord host memory 0 = .ok withNonce ∧
      toHostWord host withNonce 4 = .ok withSettings ∧
      ∃ front : Bytes, front.length = protocolSpecificEncryptedDataLen ∧
        withSettings.bytes = front ++ rest := by
  have eight : settings.length = 8 := sized
  have nonce : (settings.take 4).length = 4 := by
    rw [List.length_take]
    omega
  have gSettings : (settings.drop 4).length = 4 := by
    rw [List.length_drop]
    omega
  have place : memory.bytes = [] ++ (ByteOrder.big.encode (ByteOrder.big.decode (settings.take 4)) ++
      (ByteOrder.big.encode (ByteOrder.big.decode (settings.drop 4)) ++ rest)) := by
    rw [ByteOrder.encode_decode _ nonce, ByteOrder.encode_decode _ gSettings, content,
      List.nil_append, ← List.append_assoc, List.take_append_drop]
  obtain ⟨withNonce, ranNonce, contentNonce⟩ := toHostWord_ok host 0 _ place rfl
  rw [List.nil_append] at contentNonce
  obtain ⟨withSettings, ranSettings, contentSettings⟩ :=
    toHostWord_ok host 4 _ contentNonce (by simp)
  rw [← List.append_assoc] at contentSettings
  exact ⟨withNonce, withSettings, ranNonce, ranSettings, _, by simp, contentSettings⟩

/-- A text that fits is converted: its nonce, its settings and its container, if it has one. -/
theorem text_toHost (host : ByteOrder) (fits : TextFits gcm gcmKey msg) {written : Block maxMsgLen}
    {behindText : Bytes}
    (content : written.bytes =
      gcm.crypt gcmKey (slice msg.bytes ivPtr ivLen)
        (slice msg.bytes (headerLen + (lengthField msg 4).toNat) (maskedLen msg)) ++
          behindText) :
    ∃ withNonce withSettings withContainer, toHostWord host written 0 = .ok withNonce ∧
      toHostWord host withNonce 4 = .ok withSettings ∧
      (if UInt32.ofNat protocolSpecificEncryptedDataLen <
          lengthField msg 0 - (UInt32.ofNat headerLen + lengthField msg 4) then
        pckDataToHostOrder host withSettings protocolSpecificEncryptedDataLen
      else .ok withSettings) = .ok withContainer := by
  have eight : (UInt32.ofNat protocolSpecificEncryptedDataLen).toNat =
      protocolSpecificEncryptedDataLen := rfl
  rcases fits.2 with short | ⟨settings, container, behind, sized, text⟩
  · have none : ¬ UInt32.ofNat protocolSpecificEncryptedDataLen <
        lengthField msg 0 - (UInt32.ofNat headerLen + lengthField msg 4) := by
      rw [UInt32.lt_iff_toNat_lt, eight]
      exact Nat.not_lt.mpr short
    obtain ⟨withNonce, withSettings, ranNonce, ranSettings, -⟩ := settings_toHost host
      (written.bytes.take protocolSpecificEncryptedDataLen)
      (by rw [List.length_take, written.allocated]; decide)
      (List.take_append_drop protocolSpecificEncryptedDataLen written.bytes).symm
    exact ⟨withNonce, withSettings, withSettings, ranNonce, ranSettings, if_neg none⟩
  · rw [text, List.append_assoc, List.append_assoc] at content
    obtain ⟨withNonce, withSettings, ranNonce, ranSettings, front, position, contentSettings⟩ :=
      settings_toHost host settings sized content
    obtain ⟨withContainer, ranContainer, -⟩ :=
      pckDataToHostOrder_ok host container contentSettings position
    refine ⟨withNonce, withSettings, ?_⟩
    split
    · exact ⟨withContainer, ranNonce, ranSettings, ranContainer⟩
    · exact ⟨withSettings, ranNonce, ranSettings, rfl⟩

/-- `decryptPckData` stays in its objects on a frame whose sections lie in the buffer, if the
extra section can be counted twice, and its text fits if the frame is genuine. -/
theorem decryptPckData_inside (host : ByteOrder) (gcm : Gcm) (gcmKey : Bytes)
    (sections : headerLen + (lengthField msg 8).toNat + (lengthField msg 4).toNat ≤
      (lengthField msg 0).toNat)
    (room : (lengthField msg 0).toNat + (lengthField msg 8).toNat ≤ maxMsgLen)
    (hasAdd : HasAdd msg add) (fits : Genuine gcm gcmKey msg → TextFits gcm gcmKey msg)
    (outputBuf : Block maxMsgLen) :
    ∃ decrypted, decryptPckData host gcm gcmKey msg outputBuf = .ok decrypted := by
  have forty : headerLen = 40 := rfl
  have space : maxMsgLen = 255 := rfl
  have four : protocolSpecificAddLen = 4 := rfl
  have counted : maskedLen msg =
      (lengthField msg 0).toNat - (headerLen + (lengthField msg 4).toNat) :=
    maskedLen_eq msg (by omega) (by omega)
  obtain ⟨totalWord, addWord, extraWord, totalLoaded, addLoaded, extraLoaded, -⟩ :=
    Registration.frame_words host msg
  have headPtr : tagPtr + tagLen = headerLen := rfl
  obtain ⟨result, written, ranGcm, content⟩ := decryptGcm_inside gcm gcmKey msg
    (headerLen + (lengthField msg 4).toNat + (lengthField msg 8).toNat) (maskedLen msg)
    (show ivPtr + ivLen ≤ maxMsgLen by decide)
    (show headerLen + (lengthField msg 4).toNat ≤ maxMsgLen by omega) (by omega)
    (show tagPtr + tagLen ≤ maxMsgLen by decide) outputBuf (by omega)
  rw [maskedLen] at ranGcm
  by_cases refused : result ≠ 0
  · refine ⟨⟨-1, msg, written⟩, ?_⟩
    simp only [decryptPckData, totalLoaded, addLoaded, extraLoaded, ok_bind,
      ntohl_load32 totalLoaded, ntohl_load32 addLoaded, ntohl_load32 extraLoaded, headPtr, ranGcm,
      if_pos refused, pure_eq_ok]
  · obtain rfl : result = 0 := not_not.mp refused
    have genuine : Genuine gcm gcmKey msg := by
      rcases decryptGcm_cases ranGcm with ⟨-, right⟩ | ⟨impossible, -⟩
      · exact right
      · cases impossible
    have textFits := fits genuine
    have noExtra := textFits.1
    have inText := content rfl
    rw [noExtra] at inText
    obtain ⟨withNonce, withSettings, withContainer, ranNonce, ranSettings, ranContainer⟩ :=
      text_toHost host textFits inText
    obtain ⟨front, rest, position, atAdd⟩ := hasAdd.lies
    rw [addPlace, noExtra] at position
    obtain ⟨converted, ranAdd, -⟩ := pckDataToHostOrder_ok host add atAdd position
    obtain ⟨withAdd, convertsAdd⟩ : ∃ withAdd,
        (if 0 < lengthField msg 4 - UInt32.ofNat protocolSpecificAddLen then
          pckDataToHostOrder host msg (headerLen + protocolSpecificAddLen)
        else .ok msg) = .ok withAdd := by
      split
      · exact ⟨converted, ranAdd⟩
      · exact ⟨msg, rfl⟩
    -- The text is copied into the frame, in place of the masked text.
    have before : (UInt32.ofNat headerLen + lengthField msg 8 + lengthField msg 4).toNat =
        headerLen + (lengthField msg 8).toNat + (lengthField msg 4).toNat := by
      have header : (UInt32.ofNat headerLen).toNat = 40 := rfl
      rw [UInt32.toNat_add, UInt32.toNat_add, header]
      omega
    have textLength := toNat_encryptedLen (by omega) sections
    obtain ⟨withText, wroteText, -⟩ := withAdd.write_ok
      (UInt32.ofNat headerLen + lengthField msg 8 + lengthField msg 4).toNat
      (slice withContainer.bytes 0 (lengthField msg 0 -
        (UInt32.ofNat headerLen + lengthField msg 8 + lengthField msg 4)).toNat)
      (by rw [length_slice (by rw [withContainer.allocated]; omega)]; omega)
    have readText : withContainer.read 0 (lengthField msg 0 -
        (UInt32.ofNat headerLen + lengthField msg 8 + lengthField msg 4)).toNat =
          .ok (slice withContainer.bytes 0 (lengthField msg 0 -
            (UInt32.ofNat headerLen + lengthField msg 8 + lengthField msg 4)).toNat) :=
      withContainer.read_ok (by omega)
    -- The lengths and the version
    obtain ⟨first, ranFirst⟩ := toHostWord_inside host withText 0 (by decide)
    obtain ⟨second, ranSecond⟩ := toHostWord_inside host first 4 (by decide)
    obtain ⟨third, ranThird⟩ := toHostWord_inside host second 8 (by decide)
    obtain ⟨opened, ranVersion⟩ := toHostWord_inside host third headerLen (by decide)
    have hasSection : ¬ lengthField msg 4 = 0 := by
      intro none
      have inside := hasAdd.inside
      rw [none] at inside
      have empty : (0 : UInt32).toNat = 0 := rfl
      omega
    have noContainer : ¬ 0 < lengthField msg 8 - UInt32.ofNat protocolSpecificExtraDataLen := by
      rw [noExtra]
      decide
    refine ⟨⟨0, opened, withContainer⟩, ?_⟩
    simp only [decryptPckData, totalLoaded, addLoaded, extraLoaded, ok_bind,
      ntohl_load32 totalLoaded, ntohl_load32 addLoaded, ntohl_load32 extraLoaded, headPtr, ranGcm,
      if_neg refused, pure_eq_ok, ranNonce, ranSettings, ranContainer, convertsAdd,
      if_neg noContainer, readText, wroteText, ranFirst, ranSecond, ranThird, if_neg hasSection,
      ranVersion]

end Opening

/-! ### Orderly frames -/

section Tolerance

variable {host : ByteOrder} {gcm : Gcm} {ecdh : Ecdh} {env : ServerEnv} {connInfo : ConnInfo}
  {server : ServerState} {msg : Block maxMsgLen} {frameLen : Nat} {add : Container}
  {first : Bytes}

/-- A regular message of an honest length has its sections inside it. -/
theorem Regular.sectioned (regular : Regular msg)
    (received : (lengthField msg 0).toNat ≤ frameLen) : Sectioned msg frameLen :=
  ⟨regular.version, regular.sections, received⟩

/-- A regular frame without a DEVID is rejected. -/
theorem rejected_unnamed (ecdh : Ecdh) {left : Block maxMsgLen}
    (node : connInfo.connectionType = 0) (regular : Regular msg)
    (identified : readIdentity host env msg (addPlace msg) = .ok (none, left)) :
    Tolerates host gcm ecdh env connInfo server msg frameLen := by
  obtain ⟨totalWord, addWord, extraWord, -, -, extraLoaded, extraIs⟩ :=
    Registration.frame_words host msg
  have ran : authenticate host gcm ecdh env connInfo server msg =
      .ok (.returned (Registration.ignoredResult connInfo server (some (-1)) left)) := by
    rw [addPlace, ← extraIs] at identified
    simp only [authenticate, extraLoaded, ok_bind, printMessage_kept host regular, identified,
      pure_eq_ok, Registration.ignoredResult]
  have processed : processMsg host gcm ecdh env connInfo server msg =
      .ok (Registration.ignoredResult connInfo server (some (-1)) left) := by
    rw [processMsg_eq host gcm ecdh env server msg node, ran, ok_bind, proceed]
  exact ⟨_, ran, .inr ⟨_, processed, rfl, rfl, ⟨server.decryptedMsgBuffer, rfl⟩, rfl, rfl⟩⟩

/-- A regular frame of an unknown device registers it. -/
theorem tolerates_unknown (ecdh : Ecdh) {identity : Identity}
    (regular : Regular msg)
    (identified : readIdentity host env msg (addPlace msg) = .ok (some identity, msg))
    (unknown : findDevInfo server.devInfos identity.devIdFromMessage.bytes = none)
    (received : (lengthField msg 0).toNat ≤ frameLen) (keyFits : KeyFits msg) :
    Tolerates host gcm ecdh env connInfo server msg frameLen := by
  obtain ⟨totalWord, addWord, extraWord, -, -, extraLoaded, extraIs⟩ :=
    Registration.frame_words host msg
  obtain ⟨result, registers⟩ :=
    registerDevice_fits host gcm ecdh env connInfo server identity keyFits
  refine ⟨.returned result, ?_, .inl (regular.sectioned received)⟩
  rw [addPlace, ← extraIs] at identified
  simp only [authenticate, extraLoaded, ok_bind, printMessage_kept host regular, identified,
    unknown, registers, pure_eq_ok]

/-- A regular frame of a known device is opened, or rejected if it is not genuine. -/
theorem tolerates_known (ecdh : Ecdh) {identity : Identity} {devInfo : DevInfo}
    (node : connInfo.connectionType = 0) (regular : Regular msg)
    (hasAdd : HasAdd msg add)
    (identified : readIdentity host env msg (addPlace msg) = .ok (some identity, msg))
    (found : findDevInfo server.devInfos identity.devIdFromMessage.bytes = some devInfo)
    (room : (lengthField msg 0).toNat + (lengthField msg 8).toNat ≤ maxMsgLen)
    (fits : Genuine gcm devInfo.key.bytes msg →
      (lengthField msg 0).toNat ≤ frameLen ∧ TextFits gcm devInfo.key.bytes msg) :
    Tolerates host gcm ecdh env connInfo server msg frameLen := by
  obtain ⟨totalWord, addWord, extraWord, -, -, extraLoaded, extraIs⟩ :=
    Registration.frame_words host msg
  obtain ⟨decrypted, opens⟩ := decryptPckData_inside host gcm devInfo.key.bytes regular.sections
    room hasAdd (fun genuine => (fits genuine).2) server.decryptedMsgBuffer
  have ran : authenticate host gcm ecdh env connInfo server msg =
      .ok (.opened devInfo identity.devIdFromMessage.bytes decrypted) := by
    rw [addPlace, ← extraIs] at identified
    simp only [authenticate, extraLoaded, ok_bind, printMessage_kept host regular, identified,
      found, opens, pure_eq_ok]
  refine ⟨_, ran, ?_⟩
  rcases decryptPckData_cases opens with ⟨-, genuine⟩ | ⟨refused, -⟩
  · exact .inl (regular.sectioned (fits genuine).1)
  · right
    have wrong : decrypted.returnValue ≠ 0 := by
      rw [refused]
      decide
    have processed : processMsg host gcm ecdh env connInfo server msg =
        .ok (Registration.ignoredResult connInfo
          { server with decryptedMsgBuffer := decrypted.outputBuf } (some (-1))
          decrypted.encryptedMsg) := by
      rw [processMsg_eq host gcm ecdh env server msg node, ran, ok_bind, proceed, if_pos wrong,
        pure_eq_ok, Registration.ignoredResult]
    exact ⟨_, processed, rfl, rfl, ⟨decrypted.outputBuf, rfl⟩, rfl, rfl⟩

/-- On the connection of a node the server tolerates an orderly frame. -/
theorem tolerates_of_orderly (host : ByteOrder) (ecdh : Ecdh)
    (node : connInfo.connectionType = 0) (orderly : Orderly gcm env server msg frameLen) :
    Tolerates host gcm ecdh env connInfo server msg frameLen := by
  obtain ⟨add, hasAdd, elements⟩ := orderly.sender
  by_cases empty : add.elements = [[]]
  · obtain ⟨left, identified⟩ := readIdentity_empty host env hasAdd.lies empty
    exact rejected_unnamed ecdh node orderly.regular identified
  · obtain ⟨first, fits⟩ := elements.resolve_left empty
    obtain ⟨identity, named, identified⟩ := readIdentity_fits host fits hasAdd.lies empty
    cases found : findDevInfo server.devInfos identity.devIdFromMessage.bytes with
    | none =>
        obtain ⟨received, keyFits⟩ := fits.unknown (named ▸ found)
        exact tolerates_unknown ecdh orderly.regular identified found received keyFits
    | some devInfo =>
        obtain ⟨room, genuineFits⟩ := fits.known devInfo (named ▸ found)
        exact tolerates_known ecdh node orderly.regular hasAdd identified found room genuineFits

end Tolerance

/-! ### Where there are containers, only orderly frames are tolerated -/

section Exactness

variable {host : ByteOrder} {gcm : Gcm} {ecdh : Ecdh} {env : ServerEnv} {connInfo : ConnInfo}
  {server : ServerState} {msg left : Block maxMsgLen} {frameLen place : Nat} {add : Container}
  {first : Bytes} {result : ServerResult}

/-- The elements of an ADD container that has been read fit. -/
theorem readIdentity_bounds {found : Option Identity} (lies : Lies msg place add)
    (begins : add.elements[0]? = some first)
    (copied : first ≠ [] ∨ 0 + 1 < add.elements.length)
    (ran : readIdentity host env msg place = .ok (found, left)) :
    first.length ≤ devIdLen ∧
      (∀ element, add.elements[1]? = some element → element.length ≤ 1) ∧
      ∀ element, add.elements[2]? = some element → element.length ≤ 1 := by
  obtain ⟨front, rest, position, content⟩ := lies
  obtain ⟨converted, toHost, inHost⟩ := pckDataToHostOrder_ok host add content position
  simp only [readIdentity, toHost, ok_bind] at ran
  obtain ⟨⟨foundDevId, devId⟩, ranDevId, ran⟩ := bind_eq_ok.mp ran
  have short := getElement_fits inHost position begins ranDevId
  obtain ⟨written, ranAgain, -⟩ :=
    getElement_ok env.devIdFromMessage inHost position begins copied short
  obtain ⟨rfl, rfl⟩ := Prod.mk.inj (Except.ok.inj (ranAgain.symm.trans ranDevId))
  have sixteen : devIdLen = 16 := rfl
  have known : UInt32.ofNat first.length ≠ minusOne := ofNat_ne_minusOne (by omega)
  simp only [if_neg known] at ran
  obtain ⟨⟨foundType, devType⟩, ranType, ran⟩ := bind_eq_ok.mp ran
  obtain ⟨⟨foundConnection, connectionType⟩, ranConnection, ran⟩ := bind_eq_ok.mp ran
  exact ⟨short, fun element second => getElement_fits inHost position second ranType,
    fun element third => getElement_fits inHost position third ranConnection⟩

/-- A device has been registered with a public key that fits. -/
theorem registerDevice_bounds {identity : Identity} (readable : Readable gcm server msg)
    (ran : registerDevice host gcm ecdh env connInfo server msg
      (headerLen + protocolSpecificExtraDataLen) identity = .ok result) :
    result.returnValue = some 0 ∧ KeyFits msg := by
  unfold registerDevice at ran
  obtain ⟨converted, toHost, ran⟩ := bind_eq_ok.mp ran
  obtain ⟨⟨found, publicKey⟩, ranKey, ran⟩ := bind_eq_ok.mp ran
  obtain ⟨_, -, ran⟩ := bind_eq_ok.mp ran
  obtain ⟨_, -, ran⟩ := bind_eq_ok.mp ran
  obtain ⟨_, -, ran⟩ := bind_eq_ok.mp ran
  obtain ⟨_, -, ran⟩ := bind_eq_ok.mp ran
  refine ⟨by rw [← Except.ok.inj ran], ?_⟩
  by_cases none : lengthField msg 8 = 0
  · exact .inr ⟨none, readable.version none⟩
  · obtain ⟨extra, hasExtra, begun⟩ := readable.regular.extra none
    obtain ⟨front, rest, position, content⟩ := hasExtra.lies
    obtain ⟨inHost, toHostAgain, contentHost⟩ :=
      pckDataToHostOrder_ok host extra content position
    obtain rfl : inHost = converted := Except.ok.inj (toHostAgain.symm.trans toHost)
    obtain ⟨key, known⟩ : ∃ key, extra.elements[0]? = some key :=
      ⟨extra.elements.head begun, by rw [← List.head?_eq_getElem?, List.head?_eq_some_head begun]⟩
    exact .inl ⟨extra, key, hasExtra, known, getElement_fits contentHost position known ranKey⟩

/-- What a decrypted frame makes `processMsg` do never ends in an error. -/
theorem processDecrypted_returns {encryptedDataPtr : Nat} {devInfo : DevInfo} {devId : Bytes}
    (ran : processDecrypted host gcm env connInfo server msg encryptedDataPtr devInfo devId =
      .ok result) : result.returnValue = none := by
  have released : ∀ {connInfo : ConnInfo} {server : ServerState} {devId : Bytes}
      {sent : List Bytes}, releaseCommands host gcm env connInfo server devId sent = .ok result →
        result.returnValue = none := by
    intro connInfo server devId sent ran
    obtain ⟨_, -, ran⟩ := bind_eq_ok.mp ran
    rw [← Except.ok.inj ran]
  unfold processDecrypted at ran
  split at ran
  · obtain ⟨_, -, ran⟩ := bind_eq_ok.mp ran
    obtain ⟨_, -, ran⟩ := bind_eq_ok.mp ran
    exact released ran
  · split at ran
    · obtain ⟨_, -, ran⟩ := bind_eq_ok.mp ran
      exact released ran
    · split at ran
      · obtain ⟨_, _, _, _, -, -, -, rfl⟩ := ServerSteps.dispatchMessage_cases ran
        rfl
      · rw [← Except.ok.inj ran]

/-- What `decryptPckData` has taken for the masked text lies in the buffer. -/
theorem decryptPckData_bounds {gcmKey : Bytes} {outputBuf : Block maxMsgLen}
    {decrypted : Decrypted maxMsgLen maxMsgLen} (regular : Regular msg)
    (opens : decryptPckData host gcm gcmKey msg outputBuf = .ok decrypted) :
    (lengthField msg 0).toNat + (lengthField msg 8).toNat ≤ maxMsgLen := by
  have forty : headerLen = 40 := rfl
  have space : maxMsgLen = 255 := rfl
  have sections := regular.sections
  have room := regular.room
  obtain ⟨msgLenWord, readMsgLen, ran⟩ := bind_eq_ok.mp opens
  obtain ⟨addLenWord, readAddLen, ran⟩ := bind_eq_ok.mp ran
  obtain ⟨extraDataLenWord, readExtraLen, ran⟩ := bind_eq_ok.mp ran
  simp only [ntohl_load32 readMsgLen, ntohl_load32 readAddLen, ntohl_load32 readExtraLen] at ran
  obtain ⟨⟨result, written⟩, ranGcm, -⟩ := bind_eq_ok.mp ran
  simp only [decryptGcm, bind_eq_ok, Block.read_eq_ok] at ranGcm
  obtain ⟨_, -, _, -, _, ⟨inside, -⟩, -⟩ := ranGcm
  have counted := maskedLen_eq msg (by omega) (by omega)
  rw [maskedLen] at counted
  have headPtr : tagPtr + tagLen = headerLen := rfl
  rw [counted, headPtr] at inside
  omega

/-- Wherever the server looks for a container there is one: then only an orderly frame is
tolerated. -/
theorem orderly_of_tolerates (node : connInfo.connectionType = 0)
    (readable : Readable gcm server msg)
    (tolerated : Tolerates host gcm ecdh env connInfo server msg frameLen) :
    Orderly gcm env server msg frameLen := by
  have regular := readable.regular
  obtain ⟨add, hasAdd, begun⟩ := regular.add
  refine ⟨regular, add, hasAdd, ?_⟩
  by_cases empty : add.elements = [[]]
  · exact .inl empty
  right
  obtain ⟨first, later, elements⟩ := List.exists_cons_of_ne_nil begun
  have begins : add.elements[0]? = some first := by rw [elements]; rfl
  have copied : first ≠ [] ∨ 0 + 1 < add.elements.length := by
    cases later with
    | nil => exact .inl fun none => empty (by rw [elements, none])
    | cons second later => exact .inr (by simp [elements])
  obtain ⟨outcome, ran, kept⟩ := tolerated
  have processed := processMsg_eq host gcm ecdh env server msg node
  rw [ran, ok_bind] at processed
  obtain ⟨totalWord, addWord, extraWord, -, -, extraLoaded, extraIs⟩ :=
    Registration.frame_words host msg
  have atAdd : headerLen + (lengthField msg 8).toNat + protocolSpecificAddLen = addPlace msg := rfl
  simp only [authenticate, extraLoaded, ok_bind, printMessage_kept host regular, extraIs,
    atAdd] at ran
  obtain ⟨⟨found, left⟩, identified, ran⟩ := bind_eq_ok.mp ran
  obtain ⟨shortDevId, shortType, shortConnection⟩ :=
    readIdentity_bounds hasAdd.lies begins copied identified
  obtain ⟨front, rest, position, content⟩ := hasAdd.lies
  obtain ⟨identity, named, identifiedAgain⟩ := readIdentity_read host env begins copied shortDevId
    shortType shortConnection content position
  obtain ⟨rfl, rfl⟩ := Prod.mk.inj (Except.ok.inj (identifiedAgain.symm.trans identified))
  have sameDevId : identity.devIdFromMessage.bytes = devIdRead env first := named
  simp only [sameDevId] at ran
  have received : (∀ result, proceed host gcm env connInfo server (lengthField msg 0)
      (lengthField msg 4) (lengthField msg 8) outcome = .ok result →
        result.returnValue ≠ some (-1)) → (lengthField msg 0).toNat ≤ frameLen := by
    intro accepted
    rcases kept with sectioned | ⟨result, ranAgain, rejected⟩
    · exact sectioned.received
    · exact absurd rejected.returnValue (accepted result (processed.symm.trans ranAgain))
  refine ⟨first, begins, shortDevId, shortType, shortConnection, fun unknown => ?_,
    fun devInfo known => ?_⟩
  · simp only [unknown] at ran
    obtain ⟨result, registers, ran⟩ := bind_eq_ok.mp ran
    obtain ⟨returned, keyFits⟩ := registerDevice_bounds readable registers
    refine ⟨received fun other proceeded => ?_, keyFits⟩
    rw [← Except.ok.inj ran, proceed] at proceeded
    rw [← Except.ok.inj proceeded, returned]
    decide
  · simp only [known] at ran
    obtain ⟨decrypted, opens, ran⟩ := bind_eq_ok.mp ran
    refine ⟨decryptPckData_bounds regular opens, fun genuine => ⟨received fun other proceeded => ?_,
      readable.text devInfo (List.mem_of_find?_eq_some known) genuine⟩⟩
    have accepted : ¬ decrypted.returnValue ≠ 0 := by
      rcases decryptPckData_cases opens with ⟨zero, -⟩ | ⟨-, forged, -⟩
      · exact not_not.mpr zero
      · exact absurd genuine forged
    rw [← Except.ok.inj ran, proceed] at proceeded
    simp only [if_neg accepted] at proceeded
    obtain ⟨_, -, proceeded⟩ := bind_eq_ok.mp proceeded
    obtain ⟨_, -, proceeded⟩ := bind_eq_ok.mp proceeded
    obtain ⟨_, -, proceeded⟩ := bind_eq_ok.mp proceeded
    rw [processDecrypted_returns proceeded]
    exact fun impossible => by cases impossible

/-- On the connection of a node the server tolerates the orderly frames, and no others wherever it
finds containers. -/
theorem tolerates_orderly (host : ByteOrder) (gcm : Gcm) (ecdh : Ecdh) (env : ServerEnv)
    (server : ServerState) (msg : Block maxMsgLen) (frameLen : Nat)
    (node : connInfo.connectionType = 0) :
    (Orderly gcm env server msg frameLen →
      Tolerates host gcm ecdh env connInfo server msg frameLen) ∧
    (Readable gcm server msg → Tolerates host gcm ecdh env connInfo server msg frameLen →
      Orderly gcm env server msg frameLen) :=
  ⟨tolerates_of_orderly host ecdh node, orderly_of_tolerates node⟩

end Exactness

open RentMate.Registration (keyFrame sampleAdd sampleExtra drawingEnv emptyServer)

/-- The first frame of a node is tolerated. -/
theorem keyFrame_tolerated :
    Tolerates .little RoundTrip.zeroKeyGcm sampleEcdh drawingEnv (acceptedConnInfo 7 0) emptyServer
      (keyFrame otherPublicKey) 150 := by
  have hasAdd : HasAdd (keyFrame otherPublicKey) sampleAdd :=
    ⟨⟨(keyFrame otherPublicKey).bytes.take 104, (keyFrame otherPublicKey).bytes.drop 142,
      by decide +kernel, by decide +kernel⟩, by decide +kernel⟩
  have hasExtra : HasExtra (keyFrame otherPublicKey) (sampleExtra otherPublicKey) :=
    ⟨⟨(keyFrame otherPublicKey).bytes.take 40, (keyFrame otherPublicKey).bytes.drop 100,
      by decide +kernel, by decide +kernel⟩, by decide +kernel⟩
  have regular : Regular (keyFrame otherPublicKey) :=
    { version := by decide +kernel
      sections := by decide +kernel
      room := by decide +kernel
      extra := fun _ => ⟨sampleExtra otherPublicKey, hasExtra, by simp [sampleExtra]⟩
      add := ⟨sampleAdd, hasAdd, by decide⟩ }
  have short : ∀ index < 2, ∀ element, sampleAdd.elements[index + 1]? = some element →
      element.length ≤ 1 := by
    intro index inside element known
    obtain rfl | rfl : index = 0 ∨ index = 1 := by omega
    · obtain rfl := Option.some.inj known
      exact Nat.le_refl 1
    · obtain rfl := Option.some.inj known
      exact Nat.le_refl 1
  apply (tolerates_orderly .little RoundTrip.zeroKeyGcm sampleEcdh drawingEnv emptyServer
    (keyFrame otherPublicKey) 150 rfl).1
  refine ⟨regular, sampleAdd, hasAdd, .inr ⟨List.replicate devIdLen 1, rfl, by decide,
    short 0 (by decide), short 1 (by decide), fun _ => ⟨by decide +kernel, .inl ?_⟩,
    fun devInfo impossible => by cases impossible⟩⟩
  exact ⟨sampleExtra otherPublicKey, otherPublicKey.bytes, hasExtra, rfl,
    Nat.le_of_eq otherPublicKey.allocated⟩

/-- A frame whose DEVID is one byte too long. -/
def longDevIdFrame : Block maxMsgLen :=
  .holding maxMsgLen
    (message .big (List.replicate ivLen (0 : UInt8)) (List.replicate tagLen (0 : UInt8)) []
      (ByteOrder.big.encode 0 ++
        (RoundTrip.containerOf [List.replicate 17 1] (by decide)).bytes .big)
      (settingsBytes .big 0 0))

/-- The DEVID is copied over the end of its array. -/
theorem longDevId_overruns :
    (authenticate .little RoundTrip.zeroKeyGcm sampleEcdh drawingEnv (acceptedConnInfo 7 0)
        emptyServer longDevIdFrame).map (fun _ => ()) = .error .outOfBounds ∧
      ¬ Tolerates .little RoundTrip.zeroKeyGcm sampleEcdh drawingEnv (acceptedConnInfo 7 0)
        emptyServer longDevIdFrame 81 :=
  no_result_of_fault (by decide +kernel)

end RentMate.FrameTolerance
