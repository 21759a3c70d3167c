/-
Module: RentMate.Proofs.MessageNumbers
Purpose: The numbers that the frames of a session carry, from the sender's count to what the
  receiver reads after it has decrypted a frame.
Trusted boundary: none
Main exports: Sender, sendNext, sendSession_ok, Recovers, numbers_agree_iff
-/
import RentMate.Machine.Run
import RentMate.Proofs.SessionCodec

namespace RentMate.MessageNumbers

open RentMate.Machine
open RentMate.PckData
open RentMate.ContainerCodec
open RentMate.MessageCodec
open RentMate.SessionCodec

/-! ### The frames of a session -/

/-- What a caller hands to `encryptAndSendAll` in a session. -/
structure Sending (host : ByteOrder) where
  pckData : Option (Block pckDataIncrements)
  addDataPck : Option (Block pckDataIncrements)
  enc : Option Container
  add : Option Container
  sendable : Sendable host pckData addDataPck enc add
  pckGSettings : UInt32
  draw : Draw

/-- The end that sends: its connection, the buffer it composes in, and the frames it has sent. -/
structure Sender where
  connInfo : ConnInfo
  outBuf : Block maxMsgLen
  frames : List Bytes

section Sending

variable {host : ByteOrder} (gcm : Gcm) (gcmKey : Bytes)

/-- One more frame is sent. -/
def sendNext (sender : Sender) (sending : Sending host) : Checked Sender := do
  let result ← encryptAndSendAll host gcm (some sender.connInfo) (some gcmKey) sending.pckData
    sending.addDataPck none sending.pckGSettings sending.draw sender.outBuf
  pure
    { connInfo := result.connInfo.getD sender.connInfo
      outBuf := result.outBuf
      frames := sender.frames ++ result.sent.toList }

/-- The frame with a number, as the sender puts the number into it. -/
def numberedFrame (number : UInt32) (sending : Sending host) : Bytes :=
  frame gcm gcmKey sending.draw.newIv.bytes sending.enc sending.add sending.pckGSettings
    (htonl host number)

/-- A send counts one further and puts the session id plus the count into the frame. -/
theorem sendNext_ok {sender : Sender} (established : sender.connInfo.sessionId ≠ 0)
    (sending : Sending host) :
    ∃ out, sendNext gcm gcmKey sender sending =
      .ok
        { connInfo := afterSend sender.connInfo
          outBuf := out
          frames := sender.frames ++ [numberedFrame gcm gcmKey (sender.connInfo.sessionId +
            (sender.connInfo.sendSessionIncrements + 1)) sending] } := by
  obtain ⟨out, ran⟩ := encryptAndSendAll_session gcm gcmKey sending.sendable established
    sending.pckGSettings sending.draw sender.outBuf
  refine ⟨out, ?_⟩
  rw [sendNext, ran]
  rfl

/-- A session sends every message, and the frame of each carries the session id plus the place
of the message. -/
theorem sendSession_ok (connInfo : ConnInfo) (established : connInfo.sessionId ≠ 0)
    (begun : connInfo.sendSessionIncrements = 0) (outBuf : Block maxMsgLen)
    (sendings : List (Sending host)) :
    ∃ sender, runFrom (sendNext gcm gcmKey) ⟨connInfo, outBuf, []⟩ sendings = .ok sender ∧
      sender.connInfo =
        { connInfo with sendSessionIncrements := UInt32.ofNat sendings.length } ∧
      sender.frames = sendings.mapIdx fun index sending =>
        numberedFrame gcm gcmKey (connInfo.sessionId + UInt32.ofNat (index + 1)) sending := by
  induction sendings using List.reverseRecOn with
  | nil =>
      have none : UInt32.ofNat ([] : List (Sending host)).length =
          connInfo.sendSessionIncrements := begun.symm
      exact ⟨_, rfl, by rw [none], rfl⟩
  | append_singleton sendings sending ih =>
      obtain ⟨sender, ran, counted, numbered⟩ := ih
      have still : sender.connInfo.sessionId ≠ 0 := by rw [counted]; exact established
      obtain ⟨out, sent⟩ := sendNext_ok gcm gcmKey still sending
      refine ⟨_, by rw [runFrom_snoc, ran, ok_bind, sent], ?_, ?_⟩
      · rw [counted, List.length_append, afterSend, UInt32.ofNat_add]
        rfl
      · have last : UInt32.ofNat (sendings.length + 1) = UInt32.ofNat sendings.length + 1 :=
          UInt32.ofNat_add _ _
        rw [List.mapIdx_concat, last, numbered, counted]

end Sending

/-! ### What the receiver reads -/

/-- Whoever has the frame in its message buffer decrypts it and finds this number in front. -/
def Recovers (peer : ByteOrder) (gcm : Gcm) (gcmKey received : Bytes) (number : UInt32) : Prop :=
  ∀ (memory outputBuf : Block maxMsgLen) (rest : Bytes), memory.bytes = received ++ rest →
    ∃ opened, decryptPckData peer gcm gcmKey memory outputBuf = .ok opened ∧
      opened.returnValue = 0 ∧ opened.outputBuf.load32 peer 0 = .ok number

section Receiving

variable {host : ByteOrder} {gcm : Gcm} {gcmKey : Bytes}

/-- Whoever has the key finds the nonce that was given to the frame. -/
theorem recovers_frame (peer : ByteOrder) {iv : Bytes} (vector : iv.length = ivLen)
    (enc add : Option Container) (pckGSettings nonce : UInt32) :
    Recovers peer gcm gcmKey (frame gcm gcmKey iv enc add pckGSettings nonce) nonce := by
  intro memory outputBuf rest content
  obtain ⟨opened, ran, returned, -, inOutput⟩ := decryptPckData_frame peer vector content outputBuf
  refine ⟨opened, ran, returned, ?_⟩
  rw [settingsBytes, List.append_assoc] at inOutput
  have place : opened.outputBuf.bytes = [] ++ (peer.encode nonce ++
      (peer.encode pckGSettings ++ (givenBytes peer enc ++
        outputBuf.bytes.drop (protocolSpecificEncryptedDataLen + givenLength enc)))) := inOutput
  rw [Block.load32_append peer 0 place rfl (by simp), ByteOrder.decode_encode]

/-- The receiver converts once what the sender has converted twice. -/
theorem recovers_numberedFrame (peer : ByteOrder) (sending : Sending host)
    (number recovered : UInt32) :
    Recovers peer gcm gcmKey (numberedFrame gcm gcmKey number sending) recovered ↔
      recovered = htonl host number := by
  have vector := sending.draw.newIv.allocated
  have reads : Recovers peer gcm gcmKey (numberedFrame gcm gcmKey number sending)
      (htonl host number) := recovers_frame peer vector _ _ _ _
  constructor
  · intro recovers
    have fits : (numberedFrame gcm gcmKey number sending).length ≤ maxMsgLen := by
      rw [numberedFrame, length_frame _ _ _ _ _ _ vector]
      exact sending.sendable.fits
    obtain ⟨rest, content⟩ := Block.prefix_holding fits
    obtain ⟨opened, ran, -, found⟩ := recovers _ default rest content.symm
    obtain ⟨opened', ran', -, found'⟩ := reads _ default rest content.symm
    obtain rfl : opened = opened' := Except.ok.inj (ran.symm.trans ran')
    exact Except.ok.inj (found.symm.trans found')
  · rintro rfl
    exact reads

/-- In every session, the receiver of the frame with the place `index + 1` finds the session id
plus this place in it exactly where the sum is the same read from either end, or the sender
stores network order. -/
theorem numbers_agree_iff (gcm : Gcm) (gcmKey : Bytes) (peer : ByteOrder) (connInfo : ConnInfo)
    (established : connInfo.sessionId ≠ 0) (begun : connInfo.sendSessionIncrements = 0)
    (outBuf : Block maxMsgLen) (sendings : List (Sending host)) :
    ∃ sender, runFrom (sendNext gcm gcmKey) ⟨connInfo, outBuf, []⟩ sendings = .ok sender ∧
      sender.frames.length = sendings.length ∧
      ∀ index received, sender.frames[index]? = some received →
        (Recovers peer gcm gcmKey received (connInfo.sessionId + UInt32.ofNat (index + 1)) ↔
          htonl host (connInfo.sessionId + UInt32.ofNat (index + 1)) =
            connInfo.sessionId + UInt32.ofNat (index + 1)) := by
  obtain ⟨sender, ran, -, numbered⟩ :=
    sendSession_ok gcm gcmKey connInfo established begun outBuf sendings
  refine ⟨sender, ran, by rw [numbered, List.length_mapIdx], ?_⟩
  intro index received known
  rw [numbered, List.getElem?_mapIdx] at known
  obtain ⟨sending, -, rfl⟩ := Option.map_eq_some_iff.mp known
  rw [recovers_numberedFrame, eq_comm]

end Receiving

/-- AES-GCM under the zero key and the zero vector: its keystream and its tags over the first
frames of the sessions 16777216 and 17. -/
def numbersGcm : Gcm :=
  { keystream := fun _ _ index => [3, 136, 218, 206, 96, 182, 163, 146].getD index 0
    authenticate := fun _ _ _ cipher =>
      .holding tagLen
        (if cipher = [2, 136, 218, 207, 96, 182, 163, 146] then
          [143, 58, 185, 4, 16, 198, 135, 53, 186, 15, 108, 145, 163, 32, 132, 0]
        else [122, 6, 116, 214, 193, 56, 51, 20, 27, 242, 208, 118, 24, 117, 231, 32]) }

/-- A message without containers. -/
def bareSending : Sending .little :=
  { pckData := none
    addDataPck := none
    enc := none
    add := none
    sendable := sendable_alone .little .absent begun_none (by decide)
    pckGSettings := 0
    draw := default }

/-- A connection on which a session has just been established. -/
def establishedAs (sessionId : UInt32) : ConnInfo :=
  { (default : ConnInfo) with sessionId := sessionId }

/-- The first number of the session 16777216 is the same read from either end. -/
theorem symmetric_number_agrees :
    ∃ sender, runFrom (sendNext numbersGcm (List.replicate keyLen 0))
        ⟨establishedAs 16777216, default, []⟩ [bareSending] = .ok sender ∧
      ∃ received, sender.frames = [received] ∧
        Recovers .little numbersGcm (List.replicate keyLen 0) received 16777217 := by
  obtain ⟨sender, ran, counted, agrees⟩ :=
    numbers_agree_iff numbersGcm (List.replicate keyLen 0) .little
      (establishedAs 16777216) (by decide) rfl default [bareSending]
  obtain ⟨received, frames⟩ := List.length_eq_one_iff.mp counted
  refine ⟨sender, ran, received, frames, ?_⟩
  exact (agrees 0 received (by rw [frames]; rfl)).mpr (by decide)

/-- In the session 17 the receiver reads 301989888 from the first frame instead of 18. -/
theorem first_number_swapped :
    ∃ sender, runFrom (sendNext numbersGcm (List.replicate keyLen 0))
        ⟨establishedAs 17, default, []⟩ [bareSending] = .ok sender ∧
      ∃ received, sender.frames = [received] ∧
        Recovers .little numbersGcm (List.replicate keyLen 0) received 301989888 ∧
        ¬ Recovers .little numbersGcm (List.replicate keyLen 0) received 18 := by
  obtain ⟨sender, ran, -, numbered⟩ := sendSession_ok numbersGcm
    (List.replicate keyLen 0) (establishedAs 17) (by decide) rfl default [bareSending]
  refine ⟨sender, ran, _, numbered, ?_, ?_⟩
  · exact (recovers_numberedFrame .little bareSending _ _).mpr (by decide)
  · exact mt (recovers_numberedFrame .little bareSending _ _).mp (by decide)

end RentMate.MessageNumbers
