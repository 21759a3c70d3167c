/-
Module: RentMate.PckData.Sending
Purpose: `encryptAndSendAll` over a socket that takes only part of what it is given, or nothing,
  and over an encryption that may fail.
Trusted boundary: human-reviewed spec
Main exports: SendOutcome, sendallOver, Medium, encryptAndSendAllOver
-/
import RentMate.PckData.Session

namespace RentMate.PckData

open RentMate.Machine

/-- What one call of `send` gives: it takes this many bytes, or it fails. -/
inductive SendOutcome where
  | accepted (count : Nat)
  | failed
deriving DecidableEq

/-- How many of the bytes that are left a call of `send` takes: at least one, and not more than
there are. -/
def takenOf (count bytesleft : Nat) : Nat := max 1 (min count bytesleft)

/-- The loop of `sendall`: what it returns and the bytes that `send` has taken, in order. The
calls of `send` are numbered. Every call that does not fail takes a byte at least, so as much fuel
as bytes is enough. -/
def sendallLoop {size : Nat} (schedule : Nat → SendOutcome) (buf : Block size) (len : Nat) :
    Nat → Nat → Nat → Bytes → Checked (Int × Bytes)
  | 0, _, total, taken => if total < len then .error .diverges else .ok (0, taken)
  | fuel + 1, call, total, taken =>
      if total < len then
        match schedule call with
        | .failed => .ok (-1, taken)
        | .accepted count => do
            let n := takenOf count (len - total)
            let bytes ← buf.read total n
            sendallLoop schedule buf len fuel (call + 1) (total + n) (taken ++ bytes)
      else .ok (0, taken)

/-- `sendall`. The length is taken for an `int`, so that nothing is sent from 2^31 on. -/
def sendallOver {size : Nat} (schedule : Nat → SendOutcome) (buf : Block size) (len : UInt32) :
    Checked (Int × Bytes) :=
  if len.toNat < 2147483648 then sendallLoop schedule buf len.toNat len.toNat 0 0 []
  else .ok (0, [])

/-- What a send meets: the calls of `send`, and whether `encryptGcm` reports an error. -/
structure Medium where
  schedule : Nat → SendOutcome
  encryptionFails : Bool

section Sending

variable {size : Nat} (host : ByteOrder) (gcm : Gcm) (medium : Medium)

/-- `encryptPckData` with an `encryptGcm` that may fail. Then it returns `-1` and leaves the
message as it has composed and printed it. -/
def encryptPckDataOver (ctx : Option Bytes)
    (pckData addDataPck extraDataPck : Option (Block pckDataIncrements))
    (pckGSettings nonce : UInt32) (newIv : Block ivLen) (outputBuf : Block size) :
    Checked (UInt32 × Block size) :=
  if ctx.isSome ∧ medium.encryptionFails = true then do
    let composed ← composePckData host pckData addDataPck extraDataPck pckGSettings nonce newIv
      outputBuf
    let outputBuf ← printMessage host composed.outputBuf false true
    pure (minusOne, outputBuf)
  else
    encryptPckData host gcm ctx pckData addDataPck extraDataPck pckGSettings nonce newIv outputBuf

/-- The composing and the sending that end every branch of `encryptAndSendAll`. What `sendall`
returns is not looked at, and neither is what `encryptPckData` returns. -/
def sendMessageOver (connInfo : Option ConnInfo) (ctx : Option Bytes)
    (pckData addDataPck extraDataPck : Option (Block pckDataIncrements))
    (pckGSettings nonce : UInt32) (newIv : Block ivLen) (outBuf : Block size) :
    Checked (SendResult size) := do
  let (msgLen, outBuf) ← encryptPckDataOver host gcm medium ctx pckData addDataPck extraDataPck
    pckGSettings nonce newIv outBuf
  let (_, sent) ← sendallOver medium.schedule outBuf msgLen
  pure { returnValue := 0, connInfo := connInfo, outBuf := outBuf, sent := some sent }

/-- `encryptAndSendAll`. -/
def encryptAndSendAllOver (connInfo : Option ConnInfo) (ctx : Option Bytes)
    (pckData addDataPck extraDataPck : Option (Block pckDataIncrements))
    (pckGSettings : UInt32) (draw : Draw) (outBuf : Block size) : Checked (SendResult size) :=
  match connInfo with
  | none =>
      sendMessageOver host gcm medium none ctx pckData addDataPck extraDataPck pckGSettings 0
        draw.newIv outBuf
  | some connInfo =>
      if connInfo.sessionId ≠ 0 then
        let connInfo :=
          { connInfo with sendSessionIncrements := connInfo.sendSessionIncrements + 1 }
        let currentNonce := htonl host (connInfo.sessionId + connInfo.sendSessionIncrements)
        sendMessageOver host gcm medium (some connInfo) ctx pckData addDataPck extraDataPck
          pckGSettings currentNonce draw.newIv outBuf
      else if connInfo.localNonce ≠ 0 then
        pure { returnValue := -1, connInfo := some connInfo, outBuf := outBuf, sent := none }
      else
        let connInfo := { connInfo with localNonce := nonceOf draw.localNonce }
        sendMessageOver host gcm medium (some connInfo) ctx pckData addDataPck extraDataPck
          pckGSettings (htonl host connInfo.localNonce) draw.newIv outBuf

end Sending

end RentMate.PckData
