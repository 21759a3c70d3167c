/-
Module: RentMate.PckData.Session
Purpose: The state that either end keeps for a connection, and sending a message on it: which
  nonce goes into the message, and what happens to the session's fields.
Trusted boundary: human-reviewed spec
Main exports: ConnInfo, Draw, sendall, encryptAndSendAll
-/
import RentMate.PckData.Message

namespace RentMate.PckData

open RentMate.Machine

/-- `connInfo_t`. A nonce or session id of zero is one that has not been set. -/
structure ConnInfo where
  socket : Int
  connectionType : UInt8
  remoteNonce : UInt32
  localNonce : UInt32
  sessionId : UInt32
  sendSessionIncrements : UInt32
  rcvSessionIncrements : UInt32
deriving Repr, Inhabited, DecidableEq

/-- The `connInfo_t` that `accept1` adds for a new socket. -/
def acceptedConnInfo (newFd : Int) (connType : UInt8) : ConnInfo :=
  { socket := newFd
    connectionType := connType
    remoteNonce := 0
    localNonce := 0
    sessionId := 0
    sendSessionIncrements := 0
    rcvSessionIncrements := 0 }

/-- What `getrandom` gives while one message is sent. -/
structure Draw where
  localNonce : UInt32
  newIv : Block ivLen
deriving Inhabited

/-- `sendall`: the bytes that are sent. The length is taken for an `int`, so that nothing is sent
from 2^31 on. -/
def sendall {size : Nat} (buf : Block size) (len : UInt32) : Checked Bytes :=
  if len.toNat < 2147483648 then buf.read 0 len.toNat else .ok []

/-- What `encryptAndSendAll` returns, what it leaves of the connection and of `outBuf`, and what
it sends. -/
structure SendResult (size : Nat) where
  returnValue : Int
  connInfo : Option ConnInfo
  outBuf : Block size
  sent : Option Bytes

section Sending

variable {size : Nat} (host : ByteOrder) (gcm : Gcm)

/-- The composing and the sending that end every branch of `encryptAndSendAll`. -/
def sendMessage (connInfo : Option ConnInfo) (ctx : Option Bytes)
    (pckData addDataPck extraDataPck : Option (Block pckDataIncrements))
    (pckGSettings nonce : UInt32) (newIv : Block ivLen) (outBuf : Block size) :
    Checked (SendResult size) := do
  let (msgLen, outBuf) ← encryptPckData host gcm ctx pckData addDataPck extraDataPck
    pckGSettings nonce newIv outBuf
  let sent ← sendall outBuf msgLen
  pure { returnValue := 0, connInfo := connInfo, outBuf := outBuf, sent := some sent }

/-- The local nonce that `encryptAndSendAll` keeps: zero would mean that there is none. -/
def nonceOf (random : UInt32) : UInt32 := if random = 0 then 1 else random

/-- `encryptAndSendAll`. The nonce is converted once here and once more by `encryptPckData`. -/
def encryptAndSendAll (connInfo : Option ConnInfo) (ctx : Option Bytes)
    (pckData addDataPck extraDataPck : Option (Block pckDataIncrements))
    (pckGSettings : UInt32) (draw : Draw) (outBuf : Block size) : Checked (SendResult size) :=
  match connInfo with
  | none =>
      sendMessage host gcm none ctx pckData addDataPck extraDataPck pckGSettings 0 draw.newIv
        outBuf
  | some connInfo =>
      if connInfo.sessionId ≠ 0 then
        let connInfo :=
          { connInfo with sendSessionIncrements := connInfo.sendSessionIncrements + 1 }
        let currentNonce := htonl host (connInfo.sessionId + connInfo.sendSessionIncrements)
        sendMessage host gcm (some connInfo) ctx pckData addDataPck extraDataPck pckGSettings
          currentNonce draw.newIv outBuf
      else if connInfo.localNonce ≠ 0 then
        pure { returnValue := -1, connInfo := some connInfo, outBuf := outBuf, sent := none }
      else
        let connInfo := { connInfo with localNonce := nonceOf draw.localNonce }
        sendMessage host gcm (some connInfo) ctx pckData addDataPck extraDataPck pckGSettings
          (htonl host connInfo.localNonce) draw.newIv outBuf

end Sending

end RentMate.PckData
