/-
Module: RentMate.MainServer.WebSocketThread
Purpose: The callback of the websocket thread: which messages of the remote server change the
  authentication flag, which of them queue a command for a device, and what is written back.
  The JSON library comes as a parameter.
Trusted boundary: human-reviewed spec
Main exports: JsonField, JsonObject, WebSocketThread, WebSocketCallback, webSocketCallback
-/
import RentMate.MainServer.Commands
import RentMate.MainServer.CommandQueue

namespace RentMate.MainServer

open RentMate.Machine
open RentMate.PckData

/-! ### JSON -/

/-- What the accessors of the JSON library give for a value: `json_object_get_int64`,
`json_object_get_int` as it is assigned to a `uint32_t`, `json_object_get_string` without its
terminator, and `json_object_get_string_len`. -/
structure JsonField where
  int64 : Int
  int : UInt32
  string : Option Bytes
  stringLen : Nat
  within : stringLen ≤ (string.getD []).length
deriving DecidableEq

/-- The accessors on `NULL`, which stands for a missing member and for `null`. -/
def JsonField.null : JsonField :=
  { int64 := 0, int := 0, string := none, stringLen := 0, within := Nat.zero_le _ }

/-- An object by its members. -/
abbrev JsonObject := List (String × JsonField)

/-- `json_object_object_get_ex`: whether the member exists, and its value. -/
def JsonObject.getEx (object : JsonObject) (key : String) : Bool × JsonField :=
  match object.lookup key with
  | none => (false, .null)
  | some field => (true, field)

/-- The bytes that `memcpy` takes of a string value. -/
def JsonField.data (field : JsonField) : Bytes := (field.string.getD []).take field.stringLen

/-- The bytes of a string constant of the source. -/
def asciiBytes (text : String) : Bytes := text.toList.map fun letter => letter.toNat.toUInt8

/-- What is told about one device. -/
structure DeviceDataEntry where
  devId : Bytes
  devtype : UInt32
  connectionType : UInt8
  lockStatus : Option UInt8
  doorStatus : Option UInt8
  password : Option Bytes
  noiseLevel : Option UInt8
deriving DecidableEq

/-- `json_object_to_json_string_length` on the two objects that are built: the credentials, with
a sequence number, and the devices. -/
structure JsonText where
  authDetails : Nat → Bytes
  deviceData : List DeviceDataEntry → Bytes

/-! ### The thread -/

/-- `remoteActionRequest`. -/
inductive RemoteActionRequest where
  | none
  | getDeviceData
deriving Repr, DecidableEq

/-- The globals of the thread, the command queue, and what has been written to the socket.
`connectionAuthenticated` is 0 if not, 1 if yes, 2 if in progress. -/
structure WebSocketThread where
  connectionAuthenticated : Nat
  actionRequest : RemoteActionRequest
  currentSeqNum : Nat
  commandsQueue : List CommandRequest
  sentCredentials : List Bytes
  sentDeviceData : List Bytes
deriving DecidableEq

/-- The reasons of a callback, with what it is given. -/
inductive WebSocketCallback where
  | clientEstablished
  | clientReceive (msgData : JsonObject)
  | clientWriteable (devInfos : List DevInfo)
  | closed
  | clientClosed
  | clientConnectionError
  | other

/-- `WEBSOCKET_BUFFER_LENGTH`. -/
abbrev websocketBufferLength : Nat := 15000

/-- The `passcodeStr` of a lock. Every digit is taken from `password[0]`, and one more than
`passwordLen` is written to the array of twelve. -/
def passcodeStr (deviceData : DevInfo) : Checked Bytes :=
  if 12 < deviceData.passwordLen.toNat + 1 then .error .outOfBounds
  else
    .ok (List.replicate deviceData.passwordLen.toNat (deviceData.password.bytes.getD 0 0 + 48))

/-- The entry of one device. -/
def deviceDataEntry (deviceData : DevInfo) : Checked DeviceDataEntry := do
  let password ← (
    if deviceData.devType = 2 then do
      let digits ← passcodeStr deviceData
      pure (some digits)
    else pure none)
  pure
    { devId := deviceData.devId.bytes
      devtype := deviceData.devType
      connectionType := deviceData.deviceConnectionType
      lockStatus := if deviceData.devType = 2 then some deviceData.lockState else none
      doorStatus := if deviceData.devType = 2 then some deviceData.doorState else none
      password := password
      noiseLevel := if deviceData.devType = 5 then some deviceData.noiseLevel else none }

/-- `int statusValue`: the low 32 bits of the value, with their sign. -/
def statusValue (field : JsonField) : Int := Int.bmod field.int64 4294967296

/-- The command of a `deviceCommand` message. -/
def commandOf (msgData : JsonObject) : CommandRequestCommand :=
  let args := (msgData.getEx "args").2
  let addData := (msgData.getEx "addData").2
  { opCode := (msgData.getEx "opcode").2.int
    argsPtr := some args.data
    argsLen := UInt32.ofNat args.stringLen
    addPtr := some addData.data
    addLen := UInt8.ofNat addData.stringLen
    gSettings := (msgData.getEx "gSettings").2.int }

/-- `addToCommandQueue` on a C string: it reads `DEVIDLEN` bytes of it. -/
def queueDeviceCommand (thread : WebSocketThread) (msgData : JsonObject) :
    Checked WebSocketThread :=
  match (msgData.getEx "devid").2.string with
  | none => .error .nullPointer
  | some devid => do
      let devId ← readBytes (devid ++ [0]) 0 devIdLen
      pure
        { thread with
          commandsQueue := addToCommandQueue thread.commandsQueue devId (commandOf msgData) }

/-- What a message asks for. -/
def actUpon (thread : WebSocketThread) (msgData : JsonObject) : Checked WebSocketThread :=
  let (exists', action) := msgData.getEx "action"
  if exists' = false then .ok thread
  else
    match action.string with
    | none => .error .nullPointer
    | some actionString =>
        if actionString = asciiBytes "deviceCommand" then queueDeviceCommand thread msgData
        else if actionString = asciiBytes "getDeviceInfo" then
          .ok { thread with actionRequest := .getDeviceData }
        else .ok thread

/-- What a status does to `connectionAuthenticated`. -/
def authenticatedBy (connectionAuthenticated : Nat) (status : Int) : Nat :=
  if status = 0 then 0 else if status = 1 then 1 else connectionAuthenticated

/-- `LWS_CALLBACK_CLIENT_RECEIVE`. -/
def clientReceive (thread : WebSocketThread) (msgData : JsonObject) : Checked WebSocketThread :=
  let (exists', state) := msgData.getEx "state"
  if exists' = false then .ok thread
  else
    let thread :=
      { thread with
        connectionAuthenticated :=
          authenticatedBy thread.connectionAuthenticated (statusValue state) }
    if thread.connectionAuthenticated = 0 then .ok thread else actUpon thread msgData

/-- The body of the close cases, which two branches of the writable case fall into. -/
def connectionClosed (thread : WebSocketThread) : WebSocketThread :=
  { thread with connectionAuthenticated := 0 }

/-- A message in the buffer that is written from. -/
def writtenMessage (message : Bytes) : Checked Bytes :=
  if websocketBufferLength < message.length then .error .outOfBounds else .ok message

/-- The answer to a `GetDeviceData` request. -/
def deviceDataMessage (json : JsonText) (devInfos : List DevInfo) : Checked Bytes := do
  let entries ← devInfos.mapM deviceDataEntry
  writtenMessage
    (if 0 < devInfos.length then json.deviceData entries
    else asciiBytes "\x7bstate:'noDevicesConnected'\x7d")

/-- `LWS_CALLBACK_CLIENT_WRITEABLE`. -/
def clientWriteable (json : JsonText) (thread : WebSocketThread) (devInfos : List DevInfo) :
    Checked WebSocketThread :=
  if thread.connectionAuthenticated = 0 then
    let thread := { thread with connectionAuthenticated := 2 }
    if 0 < (json.authDetails thread.currentSeqNum).length then do
      let message ← writtenMessage (json.authDetails thread.currentSeqNum)
      pure
        { thread with
          currentSeqNum := thread.currentSeqNum + 1
          sentCredentials := thread.sentCredentials ++ [message] }
    else .ok (connectionClosed thread)
  else
    match thread.actionRequest with
    | .none => .ok (connectionClosed thread)
    | .getDeviceData => do
        let message ← deviceDataMessage json devInfos
        pure
          { thread with
            currentSeqNum := thread.currentSeqNum + 1
            sentDeviceData := thread.sentDeviceData ++ [message] }

/-- `webSocketCallback`. -/
def webSocketCallback (json : JsonText) (thread : WebSocketThread) :
    WebSocketCallback → Checked WebSocketThread
  | .clientEstablished => .ok thread
  | .clientReceive msgData => clientReceive thread msgData
  | .clientWriteable devInfos => clientWriteable json thread devInfos
  | .closed => .ok (connectionClosed thread)
  | .clientClosed => .ok (connectionClosed thread)
  | .clientConnectionError => .ok (connectionClosed thread)
  | .other => .ok thread

end RentMate.MainServer
