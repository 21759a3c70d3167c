/-
Module: RentMate.MainServer.Commands
Purpose: What the server knows about a device, and the handlers that a node's message reaches
  by its opcode.
Trusted boundary: human-reviewed spec
Main exports: DevInfo, findDevInfo, updateDevInfo, serverCommands, nodeToServerBeacon
-/
import RentMate.PckData.GeneralSettings
import RentMate.Machine.Buffer

namespace RentMate.MainServer

open RentMate.Machine
open RentMate.PckData

/-- `devInfo`, with the fields that a function of the server reads or sets for a purpose other
than a time stamp. With the time stamp it is `StampedDevInfo`. -/
structure DevInfo where
  devId : Block devIdLen
  key : Block keyLen
  devType : UInt32
  deviceConnectionType : UInt8
  lockState : UInt8
  doorState : UInt8
  passwordLen : UInt8
  password : Block 12
  noiseLevel : UInt8
deriving DecidableEq

instance : Inhabited DevInfo :=
  ⟨{ devId := default
     key := default
     devType := 0
     deviceConnectionType := 0
     lockState := 0
     doorState := 0
     passwordLen := 0
     password := default
     noiseLevel := 0 }⟩

/-- The loops over `devInfos`: the first entry of a device. -/
def findDevInfo (devInfos : List DevInfo) (devId : Bytes) : Option DevInfo :=
  devInfos.find? fun devInfo => devInfo.devId.bytes = devId

/-- A change of the first entry of a device, through the pointer that such a loop ends with. -/
def updateDevInfo (devId : Bytes) (update : DevInfo → Checked DevInfo) :
    List DevInfo → Checked (List DevInfo)
  | [] => .ok []
  | devInfo :: rest =>
      if devInfo.devId.bytes = devId then do
        let updated ← update devInfo
        pure (updated :: rest)
      else do
        let rest ← updateDevInfo devId update rest
        pure (devInfo :: rest)

/-! ### The command table -/

/-- The handlers that `initServerCommandsList` puts into `serverCommands`. -/
inductive ServerCommand where
  | nodeToServerBeacon
  | nodeToServerMessage
deriving Repr, Inhabited, DecidableEq

/-- `nodeToServerReservedOpCodesUpperLimit`. -/
abbrev nodeToServerReservedOpCodesUpperLimit : UInt32 := 128

/-- `serverCommands[devtype][opcode]`. The first two entries of the first row are assigned. Every
other entry is what `malloc` left, or lies in a row that has not been allocated. -/
def serverCommands (devtype opcode : UInt32) : Checked ServerCommand :=
  if devtype = 0 then
    if opcode = 0 then .ok .nodeToServerBeacon
    else if opcode = 1 then .ok .nodeToServerMessage
    else .error .invalidCall
  else .error .invalidCall

/-- The call of a handler: its arguments and the handler itself. -/
structure ServerCall where
  command : ServerCommand
  devId : Bytes
  devtype : UInt8
  args : Bytes
  argsLen : UInt32
deriving DecidableEq

/-! ### The handlers -/

/-- The beacon of a smart lock. `password` is what the local array of twelve bytes held
before. -/
def smartLockBeacon (devInfos : List DevInfo) (devid args : Bytes) (password : Block 12) :
    Checked (List DevInfo) := do
  let lockStatus ← readBytes args 0 1
  let doorStatus ← readBytes args 1 1
  let lengthByte ← readBytes args 2 1
  let passwordLen := lengthByte.getD 0 0
  let digits ← readBytes args 3 passwordLen.toNat
  let password ← password.write 0 digits
  updateDevInfo devid (fun devInfo => do
    let copied ← password.read 0 passwordLen.toNat
    let password ← devInfo.password.write 0 copied
    pure
      { devInfo with
        lockState := lockStatus.getD 0 0
        doorState := doorStatus.getD 0 0
        passwordLen := passwordLen
        password := password }) devInfos

/-- The beacon of a noise monitor. -/
def noiseMonitorBeacon (devInfos : List DevInfo) (devid args : Bytes) :
    Checked (List DevInfo) := do
  let noiseLevel ← readBytes args 0 1
  updateDevInfo devid (fun devInfo =>
    .ok { devInfo with noiseLevel := noiseLevel.getD 0 0 }) devInfos

/-- `nodeToServerBeacon`. It prints `argsLen` bytes first. -/
def nodeToServerBeacon (devInfos : List DevInfo) (devid : Bytes) (devtype : UInt8)
    (args : Bytes) (argsLen : UInt32) (password : Block 12) : Checked (List DevInfo) := do
  let _ ← readBytes args 0 argsLen.toNat
  if devtype = 2 then smartLockBeacon devInfos devid args password
  else if devtype = 5 then noiseMonitorBeacon devInfos devid args
  else pure devInfos

/-- `nodeToServerMessage` prints its arguments. -/
def nodeToServerMessage (args : Bytes) (argsLen : UInt32) : Checked Unit := do
  let _ ← readBytes args 0 argsLen.toNat
  pure ()

/-- The handler that is called, on the devices it may update. -/
def runServerCommand (devInfos : List DevInfo) (call : ServerCall) (password : Block 12) :
    Checked (List DevInfo) :=
  match call.command with
  | .nodeToServerBeacon =>
      nodeToServerBeacon devInfos call.devId call.devtype call.args call.argsLen password
  | .nodeToServerMessage => do
      nodeToServerMessage call.args call.argsLen
      pure devInfos

end RentMate.MainServer
