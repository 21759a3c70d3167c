/-
Module: RentMate.MainServer.Beacon
Purpose: The handlers of a node's message on the entries with their time stamps, and the whole of
  what a message changes in them.
Trusted boundary: human-reviewed spec
Main exports: StampedDevInfo, updateDeviceStatus, stampedNodeToServerBeacon, stampedMessage
-/
import RentMate.MainServer.Commands

namespace RentMate.MainServer

open RentMate.Machine
open RentMate.PckData

/-- `devInfo` with its time stamp, a `time_t`. -/
structure StampedDevInfo extends DevInfo where
  lastConnectionTime : Int
deriving DecidableEq

/-- `updateDeviceStatus`. -/
def updateDeviceStatus (currentTime : Int) (devInfoRef : StampedDevInfo) : StampedDevInfo :=
  { devInfoRef with lastConnectionTime := currentTime }

/-- A loop over `devInfos` that changes the first entry of the device, if there is one. -/
def updateEntry (devid : Bytes) (update : StampedDevInfo → Checked StampedDevInfo) :
    List StampedDevInfo → Checked (List StampedDevInfo)
  | [] => .ok []
  | devInfoRef :: rest =>
      if devInfoRef.devId.bytes = devid then do
        let updated ← update devInfoRef
        pure (updated :: rest)
      else do
        let rest ← updateEntry devid update rest
        pure (devInfoRef :: rest)

/-- The loop of a branch of the beacon, which sets fields of the entry of the device, and
`updateDeviceStatus` on that entry. -/
def updateFound (devid : Bytes) (set : DevInfo → Checked DevInfo) (currentTime : Int) :
    List StampedDevInfo → Checked (List StampedDevInfo) :=
  updateEntry devid fun devInfoRef => do
    let updated ← set devInfoRef.toDevInfo
    pure (updateDeviceStatus currentTime { devInfoRef with toDevInfo := updated })

/-- The local variables that the beacon of a lock is copied to. -/
structure LockReport where
  lockStatus : UInt8
  doorStatus : UInt8
  passwordLen : UInt8
  password : Block 12

/-- The copies from the arguments. `password` is what the array of twelve bytes held before. -/
def readLockReport (args : Bytes) (password : Block 12) : Checked LockReport := do
  let lockStatus ← readBytes args 0 1
  let doorStatus ← readBytes args 1 1
  let lengthByte ← readBytes args 2 1
  let passwordLen := lengthByte.getD 0 0
  let digits ← readBytes args 3 passwordLen.toNat
  let password ← password.write 0 digits
  pure
    { lockStatus := lockStatus.getD 0 0
      doorStatus := doorStatus.getD 0 0
      passwordLen := passwordLen
      password := password }

/-- The fields that the beacon of a lock sets. -/
def setLockFields (report : LockReport) (devInfo : DevInfo) : Checked DevInfo := do
  let copied ← report.password.read 0 report.passwordLen.toNat
  let password ← devInfo.password.write 0 copied
  pure
    { devInfo with
      lockState := report.lockStatus
      doorState := report.doorStatus
      passwordLen := report.passwordLen
      password := password }

/-- `nodeToServerBeacon` on entries with time stamps. -/
def stampedNodeToServerBeacon (devInfos : List StampedDevInfo) (devid : Bytes) (devtype : UInt8)
    (args : Bytes) (argsLen : UInt32) (password : Block 12) (currentTime : Int) :
    Checked (List StampedDevInfo) := do
  let _ ← readBytes args 0 argsLen.toNat
  if devtype = 2 then do
    let report ← readLockReport args password
    updateFound devid (setLockFields report) currentTime devInfos
  else if devtype = 5 then do
    let noiseLevel ← readBytes args 0 1
    updateFound devid (fun devInfo => .ok { devInfo with noiseLevel := noiseLevel.getD 0 0 })
      currentTime devInfos
  else pure devInfos

/-- `runServerCommand` on entries with time stamps. -/
def stampedServerCommand (devInfos : List StampedDevInfo) (call : ServerCall)
    (password : Block 12) (currentTime : Int) : Checked (List StampedDevInfo) :=
  match call.command with
  | .nodeToServerBeacon =>
      stampedNodeToServerBeacon devInfos call.devId call.devtype call.args call.argsLen password
        currentTime
  | .nodeToServerMessage => do
      nodeToServerMessage call.args call.argsLen
      pure devInfos

/-- What a message of an established session does to the entries: `processMsg` sets the type of the
device, and the handler is called. -/
def stampedMessage (devInfos : List StampedDevInfo) (devtype : UInt32) (call : ServerCall)
    (password : Block 12) (currentTime : Int) : Checked (List StampedDevInfo) := do
  let devInfos ← updateEntry call.devId
    (fun devInfoRef =>
      .ok { devInfoRef with toDevInfo := { devInfoRef.toDevInfo with devType := devtype } })
    devInfos
  stampedServerCommand devInfos call password currentTime

end RentMate.MainServer
