/-
Module: RentMate.MainServer.ConfigFile
Purpose: The device config file: how a device is saved to it and how the devices are loaded from
  it. The JSON library keeps strings as they were; how it reads an integer back is a parameter.
Trusted boundary: human-reviewed spec
Main exports: Lossless, DeviceEntry, DeviceFile, saveDevInfoToConfigFile, saveDevices,
  loadInServerSettings
-/
import RentMate.MainServer.Commands

namespace RentMate.MainServer

open RentMate.Machine
open RentMate.PckData

/-! ### JSON integers -/

/-- The JSON library gives every `int` back as it was stored: what `json_object_get_int` gives for
an integer of the file is a parameter of the model. -/
def Lossless (jsonGetInt : Int → Int) : Prop :=
  ∀ value, -2147483648 ≤ value → value ≤ 2147483647 → jsonGetInt value = value

/-- A `uint32_t` that is passed for an `int`. -/
def asInt (word : UInt32) : Int :=
  if word.toNat < 2147483648 then word.toNat else word.toNat - 4294967296

/-! ### The file -/

/-- An object of the `deviceInfos` array. -/
structure DeviceEntry where
  devId : Block devIdLen
  encryptionKey : Block keyLen
  devtype : Int
  deviceConnectionType : Int
deriving DecidableEq

/-- The device config file. It may have no `deviceInfos` array. -/
structure DeviceFile where
  deviceInfos : Option (List DeviceEntry)
deriving DecidableEq

/-- The array, which is empty if there is none. -/
def DeviceFile.entries (file : DeviceFile) : List DeviceEntry := file.deviceInfos.getD []

/-! ### Saving -/

/-- The changes to an entry that exists. The connection type is set in the place of the device
type, after the device type. -/
def changeEntry (data : DevInfo) (temp : DeviceEntry) : DeviceEntry :=
  let temp := { temp with encryptionKey := data.key }
  let temp := { temp with devtype := asInt data.devType }
  { temp with devtype := data.deviceConnectionType.toNat }

/-- The entry of a device that is not in the file. -/
def newDataEntry (data : DevInfo) : DeviceEntry :=
  { devId := data.devId
    encryptionKey := data.key
    devtype := asInt data.devType
    deviceConnectionType := data.deviceConnectionType.toNat }

/-- The loop over the array: the entries it leaves, and `dataEntryFound`. -/
def changeEntries (data : DevInfo) (dataEntryFound : Bool) :
    List DeviceEntry → List DeviceEntry × Bool
  | [] => ([], dataEntryFound)
  | temp :: rest =>
      if temp.devId = data.devId then
        let (changed, dataEntryFound) := changeEntries data true rest
        (changeEntry data temp :: changed, dataEntryFound)
      else
        let (changed, dataEntryFound) := changeEntries data dataEntryFound rest
        (temp :: changed, dataEntryFound)

/-- `saveDevInfoToConfigFile`. A file that cannot be opened stays as it is. -/
def saveDevInfoToConfigFile (opens : Bool) (file : DeviceFile) (data : DevInfo) : DeviceFile :=
  if opens = true then
    let devInfosArray := file.entries
    let (changed, dataEntryFound) := changeEntries data false devInfosArray
    { deviceInfos := some (if dataEntryFound then changed else changed ++ [newDataEntry data]) }
  else file

/-- The file behind one save after the other, each with whether the file could be opened for it. -/
def saveDevices (file : DeviceFile) (saves : List (Bool × DevInfo)) : DeviceFile :=
  saves.foldl (fun file save => saveDevInfoToConfigFile save.1 file save.2) file

/-! ### Loading -/

section Loading

variable (jsonGetInt : Int → Int)

/-- The device of an entry. `newDevInfo` is what the local variable held before. -/
def loadEntry (newDevInfo : DevInfo) (temp : DeviceEntry) : DevInfo :=
  { newDevInfo with
    devId := temp.devId
    key := temp.encryptionKey
    devType := UInt32.ofInt (jsonGetInt temp.devtype)
    deviceConnectionType := UInt8.ofInt (jsonGetInt temp.deviceConnectionType) }

/-- The loop over the array. The entries are numbered for what the local variable held. -/
def loadEntries (newDevInfo : Nat → DevInfo) : Nat → List DeviceEntry → List DevInfo → List DevInfo
  | _, [], devInfos => devInfos
  | i, temp :: rest, devInfos =>
      loadEntries newDevInfo (i + 1) rest
        (devInfos ++ [loadEntry jsonGetInt (newDevInfo i) temp])

/-- `loadInServerSettings`, as far as it reads the device config file. -/
def loadInServerSettings (newDevInfo : Nat → DevInfo) (file : DeviceFile)
    (devInfos : List DevInfo) : List DevInfo :=
  match file.deviceInfos with
  | none => devInfos
  | some devInfosArray => loadEntries jsonGetInt newDevInfo 0 devInfosArray devInfos

end Loading

end RentMate.MainServer
