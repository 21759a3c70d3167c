/-
Module: RentMate.Proofs.DeviceConfigFile
Purpose: What saving a device and loading the file again makes of the list of devices.
Trusted boundary: none
Main exports: StoredDevice, loaded_stored, entries_saved, distinct_saved, key_saved,
  save_upserts_iff
-/
import RentMate.MainServer.ConfigFile
import RentMate.Machine.Upsert

namespace RentMate.DeviceConfigFile

open RentMate.Machine
open RentMate.PckData
open RentMate.MainServer

/-- What of a device outlasts a restart of the server. -/
structure StoredDevice where
  devId : Block devIdLen
  key : Block keyLen
  devType : UInt32
  deviceConnectionType : UInt8
deriving DecidableEq

/-- The part of a device that is stored. -/
def stored (devInfo : DevInfo) : StoredDevice :=
  { devId := devInfo.devId
    key := devInfo.key
    devType := devInfo.devType
    deviceConnectionType := devInfo.deviceConnectionType }

section Integers

variable {jsonGetInt : Int → Int}

/-- The connection type that is loaded from an entry. -/
def loadedConnectionType (jsonGetInt : Int → Int) (entry : DeviceEntry) : UInt8 :=
  UInt8.ofInt (jsonGetInt entry.deviceConnectionType)

/-- What is loaded from an entry. -/
def storedEntry (jsonGetInt : Int → Int) (entry : DeviceEntry) : StoredDevice :=
  { devId := entry.devId
    key := entry.encryptionKey
    devType := UInt32.ofInt (jsonGetInt entry.devtype)
    deviceConnectionType := loadedConnectionType jsonGetInt entry }

/-! ### Integers -/

/-- A `uint32_t` is loaded as it was saved. -/
theorem uint32_saved (lossless : Lossless jsonGetInt) (word : UInt32) :
    UInt32.ofInt (jsonGetInt (asInt word)) = word := by
  have bound : word.toNat < 4294967296 := word.toNat_lt
  have kept : jsonGetInt (asInt word) = asInt word := by
    apply lossless <;> (unfold asInt; split <;> omega)
  apply UInt32.toNat_inj.mp
  rw [kept, UInt32.ofInt, UInt32.toNat_ofNat']
  unfold asInt
  split <;> omega

/-- A `uint8_t` is an `int`. -/
theorem jsonGetInt_byte (lossless : Lossless jsonGetInt) (byte : UInt8) :
    jsonGetInt byte.toNat = byte.toNat := by
  have bound : byte.toNat < 256 := byte.toNat_lt
  apply lossless <;> omega

/-- A `uint8_t` is loaded as it was saved. -/
theorem uint8_saved (lossless : Lossless jsonGetInt) (byte : UInt8) :
    UInt8.ofInt (jsonGetInt byte.toNat) = byte := by
  have bound : byte.toNat < 256 := byte.toNat_lt
  apply UInt8.toNat_inj.mp
  rw [jsonGetInt_byte lossless, UInt8.ofInt, UInt8.toNat_ofNat']
  omega

/-- A `uint8_t` that was saved is loaded as the same number for a `uint32_t`. -/
theorem uint8_saved_wide (lossless : Lossless jsonGetInt) (byte : UInt8) :
    UInt32.ofInt (jsonGetInt byte.toNat) = byte.toUInt32 := by
  have bound : byte.toNat < 256 := byte.toNat_lt
  apply UInt32.toNat_inj.mp
  rw [jsonGetInt_byte lossless, UInt32.ofInt, UInt32.toNat_ofNat', UInt8.toNat_toUInt32]
  omega

end Integers

/-! ### Loading and saving -/

section File

variable {jsonGetInt : Int → Int} {file : DeviceFile} {data : DevInfo}

/-- Loading appends one device for each entry. -/
theorem loadEntries_stored (jsonGetInt : Int → Int) (newDevInfo : Nat → DevInfo) (i : Nat)
    (entries : List DeviceEntry) (devInfos : List DevInfo) :
    (loadEntries jsonGetInt newDevInfo i entries devInfos).map stored =
      devInfos.map stored ++ entries.map (storedEntry jsonGetInt) := by
  induction entries generalizing i devInfos with
  | nil => simp [loadEntries]
  | cons temp rest ih =>
      rw [loadEntries, ih, List.map_append, List.append_assoc]
      rfl

/-- An empty list is loaded with the devices of the file. -/
theorem loaded_stored (jsonGetInt : Int → Int) (newDevInfo : Nat → DevInfo) (file : DeviceFile) :
    (loadInServerSettings jsonGetInt newDevInfo file []).map stored =
      file.entries.map (storedEntry jsonGetInt) := by
  rw [loadInServerSettings, DeviceFile.entries]
  cases file.deviceInfos with
  | none => rfl
  | some devInfosArray => exact loadEntries_stored jsonGetInt newDevInfo 0 devInfosArray []

/-- The loop changes the entries of the device and says whether there are any. -/
theorem changeEntries_eq (data : DevInfo) (found : Bool) (entries : List DeviceEntry) :
    changeEntries data found entries =
      (entries.map fun entry => if entry.devId = data.devId then changeEntry data entry else entry,
        found || decide (data.devId ∈ entries.map DeviceEntry.devId)) := by
  induction entries generalizing found with
  | nil => simp [changeEntries]
  | cons temp rest ih =>
      rw [changeEntries]
      by_cases own : temp.devId = data.devId
      · simp [own, ih]
      · have other : data.devId ≠ temp.devId := Ne.symm own
        simp [own, other, ih]

/-- Saving revises the entries of the device or appends one. -/
theorem entries_saved (file : DeviceFile) (data : DevInfo) :
    (saveDevInfoToConfigFile true file data).entries =
      reviseOrAppend DeviceEntry.devId data.devId (changeEntry data) (newDataEntry data)
        file.entries := by
  have changed := changeEntries_eq data false file.entries
  rw [Bool.false_or] at changed
  have saved : saveDevInfoToConfigFile true file data =
      { deviceInfos := some (if data.devId ∈ file.entries.map DeviceEntry.devId then
          file.entries.map fun entry =>
            if entry.devId = data.devId then changeEntry data entry else entry
        else
          (file.entries.map fun entry =>
            if entry.devId = data.devId then changeEntry data entry else entry) ++
              [newDataEntry data]) } := by
    simp only [saveDevInfoToConfigFile, if_true, changed, decide_eq_true_eq]
  rw [saved, DeviceFile.entries, Option.getD_some]
  by_cases present : data.devId ∈ file.entries.map DeviceEntry.devId
  · rw [if_pos present, reviseOrAppend_present present]
  · have kept : ∀ entry ∈ file.entries,
        (if entry.devId = data.devId then changeEntry data entry else entry) = id entry := by
      intro entry inside
      exact if_neg fun own => present (List.mem_map.mpr ⟨entry, inside, own⟩)
    rw [if_neg present, reviseOrAppend_absent present, List.map_congr_left kept, List.map_id]

/-- Saving keeps the DEVIDs of a file distinct. -/
theorem distinct_saved (opens : Bool) (data : DevInfo)
    (distinct : (file.entries.map DeviceEntry.devId).Nodup) :
    ((saveDevInfoToConfigFile opens file data).entries.map DeviceEntry.devId).Nodup := by
  cases opens with
  | false => exact distinct
  | true =>
      rw [entries_saved]
      exact nodup_reviseOrAppend (fun _ => rfl) rfl distinct

/-- A new entry is loaded as the device it was made for. -/
theorem storedEntry_new (lossless : Lossless jsonGetInt) (data : DevInfo) :
    storedEntry jsonGetInt (newDataEntry data) = stored data := by
  rw [storedEntry, stored, loadedConnectionType]
  simp only [newDataEntry, uint32_saved lossless, uint8_saved lossless]

/-- What is loaded from an entry that has been changed. -/
theorem storedEntry_changed (lossless : Lossless jsonGetInt) (data : DevInfo)
    (entry : DeviceEntry) :
    storedEntry jsonGetInt (changeEntry data entry) =
      { devId := entry.devId
        key := data.key
        devType := data.deviceConnectionType.toUInt32
        deviceConnectionType := loadedConnectionType jsonGetInt entry } := by
  rw [storedEntry, loadedConnectionType]
  simp only [changeEntry, uint8_saved_wide lossless]
  rfl

/-- A change stores the device as it is exactly where its two types are the same number and the
entry has the right connection type. -/
theorem changeEntry_exact_iff (lossless : Lossless jsonGetInt) {entry : DeviceEntry}
    (own : entry.devId = data.devId) :
    storedEntry jsonGetInt (changeEntry data entry) = stored data ↔
      data.devType = data.deviceConnectionType.toUInt32 ∧
        loadedConnectionType jsonGetInt entry = data.deviceConnectionType := by
  rw [storedEntry_changed lossless, stored, StoredDevice.mk.injEq]
  constructor
  · rintro ⟨-, -, types, connection⟩
    exact ⟨types.symm, connection⟩
  · rintro ⟨types, connection⟩
    exact ⟨own, rfl, types.symm, connection⟩

/-- After a device has been saved and the file loaded, every entry of the device has its key. -/
theorem key_saved (newDevInfo : Nat → DevInfo) {devInfo : DevInfo}
    (known : devInfo ∈
      loadInServerSettings jsonGetInt newDevInfo (saveDevInfoToConfigFile true file data) [])
    (own : devInfo.devId = data.devId) : devInfo.key = data.key := by
  have member : stored devInfo ∈
      (saveDevInfoToConfigFile true file data).entries.map (storedEntry jsonGetInt) := by
    rw [← loaded_stored jsonGetInt newDevInfo]
    exact List.mem_map_of_mem known
  rw [entries_saved] at member
  obtain ⟨entry, inside, same⟩ := List.mem_map.mp member
  have sameKey : entry.encryptionKey = devInfo.key := congrArg StoredDevice.key same
  have sameId : entry.devId = devInfo.devId := congrArg StoredDevice.devId same
  rw [← sameKey]
  by_cases present : data.devId ∈ file.entries.map DeviceEntry.devId
  · rw [reviseOrAppend_present present] at inside
    obtain ⟨before, -, revised⟩ := List.mem_map.mp inside
    split at revised
    · rw [← revised]
      rfl
    · rename_i other
      rw [← revised] at sameId
      exact absurd (sameId.trans own) other
  · rw [reviseOrAppend_absent present] at inside
    rcases List.mem_append.mp inside with old | new
    · exact absurd (List.mem_map.mpr ⟨entry, old, sameId.trans own⟩) present
    · rw [List.mem_singleton.mp new]
      rfl

/-- Saving a device and loading the file gives the old devices with the saved one in its place
exactly where the device is new to the file, or its two types are the same number and its entry
has the right connection type. -/
theorem save_upserts_iff (lossless : Lossless jsonGetInt) (file : DeviceFile) (data : DevInfo)
    (before after : Nat → DevInfo) :
    (loadInServerSettings jsonGetInt after (saveDevInfoToConfigFile true file data) []).map
          stored =
        upsert StoredDevice.devId (stored data)
          ((loadInServerSettings jsonGetInt before file []).map stored) ↔
      ∀ entry ∈ file.entries, entry.devId = data.devId →
        data.devType = data.deviceConnectionType.toUInt32 ∧
          loadedConnectionType jsonGetInt entry = data.deviceConnectionType := by
  have sameKey : ∀ entry, (storedEntry jsonGetInt entry).devId = entry.devId := fun _ => rfl
  rw [loaded_stored, loaded_stored, entries_saved, upsert, ← storedEntry_new lossless data,
    sameKey]
  refine (map_reviseOrAppend_iff sameKey).trans ?_
  constructor
  · intro same entry inside own
    have revised := same entry inside own
    rw [storedEntry_new lossless] at revised
    exact (changeEntry_exact_iff lossless own).mp revised
  · intro agrees entry inside own
    rw [storedEntry_new lossless]
    exact (changeEntry_exact_iff lossless own).mpr (agrees entry inside own)

end File

/-! ### A lock that is saved again -/

/-- `json_object_get_int` as it is documented: a value that is no `int` is given as the nearest
one. -/
def nearestInt (value : Int) : Int := max (-2147483648) (min value 2147483647)

/-- Reading the nearest integer loses no number that a device has. -/
theorem nearestInt_lossless : Lossless nearestInt := by
  intro value low high
  unfold nearestInt
  omega

/-- A lock: its type is not its kind of connection. -/
def lock (byte : UInt8) : DevInfo :=
  { (default : DevInfo) with
    key := Block.fill keyLen byte
    devType := 2
    deviceConnectionType := 1 }

/-- A device whose type and kind of connection are the same number. -/
def wiredDevice (byte : UInt8) : DevInfo := { lock byte with devType := 1 }

/-- The file after a device has been saved for the first time. -/
def savedOnce (devInfo : DevInfo) : DeviceFile :=
  saveDevInfoToConfigFile true { deviceInfos := none } devInfo

/-- Saved with another key, a device with equal types is loaded with that key. -/
theorem wiredDevice_upserted :
    (loadInServerSettings nearestInt (fun _ => default)
        (saveDevInfoToConfigFile true (savedOnce (wiredDevice 1)) (wiredDevice 3)) []).map stored =
      upsert StoredDevice.devId (stored (wiredDevice 3))
        ((loadInServerSettings nearestInt (fun _ => default) (savedOnce (wiredDevice 1)) []).map
          stored) :=
  (save_upserts_iff nearestInt_lossless (savedOnce (wiredDevice 1)) (wiredDevice 3) _ _).mpr
    (by decide)

/-- Saved with another key, the lock is loaded with the type 1 instead of 2. -/
theorem lock_not_upserted :
    (loadInServerSettings nearestInt (fun _ => default)
        (saveDevInfoToConfigFile true (savedOnce (lock 1)) (lock 3)) []).map stored =
          [{ stored (lock 3) with devType := 1 }] ∧
      ¬ (loadInServerSettings nearestInt (fun _ => default)
          (saveDevInfoToConfigFile true (savedOnce (lock 1)) (lock 3)) []).map stored =
        upsert StoredDevice.devId (stored (lock 3))
          ((loadInServerSettings nearestInt (fun _ => default) (savedOnce (lock 1)) []).map
            stored) := by
  constructor
  · decide +kernel
  · decide +kernel

end RentMate.DeviceConfigFile
