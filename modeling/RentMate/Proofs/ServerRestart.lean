/-
Module: RentMate.Proofs.ServerRestart
Purpose: What a server that is started anew after any run loads from its config file: the devices
  it had loaded and those it has registered, with their keys, but for those that the file could not
  be opened for.
Trusted boundary: none
Main exports: Recorded, recorded_run, saveDevices_new, restarted_stored, restarted_keyed
-/
import RentMate.Proofs.DeviceConfigFile
import RentMate.Proofs.Registry

namespace RentMate.ServerRestart

open RentMate.Machine
open RentMate.PckData
open RentMate.MainServer
open RentMate.DeviceConfigFile
open RentMate.Registry
open RentMate.ServerSteps

/-- A device by its DEVID, with its key. -/
def keyed (devInfo : DevInfo) : Block devIdLen × Block keyLen := (devInfo.devId, devInfo.key)

/-- In memory are the devices that were loaded and those that have been given to the file. -/
def Recorded (loaded : List DevInfo) (server : ServerState) : Prop :=
  server.devInfos.map keyed = (loaded ++ server.savedDevices).map keyed

/-! ### The devices in memory -/

section Memory

variable {host : ByteOrder} {gcm : Gcm} {ecdh : Ecdh} {loaded : List DevInfo}

/-- A server that has only loaded its devices has nothing else in memory. -/
theorem recorded_loaded {server : ServerState} (unsaved : server.savedDevices = []) :
    Recorded server.devInfos server := by
  rw [Recorded, unsaved, List.append_nil]

/-- What a frame does for one device leaves every DEVID and every key. -/
theorem updatedFor_keyed {devId : Bytes} {before after : List DevInfo}
    (updated : UpdatedFor devId before after) : after.map keyed = before.map keyed := by
  induction updated with
  | nil => rfl
  | cons revised _ ih => rw [List.map_cons, List.map_cons, ih, keyed, keyed, revised.1, revised.2.1]

/-- A frame registers a device in memory and in the file, or it leaves both lists. -/
theorem recorded_frame {env : ServerEnv} {connInfo : ConnInfo} {server : ServerState}
    {msg : Block maxMsgLen} {result : ServerResult} (recorded : Recorded loaded server)
    (ran : processMsg host gcm ecdh env connInfo server msg = .ok result) :
    Recorded loaded result.server := by
  cases processMsg_cases ran with
  | ofUser => exact recorded
  | nameless => exact recorded
  | unknown _ _ _ registering =>
      obtain ⟨newDevInfo, -, appended, saved⟩ := (registerDevice_registered registering).registry
      unfold Recorded at recorded ⊢
      rw [appended, saved, List.map_append, recorded, ← List.map_append, List.append_assoc]
  | rejected => exact recorded
  | accepted _ _ registered _ _ acted =>
      have own := processDecrypted_acted (findDevInfo_devId registered) acted
      unfold Recorded at recorded ⊢
      rw [updatedFor_keyed own.registry, own.saved]
      exact recorded

/-- Over any run the lists stay in step. -/
theorem recorded_run {serving final : Serving} {events : List ServingEvent}
    (recorded : Recorded loaded serving.server)
    (ran : runFrom (serve host gcm ecdh) serving events = .ok final) :
    Recorded loaded final.server := by
  induction events generalizing serving with
  | nil =>
      obtain rfl := Except.ok.inj ran
      exact recorded
  | cons event events ih =>
      rw [runFrom_cons] at ran
      obtain ⟨next, stepped, ran⟩ := bind_eq_ok.mp ran
      refine ih ?_ ran
      cases event with
      | accepted newFd connType =>
          obtain rfl := Except.ok.inj stepped
          exact recorded
      | closed index =>
          obtain rfl := Except.ok.inj stepped
          exact recorded
      | queued devId command =>
          obtain rfl := Except.ok.inj stepped
          exact recorded
      | frame index env msg =>
          simp only [serve] at stepped
          split at stepped
          · obtain rfl := Except.ok.inj stepped
            exact recorded
          · obtain ⟨result, processed, stepped⟩ := bind_eq_ok.mp stepped
            obtain rfl := Except.ok.inj stepped
            exact recorded_frame recorded processed

end Memory

/-! ### The devices in the file -/

section File

variable {jsonGetInt : Int → Int} {file : DeviceFile}

/-- The devices that have been given to the file, whether it could be opened for them or not. -/
theorem map_saves {α : Type} {opens : List Bool} {devInfos : List DevInfo} (view : DevInfo → α)
    (counted : opens.length = devInfos.length) :
    (opens.zip devInfos).map (fun save => view save.2) = devInfos.map view := by
  calc (opens.zip devInfos).map (fun save => view save.2)
      = ((opens.zip devInfos).map Prod.snd).map view := (List.map_map ..).symm
    _ = devInfos.map view := by rw [List.map_snd_zip (le_of_eq counted.symm)]

/-- Devices that are new to the file are appended to it, one after the other, each if the file can
be opened for it. -/
theorem saveDevices_new {saves : List (Bool × DevInfo)}
    (distinct : (file.entries.map DeviceEntry.devId ++
      saves.map fun save => save.2.devId).Nodup) :
    (saveDevices file saves).entries =
      file.entries ++ (saves.filter Prod.fst).map fun save => newDataEntry save.2 := by
  induction saves generalizing file with
  | nil => rw [List.filter_nil, List.map_nil, List.append_nil]; rfl
  | cons save rest ih =>
      obtain ⟨opens, data⟩ := save
      cases opens with
      | false =>
          have fewer := distinct.sublist
            (List.Sublist.append_left (List.sublist_cons_self data.devId _) _)
          exact ih fewer
      | true =>
          have absent : data.devId ∉ file.entries.map DeviceEntry.devId := by
            intro inside
            exact (List.nodup_append.mp distinct).2.2 _ inside _ List.mem_cons_self rfl
          have appended : (saveDevInfoToConfigFile true file data).entries =
              file.entries ++ [newDataEntry data] := by
            rw [entries_saved, reviseOrAppend_absent absent]
          have distinctBehind : ((saveDevInfoToConfigFile true file data).entries.map
              DeviceEntry.devId ++ rest.map fun save => save.2.devId).Nodup := by
            rw [appended, List.map_append, List.append_assoc]
            exact distinct
          have behind := ih distinctBehind
          rw [appended, List.append_assoc] at behind
          exact behind

/-- After any run, a server that is started anew loads the devices of the start and those that
have been registered while the file could be opened. -/
theorem restarted_stored {host : ByteOrder} {gcm : Gcm} {ecdh : Ecdh}
    (lossless : Lossless jsonGetInt) (before after : Nat → DevInfo)
    (distinct : (file.entries.map DeviceEntry.devId).Nodup) {serving final : Serving}
    {events : List ServingEvent}
    (loaded : serving.server.devInfos = loadInServerSettings jsonGetInt before file [])
    (unsaved : serving.server.savedDevices = [])
    (ran : runFrom (serve host gcm ecdh) serving events = .ok final) {opens : List Bool}
    (counted : opens.length = final.server.savedDevices.length) :
    (loadInServerSettings jsonGetInt after
        (saveDevices file (opens.zip final.server.savedDevices)) []).map stored =
      serving.server.devInfos.map stored ++
        ((opens.zip final.server.savedDevices).filter Prod.fst).map fun save =>
          stored save.2 := by
  have fromFile : serving.server.devInfos.map stored =
      file.entries.map (storedEntry jsonGetInt) := by
    rw [loaded, loaded_stored]
  have known : serving.server.devInfos.map DevInfo.devId =
      file.entries.map DeviceEntry.devId := by
    have same := congrArg (List.map StoredDevice.devId) fromFile
    rw [List.map_map, List.map_map] at same
    exact same
  have recorded := recorded_run (recorded_loaded unsaved) ran
  have devIds : final.server.devInfos.map DevInfo.devId =
      file.entries.map DeviceEntry.devId ++ final.server.savedDevices.map DevInfo.devId := by
    have same := congrArg (List.map Prod.fst) recorded
    rw [List.map_map, List.map_map, List.map_append] at same
    rw [← known]
    exact same
  have stays : (final.server.devInfos.map DevInfo.devId).Nodup :=
    distinct_run (by rw [DistinctDevices, known]; exact distinct) ran
  rw [devIds, ← map_saves DevInfo.devId counted] at stays
  rw [loaded_stored, saveDevices_new stays, List.map_append, fromFile, List.map_map]
  congr 1
  exact List.map_congr_left fun save _ => storedEntry_new lossless save.2

/-- If the file could always be opened, a server that is started anew knows every device, under the
key that it had. -/
theorem restarted_keyed {host : ByteOrder} {gcm : Gcm} {ecdh : Ecdh}
    (lossless : Lossless jsonGetInt) (before after : Nat → DevInfo)
    (distinct : (file.entries.map DeviceEntry.devId).Nodup) {serving final : Serving}
    {events : List ServingEvent}
    (loaded : serving.server.devInfos = loadInServerSettings jsonGetInt before file [])
    (unsaved : serving.server.savedDevices = [])
    (ran : runFrom (serve host gcm ecdh) serving events = .ok final) {opens : List Bool}
    (counted : opens.length = final.server.savedDevices.length)
    (always : ∀ opened ∈ opens, opened = true) :
    (loadInServerSettings jsonGetInt after
        (saveDevices file (opens.zip final.server.savedDevices)) []).map keyed =
      final.server.devInfos.map keyed := by
  have restarted := restarted_stored lossless before after distinct loaded unsaved ran counted
  have recorded := recorded_run (recorded_loaded unsaved) ran
  have all : (opens.zip final.server.savedDevices).filter Prod.fst =
      opens.zip final.server.savedDevices := by
    refine List.filter_eq_self.mpr fun save inside => ?_
    exact always _ (List.of_mem_zip inside).1
  rw [all, map_saves stored counted, ← List.map_append] at restarted
  have same := congrArg (List.map fun device : StoredDevice => (device.devId, device.key)) restarted
  rw [List.map_map, List.map_map] at same
  rw [recorded]
  exact same

end File

end RentMate.ServerRestart
