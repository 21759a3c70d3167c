/-
Module: RentMate.Proofs.Registry
Purpose: The list of devices over whole runs of the server: DEVIDs stay distinct, no entry is
  lost, keys stay, and a frame touches no entry but that of its own device.
Trusted boundary: none
Main exports: SameDevice, TouchesOnly, registry_invariant
-/
import RentMate.Machine.Run
import RentMate.MainServer.Serving
import RentMate.Proofs.ServerSteps
import RentMate.Proofs.RoundTrip
import Mathlib.Data.List.Nodup

namespace RentMate.Registry

open RentMate.Machine
open RentMate.PckData
open RentMate.MainServer
open RentMate.ServerSteps
open RentMate.MessageCodec
open RentMate.RoundTrip

variable {host : ByteOrder} {gcm : Gcm} {ecdh : Ecdh} {serving next final : Serving}
  {event : ServingEvent} {events : List ServingEvent}

/-- An entry is still that of the same device, with the same key. -/
def SameDevice (old new : DevInfo) : Prop := new.devId = old.devId ∧ new.key = old.key

/-- Devices are compared one after the other. -/
theorem SameDevice.trans {old new newer : DevInfo} (first : SameDevice old new)
    (second : SameDevice new newer) : SameDevice old newer :=
  ⟨second.1.trans first.1, second.2.trans first.2⟩

/-- At most one entry per DEVID. -/
def DistinctDevices (devInfos : List DevInfo) : Prop := (devInfos.map DevInfo.devId).Nodup

/-- An entry that the frame changes is that of the device that the frame names. -/
def TouchesOnly (host : ByteOrder) (before after : List DevInfo) : ServingEvent → Prop
  | .frame _ env msg =>
      Grows (fun old new => new ≠ old → ∃ identity left,
        Names host env msg identity left ∧ old.devId = identity.devIdFromMessage) before after
  | _ => after = before

/-- What one event does to the list of devices. -/
structure RegistryStep (host : ByteOrder) (event : ServingEvent) (before after : List DevInfo) :
    Prop where
  distinct : DistinctDevices before → DistinctDevices after
  stays : Grows SameDevice before after
  touches : TouchesOnly host before after event

/-! ### One frame -/

section Frame

variable {env : ServerEnv} {connInfo : ConnInfo} {server : ServerState} {msg left : Block maxMsgLen}
  {result : ServerResult} {identity : Identity} {index : Nat} {before after : List DevInfo}

/-- A step that changes no device is a step of the registry. -/
theorem RegistryStep.unchanged : RegistryStep host event before before := by
  constructor
  · exact id
  · exact .refl (fun _ => ⟨rfl, rfl⟩) before
  · cases event with
    | frame index env msg => exact .refl (fun _ differs => absurd rfl differs) before
    | accepted | closed | queued => rfl

/-- A new entry does not repeat a DEVID. -/
theorem distinct_append {newDevInfo : DevInfo} (distinct : DistinctDevices before)
    (unregistered : findDevInfo before newDevInfo.devId.bytes = none) :
    DistinctDevices (before ++ [newDevInfo]) := by
  rw [DistinctDevices, List.map_append, List.map_singleton, ← List.concat_eq_append]
  apply List.Nodup.concat _ distinct
  intro inside
  rcases List.mem_map.mp inside with ⟨devInfo, known, same⟩
  apply List.find?_eq_none.mp unregistered devInfo known
  simp [same]

/-- A registration is a step of the registry. -/
theorem registryStep_registered (index : Nat) (env : ServerEnv) (msg : Block maxMsgLen)
    (unregistered : findDevInfo server.devInfos identity.devIdFromMessage.bytes = none)
    (registered : Registered identity connInfo server result) :
    RegistryStep host (.frame index env msg) server.devInfos result.server.devInfos := by
  rcases registered.registry with ⟨newDevInfo, own, appended, -⟩
  rw [appended]
  constructor
  · intro distinct
    exact distinct_append distinct (by rwa [own])
  · exact .append (fun _ => ⟨rfl, rfl⟩) _ _
  · exact .append (fun _ differs => absurd rfl differs) _ _

/-- Acting for a device is a step of the registry. -/
theorem registryStep_acted (index : Nat) (names : Names host env msg identity left)
    (acted : Acted identity.devIdFromMessage.bytes connInfo server result) :
    RegistryStep host (.frame index env msg) server.devInfos result.server.devInfos := by
  have revisions := Grows.of_revised acted.registry
  constructor
  · intro distinct
    have sameIds : server.devInfos.map DevInfo.devId <+:
        result.server.devInfos.map DevInfo.devId :=
      revisions.map_prefix fun _ _ revised => revised.1
    have lengths := acted.registry.length_eq
    rw [DistinctDevices, ← sameIds.eq_of_length (by simp [lengths])]
    exact distinct
  · exact revisions.mono fun _ _ revised => ⟨revised.1, revised.2.1⟩
  · refine revisions.mono fun old new revised differs => ⟨identity, left, names, ?_⟩
    by_contra other
    exact differs (revised.2.2 fun same => other (Block.eq_of_bytes same))

/-- Every frame is a step of the registry. -/
theorem processMsg_registryStep (index : Nat)
    (ran : processMsg host gcm ecdh env connInfo server msg = .ok result) :
    RegistryStep host (.frame index env msg) server.devInfos result.server.devInfos := by
  cases processMsg_cases ran with
  | ofUser => exact .unchanged
  | nameless => exact .unchanged
  | unknown _ _ unregistered registering =>
      exact registryStep_registered index env msg unregistered
        (registerDevice_registered registering)
  | rejected => exact .unchanged
  | accepted _ names registered _ _ acted =>
      have own := processDecrypted_acted (findDevInfo_devId registered) acted
      have step := registryStep_acted index names own
      exact step

end Frame

/-! ### Runs -/

/-- Every event of the server is a step of the registry. -/
theorem serve_registryStep (ran : serve host gcm ecdh serving event = .ok next) :
    RegistryStep host event serving.server.devInfos next.server.devInfos := by
  cases event with
  | accepted newFd connType =>
      obtain rfl := Except.ok.inj ran
      exact .unchanged
  | closed index =>
      obtain rfl := Except.ok.inj ran
      exact .unchanged
  | queued devId command =>
      obtain rfl := Except.ok.inj ran
      exact .unchanged
  | frame index env msg =>
      simp only [serve] at ran
      split at ran
      · obtain rfl := Except.ok.inj ran
        exact .unchanged
      · obtain ⟨result, processed, ran⟩ := bind_eq_ok.mp ran
        obtain rfl := Except.ok.inj ran
        exact processMsg_registryStep index processed

/-- Over any run the DEVIDs stay distinct. -/
theorem distinct_run (distinct : DistinctDevices serving.server.devInfos)
    (ran : runFrom (serve host gcm ecdh) serving events = .ok final) :
    DistinctDevices final.server.devInfos := by
  induction events generalizing serving with
  | nil =>
      obtain rfl := Except.ok.inj ran
      exact distinct
  | cons event events ih =>
      rw [runFrom_cons] at ran
      obtain ⟨next, stepped, ran⟩ := bind_eq_ok.mp ran
      exact ih ((serve_registryStep stepped).distinct distinct) ran

/-- Over any run every entry stays, with its DEVID and its key. -/
theorem stays_run (ran : runFrom (serve host gcm ecdh) serving events = .ok final) :
    Grows SameDevice serving.server.devInfos final.server.devInfos := by
  induction events generalizing serving with
  | nil =>
      obtain rfl := Except.ok.inj ran
      exact .refl (fun _ => ⟨rfl, rfl⟩) _
  | cons event events ih =>
      rw [runFrom_cons] at ran
      obtain ⟨next, stepped, ran⟩ := bind_eq_ok.mp ran
      exact .trans SameDevice.trans (serve_registryStep stepped).stays (ih ran)

/-- Over any run the DEVIDs stay distinct and every entry stays, with its DEVID and its key; and
each frame on the way changes the entry of its own device only. -/
theorem registry_invariant (distinct : DistinctDevices serving.server.devInfos)
    (ran : runFrom (serve host gcm ecdh) serving events = .ok final) :
    DistinctDevices final.server.devInfos ∧
      Grows SameDevice serving.server.devInfos final.server.devInfos ∧
      Along (serve host gcm ecdh) serving (fun _ reached event => ∀ next,
        serve host gcm ecdh reached event = .ok next →
          RegistryStep host event reached.server.devInfos next.server.devInfos) events :=
  ⟨distinct_run distinct ran, stays_run ran,
    fun _ _ _ _ _ _ _ stepped => serve_registryStep stepped⟩

/-! ### Two key exchanges -/

/-- A frame of a key exchange whose public key is all zeros, from a device of sixteen equal
bytes. -/
def exchangeFrame (byte : UInt8) : Bytes :=
  message .big (List.replicate ivLen (0 : UInt8)) (List.replicate tagLen (0 : UInt8))
    ((containerOf [List.replicate eccPubKeySize (0 : UInt8)] (by decide)).bytes .big)
    (ByteOrder.big.encode 0 ++
      (containerOf [List.replicate devIdLen byte, [2], [1]] (by simp; decide)).bytes .big)
    (settingsBytes .big 0 0)

/-- The server without a device and with one connection of a node. -/
def emptyServing : Serving :=
  { connections := [acceptedConnInfo 7 0]
    server :=
      { devInfos := []
        savedDevices := []
        commandsQueue := []
        decryptedMsgBuffer := default
        sendProcessingBuffer := default }
    calls := []
    sent := [] }

/-- Two devices are registered, one after the other. -/
theorem registry_invariant_two_devices :
    ∃ final, runFrom (serve .little lengthTagged degenerateEcdh) emptyServing
        [.frame 0 default (.holding maxMsgLen (exchangeFrame 1)),
          .frame 0 default (.holding maxMsgLen (exchangeFrame 2))] = .ok final ∧
      final.server.devInfos.map (fun devInfo => devInfo.devId.bytes) =
        [List.replicate devIdLen 1, List.replicate devIdLen 2] ∧
      DistinctDevices final.server.devInfos := by
  have registered : (runFrom (serve .little lengthTagged degenerateEcdh) emptyServing
      [.frame 0 default (.holding maxMsgLen (exchangeFrame 1)),
        .frame 0 default (.holding maxMsgLen (exchangeFrame 2))]).map
          (fun final => final.server.devInfos.map (fun devInfo => devInfo.devId.bytes)) =
      .ok [List.replicate devIdLen (1 : UInt8), List.replicate devIdLen (2 : UInt8)] := by
    decide +kernel
  obtain ⟨final, ran, devIds⟩ := map_eq_ok.mp registered
  have distinct : DistinctDevices emptyServing.server.devInfos := List.nodup_nil
  exact ⟨final, ran, devIds, (registry_invariant distinct ran).1⟩

end RentMate.Registry
