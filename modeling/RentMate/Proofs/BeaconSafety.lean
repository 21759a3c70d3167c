/-
Module: RentMate.Proofs.BeaconSafety
Purpose: What a message does to the entries with their time stamps, and for which payloads
  `nodeToServerBeacon` stays inside its arguments and its arrays, and updates nothing but what a
  payload of the right shape reports.
Trusted boundary: none
Main exports: dispatchMessage_stamped, Reported, HandledSafely, BeaconFits, handledSafely_iff
-/
import RentMate.MainServer.Beacon
import RentMate.Proofs.DispatchSafety

namespace RentMate.BeaconSafety

open RentMate.Machine
open RentMate.PckData
open RentMate.MainServer

/-! ### The handler without the time stamps -/

section Projection

variable {devid : Bytes}

/-- A loop that changes an entry as another changes it without its time stamp. -/
theorem updateEntry_devInfos {update : StampedDevInfo → Checked StampedDevInfo}
    {set : DevInfo → Checked DevInfo}
    (agrees : ∀ devInfo, (update devInfo).map StampedDevInfo.toDevInfo = set devInfo.toDevInfo)
    (devInfos : List StampedDevInfo) :
    (updateEntry devid update devInfos).map (List.map StampedDevInfo.toDevInfo) =
      updateDevInfo devid set (devInfos.map StampedDevInfo.toDevInfo) := by
  induction devInfos with
  | nil => rfl
  | cons devInfoRef rest ih =>
      rw [List.map_cons, updateEntry, updateDevInfo]
      split
      · rw [← agrees]
        cases update devInfoRef with
        | error fault => rfl
        | ok updated => rfl
      · rw [← ih]
        cases updateEntry devid update rest with
        | error fault => rfl
        | ok updated => rfl

/-- But for the time stamps, a branch of the beacon changes the entry of the device. -/
theorem updateFound_devInfos (set : DevInfo → Checked DevInfo) (currentTime : Int)
    (devInfos : List StampedDevInfo) :
    (updateFound devid set currentTime devInfos).map (List.map StampedDevInfo.toDevInfo) =
      updateDevInfo devid set (devInfos.map StampedDevInfo.toDevInfo) := by
  refine updateEntry_devInfos (fun devInfo => ?_) devInfos
  cases set devInfo.toDevInfo <;> rfl

/-- But for the time stamps, the handler does what `nodeToServerBeacon` does. -/
theorem stampedNodeToServerBeacon_devInfos (devInfos : List StampedDevInfo) (devid : Bytes)
    (devtype : UInt8) (args : Bytes) (argsLen : UInt32) (password : Block 12)
    (currentTime : Int) :
    (stampedNodeToServerBeacon devInfos devid devtype args argsLen password currentTime).map
        (List.map StampedDevInfo.toDevInfo) =
      nodeToServerBeacon (devInfos.map StampedDevInfo.toDevInfo) devid devtype args argsLen
        password := by
  have bindMap : ∀ {α : Type} (first : Checked α)
      (next : α → Checked (List StampedDevInfo)),
      (first >>= next).map (List.map StampedDevInfo.toDevInfo) =
        first >>= fun value => (next value).map (List.map StampedDevInfo.toDevInfo) := by
    intro α first next
    cases first <;> rfl
  rw [stampedNodeToServerBeacon, nodeToServerBeacon, bindMap]
  refine bind_congr fun printed => ?_
  split
  · simp only [smartLockBeacon, readLockReport, bindMap, bind_assoc, pure_eq_ok, ok_bind,
      updateFound_devInfos]
    rfl
  · split
    · rw [bindMap, noiseMonitorBeacon]
      exact bind_congr fun noiseLevel => updateFound_devInfos _ currentTime devInfos
    · rfl

/-- But for the time stamps, every handler does what it does without them. -/
theorem stampedServerCommand_devInfos (devInfos : List StampedDevInfo) (call : ServerCall)
    (password : Block 12) (currentTime : Int) :
    (stampedServerCommand devInfos call password currentTime).map
        (List.map StampedDevInfo.toDevInfo) =
      runServerCommand (devInfos.map StampedDevInfo.toDevInfo) call password := by
  rw [stampedServerCommand, runServerCommand]
  cases call.command with
  | nodeToServerBeacon => exact stampedNodeToServerBeacon_devInfos ..
  | nodeToServerMessage => cases nodeToServerMessage call.args call.argsLen <;> rfl

end Projection

/-! ### The entries of other devices -/

section Others

variable {devid : Bytes} {devInfos changed : List StampedDevInfo} {other : StampedDevInfo}
  {index : Nat} {call : ServerCall} {password : Block 12} {currentTime : Int}

/-- A loop that changes the entry of a device leaves the others, time stamps included. -/
theorem updateEntry_others {update : StampedDevInfo → Checked StampedDevInfo}
    (ran : updateEntry devid update devInfos = .ok changed)
    (known : devInfos[index]? = some other) (foreign : other.devId.bytes ≠ devid) :
    changed[index]? = some other := by
  induction devInfos generalizing changed index with
  | nil => cases known
  | cons devInfoRef rest ih =>
      rw [updateEntry] at ran
      split at ran
      · rename_i own
        obtain ⟨updated, -, ran⟩ := bind_eq_ok.mp ran
        obtain rfl := Except.ok.inj ran
        cases index with
        | zero =>
            obtain rfl : devInfoRef = other := Option.some.inj known
            exact absurd own foreign
        | succ index => exact known
      · obtain ⟨behind, ranBehind, ran⟩ := bind_eq_ok.mp ran
        obtain rfl := Except.ok.inj ran
        cases index with
        | zero => exact known
        | succ index =>
            have kept : behind[index]? = some other := ih ranBehind known
            exact kept

/-- A handler leaves the entries of other devices, time stamps included. -/
theorem stampedServerCommand_others
    (ran : stampedServerCommand devInfos call password currentTime = .ok changed)
    (known : devInfos[index]? = some other) (foreign : other.devId.bytes ≠ call.devId) :
    changed[index]? = some other := by
  rw [stampedServerCommand] at ran
  cases command : call.command with
  | nodeToServerBeacon =>
      rw [command] at ran
      obtain ⟨printed, -, ran⟩ := bind_eq_ok.mp ran
      split at ran
      · obtain ⟨report, -, ran⟩ := bind_eq_ok.mp ran
        exact updateEntry_others ran known foreign
      · split at ran
        · obtain ⟨noiseLevel, -, ran⟩ := bind_eq_ok.mp ran
          exact updateEntry_others ran known foreign
        · obtain rfl := Except.ok.inj ran
          exact known
  | nodeToServerMessage =>
      rw [command] at ran
      obtain ⟨printed, -, ran⟩ := bind_eq_ok.mp ran
      obtain rfl := Except.ok.inj ran
      exact known

/-- A dispatch on the entries without their time stamps is one on the entries with them, which
leaves the entries of other devices as they are. -/
theorem dispatchMessage_stamped {host : ByteOrder} {env : ServerEnv} {connInfo : ConnInfo}
    {server : ServerState} {msg : Block maxMsgLen} {encryptedPckDataPtr : Nat}
    {result : ServerResult} (currentTime : Int)
    (ran : dispatchMessage host env connInfo server msg encryptedPckDataPtr devid = .ok result)
    (stamped : devInfos.map StampedDevInfo.toDevInfo = server.devInfos) :
    ∃ devtype call changed, result.called = some call ∧ call.devId = devid ∧
      stampedMessage devInfos devtype call env.password currentTime = .ok changed ∧
      changed.map StampedDevInfo.toDevInfo = result.server.devInfos ∧
      ∀ (index : Nat) (other : StampedDevInfo), devInfos[index]? = some other →
        other.devId.bytes ≠ devid → changed[index]? = some other := by
  obtain ⟨devtype, call, typed, handled, updated, rfl, ranCommand, rfl⟩ :=
    ServerSteps.dispatchMessage_cases ran
  have typing : (updateEntry call.devId
      (fun devInfoRef =>
        .ok { devInfoRef with toDevInfo := { devInfoRef.toDevInfo with devType := devtype } })
      devInfos).map (List.map StampedDevInfo.toDevInfo) = .ok typed := by
    rw [← updated, ← stamped]
    exact updateEntry_devInfos (fun devInfo => rfl) devInfos
  obtain ⟨stampedTyped, ranTyped, rfl⟩ := map_eq_ok.mp typing
  have handling := stampedServerCommand_devInfos stampedTyped call env.password currentTime
  rw [ranCommand] at handling
  obtain ⟨changed, ranHandler, same⟩ := map_eq_ok.mp handling
  refine ⟨devtype, call, changed, rfl, rfl, ?_, same, ?_⟩
  · rw [stampedMessage, ranTyped, ok_bind]
    exact ranHandler
  · intro index other known foreign
    exact stampedServerCommand_others ranHandler (updateEntry_others ranTyped known foreign)
      foreign

end Others

/-! ### The promise -/

/-- What a payload of the right shape reports about a device of this type. -/
inductive Reported (args : Bytes) (found : StampedDevInfo) : UInt8 → StampedDevInfo → Prop
  | lock {lockState doorState passwordLen : UInt8} {digits : Bytes} {password : Block 12}
      (shape : args = [lockState, doorState, passwordLen] ++ digits)
      (counted : passwordLen.toNat = digits.length) (short : digits.length ≤ 12)
      (copied : password.bytes = digits ++ found.password.bytes.drop digits.length) :
      Reported args found 2
        { found with
          lockState := lockState
          doorState := doorState
          passwordLen := passwordLen
          password := password }
  | noise {noiseLevel : UInt8} {rest : Bytes} (shape : args = noiseLevel :: rest) :
      Reported args found 5 { found with noiseLevel := noiseLevel }

/-- The first entry of the device has been updated from a payload of the right shape. -/
def Updated (devid : Bytes) (devtype : UInt8) (args : Bytes) (currentTime : Int)
    (devInfos changed : List StampedDevInfo) : Prop :=
  ∃ front found behind updated, devInfos = front ++ found :: behind ∧
    (∀ other ∈ front, other.devId.bytes ≠ devid) ∧ found.devId.bytes = devid ∧
    Reported args found devtype updated ∧
    changed = front ++ updateDeviceStatus currentTime updated :: behind

/-- Whatever the array of the password holds and whatever time it is, no access leaves the
arguments, the array or the entry, and no entry is changed unless one is updated from a payload of
the right shape. -/
def HandledSafely (devInfos : List StampedDevInfo) (devid : Bytes) (devtype : UInt8)
    (args : Bytes) (argsLen : UInt32) : Prop :=
  ∀ (password : Block 12) (currentTime : Int), ∃ changed,
    stampedNodeToServerBeacon devInfos devid devtype args argsLen password currentTime =
        .ok changed ∧
      (changed = devInfos ∨ Updated devid devtype args currentTime devInfos changed)

/-! ### The condition -/

/-- The payload of a lock has its length byte, not more than twelve digits and all of them, and
nothing behind them unless the device is not known. The payload of a noise monitor is not empty. -/
structure BeaconFits (devInfos : List StampedDevInfo) (devid : Bytes) (devtype : UInt8)
    (args : Bytes) : Prop where
  lock : devtype = 2 → ∃ lockState doorState passwordLen digits more,
    args = [lockState, doorState, passwordLen] ++ (digits ++ more) ∧
      passwordLen.toNat = digits.length ∧ digits.length ≤ 12 ∧
      (more = [] ∨ ∀ devInfo ∈ devInfos, devInfo.devId.bytes ≠ devid)
  noise : devtype = 5 → args ≠ []

/-! ### The entry of the device -/

section Finding

variable {devid : Bytes} {set : DevInfo → Checked DevInfo} {currentTime : Int}
  {devInfos front behind changed : List StampedDevInfo} {found : StampedDevInfo}

/-- A device is not known, or it has a first entry. -/
theorem absent_or_first (devid : Bytes) (devInfos : List StampedDevInfo) :
    (∀ devInfo ∈ devInfos, devInfo.devId.bytes ≠ devid) ∨
      ∃ front found behind, devInfos = front ++ found :: behind ∧
        (∀ other ∈ front, other.devId.bytes ≠ devid) ∧ found.devId.bytes = devid := by
  induction devInfos with
  | nil => exact .inl fun devInfo impossible => by cases impossible
  | cons devInfo rest ih =>
      by_cases same : devInfo.devId.bytes = devid
      · exact .inr ⟨[], devInfo, rest, rfl, fun other impossible => (by cases impossible), same⟩
      · rcases ih with absent | ⟨front, found, behind, rfl, before, named⟩
        · left
          intro other inside
          rcases List.mem_cons.mp inside with rfl | later
          · exact same
          · exact absent other later
        · refine .inr ⟨devInfo :: front, found, behind, rfl, ?_, named⟩
          intro other inside
          rcases List.mem_cons.mp inside with rfl | later
          · exact same
          · exact before other later

/-- Nothing is changed for a device that is not known. -/
theorem updateFound_absent (absent : ∀ devInfo ∈ devInfos, devInfo.devId.bytes ≠ devid) :
    updateFound devid set currentTime devInfos = .ok devInfos := by
  rw [updateFound]
  induction devInfos with
  | nil => rfl
  | cons devInfo rest ih =>
      obtain ⟨other, later⟩ := List.forall_mem_cons.mp absent
      rw [updateEntry, if_neg other, ih later]
      rfl

/-- The first entry of a device is changed and stamped. -/
theorem updateFound_first (before : ∀ other ∈ front, other.devId.bytes ≠ devid)
    (named : found.devId.bytes = devid) :
    updateFound devid set currentTime (front ++ found :: behind) =
      (set found.toDevInfo).map fun updated =>
        front ++ updateDeviceStatus currentTime { found with toDevInfo := updated } :: behind := by
  rw [updateFound]
  induction front with
  | nil =>
      rw [List.nil_append, updateEntry, if_pos named]
      cases set found.toDevInfo <;> rfl
  | cons devInfo rest ih =>
      obtain ⟨other, later⟩ := List.forall_mem_cons.mp before
      rw [List.cons_append, updateEntry, if_neg other, ih later]
      cases set found.toDevInfo <;> rfl

end Finding

/-! ### Reading a payload -/

section Reading

variable {devInfos changed : List StampedDevInfo} {devid args digits more : Bytes}
  {devtype lockState doorState passwordLen : UInt8} {argsLen : UInt32} {password : Block 12}
  {currentTime : Int}

/-- The copies from a payload that has all its digits. -/
theorem readLockReport_ok (lockState doorState : UInt8) (more : Bytes) (password : Block 12)
    (counted : passwordLen.toNat = digits.length) (short : digits.length ≤ 12) :
    ∃ written : Block 12,
      readLockReport ([lockState, doorState, passwordLen] ++ (digits ++ more)) password =
          .ok
            { lockStatus := lockState
              doorStatus := doorState
              passwordLen := passwordLen
              password := written } ∧
        written.bytes = digits ++ password.bytes.drop digits.length := by
  have size : ([lockState, doorState, passwordLen] ++ (digits ++ more)).length =
      3 + (digits ++ more).length := by
    rw [List.length_append]
    rfl
  have readLock : readBytes ([lockState, doorState, passwordLen] ++ (digits ++ more)) 0 1 =
      .ok [lockState] := readBytes_ok (by omega)
  have readDoor : readBytes ([lockState, doorState, passwordLen] ++ (digits ++ more)) 1 1 =
      .ok [doorState] := readBytes_ok (by omega)
  have readLength : readBytes ([lockState, doorState, passwordLen] ++ (digits ++ more)) 2 1 =
      .ok [passwordLen] := readBytes_ok (by omega)
  have readDigits : readBytes ([lockState, doorState, passwordLen] ++ (digits ++ more)) 3
      passwordLen.toNat = .ok digits := readBytes_append rfl counted.symm
  obtain ⟨written, wrote, filled⟩ := password.write_front short
  refine ⟨written, ?_, filled⟩
  simp only [readLockReport, readLock, readDoor, readLength, ok_bind, List.getD_cons_zero,
    readDigits, wrote, pure_eq_ok]

/-- The fields that are set from a report whose array begins with the digits. -/
theorem setLockFields_ok (lockState doorState : UInt8) (devInfo : DevInfo) {rest : Bytes}
    (content : password.bytes = digits ++ rest) (counted : passwordLen.toNat = digits.length)
    (short : digits.length ≤ 12) :
    ∃ stored : Block 12,
      setLockFields
          { lockStatus := lockState
            doorStatus := doorState
            passwordLen := passwordLen
            password := password } devInfo =
          .ok
            { devInfo with
              lockState := lockState
              doorState := doorState
              passwordLen := passwordLen
              password := stored } ∧
        stored.bytes = digits ++ devInfo.password.bytes.drop digits.length := by
  have start : password.bytes = [] ++ (digits ++ rest) := content
  have copied := password.read_append 0 passwordLen.toNat start rfl counted.symm
  obtain ⟨stored, wrote, filled⟩ := devInfo.password.write_front short
  refine ⟨stored, ?_, filled⟩
  simp only [setLockFields, copied, ok_bind, wrote, pure_eq_ok]

/-- A lock's payload that has been handled had all its digits, not more than twelve. -/
theorem lock_bounds
    (ran : stampedNodeToServerBeacon devInfos devid 2 args argsLen password currentTime =
      .ok changed) :
    ∃ lockState doorState passwordLen digits more,
      args = [lockState, doorState, passwordLen] ++ (digits ++ more) ∧
        passwordLen.toNat = digits.length ∧ digits.length ≤ 12 := by
  have projected := stampedNodeToServerBeacon_devInfos devInfos devid 2 args argsLen password
    currentTime
  rw [ran, nodeToServerBeacon] at projected
  obtain ⟨printed, -, handled⟩ := bind_eq_ok.mp projected.symm
  rw [if_pos rfl] at handled
  obtain ⟨lockState, doorState, passwordLen, rest, rfl, present, short⟩ :=
    DispatchSafety.smartLockBeacon_sufficient handled
  have count : (rest.take passwordLen.toNat).length = passwordLen.toNat := by
    rw [List.length_take]
    omega
  refine ⟨lockState, doorState, passwordLen, rest.take passwordLen.toNat,
    rest.drop passwordLen.toNat, ?_, count.symm, by omega⟩
  rw [List.take_append_drop]

end Reading

/-! ### Exactly the payloads that fit -/

section Exactness

variable {devInfos : List StampedDevInfo} {devid args : Bytes} {devtype : UInt8}
  {argsLen : UInt32}

/-- A lock's payload that is handled safely ends behind its digits, or its device is not known. -/
theorem lock_fits (safe : HandledSafely devInfos devid 2 args argsLen) :
    ∃ lockState doorState passwordLen digits more,
      args = [lockState, doorState, passwordLen] ++ (digits ++ more) ∧
        passwordLen.toNat = digits.length ∧ digits.length ≤ 12 ∧
        (more = [] ∨ ∀ devInfo ∈ devInfos, devInfo.devId.bytes ≠ devid) := by
  obtain ⟨changed, ran, -⟩ := safe default 0
  obtain ⟨lockState, doorState, passwordLen, digits, more, shape, counted, short⟩ :=
    lock_bounds ran
  refine ⟨lockState, doorState, passwordLen, digits, more, shape, counted, short, ?_⟩
  rcases absent_or_first devid devInfos with absent | ⟨front, found, behind, same, before, named⟩
  · exact .inr absent
  · left
    -- At another time than the entry has, a handler that returns changes the entry.
    obtain ⟨changed, ran, outcome⟩ := safe default (found.lastConnectionTime + 1)
    obtain ⟨printed, -, ran⟩ := bind_eq_ok.mp ran
    rw [if_pos rfl] at ran
    obtain ⟨report, -, ran⟩ := bind_eq_ok.mp ran
    rw [same, updateFound_first before named] at ran
    obtain ⟨updated, -, rfl⟩ := map_eq_ok.mp ran
    rcases outcome with unchanged | ⟨_, _, _, _, _, _, _, reported, _⟩
    · rw [same] at unchanged
      have entry := (List.cons.inj (List.append_cancel_left unchanged)).1
      have stamps := congrArg StampedDevInfo.lastConnectionTime entry
      simp only [updateDeviceStatus] at stamps
      omega
    · cases reported with
      | lock shapeAgain countedAgain _ _ =>
          rw [shape] at shapeAgain
          have heads := List.append_inj shapeAgain rfl
          obtain ⟨sameHead, sameRest⟩ := heads
          obtain rfl : passwordLen = _ := by simpa using (List.cons.inj (List.cons.inj
            (List.cons.inj sameHead).2).2).1
          have lengths := congrArg List.length sameRest
          rw [List.length_append] at lengths
          exact List.length_eq_zero_iff.mp (by omega)

/-- A lock's payload that fits is handled safely. -/
theorem lock_safe {lockState doorState passwordLen : UInt8} {digits more : Bytes}
    (shape : args = [lockState, doorState, passwordLen] ++ (digits ++ more))
    (counted : passwordLen.toNat = digits.length) (short : digits.length ≤ 12)
    (ended : more = [] ∨ ∀ devInfo ∈ devInfos, devInfo.devId.bytes ≠ devid)
    (whole : argsLen.toNat = args.length) : HandledSafely devInfos devid 2 args argsLen := by
  intro password currentTime
  have printed : readBytes args 0 argsLen.toNat = .ok (slice args 0 argsLen.toNat) :=
    readBytes_ok (by omega)
  obtain ⟨written, read, filled⟩ :=
    readLockReport_ok lockState doorState more password counted short
  rw [← shape] at read
  rcases absent_or_first devid devInfos with absent | ⟨front, found, behind, same, before, named⟩
  · refine ⟨devInfos, ?_, .inl rfl⟩
    simp only [stampedNodeToServerBeacon, printed, ok_bind, if_true, read,
      updateFound_absent absent]
  · obtain ⟨stored, set, copied⟩ :=
      setLockFields_ok lockState doorState found.toDevInfo filled counted short
    obtain rfl : more = [] := by
      refine ended.resolve_right fun absent => ?_
      exact absent found (by rw [same]; simp) named
    rw [List.append_nil] at shape
    refine ⟨_, ?_, .inr ⟨front, found, behind, _, same, before, named,
      .lock shape counted short copied, rfl⟩⟩
    simp only [stampedNodeToServerBeacon, printed, ok_bind, if_true, read]
    rw [same, updateFound_first before named, set]
    rfl

/-- A noise monitor's payload that is not empty is handled safely. -/
theorem noise_safe (begun : args ≠ []) (whole : argsLen.toNat = args.length) :
    HandledSafely devInfos devid 5 args argsLen := by
  intro password currentTime
  obtain ⟨noiseLevel, rest, rfl⟩ := List.exists_cons_of_ne_nil begun
  have printed : readBytes (noiseLevel :: rest) 0 argsLen.toNat =
      .ok (slice (noiseLevel :: rest) 0 argsLen.toNat) := readBytes_ok (by omega)
  have read : readBytes (noiseLevel :: rest) 0 1 = .ok [noiseLevel] :=
    readBytes_ok (by rw [List.length_cons]; omega)
  have other : ¬ (5 : UInt8) = 2 := by decide
  rcases absent_or_first devid devInfos with absent | ⟨front, found, behind, rfl, before, named⟩
  · refine ⟨devInfos, ?_, .inl rfl⟩
    simp only [stampedNodeToServerBeacon, printed, ok_bind, if_neg other, if_true, read,
      updateFound_absent absent]
  · refine ⟨_, ?_, .inr ⟨front, found, behind, _, rfl, before, named, .noise rfl, rfl⟩⟩
    simp only [stampedNodeToServerBeacon, printed, ok_bind, if_neg other, if_true, read,
      updateFound_first before named]
    rfl

/-- The beacon of a device is handled safely exactly if its payload fits. -/
theorem handledSafely_iff (devInfos : List StampedDevInfo) (devid : Bytes) (devtype : UInt8)
    (whole : argsLen.toNat = args.length) :
    HandledSafely devInfos devid devtype args argsLen ↔
      BeaconFits devInfos devid devtype args := by
  constructor
  · intro safe
    constructor
    · rintro rfl
      exact lock_fits safe
    · rintro rfl rfl
      obtain ⟨changed, ran, -⟩ := safe default 0
      have other : ¬ (5 : UInt8) = 2 := by decide
      obtain ⟨printed, -, ran⟩ := bind_eq_ok.mp ran
      rw [if_neg other, if_pos rfl] at ran
      obtain ⟨noiseLevel, read, -⟩ := bind_eq_ok.mp ran
      rcases (readBytes_eq_ok.mp read).1 with inside | none
      · cases inside
      · cases none
  · intro fits
    by_cases lock : devtype = 2
    · subst lock
      obtain ⟨lockState, doorState, passwordLen, digits, more, shape, counted, short, ended⟩ :=
        fits.lock rfl
      exact lock_safe shape counted short ended whole
    · by_cases noise : devtype = 5
      · subst noise
        exact noise_safe (fits.noise rfl) whole
      · intro password currentTime
        have printed : readBytes args 0 argsLen.toNat = .ok (slice args 0 argsLen.toNat) :=
          readBytes_ok (by omega)
        refine ⟨devInfos, ?_, .inl rfl⟩
        simp only [stampedNodeToServerBeacon, printed, ok_bind, if_neg lock, if_neg noise,
          pure_eq_ok]

end Exactness

/-- The entry of a device. -/
def sampleEntry : StampedDevInfo :=
  { (default : DevInfo) with
    devId := Block.fill devIdLen 1
    lastConnectionTime := 0 }

/-- The beacon of a closed lock with a passcode of four digits. -/
theorem passcode_handledSafely :
    HandledSafely [sampleEntry] (List.replicate devIdLen 1) 2 [1, 0, 4, 1, 2, 4, 4] 7 :=
  (handledSafely_iff [sampleEntry] (List.replicate devIdLen 1) 2 (by decide)).mpr
    { lock := fun _ => ⟨1, 0, 4, [1, 2, 4, 4], [], rfl, rfl, by decide, .inl rfl⟩
      noise := fun impossible => absurd impossible (by decide) }

/-- A length byte without the digits makes the handler read behind its arguments. -/
theorem missingDigits_overrun :
    (stampedNodeToServerBeacon [sampleEntry] (List.replicate devIdLen 1) 2 [0, 0, 20] 3 default
        0).map (fun _ => ()) = .error .outOfBounds ∧
      ¬ HandledSafely [sampleEntry] (List.replicate devIdLen 1) 2 [0, 0, 20] 3 := by
  have faults : (stampedNodeToServerBeacon [sampleEntry] (List.replicate devIdLen 1) 2 [0, 0, 20]
      3 default 0).map (fun _ => ()) = .error .outOfBounds := by
    decide +kernel
  refine ⟨faults, fun safe => ?_⟩
  obtain ⟨changed, ran, -⟩ := safe default 0
  rw [ran] at faults
  cases faults

end RentMate.BeaconSafety
