/-
Module: RentMate.Proofs.PasscodeReport
Purpose: A passcode on its way from the command that sets it to the report for the remote server:
  the digits of the lock, its beacon, the device on the server, and the string that is reported.
Trusted boundary: none
Main exports: changePasscode_ok, changePasscode_rejected, smartLockBeacon_told, passcodeStr_told,
  Reported, passcode_reported_iff
-/
import RentMate.NodeClient.SmartLock
import RentMate.MainServer.WebSocketThread
import RentMate.Proofs.NodeMessageDelivery

namespace RentMate.PasscodeReport

open RentMate.Machine
open RentMate.PckData
open RentMate.MainServer
open RentMate.NodeClient (LockState NodeCmdInfo maxPasswordLen isdigit convertDigits setPasscode
  changePasscode composeBeaconPacketCmdInfo composeSmartLockBeaconCmdInfo sendNodeMessage)
open RentMate.MessageCodec
open RentMate.SessionCodec
open RentMate.NodeMessageDelivery

/-! ### The command that changes the passcode -/

/-- The integers that letters are converted to. -/
def digitsOf (letters : Bytes) : Bytes := letters.map fun letter => letter - 48

/-- A string of digits that is no longer than a passcode may be. -/
structure Passcode (letters : Bytes) : Prop where
  digits : ∀ letter ∈ letters, isdigit letter = true
  short : letters.length ≤ maxPasswordLen

instance (letters : Bytes) : Decidable (Passcode letters) :=
  decidable_of_iff (letters.all isdigit = true ∧ letters.length ≤ maxPasswordLen)
    ⟨fun both => ⟨List.all_eq_true.mp both.1, both.2⟩,
      fun valid => ⟨List.all_eq_true.mpr valid.digits, valid.short⟩⟩

section Changing

variable {letters : Bytes} {lock : LockState}

/-- Every letter is read as one digit. -/
@[simp] theorem length_digitsOf (letters : Bytes) : (digitsOf letters).length = letters.length :=
  List.length_map _

/-- The length of a passcode fits its byte. -/
theorem toNat_passcodeLen {count : Nat} (short : count ≤ maxPasswordLen) :
    (UInt8.ofNat count).toNat = count := by
  have limit : maxPasswordLen = 12 := rfl
  rw [UInt8.toNat_ofNat']
  omega

/-- The loop writes the integers one behind the other. -/
theorem convertDigits_ok (passcodeTemp : Block maxPasswordLen) (i : Nat)
    (digits : ∀ letter ∈ letters, isdigit letter = true)
    (fits : i + letters.length ≤ maxPasswordLen) :
    ∃ passcode, convertDigits letters i passcodeTemp = .ok (some passcode) ∧
      passcode.bytes = splice passcodeTemp.bytes i (digitsOf letters) := by
  induction letters generalizing i passcodeTemp with
  | nil => exact ⟨passcodeTemp, rfl, (splice_nil _ _).symm⟩
  | cons letter rest ih =>
      rw [List.length_cons] at fits
      have digit : isdigit letter = true := digits letter List.mem_cons_self
      have behind : ∀ other ∈ rest, isdigit other = true := fun other member =>
        digits other (List.mem_cons_of_mem _ member)
      have one : [letter - 48].length = 1 := rfl
      obtain ⟨written, ranWrite, sameWrite⟩ := passcodeTemp.write_ok i [letter - 48] (by omega)
      obtain ⟨passcode, ranRest, sameRest⟩ :=
        ih written (i + 1) behind (by omega)
      refine ⟨passcode, ?_, ?_⟩
      · rw [convertDigits, if_neg (by rw [digit]; decide), ranWrite, ok_bind, ranRest]
      · rw [sameRest, sameWrite, ← one, splice_splice_behind (by
          rw [passcodeTemp.allocated]
          omega)]
        rfl

/-- A letter that is no digit ends the loop. -/
theorem convertDigits_none (passcodeTemp : Block maxPasswordLen) (i : Nat)
    (fits : i + letters.length ≤ maxPasswordLen)
    (other : ∃ letter ∈ letters, isdigit letter = false) :
    convertDigits letters i passcodeTemp = .ok none := by
  induction letters generalizing i passcodeTemp with
  | nil =>
      obtain ⟨letter, member, -⟩ := other
      cases member
  | cons letter rest ih =>
      rw [List.length_cons] at fits
      rw [convertDigits]
      split
      · rfl
      · rename_i digit
        obtain ⟨written, ranWrite, -⟩ := passcodeTemp.write_ok i [letter - 48] (by
          have one : [letter - 48].length = 1 := rfl
          omega)
        obtain ⟨found, member, notDigit⟩ := other
        rw [ranWrite, ok_bind]
        cases member with
        | head => exact absurd notDigit digit
        | tail _ behind => exact ih written (i + 1) (by omega) ⟨found, behind, notDigit⟩

variable {args : Bytes} {argsLen : UInt32} {passcode : Block maxPasswordLen} {digits rest : Bytes}

/-- `setPasscode` replaces the digits and leaves what lies behind them. -/
theorem setPasscode_ok (content : passcode.bytes = digits ++ rest)
    (short : digits.length ≤ maxPasswordLen)
    (room : maxPasswordLen ≤ lock.currentPasscode.length) :
    setPasscode lock passcode (UInt8.ofNat digits.length) =
      .ok
        { lock with
          currentPasscode := splice lock.currentPasscode 0 digits
          currentPasscodeLen := UInt8.ofNat digits.length } := by
  have length := toNat_passcodeLen short
  have start : passcode.bytes = [] ++ (digits ++ rest) := content
  have read : passcode.read 0 digits.length = .ok digits :=
    passcode.read_append 0 digits.length start rfl rfl
  have fits : 0 + digits.length ≤ lock.currentPasscode.length := by omega
  have printed : readBytes (splice lock.currentPasscode 0 digits) 0 digits.length =
      .ok (slice (splice lock.currentPasscode 0 digits) 0 digits.length) :=
    readBytes_ok (by rw [length_splice fits]; exact fits)
  simp only [setPasscode, length, read, writeBytes_ok fits, printed, ok_bind, pure_eq_ok]

/-- The lock with a new passcode. -/
def withPasscode (lock : LockState) (letters : Bytes) : LockState :=
  { lock with
    currentPasscode := splice lock.currentPasscode 0 (digitsOf letters)
    currentPasscodeLen := UInt8.ofNat letters.length }

/-- A passcode of digits is taken over. -/
theorem changePasscode_ok (passcodeTemp : Block maxPasswordLen) (valid : Passcode letters)
    (room : maxPasswordLen ≤ lock.currentPasscode.length) :
    changePasscode lock passcodeTemp letters (UInt32.ofNat letters.length) =
      .ok (0, withPasscode lock letters) := by
  have short := valid.short
  have limit : maxPasswordLen = 12 := rfl
  have length : (UInt32.ofNat letters.length).toNat = letters.length := by
    rw [UInt32.toNat_ofNat']
    omega
  have byte : (UInt32.ofNat letters.length).toUInt8 = UInt8.ofNat (digitsOf letters).length := by
    apply UInt8.toNat_inj.mp
    rw [length_digitsOf, UInt32.toNat_toUInt8, length, UInt8.toNat_ofNat']
  have read : readBytes letters 0 letters.length = .ok letters := by
    rw [readBytes_ok (by omega), slice_self]
  obtain ⟨passcode, ranLoop, content⟩ := convertDigits_ok passcodeTemp 0 valid.digits (by omega)
  have front : passcode.bytes =
      digitsOf letters ++ passcodeTemp.bytes.drop (0 + (digitsOf letters).length) := content
  have set := setPasscode_ok front (by rw [length_digitsOf]; exact short) room
  simp only [changePasscode, length, read, if_neg (Nat.not_lt.mpr short), ranLoop, byte, set,
    ok_bind, pure_eq_ok]
  rw [length_digitsOf]
  rfl

/-- Arguments that are too long, or no digits, leave the lock as it is. -/
theorem changePasscode_rejected (passcodeTemp : Block maxPasswordLen)
    (present : argsLen.toNat ≤ args.length)
    (invalid : ¬ Passcode (args.take argsLen.toNat)) :
    changePasscode lock passcodeTemp args argsLen = .ok (-1, lock) := by
  have read : readBytes args 0 argsLen.toNat = .ok (args.take argsLen.toNat) :=
    readBytes_ok (by omega)
  have length : (args.take argsLen.toNat).length = argsLen.toNat := by
    rw [List.length_take]
    omega
  rw [changePasscode, read, ok_bind]
  split
  · rfl
  · rename_i short
    have other : ∃ letter ∈ args.take argsLen.toNat, isdigit letter = false := by
      by_contra none
      apply invalid
      constructor
      · intro letter member
        by_contra notDigit
        exact none ⟨letter, member, Bool.not_eq_true _ ▸ notDigit⟩
      · omega
    rw [convertDigits_none passcodeTemp 0 (by omega) other, ok_bind]
    rfl

/-- A command sets the passcode if its arguments are one, and leaves the lock otherwise. -/
theorem changePasscode_eq (passcodeTemp : Block maxPasswordLen) (args : Block argsLen.toNat)
    (room : maxPasswordLen ≤ lock.currentPasscode.length) :
    changePasscode lock passcodeTemp args.bytes argsLen =
      .ok (if Passcode args.bytes then (0, withPasscode lock args.bytes) else (-1, lock)) := by
  have whole := args.allocated
  split
  · rename_i valid
    have counted : UInt32.ofNat args.bytes.length = argsLen := by
      rw [whole, UInt32.ofNat_toNat]
    have ran := changePasscode_ok passcodeTemp valid room
    rwa [counted] at ran
  · rename_i invalid
    have all : args.bytes.take argsLen.toNat = args.bytes :=
      List.take_of_length_le (Nat.le_of_eq whole)
    exact changePasscode_rejected passcodeTemp (Nat.le_of_eq whole.symm) (by rwa [all])

end Changing

/-! ### The beacon -/

section Beacon

variable {lock : LockState} {digits : Bytes}

/-- The arguments of a beacon. -/
def beaconArgs (lockState doorState : UInt8) (digits : Bytes) : Bytes :=
  [lockState, doorState, UInt8.ofNat digits.length] ++ digits

/-- The beacon of a lock. -/
def beaconOf (devId : Block devIdLen) (devType : UInt32) (lock : LockState) (digits : Bytes) :
    NodeCmdInfo :=
  { devId := devId
    devType := devType
    opcode := 0
    argsLen := UInt32.ofNat (3 + digits.length)
    args := beaconArgs lock.currentLockState lock.currentDoorState digits }

/-- A beacon has the two states, the length and the digits as its arguments. -/
@[simp] theorem length_beaconArgs (lockState doorState : UInt8) (digits : Bytes) :
    (beaconArgs lockState doorState digits).length = 3 + digits.length := by
  rw [beaconArgs, List.length_append]
  rfl

/-- The beacon that is composed from the lock's state. -/
theorem composeSmartLockBeaconCmdInfo_ok (devId : Block devIdLen) (devType : UInt32)
    (short : digits.length ≤ maxPasswordLen)
    (length : lock.currentPasscodeLen = UInt8.ofNat digits.length)
    (current : slice lock.currentPasscode 0 digits.length = digits)
    (room : maxPasswordLen ≤ lock.currentPasscode.length) :
    composeSmartLockBeaconCmdInfo devId devType lock = .ok (beaconOf devId devType lock digits) := by
  have limit : maxPasswordLen = 12 := rfl
  have count := toNat_passcodeLen short
  have read : readBytes lock.currentPasscode 0 digits.length = .ok digits := by
    rw [readBytes_ok (by omega), current]
  have total : (3 + UInt8.ofNat digits.length).toNat = 3 + digits.length := by
    rw [UInt8.toNat_add, count]
    have three : (3 : UInt8).toNat = 3 := rfl
    omega
  have whole : readBytes (beaconArgs lock.currentLockState lock.currentDoorState digits) 0
      (3 + digits.length) =
        .ok (beaconArgs lock.currentLockState lock.currentDoorState digits) := by
    rw [readBytes_ok (by rw [length_beaconArgs]; omega), ← length_beaconArgs, slice_self]
  rw [composeSmartLockBeaconCmdInfo, length, count, read, ok_bind,
    composeBeaconPacketCmdInfo, total]
  rw [← beaconArgs, whole]
  rfl

/-- The beacon that is composed once a passcode has been stored. -/
theorem composeSmartLockBeaconCmdInfo_withPasscode (devId : Block devIdLen) (devType : UInt32)
    {letters : Bytes} (short : letters.length ≤ maxPasswordLen)
    (room : maxPasswordLen ≤ lock.currentPasscode.length) :
    composeSmartLockBeaconCmdInfo devId devType (withPasscode lock letters) =
      .ok (beaconOf devId devType (withPasscode lock letters) (digitsOf letters)) := by
  have size : (digitsOf letters).length = letters.length := length_digitsOf letters
  refine composeSmartLockBeaconCmdInfo_ok devId devType (by rw [size]; exact short) ?_ ?_ ?_
  · rw [size]
    rfl
  · exact slice_splice (Nat.zero_le _)
  · have fits : 0 + (digitsOf letters).length ≤ lock.currentPasscode.length := by omega
    rw [withPasscode, length_splice fits]
    exact room

end Beacon

/-! ### The device on the server -/

/-- What a beacon told of a lock. -/
structure Told (lockState doorState : UInt8) (digits : Bytes) (devInfo : DevInfo) : Prop where
  lockState : devInfo.lockState = lockState
  doorState : devInfo.doorState = doorState
  passwordLen : devInfo.passwordLen.toNat = digits.length
  password : digits <+: devInfo.password.bytes

section Server

variable {lockState doorState : UInt8} {digits : Bytes} {devInfo : DevInfo}

/-- A beacon that has its digits behind it, no more of them than fit the array, sets the four
fields of its device. -/
theorem smartLockBeacon_told (devInfos : List DevInfo) (devId : Bytes)
    (lockState doorState passwordLen : UInt8) (password : Block 12)
    (present : passwordLen.toNat ≤ digits.length) (short : passwordLen.toNat ≤ 12) :
    ∃ changed,
      smartLockBeacon devInfos devId ([lockState, doorState, passwordLen] ++ digits) password =
          .ok changed ∧
        ∀ old, findDevInfo devInfos devId = some old →
          ∃ new, findDevInfo changed devId = some new ∧ new.devType = old.devType ∧
            Told lockState doorState (digits.take passwordLen.toNat) new := by
  have size : ([lockState, doorState, passwordLen] ++ digits).length = 3 + digits.length := by
    rw [List.length_append]
    rfl
  have count : (digits.take passwordLen.toNat).length = passwordLen.toNat := by
    rw [List.length_take]
    omega
  have few : (digits.take passwordLen.toNat).length ≤ 12 := by omega
  have readLock : readBytes ([lockState, doorState, passwordLen] ++ digits) 0 1 =
      .ok [lockState] := readBytes_ok (by omega)
  have readDoor : readBytes ([lockState, doorState, passwordLen] ++ digits) 1 1 =
      .ok [doorState] := readBytes_ok (by omega)
  have readLength : readBytes ([lockState, doorState, passwordLen] ++ digits) 2 1 =
      .ok [passwordLen] := readBytes_ok (by omega)
  have readDigits : readBytes ([lockState, doorState, passwordLen] ++ digits) 3
      passwordLen.toNat = .ok (digits.take passwordLen.toNat) := readBytes_ok (by omega)
  obtain ⟨local', ranLocal, sameLocal⟩ := password.write_front few
  have start : local'.bytes = [] ++ (digits.take passwordLen.toNat ++
      password.bytes.drop (digits.take passwordLen.toNat).length) := sameLocal
  have copied : local'.read 0 passwordLen.toNat = .ok (digits.take passwordLen.toNat) :=
    local'.read_append 0 passwordLen.toNat start rfl count
  have total : ∀ device : DevInfo, ∃ new, (do
      let copied ← local'.read 0 passwordLen.toNat
      let password ← device.password.write 0 copied
      pure
        { device with
          lockState := lockState
          doorState := doorState
          passwordLen := passwordLen
          password := password } : Checked DevInfo) = .ok new := by
    intro device
    obtain ⟨stored, ranStored, -⟩ := device.password.write_front few
    rw [copied, ok_bind, ranStored]
    exact ⟨_, rfl⟩
  obtain ⟨changed, ran⟩ := updateDevInfo_total devId total devInfos
  refine ⟨changed, ?_, fun old found => ?_⟩
  · simp only [smartLockBeacon, readLock, readDoor, readLength, ok_bind, List.getD_cons_zero,
      readDigits, ranLocal]
    exact ran
  · obtain ⟨new, updated, foundNew⟩ := findDevInfo_updated (by
      intro before after ranUpdate
      obtain ⟨_, -, ranUpdate⟩ := bind_eq_ok.mp ranUpdate
      obtain ⟨_, -, ranUpdate⟩ := bind_eq_ok.mp ranUpdate
      obtain rfl := Except.ok.inj ranUpdate
      rfl) ran found
    obtain ⟨stored, ranStored, sameStored⟩ := old.password.write_front few
    rw [copied, ok_bind, ranStored] at updated
    obtain rfl := Except.ok.inj updated
    exact
      ⟨_, foundNew, rfl,
        { lockState := rfl
          doorState := rfl
          passwordLen := count.symm
          password := ⟨_, sameStored.symm⟩ }⟩

/-! ### The report -/

/-- The string of a report repeats the first digit. -/
theorem passcodeStr_told {letters : Bytes}
    (told : Told lockState doorState (digitsOf letters) devInfo) :
    passcodeStr devInfo = .ok letters ↔
      letters.length < maxPasswordLen ∧ ∃ letter, letters = List.replicate letters.length letter := by
  have limit : maxPasswordLen = 12 := rfl
  have length := told.passwordLen
  rw [length_digitsOf] at length
  rw [passcodeStr, length]
  split
  · rename_i overrun
    constructor
    · rintro ⟨⟩
    · rintro ⟨short, -⟩
      exact absurd short (by omega)
  · rename_i fits
    rw [Except.ok.injEq]
    constructor
    · intro same
      exact ⟨by omega, _, same.symm⟩
    · rintro ⟨-, letter, same⟩
      cases letters with
      | nil => rfl
      | cons head rest =>
          obtain ⟨behind, content⟩ := told.password
          have first : devInfo.password.bytes.getD 0 0 = head - 48 := by
            rw [← content]
            rfl
          have own : head = letter := by
            rw [List.length_cons, List.replicate_succ] at same
            exact List.head_eq_of_cons_eq same
          rw [first, UInt8.sub_add_cancel, own]
          rw [own] at same
          exact same.symm

/-- The entry of a lock has the string as its password. -/
theorem deviceDataEntry_password (isLock : devInfo.devType = 2) (text : Bytes) :
    (∃ entry, deviceDataEntry devInfo = .ok entry ∧ entry.password = some text) ↔
      passcodeStr devInfo = .ok text := by
  constructor
  · rintro ⟨entry, ran, same⟩
    obtain ⟨password, ranPassword, ran⟩ := bind_eq_ok.mp ran
    obtain rfl := Except.ok.inj ran
    rw [if_pos isLock] at ranPassword
    obtain ⟨digits, ranDigits, ranPassword⟩ := bind_eq_ok.mp ranPassword
    obtain rfl := Except.ok.inj ranPassword
    rw [ranDigits, Option.some.inj same]
  · intro ran
    cases whole : deviceDataEntry devInfo with
    | error fault =>
        rw [deviceDataEntry, if_pos isLock, ran] at whole
        cases whole
    | ok entry =>
        rw [deviceDataEntry, if_pos isLock, ran] at whole
        obtain rfl := Except.ok.inj whole
        exact ⟨_, rfl, rfl⟩

end Server

/-! ### From the command to the report -/

/-- The lock takes the passcode, one beacon is sent, and wherever the server receives it
unmodified, its device is told what the lock is in, and the report has the passcode in it. -/
def Reported (nodeHost host : ByteOrder) (gcm : Gcm) (ecdh : Ecdh)
    (addMalloced encryptedMalloced : Block pckDataIncrements) (draw : Draw)
    (outBuf : Block maxMsgLen) (env : ServerEnv) (session : Session) (lock : LockState)
    (passcodeTemp : Block maxPasswordLen) (letters : Bytes) : Prop :=
  ∃ changed cmdInfo out sent,
    changePasscode lock passcodeTemp letters (UInt32.ofNat letters.length) = .ok (0, changed) ∧
      composeSmartLockBeaconCmdInfo session.devId 2 changed = .ok cmdInfo ∧
      sendNodeMessage nodeHost gcm addMalloced encryptedMalloced draw session.nodeConnInfo
          session.node cmdInfo outBuf =
        .ok
          { returnValue := 0
            connInfo := some (afterSend session.nodeConnInfo)
            outBuf := out
            sent := some sent } ∧
      sent.length ≤ maxMsgLen ∧
      ∀ msg : Block maxMsgLen, sent <+: msg.bytes →
        ∃ result devInfo entry,
          MainServer.processMsg host gcm ecdh env session.connInfo session.server msg = .ok result ∧
            result.called = some (intendedCall cmdInfo .nodeToServerBeacon) ∧
            findDevInfo result.server.devInfos session.devId.bytes = some devInfo ∧
            Told changed.currentLockState changed.currentDoorState (digitsOf letters) devInfo ∧
            deviceDataEntry devInfo = .ok entry ∧ entry.password = some letters

section Reporting

variable {nodeHost host : ByteOrder} {gcm : Gcm} {ecdh : Ecdh}
  {addMalloced encryptedMalloced : Block pckDataIncrements} {draw : Draw}
  {outBuf : Block maxMsgLen} {env : ServerEnv} {session : Session} {lock : LockState}
  {digits : Bytes}

/-- The beacon of a lock reaches the server, which sets the device by it. -/
theorem beacon_received (nodeHost host : ByteOrder) (gcm : Gcm) (ecdh : Ecdh)
    (addMalloced encryptedMalloced : Block pckDataIncrements) (draw : Draw)
    (outBuf : Block maxMsgLen) (env : ServerEnv) (session : Session) (lock : LockState)
    (short : digits.length ≤ maxPasswordLen) :
    ∃ out sent,
      sendNodeMessage nodeHost gcm addMalloced encryptedMalloced draw session.nodeConnInfo
          session.node (beaconOf session.devId 2 lock digits) outBuf =
        .ok
          { returnValue := 0
            connInfo := some (afterSend session.nodeConnInfo)
            outBuf := out
            sent := some sent } ∧
      sent.length ≤ maxMsgLen ∧
      ∀ msg : Block maxMsgLen, sent <+: msg.bytes →
        ∃ result devInfo,
          MainServer.processMsg host gcm ecdh env session.connInfo session.server msg = .ok result ∧
            result.called =
              some (intendedCall (beaconOf session.devId 2 lock digits) .nodeToServerBeacon) ∧
            findDevInfo result.server.devInfos session.devId.bytes = some devInfo ∧
            devInfo.devType = 2 ∧
            Told lock.currentLockState lock.currentDoorState digits devInfo := by
  have limit : maxPasswordLen = 12 := rfl
  have length : (UInt32.ofNat (3 + digits.length)).toNat = 3 + digits.length := by
    rw [UInt32.toNat_ofNat']
    omega
  have args : argsOf (beaconOf session.devId 2 lock digits) =
      beaconArgs lock.currentLockState lock.currentDoorState digits := by
    rw [argsOf, beaconOf, length, ← length_beaconArgs, List.take_length]
  have registered : findDevInfo session.server.devInfos
      (beaconOf session.devId 2 lock digits).devId.bytes = some session.devInfo :=
    session.registered
  have wellFormed : (beaconOf session.devId 2 lock digits).argsLen.toNat ≤
      (beaconOf session.devId 2 lock digits).args.length := by
    rw [beaconOf, length, length_beaconArgs]
  have small : messageLength (beaconOf session.devId 2 lock digits) ≤ maxMsgLen := by
    have sizes := layout
    have room : maxMsgLen = 255 ∧ devIdLen = 16 := ⟨rfl, rfl⟩
    rw [messageLength, beaconOf, length]
    omega
  have known : serverCommands (commandRow (beaconOf session.devId 2 lock digits))
      (beaconOf session.devId 2 lock digits).opcode = .ok .nodeToServerBeacon := rfl
  obtain ⟨out, sent, ran, fits, dispatched⟩ := nodeMessage_dispatched nodeHost host gcm ecdh
    addMalloced encryptedMalloced draw outBuf env session.connInfo registered session.sameKey
    session.onNode session.fromNode session.nonceTaken session.onServer wellFormed small known
  refine ⟨out, sent, ran, fits, fun msg held => ?_⟩
  obtain ⟨devInfos, buffer, set, whole⟩ := dispatched msg held
  obtain ⟨typed, ranType, foundTyped⟩ := findDevInfo_updated (by
    intro before after ranUpdate
    obtain rfl := Except.ok.inj ranUpdate
    rfl) set session.registered
  obtain rfl := Except.ok.inj ranType
  have count := toNat_passcodeLen short
  obtain ⟨changed, ranBeacon, tells⟩ := smartLockBeacon_told devInfos session.devId.bytes
    lock.currentLockState lock.currentDoorState (UInt8.ofNat digits.length) env.password
    (Nat.le_of_eq count) (by omega)
  obtain ⟨new, foundNew, sameType, told⟩ := tells _ foundTyped
  rw [count, List.take_length] at told
  have ranCommand : runServerCommand devInfos
      (intendedCall (beaconOf session.devId 2 lock digits) .nodeToServerBeacon) env.password =
        .ok changed := by
    have read : readBytes (beaconArgs lock.currentLockState lock.currentDoorState digits) 0
        (3 + digits.length) = .ok _ := readBytes_ok (by rw [length_beaconArgs]; omega)
    rw [runServerCommand, intendedCall, args]
    change nodeToServerBeacon devInfos session.devId.bytes 2
      (beaconArgs lock.currentLockState lock.currentDoorState digits)
      (UInt32.ofNat (3 + digits.length)) env.password = .ok changed
    rw [nodeToServerBeacon, length, read, ok_bind, if_pos rfl]
    exact ranBeacon
  rw [ranCommand, ok_bind] at whole
  exact ⟨_, new, whole, rfl, foundNew, sameType, told⟩

/-- A passcode that is reported as it is repeats one digit. -/
theorem Reported.repeats {letters : Bytes} {passcodeTemp : Block maxPasswordLen}
    (reported : Reported nodeHost host gcm ecdh addMalloced encryptedMalloced draw outBuf env
      session lock passcodeTemp letters)
    (valid : Passcode letters) (room : maxPasswordLen ≤ lock.currentPasscode.length) :
    letters.length < maxPasswordLen ∧
      ∃ letter, letters = List.replicate letters.length letter := by
  have short : (digitsOf letters).length ≤ maxPasswordLen := by
    rw [length_digitsOf]
    exact valid.short
  rcases reported with
    ⟨changed, cmdInfo, out, sent, ranChange, ranCompose, ranSend, fits, each⟩
  rcases each (.holding maxMsgLen sent) (Block.prefix_holding fits) with
    ⟨result, devInfo, entry, ranServer, -, found, told, ranEntry, same⟩
  rw [changePasscode_ok passcodeTemp valid room] at ranChange
  obtain rfl := (Prod.mk.inj (Except.ok.inj ranChange)).2
  rw [composeSmartLockBeaconCmdInfo_withPasscode session.devId 2 valid.short room] at ranCompose
  obtain rfl := Except.ok.inj ranCompose
  rcases beacon_received nodeHost host gcm ecdh addMalloced encryptedMalloced draw outBuf env
    session (withPasscode lock letters) short with ⟨out', sent', ranSend', -, received⟩
  rw [ranSend'] at ranSend
  obtain rfl : sent' = sent := Option.some.inj (SendResult.mk.inj (Except.ok.inj ranSend)).2.2.2
  rcases received (.holding maxMsgLen sent') (Block.prefix_holding fits) with
    ⟨result', devInfo', ranServer', -, found', isLock, -⟩
  rw [ranServer'] at ranServer
  obtain rfl := Except.ok.inj ranServer
  rw [found'] at found
  obtain rfl := Option.some.inj found
  apply (passcodeStr_told told).mp
  exact (deviceDataEntry_password isLock letters).mp ⟨entry, ranEntry, same⟩

/-- Of the passcodes of digits, the ones that are reported as they are have at most eleven of them,
and all the same. -/
theorem passcode_reported_iff {letters : Bytes} (nodeHost host : ByteOrder) (gcm : Gcm)
    (ecdh : Ecdh) (addMalloced encryptedMalloced : Block pckDataIncrements) (draw : Draw)
    (outBuf : Block maxMsgLen) (env : ServerEnv) (session : Session)
    (passcodeTemp : Block maxPasswordLen) (valid : Passcode letters)
    (room : maxPasswordLen ≤ lock.currentPasscode.length) :
    Reported nodeHost host gcm ecdh addMalloced encryptedMalloced draw outBuf env session lock
        passcodeTemp letters ↔
      letters.length < maxPasswordLen ∧
        ∃ letter, letters = List.replicate letters.length letter := by
  constructor
  · intro reported
    exact reported.repeats valid room
  · intro condition
    have short : (digitsOf letters).length ≤ maxPasswordLen := by
      rw [length_digitsOf]
      exact valid.short
    rcases beacon_received nodeHost host gcm ecdh addMalloced encryptedMalloced draw outBuf env
      session (withPasscode lock letters) short with ⟨out, sent, ran, fits, received⟩
    refine ⟨_, _, out, sent, changePasscode_ok passcodeTemp valid room,
      composeSmartLockBeaconCmdInfo_withPasscode session.devId 2 valid.short room, ran, fits, ?_⟩
    intro msg held
    rcases received msg held with ⟨result, devInfo, ranServer, called, found, isLock, told⟩
    rcases (deviceDataEntry_password isLock letters).mpr ((passcodeStr_told told).mpr condition)
      with ⟨entry, ranEntry, same⟩
    exact ⟨result, devInfo, entry, ranServer, called, found, told, ranEntry, same⟩

end Reporting

/-- The factory setting of a lock that is closed. -/
def factoryLock : LockState :=
  { currentLockState := 1
    currentDoorState := 0
    currentPasscode := [1, 2, 4, 4, 0, 0, 0, 0, 0, 0, 0, 0]
    currentPasscodeLen := 4 }

/-- AES-GCM under the zero key and the zero vector: its keystream, and its tags over the masked
beacons of the two passcodes below. -/
def beaconGcm : Gcm :=
  { keystream := fun _ _ index =>
      [3, 136, 218, 206, 96, 182, 163, 146, 243, 40, 194, 185, 113, 178, 254, 120, 247, 149, 170,
        171, 73, 75, 89, 35, 247, 253, 137, 255, 148, 139, 193, 224, 32, 2, 17, 33, 78, 115, 148,
        218, 32, 137, 182].getD index 0
    authenticate := fun _ _ _ cipher =>
      .holding tagLen
        (if cipher.getLast? = some 177 then
          [81, 47, 76, 223, 248, 53, 130, 127, 255, 166, 190, 101, 163, 206, 236, 67]
        else [132, 98, 121, 128, 95, 232, 88, 184, 210, 17, 200, 57, 203, 245, 147, 2]) }

/-- Four sevens are a passcode. -/
theorem passcode_repeated : Passcode (asciiBytes "7777") :=
  ⟨by decide +kernel, by decide +kernel⟩

/-- Four times the same digit is reported as it is. -/
theorem repeated_reported :
    Reported .little .little beaconGcm degenerateEcdh default default default default default
      sampleSession factoryLock default (asciiBytes "7777") :=
  (passcode_reported_iff .little .little beaconGcm degenerateEcdh default default default default
    default sampleSession default passcode_repeated (by decide)).mpr
      ⟨by decide +kernel, 55, by decide +kernel⟩

/-- What is reported of the lock of a session after the command. -/
def reportedPassword (gcm : Gcm) (session : Session) (lock : LockState) (letters : Bytes) :
    Checked (Option Bytes) := do
  let (_, lock) ← changePasscode lock default letters (UInt32.ofNat letters.length)
  let cmdInfo ← composeSmartLockBeaconCmdInfo session.devId 2 lock
  let result ← sendNodeMessage .little gcm default default default session.nodeConnInfo
    session.node cmdInfo (Block.fill maxMsgLen 0)
  let served ← MainServer.processMsg .little gcm degenerateEcdh default session.connInfo
    session.server (.holding maxMsgLen (result.sent.getD []))
  let entry ← deviceDataEntry
    ((findDevInfo served.server.devInfos session.devId.bytes).getD default)
  pure entry.password

/-- The passcode 1234 is reported as 1111. -/
theorem passcode_misreported :
    reportedPassword beaconGcm sampleSession factoryLock (asciiBytes "1234") =
        .ok (some (asciiBytes "1111")) ∧
      ¬ Reported .little .little beaconGcm degenerateEcdh default default default default default
        sampleSession factoryLock default (asciiBytes "1234") := by
  constructor
  · decide +kernel
  · intro reported
    have valid : Passcode (asciiBytes "1234") := ⟨by decide +kernel, by decide +kernel⟩
    obtain ⟨-, letter, same⟩ := reported.repeats valid (by decide)
    have letters : asciiBytes "1234" = [49, 50, 51, 52] := by decide +kernel
    rw [letters] at same
    obtain ⟨first, second⟩ : (49 : UInt8) = letter ∧ (50 : UInt8) = letter := by
      simp only [List.length_cons, List.length_nil, List.replicate, List.cons.injEq] at same
      exact ⟨same.1, same.2.1⟩
    rw [← first] at second
    cases second

/-- A passcode of twelve digits makes the report write behind its array. -/
example : reportedPassword beaconGcm sampleSession factoryLock (asciiBytes "777777777777") =
    .error .outOfBounds := by
  decide +kernel

end RentMate.PasscodeReport
