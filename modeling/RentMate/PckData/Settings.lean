/-
Module: RentMate.PckData.Settings
Purpose: The file with the settings of the protocol: the loader that reads it, and the change of
  one setting in it.
Trusted boundary: human-reviewed spec
Main exports: scanLetter, loadSetting, initializeSettingsData, modifySetting
-/
import RentMate.Machine.CString

namespace RentMate.PckData

open RentMate.Machine

/-- The size of the array `temp` that lines are read into. -/
abbrev tempSize : Nat := 80

/-- The size that `fgets` is given for it. -/
abbrev lineSize : Nat := 60

/-- `passExchangeMethod`, the name. -/
def passExchangeMethod : Bytes := lettersOf "passExchangeMethod".toList

/-- `globalSettingsStruct`. -/
structure GlobalSettings where
  passExchangeMethod : Int
deriving Repr, DecidableEq

/-! ### Loading -/

/-- The variables of the scanner of a line. A pointer into the line is an offset, and means nothing
before its flag is set. -/
structure LineScan where
  settingName : Option Bytes
  settingValue : Option Bytes
  settingNameBegin : Nat
  settingsNamePassedFirstQuote : Bool
  settingNameComplete : Bool
  settingValueBegin : Nat
  settingValuePassedFirstQuote : Bool
  settingValueComplete : Bool
deriving DecidableEq

/-- Their values in front of a line. -/
def lineBegin : LineScan :=
  { settingName := none
    settingValue := none
    settingNameBegin := 0
    settingsNamePassedFirstQuote := false
    settingNameComplete := false
    settingValueBegin := 0
    settingValuePassedFirstQuote := false
    settingValueComplete := false }

/-- The copy of what lies between the quote at `begin` and the one at `i`, with a zero behind
it. -/
def copyQuoted (temp : Block tempSize) (memory : Memory) (begin i : Nat) : Checked Bytes :=
  match malloc (i - begin - 1) memory with
  | none => .error .nullPointer
  | some block => do
      let quoted ← temp.read (begin + 1) (i - begin - 1)
      let block ← writeBytes block 0 quoted
      writeBytes block (i - begin - 1) [0]

/-- One letter of a line. -/
def scanLetter (temp : Block tempSize) (memory : Memory) (i : Nat) (scan : LineScan) :
    Checked LineScan := do
  let letter ← temp.read i 1
  if letter = [34] ∧ scan.settingsNamePassedFirstQuote = true ∧
      scan.settingNameComplete = false then do
    let settingName ← copyQuoted temp memory scan.settingNameBegin i
    pure
      { scan with
        settingName := some settingName
        settingNameComplete := true }
  else if letter = [34] ∧ scan.settingsNamePassedFirstQuote = false ∧
      scan.settingNameComplete = false then
    pure
      { scan with
        settingNameBegin := i
        settingsNamePassedFirstQuote := true }
  else if letter = [34] ∧ scan.settingValuePassedFirstQuote = true ∧
      scan.settingNameComplete = true then do
    let settingValue ← copyQuoted temp memory scan.settingValueBegin i
    pure
      { scan with
        settingValue := some settingValue
        settingValueComplete := true }
  else if letter = [34] ∧ scan.settingValuePassedFirstQuote = false ∧
      scan.settingNameComplete = true then
    pure
      { scan with
        settingValueBegin := i
        settingValuePassedFirstQuote := true }
  else pure scan

/-- The loop over a line, from its letter `i` on, with as many letters left. -/
def scanLetters (temp : Block tempSize) (memory : Memory) :
    Nat → Nat → LineScan → Checked LineScan
  | 0, _, scan => pure scan
  | left + 1, i, scan => do
      let scan ← scanLetter temp memory i scan
      if scan.settingValueComplete = true then pure scan
      else scanLetters temp memory left (i + 1) scan

/-- A string that is passed on. It must not be `NULL`, neither for `printf` nor for `strcmp` and
`atoi`. -/
def given : Option Bytes → Checked Bytes
  | none => .error .nullPointer
  | some string => .ok (cString string)

/-- The settings, and the names and values of the lines that have been read. -/
structure Loaded where
  globalSettings : GlobalSettings
  seen : List (Bytes × Bytes)
deriving DecidableEq

/-- What the loader does with a line in `temp`. A name that compares as equal makes `strcmp` give
zero, and the setting is taken over where it gives something else. -/
def loadSetting (temp : Block tempSize) (memory : Memory) (loaded : Loaded) : Checked Loaded := do
  let scan ← scanLetters temp memory (strcspnNewline temp.bytes) 0 lineBegin
  let settingName ← given scan.settingName
  let settingValue ← given scan.settingValue
  let globalSettings ←
    if settingName ≠ passExchangeMethod then do
      let value ← atoi settingValue
      pure { passExchangeMethod := value }
    else pure loaded.globalSettings
  pure
    { globalSettings := globalSettings
      seen := loaded.seen ++ [(settingName, settingValue)] }

/-- The loop over the lines of the file. -/
def loadSettings (memory : Memory) : Nat → Bytes → Block tempSize → Loaded → Checked Loaded
  | 0, _, _, _ => .error .diverges
  | fuel + 1, settingsFile, temp, loaded =>
      match fgets lineSize settingsFile with
      | none => pure loaded
      | some (line, rest) => do
          let temp ← temp.write 0 (line ++ [0])
          let loaded ← loadSetting temp memory loaded
          loadSettings memory fuel rest temp loaded

/-- `initializeSettingsData`. There may be no file that can be opened. -/
def initializeSettingsData (settingsFile : Option Bytes) (temp : Block tempSize) (memory : Memory)
    (globalSettings : GlobalSettings) : Checked (Int × Loaded) :=
  let loaded : Loaded := { globalSettings := globalSettings, seen := [] }
  match settingsFile with
  | none => pure (-1, loaded)
  | some settingsFile => do
      let loaded ← loadSettings memory (settingsFile.length + 1) settingsFile temp loaded
      pure (1, loaded)

/-! ### Changing -/

/-- How the file system does with the calls of `modifySetting`: whether it opens the two files,
whether one of them has had an error, and whether it renames the second one. -/
structure FileCalls where
  opensSettings : Bool
  opensTemp : Bool
  error : Bool
  renames : Bool
deriving Repr, DecidableEq

/-- What `fprintf` writes for a setting. -/
def settingLine (settingName : Bytes) (newOption : UInt32) : Bytes :=
  settingName ++ [58] ++ decimal (toInt newOption.toNat) ++ [10]

/-- The loop that copies the lines, with what has been written so far and `optionFound`. The loop
in it that looks for the end of a name computes nothing that is used. -/
def copySettings (settingName : Bytes) (newOption : UInt32) :
    Nat → Bytes → Block tempSize → Bytes → Bool → Checked (Bytes × Bool)
  | 0, _, _, _, _ => .error .diverges
  | fuel + 1, settingsFile, temp, written, optionFound =>
      match fgets lineSize settingsFile with
      | none => pure (written, optionFound)
      | some (line, rest) => do
          let temp ← temp.write 0 (line ++ [0])
          let settingPtr ← temp.read 0 settingName.length
          if settingName = settingPtr then
            copySettings settingName newOption fuel rest temp
              (written ++ settingLine settingName newOption) true
          else
            copySettings settingName newOption fuel rest temp (written ++ cString temp.bytes)
              optionFound

/-- `modifySetting`, with the length of its name: what it returns, and the settings file behind
it. -/
def modifySetting (calls : FileCalls) (settingsFile : Bytes) (temp : Block tempSize)
    (settingName : Bytes) (newOption : UInt32) : Checked (Int × Bytes) :=
  if calls.opensSettings = false then pure (-1, settingsFile)
  else if calls.opensTemp = false then pure (-1, settingsFile)
  else do
    let (written, optionFound) ←
      copySettings settingName newOption (settingsFile.length + 1) settingsFile temp [] false
    let written :=
      if optionFound = true then written else written ++ settingLine settingName newOption
    if calls.error = true then pure (-2, settingsFile)
    else pure (0, if calls.renames = true then written else settingsFile)

end RentMate.PckData
