/-
Module: RentMate.Proofs.SettingsFile
Purpose: The file with the settings of the protocol: which files the loader reads as they are
  written, and when it reads what a change of a setting has written.
Trusted boundary: none
Main exports: initializeSettingsData_eq_ok, SettingLine, ReadsFile, readsFile_iff, ReadBack,
  readBack_iff
-/
import RentMate.PckData.Settings

namespace RentMate.SettingsFile

open RentMate.Machine
open RentMate.PckData

/-! ### The loader -/

section Loader

variable {temp : Block tempSize} {memory : Memory} {scan next : LineScan} {loaded : Loaded}
  {settingsFile : Bytes} {globalSettings : GlobalSettings}

/-- The zero behind a copy is written behind its block, too. -/
theorem copyQuoted_ne_ok (begin i : Nat) (copy : Bytes) :
    copyQuoted temp memory begin i ≠ .ok copy := by
  intro ran
  rw [copyQuoted] at ran
  split at ran
  · cases ran
  · rename_i block made
    have length := length_malloc made
    obtain ⟨quoted, -, ran⟩ := bind_eq_ok.mp ran
    obtain ⟨filled, wrote, ran⟩ := bind_eq_ok.mp ran
    have kept := writeBytes_length wrote
    have one : [(0 : UInt8)].length = 1 := rfl
    rcases (writeBytes_eq_ok.mp ran).1 with fits | nothing
    · omega
    · cases nothing

/-- No name has been copied yet. -/
structure Nameless (scan : LineScan) : Prop where
  name : scan.settingName = none
  nameOpen : scan.settingNameComplete = false
  valueOpen : scan.settingValueComplete = false

/-- A letter that is scanned to its end does not complete a name. -/
theorem scanLetter_nameless (nameless : Nameless scan) {i : Nat}
    (ran : scanLetter temp memory i scan = .ok next) : Nameless next := by
  obtain ⟨letter, -, ran⟩ := bind_eq_ok.mp ran
  have nameOpen : ¬ scan.settingNameComplete = true := by
    rw [nameless.nameOpen]
    decide
  split at ran
  · obtain ⟨settingName, copied, -⟩ := bind_eq_ok.mp ran
    exact absurd copied (copyQuoted_ne_ok _ _ _)
  · split at ran
    · rw [← Except.ok.inj ran]
      exact ⟨nameless.name, nameless.nameOpen, nameless.valueOpen⟩
    · rw [if_neg fun value => nameOpen value.2.2, if_neg fun value => nameOpen value.2.2] at ran
      rw [← Except.ok.inj ran]
      exact nameless

/-- A scan that has found no name finds none in letters without quotes. -/
theorem scanLetters_nameless (nameless : Nameless scan) {left i : Nat}
    (ran : scanLetters temp memory left i scan = .ok next) : Nameless next := by
  induction left generalizing i scan with
  | zero =>
      rw [← Except.ok.inj ran]
      exact nameless
  | succ left ih =>
      obtain ⟨scanned, ranLetter, ran⟩ := bind_eq_ok.mp ran
      have namelessScanned := scanLetter_nameless nameless ranLetter
      rw [if_neg (by rw [namelessScanned.valueOpen]; decide)] at ran
      exact ih namelessScanned ran

/-- No line is read to its end: without a second quote there is no name to print. -/
theorem loadSetting_ne_ok (result : Loaded) : loadSetting temp memory loaded ≠ .ok result := by
  intro ran
  obtain ⟨scan, scanned, ran⟩ := bind_eq_ok.mp ran
  obtain ⟨settingName, present, -⟩ := bind_eq_ok.mp ran
  have nameless := scanLetters_nameless (show Nameless lineBegin from ⟨rfl, rfl, rfl⟩) scanned
  rw [nameless.name] at present
  cases present

/-- The loader reads the empty file, and no other. -/
theorem initializeSettingsData_eq_ok {result : Int × Loaded} :
    initializeSettingsData (some settingsFile) temp memory globalSettings = .ok result ↔
      settingsFile = [] ∧ result = (1, { globalSettings := globalSettings, seen := [] }) := by
  constructor
  · intro ran
    obtain ⟨loaded, ranLines, ran⟩ := bind_eq_ok.mp ran
    obtain rfl := Except.ok.inj ran
    by_cases empty : settingsFile = []
    · subst empty
      obtain rfl := Except.ok.inj ranLines
      exact ⟨rfl, rfl⟩
    · obtain ⟨line, rest, read⟩ := exists_fgets empty
      rw [loadSettings, read] at ranLines
      obtain ⟨written, -, ranLines⟩ := bind_eq_ok.mp ranLines
      obtain ⟨first, ranFirst, -⟩ := bind_eq_ok.mp ranLines
      exact absurd ranFirst (loadSetting_ne_ok first)
  · rintro ⟨rfl, rfl⟩
    rfl

end Loader

/-! ### Files of settings -/

/-- A line of a settings file. -/
inductive SettingLine where
  | setting (name value : Bytes)
  | blank
deriving Repr, DecidableEq

/-- A line as it is written. -/
def SettingLine.text : SettingLine → Bytes
  | .setting name value => [34] ++ name ++ [34, 58, 34] ++ value ++ [34]
  | .blank => []

/-- The name and the value of a line. -/
def SettingLine.pair? : SettingLine → Option (Bytes × Bytes)
  | .setting name value => some (name, value)
  | .blank => none

/-- A line that `fgets` reads at once, without a quote or an end in its name or its value. -/
structure SettingLine.WellFormed (line : SettingLine) : Prop where
  letters : ∀ pair ∈ line.pair?, ∀ letter ∈ pair.1 ++ pair.2, letter ∉ [34, 10, 0]
  short : line.text.length < 59

/-- The lines, each with a newline behind it. -/
def textOf (lines : List SettingLine) : Bytes := lines.flatMap fun line => line.text ++ [10]

/-- A file has the lines. Its last line may end without a newline. -/
def HasLines (settingsFile : Bytes) (lines : List SettingLine) : Prop :=
  settingsFile = textOf lines ∨ settingsFile ++ [10] = textOf lines

/-- The settings that lines are for. -/
def settingsOf (lines : List SettingLine) : List (Bytes × Bytes) :=
  lines.filterMap SettingLine.pair?

/-- The value on the last line for `passExchangeMethod`, or the one that was set before. -/
def lastMethod (lines : List SettingLine) (before : Int) : Checked Int :=
  match ((settingsOf lines).filter fun pair => pair.1 = passExchangeMethod).getLast? with
  | none => .ok before
  | some pair => atoi pair.2

/-- The loader completes, and has read the last value for `passExchangeMethod`. -/
def ReadsFile (settingsFile : Bytes) (lines : List SettingLine) (temp : Block tempSize)
    (memory : Memory) (globalSettings : GlobalSettings) : Prop :=
  ∃ loaded, initializeSettingsData (some settingsFile) temp memory globalSettings =
      .ok (1, loaded) ∧
    lastMethod lines globalSettings.passExchangeMethod =
      .ok loaded.globalSettings.passExchangeMethod

section Files

variable {settingsFile : Bytes} {lines : List SettingLine} {temp : Block tempSize}
  {memory : Memory} {globalSettings : GlobalSettings}

/-- An empty file has no settings. -/
theorem settingsOf_empty (has : HasLines [] lines) : settingsOf lines = [] := by
  apply List.filterMap_eq_nil_iff.mpr
  intro line inside
  cases line with
  | blank => rfl
  | setting name value =>
      have quote : (34 : UInt8) ∈ textOf lines :=
        List.mem_flatMap.mpr ⟨_, inside, by simp [SettingLine.text]⟩
      rcases has with same | same
      · rw [← same] at quote
        cases quote
      · rw [← same] at quote
        cases List.mem_singleton.mp quote

/-- The loader reads a file of settings and blank lines exactly if it has no bytes at all. -/
theorem readsFile_iff (has : HasLines settingsFile lines) :
    ReadsFile settingsFile lines temp memory globalSettings ↔ settingsFile = [] := by
  constructor
  · rintro ⟨loaded, ran, -⟩
    exact (initializeSettingsData_eq_ok.mp ran).1
  · rintro rfl
    refine ⟨_, initializeSettingsData_eq_ok.mpr ⟨rfl, rfl⟩, ?_⟩
    rw [lastMethod, settingsOf_empty has]
    rfl

end Files

/-- A blank line that does not end with a newline is a file of no bytes. -/
theorem unclosedBlank_read :
    ReadsFile [] [.blank] default none { passExchangeMethod := 1 } :=
  (readsFile_iff (.inr rfl)).mpr rfl

/-- The line of the settings file that the server is shipped with. -/
def shippedLine : SettingLine := .setting passExchangeMethod [48]

/-- The line that is shipped is a well-formed setting. -/
theorem shippedLine_wellFormed : shippedLine.WellFormed := by
  constructor
  · rintro pair ⟨⟩
    decide +kernel
  · decide +kernel

/-- The loader does not read it: the zero behind the name lies behind the 18 bytes that are
allocated for it. -/
theorem shippedLine_overruns :
    ¬ ∀ (settingsFile : Bytes) (lines : List SettingLine) (temp : Block tempSize)
        (memory : Memory) (globalSettings : GlobalSettings),
      HasLines settingsFile lines → (∀ line ∈ lines, line.WellFormed) →
        ReadsFile settingsFile lines temp memory globalSettings := by
  intro claim
  have wellFormed : ∀ line ∈ [shippedLine], line.WellFormed := by
    intro line inside
    rw [List.mem_singleton.mp inside]
    exact shippedLine_wellFormed
  obtain ⟨loaded, ran, -⟩ := claim (textOf [shippedLine]) [shippedLine] default
    (some fun _ => 0) { passExchangeMethod := 0 } (.inl rfl) wellFormed
  have empty := (initializeSettingsData_eq_ok.mp ran).1
  exact absurd empty (by decide +kernel)

/-! ### Changing a setting -/

/-- What a change has to do. If it returns 0, the loader reads the file with the new value on the
only line for the name, and all other settings as they were. If it returns something else, the file
is as it was. -/
def ReadBack (calls : FileCalls) (settingsFile : Bytes) (lines : List SettingLine)
    (temp loaderTemp : Block tempSize) (memory : Memory) (globalSettings : GlobalSettings)
    (settingName : Bytes) (newOption : UInt32) : Prop :=
  ∃ returned after, modifySetting calls settingsFile temp settingName newOption =
      .ok (returned, after) ∧
    (returned = 0 →
      ∃ loaded, initializeSettingsData (some after) loaderTemp memory globalSettings =
          .ok (1, loaded) ∧
        (∃ value, (loaded.seen.filter fun pair => pair.1 = settingName) = [(settingName, value)] ∧
          atoi value = .ok (toInt newOption.toNat)) ∧
        (loaded.seen.filter fun pair => pair.1 ≠ settingName) =
          (settingsOf lines).filter fun pair => pair.1 ≠ settingName) ∧
    (returned ≠ 0 → after = settingsFile)

section Changing

variable {calls : FileCalls} {settingsFile written : Bytes} {lines : List SettingLine}
  {temp loaderTemp : Block tempSize} {memory : Memory} {globalSettings : GlobalSettings}
  {settingName : Bytes} {newOption : UInt32} {fuel : Nat} {optionFound : Bool}

/-- The lines are copied to the end, as long as the name is not longer than the array that it is
compared with. -/
theorem copySettings_ok (short : settingName.length ≤ tempSize ∨ settingsFile = [])
    (enough : settingsFile.length < fuel) :
    ∃ result, copySettings settingName newOption fuel settingsFile temp written optionFound =
      .ok result := by
  induction fuel generalizing settingsFile temp written optionFound with
  | zero => cases enough
  | succ fuel ih =>
      rw [copySettings]
      by_cases empty : settingsFile = []
      · subst empty
        exact ⟨_, rfl⟩
      · have short : settingName.length ≤ tempSize := short.resolve_right empty
        obtain ⟨line, rest, read⟩ : ∃ line rest, fgets lineSize settingsFile = some (line, rest) :=
          exists_fgets empty
        obtain ⟨lineShort, restShort⟩ := fgets_shorter (by decide) read
        have sixty : lineSize = 60 := rfl
        have eighty : tempSize = 80 := rfl
        obtain ⟨filled, wrote, -⟩ := temp.write_front (show (line ++ [0]).length ≤ tempSize by
          rw [List.length_append, List.length_singleton]
          omega)
        have compared := filled.read_ok (show 0 + settingName.length ≤ tempSize by omega)
        rw [read]
        simp only [wrote, compared, ok_bind]
        split
        · exact ih (.inl short) (by omega)
        · exact ih (.inl short) (by omega)

/-- A name that is longer is compared with what lies behind the array. -/
theorem copySettings_overrun (long : tempSize < settingName.length) (some : settingsFile ≠ [])
    (result : Bytes × Bool) :
    copySettings settingName newOption fuel settingsFile temp written optionFound ≠
      .ok result := by
  intro ran
  cases fuel with
  | zero => cases ran
  | succ fuel =>
      obtain ⟨line, rest, read⟩ := exists_fgets some
      rw [copySettings, read] at ran
      obtain ⟨filled, -, ran⟩ := bind_eq_ok.mp ran
      obtain ⟨compared, ranRead, -⟩ := bind_eq_ok.mp ran
      have fits := (Block.read_eq_ok.mp ranRead).1
      omega

/-- Without both files, nothing is done. -/
theorem modifySetting_closed (closed : calls.opensSettings = false ∨ calls.opensTemp = false) :
    modifySetting calls settingsFile temp settingName newOption = .ok (-1, settingsFile) := by
  rcases closed with settings | temp
  · simp [modifySetting, settings]
  · simp [modifySetting, temp]

/-- A change is read back, or leaves the file alone, exactly if one of the files cannot be opened
or has an error. -/
theorem readBack_iff :
    ReadBack calls settingsFile lines temp loaderTemp memory globalSettings settingName newOption ↔
      calls.opensSettings = false ∨ calls.opensTemp = false ∨
        calls.error = true ∧ (settingName.length ≤ tempSize ∨ settingsFile = []) := by
  constructor
  · rintro ⟨returned, after, ran, readBack, -⟩
    by_cases opensSettings : calls.opensSettings = false
    · exact .inl opensSettings
    · by_cases opensTemp : calls.opensTemp = false
      · exact .inr (.inl opensTemp)
      · refine .inr (.inr ?_)
        rw [modifySetting, if_neg opensSettings, if_neg opensTemp] at ran
        obtain ⟨⟨copied, optionFound⟩, ranCopy, ran⟩ := bind_eq_ok.mp ran
        have fits : settingName.length ≤ tempSize ∨ settingsFile = [] := by
          by_contra neither
          obtain ⟨long, some⟩ := not_or.mp neither
          exact copySettings_overrun (Nat.lt_of_not_le long) some _ ranCopy
        by_cases error : calls.error = true
        · exact ⟨error, fits⟩
        · exfalso
          simp only [if_neg error, pure_eq_ok, Except.ok.injEq, Prod.mk.injEq] at ran
          obtain ⟨rfl, rfl⟩ := ran
          obtain ⟨loaded, ranLoader, ⟨value, only, -⟩, -⟩ := readBack rfl
          obtain ⟨empty, same⟩ := initializeSettingsData_eq_ok.mp ranLoader
          obtain rfl := congrArg Prod.snd same
          cases only
  · rintro (closed | closed | ⟨error, fits⟩)
    · exact ⟨-1, settingsFile, modifySetting_closed (.inl closed), nofun, fun _ => rfl⟩
    · exact ⟨-1, settingsFile, modifySetting_closed (.inr closed), nofun, fun _ => rfl⟩
    · by_cases closed : calls.opensSettings = false ∨ calls.opensTemp = false
      · exact ⟨-1, settingsFile, modifySetting_closed closed, nofun, fun _ => rfl⟩
      · obtain ⟨opensSettings, opensTemp⟩ := not_or.mp closed
        obtain ⟨⟨copied, optionFound⟩, ran⟩ := copySettings_ok fits (Nat.lt_succ_self _)
        refine ⟨-2, settingsFile, ?_, nofun, fun _ => rfl⟩
        rw [modifySetting, if_neg opensSettings, if_neg opensTemp, ran, ok_bind]
        simp only [if_pos error, pure_eq_ok]

end Changing

/-- In a file with one line, setting `passExchangeMethod` to 1 leaves the old line and adds one
without quotes. -/
theorem changed_not_read :
    modifySetting ⟨true, true, false, true⟩ (textOf [shippedLine]) default passExchangeMethod 1 =
        .ok (0, textOf [shippedLine] ++ (passExchangeMethod ++ [58, 49, 10])) ∧
      ¬ ∀ (calls : FileCalls) (settingsFile : Bytes) (lines : List SettingLine)
          (temp loaderTemp : Block tempSize) (memory : Memory) (globalSettings : GlobalSettings)
          (settingName : Bytes) (newOption : UInt32),
        HasLines settingsFile lines → (∀ line ∈ lines, line.WellFormed) →
          ReadBack calls settingsFile lines temp loaderTemp memory globalSettings settingName
            newOption := by
  have ran : modifySetting ⟨true, true, false, true⟩ (textOf [shippedLine]) default
      passExchangeMethod 1 =
        .ok (0, textOf [shippedLine] ++ (passExchangeMethod ++ [58, 49, 10])) := by
    decide +kernel
  refine ⟨ran, fun claim => ?_⟩
  have wellFormed : ∀ line ∈ [shippedLine], line.WellFormed := by
    intro line inside
    rw [List.mem_singleton.mp inside]
    exact shippedLine_wellFormed
  obtain ⟨returned, after, ranAgain, readBack, -⟩ := claim ⟨true, true, false, true⟩ _
    [shippedLine] default default none { passExchangeMethod := 0 } passExchangeMethod 1 (.inl rfl)
    wellFormed
  obtain ⟨rfl, rfl⟩ := Prod.mk.inj (Except.ok.inj (ran.symm.trans ranAgain))
  obtain ⟨loaded, loads, -⟩ := readBack rfl
  have empty := (initializeSettingsData_eq_ok.mp loads).1
  exact absurd empty (by decide +kernel)

end RentMate.SettingsFile
