import CellStitch.Files.Tree
import CellStitch.Settings.Basic
import CellStitch.Toml.Reader
/-!
# Settings files

Settings are read from the table `concat` of a file. The file is given, or it is the nearest one in
the folder of a notebook or above it (`SettingsFile.find`). The values are taken as the file has
them; a header that is not set counts as no header.
-/

namespace CellStitch

/-- Why settings cannot be read. -/
inductive SettingsFault where
  | unreadable (fault : FileFault)
  /-- The file is not UTF-8. -/
  | notUtf8
  /-- The file is not TOML. -/
  | notToml
  /-- The file has a whole number with too many digits. -/
  | numberTooLong
  /-- What should be the table of the settings is something else. -/
  | notATable
  /-- There is no settings file in any folder upward. -/
  | noFile
  deriving DecidableEq, Repr

namespace SettingsFile

/-- The name of settings files. -/
def name : String := "notebook-concat.toml"

/-- The table of a settings file that holds the settings. -/
def tableName : String := "concat"

end SettingsFile

/-- The wording of a fault. -/
def SettingsFault.message : SettingsFault → String
  | unreadable fault => fault.message
  | notUtf8 => "the settings are not UTF-8"
  | notToml => "the settings are not TOML"
  | numberTooLong => "a number in the settings has too many digits"
  | notATable => "the settings are not a table"
  | noFile => "No " ++ SettingsFile.name ++ " found in any parent directory"

/-- The settings as a file gives them. -/
structure SettingsFile where
  disableMarks : Value
  header : Value
  language : Value
  deriving Repr

namespace SettingsFile

/-! ### What a file says -/

/-- The settings in a table. -/
def ofTable (table : List (String × Value)) : SettingsFile :=
  let header := (Value.entry? table "header").getD (.text "")
  { disableMarks := (Value.entry? table "disable_type_ignore").getD (.bool false)
    header := if header.isSet then header else .text ""
    language := (Value.entry? table "language").getD (.text Settings.defaultLanguage) }

/-- The settings in the entries of a file. -/
def ofEntries (entries : List (String × Value)) : Except SettingsFault SettingsFile :=
  match (Value.entry? entries tableName).getD (.table []) with
  | .table table => .ok (ofTable table)
  | _ => .error .notATable

/-- The settings that a document is made with. -/
def toSettings (s : SettingsFile) : Settings :=
  ⟨s.disableMarks, fun _ ↦ s.header, s.language⟩

/-- Whether a file says what holds without it. -/
def isDefault (s : SettingsFile) : Bool :=
  s.disableMarks.isFalse && !s.header.isSet && s.language.isText Settings.defaultLanguage

/-! ### Files -/

/-- The settings in the contents of a file. -/
def ofContents (contents : ByteArray) : Except SettingsFault SettingsFile :=
  match String.fromUTF8? contents with
  | none => .error .notUtf8
  | some s =>
    match Toml.read s.toList with
    | .ok entries => ofEntries entries
    | .error .malformed => .error .notToml
    | .error .numberTooLong => .error .numberTooLong

/-- The settings in the file at a path. -/
def load (t : FileTree) (p : Path) : Except SettingsFault SettingsFile := do
  let contents ← (t.read p).mapError .unreadable
  ofContents contents

/-- The nearest settings file in a folder or above it. The folder is given by its names from the
last to the first. -/
def findFrom (t : FileTree) : List String → Option (List String)
  | [] => if (t.node? [name]).isSome then some [name] else none
  | last :: above =>
    let place := (name :: last :: above).reverse
    if (t.node? place).isSome then some place else findFrom t above

/-- The nearest settings file in the folder of a file, or in a folder, or above. -/
def find (t : FileTree) (start : Option Path) : Except SettingsFault (List String) := do
  let place ←
    match start with
    | none => pure t.workingFolder
    | some p => (p.check.mapError .unreadable).map fun _ ↦ t.resolve p
  let folder :=
    match t.node? place with
    | some (.file _) => place.dropLast
    | _ => place
  match findFrom t folder.reverse with
  | some found => pure found
  | none => .error .noFile

/-- The settings for a notebook: those of the given file, or else those of the nearest settings
file, or else the default. -/
def forNotebook (t : FileTree) (notebook : Path) (given : Option Path) :
    Except SettingsFault Settings :=
  match given with
  | some p => (load t p).map toSettings
  | none =>
    match find t (some notebook) with
    | .error .noFile => .ok .default
    | .error fault => .error fault
    | .ok place => (load t ⟨"/", place⟩).map toSettings

end SettingsFile

end CellStitch
