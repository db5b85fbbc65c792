import PeerSearch.FileContent
import PeerSearch.Settings.Format
import PeerSearch.Text.Utf8

/-!
# PeerSearch.Settings.File -- finding and reading settings files

A settings file is looked for under its own name, and under that name with each of the known
extensions if there is no such file. Bytes that are no text do not keep it from being read. Whether
it may be missing is up to who asks for it.
-/

namespace PeerSearch.Settings

/-- The bytes of the mark that may stand in front of a text. -/
def byteOrderMark : List UInt8 := [0xEF, 0xBB, 0xBF]

/-- The text that the bytes of a settings file hold. -/
def textOfBytes (bytes : List UInt8) : String :=
  String.ofList (Text.decode (if byteOrderMark.isPrefixOf bytes then bytes.drop 3 else bytes))

/-- The paths that a settings file is looked for under. -/
def candidates (path : String) : List String :=
  path :: SettingFormat.extensions.filterMap fun m => Path.withSuffix? path ("." ++ m.1)

/-- What comes of looking for a settings file. -/
inductive FileReading where
  /-- There is no such file, or nothing tells its format. -/
  | missing
  /-- The file is not written in its format. -/
  | broken
  | layer (s : SettingSection)
  deriving Repr

namespace FileReading

/-- What a format makes of bytes. -/
def ofBytes (format : SettingFormat) (bytes : List UInt8) : FileReading :=
  match format.read? (textOfBytes bytes) with
  | some s => layer s
  | none => broken

/-- The layer of a file that has to be there. -/
def required? : FileReading → Option SettingSection
  | layer s => some s
  | _ => none

/-- The layer of a file that need not be there. -/
def optional? : FileReading → Option SettingSection
  | missing => some []
  | r => r.required?

end FileReading

/-- Looks for a settings file. -/
def readFile (files : String → FileContent) (path : String) : FileReading :=
  match (candidates path).find? fun candidate => (files candidate).isFile with
  | none => .missing
  | some found =>
    match SettingFormat.ofPath? found, files found with
    | some format, .bytes bytes => .ofBytes format bytes
    | _, _ => .missing

/-! ## Usual places -/

/-- The variable that names the directory of the user's settings. -/
def directoryVariable : String := "HITLIST_CONFIG_DIR"

/-- The directory of the user's settings: the one that a variable names, or one among all settings
of the user. -/
def directory? (environment : List (String × String)) : Option String :=
  let given (name : String) : Option String :=
    (environment.lookup name).filter fun value => !value.isEmpty
  let shared := ((given "XDG_CONFIG_HOME").filter Path.isAbsolute).or
    ((given "HOME").map (· ++ "/.config"))
  (given directoryVariable).or (shared.map (· ++ "/hitlist"))

/-- The paths of the settings files that are read unless they are left out, the last one counting
most. -/
def usualPaths (environment : List (String × String)) : List String :=
  ((directory? environment).map (· ++ "/config.toml")).toList ++ ["hitlist.toml"]

end PeerSearch.Settings
