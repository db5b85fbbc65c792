import PeerSearch.Ini.Reader
import PeerSearch.Json5.Reader
import PeerSearch.Ron.Reader
import PeerSearch.Text.Path
import PeerSearch.Toml.Reader
import PeerSearch.Yaml.Reader

/-!
# PeerSearch.Settings.Format -- the formats of settings files

The extension of the name of a settings file tells its format.
-/

namespace PeerSearch

/-- A format that settings may be written in. -/
inductive SettingFormat where
  | toml
  | json
  | yaml
  | ini
  | ron
  | json5
  deriving DecidableEq, Repr

namespace SettingFormat

/-- The extensions and their formats, in the order in which they are tried for a name without. -/
def extensions : List (String × SettingFormat) :=
  [("toml", toml), ("json", json), ("yaml", yaml), ("yml", yaml), ("ini", ini), ("ron", ron),
    ("json5", json5)]

/-- The format that the name at the end of a path tells. -/
def ofPath? (path : String) : Option SettingFormat := do
  extensions.lookup (← Path.extension? (← Path.fileName? path))

/-- The settings that a text in the format holds. -/
def read? (format : SettingFormat) (text : String) : Option SettingSection :=
  match format with
  | toml => Toml.read? text
  | json => (Json.read? text).bind SettingSection.ofJson?
  | yaml => Yaml.read? text
  | ini => Ini.read? text
  | ron => Ron.read? text
  | json5 => Json5.read? text

end SettingFormat

end PeerSearch
