import PeerSearch.Settings.Raw

/-!
# PeerSearch.Settings.Environment -- settings in environment variables

A variable whose name starts with the program's prefix sets the value on the path that the rest of
its name spells, two underscores standing for a dot. Its text is taken for a truth value or a number
when it looks like one.
-/

namespace PeerSearch.Settings

/-- What the names of the variables start with. -/
def variableStem : List Char := "hitlist__".toList

/-- The settings that are lists, given by their parts between commas. -/
def listPaths : List String := ["filter.extensions"]

/-- The text with two underscores replaced by a dot, from left to right. -/
def dotted : List Char → List Char
  | '_' :: '_' :: rest => '.' :: dotted rest
  | c :: rest => c :: dotted rest
  | [] => []

/-- The path that a variable sets, if its name is one of the program's. -/
def variablePath? (name : String) : Option String :=
  let cs := Text.lowerChars name.toList
  if cs.take variableStem.length == variableStem then
    some (String.ofList (dotted (cs.drop variableStem.length)))
  else none

/-- The value that the text of a variable stands for. -/
def variableValue (path text : String) : SettingValue :=
  match Text.lower text with
  | "true" => .flag true
  | "false" => .flag false
  | _ =>
    match SettingValue.intOfText? text, Number.read? text with
    | some n, _ => .int n
    | none, some x => .float (.ofReading x)
    | none, none =>
      if listPaths.contains path then .list ((Text.splitString ',' text).map .text)
      else .text text

/-- The usual spelling of the variables that set something. -/
def variableNames : List String :=
  RawSettings.sections.flatMap fun (part, names) =>
    names.map fun name => ("hitlist__" ++ part ++ "__" ++ name).toUpper

/-- The variables in a text of entries, each a name and a value with an equals sign between them and
a zero byte at its end. -/
def variablesOfBytes (bytes : List UInt8) : List (String × String) :=
  (Text.split 0 bytes).filterMap fun entry => do
    let text ← String.fromUTF8? ⟨entry.toArray⟩
    let name := text.toList.takeWhile (· != '=')
    return (String.ofList name, String.ofList (text.toList.drop (name.length + 1)))

/-- The layer of settings that environment variables make up. -/
def environmentLayer (environment : List (String × String)) : SettingSection :=
  environment.filterMap fun (name, text) =>
    (variablePath? name).map fun path => (path, variableValue path text)

end PeerSearch.Settings
