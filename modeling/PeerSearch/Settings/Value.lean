import PeerSearch.Json.Basic
import PeerSearch.Number.Double
import PeerSearch.Text.LowerCase
import PeerSearch.Text.Split

/-!
# PeerSearch.Settings.Value -- values in settings and how layers of them combine

Settings come in layers: files, environment variables, and what was given on the command line. A
layer is a section of named values, some of which are sections themselves. A later layer replaces
values of an earlier one and is merged into its sections. Values are read leniently: numbers, words
and truth values stand for each other where they have a natural reading.
-/

namespace PeerSearch

/-- A value in settings. -/
inductive SettingValue where
  | absent
  | flag (b : Bool)
  | int (n : Int)
  | float (x : Number.Double)
  | text (s : String)
  | list (items : List SettingValue)
  | part (members : List (String × SettingValue))
  deriving Repr

/-- Named values. -/
abbrev SettingSection := List (String × SettingValue)

namespace SettingSection

/-! ## Layers -/

/-- The section with a value under a name, in place of what stood there. -/
def put (base : SettingSection) (name : String) (v : SettingValue) : SettingSection :=
  if (base.lookup name).isSome then
    base.map fun m => if m.1 == name then (name, v) else m
  else base ++ [(name, v)]

/-- The section that a value is, or an empty one. -/
def ofValue : Option SettingValue → SettingSection
  | some (.part members) => members
  | _ => []

mutual

/-- A value of a later layer over what stood in its place: a section is merged into a section, and
anything else takes the place. -/
def layOver (old : Option SettingValue) : SettingValue → SettingValue
  | .part members => .part (setAll (ofValue old) members)
  | v => v

/-- The section with all values of a later layer. -/
def setAll (base : SettingSection) : List (String × SettingValue) → SettingSection
  | [] => base
  | (name, v) :: members => setAll (base.put name (layOver (base.lookup name) v)) members

end

end SettingSection

namespace SettingValue

/-! ## Lenient reading -/

/-- A whole number without sign that fits 64 bits; a plus sign may stand in front. -/
def natOfText? (s : String) : Option Nat :=
  let digits := match s.toList with
    | '+' :: rest => rest
    | cs => cs
  if digits.isEmpty || !digits.all Char.isDigit then none
  else
    let n := Number.ofDigits digits
    if n < Number.pow2 64 then some n else none

/-- A whole number that fits 64 bits with a sign. -/
def intOfText? (s : String) : Option Int :=
  let (negative, digits) := Number.spanSign s.toList
  if digits.isEmpty || !digits.all Char.isDigit then none
  else Number.int64? negative (Number.ofDigits digits)

/-- The truth value that one of the words for it stands for. -/
def wordValue? (s : String) : Option Bool :=
  match Text.lower s with
  | "true" | "on" | "yes" => some true
  | "false" | "off" | "no" => some false
  | _ => none

def flag? : SettingValue → Option Bool
  | flag b => some b
  | int n => some (n != 0)
  | float x => some x.isNonzero
  | text "1" => some true
  | text "0" => some false
  | text s => wordValue? s
  | _ => none

/-- A whole number of 64 bits without sign. -/
def nat64? : SettingValue → Option Nat
  | flag b => some b.toNat
  | int n => if 0 ≤ n then some n.toNat else none
  | float x => some x.toNat64
  | text s => ((wordValue? s).map Bool.toNat).or (natOfText? s)
  | _ => none

/-- A number of single precision. -/
def single? : SettingValue → Option Binary32
  | flag b => some (Number.Double.ofInt b.toNat).toSingle
  | int n => some (Number.Double.ofInt n).toSingle
  | float x => some x.toSingle
  | text s =>
    match wordValue? s with
    | some b => some (Number.Double.ofInt b.toNat).toSingle
    | none => (Number.read? s).map Number.Reading.toSingleByDouble
  | _ => none

def text? : SettingValue → Option String
  | flag b => some (if b then "true" else "false")
  | int n => some (toString n)
  | float x => some x.text
  | text s => some s
  | _ => none

def texts? : SettingValue → Option (List String)
  | list items => items.mapM text?
  | _ => none

/-! ## JSON -/

/-- A number: a whole one, or a double. -/
def ofNumber : JsonNumber → SettingValue
  | .whole n => int n
  | n =>
    match n.toDouble? with
    | some (negative, b) => float (.finite negative b)
    | none => absent

mutual

/-- The value that a JSON value stands for. -/
def ofJson : Json → SettingValue
  | .null => absent
  | .bool b => flag b
  | .number n => ofNumber n
  | .string s => text (s.getD "")
  | .array items => list (ofItems items)
  | .object members => part (ofMembers members)

/-- The values that the items of an array stand for. -/
def ofItems : List Json → List SettingValue
  | [] => []
  | item :: items => ofJson item :: ofItems items

/-- The named values that the members of an object stand for. -/
def ofMembers : List (Option String × Json) → List (String × SettingValue)
  | [] => []
  | (name, value) :: members => (name.getD "", ofJson value) :: ofMembers members

end

end SettingValue

/-- The layer that a JSON document stands for: an object, of whose members of one name the last
counts. -/
def SettingSection.ofJson? (j : Json) : Option SettingSection :=
  match SettingValue.ofJson j.canonical with
  | .part members => some members
  | _ => none

end PeerSearch
