import PeerSearch.Settings.Value

/-!
# PeerSearch.Settings.Path -- places in settings

The names in a layer are paths such as `panel.sort` or `filter.extensions[0]`: names behind dots,
and indices of lists in brackets. A value is put where its path leads; what is not there yet, or is
of another kind, is made on the way.
-/

namespace PeerSearch

/-- One step on the way to a value. -/
inductive SettingStep where
  | member (name : String)
  /-- An item of a list; a negative index counts from the end. -/
  | item (index : Int)
  deriving DecidableEq, Repr

/-- The way from the root of the settings to a value. -/
structure SettingPath where
  first : String
  steps : List SettingStep := []
  deriving DecidableEq, Repr

namespace SettingPath

/-! ## Reading -/

/-- A character of a name in a path. -/
def isNameChar (c : Char) : Bool :=
  c.isAlphanum || c == '_' || c == '-'

/-- A character that may stand around an index. -/
def isGap (c : Char) : Bool :=
  c == ' ' || c == '\t'

/-- The index between brackets: digits that may have a minus sign, of 64 bits with sign. -/
def index? (cs : List Char) : Option Int := do
  let inner := ((cs.dropWhile isGap).reverse.dropWhile isGap).reverse
  let (negative, digits) := match inner with
    | '-' :: digits => (true, digits)
    | digits => (false, digits)
  if digits.isEmpty || !digits.all Char.isDigit then none
  else Number.int64? negative (Number.ofDigits digits)

/-- The steps that a text of that length spells. -/
def steps? : Nat → List Char → Option (List SettingStep)
  | _, [] => some []
  | fuel + 1, '.' :: rest => do
    let name := rest.takeWhile isNameChar
    if name.isEmpty then none
    else return .member (String.ofList name) :: (← steps? fuel (rest.dropWhile isNameChar))
  | fuel + 1, '[' :: rest => do
    match rest.dropWhile (· != ']') with
    | _ :: after => return .item (← index? (rest.takeWhile (· != ']'))) :: (← steps? fuel after)
    | [] => none
  | _, _ => none

/-- The path that a text spells; a text that spells none is a single name. -/
def ofText (s : String) : SettingPath :=
  let first := s.toList.takeWhile isNameChar
  let rest := s.toList.dropWhile isNameChar
  match first.isEmpty, steps? rest.length rest with
  | false, some steps => ⟨String.ofList first, steps⟩
  | _, _ => ⟨s, []⟩

/-! ## Putting values -/

/-- The list with the item at an index changed. Absent values fill the list up to there. -/
def changeItem (change : SettingValue → SettingValue) (index : Int) (items : List SettingValue) :
    List SettingValue :=
  if 0 ≤ index then
    let missing := index.toNat + 1 - items.length
    (items ++ List.replicate missing SettingValue.absent).modify index.toNat change
  else
    let missing := (-index).toNat - items.length
    let padded := List.replicate missing SettingValue.absent ++ items
    padded.modify (items.length - (-index).toNat) change

/-- The items of a list, or none. -/
def itemsOf : Option SettingValue → List SettingValue
  | some (.list items) => items
  | _ => []

/-- What stands in a place after a value has been put behind the steps from there. A section is
merged into the one that stands there, but an item of a list is replaced. -/
def put (v : SettingValue) : List SettingStep → Option SettingValue → SettingValue
  | [], old => SettingSection.layOver old v
  | .member name :: steps, old =>
    let s := SettingSection.ofValue old
    .part (s.put name (put v steps (s.lookup name)))
  | .item index :: steps, old =>
    let change (item : SettingValue) : SettingValue :=
      put v steps (if steps.isEmpty then none else some item)
    .list (changeItem change index (itemsOf old))

end SettingPath

/-- The section with a value put on a path. -/
def SettingSection.setPath (base : SettingSection) (path : SettingPath) (v : SettingValue) :
    SettingSection :=
  base.put path.first (SettingPath.put v path.steps (base.lookup path.first))

/-- The section with a later layer over it; the names of the layer are paths. -/
def SettingSection.overlay (base layer : SettingSection) : SettingSection :=
  layer.foldl (fun s m => s.setPath (SettingPath.ofText m.1) m.2) base

end PeerSearch
