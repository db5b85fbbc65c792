import PeerSearch.Settings.Value

/-!
# PeerSearch.Toml.Draft -- a settings document while it is being put together

A document is a list of statements: a key with its value, or a header that says to which table the
keys below it belong. Each table and each value is defined once. A header may name a table that
stands only on the way to another header, but nothing can be put into a value, and keys with dots
lead only through tables that have no header of their own.
-/

namespace PeerSearch.Toml

/-- The names that lead to a value from some table. -/
abbrev KeyPath := List String

/-- How a table came to be. -/
inductive TableOrigin where
  /-- It has a header. -/
  | header
  /-- It stands on the way to a header. -/
  | implied
  /-- It stands on the way to a value, in a key with dots. -/
  | dotted
  deriving DecidableEq, Repr

/-- What stands under a name. -/
inductive Node where
  | value (v : SettingValue)
  | table (origin : TableOrigin) (members : List (String × Node))
  /-- A list of tables with headers; statements can change only its last one. -/
  | tables (earlier : List SettingValue) (last : List (String × Node))
  deriving Repr

/-- What stands under the names of a table. -/
abbrev Nodes := List (String × Node)

namespace Node

mutual

/-- The value that a node comes to. -/
def toValue : Node → SettingValue
  | value v => v
  | table _ members => .part (sectionOf members)
  | tables earlier last => .list (earlier ++ [.part (sectionOf last)])

/-- The section that a table comes to. -/
def sectionOf : List (String × Node) → SettingSection
  | [] => []
  | (name, node) :: members => (name, toValue node) :: sectionOf members

end

end Node

namespace Nodes

/-- The nodes with one under a name, in place of what stood there. -/
def put (nodes : Nodes) (name : String) (node : Node) : Nodes :=
  if (nodes.lookup name).isSome then
    nodes.map fun m => if m.1 == name then (name, node) else m
  else nodes ++ [(name, node)]

/-! ## Changes behind a path -/

/-- The nodes with the table behind a path changed. Tables that are not there are made. -/
def changeHeaded (change : Nodes → Option Nodes) : KeyPath → Nodes → Option Nodes
  | [], nodes => change nodes
  | name :: path, nodes =>
    match nodes.lookup name with
    | none => (changeHeaded change path []).map fun inner => nodes.put name (.table .implied inner)
    | some (.table origin inner) =>
      (changeHeaded change path inner).map fun inner => nodes.put name (.table origin inner)
    | some (.tables earlier last) =>
      (changeHeaded change path last).map fun last => nodes.put name (.tables earlier last)
    | some (.value _) => none

/-- The nodes with the table behind the dots of a key changed. Tables that have headers are not
changed that way. -/
def changeDotted (change : Nodes → Option Nodes) : KeyPath → Nodes → Option Nodes
  | [], nodes => change nodes
  | name :: path, nodes =>
    match nodes.lookup name with
    | none => (changeDotted change path []).map fun inner => nodes.put name (.table .dotted inner)
    | some (.table .header _) => none
    | some (.table origin inner) =>
      (changeDotted change path inner).map fun inner => nodes.put name (.table origin inner)
    | some (.tables earlier last) =>
      if path.isEmpty then none
      else (changeDotted change path last).map fun last => nodes.put name (.tables earlier last)
    | some (.value _) => none

/-! ## Definitions -/

/-- A value under a name that nothing stands under. -/
def define? (name : String) (v : SettingValue) (nodes : Nodes) : Option Nodes :=
  match nodes.lookup name with
  | none => some (nodes.put name (.value v))
  | some _ => none

/-- A header for a table that is not there or stands only on the way to another one. -/
def open? (name : String) (nodes : Nodes) : Option Nodes :=
  match nodes.lookup name with
  | none => some (nodes.put name (.table .header []))
  | some (.table .implied inner) => some (nodes.put name (.table .header inner))
  | some _ => none

/-- One more table in a list of tables. -/
def addTable? (name : String) (nodes : Nodes) : Option Nodes :=
  match nodes.lookup name with
  | none => some (nodes.put name (.tables [] []))
  | some (.tables earlier last) =>
    some (nodes.put name (.tables (earlier ++ [.part (Node.sectionOf last)]) []))
  | some _ => none

end Nodes

/-! ## Drafts -/

/-- What has been read of a document. -/
structure Draft where
  content : Nodes := []
  /-- The table that keys belong to. -/
  table : KeyPath := []

namespace Draft

/-- The section that the document comes to. -/
def toSection (d : Draft) : SettingSection :=
  Node.sectionOf d.content

/-- The draft with a value under a key of the current table. -/
def assign? (d : Draft) (key : KeyPath) (v : SettingValue) : Option Draft := do
  let name ← key.getLast?
  let define := Nodes.changeDotted (Nodes.define? name v) key.dropLast
  return { d with content := ← Nodes.changeHeaded define d.table d.content }

/-- The draft below the header of a table. -/
def header? (d : Draft) (path : KeyPath) : Option Draft := do
  let name ← path.getLast?
  let content ← Nodes.changeHeaded (Nodes.open? name) path.dropLast d.content
  return { content, table := path }

/-- The draft below the header of one more table in a list. -/
def listHeader? (d : Draft) (path : KeyPath) : Option Draft := do
  let name ← path.getLast?
  let content ← Nodes.changeHeaded (Nodes.addTable? name) path.dropLast d.content
  return { content, table := path }

end Draft

end PeerSearch.Toml
