import PeerSearch.Facet.Axis
import PeerSearch.Group

/-!
# PeerSearch.Facet.Filter -- filters made of facet choices

A facet filter keeps the groups that have one value on one axis. A composite filter has a slot for
each of a number of choosers and keeps what every filled slot keeps.
-/

namespace PeerSearch

/-! ## One choice -/

/-- Keeps the groups with a value on an axis. -/
inductive FacetFilter where
  /-- File extension, in whatever ASCII case. -/
  | extension (extension : String)
  | speed (speedClass : SpeedClass)
  /-- Vendor code, in whatever ASCII case. -/
  | vendor (vendor : String)
  /-- A field of the group's document, which must be of the family. -/
  | field (media : MediaType) (name value : String) (registry : Registry)
  | media (media : MediaType) (registry : Registry)
  deriving DecidableEq

namespace FacetFilter

/-- Whether the document has a field of that value, white space at the ends and ASCII case
aside. -/
def hasField (media : MediaType) (name value : String) (d : Document) : Bool :=
  MediaType.ofSchema d.schema == media &&
    (d.value? name).any fun text =>
      Text.sameIgnoringAsciiCase (Text.trim text) (Text.trim value)

/-- Whether the filter keeps a group. -/
def allows (f : FacetFilter) (g : Group) : Bool :=
  match f with
  | extension e => Text.sameIgnoringAsciiCase e g.extension
  | speed c => g.speedClass == c
  | vendor v => Text.sameIgnoringAsciiCase v (Text.trim g.vendor)
  | field m name value _ => g.summary.document.any (hasField m name value)
  | media m registry => g.mediaType registry == m

end FacetFilter

/-- The filter that keeps the groups with a value on the axis; `none` when the axis has no such
value. -/
def Axis.filterFor? (axis : Axis) (v : FacetValue) (registry : Registry) : Option FacetFilter :=
  match axis, v with
  | .media, .media m => some (.media m registry)
  | .field m name, .text s => some (.field m name s registry)
  | .property .type, .text s => some (.extension s)
  | .property .speed, .speed c => some (.speed c)
  | .property .vendor, .text s => some (.vendor s)
  | _, _ => none

/-! ## Several choices -/

/-- A fixed number of slots, each empty or with a facet filter. -/
structure CompositeFilter where
  slots : List (Option FacetFilter)
  deriving DecidableEq

namespace CompositeFilter

/-- The composite of that many empty slots. -/
def empty (depth : Nat) : CompositeFilter :=
  ⟨List.replicate depth none⟩

/-- The number of slots. -/
def depth (c : CompositeFilter) : Nat :=
  c.slots.length

/-- The composite with its slots emptied. -/
def reset (c : CompositeFilter) : CompositeFilter :=
  empty c.depth

/-- The filter in a slot. -/
def filter? (c : CompositeFilter) (slot : Nat) : Option FacetFilter :=
  (c.slots[slot]?).join

/-- The composite with another content of a slot, and whether that changes anything. A slot that
does not exist is ignored. -/
def setFilter (c : CompositeFilter) (slot : Nat) (filter : Option FacetFilter) :
    CompositeFilter × Bool :=
  match c.slots[slot]? with
  | none => (c, false)
  | some old => if old = filter then (c, false) else (⟨c.slots.set slot filter⟩, true)

/-- Whether every slot is empty. -/
def isEmpty (c : CompositeFilter) : Bool :=
  c.slots.all Option.isNone

/-- Whether every filled slot keeps a group. -/
def allows (c : CompositeFilter) (g : Group) : Bool :=
  c.slots.all fun slot => slot.all (·.allows g)

end CompositeFilter

end PeerSearch
