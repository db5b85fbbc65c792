import PeerSearch.Facet.Filter

/-!
# PeerSearch.Facet.Model -- which groups have which values

The model records, for each indexed group, its value on every axis where it has one, and lists the
values of each axis with the groups that carry them. Values that differ in case share a bucket,
which is labelled with the spelling of one of its groups. What is recorded changes only when the
model is told so.
-/

namespace PeerSearch

/-! ## What is recorded of a group -/

/-- A value on an axis, as recorded of a group. -/
abbrev FacetEntry := Axis × FacetValue

/-- The value of a property, if the group has one. -/
def Property.valueOf? (p : Property) (g : Group) : Option FacetValue :=
  match p with
  | type => if g.extension.isEmpty then none else some (.text (Text.lower g.extension))
  | speed => some (.speed g.speedClass)
  | vendor =>
    let code := Text.trim g.vendor
    if code.isEmpty then none else some (.text code)

/-- The entries of a document: its fields that are not blank. -/
def Document.facetEntries (d : Document) : List FacetEntry :=
  d.fields.entries.filterMap fun (name, value) =>
    let value := Text.trim value
    if value.isEmpty then none
    else some (.field (MediaType.ofSchema d.schema) name, .text value)

/-- Everything that is recorded of a group. -/
def Group.facetEntries (g : Group) (registry : Registry) : List FacetEntry :=
  (.media, .media (g.mediaType registry)) ::
    ((g.summary.document.map Document.facetEntries).getD [] ++
      Property.all.filterMap fun p => (p.valueOf? g).map (.property p, ·))

/-! ## The model -/

/-- The groups with one value on one axis. -/
structure FacetBucket where
  /-- The spelling shown for the value. -/
  label : FacetValue
  /-- The group that the spelling is from. -/
  labelledBy : GroupId
  groups : SortedSet GroupId
  deriving DecidableEq

/-- The values of one axis, under their folded forms. -/
abbrev FacetBuckets := SortedMap FacetValue FacetBucket

/-- The facets of the groups of one search. -/
structure FacetModel where
  registry : Registry
  axes : SortedMap Axis FacetBuckets
  indexed : SortedMap GroupId (List FacetEntry)
  deriving DecidableEq

namespace FacetModel

/-- The model of no groups. -/
def empty (registry : Registry) : FacetModel :=
  ⟨registry, ∅, ∅⟩

/-! ### Links between values and groups -/

/-- The axes with other buckets for one of them; an axis without buckets is dropped. -/
def putBuckets (axes : SortedMap Axis FacetBuckets) (axis : Axis) (buckets : FacetBuckets) :
    SortedMap Axis FacetBuckets :=
  if buckets.isEmpty then axes.erase axis else axes.insert axis buckets

/-- The buckets of an axis. -/
def buckets (m : FacetModel) (axis : Axis) : FacetBuckets :=
  (m.axes.find? axis).getD ∅

/-- The bucket of a value on an axis. -/
def bucket? (m : FacetModel) (axis : Axis) (value : FacetValue) : Option FacetBucket :=
  (m.buckets axis).find? value.folded

/-- The spelling that a group recorded for a folded value on an axis. -/
def spelling? (m : FacetModel) (id : GroupId) (axis : Axis) (folded : FacetValue) :
    Option FacetValue :=
  (((m.indexed.find? id).getD []).find? fun e => e.1 == axis && e.2.folded == folded).map (·.2)

/-- Adds a group to the bucket of a value. The first group labels the bucket. -/
def link (m : FacetModel) (id : GroupId) (e : FacetEntry) : FacetModel :=
  let b : FacetBucket := (m.bucket? e.1 e.2).getD ⟨e.2, id, ∅⟩
  let b := { b with groups := b.groups.add id }
  { m with axes := putBuckets m.axes e.1 ((m.buckets e.1).insert e.2.folded b) }

/-- Takes a group out of the bucket of a value; an empty bucket is dropped. When the group that
labels the bucket leaves, the earliest one left labels it. -/
def unlink (m : FacetModel) (id : GroupId) (e : FacetEntry) : FacetModel :=
  match m.bucket? e.1 e.2 with
  | none => m
  | some b =>
    let groups : SortedSet GroupId := b.groups.erase id
    match groups.toList with
    | [] => { m with axes := putBuckets m.axes e.1 ((m.buckets e.1).erase e.2.folded) }
    | next :: _ =>
      let b : FacetBucket :=
        if b.labelledBy = id then ⟨(m.spelling? next e.1 e.2.folded).getD b.label, next, groups⟩
        else { b with groups }
      { m with axes := putBuckets m.axes e.1 ((m.buckets e.1).insert e.2.folded b) }

/-! ### Recording groups -/

/-- The entries recorded of a group. -/
def recorded (m : FacetModel) (id : GroupId) : List FacetEntry :=
  (m.indexed.find? id).getD []

/-- Records other entries for a group, with the links that this removes and adds. -/
def replace (m : FacetModel) (id : GroupId) (entries : List FacetEntry) : FacetModel :=
  let previous := m.recorded id
  let m := { m with indexed := m.indexed.erase id }
  let m := (previous.filter (!entries.contains ·)).foldl (fun m e => m.unlink id e) m
  let m := (entries.filter (!previous.contains ·)).foldl (fun m e => m.link id e) m
  { m with indexed := m.indexed.insert id entries }

/-- Whether recording these entries would change what is recorded of a group. -/
def differs (m : FacetModel) (id : GroupId) (entries : List FacetEntry) : Bool :=
  let previous := m.recorded id
  previous.length != entries.length || previous.any (!entries.contains ·)

/-- Whether a group is indexed. -/
def contains (m : FacetModel) (id : GroupId) : Bool :=
  m.indexed.contains id

/-- Records a group as it is now. -/
def add (m : FacetModel) (g : Group) : FacetModel :=
  m.replace g.id (g.facetEntries m.registry)

/-- Forgets a group. -/
def remove (m : FacetModel) (id : GroupId) : FacetModel :=
  let previous := m.recorded id
  previous.foldl (fun m e => m.unlink id e) { m with indexed := m.indexed.erase id }

/-- The entries of a group with one property read anew. -/
def withProperty (m : FacetModel) (g : Group) (p : Property) : List FacetEntry :=
  (m.recorded g.id).filter (·.1 != .property p) ++
    ((p.valueOf? g).map (.property p, ·)).toList

/-- Reads one property of a group anew if the group is indexed, and tells whether its record
changed. -/
def updateProperty (m : FacetModel) (g : Group) (p : Property) : FacetModel × Bool :=
  if m.contains g.id then
    let entries := m.withProperty g p
    (m.replace g.id entries, m.differs g.id entries)
  else (m, false)

/-- Reads a group anew if it is indexed, and tells whether its record changed. -/
def refresh (m : FacetModel) (g : Group) : FacetModel × Bool :=
  if m.contains g.id then (m.add g, m.differs g.id (g.facetEntries m.registry)) else (m, false)

/-- Forgets every group. -/
def clear (m : FacetModel) : FacetModel :=
  empty m.registry

/-! ### Questions -/

/-- The number of indexed groups. -/
def size (m : FacetModel) : Nat :=
  m.indexed.size

/-- The axes on which some group has a value. -/
def axisOptions (m : FacetModel) : List Axis :=
  m.axes.keys

/-- The values on an axis, each with the number of groups that carry it. -/
def values (m : FacetModel) (axis : Axis) : List (FacetValue × Nat) :=
  (m.buckets axis).values.map fun b => (b.label, b.groups.size)

/-- The groups that carry a value on an axis, if there are any. -/
def groupsFor? (m : FacetModel) (axis : Axis) (value : FacetValue) : Option (SortedSet GroupId) :=
  (m.bucket? axis value).map (·.groups)

/-- The values on the axis `child` among the groups that carry `value` on the axis `parent`, each
with the number of those groups. -/
def intersection (m : FacetModel) (parent : Axis) (value : FacetValue) (child : Axis) :
    List (FacetValue × Nat) :=
  match m.groupsFor? parent value with
  | none => []
  | some selected =>
    (m.buckets child).values.filterMap fun b =>
      let count := (b.groups.toList.filter selected.contains).length
      if count == 0 then none else some (b.label, count)

end FacetModel

end PeerSearch
