import PeerSearch.Group
import PeerSearch.SizeIndex

/-!
# PeerSearch.GroupIndex -- placing results into groups

An index takes valid results one by one and places each into a group: results with a content hash by
an exact map from hash and extension, the others through the size index. Groups stand in the order
of their creation. Grouping can be switched off and on; while it is off, every result starts a group
of its own.
-/

namespace PeerSearch

/-! ## Keys of hashed groups -/

/-- What hashed groups are found by. -/
structure HashKey where
  hash : ContentHash
  extension : String
  deriving DecidableEq

namespace HashKey

/-- The key of a fingerprint with a content hash. -/
def ofFingerprint? (f : Fingerprint) : Option HashKey :=
  f.hash.map fun hash => ⟨hash, f.extension⟩

/-- The texts by which keys are ordered. -/
def texts (k : HashKey) : String × String :=
  (k.hash.urn, k.extension)

instance : Ord HashKey where
  compare a b := comparePairs a.texts b.texts

instance : Std.TransOrd HashKey :=
  transOrd_of_key comparePairs texts fun _ _ => rfl

instance : Std.LawfulEqOrd HashKey :=
  lawfulEqOrd_of_key comparePairs texts (fun _ _ => rfl) fun a b h => by
    cases a
    cases b
    obtain ⟨h, rfl⟩ := Prod.mk.inj h
    cases ContentHash.urn_injective h
    rfl

end HashKey

/-! ## The index -/

/-- Groups of one search, and what is needed to find the group that a result belongs to. -/
structure GroupIndex where
  /-- The groups in the order of their creation. -/
  groups : List Group
  /-- Which group is found by a hash and an extension. -/
  byHash : SortedMap HashKey GroupId
  /-- The groups whose canonical member has no hash. -/
  bySize : SizeIndex
  /-- Which group an accepted result is in. -/
  membership : SortedMap ResultId GroupId
  /-- Whether results are grouped from now on. -/
  grouping : Bool
  nextGroup : Nat
  nextResult : Nat
  deriving DecidableEq

/-- Where an accepted result ended up. -/
structure Placement where
  result : ResultId
  group : GroupId
  /-- Whether the result started the group. -/
  created : Bool
  deriving DecidableEq, Repr

/-- A result taken back out of an index. -/
structure Detached where
  result : SearchResult
  group : GroupId
  /-- Whether the group lost its last member and is gone. -/
  groupRemoved : Bool
  deriving DecidableEq

namespace GroupIndex

/-- An index without results. -/
def empty (grouping : Bool) : GroupIndex where
  groups := []
  byHash := ∅
  bySize := .empty
  membership := ∅
  grouping := grouping
  nextGroup := 0
  nextResult := 0

/-! ### Looking up -/

/-- The group of that name. -/
def group? (ix : GroupIndex) (id : GroupId) : Option Group :=
  ix.groups.find? (·.id == id)

/-- The group that an accepted result is in. -/
def groupOf? (ix : GroupIndex) (id : ResultId) : Option GroupId :=
  ix.membership.find? id

def contains (ix : GroupIndex) (id : GroupId) : Bool :=
  ix.groups.any (·.id == id)

/-- The number of accepted results. -/
def resultCount (ix : GroupIndex) : Nat :=
  ix.membership.size

/-- The group found by a hash and an extension in whatever case. -/
def lookupHash? (ix : GroupIndex) (hash : ContentHash) (extension : String) : Option GroupId :=
  ix.byHash.find? ⟨hash, Text.lower extension⟩

/-- The group found by comparing sizes and names. -/
def lookupSimilar? (ix : GroupIndex) (f : Fingerprint) : Option GroupId :=
  ix.bySize.find? f

/-- The group that a result with this fingerprint belongs to. -/
def lookup? (ix : GroupIndex) (f : Fingerprint) : Option GroupId :=
  match HashKey.ofFingerprint? f with
  | some key => ix.byHash.find? key
  | none => ix.lookupSimilar? f

/-! ### Registration -/

/-- Makes a group findable under a fingerprint. The first group under a hash key keeps it. -/
def register (ix : GroupIndex) (id : GroupId) (f : Fingerprint) : GroupIndex :=
  match HashKey.ofFingerprint? f with
  | some key => { ix with byHash := ix.byHash.insertIfNew key id }
  | none => { ix with bySize := ix.bySize.add id f }

/-- Makes a group no longer findable under a fingerprint. A hash key held by another group stays. -/
def unregister (ix : GroupIndex) (id : GroupId) (f : Fingerprint) : GroupIndex :=
  match HashKey.ofFingerprint? f with
  | some key =>
    if ix.byHash.find? key = some id then { ix with byHash := ix.byHash.erase key } else ix
  | none => { ix with bySize := ix.bySize.remove id f.size }

/-- The fingerprint that a group is registered under. -/
def fingerprintOf (g : Group) : Fingerprint :=
  .ofResult g.canonical.result

/-! ### Changes -/

/-- Switches grouping for results inserted from now on. -/
def setGrouping (ix : GroupIndex) (grouping : Bool) : GroupIndex :=
  { ix with grouping }

/-- Replaces the group of the same name. -/
def putGroup (ix : GroupIndex) (g : Group) : GroupIndex :=
  { ix with groups := ix.groups.map fun h => if h.id = g.id then g else h }

/-- Drops a group from the list of groups. -/
def dropGroup (ix : GroupIndex) (id : GroupId) : GroupIndex :=
  { ix with groups := ix.groups.filter (·.id != id) }

/-- The existing group that a result with this fingerprint joins. -/
def home? (ix : GroupIndex) (f : Fingerprint) : Option Group :=
  if ix.grouping then (ix.lookup? f).bind ix.group? else none

/-- Places a valid result: into the group that it belongs to, or into a new one. -/
def place (ix : GroupIndex) (r : SearchResult) : GroupIndex × Placement :=
  let f := Fingerprint.ofResult r
  let m : Member := ⟨⟨ix.nextResult⟩, r⟩
  let ix' := { ix with nextResult := ix.nextResult + 1 }
  match ix.home? f with
  | some g =>
    ({ ix'.putGroup (g.push m) with membership := ix.membership.insert m.id g.id },
      ⟨m.id, g.id, false⟩)
  | none =>
    let id : GroupId := ⟨ix.nextGroup⟩
    let ix' := ix'.register id f
    ({ ix' with
        groups := ix.groups ++ [.single id m]
        membership := ix.membership.insert m.id id
        nextGroup := ix.nextGroup + 1 },
      ⟨m.id, id, true⟩)

/-- Takes a result in unless there is a reason to refuse it. -/
def insert (ix : GroupIndex) (r : SearchResult) :
    Except SearchResult.Refusal (GroupIndex × Placement) :=
  match r.refusal? with
  | some refusal => .error refusal
  | none => .ok (ix.place r)

/-- Takes an accepted result back out; a group without members is dropped. When the canonical member
leaves, the group is registered anew under the next one. -/
def remove (ix : GroupIndex) (id : ResultId) : GroupIndex × Option Detached :=
  match ix.groupOf? id with
  | none => (ix, none)
  | some groupId =>
    let ix' := { ix with membership := ix.membership.erase id }
    match ix.group? groupId with
    | none => (ix', none)
    | some g =>
      match g.result? id, g.detach? id with
      | none, _ => (ix', none)
      | some r, none =>
        ((ix'.unregister groupId (fingerprintOf g)).dropGroup groupId,
          some ⟨r, groupId, true⟩)
      | some r, some g' =>
        let ix' := ix'.putGroup g'
        let ix' :=
          if g.canonical.id = id then
            (ix'.unregister groupId (fingerprintOf g)).register groupId (fingerprintOf g')
          else ix'
        (ix', some ⟨r, groupId, false⟩)

/-- Drops a whole group with its results. -/
def removeGroup (ix : GroupIndex) (id : GroupId) : GroupIndex × Option Group :=
  match ix.group? id with
  | none => (ix, none)
  | some g =>
    let ix' := (ix.dropGroup id).unregister id (fingerprintOf g)
    ({ ix' with
        membership := g.members.foldl (fun m member => m.erase member.id) ix.membership },
      some g)

/-- Forgets every result. Identifiers already handed out are not used again. -/
def clear (ix : GroupIndex) : GroupIndex :=
  { empty ix.grouping with nextGroup := ix.nextGroup, nextResult := ix.nextResult }

end GroupIndex

end PeerSearch
