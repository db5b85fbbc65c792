import PeerSearch.Identifier
import PeerSearch.Media
import PeerSearch.SearchResult

/-!
# PeerSearch.Group -- results that describe one file

A group is one row of a table. Its first member, the canonical one, gives the row its name, size and
vendor; the rest of what the row shows sums up all members and is kept current as they come and go.
A group without members does not exist.
-/

namespace PeerSearch

/-- An accepted result under its identifier. -/
structure Member where
  id : ResultId
  result : SearchResult
  deriving DecidableEq

/-! ## What the members amount to -/

/-- What a group shows of all its members together. -/
structure Summary where
  /-- Addresses of the hosts that reported the file. -/
  sources : SortedSet String
  /-- The fastest advertised speed, and whether the first host to attain it measured it. -/
  speed : Nat
  measuredSpeed : Bool
  /-- The best rating. -/
  quality : Quality
  /-- The worst spam score. -/
  spamScore : Binary32
  secure : Bool
  multicast : Bool
  /-- The earliest known creation time. -/
  createdAt : Option Int
  /-- The first document that carries anything. -/
  document : Option Document
  deriving DecidableEq

namespace Summary

/-- The document of a result, unless it is empty. -/
def documentOf (r : SearchResult) : Option Document :=
  r.document.filter fun d => !d.isEmpty

/-- The earlier of two times that may be unknown. -/
def earlier : Option Int → Option Int → Option Int
  | some s, some t => some (min s t)
  | some s, none => some s
  | none, t => t

/-- The sources with that of a result, if it names one. -/
def withSource (sources : SortedSet String) (r : SearchResult) : SortedSet String :=
  match r.source with
  | some host => sources.add host
  | none => sources

/-- What a single member amounts to. -/
def ofResult (r : SearchResult) : Summary where
  sources := withSource ∅ r
  speed := r.speed
  measuredSpeed := r.measuredSpeed
  quality := r.quality
  spamScore := r.spamScore
  secure := r.secure
  multicast := r.kind == .multicast
  createdAt := r.creationTime
  document := documentOf r

/-- Takes one more member into account. -/
def absorb (s : Summary) (r : SearchResult) : Summary where
  sources := withSource s.sources r
  speed := if s.speed < r.speed then r.speed else s.speed
  measuredSpeed := if s.speed < r.speed then r.measuredSpeed else s.measuredSpeed
  quality := s.quality.better r.quality
  spamScore := s.spamScore.larger r.spamScore
  secure := s.secure || r.secure
  multicast := s.multicast || r.kind == .multicast
  createdAt := earlier s.createdAt r.creationTime
  document := s.document.or (documentOf r)

/-- What a first member and the ones after it amount to. -/
def ofMembers (first : Member) (others : List Member) : Summary :=
  others.foldl (fun s m => s.absorb m.result) (ofResult first.result)

end Summary

/-! ## Groups -/

/-- Privilege of a group. -/
inductive Tier where
  | ordinary
  | multicast
  | secure
  | promoted
  deriving DecidableEq, Repr

namespace Tier

def name : Tier → String
  | ordinary => "ordinary"
  | multicast => "multicast"
  | secure => "secure"
  | promoted => "promoted"

/-- Place of the tier in the order, from lowest to highest. -/
def rank : Tier → Nat
  | ordinary => 0
  | multicast => 1
  | secure => 2
  | promoted => 3

end Tier

/-- Results that describe one file, shown as one row. -/
structure Group where
  id : GroupId
  /-- The member that the row is named after. -/
  canonical : Member
  others : List Member
  summary : Summary
  /-- The user's verdict on whether the group is junk. -/
  userJunk : Option Bool
  deriving DecidableEq

namespace Group

/-! ### Members come and go -/

/-- The group of a single result. -/
def single (id : GroupId) (m : Member) : Group :=
  ⟨id, m, [], .ofResult m.result, none⟩

/-- All members, the canonical one first. -/
def members (g : Group) : List Member :=
  g.canonical :: g.others

/-- The group with one more member. -/
def push (g : Group) (m : Member) : Group :=
  { g with others := g.others ++ [m], summary := g.summary.absorb m.result }

/-- The group with these members instead, the verdict being kept; no members leave no group. -/
def withMembers? (g : Group) : List Member → Option Group
  | [] => none
  | m :: rest => some { g with canonical := m, others := rest, summary := .ofMembers m rest }

/-- The result that a member stands for. -/
def result? (g : Group) (id : ResultId) : Option SearchResult :=
  (g.members.find? (·.id == id)).map (·.result)

/-- What is left of the group without a member. -/
def detach? (g : Group) (id : ResultId) : Option Group :=
  g.withMembers? (g.members.eraseP (·.id == id))

/-- The group with the user's verdict. -/
def mark (g : Group) (junk : Bool) : Group :=
  { g with userJunk := some junk }

/-! ### What a row shows -/

def fileName (g : Group) : String := g.canonical.result.fileName

def extension (g : Group) : String := g.canonical.result.extension

def size (g : Group) : Nat := g.canonical.result.size

def hash (g : Group) : Option ContentHash := g.canonical.result.hash

def vendor (g : Group) : String := g.canonical.result.vendor

/-- Number of results in the group. -/
def sourceCount (g : Group) : Nat := g.others.length + 1

def speedClass (g : Group) : SpeedClass := .ofKbps g.summary.speed

/-- Whether the group is sponsored, as its canonical member says. -/
def isPromoted (g : Group) : Bool := g.canonical.result.kind == .promoted

/-- The highest privilege that the group has. -/
def tier (g : Group) : Tier :=
  if g.isPromoted then .promoted
  else if g.summary.secure then .secure
  else if g.summary.multicast then .multicast
  else .ordinary

/-- Spam rating of the group: the user's verdict if there is one, the worst score of a member
otherwise. -/
def spamScore (g : Group) : Binary32 :=
  match g.userJunk with
  | some true => .one
  | some false => .zero
  | none => g.summary.spamScore

/-- Media family of the group: that of its document's schema, else that of its extension. -/
def mediaType (g : Group) (registry : Registry) : MediaType :=
  match g.summary.document with
  | some d => MediaType.ofSchema d.schema
  | none => registry.ofExtension g.extension

end Group

end PeerSearch
