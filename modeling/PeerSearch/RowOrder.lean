import PeerSearch.Junk
import PeerSearch.KeyOrder
import PeerSearch.Text.LowerCase

/-!
# PeerSearch.RowOrder -- the order of the rows of a table

Sponsored groups stand first and, where junk sinks, junk stands last. Between them the rows follow a
sort key in one direction; without a key, or where it ties, rows keep the order that they have.
-/

namespace PeerSearch

/-! ## Sort keys -/

/-- A column that rows can be sorted by. -/
inductive SortKey where
  | quality
  /-- Number of sources, privileged groups being above any number. -/
  | count
  | name
  | size
  | speed
  | date
  | vendor
  | spam
  deriving DecidableEq, Repr

namespace SortKey

/-- Every key, in order. -/
def all : List SortKey := [quality, count, name, size, speed, date, vendor, spam]

def label : SortKey → String
  | quality => "quality"
  | count => "count"
  | name => "name"
  | size => "size"
  | speed => "speed"
  | date => "date"
  | vendor => "vendor"
  | spam => "spam"

/-- The key of that label. -/
def ofLabel? (label : String) : Option SortKey :=
  all.find? fun k => k.label == label

/-- Reads a key that a user wrote: a label in any ASCII case, with white space around it, or one of
two other words for quality and count. -/
def read? (value : String) : Option SortKey :=
  let word := Text.asciiLower (Text.trim value)
  if word == "relevance" then some quality
  else if word == "sources" then some count
  else ofLabel? word

/-- The complaint about a text that is no sort key. -/
def unknownMessage (value : String) : String :=
  "unknown sort key '" ++ value ++ "'"

/-- Rank of a group by its sources: the tier first, and among ordinary groups the number. -/
def countRank (g : Group) : Nat × Nat :=
  match g.tier with
  | .ordinary => (Tier.ordinary.rank, g.sourceCount)
  | tier => (tier.rank, 0)

/-- Compares two groups by the key alone. -/
def compareGroups (k : SortKey) (g h : Group) : Ordering :=
  match k with
  | quality => compare g.summary.quality.rank h.summary.quality.rank
  | count =>
    (comparePairs (countRank g) (countRank h)).then
      (compare g.summary.quality.rank h.summary.quality.rank)
  | name => compare (Text.lower g.fileName) (Text.lower h.fileName)
  | size => compare g.size h.size
  | speed => compare g.summary.speed h.summary.speed
  | date => compare g.summary.createdAt h.summary.createdAt
  | vendor => compare g.vendor h.vendor
  | spam => g.spamScore.totalCompare h.spamScore

end SortKey

/-! ## Directions -/

/-- Direction of a sort. -/
inductive SortDirection where
  | ascending
  | descending
  deriving DecidableEq, Repr

namespace SortDirection

def label : SortDirection → String
  | ascending => "ascending"
  | descending => "descending"

/-- The direction of that label. -/
def ofLabel? (label : String) : Option SortDirection :=
  [ascending, descending].find? fun d => d.label == label

/-- The comparison in this direction. -/
def apply (d : SortDirection) (o : Ordering) : Ordering :=
  match d with
  | ascending => o
  | descending => o.swap

end SortDirection

/-- A sort key with its direction. -/
structure SortOrder where
  key : SortKey
  direction : SortDirection
  deriving DecidableEq, Repr

/-! ## Rows -/

/-- The order of the rows: a sort order, if one is set, and the classifier of the junk that sinks,
if any does. -/
structure RowOrder where
  sort : Option SortOrder
  sink : Option JunkFilter
  deriving DecidableEq

namespace RowOrder

/-- Compares two rows. -/
def compareGroups (o : RowOrder) (g h : Group) : Ordering :=
  (compare h.isPromoted.toNat g.isPromoted.toNat).then
    ((match o.sink with
      | some junk => compare (junk.isJunk g).toNat (junk.isJunk h).toNat
      | none => .eq).then
    (match o.sort with
      | some order => order.direction.apply (order.key.compareGroups g h)
      | none => .eq))

/-- Whether `g` may stand above `h`. -/
def allowsAbove (o : RowOrder) (g h : Group) : Bool :=
  o.compareGroups g h != .gt

/-- The groups sorted by the order; rows that tie keep their order. -/
def sorted (o : RowOrder) (groups : List Group) : List Group :=
  groups.mergeSort o.allowsAbove

end RowOrder

end PeerSearch
