import PeerSearch.Facet.Model
import PeerSearch.GroupIndex
import PeerSearch.Options
import PeerSearch.Table.Event

/-!
# PeerSearch.Table.Basic -- the result table of one search

A table groups the results of a search and shows some of the groups as rows. Every group is either a
row or hidden: hidden are the groups that the filter keeps out, and junk where the policy is to hide
it. Hidden groups still count among the sources and come back when a change lets them through. This
module holds the table itself and what can be read off it.
-/

namespace PeerSearch

/-- A result that a table refused, with the reason. -/
structure Rejected where
  result : SearchResult
  refusal : SearchResult.Refusal
  deriving DecidableEq

/-- The grouped, filtered and sorted results of one search. -/
structure Table where
  index : GroupIndex
  /-- The visible groups from top to bottom. -/
  rows : List GroupId
  /-- The hidden groups in the order in which they were hidden. -/
  hidden : List GroupId
  /-- Sources of the visible groups. -/
  filteredSources : Nat
  /-- Sources of the hidden groups. -/
  hiddenSources : Nat
  /-- The user's filter: which groups may be shown. -/
  filter : Group → Bool
  junkPolicy : JunkPolicy
  junk : JunkFilter
  sort : Option SortOrder
  /-- Whether rows move when their groups change. -/
  realTimeSort : Bool
  selection : SortedSet GroupId
  /-- Facets of the groups that are not hidden as junk. -/
  facets : FacetModel
  /-- Refused results that nobody has asked for yet. -/
  rejected : List Rejected

/-- What an operation leaves behind: the table, and the events that tell of the change, in order. -/
structure Change where
  table : Table
  events : List TableEvent

/-- Where a group stands. -/
inductive Slot where
  | visible (row : Nat)
  | hidden
  deriving DecidableEq, Repr

namespace Table

/-! ## Construction -/

/-- A table without results that shows every group. -/
def new (options : Options) (registry : Registry) : Table where
  index := .empty options.groupResults
  rows := []
  hidden := []
  filteredSources := 0
  hiddenSources := 0
  filter _ := true
  junkPolicy := options.junkPolicy
  junk := .ofThreshold options.spamThreshold
  sort := options.sort
  realTimeSort := options.realTimeSort
  selection := ∅
  facets := .empty registry
  rejected := []

/-! ## What decides over a row -/

/-- The order that rows stand in. -/
def order (t : Table) : RowOrder where
  sort := t.sort
  sink := if t.junkPolicy = .sink then some t.junk else none

/-- Whether a group is hidden because it is junk. -/
def hidesAsJunk (t : Table) (g : Group) : Bool :=
  t.junkPolicy == .hide && t.junk.isJunk g

/-- Whether a group may be shown. -/
def shows (t : Table) (g : Group) : Bool :=
  !t.hidesAsJunk g && t.filter g

/-- Whether a group sinks below the others. -/
def sinks (t : Table) (g : Group) : Bool :=
  t.junkPolicy == .sink && t.junk.isJunk g

/-! ## Reading the table -/

/-- The row that a group is shown in. -/
def rowOf? (t : Table) (id : GroupId) : Option Nat :=
  t.rows.findIdx? (· == id)

def isHidden (t : Table) (id : GroupId) : Bool :=
  t.hidden.contains id

/-- Where a group stands, if the table has it. -/
def slot? (t : Table) (id : GroupId) : Option Slot :=
  match t.rowOf? id with
  | some row => some (.visible row)
  | none => if t.isHidden id then some .hidden else none

/-- The group of that name, shown or hidden. -/
def group? (t : Table) (id : GroupId) : Option Group :=
  t.index.group? id

/-- The group shown in a row. -/
def row? (t : Table) (row : Nat) : Option Group :=
  (t.rows[row]?).bind t.group?

/-- The visible groups from top to bottom. -/
def visibleGroups (t : Table) : List Group :=
  t.rows.filterMap t.group?

/-- The hidden groups in the order in which they were hidden. -/
def hiddenGroups (t : Table) : List Group :=
  t.hidden.filterMap t.group?

def isSelected (t : Table) (id : GroupId) : Bool :=
  t.selection.contains id

/-- The selected groups from top to bottom. -/
def selected (t : Table) : List GroupId :=
  t.rows.filter t.isSelected

/-- Sources of all groups, shown or hidden. -/
def totalSources (t : Table) : Nat :=
  t.filteredSources + t.hiddenSources

/-- The table, when nothing that anyone is told of has changed. -/
def quietly (t : Table) : Change :=
  ⟨t, []⟩

end Table

end PeerSearch
