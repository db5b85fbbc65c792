import PeerSearch.Table.Placement

/-!
# PeerSearch.Table.Operations -- what can be done to a table

Results are added and removed one by one, and the events say which row has changed. Changing a
filter or the treatment of junk decides over every group anew, and sorting moves any number of rows;
after that the event is a reset.
-/

namespace PeerSearch

/-- The outcome of an operation that answers something: the change, and the answer. -/
structure Answered (α : Type) where
  change : Change
  answer : α

namespace Table

/-- The outcome of an operation that is ignored. -/
def ignored (t : Table) : Answered Bool :=
  ⟨t.quietly, false⟩

/-! ## Adding -/

/-- Counts one more source for a group that the table has placed. -/
def countSource (t : Table) (id : GroupId) : Table :=
  match t.slot? id with
  | some (.visible _) => { t with filteredSources := t.filteredSources + 1 }
  | some .hidden => { t with hiddenSources := t.hiddenSources + 1 }
  | none => t

/-- Puts a refused result aside. -/
def reject (t : Table) (refused : Rejected) : Table :=
  { t with rejected := t.rejected ++ [refused] }

/-- Takes a result from the network. A result that is not fit for the table is put aside; one that
only the index refuses is lost. -/
def add (t : Table) (r : SearchResult) : Answered (Option Placement) :=
  match r.refusal? with
  | some refusal => ⟨(t.reject ⟨r, refusal⟩).quietly, none⟩
  | none =>
    match t.index.insert r with
    | .error _ => ⟨t.quietly, none⟩
    | .ok (index, placement) =>
      let t' := { t with index }
      let change :=
        if placement.created then
          match t'.group? placement.group with
          | some g => t'.placeNew g
          | none => t'.quietly
        else (t'.countSource placement.group).settleId placement.group
      ⟨change, some placement⟩

/-- The refused results, which the table then forgets. -/
def takeRejected (t : Table) : Table × List Rejected :=
  ({ t with rejected := [] }, t.rejected)

/-! ## Removing -/

/-- Takes a group that is gone from the index out of the rows or the hidden groups, where it counted
`count` sources. -/
def dropFromView (t : Table) (id : GroupId) (slot : Option Slot) (count : Nat) : Change :=
  let t' := { t with facets := t.facets.remove id, selection := t.selection.erase id }
  match slot with
  | some (.visible row) =>
    ⟨{ t' with rows := t.rows.eraseIdx row, filteredSources := t.filteredSources - count },
      [.removed row id]⟩
  | some .hidden =>
    { t' with hidden := t.hidden.erase id, hiddenSources := t.hiddenSources - count }.quietly
  | none => t'.quietly

/-- Counts one source less for a group in a slot. -/
def discountSource (t : Table) (slot : Option Slot) : Table :=
  match slot with
  | some (.visible _) => { t with filteredSources := t.filteredSources - 1 }
  | some .hidden => { t with hiddenSources := t.hiddenSources - 1 }
  | none => t

/-- Takes one result back out. Its group goes when that was its last one. -/
def removeResult (t : Table) (id : ResultId) : Answered Bool :=
  match t.index.groupOf? id with
  | none => t.ignored
  | some groupId =>
    match t.index.remove id with
    | (index, none) => { t with index }.ignored
    | (index, some detached) =>
      let t' := { t with index }
      if detached.groupRemoved then ⟨t'.dropFromView groupId (t.slot? groupId) 1, true⟩
      else ⟨(t'.discountSource (t.slot? groupId)).settleId groupId, true⟩

/-- Removes a whole group. An unknown one is ignored. -/
def removeGroup (t : Table) (id : GroupId) : Answered Bool :=
  match t.slot? id with
  | none => t.ignored
  | some slot =>
    match t.index.removeGroup id with
    | (index, none) => { t with index }.ignored
    | (index, some g) => ⟨{ t with index }.dropFromView id (some slot) g.sourceCount, true⟩

/-- Removes the group shown in a row. A row that does not exist is ignored. -/
def removeRow (t : Table) (row : Nat) : Answered Bool :=
  match t.rows[row]? with
  | some id => t.removeGroup id
  | none => t.ignored

/-- Forgets every result. -/
def clear (t : Table) : Change :=
  ⟨{ t with
      index := t.index.clear
      rows := []
      hidden := []
      selection := ∅
      facets := t.facets.clear
      filteredSources := 0
      hiddenSources := 0 },
    [.reset]⟩

/-! ## Deciding over every group anew -/

/-- The sources of groups together. -/
def sourcesOf (groups : List Group) : Nat :=
  (groups.map Group.sourceCount).foldr (· + ·) 0

/-- Decides over every group anew. The rows are sorted from the order of arrival, and what stays
visible stays selected. -/
def rebuild (t : Table) : Change :=
  let (visible, hidden) := t.index.groups.partition t.shows
  let browsable := t.index.groups.filter fun g => !t.hidesAsJunk g
  ⟨{ t with
      rows := (t.order.sorted visible).map Group.id
      hidden := hidden.map Group.id
      filteredSources := sourcesOf visible
      hiddenSources := sourcesOf hidden
      facets := browsable.foldl FacetModel.add t.facets.clear
      selection := t.selection.keep fun id => !(hidden.map Group.id).contains id },
    [.reset]⟩

/-- Sets the user's filter. -/
def setFilter (t : Table) (filter : Group → Bool) : Change :=
  { t with filter }.rebuild

/-- Follows a change of what the filter looks at. -/
def filtersChanged (t : Table) : Change :=
  t.rebuild

def setJunkPolicy (t : Table) (junkPolicy : JunkPolicy) : Change :=
  if t.junkPolicy = junkPolicy then t.quietly else { t with junkPolicy }.rebuild

/-- Sets the spam rating from which on a group is junk. -/
def setSpamThreshold (t : Table) (threshold : Binary32) : Change :=
  let junk := JunkFilter.ofThreshold threshold
  if t.junk.same junk then t.quietly else { t with junk }.rebuild

/-- Records the user's verdict on a group. -/
def markJunk (t : Table) (id : GroupId) (junk : Bool) : Answered Bool :=
  match t.group? id with
  | none => t.ignored
  | some g =>
    let g := g.mark junk
    ⟨{ t with index := t.index.putGroup g }.settle g, true⟩

/-! ## Sorting -/

/-- Sorts the rows by the order of the table; rows that tie keep their order. -/
def resort (t : Table) : Change :=
  let allowsAbove (a b : GroupId) : Bool :=
    match t.group? a, t.group? b with
    | some g, some h => t.order.allowsAbove g h
    | _, _ => true
  ⟨{ t with rows := t.rows.mergeSort allowsAbove }, [.reset]⟩

/-- Sorts the rows by a key. -/
def setSort (t : Table) (key : SortKey) (direction : SortDirection) : Change :=
  { t with sort := some ⟨key, direction⟩ }.resort

/-- Returns to the order of arrival. -/
def clearSort (t : Table) : Change :=
  { t with
    sort := none
    rows := (t.index.groups.map Group.id).filter t.rows.contains }.resort

/-! ## Settings without effect on the rows there are -/

def setRealTimeSort (t : Table) (realTimeSort : Bool) : Table :=
  { t with realTimeSort }

/-- Switches grouping for results that arrive from now on. -/
def setGrouping (t : Table) (grouping : Bool) : Table :=
  { t with index := t.index.setGrouping grouping }

/-- Gives the user's filter another meaning without deciding over any group; groups that change from
now on are judged by it. -/
def driftFilter (t : Table) (filter : Group → Bool) : Table :=
  { t with filter }

/-! ## Selection -/

/-- Selects a visible group, and tells whether it is visible. -/
def select (t : Table) (id : GroupId) : Table × Bool :=
  match t.rowOf? id with
  | some _ => ({ t with selection := t.selection.add id }, true)
  | none => (t, false)

/-- Takes a group out of the selection, and tells whether it was in it. -/
def deselect (t : Table) (id : GroupId) : Table × Bool :=
  ({ t with selection := t.selection.erase id }, t.isSelected id)

def clearSelection (t : Table) : Table :=
  { t with selection := ∅ }

end Table

end PeerSearch
