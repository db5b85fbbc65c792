import PeerSearch.Table.Basic

/-!
# PeerSearch.Table.Placement -- where a row goes

A new row goes below every row that does not have to stand below it. Its place is searched for by
halving, which looks at few rows and relies on their order. A row whose group has changed moves
outward from its place: up past the rows that it has to stand above, or else down past those that
have to stand above it. Only that row moves.
-/

namespace PeerSearch

/-! ## Searching by halving -/

/-- Narrows a stretch of `size` items from `base` on down to one: the upper half is kept when its
first item passes the test, the lower half otherwise. -/
def halve {α : Type} (p : α → Bool) (l : List α) (base size : Nat) : Nat :=
  if 1 < size then
    let middle := base + size / 2
    halve p l (if l[middle]?.any p then middle else base) (size - size / 2)
  else base
termination_by size
decreasing_by omega

/-- Where a list whose first items pass a test stops to do so. -/
def partitionPoint {α : Type} (p : α → Bool) (l : List α) : Nat :=
  let last := halve p l 0 l.length
  if l[last]?.any p then last + 1 else last

namespace Table

/-! ## New rows -/

/-- Whether a row may stand above a group. -/
def rowAllowsBelow (t : Table) (g : Group) (id : GroupId) : Bool :=
  match t.group? id with
  | some row => t.order.allowsAbove row g
  | none => true

/-- The row that a group new to the rows goes to: after those that may stand above it. -/
def insertionRow (t : Table) (g : Group) : Nat :=
  partitionPoint (t.rowAllowsBelow g) t.rows

/-- Shows a group that is in no row yet. -/
def showGroup (t : Table) (g : Group) : Change :=
  let row := t.insertionRow g
  ⟨{ t with
      rows := t.rows.insertIdx row g.id
      filteredSources := t.filteredSources + g.sourceCount },
    [.inserted row g.id]⟩

/-! ## Rows that move -/

/-- How a group compares with the group of a row. -/
def comparesTo (t : Table) (g : Group) (outcome : Ordering) (id : GroupId) : Bool :=
  (t.group? id).any fun other => t.order.compareGroups g other == outcome

/-- The row that the group in row `start` belongs to. -/
def destination (t : Table) (g : Group) (start : Nat) : Nat :=
  match ((t.rows.take start).reverse.takeWhile (t.comparesTo g .lt)).length with
  | 0 => start + ((t.rows.drop (start + 1)).takeWhile (t.comparesTo g .gt)).length
  | up => start - up

/-- Moves the group in row `start` to where it belongs. -/
def relocate (t : Table) (g : Group) (start : Nat) : Change :=
  let target := t.destination g start
  if target = start then ⟨t, [.updated start g.id]⟩
  else
    ⟨{ t with rows := (t.rows.eraseIdx start).insertIdx target g.id },
      [.moved start target g.id]⟩

/-! ## Groups that have changed -/

/-- The facets with a group read anew; a group hidden as junk is left out. -/
def refreshFacets (t : Table) (g : Group) : FacetModel :=
  if t.hidesAsJunk g then t.facets.remove g.id else t.facets.add g

/-- Hides the group in a row; it is no longer selected. -/
def hideRow (t : Table) (g : Group) (row : Nat) : Change :=
  ⟨{ t with
      rows := t.rows.eraseIdx row
      hidden := t.hidden ++ [g.id]
      filteredSources := t.filteredSources - g.sourceCount
      hiddenSources := t.hiddenSources + g.sourceCount
      selection := t.selection.erase g.id },
    [.removed row g.id]⟩

/-- Shows a group that was hidden. -/
def unhide (t : Table) (g : Group) : Change :=
  { t with
    hidden := t.hidden.erase g.id
    hiddenSources := t.hiddenSources - g.sourceCount }.showGroup g

/-- Decides anew over a group of the table whose contents have changed. -/
def settle (t : Table) (g : Group) : Change :=
  let t' := { t with facets := t.refreshFacets g }
  match t.slot? g.id, t.shows g with
  | some (.visible row), true =>
    if t.realTimeSort || t.sinks g then t'.relocate g row else ⟨t', [.updated row g.id]⟩
  | some (.visible row), false => t'.hideRow g row
  | some .hidden, true => t'.unhide g
  | _, _ => t'.quietly

/-- Decides anew over the group of that name, if there is one. -/
def settleId (t : Table) (id : GroupId) : Change :=
  match t.group? id with
  | some g => t.settle g
  | none => t.quietly

/-- Decides over a group that the table has not placed yet. -/
def placeNew (t : Table) (g : Group) : Change :=
  if t.hidesAsJunk g then
    { t with
      hidden := t.hidden ++ [g.id]
      hiddenSources := t.hiddenSources + g.sourceCount }.quietly
  else
    let t' := { t with facets := t.facets.add g }
    if t.filter g then t'.showGroup g
    else
      { t' with
        hidden := t.hidden ++ [g.id]
        hiddenSources := t.hiddenSources + g.sourceCount }.quietly

end Table

end PeerSearch
