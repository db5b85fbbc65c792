import PeerSearch.Table.Operations

/-!
# PeerSearch.Table.Command -- what is done to a table, as data

A command is one call of an operation with its arguments; performing it gives the change that the
operation leaves. Of the answers, a run keeps where results were placed. An operation asks the user's
filter at most once about a group, so a filter that changes its mind is one that drifts between
commands.
-/

namespace PeerSearch

/-- One thing that is done to a table. -/
inductive TableCommand where
  | add (result : SearchResult)
  | removeResult (id : ResultId)
  | removeGroup (id : GroupId)
  | removeRow (row : Nat)
  | markJunk (id : GroupId) (junk : Bool)
  | setFilter (filter : Group → Bool)
  | filtersChanged
  /-- What the filter looks at changes, and nobody tells the table. -/
  | driftFilter (filter : Group → Bool)
  | setJunkPolicy (policy : JunkPolicy)
  | setSpamThreshold (threshold : Binary32)
  | setSort (key : SortKey) (direction : SortDirection)
  | clearSort
  | setRealTimeSort (enabled : Bool)
  | setGrouping (grouping : Bool)
  | select (id : GroupId)
  | deselect (id : GroupId)
  | clearSelection
  | takeRejected
  | clear

namespace Table

/-- The change that a command leaves. -/
def perform (t : Table) : TableCommand → Change
  | .add r => (t.add r).change
  | .removeResult id => (t.removeResult id).change
  | .removeGroup id => (t.removeGroup id).change
  | .removeRow row => (t.removeRow row).change
  | .markJunk id junk => (t.markJunk id junk).change
  | .setFilter filter => t.setFilter filter
  | .filtersChanged => t.filtersChanged
  | .driftFilter filter => (t.driftFilter filter).quietly
  | .setJunkPolicy policy => t.setJunkPolicy policy
  | .setSpamThreshold threshold => t.setSpamThreshold threshold
  | .setSort key direction => t.setSort key direction
  | .clearSort => t.clearSort
  | .setRealTimeSort enabled => (t.setRealTimeSort enabled).quietly
  | .setGrouping grouping => (t.setGrouping grouping).quietly
  | .select id => (t.select id).1.quietly
  | .deselect id => (t.deselect id).1.quietly
  | .clearSelection => t.clearSelection.quietly
  | .takeRejected => t.takeRejected.1.quietly
  | .clear => t.clear

/-- The table after some commands, the earliest first. -/
def after (t : Table) (commands : List TableCommand) : Table :=
  commands.foldl (fun t c => (t.perform c).table) t

/-- Where a command says that its result was placed; a refused result is placed nowhere. -/
def placedBy (t : Table) : TableCommand → List (Option Placement)
  | .add r => [(t.add r).answer]
  | _ => []

/-- Where some commands say that their results were placed, the earliest first. -/
def placements (t : Table) : List TableCommand → List (Option Placement)
  | [] => []
  | c :: rest => t.placedBy c ++ (t.perform c).table.placements rest

end Table

end PeerSearch
