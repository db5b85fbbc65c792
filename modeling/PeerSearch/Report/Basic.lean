import PeerSearch.Desk
import PeerSearch.Recording

/-!
# PeerSearch.Report.Basic -- what is reported of a search

A report is a snapshot of a table: its first visible rows, its counts, and what was not taken into
it. Bad lines of the recording come before results that the table refused.
-/

namespace PeerSearch

/-- What is reported of a group. -/
structure RowReport where
  name : String
  size : Nat
  sources : Nat
  quality : Quality
  speedClass : SpeedClass
  vendor : String
  spamScore : Binary32
  hash : Option ContentHash
  deriving DecidableEq

def RowReport.ofGroup (g : Group) : RowReport where
  name := g.fileName
  size := g.size
  sources := g.sourceCount
  quality := g.summary.quality
  speedClass := g.speedClass
  vendor := g.vendor
  spamScore := g.spamScore
  hash := g.hash

/-- What is reported of a search. -/
structure SearchReport where
  query : String
  rows : List RowReport
  groupCount : Nat
  hiddenRows : Nat
  totalSources : Nat
  filteredSources : Nat
  hiddenSources : Nat
  /-- Bad lines and refused results, in words. -/
  rejected : List String
  deriving DecidableEq

/-- The report of a refused result. -/
def Rejected.text (r : Rejected) : String :=
  r.result.fileName ++ ": " ++ r.refusal.message

namespace SearchReport

/-- The first items of a list, all of them without a limit. -/
def firstOf {α : Type} : Option Nat → List α → List α
  | some limit, l => l.take limit
  | none, l => l

/-- The report of a table for a query, with at most `limit` rows, after the bad lines of the
recording. -/
def ofTable (wording : Wording) (query : String) (limit : Option Nat) (badLines : List BadLine)
    (t : Table) : SearchReport where
  query
  rows := firstOf limit (t.visibleGroups.map RowReport.ofGroup)
  groupCount := t.index.groups.length
  hiddenRows := t.hidden.length
  totalSources := t.totalSources
  filteredSources := t.filteredSources
  hiddenSources := t.hiddenSources
  rejected := badLines.map (BadLine.text wording) ++ t.rejected.map Rejected.text

end SearchReport

end PeerSearch
