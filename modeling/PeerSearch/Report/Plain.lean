import PeerSearch.Report.Basic
import PeerSearch.Text.Column

/-!
# PeerSearch.Report.Plain -- reports as text

Each search is a heading, a line for each row, and a line for each thing that was left out. Columns
line up in a terminal: names are cut or filled to a fixed number of columns, numbers stand to the
right of theirs.
-/

namespace PeerSearch

/-- Columns for the name of a row. -/
def RowReport.nameColumns : Nat := 48

/-- Columns for the size of a row. -/
def RowReport.sizeColumns : Nat := 12

/-- Columns for the number of sources of a row. -/
def RowReport.sourceColumns : Nat := 4

/-- Columns for the quality of a row. -/
def RowReport.qualityColumns : Nat := 9

/-- Columns for the speed of a row. -/
def RowReport.speedColumns : Nat := 12

/-- A text cut or filled to a number of columns. -/
def fitColumns (columns : Nat) (s : String) : String :=
  String.ofList (Text.padTo columns (Text.cutTo columns s.toList))

/-- A text filled up to a number of columns. -/
def fillColumns (columns : Nat) (s : String) : String :=
  String.ofList (Text.padTo columns s.toList)

/-- A number on the right of its columns. -/
def rightAligned (columns n : Nat) : String :=
  let digits := (toString n).toList
  String.ofList (List.replicate (columns - digits.length) ' ' ++ digits)

/-- The line of a row. -/
def RowReport.text (r : RowReport) : String :=
  "  " ++ fitColumns nameColumns r.name ++ "  " ++ rightAligned sizeColumns r.size ++ "  " ++
    rightAligned sourceColumns r.sources ++ "  " ++ fillColumns qualityColumns r.quality.name ++
    "  " ++ fillColumns speedColumns r.speedClass.label ++ "  " ++ r.vendor

namespace SearchReport

/-- The first line of a report. -/
def heading (r : SearchReport) : String :=
  "Search '" ++ r.query ++ "': " ++ toString r.rows.length ++ " rows shown, " ++
    toString r.hiddenRows ++ " hidden, " ++ toString r.filteredSources ++ " of " ++
    toString r.totalSources ++ " sources visible"

/-- The lines of a report. -/
def lines (r : SearchReport) : List String :=
  [r.heading] ++ (if r.rows.isEmpty then ["  (no results)"] else []) ++
    r.rows.map RowReport.text ++ r.rejected.map ("  skipped " ++ ·)

/-- The lines of several reports, with an empty line between two of them. -/
def allLines (reports : List SearchReport) : List String :=
  [""].intercalate (reports.map lines)

end SearchReport

end PeerSearch
