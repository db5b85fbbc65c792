import PeerSearch.Json.Printer
import PeerSearch.Report.Basic

/-!
# PeerSearch.Report.Record -- reports as a JSON document

The members of every object stand in the order of their names.
-/

namespace PeerSearch

/-- The record of a row. -/
def RowReport.toJson (r : RowReport) : Json :=
  .ofMembers
    [("hash", .ofOption (fun h => .ofText h.urn) r.hash), ("name", .ofText r.name),
      ("quality", .ofText r.quality.name), ("size", .ofNat r.size), ("sources", .ofNat r.sources),
      ("spam_score", .number (.ofSingle r.spamScore)), ("speed", .ofText r.speedClass.label),
      ("vendor", .ofText r.vendor)]

namespace SearchReport

/-- The record of a search. -/
def toJson (r : SearchReport) : Json :=
  .ofMembers
    [("filtered_sources", .ofNat r.filteredSources), ("groups", .ofNat r.groupCount),
      ("hidden_rows", .ofNat r.hiddenRows), ("hidden_sources", .ofNat r.hiddenSources),
      ("query", .ofText r.query), ("rejected", .array (r.rejected.map Json.ofText)),
      ("rows", .array (r.rows.map RowReport.toJson)), ("total_sources", .ofNat r.totalSources)]

/-- The document of several searches. -/
def document (reports : List SearchReport) : Json :=
  .ofMembers [("searches", .array (reports.map toJson))]

end SearchReport

end PeerSearch
