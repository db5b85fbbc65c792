import PeerSearch.RowOrder
import PeerSearch.Settings.Value

/-!
# PeerSearch.Settings.Raw -- settings before they are checked

What layers of settings say, each value read as its kind but not yet checked. Values given on the
command line are put over it; they have been checked already and go through their labels.
-/

namespace PeerSearch

/-- Unchecked settings; what no layer gives is absent. -/
structure RawSettings where
  groupResults : Option Bool := none
  junkPolicy : Option String := none
  spamThreshold : Option Binary32 := none
  realTimeSort : Option Bool := none
  sort : Option String := none
  descending : Option Bool := none
  maxSearches : Option Nat := none
  extensions : Option (List String) := none
  vendor : Option String := none
  limit : Option Nat := none
  deriving DecidableEq

/-- Settings given on the command line. -/
structure Overrides where
  groupResults : Option Bool := none
  junkPolicy : Option JunkPolicy := none
  spamThreshold : Option Binary32 := none
  realTimeSort : Option Bool := none
  sort : Option SortKey := none
  descending : Option Bool := none
  maxSearches : Option Nat := none
  extensions : Option (List String) := none
  vendor : Option String := none
  limit : Option Nat := none
  deriving DecidableEq

namespace RawSettings

/-! ## Reading layers -/

/-- A value of a section, `none` when it cannot be read as its kind. -/
def value? {α : Type} (read : SettingValue → Option α) (s : SettingSection) (name : String) :
    Option (Option α) :=
  match s.lookup name with
  | none => some none
  | some .absent => some none
  | some v => (read v).map some

/-- The names of the settings in the section for tables, in order. -/
def panelNames : List String :=
  ["group_results", "junk_policy", "spam_threshold", "real_time_sort", "sort", "descending",
    "max_searches"]

/-- The names of the settings in the section for filters, in order. -/
def filterNames : List String := ["extensions", "vendor"]

/-- The names of the settings in the section for output, in order. -/
def outputNames : List String := ["limit"]

/-- The sections with the names of their settings. -/
def sections : List (String × List String) :=
  [("panel", panelNames), ("filter", filterNames), ("output", outputNames)]

/-- A section, also as a list of its settings in their order; `none` when the value of that name is
neither. -/
def section? (s : SettingSection) (name : String) (settings : List String) :
    Option SettingSection :=
  match s.lookup name with
  | none => some []
  | some (.part members) => some members
  | some (.list items) => some (settings.zip items)
  | some _ => none

/-- The settings of the combined layers; `none` when a value is of the wrong kind. -/
def ofLayers? (s : SettingSection) : Option RawSettings := do
  let panel ← section? s "panel" panelNames
  let filter ← section? s "filter" filterNames
  let output ← section? s "output" outputNames
  return {
    groupResults := ← value? SettingValue.flag? panel "group_results"
    junkPolicy := ← value? SettingValue.text? panel "junk_policy"
    spamThreshold := ← value? SettingValue.single? panel "spam_threshold"
    realTimeSort := ← value? SettingValue.flag? panel "real_time_sort"
    sort := ← value? SettingValue.text? panel "sort"
    descending := ← value? SettingValue.flag? panel "descending"
    maxSearches := ← value? SettingValue.nat64? panel "max_searches"
    extensions := ← value? SettingValue.texts? filter "extensions"
    vendor := ← value? SettingValue.text? filter "vendor"
    limit := ← value? SettingValue.nat64? output "limit" }

/-! ## The command line -/

/-- The settings with those of the command line over them. -/
def override (r : RawSettings) (o : Overrides) : RawSettings where
  groupResults := o.groupResults.or r.groupResults
  junkPolicy := (o.junkPolicy.map JunkPolicy.label).or r.junkPolicy
  spamThreshold := o.spamThreshold.or r.spamThreshold
  realTimeSort := o.realTimeSort.or r.realTimeSort
  sort := (o.sort.map SortKey.label).or r.sort
  descending := o.descending.or r.descending
  maxSearches := o.maxSearches.or r.maxSearches
  extensions := o.extensions.or r.extensions
  vendor := o.vendor.or r.vendor
  limit := o.limit.or r.limit

end RawSettings

end PeerSearch
