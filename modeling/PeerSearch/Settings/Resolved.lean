import PeerSearch.Options
import PeerSearch.Settings.Raw

/-!
# PeerSearch.Settings.Resolved -- checked settings

Settings are checked in a fixed order: junk policy, threshold, number of searches, sort key. The
first fault is reported with the setting and its value. Extensions and vendor are cleaned, and a
sort key brings its direction along.
-/

namespace PeerSearch

/-- Settings in effect. -/
structure Settings where
  options : Options
  /-- Extensions to show; none means all. -/
  extensions : List String
  vendor : Option String
  /-- The largest number of rows to show of a search. -/
  limit : Option Nat
  deriving DecidableEq

namespace Settings

/-! ## Faults -/

/-- What is wrong with a setting. -/
inductive Fault where
  | junkPolicy (value : String)
  | spamThreshold (value : Binary32)
  | maxSearches
  | sort (value : String)
  deriving DecidableEq

namespace Fault

/-- The path of the setting. -/
def key : Fault → String
  | junkPolicy _ => "panel.junk_policy"
  | spamThreshold _ => "panel.spam_threshold"
  | maxSearches => "panel.max_searches"
  | sort _ => "panel.sort"

/-- The value that was given. -/
def value : Fault → String
  | junkPolicy value => value
  | spamThreshold value => value.text
  | maxSearches => "0"
  | sort value => value

/-- Why the value does not do. -/
def reason : Fault → String
  | junkPolicy value => JunkPolicy.unknownMessage value
  | spamThreshold _ => "must be between 0 and 1"
  | maxSearches => "at least one search must stay open"
  | sort value => SortKey.unknownMessage value

/-- The fault in words. -/
def message (f : Fault) : String :=
  "invalid value for " ++ f.key ++ ": " ++ f.reason ++ " (value: " ++ f.value ++ ")"

end Fault

/-! ## Cleaning -/

/-- An extension without white space around it, without leading dots, in lower case. -/
def cleanExtension (s : String) : String :=
  Registry.extensionKey s

/-- The cleaned extensions that are not among those `seen`; empty ones are left out and each stands
where it comes first. -/
def sanitizeFrom (seen : List String) : List String → List String
  | [] => []
  | s :: rest =>
    let clean := cleanExtension s
    if clean.isEmpty || seen.contains clean then sanitizeFrom seen rest
    else clean :: sanitizeFrom (clean :: seen) rest

/-- The cleaned extensions, each once. -/
def sanitizeExtensions (extensions : List String) : List String :=
  sanitizeFrom [] extensions

/-- A vendor code without white space around it, unless nothing is left. -/
def cleanVendor (vendor : String) : Option String :=
  let clean := Text.trim vendor
  if clean.isEmpty then none else some clean

/-! ## Checking -/

/-- The policy in effect. -/
def checkPolicy : Option String → Except Fault JunkPolicy
  | none => .ok ({} : Options).junkPolicy
  | some value =>
    match JunkPolicy.read? value with
    | some p => .ok p
    | none => .error (.junkPolicy value)

/-- The threshold in effect. -/
def checkThreshold (given : Option Binary32) : Except Fault Binary32 :=
  let threshold := given.getD ({} : Options).spamThreshold
  if threshold.inUnitInterval then .ok threshold else .error (.spamThreshold threshold)

/-- The number of searches in effect. -/
def checkSearches (given : Option Nat) : Except Fault Nat :=
  let searches := given.getD ({} : Options).maxSearches
  if searches = 0 then .error .maxSearches else .ok searches

/-- The order in effect. No word, or the word `none`, asks for the order of arrival. -/
def checkSort (given : Option String) (descending : Option Bool) :
    Except Fault (Option SortOrder) :=
  let direction := if descending.getD true then .descending else .ascending
  match given.map Text.trim with
  | none => .ok none
  | some value =>
    if value == "" || value == "none" then .ok none
    else
      match SortKey.read? value with
      | some key => .ok (some ⟨key, direction⟩)
      | none => .error (.sort value)

/-- Checks settings and fills in defaults. -/
def resolve (r : RawSettings) : Except Fault Settings := do
  let junkPolicy ← checkPolicy r.junkPolicy
  let spamThreshold ← checkThreshold r.spamThreshold
  let maxSearches ← checkSearches r.maxSearches
  let sort ← checkSort r.sort r.descending
  return {
    options := {
      groupResults := r.groupResults.getD ({} : Options).groupResults
      junkPolicy := junkPolicy
      spamThreshold := spamThreshold
      realTimeSort := r.realTimeSort.getD ({} : Options).realTimeSort
      sort := sort
      maxSearches := maxSearches }
    extensions := (r.extensions.map sanitizeExtensions).getD []
    vendor := r.vendor.bind cleanVendor
    limit := r.limit }

/-! ## Summary -/

def yesNo (b : Bool) : String :=
  if b then "yes" else "no"

/-- The settings in effect for the given inputs, a line for each. -/
def summary (s : Settings) (inputs : List String) : List String :=
  let o := s.options
  ["Effective configuration:",
    "  Group results: " ++ yesNo o.groupResults,
    "  Junk policy: " ++ o.junkPolicy.label,
    "  Spam threshold: " ++ o.spamThreshold.textWithTwoPlaces,
    "  Real-time sort: " ++ yesNo o.realTimeSort,
    match o.sort with
    | some order => "  Sort: " ++ order.key.label ++ " (" ++ order.direction.label ++ ")"
    | none => "  Sort: arrival order",
    "  Max searches: " ++ toString o.maxSearches,
    "  Extensions: " ++
      (if s.extensions.isEmpty then "(all)" else ", ".intercalate s.extensions)] ++
  (s.vendor.map fun vendor => "  Vendor: " ++ vendor).toList ++
  ["  Row limit: " ++ (s.limit.map toString).getD "unlimited",
    "  Inputs: " ++ ", ".intercalate inputs]

end Settings

end PeerSearch
