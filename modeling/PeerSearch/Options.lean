import PeerSearch.Json.Basic
import PeerSearch.RowOrder
import PeerSearch.SearchResult.Record

/-!
# PeerSearch.Options -- how tables behave

Options shared by every table that a desk opens. In JSON they are an object whose members may all be
left out, or an array of the options in their order.
-/

namespace PeerSearch

/-- Behaviour of a table, and how many searches stay open at once. -/
structure Options where
  /-- Whether results that describe one file share a row. -/
  groupResults : Bool := true
  junkPolicy : JunkPolicy := .hide
  /-- Spam rating from which on a group is junk. -/
  spamThreshold : Binary32 := defaultSpamThreshold
  /-- Whether rows move when their groups change. -/
  realTimeSort : Bool := true
  /-- Order of new tables; without one, rows stand in the order of arrival. -/
  sort : Option SortOrder := none
  maxSearches : Nat := 10
  deriving DecidableEq

namespace Options

/-! ## Reading -/

/-- The names of the options, in order. -/
def names : List String :=
  ["group_results", "junk_policy", "spam_threshold", "real_time_sort", "sort", "max_searches"]

/-- The names of the parts of a sort order. -/
def sortNames : List String := ["key", "direction"]

/-- The sort order with the given parts; descending unless another direction is given. -/
def sortOfMembers? (members : List (Option String × Json)) : Option SortOrder := do
  let key ← ((members.lookup (some "key")).bind SearchResult.variantName?).bind SortKey.ofLabel?
  let direction ← match members.lookup (some "direction") with
    | none => some .descending
    | some j => (SearchResult.variantName? j).bind SortDirection.ofLabel?
  return ⟨key, direction⟩

/-- A sort order. -/
def readSort? : Json → Option SortOrder
  | .object members => sortOfMembers? members
  | .array items =>
    if items.length ≤ sortNames.length then sortOfMembers? (SearchResult.named sortNames items)
    else none
  | _ => none

/-- The options with the named one read from a value; `score` reads thresholds. -/
def setOption? (score : Json → Option Binary32) (o : Options) (name : String) (j : Json) :
    Option Options := do
  match name with
  | "group_results" => return { o with groupResults := ← j.bool? }
  | "junk_policy" =>
    return { o with junkPolicy := ← (SearchResult.variantName? j).bind JunkPolicy.ofLabel? }
  | "spam_threshold" => return { o with spamThreshold := ← score j }
  | "real_time_sort" => return { o with realTimeSort := ← j.bool? }
  | "sort" =>
    match j with
    | .null => return { o with sort := none }
    | j => return { o with sort := some (← readSort? j) }
  | "max_searches" => return { o with maxSearches := ← j.nat64? }
  | _ => return o

/-- The options that members set, over the defaults. -/
def ofMembers? (score : Json → Option Binary32) (members : List (Option String × Json)) :
    Option Options :=
  members.foldlM (fun o (name, j) => name.bind fun name => setOption? score o name j) {}

/-- The options that a value describes. -/
def ofJson? (score : Json → Option Binary32) : Json → Option Options
  | .object members => ofMembers? score members
  | .array items =>
    if items.length ≤ names.length then ofMembers? score (SearchResult.named names items) else none
  | _ => none

/-! ## Writing -/

/-- A sort order in JSON. -/
def sortJson (o : SortOrder) : Json :=
  .ofMembers [("key", .ofText o.key.label), ("direction", .ofText o.direction.label)]

/-- The options in JSON; `score` writes thresholds. -/
def toJson (score : Binary32 → Json) (o : Options) : Json :=
  .ofMembers
    [("group_results", .bool o.groupResults), ("junk_policy", .ofText o.junkPolicy.label),
      ("spam_threshold", score o.spamThreshold), ("real_time_sort", .bool o.realTimeSort),
      ("sort", .ofOption sortJson o.sort), ("max_searches", .ofNat o.maxSearches)]

end Options

end PeerSearch
