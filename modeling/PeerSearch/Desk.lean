import PeerSearch.Table.Operations

/-!
# PeerSearch.Desk -- the open searches, and the results that flow to them

A desk keeps a bounded number of searches open, each with a table of its own. Producers post results
for a search at any time; the posts wait in one queue until the desk is pumped, which hands each to
the table of its search, or drops it when that search is no longer open.
-/

namespace PeerSearch

/-! ## Posts and searches -/

/-- What a producer says about one search. -/
inductive Post where
  | result (search : SearchId) (result : SearchResult)
  /-- No more results will follow for the search. -/
  | finished (search : SearchId)
  deriving DecidableEq

/-- The search that a post is about. -/
def Post.search : Post → SearchId
  | result id _ => id
  | finished id => id

/-- An open search: what was asked for, and the table of its results. -/
structure Search where
  id : SearchId
  query : String
  /-- Whether a producer has said that no more results will follow. -/
  finished : Bool
  table : Table

/-- The open searches of a user, the oldest first. -/
structure Desk where
  options : Options
  registry : Registry
  searches : List Search
  /-- Posts that have not been handed on, the earliest first. -/
  queue : List Post
  nextSearch : Nat

/-- How many posts a pumping handed to tables, dropped, and took as the end of a search. -/
structure PumpCount where
  delivered : Nat := 0
  dropped : Nat := 0
  finished : Nat := 0
  deriving DecidableEq, Repr

/-- Whether nothing was pumped. -/
def PumpCount.isEmpty (c : PumpCount) : Bool :=
  c = {}

/-- An event of the table of a search. -/
abbrev SearchEvent := SearchId × TableEvent

/-- The outcome of pumping. -/
structure Pumped where
  desk : Desk
  events : List SearchEvent
  count : PumpCount

namespace Desk

/-- A desk without searches. -/
def new (options : Options) (registry : Registry) : Desk :=
  ⟨options, registry, [], [], 0⟩

/-! ## Searches -/

def search? (d : Desk) (id : SearchId) : Option Search :=
  d.searches.find? (·.id == id)

/-- The number of searches that may be open: at least one. -/
def limit (d : Desk) : Nat :=
  max 1 d.options.maxSearches

/-- Opens a search; when the limit is reached, the oldest ones are closed to make room. -/
def openSearch (d : Desk) (query : String) : Desk × SearchId :=
  let id : SearchId := ⟨d.nextSearch⟩
  let kept := d.searches.drop (d.searches.length + 1 - d.limit)
  ({ d with
      searches := kept ++ [⟨id, query, false, .new d.options d.registry⟩]
      nextSearch := d.nextSearch + 1 },
    id)

/-- Closes a search and gives it away. Posts for it are dropped from now on. -/
def closeSearch (d : Desk) (id : SearchId) : Desk × Option Search :=
  ({ d with searches := d.searches.filter (·.id != id) }, d.search? id)

/-- Replaces an open search. -/
def putSearch (d : Desk) (s : Search) : Desk :=
  { d with searches := d.searches.map fun other => if other.id = s.id then s else other }

/-- Whether every open search has been finished. -/
def allFinished (d : Desk) : Bool :=
  d.searches.all (·.finished)

/-! ## Posts -/

/-- Puts a post at the end of the queue. -/
def post (d : Desk) (p : Post) : Desk :=
  { d with queue := d.queue ++ [p] }

/-- Hands one post to its search. -/
def apply (d : Desk) (count : PumpCount) (p : Post) : Pumped :=
  match d.search? p.search with
  | none => ⟨d, [], { count with dropped := count.dropped + 1 }⟩
  | some s =>
    match p with
    | .result _ r =>
      let change := (s.table.add r).change
      ⟨d.putSearch { s with table := change.table }, change.events.map (s.id, ·),
        { count with delivered := count.delivered + 1 }⟩
    | .finished _ =>
      ⟨d.putSearch { s with finished := true }, [],
        { count with finished := count.finished + 1 }⟩

/-- Hands posts to their searches in turn. -/
def applyAll (d : Desk) (count : PumpCount) : List Post → Pumped
  | [] => ⟨d, [], count⟩
  | p :: rest =>
    let first := d.apply count p
    let others := first.desk.applyAll first.count rest
    { others with events := first.events ++ others.events }

/-- Hands on everything that is in the queue. -/
def pump (d : Desk) : Pumped :=
  { d with queue := [] }.applyAll {} d.queue

end Desk

end PeerSearch
