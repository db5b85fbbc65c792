import PeerSearch.Report.Basic
import PeerSearch.Settings.Resolved
import PeerSearch.Text.Path

/-!
# PeerSearch.Replay -- recordings played back as searches

Each recording is the producer of a search of its own, and all of them post to one desk. Posts and
pumping may alternate in any way, a `Turn` at a time; what is reported in the end does not hang on
it, and `run` lets the producers have their turns one after the other. When there are more
recordings than searches may be open, the first ones are closed again and not reported.
-/

namespace PeerSearch

/-! ## Turns -/

/-- What happens on a desk while producers are at work. -/
inductive Turn where
  | post (p : Post)
  | pump
  deriving DecidableEq

namespace Desk

/-- The desk after one turn. -/
def turn (d : Desk) : Turn → Desk
  | .post p => d.post p
  | .pump => d.pump.desk

/-- The desk after some turns. -/
def play (d : Desk) (turns : List Turn) : Desk :=
  turns.foldl turn d

end Desk

/-! ## What is shown -/

/-- Whether the extensions and the vendor asked for let a group through; extensions are
alternatives. -/
def Settings.shows (s : Settings) (g : Group) : Bool :=
  s.vendor.all (fun vendor => (FacetFilter.vendor vendor).allows g) &&
    (s.extensions.isEmpty || s.extensions.any fun e => (FacetFilter.extension e).allows g)

namespace Replay

/-! ## Searches -/

/-- The name of the standard input. -/
def standardInput : String := "-"

/-- The query that a recording answers: the stem of its name. -/
def query (path : String) : String :=
  if Path.same path standardInput then "stdin"
  else ((Path.fileName? path).map Path.stem).getD path

/-- Opens a search for a recording. -/
def openSearch (s : Settings) (d : Desk) (path : String) : Desk × SearchId :=
  let (d, id) := d.openSearch (query path)
  match d.search? id with
  | some search => (d.putSearch { search with table := (search.table.setFilter s.shows).table }, id)
  | none => (d, id)

/-- Opens a search for every recording. -/
def openSearches (s : Settings) (d : Desk) : List String → Desk × List SearchId
  | [] => (d, [])
  | path :: paths =>
    let (d, id) := openSearch s d path
    let (d, ids) := openSearches s d paths
    (d, id :: ids)

/-- What a recording has to say on its search. -/
def posts (id : SearchId) (r : Recording) : List Post :=
  r.results.map (.result id) ++ [.finished id]

/-- Every producer posts all that it has, one after the other, and then the desk is pumped. -/
def inOrder (producers : List (SearchId × Recording)) : List Turn :=
  (producers.flatMap fun (id, r) => posts id r).map Turn.post ++ [.pump]

/-! ## Reports -/

/-- Closes the searches that are still open and reports them. -/
def close (wording : Wording) (limit : Option Nat) (d : Desk) :
    List (SearchId × Recording) → List SearchReport
  | [] => []
  | (id, r) :: producers =>
    match d.closeSearch id with
    | (d, some search) =>
      .ofTable wording search.query limit r.badLines search.table ::
        close wording limit d producers
    | (d, none) => close wording limit d producers

/-- The reports of named recordings after turns that may depend on the searches opened for them. -/
def reports (wording : Wording) (s : Settings) (recordings : List (String × Recording))
    (turns : List (SearchId × Recording) → List Turn) : List SearchReport :=
  let (d, ids) := openSearches s (.new s.options .common) (recordings.map (·.1))
  let producers := ids.zip (recordings.map (·.2))
  close wording s.limit (d.play (turns producers)) producers

/-- Reads one recording under its name. -/
def readInput (files : String → FileContent) (path : String) :
    Except Recording.ReplayError (String × Recording) :=
  (Recording.ofFile path (files path)).map (path, ·)

/-- Replays files; the first one that cannot be read is the error. -/
def run (wording : Wording) (s : Settings) (files : String → FileContent) (inputs : List String) :
    Except Recording.ReplayError (List SearchReport) :=
  (inputs.mapM (readInput files)).map fun recordings => reports wording s recordings inOrder

end Replay

end PeerSearch
