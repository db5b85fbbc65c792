import PeerSearch.Replay

/-!
# PeerSearch.Replay.Threads -- a replay whose producers run by themselves

Every input has a producer that reads it and posts each result as soon as it has read the line. The
player opens the searches and starts their producers, pumps until it sees that nothing is missing,
and closes the searches in the order of the inputs. A step is the smallest thing that nothing else
can come between; which step is next is up to nobody.
-/

namespace PeerSearch

namespace Replay

/-! ## Producers -/

/-- The result that a line holds. -/
def lineResult? (text : String) : Option SearchResult :=
  if Text.isBlankText text then none else (SearchResult.readLine text).toOption

/-- What is posted for the lines of a file. A line that is no text ends it without a word. -/
def linePosts (id : SearchId) : List (List UInt8) → List Post
  | [] => [.finished id]
  | line :: rest =>
    match lineText? line with
    | none => []
    | some text => ((lineResult? text).map (.result id)).toList ++ linePosts id rest

/-- What is posted for a file. -/
def filePosts (id : SearchId) : FileContent → List Post
  | .bytes contents => linePosts id (linesOf contents)
  | .missing | .unreadable => []

/-- An input with what is found under its name. -/
abbrev Input := String × FileContent

/-- The producer of a search, at work. -/
structure Producer where
  search : SearchId
  /-- What it has not posted yet. -/
  unsent : List Post
  /-- What it ends with: the bad lines of its file, or why the file cannot be read. -/
  outcome : Except Recording.ReplayError (List BadLine)

namespace Producer

/-- A producer that has posted nothing yet. -/
def start (id : SearchId) (input : Input) : Producer where
  search := id
  unsent := filePosts id input.2
  outcome := (Recording.ofFile input.1 input.2).map (·.badLines)

/-- Whether a producer may have ended: it has posted everything. -/
def isThrough (p : Producer) : Bool :=
  p.unsent.isEmpty

end Producer

/-! ## The player -/

/-- Where the player is. -/
inductive Stage where
  /-- These inputs have no search yet. -/
  | opening (inputs : List Input)
  /-- A pumping waits for its first post. -/
  | waiting
  /-- A pumping has had a post and takes what else there is. -/
  | draining
  /-- The pumping is over, and the player sees whether it may stop. -/
  | checking
  /-- All producers have ended, and what they have left is pumped. -/
  | lastPumping
  /-- The searches of the first inputs are closed, and these are their reports. -/
  | closing (closed : Nat) (reports : List SearchReport)
  | ended (outcome : Except Recording.ReplayError (List SearchReport))

/-- Where a pumping is after another post. -/
def Stage.afterPost? : Stage → Option Stage
  | waiting | draining => some draining
  | lastPumping => some lastPumping
  | _ => none

/-- Where the player is after a pumping that finds no post. One that waits may give up just when a
post comes. -/
def Stage.afterPumping? (queue : List Post) : Stage → Option Stage
  | waiting => some checking
  | draining => if queue.isEmpty then some checking else none
  | lastPumping => if queue.isEmpty then some (closing 0 []) else none
  | _ => none

/-- One thing that the player or a producer does. -/
inductive PlayStep where
  /-- The player opens the search of the next input and starts its producer. -/
  | openNext
  /-- A producer posts what is next. -/
  | send (producer : Nat)
  /-- The pumping takes the first post of the queue. -/
  | receive
  /-- The pumping finds no post. -/
  | endPumping
  /-- The player sees whether it may stop. Producers that are through may not seem so yet. -/
  | check (seen : Bool)
  /-- The player waits for the next producer to end and closes its search. -/
  | join

/-- A replay under way. -/
structure Player where
  wording : Wording
  settings : Settings
  desk : Desk
  /-- The producers that were started, in the order of the inputs. -/
  producers : List Producer
  stage : Stage

namespace Player

/-- A player that has done nothing yet. -/
def new (wording : Wording) (s : Settings) (inputs : List Input) : Player :=
  ⟨wording, s, .new s.options .common, [], .opening inputs⟩

/-- Opens the search of an input, of which `rest` is left, and starts its producer. -/
def openInput (p : Player) (input : Input) (rest : List Input) : Player :=
  let (d, id) := openSearch p.settings p.desk input.1
  { p with desk := d, producers := p.producers ++ [.start id input], stage := .opening rest }

/-- Closes the search of a producer that has ended, `closed` others being closed, and reports it
unless the search was closed before. -/
def closeNext (p : Player) (closed : Nat) (reports : List SearchReport) (producer : Producer) :
    Player :=
  match producer.outcome with
  | .error e => { p with stage := .ended (.error e) }
  | .ok badLines =>
    let (d, search) := p.desk.closeSearch producer.search
    let report := search.map fun s =>
      .ofTable p.wording s.query p.settings.limit badLines s.table
    { p with desk := d, stage := .closing (closed + 1) (reports ++ report.toList) }

/-- What a step leaves; a step that cannot happen changes nothing. -/
def step (p : Player) : PlayStep → Player
  | .openNext =>
    match p.stage with
    | .opening (input :: rest) => p.openInput input rest
    | .opening [] => { p with stage := .waiting }
    | _ => p
  | .send i =>
    match p.producers[i]? with
    | some ⟨id, post :: rest, outcome⟩ =>
      { p with desk := p.desk.post post, producers := p.producers.set i ⟨id, rest, outcome⟩ }
    | _ => p
  | .receive =>
    match p.stage.afterPost?, p.desk.queue with
    | some stage, post :: rest =>
      { p with desk := ({ p.desk with queue := rest }.apply {} post).desk, stage }
    | _, _ => p
  | .endPumping =>
    match p.stage.afterPumping? p.desk.queue with
    | some stage => { p with stage }
    | none => p
  | .check seen =>
    match p.stage with
    | .checking =>
      if p.desk.allFinished then { p with stage := .closing 0 [] }
      else if seen && p.producers.all (·.isThrough) then { p with stage := .lastPumping }
      else { p with stage := .waiting }
    | _ => p
  | .join =>
    match p.stage with
    | .closing closed reports =>
      match p.producers[closed]? with
      | some producer => if producer.isThrough then p.closeNext closed reports producer else p
      | none => { p with stage := .ended (.ok reports) }
    | _ => p

/-- The player after some steps, the earliest first. -/
def run (p : Player) (steps : List PlayStep) : Player :=
  steps.foldl step p

/-- What the replay has come to, if it is over. -/
def outcome? (p : Player) : Option (Except Recording.ReplayError (List SearchReport)) :=
  match p.stage with
  | .ended outcome => some outcome
  | _ => none

end Player

end Replay

end PeerSearch
