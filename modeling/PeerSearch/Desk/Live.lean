import PeerSearch.Desk
import PeerSearch.Table.Command

/-!
# PeerSearch.Desk.Live -- a desk that is in use

The owner of a desk opens and closes searches, works on their tables and pumps. Any number of
producers post meanwhile, each through the sink that was given out when its search was opened, and
also while a pumping is under way. A step is the smallest thing that nothing else can come between,
so a pumping is a start, a step for each post that it takes, and an end. What is posted and what
reaches the searches is written down as it happens.
-/

namespace PeerSearch

/-! ## Steps and what is written down -/

/-- One thing that happens to a desk or to its queue. -/
inductive DeskStep where
  | openSearch (query : String)
  | closeSearch (id : SearchId)
  /-- The owner calls an operation of the table of a search. -/
  | call (id : SearchId) (command : TableCommand)
  /-- A producer posts through the sink of a search, or through a copy of it. -/
  | send (p : Post)
  /-- The owner begins to pump; one who waits gives up when there is no post in time. -/
  | startPump (waits : Bool)
  /-- The pumping takes the first post of the queue. -/
  | receive
  /-- The pumping finds no post any more. -/
  | endPump

/-- What reaches the searches: a call of the owner, or a post taken from the queue. -/
inductive DeskEntry where
  | call (id : SearchId) (command : TableCommand)
  | taken (p : Post)

namespace DeskEntry

/-- The search that an entry is about. -/
def search : DeskEntry → SearchId
  | call id _ => id
  | taken p => p.search

/-- What an entry does to the table of a search. -/
def command? (id : SearchId) : DeskEntry → Option TableCommand
  | call k c => if k = id then some c else none
  | taken (.result k r) => if k = id then some (.add r) else none
  | taken (.finished _) => none

/-- The post that an entry took from the queue. -/
def post? : DeskEntry → Option Post
  | call _ _ => none
  | taken p => some p

end DeskEntry

/-- What a log does to the table of a search, in order. -/
def commandsFor (id : SearchId) (log : List DeskEntry) : List TableCommand :=
  log.filterMap (DeskEntry.command? id)

/-- The posts that a log has taken from the queue, in order. -/
def takenPosts (log : List DeskEntry) : List Post :=
  log.filterMap DeskEntry.post?

/-- What the table of a search has told of its changes. -/
def eventsOf (id : SearchId) (told : List SearchEvent) : List TableEvent :=
  (told.filter (·.1 == id)).map (·.2)

/-- All posts that were counted. -/
def PumpCount.total (c : PumpCount) : Nat :=
  c.delivered + c.dropped + c.finished

/-! ## Desks in use -/

/-- A pumping that is under way or has ended. -/
structure Pumping where
  /-- Whether it waits for the first post. -/
  waits : Bool
  taken : List Post
  count : PumpCount

/-- A desk with what has gone through it. -/
structure LiveDesk where
  desk : Desk
  pumping : Option Pumping
  /-- Pumpings that have ended, the earliest first. -/
  ended : List Pumping
  /-- All posts that producers have sent, the earliest first. -/
  sent : List Post
  /-- All that has reached the searches, the earliest first. -/
  log : List DeskEntry
  /-- All that tables have told of their changes, the earliest first. -/
  told : List SearchEvent

namespace LiveDesk

/-- A desk without searches that nobody has used. -/
def new (options : Options) (registry : Registry) : LiveDesk :=
  ⟨.new options registry, none, [], [], [], []⟩

/-- The owner calls an operation of the table of an open search. -/
def call (l : LiveDesk) (s : Search) (c : TableCommand) : LiveDesk :=
  let change := s.table.perform c
  { l with
    desk := l.desk.putSearch { s with table := change.table }
    log := l.log ++ [.call s.id c]
    told := l.told ++ change.events.map (s.id, ·) }

/-- A pumping takes a post, of which `rest` is left in the queue. -/
def receive (l : LiveDesk) (pumping : Pumping) (p : Post) (rest : List Post) : LiveDesk :=
  let pumped := { l.desk with queue := rest }.apply pumping.count p
  { l with
    desk := pumped.desk
    pumping := some { pumping with taken := pumping.taken ++ [p], count := pumped.count }
    log := l.log ++ [.taken p]
    told := l.told ++ pumped.events }

/-- Whether a pumping may end: there is no post, or it has waited for the first one too long. -/
def mayEnd (l : LiveDesk) (pumping : Pumping) : Bool :=
  l.desk.queue.isEmpty || (pumping.waits && pumping.taken.isEmpty)

/-- What a step leaves. While the owner pumps it does nothing else, a search that was never opened
has no sink, and what cannot happen changes nothing. -/
def step (l : LiveDesk) : DeskStep → LiveDesk
  | .openSearch query =>
    if l.pumping.isNone then { l with desk := (l.desk.openSearch query).1 } else l
  | .closeSearch id =>
    if l.pumping.isNone then { l with desk := (l.desk.closeSearch id).1 } else l
  | .call id c =>
    match l.pumping, l.desk.search? id with
    | none, some s => l.call s c
    | _, _ => l
  | .send p =>
    if p.search.val < l.desk.nextSearch then
      { l with desk := l.desk.post p, sent := l.sent ++ [p] }
    else l
  | .startPump waits =>
    if l.pumping.isNone then { l with pumping := some ⟨waits, [], {}⟩ } else l
  | .receive =>
    match l.pumping, l.desk.queue with
    | some pumping, p :: rest => l.receive pumping p rest
    | _, _ => l
  | .endPump =>
    match l.pumping with
    | some pumping =>
      if l.mayEnd pumping then { l with pumping := none, ended := l.ended ++ [pumping] } else l
    | none => l

/-- The desk in use after some steps, the earliest first. -/
def run (l : LiveDesk) (steps : List DeskStep) : LiveDesk :=
  steps.foldl step l

end LiveDesk

end PeerSearch
