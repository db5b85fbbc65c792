import PeerSearch.Identifier

/-!
# PeerSearch.Table.Event -- changes of the visible rows, and who hears of them

A table tells of each change of its visible rows by an event. Row numbers are those after the
change. A feed passes events on to any number of subscribers, each of which has a queue of its own;
a subscriber that has left is forgotten when the next event is sent.
-/

namespace PeerSearch

/-! ## Events -/

/-- A change of the visible rows. -/
inductive TableEvent where
  | inserted (row : Nat) (group : GroupId)
  | removed (row : Nat) (group : GroupId)
  /-- What the row shows has changed, but not its place. -/
  | updated (row : Nat) (group : GroupId)
  /-- The row has changed its place, and perhaps what it shows. -/
  | moved (source target : Nat) (group : GroupId)
  /-- Any row may have changed. -/
  | reset
  deriving DecidableEq, Repr

/-! ## Feeds -/

/-- One who hears of events: whether it is still there, and the events that it has not taken yet. -/
structure Subscriber where
  present : Bool
  pending : List TableEvent
  deriving DecidableEq, Repr

/-- Subscribers in the order in which they came, with those that a sender still knows of. -/
structure Feed where
  subscribers : List Subscriber
  /-- Positions of the subscribers that events are sent to. -/
  known : List Nat
  deriving DecidableEq, Repr

namespace Feed

def empty : Feed :=
  ⟨[], []⟩

/-- The feed with one more subscriber, which hears of every event from now on. -/
def subscribe (f : Feed) : Feed :=
  ⟨f.subscribers ++ [⟨true, []⟩], f.known ++ [f.subscribers.length]⟩

/-- Whether a subscriber is still there. -/
def isPresent (f : Feed) (position : Nat) : Bool :=
  (f.subscribers[position]?).any (·.present)

/-- The feed after a subscriber has left. -/
def leave (f : Feed) (position : Nat) : Feed :=
  { f with subscribers := f.subscribers.modify position fun s => { s with present := false } }

/-- A subscriber with one more event, if it is still there. -/
def deliver (e : TableEvent) (s : Subscriber) : Subscriber :=
  if s.present then { s with pending := s.pending ++ [e] } else s

/-- Sends an event to everyone who is known and forgets those who have left. -/
def send (f : Feed) (e : TableEvent) : Feed where
  subscribers := f.subscribers.mapIdx fun i s => if f.known.contains i then deliver e s else s
  known := f.known.filter f.isPresent

/-- The number of subscribers that events are sent to. -/
def subscriberCount (f : Feed) : Nat :=
  f.known.length

/-- What each subscriber has not taken yet; nothing for those that have left. -/
def pending (f : Feed) : List (Option (List TableEvent)) :=
  f.subscribers.map fun s => if s.present then some s.pending else none

/-- What one subscriber has not taken yet. -/
def pendingAt (f : Feed) (position : Nat) : List TableEvent :=
  (f.subscribers[position]?).elim [] (·.pending)

/-- The feed after one subscriber has taken its events. -/
def takenAt (f : Feed) (position : Nat) : Feed :=
  { f with subscribers := f.subscribers.modify position fun s => { s with pending := [] } }

/-- The feed after every subscriber has taken its events. -/
def taken (f : Feed) : Feed :=
  { f with subscribers := f.subscribers.map fun s => { s with pending := [] } }

end Feed

end PeerSearch
