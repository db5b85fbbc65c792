import PeerSearch.Table.Command

/-!
# PeerSearch.Table.Live -- a table and those who hear of its changes

Every command sends its events to the subscribers that are known then. Subscribers come, take their
events and leave at any time between commands.
-/

namespace PeerSearch

/-- A table with the feed that its events are sent to. -/
structure LiveTable where
  table : Table
  feed : Feed

/-- One thing that happens to a table or to those who hear of it. -/
inductive LiveStep where
  | perform (command : TableCommand)
  | subscribe
  /-- A subscriber leaves. -/
  | leave (position : Nat)
  /-- A subscriber takes what it has not taken yet. -/
  | take (position : Nat)

namespace LiveTable

/-- A table without results that nobody hears of yet. -/
def new (options : Options) (registry : Registry) : LiveTable :=
  ⟨.new options registry, .empty⟩

def step (l : LiveTable) : LiveStep → LiveTable
  | .perform c =>
    let change := l.table.perform c
    ⟨change.table, change.events.foldl Feed.send l.feed⟩
  | .subscribe => { l with feed := l.feed.subscribe }
  | .leave position => { l with feed := l.feed.leave position }
  | .take position => { l with feed := l.feed.takenAt position }

/-- The table and its feed after some steps, the earliest first. -/
def run (l : LiveTable) (steps : List LiveStep) : LiveTable :=
  steps.foldl step l

end LiveTable

end PeerSearch
