import PeerSearch.GroupIndex

/-!
# PeerSearch.GroupIndex.Command -- what is done to an index, as data

A command is one call of an operation with its arguments; performing it gives the index that the
operation leaves. Of the answers, a run keeps the members that its inserts have made.
-/

namespace PeerSearch

/-- One thing that is done to an index. -/
inductive IndexCommand where
  | insert (result : SearchResult)
  | remove (id : ResultId)
  | removeGroup (id : GroupId)
  /-- The user's verdict on a group is recorded. -/
  | mark (id : GroupId) (junk : Bool)
  | setGrouping (grouping : Bool)
  | clear

namespace GroupIndex

/-- The index that a command leaves. -/
def perform (ix : GroupIndex) : IndexCommand → GroupIndex
  | .insert r =>
    match ix.insert r with
    | .ok (ix', _) => ix'
    | .error _ => ix
  | .remove id => (ix.remove id).1
  | .removeGroup id => (ix.removeGroup id).1
  | .mark id junk =>
    match ix.group? id with
    | some g => ix.putGroup (g.mark junk)
    | none => ix
  | .setGrouping grouping => ix.setGrouping grouping
  | .clear => ix.clear

/-- The index after some commands, the earliest first. -/
def after (ix : GroupIndex) (commands : List IndexCommand) : GroupIndex :=
  commands.foldl perform ix

/-- The member that a command makes, under the identifier that it answers. -/
def acceptedBy (ix : GroupIndex) : IndexCommand → List Member
  | .insert r =>
    match ix.insert r with
    | .ok (_, placement) => [⟨placement.result, r⟩]
    | .error _ => []
  | _ => []

/-- The members that some commands make, the earliest first. -/
def accepted (ix : GroupIndex) : List IndexCommand → List Member
  | [] => []
  | c :: rest => ix.acceptedBy c ++ (ix.perform c).accepted rest

end GroupIndex

end PeerSearch
