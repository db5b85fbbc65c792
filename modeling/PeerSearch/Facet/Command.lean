import PeerSearch.Facet.Model

/-!
# PeerSearch.Facet.Command -- what a facet model is told, as data

A command is one call of an operation with its arguments; performing it gives the model that the
operation leaves, without the answer. A group is passed as it is at that moment, so one run may pass
several versions of it.
-/

namespace PeerSearch

/-- One thing that a facet model is told. -/
inductive FacetCommand where
  | add (group : Group)
  | remove (id : GroupId)
  | updateProperty (group : Group) (property : Property)
  | refresh (group : Group)
  | clear

namespace FacetModel

/-- The model that a command leaves. -/
def perform (m : FacetModel) : FacetCommand → FacetModel
  | .add g => m.add g
  | .remove id => m.remove id
  | .updateProperty g p => (m.updateProperty g p).1
  | .refresh g => (m.refresh g).1
  | .clear => m.clear

/-- The model after some commands, the earliest first. -/
def after (m : FacetModel) (commands : List FacetCommand) : FacetModel :=
  commands.foldl perform m

end FacetModel

end PeerSearch
