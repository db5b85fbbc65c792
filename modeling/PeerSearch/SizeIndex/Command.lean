import PeerSearch.SizeIndex

/-!
# PeerSearch.SizeIndex.Command -- what is done to a size index, as data

A command is one call of an operation with its arguments; performing it gives the index that the
operation leaves. Beside the index, which keeps groups by size, a run has the plain list of all that
is registered.
-/

namespace PeerSearch

/-- One thing that is done to a size index. -/
inductive SizeCommand where
  | add (id : GroupId) (f : Fingerprint)
  | remove (id : GroupId) (size : Nat)
  | clear

namespace SizeIndex

/-- The index that a command leaves. -/
def perform (ix : SizeIndex) : SizeCommand → SizeIndex
  | .add id f => ix.add id f
  | .remove id size => ix.remove id size
  | .clear => empty

/-- The index after some commands, the earliest first. -/
def after (ix : SizeIndex) (commands : List SizeCommand) : SizeIndex :=
  commands.foldl perform ix

/-- What is registered after a command: a new registration comes last, and a removal strikes off all
of one name and size. -/
def enter (registered : Bucket) : SizeCommand → Bucket
  | .add id f => registered ++ [(id, f)]
  | .remove id size => registered.filter fun e => !(e.1 == id && e.2.size == size)
  | .clear => []

/-- What is registered after some commands, of all sizes, in the order of registration. -/
def registered (commands : List SizeCommand) : Bucket :=
  commands.foldl enter []

end SizeIndex

end PeerSearch
