/-!
# PeerSearch.FileContent -- what is found under the name of a file

There may be nothing of that name, something that cannot be read, such as a directory, or a file with
its bytes. What is found depends on the system; everything that reads files starts from here.
-/

namespace PeerSearch

/-- What is found under the name of a file. -/
inductive FileContent where
  | missing
  /-- There is something of that name that cannot be read. -/
  | unreadable
  | bytes (contents : List UInt8)
  deriving DecidableEq, Repr

/-- Whether there is a file. -/
def FileContent.isFile : FileContent → Bool
  | bytes _ => true
  | _ => false

end PeerSearch
