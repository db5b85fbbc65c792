import PeerSearch.Text.Split

/-!
# PeerSearch.Text.Path -- names of files

A path is a list of names between slashes. Repeated slashes, a slash at the end, and names that are
a single dot anywhere but in front change nothing. The stem of a path is its last name without the
part from the last dot on.
-/

namespace PeerSearch.Path

/-- The directory that a path starts from. -/
def here : String := "."

/-- The directory above. -/
def above : String := ".."

/-- Whether a path starts at the root of all files. -/
def isAbsolute (path : String) : Bool :=
  path.toList.head? == some '/'

/-- What stands between the slashes of a path. -/
def parts (path : String) : List String :=
  (Text.splitString '/' path).filter fun name => !name.isEmpty

/-- The names on a path, the first of which is a dot only where the path has one in front. -/
def names (path : String) : List String :=
  if isAbsolute path then (parts path).filter (· != here)
  else (parts path).take 1 ++ ((parts path).drop 1).filter (· != here)

/-- Whether two paths have the same names from the same start. -/
def same (p q : String) : Bool :=
  isAbsolute p == isAbsolute q && names p == names q

/-- The name of the file at the end of a path, if there is one. -/
def fileName? (path : String) : Option String :=
  (names path).getLast?.filter fun name => name != here && name != above

/-- The path with something added to the name of its file; what follows that name is left out. A
path without one has no such form. -/
def withSuffix? (path suffix : String) : Option String := do
  let name ← fileName? path
  let above := (parts path).filter (· != here)
  let front := if isAbsolute path then "/" else ""
  return front ++ String.join (above.dropLast.map (· ++ "/")) ++ name ++ suffix

/-- The text up to the last dot; nothing when there is none, or none but in front. -/
def beforeLastDot? (cs : List Char) : Option (List Char) :=
  match cs.reverse.dropWhile (· != '.') with
  | '.' :: c :: stem => some (c :: stem).reverse
  | _ => none

/-- A name without the part from its last dot on; a dot in front is not taken for that. -/
def stem (name : String) : String :=
  ((beforeLastDot? name.toList).map String.ofList).getD name

/-- A name from behind its last dot; nothing when there is no dot but in front. -/
def extension? (name : String) : Option String :=
  (beforeLastDot? name.toList).map fun before =>
    String.ofList (name.toList.drop (before.length + 1))

end PeerSearch.Path
