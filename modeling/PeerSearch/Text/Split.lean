/-!
# PeerSearch.Text.Split -- parts between separators

Paths, lists and lines are split at one separator. There is always one part more than there are
separators.
-/

namespace PeerSearch.Text

/-- The parts between separators, where `part` has been read of the one under way. -/
def splitFrom {α : Type} [BEq α] (separator : α) (part : List α) : List α → List (List α)
  | [] => [part]
  | a :: rest =>
    if a == separator then part :: splitFrom separator [] rest
    else splitFrom separator (part ++ [a]) rest

/-- The parts between separators. -/
def split {α : Type} [BEq α] (separator : α) (l : List α) : List (List α) :=
  splitFrom separator [] l

/-- The parts of a string between separators. -/
def splitString (separator : Char) (s : String) : List String :=
  (split separator s.toList).map String.ofList

end PeerSearch.Text
