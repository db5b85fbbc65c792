import PeerSearch.Text.Advance

/-!
# PeerSearch.Text.Column -- terminal columns

A text is measured from its right end, since some characters are drawn together with what follows.
`cutTo` shortens a text to a number of columns and marks the cut with an ellipsis; `padTo` fills it
up with spaces.
-/

namespace PeerSearch.Text

/-! ## Width -/

/-- Columns that a text takes, and what it is to a character on its left. -/
def measure : List Char → Int × Following
  | [] => (0, {})
  | c :: rest =>
    let (columns, following) := measure rest
    let (more, following) := advance c following
    (columns + more, following)

/-- Columns that a text takes. -/
def width (cs : List Char) : Nat :=
  (measure cs).1.toNat

/-! ## Fitting a text into a number of columns -/

/-- The mark of a cut, one column wide. -/
def ellipsis : Char := '…'

/-- The longest part of the text that, `used` columns being taken, leaves room for the mark in
`columns`; a control character takes no room here. -/
def fitting (columns used : Nat) : List Char → List Char
  | [] => []
  | c :: rest =>
    let w := (charWidth? c).getD 0
    if columns < used + w + 1 then [] else c :: fitting columns (used + w) rest

/-- The text cut to `columns` columns, with the cut marked; a text that fits stays as it is. -/
def cutTo (columns : Nat) (cs : List Char) : List Char :=
  if width cs ≤ columns then cs else fitting columns 0 cs ++ [ellipsis]

/-- The text with spaces after it up to `columns` columns. -/
def padTo (columns : Nat) (cs : List Char) : List Char :=
  cs ++ List.replicate (columns - width cs) ' '

end PeerSearch.Text
