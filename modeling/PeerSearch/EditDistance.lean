/-!
# PeerSearch.EditDistance -- bounded edit distance

Whether one text becomes another by a bounded number of insertions, deletions and substitutions of
single characters. The distances of the prefixes are computed row by row; the computation ends
early when the lengths are too far apart or when a whole row exceeds the bound. There are two rows,
and each new one is written over the one before the last.
-/

namespace PeerSearch.EditDistance

/-- Writes the cells for character `c` over those of an old row, from the left neighbour of the
first one, the remaining characters of the other text and the cells of the row above, the diagonal
one first. -/
def writeCells (c : Char) : Nat → List Char → List Nat → List Nat → List Nat
  | left, d :: rest, diagonal :: above :: cells, _ :: old =>
    let substitution := if c == d then diagonal else diagonal + 1
    let cell := min (min (above + 1) (left + 1)) substitution
    cell :: writeCells c cell rest (above :: cells) old
  | _, _, _, old => old

/-- Writes the row for character `c`, which comes after `read` others, over an old one. It starts
with the deletion of all characters up to this one. -/
def writeRow (c : Char) (read : Nat) (b : List Char) (previous old : List Nat) : List Nat :=
  (read + 1) :: writeCells c (read + 1) b previous old.tail

/-- Whether some distance of a row keeps the bound. -/
def keepsBound (bound : Nat) (row : List Nat) : Bool :=
  row.any (· ≤ bound)

/-- Continues with the remaining characters of the first text when some of them have been read, from
the last row and the one before. -/
def scanRows (bound : Nat) (b : List Char) : Nat → List Nat → List Nat → List Char → Bool
  | _, previous, _, [] => previous.getD b.length 0 ≤ bound
  | read, previous, old, c :: rest =>
    let current := writeRow c read b previous old
    if keepsBound bound current then scanRows bound b (read + 1) current previous rest else false

/-- Whether `a` becomes `b` by at most `bound` edits. -/
def within (bound : Nat) (a b : List Char) : Bool :=
  if a == b then true
  else if bound < a.length - b.length || bound < b.length - a.length then false
  else scanRows bound b 0 (List.range (b.length + 1)) (List.replicate (b.length + 1) 0) a

end PeerSearch.EditDistance
