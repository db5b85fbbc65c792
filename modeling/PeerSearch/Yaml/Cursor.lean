import PeerSearch.Yaml.Scalar

/-!
# PeerSearch.Yaml.Cursor -- places in a document, and words without quotes

What belongs together is told by columns, so a place knows its own. A word without quotes ends at a
colon, at a comment, or at a line that is not indented far enough.
-/

namespace PeerSearch.Yaml

/-! ## Places -/

/-- A place in a document. -/
structure Cursor where
  /-- The number of characters in front on the line. -/
  column : Nat := 0
  /-- Whether nothing but blanks stands in front on the line. -/
  first : Bool := true
  rest : List Char
  deriving DecidableEq, Repr

namespace Cursor

/-- The place behind the next character. -/
def step (c : Cursor) : Cursor :=
  match c.rest with
  | [] => c
  | '\n' :: rest => { rest }
  | a :: rest => { column := c.column + 1, first := c.first && isGap a, rest }

/-- The place where only that end of the text is left. -/
def upTo (c : Cursor) (rest : List Char) : Cursor :=
  Nat.repeat step (c.rest.length - rest.length) c

end Cursor

/-- The text from behind the blanks, line ends and comments at its start. A comment starts behind a
blank or a line end; `blank` tells that one stands in front. -/
def skipFrom (inComment blank : Bool) : List Char → List Char
  | [] => []
  | c :: rest =>
    if c == '\n' then skipFrom false true rest
    else if inComment then skipFrom true true rest
    else if isGap c then skipFrom false true rest
    else if c == '#' && blank then skipFrom true true rest
    else c :: rest

/-- The text from behind all that says nothing. -/
def skip (cs : List Char) : List Char :=
  skipFrom false false cs

/-- The next place where something is said. -/
def Cursor.skip (c : Cursor) : Cursor :=
  c.upTo (skipFrom false c.first c.rest)

/-! ## Words -/

/-- A character that separates the items of a collection on a line, or encloses them. -/
def isFlowMark (c : Char) : Bool :=
  c == ',' || c == '[' || c == ']' || c == '\x7b' || c == '\x7d'

/-- Whether a mark can end in front of the text. -/
def endsMark (inFlow : Bool) : List Char → Bool
  | [] => true
  | c :: _ => isGap c || c == '\n' || (inFlow && isFlowMark c)

/-- Characters that no word without quotes starts with. -/
def reserved : List Char :=
  [',', '[', ']', '\x7b', '\x7d', '#', '&', '*', '!', '|', '>', '\x27', '"', '%', '@', '\x60']

/-- Whether a word without quotes starts here. -/
def startsWord (inFlow : Bool) : List Char → Bool
  | [] => false
  | c :: rest =>
    if c == '-' || c == '?' || c == ':' then !endsMark inFlow rest
    else !reserved.contains c && !isGap c && c != '\n'

/-- A word without quotes as far as it goes on the line, and what follows; `blank` tells that a
blank stands in front. -/
def lineOfWord (inFlow blank : Bool) : List Char → List Char × List Char
  | [] => ([], [])
  | c :: rest =>
    if c == '\n' || (c == '#' && blank) || (inFlow && isFlowMark c) ||
        (c == ':' && endsMark inFlow rest) then ([], c :: rest)
    else
      let (cs, rest) := lineOfWord inFlow (isGap c) rest
      (c :: cs, rest)

/-- The text without the blanks at its end. -/
def trimGaps (cs : List Char) : List Char :=
  (cs.reverse.dropWhile isGap).reverse

/-- A word without quotes, and what follows. It goes on in the lines below that are indented to a
column at least. -/
def spanWord (inFlow : Bool) (least : Nat) : Nat → List Char → List Char × List Char
  | 0, cs => ([], cs)
  | fuel + 1, cs =>
    let (line, rest) := lineOfWord inFlow false cs
    let (blanks, below) := foldBreaks rest
    let gap := (rest.take (rest.length - below.length)).reverse.takeWhile isGap
    if rest.head? != some '\n' || gap.length < least || below.head? == some '#' then
      (trimGaps line, rest)
    else
      let (more, after) := spanWord inFlow least fuel below
      if more.isEmpty then (trimGaps line, rest) else (trimGaps line ++ blanks ++ more, after)

/-- The name of a member without what follows it, in quotes or not, and what follows. -/
def readName? (inFlow : Bool) (cs : List Char) : Option (String × List Char) :=
  match readQuoted? cs with
  | some (name, rest) => some (String.ofList name, rest)
  | none =>
    if startsWord inFlow cs then
      let (word, rest) := lineOfWord inFlow false cs
      (wordName? (trimGaps word)).map (·, rest)
    else none

end PeerSearch.Yaml
