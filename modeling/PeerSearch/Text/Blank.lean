/-!
# PeerSearch.Text.Blank -- white space, trimming and words

White space is the Unicode property of that name: twenty-five characters, most of them
outside ASCII. Everything here works on lists of characters, so that trimming and splitting
are plain list operations; `trim` is the same rule on strings.
-/

namespace PeerSearch.Text

/-! ## The property -/

/-- A character with the Unicode property White_Space. -/
def isBlank (c : Char) : Bool :=
  let n := c.toNat
  (0x09 ≤ n && n ≤ 0x0D) || n == 0x20 || n == 0x85 || n == 0xA0 || n == 0x1680 ||
    (0x2000 ≤ n && n ≤ 0x200A) || n == 0x2028 || n == 0x2029 || n == 0x202F ||
    n == 0x205F || n == 0x3000

/-! ## Trimming -/

/-- The text without its leading white space. -/
def trimStart (cs : List Char) : List Char :=
  cs.dropWhile isBlank

/-- The text without its trailing white space. -/
def trimEnd (cs : List Char) : List Char :=
  (cs.reverse.dropWhile isBlank).reverse

/-- The text without white space at either end. -/
def trimChars (cs : List Char) : List Char :=
  trimEnd (trimStart cs)

/-- The string without white space at either end. -/
def trim (s : String) : String :=
  String.ofList (trimChars s.toList)

/-- A text of white space only; the empty text is one. -/
def isBlankText (s : String) : Bool :=
  s.toList.all isBlank

/-! ## Words -/

/-- The maximal runs of characters that are not white space, where `word` has been read of the
run under way. -/
def wordsFrom (word : List Char) : List Char → List (List Char)
  | [] => if word.isEmpty then [] else [word]
  | c :: rest =>
    if isBlank c then
      if word.isEmpty then wordsFrom [] rest else word :: wordsFrom [] rest
    else wordsFrom (word ++ [c]) rest

/-- The maximal runs of characters that are not white space, in order. -/
def words (cs : List Char) : List (List Char) :=
  wordsFrom [] cs

end PeerSearch.Text
