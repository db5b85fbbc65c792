import PeerSearch.Yaml.Flow

/-!
# PeerSearch.Yaml.Reader -- settings as indented lines

Members of a section stand below each other in one column, and so do the items of a list behind
their dashes; what belongs to one of them is indented further. A list may stand in the column of the
name that it belongs to. A text holds at most one document, which is a section. Of one that refers
to other places of itself nothing is read.
-/

namespace PeerSearch.Yaml

/-! ## Blocks of lines -/

/-- The lines that are indented far enough, without their indentation, and what follows. -/
def spanLines (indentation : Nat) : Nat → List Char → List (List Char) × List Char
  | 0, cs => ([], cs)
  | fuel + 1, cs =>
    let line := cs.takeWhile (· != '\n')
    let spaces := line.takeWhile (· == ' ')
    if cs.isEmpty || (spaces.length < indentation && spaces != line) then ([], cs)
    else
      let (lines, rest) := spanLines indentation fuel ((cs.drop line.length).drop 1)
      (line.drop indentation :: lines, rest)

/-- The indentation of the first line that is not blank. -/
def firstIndentation : Nat → List Char → Nat
  | 0, _ => 0
  | fuel + 1, cs =>
    match cs.dropWhile (· == ' ') with
    | '\n' :: rest => firstIndentation fuel rest
    | rest => cs.length - rest.length

/-- A block of lines from behind its bar, and what follows; it is indented to a column at least. -/
def readBlock? (folded : Bool) (least : Nat) (cs : List Char) : Option (List Char × List Char) := do
  let header := cs.takeWhile (· != '\n')
  let marks := header.takeWhile (!isGap ·)
  let style ← marks.foldlM BlockStyle.mark? { folded }
  let text := cs.drop (header.length + 1)
  let note := (header.drop marks.length).dropWhile isGap
  let indentation := match style.indentation with
    | some n => least - 1 + n
    | none => max least (firstIndentation text.length text)
  let (lines, rest) := spanLines indentation text.length text
  if note.isEmpty || note.head? == some '#' then return (style.join lines, rest) else none

/-! ## Nodes -/

/-- Whether a dash in front of an item stands here. -/
def isDash : List Char → Bool
  | '-' :: rest => endsMark false rest
  | _ => false

/-- What follows a colon behind a name, unless only a tab keeps a word apart from it. -/
def afterName? : List Char → Option (List Char)
  | ':' :: rest =>
    let gap := rest.takeWhile isGap
    let next := (rest.drop gap.length).head?
    let isWord := next.any fun c => c.isAlphanum || c == '_' || c == '-'
    if gap.head? == some '\t' && !gap.contains ' ' && isWord then none
    else if endsMark false rest then some rest
    else none
  | _ => none

/-- The name of a member, and what follows its colon on the line. -/
def readKey? (cs : List Char) : Option (String × List Char) := do
  let (name, rest) ← readName? false cs
  let read := cs.take (cs.length - rest.length)
  if read.contains '\n' then none else return (name, ← afterName? (rest.dropWhile isGap))

/-- Where a node may stand, and how it is read. -/
structure NodeContext where
  /-- The least column of a node on a line of its own. -/
  least : Nat := 0
  /-- The least column of a list there. -/
  leastDash : Nat := 0
  /-- Whether a list or a section may start behind something else on the line. -/
  compact : Bool := false
  /-- Whether words are texts whatever they look like. -/
  verbatim : Bool := false
  deriving DecidableEq, Repr

/-- Whether words behind a tag are texts whatever they look like. -/
def isVerbatimTag (tag : List Char) : Bool :=
  let typed := ["!!bool", "!!int", "!!float", "!!null"]
  !typed.contains (String.ofList tag)

/-- The value of a word. -/
def NodeContext.wordValue? (k : NodeContext) (word : List Char) : Option SettingValue :=
  if k.verbatim then some (.text (String.ofList word)) else Yaml.wordValue? word

/-- A node that is no list or section of lines below each other. -/
def readSimple? (k : NodeContext) (c : Cursor) : Option (SettingValue × Cursor) :=
  match c.rest with
  | '|' :: rest =>
    (readBlock? false k.least rest).map fun (text, rest) =>
      (.text (String.ofList text), c.upTo rest)
  | '>' :: rest =>
    (readBlock? true k.least rest).map fun (text, rest) =>
      (.text (String.ofList text), c.upTo rest)
  | cs =>
    match readQuoted? cs with
    | some (text, rest) => some (.text (String.ofList text), c.upTo rest)
    | none =>
      if cs.head? == some '[' || cs.head? == some '\x7b' then
        (readBracketed? cs).map fun (v, rest) => (v, c.upTo rest)
      else if startsWord false cs then
        let (word, rest) := spanWord false k.least cs.length cs
        (k.wordValue? word).map (·, c.upTo rest)
      else none

mutual

/-- A node, and the place behind it; `fuel` bounds the number of steps. -/
def readNode? : Nat → NodeContext → Cursor → Option (SettingValue × Cursor)
  | 0, _, _ => none
  | fuel + 1, k, c =>
    let c := c.skip
    let opens := c.first || k.compact
    let least := if isDash c.rest then k.leastDash else k.least
    if c.rest.isEmpty || (c.first && c.column < least) then some (.absent, c)
    else
      match c.rest with
      | '&' :: rest => readNode? fuel k (c.upTo (rest.dropWhile (!endsMark false [·])))
      | '!' :: _ =>
        let tag := c.rest.takeWhile (!endsMark false [·])
        let k := { k with verbatim := isVerbatimTag tag }
        readNode? fuel k (c.upTo (c.rest.drop tag.length))
      | cs =>
        if isDash cs then
          if opens then (readItems? fuel c.column c).map fun (items, c) => (.list items, c)
          else none
        else if (readKey? cs).isSome then
          if opens then (readMembers? fuel c.column [] c).map fun (s, c) => (.part s, c)
          else none
        else readSimple? k c

/-- The items of a list from its dash in a column on, and the place behind them. -/
def readItems? : Nat → Nat → Cursor → Option (List SettingValue × Cursor)
  | 0, _, _ => none
  | fuel + 1, column, c => do
    let k : NodeContext := { least := column + 1, leastDash := column + 1, compact := true }
    let (item, c) ← readNode? fuel k c.step
    let c := c.skip
    if c.first && c.column == column && isDash c.rest then
      let (items, c) ← readItems? fuel column c
      return (item :: items, c)
    else return ([item], c)

/-- The members of a section from a name in its column on, behind some, and the place behind. -/
def readMembers? : Nat → Nat → SettingSection → Cursor → Option (SettingSection × Cursor)
  | 0, _, _, _ => none
  | fuel + 1, column, base, c => do
    let (name, rest) ← readKey? c.rest
    let (v, c) ← readNode? fuel { least := column + 1, leastDash := column } (c.upTo rest)
    let c := c.skip
    if (base.lookup name).isSome then none
    else if c.rest.isEmpty || (c.first && c.column < column) then
      return (base ++ [(name, v)], c)
    else if c.first && c.column == column then
      readMembers? fuel column (base ++ [(name, v)]) c
    else none

end

/-! ## Documents -/

/-- What follows the mark of the start of a document on its line. -/
def documentStart? : List Char → Option (List Char)
  | '-' :: '-' :: '-' :: rest => if endsMark false rest then some rest else none
  | _ => none

/-- Whether a line is the mark of the end of a document. -/
def isDocumentEnd : List Char → Bool
  | '.' :: '.' :: '.' :: rest => endsMark false rest
  | _ => false

/-- The document that has been read, if there is one: it has been marked or says something. -/
def closeDocument (marked : Bool) (text : List Char) : List Cursor :=
  if marked then [{ column := 3, first := false, rest := text }]
  else if (skipFrom false true text).isEmpty then []
  else [{ rest := text }]

/-- The documents that lines make up, where `text` has been read of one; directives in front of the
mark of the start of a document say nothing. -/
def documentsFrom (marked : Bool) (text : List Char) : List (List Char) → List Cursor
  | [] => closeDocument marked text
  | line :: lines =>
    match documentStart? line with
    | some rest => closeDocument marked text ++ documentsFrom true (rest ++ ['\n']) lines
    | none =>
      if isDocumentEnd line then closeDocument marked text ++ documentsFrom false [] lines
      else if !marked && line.head? == some '%' && (skipFrom false true text).isEmpty then
        documentsFrom false text lines
      else documentsFrom marked (text ++ line ++ ['\n']) lines

/-- The text with line feeds only at its line ends. -/
def normalizeBreaks : List Char → List Char
  | '\r' :: '\n' :: rest => '\n' :: normalizeBreaks rest
  | '\r' :: rest => '\n' :: normalizeBreaks rest
  | c :: rest => c :: normalizeBreaks rest
  | [] => []

/-- Reads a text with one document at most, which is a section. -/
def read? (s : String) : Option SettingSection :=
  match documentsFrom false [] (Text.split '\n' (normalizeBreaks s.toList)) with
  | [] => some []
  | [start] =>
    match readNode? (3 * start.rest.length + 3) {} start with
    | some (.part members, rest) => if rest.skip.rest.isEmpty then some members else none
    | _ => none
  | _ => none

end PeerSearch.Yaml
