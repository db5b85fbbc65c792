import PeerSearch.Json.Reader
import PeerSearch.Settings.Value
import PeerSearch.Text.Blank

/-!
# PeerSearch.Ini.Reader -- settings as sections of keys with text

A document is a list of entries, each a key and a text with an equals sign or a colon between them,
and of headers in brackets that say to which section the entries below them belong. All values are
texts. A comment takes a whole line. A section that is opened again starts afresh.
-/

namespace PeerSearch.Ini

/-- What a document is made of. -/
inductive Statement where
  | header (name : String)
  | entry (key value : String)
  deriving DecidableEq, Repr

/-! ## Characters -/

/-- The text from behind the blanks at its start, and whether a line starts there, given whether one
starts in front of them. -/
def skipBlanks (atLineStart : Bool) : List Char → Bool × List Char
  | c :: rest => if Text.isBlank c then skipBlanks (c == '\n') rest else (atLineStart, c :: rest)
  | [] => (atLineStart, [])

/-- The text from behind the blanks at its start that are on the same line. -/
def skipGaps (cs : List Char) : List Char :=
  cs.dropWhile fun c => Text.isBlank c && c != '\n' && c != '\r'

/-- The character for a letter behind a backslash; other characters stand for themselves. -/
def escaped (c : Char) : Char :=
  match c with
  | '0' => '\x00'
  | 'a' => '\x07'
  | 'b' => '\x08'
  | 't' => '\t'
  | 'r' => '\r'
  | 'n' => '\n'
  | c => c

/-- The character that four hexadecimal digits spell. -/
def hexChar? (a b c d : Char) : Option Char := do
  let unit ← Json.hexUnit? a b c d
  if 0xD800 ≤ unit && unit < 0xE000 then none else return Char.ofNat unit

/-- The text up to one of the characters that end it, and what follows. A backslash in front of a
line end joins the lines; `mayEnd` tells whether the document may end in the text. -/
def readUntil? (isEnd : Char → Bool) (mayEnd : Bool) :
    Nat → List Char → Option (List Char × List Char)
  | _, [] => if mayEnd then some ([], []) else none
  | 0, _ => none
  | fuel + 1, c :: rest =>
    if isEnd c then some ([], c :: rest)
    else if c == '\\' then
      match rest with
      | [] => none
      | '\n' :: rest => readUntil? isEnd mayEnd fuel rest
      | 'x' :: a :: b :: c :: d :: rest => do
        let c ← hexChar? a b c d
        let (cs, rest) ← readUntil? isEnd mayEnd fuel rest
        return (c :: cs, rest)
      | 'x' :: _ => none
      | c :: rest =>
        (readUntil? isEnd mayEnd fuel rest).map fun (cs, rest) => (escaped c :: cs, rest)
    else (readUntil? isEnd mayEnd fuel rest).map fun (cs, rest) => (c :: cs, rest)

/-! ## Values -/

/-- Texts in quotes, one behind the other, and the rest of the line without the blanks at its end;
`first` tells that nothing has been read of the value. -/
def readParts? (first : Bool) : Nat → List Char → Option (List Char × List Char)
  | _, [] => some ([], [])
  | 0, _ => none
  | fuel + 1, c :: rest =>
    if c == '"' || c == '\x27' then
      match readUntil? (· == c) false rest.length rest with
      | some (text, _ :: rest) =>
        (readParts? false fuel rest).map fun (more, rest) => (text ++ more, rest)
      | _ => none
    else
      (readUntil? (fun c => c == '\n' || c == '\r') true (rest.length + 1) (c :: rest)).map
        fun (text, rest) => (if first then Text.trimChars text else Text.trimEnd text, rest)

/-- A value, and what follows it. -/
def readValue? (cs : List Char) : Option (List Char × List Char) :=
  let cs := skipGaps cs
  readParts? true cs.length cs

/-! ## Documents -/

/-- A header or an entry, and what follows it. -/
def readStatement? (cs : List Char) : Option (Statement × List Char) :=
  match cs with
  | '[' :: rest =>
    match readUntil? (· == ']') false rest.length rest with
    | some (name, _ :: rest) => some (.header (String.ofList (Text.trimChars name)), rest)
    | _ => none
  | _ =>
    match readUntil? (fun c => c == '=' || c == ':') false cs.length cs with
    | some (key, _ :: rest) =>
      let key := Text.trimChars key
      if key.isEmpty then none
      else (readValue? rest).map fun (value, rest) =>
        (.entry (String.ofList key) (String.ofList value), rest)
    | _ => none

/-- All statements of a document, given whether a line starts in front of it. -/
def readStatements? (atLineStart : Bool) : Nat → List Char → Option (List Statement)
  | fuel, cs =>
    match fuel, skipBlanks atLineStart cs with
    | _, (_, []) => some []
    | 0, _ => none
    | fuel + 1, (atLineStart, c :: rest) =>
      if c == ';' || c == '#' then
        if atLineStart then readStatements? false fuel (rest.dropWhile (· != '\n')) else none
      else
        match readStatement? (c :: rest) with
        | some (statement, rest) => (readStatements? false fuel rest).map (statement :: ·)
        | none => none

/-- The section that statements make up, put over one; `name` is that of the section that they
belong to. -/
def assemble (base : SettingSection) (name : Option String) : List Statement → SettingSection
  | [] => base
  | .header name :: rest => assemble (base.put name (.part [])) (some name) rest
  | .entry key value :: rest =>
    let base :=
      match name with
      | none => base.put key (.text value)
      | some name =>
        base.put name (.part ((SettingSection.ofValue (base.lookup name)).put key (.text value)))
    assemble base name rest

/-- Reads a document. -/
def read? (s : String) : Option SettingSection :=
  (readStatements? true (s.toList.length + 1) s.toList).map (assemble [] none)

end PeerSearch.Ini
