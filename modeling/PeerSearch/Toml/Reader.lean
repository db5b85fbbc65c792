import PeerSearch.Json.Reader
import PeerSearch.Settings.Path
import PeerSearch.Toml.DateTime
import PeerSearch.Toml.Draft

/-!
# PeerSearch.Toml.Reader -- reading settings documents

The format has a statement to a line, comments behind a hash sign, text in four kinds of quotes,
numbers with underscores between digits, dates and times, and lists and tables in brackets. A line
ends with a line feed, in front of which a carriage return may stand.
-/

namespace PeerSearch.Toml

/-! ## Blanks, comments and line ends -/

def isGap (c : Char) : Bool :=
  c == ' ' || c == '\t'

def skipGaps (cs : List Char) : List Char :=
  cs.dropWhile isGap

/-- A character that may stand in a comment or in a text on one line. -/
def isPlain (c : Char) : Bool :=
  c == '\t' || (0x20 ≤ c.toNat && c.toNat != 0x7F)

/-- What follows a line end at the start of the text. -/
def afterLineEnd? : List Char → Option (List Char)
  | '\n' :: rest => some rest
  | '\r' :: '\n' :: rest => some rest
  | _ => none

/-- What follows the end of a line, with blanks and a comment in front of it. -/
def endLine? (cs : List Char) : Option (List Char) :=
  let rest := match skipGaps cs with
    | '#' :: comment => comment.dropWhile isPlain
    | rest => rest
  match rest with
  | [] => some []
  | rest => afterLineEnd? rest

/-- The text without the lines at its start that hold nothing. -/
def skipLines : Nat → List Char → List Char
  | 0, cs => cs
  | fuel + 1, cs =>
    match skipGaps cs with
    | [] => []
    | rest =>
      match endLine? rest with
      | some next => skipLines fuel next
      | none => rest

/-! ## Texts in quotes -/

/-- The character that hexadecimal digits spell. -/
def hexChar? (digits : List Char) : Option Char := do
  let values ← digits.mapM Json.hexValue?
  let n := values.foldl (fun n v => 16 * n + v) 0
  if n < 0xD800 || (0xE000 ≤ n && n < 0x110000) then return Char.ofNat n else none

/-- The character that so many hexadecimal digits spell, and what follows. -/
def readHex? (count : Nat) (cs : List Char) : Option (Char × List Char) :=
  if cs.length < count then none else (hexChar? (cs.take count)).map (·, cs.drop count)

/-- The character for what stands behind a backslash, and what follows. -/
def readEscape? : List Char → Option (Char × List Char)
  | 'x' :: rest => readHex? 2 rest
  | 'u' :: rest => readHex? 4 rest
  | 'U' :: rest => readHex? 8 rest
  | 'e' :: rest => some ('\x1b', rest)
  | '/' :: _ => none
  | c :: rest => (Json.escaped? c).map (·, rest)
  | [] => none

/-- A text on one line after its opening double quote, and what follows the closing one. -/
def readBasic? : Nat → List Char → Option (List Char × List Char)
  | fuel + 1, '\\' :: rest => do
    let (c, rest) ← readEscape? rest
    let (cs, rest) ← readBasic? fuel rest
    return (c :: cs, rest)
  | _ + 1, '"' :: rest => some ([], rest)
  | fuel + 1, c :: rest =>
    if isPlain c then (readBasic? fuel rest).map fun (cs, rest) => (c :: cs, rest) else none
  | _, _ => none

/-- A text on one line after its opening single quote, and what follows the closing one. -/
def readLiteral? (cs : List Char) : Option (List Char × List Char) :=
  match cs.dropWhile fun c => isPlain c && c != '\x27' with
  | '\x27' :: rest => some (cs.takeWhile (fun c => isPlain c && c != '\x27'), rest)
  | _ => none

/-- The text without blanks and line ends at its start. -/
def skipBlanks : List Char → List Char
  | '\r' :: '\n' :: rest => skipBlanks rest
  | c :: rest => if isGap c || c == '\n' then skipBlanks rest else c :: rest
  | [] => []

/-- What follows a backslash at the end of a line: the text from its next character on. -/
def continued? (cs : List Char) : Option (List Char) :=
  (afterLineEnd? (skipGaps cs)).map skipBlanks

/-- A text on several lines after its three opening quotes, and what follows the closing ones, in
front of which two more quotes may stand. -/
def readBlock? (quote : Char) : Nat → List Char → Option (List Char × List Char)
  | fuel + 1, c :: rest =>
    if c == quote then
      let quotes := (c :: rest).takeWhile (· == quote)
      if quotes.length < 3 then
        (readBlock? quote fuel rest).map fun (cs, rest) => (c :: cs, rest)
      else if quotes.length ≤ 5 then
        some (quotes.drop 3, (c :: rest).drop quotes.length)
      else none
    else if c == '\\' && quote == '"' then
      match continued? rest with
      | some rest => readBlock? quote fuel rest
      | none => do
        let (c, rest) ← readEscape? rest
        let (cs, rest) ← readBlock? quote fuel rest
        return (c :: cs, rest)
    else if isPlain c || (afterLineEnd? (c :: rest)).isSome then
      (readBlock? quote fuel rest).map fun (cs, rest) => (c :: cs, rest)
    else none
  | _, _ => none

/-- The text without a line end at its start. -/
def dropLineEnd (cs : List Char) : List Char :=
  (afterLineEnd? cs).getD cs

/-- A text in quotes, on one line or on several, and what follows. -/
def readText? (cs : List Char) : Option (List Char × List Char) :=
  match cs with
  | '"' :: '"' :: '"' :: rest => readBlock? '"' cs.length (dropLineEnd rest)
  | '\x27' :: '\x27' :: '\x27' :: rest => readBlock? '\x27' cs.length (dropLineEnd rest)
  | '"' :: rest => readBasic? cs.length rest
  | '\x27' :: rest => readLiteral? rest
  | _ => none

/-! ## Keys -/

/-- The largest number of names in a key, and the deepest nesting of lists and tables in braces. -/
def maxDepth : Nat := 80

/-- One name of a key, and what follows. -/
def readName? (cs : List Char) : Option (String × List Char) :=
  match cs with
  | '"' :: rest => (readBasic? cs.length rest).map fun (name, rest) => (String.ofList name, rest)
  | '\x27' :: rest => (readLiteral? rest).map fun (name, rest) => (String.ofList name, rest)
  | _ =>
    let name := cs.takeWhile SettingPath.isNameChar
    if name.isEmpty then none
    else some (String.ofList name, cs.dropWhile SettingPath.isNameChar)

/-- A key of at most so many names with dots between them, and what follows it and the blanks behind
it. -/
def readNames? : Nat → List Char → Option (KeyPath × List Char)
  | 0, _ => none
  | count + 1, cs => do
    let (name, rest) ← readName? (skipGaps cs)
    match skipGaps rest with
    | '.' :: rest =>
      let (path, rest) ← readNames? count rest
      return (name :: path, rest)
    | rest => return ([name], rest)

/-- A key, and what follows it and the blanks behind it. -/
def readKey? (cs : List Char) : Option (KeyPath × List Char) :=
  readNames? maxDepth cs

/-! ## Numbers, words and dates -/

/-- A character of a value that stands without quotes. -/
def isWordChar (c : Char) : Bool :=
  c.isAlphanum || c == '_' || c == '+' || c == '-' || c == '.' || c == ':'

/-- Digits without the underscores between them; there is a digit on both sides of each. -/
def joinDigits? (isDigit : Char → Bool) (cs : List Char) : Option (List Char) :=
  let groups := Text.split '_' cs
  if groups.all fun g => !g.isEmpty && g.all isDigit then some groups.flatten else none

/-- The number that digits spell in a base. -/
def ofBase (base : Nat) (digits : List Char) : Nat :=
  digits.foldl (fun n c => base * n + (Json.hexValue? c).getD 0) 0

/-- A whole number that fits 64 bits with a sign. -/
def wholeValue? (negative : Bool) (magnitude : Nat) : Option SettingValue :=
  (Number.int64? negative magnitude).map .int

/-- A whole number in a base other than ten. -/
def basedValue? (base : Nat) (digits : List Char) : Option SettingValue := do
  let isDigit (c : Char) : Bool := (Json.hexValue? c).any (· < base)
  wholeValue? false (ofBase base (← joinDigits? isDigit digits))

/-- Decimal digits of which the first is no zero unless it is the only one. -/
def wholeDigits? (cs : List Char) : Option (List Char) := do
  let digits ← joinDigits? Char.isDigit cs
  if digits.head? == some '0' && 1 < digits.length then none else return digits

/-- A decimal number with a fraction, an exponent or both; one too large for a double is none. -/
def floatValue? (negative : Bool) (cs : List Char) : Option SettingValue := do
  let isMark (c : Char) : Bool := c == 'e' || c == 'E'
  let whole ← wholeDigits? (cs.takeWhile fun c => c != '.' && !isMark c)
  let rest := cs.dropWhile fun c => c != '.' && !isMark c
  let (fraction, rest) ← match rest with
    | '.' :: rest => do
      let digits ← joinDigits? Char.isDigit (rest.takeWhile (!isMark ·))
      some (digits, rest.dropWhile (!isMark ·))
    | _ => some ([], rest)
  let exponent ← match rest with
    | _ :: rest => do
      let (negative, digits) := Number.spanSign rest
      let digits ← joinDigits? Char.isDigit digits
      let n : Int := Number.ofDigits digits
      some (if negative then -n else n)
    | [] => some 0
  let value : Number.Decimal := ⟨Number.ofDigits (whole ++ fraction), exponent - fraction.length⟩
  match Number.Double.ofReading (.decimal negative value) with
  | .infinity _ => none
  | x => return .float x

/-- Whether a word starts like a date or a time of day. -/
def isMoment (cs : List Char) : Bool :=
  match cs.takeWhile Char.isDigit, cs.dropWhile Char.isDigit with
  | _ :: _, c :: _ => c == '-' || c == ':'
  | _, _ => false

/-- The value of a word that stands without quotes. -/
def wordValue? (cs : List Char) : Option SettingValue :=
  let (negative, digits) := Number.spanSign cs
  match String.ofList cs, String.ofList digits with
  | "true", _ => some (.flag true)
  | "false", _ => some (.flag false)
  | _, "inf" => some (.float (.infinity negative))
  | _, "nan" => some (.float .nan)
  | _, _ =>
    match cs with
    | '0' :: 'x' :: digits => basedValue? 16 digits
    | '0' :: 'o' :: digits => basedValue? 8 digits
    | '0' :: 'b' :: digits => basedValue? 2 digits
    | _ =>
      if isMoment cs then (Moment.read? cs).map fun m => .text m.text
      else
        match wholeDigits? digits with
        | some digits => wholeValue? negative (Number.ofDigits digits)
        | none =>
          if digits.all Char.isDigit then none else floatValue? negative digits

/-- A word that stands without quotes and what follows. A time may follow a date after a blank. -/
def readWord? (cs : List Char) : Option (SettingValue × List Char) :=
  let word := cs.takeWhile isWordChar
  let rest := cs.dropWhile isWordChar
  let (word, rest) :=
    match readDate? word, rest with
    | some (_, []), ' ' :: more =>
      if more.head?.any Char.isDigit then
        (word ++ ' ' :: more.takeWhile isWordChar, more.dropWhile isWordChar)
      else (word, rest)
    | _, _ => (word, rest)
  (wordValue? word).map (·, rest)

/-! ## Values -/

mutual

/-- A value with at most so many levels of brackets, and what follows it; `fuel` bounds the number
of steps. -/
def readValue? (fuel levels : Nat) (cs : List Char) : Option (SettingValue × List Char) :=
  match fuel with
  | 0 => none
  | fuel + 1 =>
    match skipGaps cs with
    | '[' :: rest =>
      if levels = 0 then none
      else (readItems? fuel (levels - 1) rest).map fun (items, rest) => (.list items, rest)
    | '\x7b' :: rest =>
      if levels = 0 then none
      else (readMembers? fuel (levels - 1) {} rest).map fun (d, rest) => (.part d.toSection, rest)
    | c :: rest =>
      if c == '"' || c == '\x27' then
        (readText? (c :: rest)).map fun (text, rest) => (.text (String.ofList text), rest)
      else readWord? (c :: rest)
    | [] => none

/-- The items of a list after its bracket, and what follows the closing one. -/
def readItems? (fuel levels : Nat) (cs : List Char) : Option (List SettingValue × List Char) :=
  match fuel with
  | 0 => none
  | fuel + 1 =>
    match skipLines cs.length cs with
    | ']' :: rest => some ([], rest)
    | cs => do
      let (item, rest) ← readValue? fuel levels cs
      match skipLines rest.length rest with
      | ']' :: rest => return ([item], rest)
      | ',' :: rest =>
        let (items, rest) ← readItems? fuel levels rest
        return (item :: items, rest)
      | _ => none

/-- The members of a table in braces, put into a draft, and what follows the closing one. -/
def readMembers? (fuel levels : Nat) (d : Draft) (cs : List Char) : Option (Draft × List Char) :=
  match fuel with
  | 0 => none
  | fuel + 1 =>
    match skipLines cs.length cs with
    | '\x7d' :: rest => some (d, rest)
    | cs => do
      let (key, rest) ← readKey? cs
      match rest with
      | '=' :: rest =>
        let (value, rest) ← readValue? fuel levels rest
        let d ← d.assign? key value
        match skipLines rest.length rest with
        | '\x7d' :: rest => return (d, rest)
        | ',' :: rest => readMembers? fuel levels d rest
        | _ => none
      | _ => none

end

/-! ## Documents -/

/-- Reads one statement into a draft, up to the end of its line. -/
def readStatement? (d : Draft) (cs : List Char) : Option (Draft × List Char) := do
  let (d, rest) ← match cs with
    | '[' :: '[' :: rest =>
      match ← readKey? rest with
      | (path, ']' :: ']' :: rest) => (d.listHeader? path).map (·, rest)
      | _ => none
    | '[' :: rest =>
      match ← readKey? rest with
      | (path, ']' :: rest) => (d.header? path).map (·, rest)
      | _ => none
    | _ =>
      match ← readKey? cs with
      | (key, '=' :: rest) => do
        let (value, rest) ← readValue? (2 * cs.length + 4) maxDepth rest
        (d.assign? key value).map (·, rest)
      | _ => none
  return (d, ← endLine? rest)

/-- Reads all statements into a draft. -/
def readStatements? : Nat → Draft → List Char → Option Draft
  | 0, _, _ => none
  | fuel + 1, d, cs =>
    match skipLines cs.length cs with
    | [] => some d
    | cs => do
      let (d, rest) ← readStatement? d cs
      readStatements? fuel d rest

/-- Reads a document; a mark of the byte order in front of it does not count. -/
def read? (s : String) : Option SettingSection :=
  let cs := match s.toList with
    | '\uFEFF' :: cs => cs
    | cs => cs
  (readStatements? (cs.length + 1) {} cs).map Draft.toSection

end PeerSearch.Toml
