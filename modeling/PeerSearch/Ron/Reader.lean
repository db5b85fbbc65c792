import PeerSearch.Json.Reader
import PeerSearch.Settings.Value
import PeerSearch.Text.Blank

/-!
# PeerSearch.Ron.Reader -- settings as records in parentheses

Records have their fields in parentheses, perhaps behind a name that does not count; tuples stand in
parentheses too, maps in braces and lists in brackets. A value may be wrapped as present or be told
to be absent. Comments may stand between any two words, and those between stars nest.
-/

namespace PeerSearch.Ron

/-! ## Blanks and comments -/

def isSpace (c : Char) : Bool :=
  c == ' ' || (0x09 ≤ c.toNat && c.toNat ≤ 0x0D) || c == '\x85' ||
    c == '\u200E' || c == '\u200F' || c == '\u2028' || c == '\u2029'

/-- What follows the end of a comment between stars with so many comments open. -/
def closeComment? : Nat → List Char → Option (List Char)
  | depth, '*' :: '/' :: rest => if depth = 0 then some rest else closeComment? (depth - 1) rest
  | depth, '/' :: '*' :: rest => closeComment? (depth + 1) rest
  | depth, _ :: rest => closeComment? depth rest
  | _, [] => none

/-- The text from behind the blanks and comments at its start. -/
def skipSpace : Nat → List Char → List Char
  | 0, cs => cs
  | fuel + 1, cs =>
    match cs.dropWhile isSpace with
    | '/' :: '/' :: rest => skipSpace fuel (rest.dropWhile (· != '\n'))
    | '/' :: '*' :: rest =>
      match closeComment? 0 rest with
      | some rest => skipSpace fuel rest
      | none => '/' :: '*' :: rest
    | cs => cs

/-- The text from behind all blanks and comments at its start. -/
def skip (cs : List Char) : List Char :=
  skipSpace (cs.length + 1) cs

/-! ## Texts and names -/

/-- The character that hexadecimal digits spell. -/
def hexChar? (digits : List Char) : Option Char := do
  let values ← digits.mapM Json.hexValue?
  let n := values.foldl (fun n v => 16 * n + v) 0
  if digits.isEmpty || 6 < digits.length || (0xD800 ≤ n && n < 0xE000) || 0x110000 ≤ n then none
  else return Char.ofNat n

/-- The character for what stands behind a backslash, and what follows. -/
def readEscape? : List Char → Option (Char × List Char)
  | '\x27' :: rest => some ('\x27', rest)
  | '"' :: rest => some ('"', rest)
  | '\\' :: rest => some ('\\', rest)
  | 'n' :: rest => some ('\n', rest)
  | 'r' :: rest => some ('\r', rest)
  | 't' :: rest => some ('\t', rest)
  | '0' :: rest => some ('\x00', rest)
  | 'x' :: a :: b :: rest => (hexChar? [a, b]).map (·, rest)
  | 'u' :: '\x7b' :: rest =>
    match rest.dropWhile (· != '\x7d') with
    | _ :: after => (hexChar? (rest.takeWhile (· != '\x7d'))).map (·, after)
    | [] => none
  | _ => none

/-- A text after its opening quote, and what follows the closing one. -/
def readChars? : Nat → List Char → Option (List Char × List Char)
  | fuel + 1, '\\' :: rest => do
    let (c, rest) ← readEscape? rest
    let (cs, rest) ← readChars? fuel rest
    return (c :: cs, rest)
  | _ + 1, '"' :: rest => some ([], rest)
  | fuel + 1, c :: rest => (readChars? fuel rest).map fun (cs, rest) => (c :: cs, rest)
  | _, _ => none

/-- A raw text up to a quote with so many hash signs behind it, and what follows those. -/
def readRaw? (hashes : Nat) : List Char → Option (List Char × List Char)
  | '"' :: rest =>
    if (rest.takeWhile (· == '#')).length < hashes then
      (readRaw? hashes rest).map fun (cs, rest) => ('"' :: cs, rest)
    else some ([], rest.drop hashes)
  | c :: rest => (readRaw? hashes rest).map fun (cs, rest) => (c :: cs, rest)
  | [] => none

/-- A character in single quotes after the first of them, and what follows the last. -/
def readChar? : List Char → Option (Char × List Char)
  | '\\' :: rest =>
    match readEscape? rest with
    | some (c, '\x27' :: rest) => some (c, rest)
    | _ => none
  | c :: '\x27' :: rest => some (c, rest)
  | _ => none

/-- A text in any kind of quotes, and what follows; `none` when none starts here. -/
def readText? (cs : List Char) : Option (Option (String × List Char)) :=
  let text (r : Option (List Char × List Char)) : Option (String × List Char) :=
    r.map fun (cs, rest) => (String.ofList cs, rest)
  match cs with
  | '"' :: rest => some (text (readChars? rest.length rest))
  | '\x27' :: rest => some ((readChar? rest).map fun (c, rest) => (String.ofList [c], rest))
  | 'r' :: rest =>
    match rest.dropWhile (· == '#') with
    | '"' :: after => some (text (readRaw? (rest.takeWhile (· == '#')).length after))
    | _ => none
  | _ => none

def isNameStart (c : Char) : Bool :=
  c.isAlpha || c == '_' || (0x80 ≤ c.toNat && !isSpace c)

def isNameChar (c : Char) : Bool :=
  isNameStart c || c.isDigit

/-- A name, and what follows it. -/
def readName? (cs : List Char) : Option (String × List Char) :=
  match cs with
  | 'r' :: '#' :: rest =>
    some (String.ofList (rest.takeWhile isNameChar), rest.dropWhile isNameChar)
  | c :: _ =>
    if isNameStart c then some (String.ofList (cs.takeWhile isNameChar), cs.dropWhile isNameChar)
    else none
  | [] => none

/-! ## Numbers -/

/-- A character of a number. -/
def isNumberChar (c : Char) : Bool :=
  c.isAlphanum || c == '_' || c == '+' || c == '-' || c == '.'

/-- The whole number that digits spell in a base, underscores left out. -/
def wholeOf? (base : Nat) (digits : List Char) : Option Nat := do
  let digits := digits.filter (· != '_')
  let values ← digits.mapM Json.hexValue?
  if digits.isEmpty || values.any (base ≤ ·) then none
  else return values.foldl (fun n v => base * n + v) 0

/-- The value of a number: a whole one of 64 bits, or a double. -/
def numberValue? (word : List Char) : Option SettingValue :=
  let (negative, digits) := Number.spanSign word
  let whole := match digits with
    | '0' :: 'x' :: digits => wholeOf? 16 digits
    | '0' :: 'o' :: digits => wholeOf? 8 digits
    | '0' :: 'b' :: digits => wholeOf? 2 digits
    | digits => wholeOf? 10 digits
  match whole, String.ofList digits with
  | some n, _ =>
    if !negative && n < Number.pow2 64 then some (.int n) else (Number.int64? negative n).map .int
  | none, "inf" => some (.float (.infinity negative))
  | none, "NaN" => some (.float .nan)
  | none, _ =>
    (Number.readUnsigned? (digits.filter (· != '_'))).map fun d =>
      .float (.ofReading (.decimal negative d))

/-! ## Values -/

/-- The value of a name that has nothing behind it. -/
def nameValue (name : String) : SettingValue :=
  match name with
  | "true" => .flag true
  | "false" => .flag false
  | "inf" => .float (.infinity false)
  | "NaN" => .float .nan
  | _ => .absent

/-- Whether a record starts here: a name with a colon behind it. -/
def startsField (cs : List Char) : Bool :=
  match readName? cs with
  | some (_, rest) => (skip rest).head? == some ':'
  | none => false

mutual

/-- A value and what follows it; `fuel` bounds the number of steps. -/
def readValue? : Nat → List Char → Option (SettingValue × List Char)
  | 0, _ => none
  | fuel + 1, cs =>
    let cs := skip cs
    match readText? cs with
    | some text => text.map fun (text, rest) => (.text text, rest)
    | none =>
      match cs with
      | '[' :: rest => (readItems? ']' fuel rest).map fun (items, rest) => (.list items, rest)
      | '\x7b' :: rest => (readEntries? fuel [] rest).map fun (s, rest) => (.part s, rest)
      | '(' :: rest => readGroup? fuel rest
      | c :: _ =>
        if c.isDigit || c == '+' || c == '-' || c == '.' then
          (numberValue? (cs.takeWhile isNumberChar)).map (·, cs.dropWhile isNumberChar)
        else
          match readName? cs with
          | some (name, after) =>
            match name, skip after with
            | "Some", '(' :: rest => do
              let (value, rest) ← readValue? fuel rest
              let rest := match skip rest with
                | ',' :: rest => skip rest
                | rest => rest
              match rest with
              | ')' :: rest => return (value, rest)
              | _ => none
            | _, '(' :: rest => readGroup? fuel rest
            | _, _ => some (nameValue name, after)
          | none => none
      | [] => none

/-- What stands behind an opening parenthesis, and what follows the closing one: nothing, fields, or
the items of a tuple. -/
def readGroup? : Nat → List Char → Option (SettingValue × List Char)
  | 0, _ => none
  | fuel + 1, cs =>
    match skip cs with
    | ')' :: rest => some (.absent, rest)
    | cs =>
      if startsField cs then (readFields? fuel [] cs).map fun (s, rest) => (.part s, rest)
      else (readItems? ')' fuel cs).map fun (items, rest) => (.list items, rest)

/-- Items up to the closing bracket, and what follows it. -/
def readItems? (close : Char) : Nat → List Char → Option (List SettingValue × List Char)
  | 0, _ => none
  | fuel + 1, cs =>
    let cs := skip cs
    if cs.head? == some close then some ([], cs.tail)
    else do
      let (item, rest) ← readValue? fuel cs
      let rest := skip rest
      if rest.head? == some close then return ([item], rest.tail)
      else if rest.head? == some ',' then
        let (items, rest) ← readItems? close fuel rest.tail
        return (item :: items, rest)
      else none

/-- The fields of a record up to the closing parenthesis, put over some, and what follows it. -/
def readFields? : Nat → SettingSection → List Char → Option (SettingSection × List Char)
  | 0, _, _ => none
  | fuel + 1, base, cs =>
    match skip cs with
    | ')' :: rest => some (base, rest)
    | cs => do
      let (name, rest) ← readName? cs
      match skip rest with
      | ':' :: rest =>
        let (value, rest) ← readValue? fuel rest
        let base := base.put name value
        match skip rest with
        | ')' :: rest => return (base, rest)
        | ',' :: rest => readFields? fuel base rest
        | _ => none
      | _ => none

/-- The entries of a map, whose keys are texts, up to the closing brace, put over some, and what
follows it. -/
def readEntries? : Nat → SettingSection → List Char → Option (SettingSection × List Char)
  | 0, _, _ => none
  | fuel + 1, base, cs =>
    match skip cs with
    | '\x7d' :: rest => some (base, rest)
    | cs => do
      let (name, rest) ← (← readText? cs)
      match skip rest with
      | ':' :: rest =>
        let (value, rest) ← readValue? fuel rest
        let base := base.put name value
        match skip rest with
        | '\x7d' :: rest => return (base, rest)
        | ',' :: rest => readEntries? fuel base rest
        | _ => none
      | _ => none

end

/-! ## Documents -/

/-- The text from behind the marks at its start that switch on extensions of the format. -/
def skipMarks : Nat → List Char → List Char
  | 0, cs => cs
  | fuel + 1, cs =>
    match skip cs with
    | '#' :: '!' :: rest =>
      match rest.dropWhile (· != ']') with
      | _ :: rest => skipMarks fuel rest
      | [] => cs
    | cs => cs

mutual

/-- Whether lists and sections in a value are nested at most `depth` deep. -/
def nestsWithin (depth : Nat) : SettingValue → Bool
  | .list items => depth != 0 && itemsNestWithin (depth - 1) items
  | .part members => depth != 0 && membersNestWithin (depth - 1) members
  | _ => true

/-- The same for all items of a list. -/
def itemsNestWithin (depth : Nat) : List SettingValue → Bool
  | [] => true
  | v :: items => nestsWithin depth v && itemsNestWithin depth items

/-- The same for all members of a section. -/
def membersNestWithin (depth : Nat) : List (String × SettingValue) → Bool
  | [] => true
  | (_, v) :: members => nestsWithin depth v && membersNestWithin depth members

end

/-- How deep a document may be nested. -/
def maxDepth : Nat := 128

/-- Reads a document, which is a record or a map. -/
def read? (s : String) : Option SettingSection :=
  let cs := skipMarks s.toList.length s.toList
  match readValue? (3 * cs.length + 4) cs with
  | some (.part members, rest) =>
    if (skip rest).isEmpty && nestsWithin maxDepth (.part members) then some members else none
  | _ => none

end PeerSearch.Ron
