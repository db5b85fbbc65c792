import PeerSearch.Json.Reader
import PeerSearch.Settings.Value
import PeerSearch.Text.Blank

/-!
# PeerSearch.Json5.Reader -- settings in JSON as it is typed by hand

The format is JSON with comments, commas behind the last item, names without quotes, texts in single
quotes, and more ways to write a number. Of members of one name the last one counts.
-/

namespace PeerSearch.Json5

/-! ## Blanks and comments -/

def isLineEnd (c : Char) : Bool :=
  c == '\n' || c == '\r' || c == '\u2028' || c == '\u2029'

def isSpace (c : Char) : Bool :=
  c == '\uFEFF' || (Text.isBlank c && c != '\x85')

/-- What follows the end of a comment between stars. -/
def closeComment? : List Char → Option (List Char)
  | '*' :: '/' :: rest => some rest
  | _ :: rest => closeComment? rest
  | [] => none

/-- The text from behind the blanks and comments at its start. -/
def skipSpace : Nat → List Char → List Char
  | 0, cs => cs
  | fuel + 1, cs =>
    match cs.dropWhile isSpace with
    | '/' :: '/' :: rest => skipSpace fuel (rest.dropWhile (!isLineEnd ·))
    | '/' :: '*' :: rest =>
      match closeComment? rest with
      | some rest => skipSpace fuel rest
      | none => '/' :: '*' :: rest
    | cs => cs

/-- The text from behind all blanks and comments at its start. -/
def skip (cs : List Char) : List Char :=
  skipSpace (cs.length + 1) cs

/-! ## Texts and names -/

/-- The character for one behind a backslash, other than a line end, a digit, `x` and `u`. -/
def escaped (c : Char) : Char :=
  match c with
  | 'b' => '\x08'
  | 'f' => '\x0c'
  | 'n' => '\n'
  | 'r' => '\r'
  | 't' => '\t'
  | 'v' => '\x0b'
  | c => c

/-- The units of a text after its opening quote, up to the closing one, and what follows. Units are
code points, or halves of a surrogate pair. -/
def readUnits? (quote : Char) : Nat → List Char → Option (List Nat × List Char)
  | fuel + 1, '\\' :: 'u' :: a :: b :: c :: d :: rest => do
    let unit ← Json.hexUnit? a b c d
    let (units, rest) ← readUnits? quote fuel rest
    return (unit :: units, rest)
  | fuel + 1, '\\' :: 'x' :: a :: b :: rest => do
    let unit ← Json.hexUnit? '0' '0' a b
    let (units, rest) ← readUnits? quote fuel rest
    return (unit :: units, rest)
  | fuel + 1, '\\' :: '\r' :: '\n' :: rest => readUnits? quote fuel rest
  | fuel + 1, '\\' :: c :: rest =>
    if isLineEnd c then readUnits? quote fuel rest
    else if c == 'u' || c == 'x' || (c.isDigit && (c != '0' || rest.head?.any Char.isDigit)) then
      none
    else do
      let (units, rest) ← readUnits? quote fuel rest
      return ((if c == '0' then 0 else (escaped c).toNat) :: units, rest)
  | fuel + 1, c :: rest =>
    if c == quote then some ([], rest)
    else if c == '\n' || c == '\r' then none
    else do
      let (units, rest) ← readUnits? quote fuel rest
      return (c.toNat :: units, rest)
  | _, _ => none

/-- A text after its opening quote, and what follows the closing one. -/
def readText? (quote : Char) (cs : List Char) : Option (String × List Char) := do
  let (units, rest) ← readUnits? quote cs.length cs
  return (String.ofList (← Json.charsOfUnits? units), rest)

/-- A character at the start of a name without quotes. -/
def isNameStart (c : Char) : Bool :=
  c.isAlpha || c == '$' || c == '_' || (0x80 ≤ c.toNat && !isSpace c)

/-- A character of a name without quotes. -/
def isNameChar (c : Char) : Bool :=
  isNameStart c || c.isDigit

/-- The name of a member, and what follows it. -/
def readName? : List Char → Option (String × List Char)
  | '"' :: rest => readText? '"' rest
  | '\x27' :: rest => readText? '\x27' rest
  | c :: rest =>
    if isNameStart c then
      some (String.ofList (c :: rest.takeWhile isNameChar), rest.dropWhile isNameChar)
    else none
  | [] => none

/-! ## Numbers and words -/

/-- A character of a number or a word. -/
def isWordChar (c : Char) : Bool :=
  isNameChar c || c == '+' || c == '-' || c == '.'

/-- A whole number in base sixteen, of 32 bits. -/
def hexValue? (digits : List Char) : Option SettingValue := do
  let values ← digits.mapM Json.hexValue?
  let n : Nat := values.foldl (fun n v => 16 * n + v) 0
  if digits.isEmpty || Number.pow2 32 ≤ n then none else return .int n

/-- A number without sign is written in digits, of which the first is no zero in front of more. -/
def hasPlainDigits (digits : List Char) : Bool :=
  match digits with
  | '0' :: c :: _ => !c.isDigit
  | c :: _ => c.isDigit || c == '.'
  | [] => false

/-- A decimal number, a whole one of 64 bits if it has neither a point nor an exponent. -/
def decimalValue? (negative : Bool) (digits : List Char) : Option SettingValue :=
  if !hasPlainDigits digits then none
  else if digits.all Char.isDigit then
    (Number.int64? negative (Number.ofDigits digits)).map .int
  else do
    let d ← Number.readUnsigned? digits
    match Number.Double.ofReading (.decimal negative d) with
    | .finite negative absolute => return .float (.finite negative absolute)
    | _ => none

/-- The value of a word. -/
def wordValue? (word : List Char) : Option SettingValue :=
  let (negative, digits) := Number.spanSign word
  match String.ofList word, String.ofList digits with
  | "null", _ => some .absent
  | "true", _ => some (.flag true)
  | "false", _ => some (.flag false)
  | _, "Infinity" => some (.float (.infinity negative))
  | _, "NaN" => some (.float .nan)
  | _, _ =>
    match word with
    | '0' :: 'x' :: digits => hexValue? digits
    | '0' :: 'X' :: digits => hexValue? digits
    | _ => decimalValue? negative digits

/-! ## Values -/

mutual

/-- A value and what follows it; `fuel` bounds the number of steps. -/
def readValue? : Nat → List Char → Option (SettingValue × List Char)
  | 0, _ => none
  | fuel + 1, cs =>
    match skip cs with
    | '[' :: rest => (readItems? fuel rest).map fun (items, rest) => (.list items, rest)
    | '\x7b' :: rest => (readMembers? fuel [] rest).map fun (s, rest) => (.part s, rest)
    | '"' :: rest => (readText? '"' rest).map fun (text, rest) => (.text text, rest)
    | '\x27' :: rest => (readText? '\x27' rest).map fun (text, rest) => (.text text, rest)
    | cs => (wordValue? (cs.takeWhile isWordChar)).map (·, cs.dropWhile isWordChar)

/-- The items of a list after its bracket, and what follows the closing one. -/
def readItems? : Nat → List Char → Option (List SettingValue × List Char)
  | 0, _ => none
  | fuel + 1, cs =>
    match skip cs with
    | ']' :: rest => some ([], rest)
    | cs => do
      let (item, rest) ← readValue? fuel cs
      match skip rest with
      | ']' :: rest => return ([item], rest)
      | ',' :: rest =>
        let (items, rest) ← readItems? fuel rest
        return (item :: items, rest)
      | _ => none

/-- The members of an object after its brace, put over some, and what follows the closing one. -/
def readMembers? : Nat → SettingSection → List Char → Option (SettingSection × List Char)
  | 0, _, _ => none
  | fuel + 1, base, cs =>
    match skip cs with
    | '\x7d' :: rest => some (base, rest)
    | cs => do
      let (name, rest) ← readName? cs
      match skip rest with
      | ':' :: rest =>
        let (value, rest) ← readValue? fuel rest
        let base := base.put name value
        match skip rest with
        | '\x7d' :: rest => return (base, rest)
        | ',' :: rest => readMembers? fuel base rest
        | _ => none
      | _ => none

end

/-- Reads a document, which is an object. -/
def read? (s : String) : Option SettingSection :=
  match readValue? (2 * s.toList.length + 4) s.toList with
  | some (.part members, rest) => if (skip rest).isEmpty then some members else none
  | _ => none

end PeerSearch.Json5
