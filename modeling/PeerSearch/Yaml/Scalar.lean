import PeerSearch.Json.Reader
import PeerSearch.Settings.Value
import PeerSearch.Text.Split

/-!
# PeerSearch.Yaml.Scalar -- values that are no collections

A word without quotes is a number, a truth value or nothing if it looks like one, and a text
otherwise. Texts in quotes may run over several lines, whose ends are folded into spaces; a block of
lines under a bar keeps its line ends.
-/

namespace PeerSearch.Yaml

/-! ## Words -/

/-- A whole number that fits 64 bits with a sign. -/
def wholeOf? (negative : Bool) (base : Nat) (digits : List Char) : Option Int := do
  let values ← digits.mapM Json.hexValue?
  if digits.isEmpty || values.any (base ≤ ·) then none
  else
    Number.int64? negative (values.foldl (fun n v => base * n + v) 0)

/-- A whole number in any of the forms that words have for it. -/
def wholeWord? (word : List Char) : Option Int :=
  match word with
  | '0' :: 'x' :: digits => wholeOf? false 16 digits
  | '0' :: 'o' :: digits => wholeOf? false 8 digits
  | '+' :: digits => wholeOf? false 10 digits
  | '-' :: digits => wholeOf? true 10 digits
  | digits => wholeOf? false 10 digits

/-- Words for numbers that are not finite. They are no numbers that settings can hold. -/
def endlessWords : List String :=
  [".inf", ".Inf", ".INF", "+.inf", "+.Inf", "+.INF", "-.inf", "-.Inf", "-.INF", ".nan", ".NaN",
    ".NAN"]

/-- The value of a word without quotes. -/
def wordValue? (word : List Char) : Option SettingValue :=
  match wholeWord? word, String.ofList word with
  | some n, _ => some (.int n)
  | none, "" => some .absent
  | none, "~" => some .absent
  | none, "null" => some .absent
  | none, "true" => some (.flag true)
  | none, "false" => some (.flag false)
  | none, text =>
    if endlessWords.contains text then none
    else
      match word.any Char.isDigit, Number.read? text with
      | true, some x => some (.float (.ofReading x))
      | _, _ => some (.text text)

/-- The name of a member that a word without quotes is, unless the word stands for nothing. -/
def wordName? (word : List Char) : Option String :=
  match wordValue? word with
  | some .absent => none
  | some (.int n) => some (toString n)
  | _ => some (String.ofList word)

/-! ## Line ends in texts -/

def isGap (c : Char) : Bool :=
  c == ' ' || c == '\t'

/-- What the line ends and blanks in a row at the start of the text come to, and what follows: one
line end is a space, and of more the first does not count. -/
def foldBreaks (cs : List Char) : List Char × List Char :=
  let blanks := cs.takeWhile fun c => isGap c || c == '\n'
  let breaks := blanks.filter (· == '\n')
  let rest := cs.dropWhile fun c => isGap c || c == '\n'
  match breaks with
  | [] => (blanks, rest)
  | [_] => ([' '], rest)
  | _ :: more => (more, rest)

/-! ## Texts in quotes -/

/-- A text after its opening single quote, and what follows the closing one; a quote inside is
written twice. -/
def readSingle? : Nat → List Char → Option (List Char × List Char)
  | fuel + 1, '\x27' :: '\x27' :: rest =>
    (readSingle? fuel rest).map fun (cs, rest) => ('\x27' :: cs, rest)
  | _ + 1, '\x27' :: rest => some ([], rest)
  | fuel + 1, c :: rest =>
    if isGap c || c == '\n' then
      let (blanks, rest) := foldBreaks (c :: rest)
      (readSingle? fuel rest).map fun (cs, rest) => (blanks ++ cs, rest)
    else (readSingle? fuel rest).map fun (cs, rest) => (c :: cs, rest)
  | _, _ => none

/-- The character that so many hexadecimal digits at the start of the text spell, and what
follows. -/
def readHex? (count : Nat) (cs : List Char) : Option (Char × List Char) := do
  let values ← (cs.take count).mapM Json.hexValue?
  let n := values.foldl (fun n v => 16 * n + v) 0
  if values.length < count || (0xD800 ≤ n && n < 0xE000) || 0x110000 ≤ n then none
  else return (Char.ofNat n, cs.drop count)

/-- The character for what stands behind a backslash, and what follows. -/
def readEscape? : List Char → Option (Char × List Char)
  | 'x' :: rest => readHex? 2 rest
  | 'u' :: rest => readHex? 4 rest
  | 'U' :: rest => readHex? 8 rest
  | c :: rest =>
    let letters : List (Char × Char) :=
      [('0', '\x00'), ('a', '\x07'), ('b', '\x08'), ('t', '\t'), ('\t', '\t'), ('n', '\n'),
        ('v', '\x0b'), ('f', '\x0c'), ('r', '\r'), ('e', '\x1b'), (' ', ' '), ('"', '"'),
        ('/', '/'), ('\\', '\\'), ('N', '\x85'), ('_', '\xa0'), ('L', '\u2028'), ('P', '\u2029')]
    (letters.lookup c).map (·, rest)
  | [] => none

/-- A text after its opening double quote, and what follows the closing one. A backslash at the end
of a line joins it to the next one. -/
def readDouble? : Nat → List Char → Option (List Char × List Char)
  | fuel + 1, '\\' :: '\n' :: rest => readDouble? fuel (rest.dropWhile isGap)
  | fuel + 1, '\\' :: rest => do
    let (c, rest) ← readEscape? rest
    let (cs, rest) ← readDouble? fuel rest
    return (c :: cs, rest)
  | _ + 1, '"' :: rest => some ([], rest)
  | fuel + 1, c :: rest =>
    if isGap c || c == '\n' then
      let (blanks, rest) := foldBreaks (c :: rest)
      (readDouble? fuel rest).map fun (cs, rest) => (blanks ++ cs, rest)
    else (readDouble? fuel rest).map fun (cs, rest) => (c :: cs, rest)
  | _, _ => none

/-- A text in quotes, and what follows. -/
def readQuoted? : List Char → Option (List Char × List Char)
  | '"' :: rest => readDouble? rest.length rest
  | '\x27' :: rest => readSingle? rest.length rest
  | _ => none

/-! ## Blocks of lines -/

/-- What becomes of the line ends at the end of a block. -/
inductive Chomping where
  | clip
  | strip
  | keep
  deriving DecidableEq, Repr

/-- How a block is read. -/
structure BlockStyle where
  /-- Whether single line ends become spaces. -/
  folded : Bool
  chomping : Chomping := .clip
  /-- The indentation of the lines beyond that of the block around them, when it is given. -/
  indentation : Option Nat := none
  deriving DecidableEq, Repr

/-- The style with one mark more. -/
def BlockStyle.mark? (s : BlockStyle) (c : Char) : Option BlockStyle :=
  if c == '-' then some { s with chomping := .strip }
  else if c == '+' then some { s with chomping := .keep }
  else if c.isDigit && c != '0' then some { s with indentation := some (c.toNat - '0'.toNat) }
  else none

/-- Lines of a folded block joined: one line end between two lines is a space unless one of them
starts with a blank. `first` tells that there is no line in front. -/
def joinFolded (first indented : Bool) (breaks : Nat) : List (List Char) → List Char
  | [] => []
  | [] :: rest => joinFolded first indented (breaks + 1) rest
  | line :: rest =>
    let starts := line.head?.any isGap
    let between :=
      if first then List.replicate breaks '\n'
      else if indented || starts then List.replicate (breaks + 1) '\n'
      else if breaks = 0 then [' ']
      else List.replicate breaks '\n'
    between ++ line ++ joinFolded false starts 0 rest

/-- The text of a block of lines, without their indentation. -/
def BlockStyle.join (s : BlockStyle) (lines : List (List Char)) : List Char :=
  let content := (lines.reverse.dropWhile List.isEmpty).reverse
  let blank := lines.length - content.length
  let text := if s.folded then joinFolded true false 0 content else ['\n'].intercalate content
  let tail := match s.chomping with
    | .strip => []
    | .clip => if content.isEmpty then [] else ['\n']
    | .keep => List.replicate (if content.isEmpty then blank else blank + 1) '\n'
  text ++ tail

end PeerSearch.Yaml
