import PeerSearch.Json.Basic

/-!
# PeerSearch.Json.Printer -- writing JSON text

Two layouts of one value: everything on one line, or one item to a line with two spaces for each
level. A decimal always shows that it is one: it has a fraction, or an exponent when it is very
large or very small.
-/

namespace PeerSearch

/-! ## Numbers -/

/-- Least and largest number of digits in front of the point for which no exponent is written. -/
def JsonNumber.positionalDigits : Int × Int := (-4, 16)

/-- The text of a decimal: positional with at least one place after the point, or one digit in front
of the point and an exponent. -/
def JsonNumber.decimalText (d : Number.Decimal) : String :=
  let ds := (toString d.digits).toList
  let point : Int := ds.length + d.exponent
  let (least, most) := positionalDigits
  if d.digits == 0 then "0.0"
  else if 0 ≤ d.exponent && point ≤ most then
    String.ofList (ds ++ List.replicate d.exponent.toNat '0') ++ ".0"
  else if least ≤ point && point ≤ most then d.positional
  else
    let fraction := if ds.length == 1 then [] else '.' :: ds.drop 1
    String.ofList (ds.take 1 ++ fraction) ++ "e" ++ toString (point - 1)

/-- The text of a number. -/
def JsonNumber.text : JsonNumber → String
  | .whole n => toString n
  | .decimal negative d => (if negative then "-" else "") ++ decimalText d

namespace Json

/-! ## Strings -/

/-- The hexadecimal digit of a value below 16. -/
def hexDigit (n : Nat) : Char :=
  if n < 10 then Char.ofNat ('0'.toNat + n) else Char.ofNat ('a'.toNat + (n - 10))

/-- A character inside a string literal: quotes, backslashes and control characters are escaped. -/
def escape (c : Char) : List Char :=
  match c with
  | '"' => ['\\', '"']
  | '\\' => ['\\', '\\']
  | '\x08' => ['\\', 'b']
  | '\x0c' => ['\\', 'f']
  | '\n' => ['\\', 'n']
  | '\r' => ['\\', 'r']
  | '\t' => ['\\', 't']
  | c =>
    if c.toNat < 0x20 then
      ['\\', 'u', '0', '0', hexDigit (c.toNat / 16), hexDigit (c.toNat % 16)]
    else [c]

/-- The string literal for a text. -/
def quote (s : String) : String :=
  String.ofList ('"' :: s.toList.flatMap escape ++ ['"'])

/-! ## Values -/

/-- Marks between the parts of an array or object: what follows the opening bracket, what separates
two parts, what stands before the closing bracket, and what separates a name from its value. -/
structure Layout where
  first : Nat → String
  between : Nat → String
  last : Nat → String
  colon : String

/-- A new line followed by the spaces of a level. -/
def newLine (level : Nat) : String :=
  String.ofList ('\n' :: List.replicate (2 * level) ' ')

/-- Everything on one line, without spaces. -/
def Layout.compact : Layout where
  first _ := ""
  between _ := ","
  last _ := ""
  colon := ":"

/-- One part to a line. -/
def Layout.pretty : Layout where
  first level := newLine (level + 1)
  between level := "," ++ newLine (level + 1)
  last level := newLine level
  colon := ": "

mutual

/-- The text of a value that stands on `level`. -/
def render (layout : Layout) (level : Nat) : Json → String
  | .null => "null"
  | .bool b => if b then "true" else "false"
  | .number n => n.text
  | .string s => quote (s.getD "")
  | .array [] => "[]"
  | .array (item :: items) =>
    "[" ++ layout.first level ++ render layout (level + 1) item ++
      renderItems layout level items ++ layout.last level ++ "]"
  | .object [] => "\x7b\x7d"
  | .object ((name, value) :: members) =>
    "\x7b" ++ layout.first level ++ quote (name.getD "") ++ layout.colon ++
      render layout (level + 1) value ++ renderMembers layout level members ++
      layout.last level ++ "\x7d"

/-- The text of further items, each after a separator. -/
def renderItems (layout : Layout) (level : Nat) : List Json → String
  | [] => ""
  | item :: items =>
    layout.between level ++ render layout (level + 1) item ++ renderItems layout level items

/-- The text of further members, each after a separator. -/
def renderMembers (layout : Layout) (level : Nat) : List (Option String × Json) → String
  | [] => ""
  | (name, value) :: members =>
    layout.between level ++ quote (name.getD "") ++ layout.colon ++
      render layout (level + 1) value ++ renderMembers layout level members

end

/-- The value on one line. -/
def compact (j : Json) : String :=
  j.render .compact 0

/-- The value with one part to a line. -/
def pretty (j : Json) : String :=
  j.render .pretty 0

end Json

end PeerSearch
