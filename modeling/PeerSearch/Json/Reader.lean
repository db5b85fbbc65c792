import PeerSearch.Json.Basic

/-!
# PeerSearch.Json.Reader -- strict reading of JSON text

The grammar is that of the standard without extensions: no trailing text, no leading zeros, no
control characters inside strings. Lists of items and members are read as far as they go, so that a
reader of a broken object can still say what it met before the break.
-/

namespace PeerSearch.Json

open Number

/-! ## Blanks and strings -/

/-- White space between the parts of a JSON text. -/
def isGap (c : Char) : Bool :=
  c == ' ' || c == '\t' || c == '\n' || c == '\r'

def skipGaps (cs : List Char) : List Char :=
  cs.dropWhile isGap

/-- The value of a hexadecimal digit. -/
def hexValue? (c : Char) : Option Nat :=
  if c.isDigit then some (c.toNat - '0'.toNat)
  else if 'a' ≤ c && c ≤ 'f' then some (c.toNat - 'a'.toNat + 10)
  else if 'A' ≤ c && c ≤ 'F' then some (c.toNat - 'A'.toNat + 10)
  else none

/-- The 16-bit unit that four hexadecimal digits spell. -/
def hexUnit? (a b c d : Char) : Option Nat := do
  let a ← hexValue? a
  let b ← hexValue? b
  let c ← hexValue? c
  let d ← hexValue? d
  return ((a * 16 + b) * 16 + c) * 16 + d

/-- The character that a letter stands for after a backslash. -/
def escaped? : Char → Option Char
  | '"' => some '"'
  | '\\' => some '\\'
  | '/' => some '/'
  | 'b' => some '\x08'
  | 'f' => some '\x0c'
  | 'n' => some '\n'
  | 'r' => some '\r'
  | 't' => some '\t'
  | _ => none

/-- The units of a string literal after its opening quote, up to the closing one, and what follows.
Units are code points, or halves of a surrogate pair. -/
def readUnits? : List Char → Option (List Nat × List Char)
  | [] => none
  | '"' :: rest => some ([], rest)
  | '\\' :: 'u' :: a :: b :: c :: d :: rest => do
    let unit ← hexUnit? a b c d
    let (units, rest) ← readUnits? rest
    return (unit :: units, rest)
  | '\\' :: c :: rest => do
    let c ← escaped? c
    let (units, rest) ← readUnits? rest
    return (c.toNat :: units, rest)
  | c :: rest =>
    if c.toNat < 0x20 then none
    else do
      let (units, rest) ← readUnits? rest
      return (c.toNat :: units, rest)

/-- The characters of a sequence of units, unless a surrogate stands unpaired. -/
def charsOfUnits? : List Nat → Option (List Char)
  | [] => some []
  | [u] => if 0xD800 ≤ u && u < 0xE000 then none else some [Char.ofNat u]
  | u :: v :: rest =>
    if 0xD800 ≤ u && u < 0xDC00 then
      if 0xDC00 ≤ v && v < 0xE000 then
        (charsOfUnits? rest).map
          (Char.ofNat (0x10000 + (u - 0xD800) * 0x400 + (v - 0xDC00)) :: ·)
      else none
    else if 0xDC00 ≤ u && u < 0xE000 then none
    else (charsOfUnits? (v :: rest)).map (Char.ofNat u :: ·)

/-- A string literal after its opening quote: its text, if it denotes one, and what follows. -/
def readString? (cs : List Char) : Option (Option String × List Char) :=
  (readUnits? cs).map fun (units, rest) => ((charsOfUnits? units).map String.ofList, rest)

/-! ## Numbers -/

/-- Digits of a literal joined to those before them as long as they fit 64 bits, the digits that
did, and whether all of them did. -/
def joinDigits (significand : Nat) : List Char → Nat × Nat × Bool
  | [] => (significand, 0, true)
  | c :: rest =>
    let next := 10 * significand + (c.toNat - '0'.toNat)
    if next < pow2 64 then
      let (s, used, all) := joinDigits next rest
      (s, used + 1, all)
    else (significand, 0, false)

/-- The exponent of a literal, if it has one, and what follows. -/
def readExponent? : List Char → Option (Option Int × List Char)
  | [] => some (none, [])
  | c :: rest =>
    if c == 'e' || c == 'E' then
      let (negative, rest) := spanSign rest
      let (digits, rest) := spanDigits rest
      if digits.isEmpty then none
      else
        let e : Int := ofDigits digits
        some (some (if negative then -e else e), rest)
    else some (none, c :: rest)

/-- The fraction digits of a literal, if it has a point, and what follows. -/
def readFraction? : List Char → Option (Option (List Char) × List Char)
  | '.' :: rest =>
    let (digits, rest) := spanDigits rest
    if digits.isEmpty then none else some (some digits, rest)
  | cs => some (none, cs)

/-- The number with the given parts. Digits beyond 64 bits are dropped, those in front of the point
being made up for by the exponent; a whole number that is negative zero or out of range for 64 bits
counts as a decimal. -/
def numberOfParts (negative : Bool) (whole : List Char) (fraction : Option (List Char))
    (exponent : Option Int) : JsonNumber :=
  let (s, used, all) := joinDigits 0 whole
  let lost := whole.length - used
  let plain : JsonNumber := .decimal negative ⟨s, lost⟩
  match fraction, exponent with
  | none, none =>
    if !all then plain
    else if negative then
      if s == 0 || pow2 63 < s then plain else .whole (-s)
    else .whole s
  | _, _ =>
    let (s, places, _) := joinDigits s (fraction.getD [])
    .decimal negative ⟨s, exponent.getD 0 + lost - places⟩

/-- A number literal and what follows it. -/
def readNumber? (cs : List Char) : Option (JsonNumber × List Char) := do
  let (negative, rest) := match cs with
    | '-' :: rest => (true, rest)
    | _ => (false, cs)
  let (whole, rest) := spanDigits rest
  if whole.isEmpty || (whole.head? == some '0' && 1 < whole.length) then
    none
  else
    let (fraction, rest) ← readFraction? rest
    let (exponent, rest) ← readExponent? rest
    return (numberOfParts negative whole fraction exponent, rest)

/-! ## Values -/

mutual

/-- A value and what follows it; `fuel` bounds the number of nested steps. -/
def readValue? : Nat → List Char → Option (Json × List Char)
  | 0, _ => none
  | fuel + 1, cs =>
    match skipGaps cs with
    | 'n' :: 'u' :: 'l' :: 'l' :: rest => some (.null, rest)
    | 't' :: 'r' :: 'u' :: 'e' :: rest => some (.bool true, rest)
    | 'f' :: 'a' :: 'l' :: 's' :: 'e' :: rest => some (.bool false, rest)
    | '"' :: rest => (readString? rest).map fun (s, rest) => (.string s, rest)
    | '[' :: rest =>
      match readItems fuel rest with
      | (items, some rest) => some (.array items, rest)
      | (_, none) => none
    | '\x7b' :: rest =>
      match readMembers fuel rest with
      | (members, some rest) => some (.object members, rest)
      | (_, none) => none
    | cs => (readNumber? cs).map fun (n, rest) => (.number n, rest)

/-- The items of an array after its bracket, and what follows the closing one; without it, the
items read before the text breaks. -/
def readItems : Nat → List Char → List Json × Option (List Char)
  | 0, _ => ([], none)
  | fuel + 1, cs =>
    match skipGaps cs with
    | ']' :: rest => ([], some rest)
    | cs => readItemsFrom fuel cs

/-- At least one item of an array. -/
def readItemsFrom : Nat → List Char → List Json × Option (List Char)
  | 0, _ => ([], none)
  | fuel + 1, cs =>
    match readValue? fuel cs with
    | none => ([], none)
    | some (item, rest) =>
      match skipGaps rest with
      | ']' :: rest => ([item], some rest)
      | ',' :: rest =>
        let (items, rest) := readItemsFrom fuel rest
        (item :: items, rest)
      | _ => ([item], none)

/-- The members of an object after its brace, and what follows the closing one; without it, the
members read before the text breaks. -/
def readMembers : Nat → List Char → List (Option String × Json) × Option (List Char)
  | 0, _ => ([], none)
  | fuel + 1, cs =>
    match skipGaps cs with
    | '\x7d' :: rest => ([], some rest)
    | cs => readMembersFrom fuel cs

/-- At least one member of an object. -/
def readMembersFrom : Nat → List Char → List (Option String × Json) × Option (List Char)
  | 0, _ => ([], none)
  | fuel + 1, cs =>
    match skipGaps cs with
    | '"' :: rest =>
      match readString? rest with
      | none => ([], none)
      | some (name, rest) =>
        match skipGaps rest with
        | ':' :: rest =>
          match readValue? fuel rest with
          | none => ([], none)
          | some (value, rest) =>
            match skipGaps rest with
            | '\x7d' :: rest => ([(name, value)], some rest)
            | ',' :: rest =>
              let (members, rest) := readMembersFrom fuel rest
              ((name, value) :: members, rest)
            | _ => ([(name, value)], none)
        | _ => ([], none)
    | _ => ([], none)

end

/-- Steps enough to read any text: each value takes at most two steps for each of its characters,
and one step is left at the end. -/
def enoughFuel (cs : List Char) : Nat :=
  2 * cs.length + 4

/-! ## Documents -/

/-- Levels of arrays and objects that a document may have. -/
def maxDepth : Nat := 127

mutual

/-- Whether the value denotes something: every string has a text, every number a double, and arrays
and objects are nested at most `depth` deep. -/
def isProper (depth : Nat) : Json → Bool
  | .null => true
  | .bool _ => true
  | .number n => n.toDouble?.isSome
  | .string s => s.isSome
  | .array items => depth != 0 && areProper (depth - 1) items
  | .object members => depth != 0 && haveProper (depth - 1) members

/-- Whether all items denote something. -/
def areProper (depth : Nat) : List Json → Bool
  | [] => true
  | item :: items => isProper depth item && areProper depth items

/-- Whether all members denote something. -/
def haveProper (depth : Nat) : List (Option String × Json) → Bool
  | [] => true
  | (name, value) :: members => name.isSome && isProper depth value && haveProper depth members

end

/-- Reads a text that is one JSON document. -/
def read? (s : String) : Option Json :=
  let cs := s.toList
  match readValue? (enoughFuel cs) cs with
  | some (value, rest) =>
    if (skipGaps rest).isEmpty && value.isProper maxDepth then some value else none
  | none => none

end PeerSearch.Json
