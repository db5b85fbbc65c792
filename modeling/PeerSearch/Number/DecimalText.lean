import PeerSearch.Number.Binary32

/-!
# PeerSearch.Number.DecimalText -- reading decimal numbers from text

The grammar of a number typed by a user: a sign, digits with a point among them or at either end,
an exponent, or one of the words for infinity and NaN in any case. The value is the nearest number
of the format, however many digits are given.
-/

namespace PeerSearch.Number

/-! ## Digits -/

/-- The number that the decimal digits spell. -/
def ofDigits (cs : List Char) : Nat :=
  cs.foldl (fun n c => 10 * n + (c.toNat - '0'.toNat)) 0

/-- The digits at the start of the text and what follows them. -/
def spanDigits (cs : List Char) : List Char × List Char :=
  (cs.takeWhile Char.isDigit, cs.dropWhile Char.isDigit)

/-- A sign at the start of the text, if there is one, and what follows it. -/
def spanSign : List Char → Bool × List Char
  | '-' :: rest => (true, rest)
  | '+' :: rest => (false, rest)
  | cs => (false, cs)

/-! ## Numbers -/

/-- A number as text gives it. -/
inductive Reading where
  | decimal (negative : Bool) (value : Decimal)
  | infinity (negative : Bool)
  | nan
  deriving DecidableEq, Repr

/-- The exponent that follows the digits, zero when there is none. -/
def readExponent? : List Char → Option Int
  | [] => some 0
  | c :: rest =>
    if c == 'e' || c == 'E' then
      let (negative, digits) := spanSign rest
      if digits.isEmpty || !digits.all Char.isDigit then none
      else some (if negative then -(ofDigits digits : Int) else ofDigits digits)
    else none

/-- A number without sign and words: digits, perhaps with a point, perhaps an exponent. -/
def readUnsigned? (cs : List Char) : Option Decimal :=
  let (whole, rest) := spanDigits cs
  let (fraction, rest) :=
    match rest with
    | '.' :: more => spanDigits more
    | _ => ([], rest)
  if whole.isEmpty && fraction.isEmpty then none
  else
    (readExponent? rest).map fun e => ⟨ofDigits (whole ++ fraction), e - fraction.length⟩

/-- Reads a number that fills the whole text. -/
def read? (s : String) : Option Reading :=
  let (negative, rest) := spanSign s.toList
  let word := String.ofList (rest.map Char.toLower)
  if word == "inf" || word == "infinity" then some (.infinity negative)
  else if word == "nan" then some .nan
  else (readUnsigned? rest).map (.decimal negative)

/-! ## Values -/

namespace Decimal

/-- A bound on the exponents that matter: beyond it every number is too large for the formats or
rounds to zero. -/
def farExponent : Int := 400

/-- The number of the format nearest to the decimal; `none` when it is too large. -/
def round? (f : Format) (d : Decimal) : Option Binary :=
  let size : Int := d.exponent + (toString d.digits).length
  if d.digits == 0 || size < -farExponent then f.round? 0 1
  else if farExponent < size then none
  else f.round? (d.digits * pow10 d.exponent.toNat) (pow10 (-d.exponent).toNat)

end Decimal

/-- The single-precision number nearest to a binary fraction. -/
def Binary.toSingle (negative : Bool) (b : Binary) : Binary32 :=
  Binary32.ofQuotient negative b.num b.den

/-- The single-precision number that the text stands for. -/
def Reading.toSingle : Reading → Binary32
  | .nan => .nan
  | .infinity negative => .infinity negative
  | .decimal negative d =>
    match d.round? .single with
    | some b => b.toSingle negative
    | none => .infinity negative

/-- The double-precision number that the text stands for, taken to single precision. -/
def Reading.toSingleByDouble : Reading → Binary32
  | .nan => .nan
  | .infinity negative => .infinity negative
  | .decimal negative d =>
    match d.round? .double with
    | some b => b.toSingle negative
    | none => .infinity negative

end PeerSearch.Number
