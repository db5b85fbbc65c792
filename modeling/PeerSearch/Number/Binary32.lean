import PeerSearch.Number.Shortest

/-!
# PeerSearch.Number.Binary32 -- 32-bit floating-point numbers

Spam scores and thresholds are 32-bit floating-point numbers, held as their bits: a sign bit over a
31-bit magnitude, whose order is the order of the absolute values. Two orders matter. The numeric
one takes the two zeros for equal and nothing for comparable with a NaN; the total one puts the
negative zero first and compares every two numbers.
-/

namespace PeerSearch

/-- A 32-bit floating-point number, given by its bits. -/
structure Binary32 where
  bits : UInt32
  deriving DecidableEq, Repr

namespace Binary32

open Number

/-! ## Parts -/

/-- Whether the sign bit is set. -/
def isNegative (x : Binary32) : Bool :=
  pow2 31 ≤ x.bits.toNat

/-- The bits without the sign bit. -/
def magnitude (x : Binary32) : Nat :=
  x.bits.toNat % pow2 31

/-- The magnitude of the infinities; larger ones are NaNs. -/
def infinityMagnitude : Nat := 0x7F800000

def isNaN (x : Binary32) : Bool :=
  infinityMagnitude < x.magnitude

def isFinite (x : Binary32) : Bool :=
  x.magnitude < infinityMagnitude

/-- The absolute value of a finite number. -/
def absolute (x : Binary32) : Binary :=
  let field : Nat := x.magnitude / pow2 23
  let fraction : Nat := x.magnitude % pow2 23
  if field == 0 then ⟨fraction, -149⟩ else ⟨pow2 23 + fraction, (field : Int) - 150⟩

/-! ## Construction -/

/-- The number with the given sign and magnitude. -/
def ofParts (negative : Bool) (magnitude : Nat) : Binary32 :=
  ⟨UInt32.ofNat ((if negative then pow2 31 else 0) + magnitude)⟩

def zero : Binary32 := ⟨0⟩

def one : Binary32 := ⟨0x3F800000⟩

def nan : Binary32 := ⟨0x7FC00000⟩

def infinity (negative : Bool) : Binary32 :=
  ofParts negative infinityMagnitude

/-- The number nearest to `num / den` with the given sign; too large a quotient gives an
infinity. -/
def ofQuotient (negative : Bool) (num den : Nat) : Binary32 :=
  match Format.single.round? num den with
  | none => infinity negative
  | some b =>
    if b.mantissa < pow2 23 then ofParts negative b.mantissa
    else ofParts negative ((b.exponent + 150).toNat * pow2 23 + (b.mantissa - pow2 23))

/-! ## Orders -/

/-- Position in the numeric order; the two zeros share one. -/
def numericKey (x : Binary32) : Int :=
  if x.isNegative then -x.magnitude else x.magnitude

/-- Position in the total order: the negative zero comes right before the positive one. -/
def totalKey (x : Binary32) : Int :=
  if x.isNegative then -x.magnitude - 1 else x.magnitude

/-- Numeric `x ≤ y`, which fails when either is a NaN. -/
def le (x y : Binary32) : Bool :=
  !x.isNaN && !y.isNaN && x.numericKey ≤ y.numericKey

/-- Numeric `x < y`, which fails when either is a NaN. -/
def lt (x y : Binary32) : Bool :=
  !x.isNaN && !y.isNaN && x.numericKey < y.numericKey

/-- Numeric equality: the zeros are equal, and a NaN is equal to nothing. -/
def sameValue (x y : Binary32) : Bool :=
  x.le y && y.le x

/-- The total order, in which every number has its place. -/
def totalCompare (x y : Binary32) : Ordering :=
  compare x.totalKey y.totalKey

/-- The larger of two numbers, the first when they are equal. A NaN gives way to the other. -/
def larger (x y : Binary32) : Binary32 :=
  if x.isNaN || x.lt y then y else x

/-- The number moved to the nearer end of the interval when it lies outside. -/
def clamp (x low high : Binary32) : Binary32 :=
  if x.lt low then low else if high.lt x then high else x

/-- Whether the number lies between zero and one, both included. -/
def inUnitInterval (x : Binary32) : Bool :=
  zero.le x && x.le one

/-! ## Text -/

/-- The shortest digits that read back as the number, without an exponent; of two equally near
forms the larger is written. -/
def text (x : Binary32) : String :=
  if x.isNaN then "NaN"
  else
    let unsigned :=
      if x.isFinite then (Format.single.shortest .up x.absolute).positional else "inf"
    if x.isNegative then "-" ++ unsigned else unsigned

/-- The number with two decimal places; a value half-way between two goes to the even last
digit. -/
def textWithTwoPlaces (x : Binary32) : String :=
  if x.isFinite then
    let hundredths := roundDiv .toEven (x.absolute.num * 100) x.absolute.den
    let cents := toString (hundredths % 100)
    let unsigned :=
      toString (hundredths / 100) ++ "." ++ (if cents.length < 2 then "0" ++ cents else cents)
    if x.isNegative then "-" ++ unsigned else unsigned
  else x.text

end Binary32

end PeerSearch
