import PeerSearch.Number.DecimalText

/-!
# PeerSearch.Number.Double -- 64-bit floating-point numbers

Settings files and environment variables hold numbers of double precision. They are read from text,
turned into other kinds of values and shown; nothing is computed with them.
-/

namespace PeerSearch.Number

/-- A 64-bit floating-point number. -/
inductive Double where
  | finite (negative : Bool) (absolute : Binary)
  | infinity (negative : Bool)
  | nan
  deriving DecidableEq, Repr

namespace Double

/-- The number nearest to one read from text. -/
def ofReading : Reading → Double
  | .nan => nan
  | .infinity negative => infinity negative
  | .decimal negative d =>
    match d.round? .double with
    | some b => finite negative b
    | none => infinity negative

/-- The number nearest to a whole one. -/
def ofInt (n : Int) : Double :=
  match Format.double.round? n.natAbs 1 with
  | some b => finite (n < 0) b
  | none => infinity (n < 0)

/-- The nearest number of single precision. -/
def toSingle : Double → Binary32
  | finite negative b => b.toSingle negative
  | infinity negative => .infinity negative
  | nan => .nan

/-- Whether the number is not zero. -/
def isNonzero : Double → Bool
  | finite _ b => b.mantissa != 0
  | _ => true

/-- The nearest whole number from zero to the largest of 64 bits; a half goes up, and what is not a
number gives zero. -/
def toNat64 : Double → Nat
  | finite false b => min (roundDiv .up b.num b.den) (maxOfBits 64)
  | infinity false => maxOfBits 64
  | _ => 0

/-- The shortest digits that read back as the number, without an exponent; of two equally near
forms the larger is written. -/
def text : Double → String
  | finite negative b =>
    (if negative then "-" else "") ++ (Format.double.shortest .up b).positional
  | infinity negative => if negative then "-inf" else "inf"
  | nan => "NaN"

end Double

end PeerSearch.Number
