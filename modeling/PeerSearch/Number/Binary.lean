import PeerSearch.Number.Power

/-!
# PeerSearch.Number.Binary -- binary fractions and rounding to a format

A finite floating-point number is `mantissa * 2 ^ exponent`. A format bounds both; rounding takes a
quotient of natural numbers to the nearest number of a format, and to the even mantissa when two
are equally near.
-/

namespace PeerSearch.Number

/-! ## Rounding a quotient -/

/-- What becomes of a quotient half-way between two whole numbers. -/
inductive Tie where
  | toEven
  | up
  deriving DecidableEq, Repr

/-- The whole number nearest to `num / den`. -/
def roundDiv (tie : Tie) (num den : Nat) : Nat :=
  let q := num / den
  let twice := 2 * (num % den)
  if twice < den then q
  else if den < twice then q + 1
  else
    match tie with
    | .up => q + 1
    | .toEven => if q % 2 == 0 then q else q + 1

/-! ## Binary fractions -/

/-- The number `mantissa * 2 ^ exponent`. -/
structure Binary where
  mantissa : Nat
  exponent : Int
  deriving DecidableEq, Repr

namespace Binary

/-- Numerator of the number as a quotient of whole numbers. -/
def num (b : Binary) : Nat :=
  b.mantissa * pow2 b.exponent.toNat

/-- Denominator of the number as a quotient of whole numbers. -/
def den (b : Binary) : Nat :=
  pow2 (-b.exponent).toNat

end Binary

/-! ## Formats -/

/-- The finite numbers of a format have a mantissa of at most `precision` bits and an exponent from
`minExponent` to `maxExponent`. -/
structure Format where
  precision : Nat
  minExponent : Int
  maxExponent : Int
  deriving Repr

namespace Format

/-- Numbers of 32 bits. -/
def single : Format := ⟨24, -149, 104⟩

/-- Numbers of 64 bits. -/
def double : Format := ⟨53, -1074, 971⟩

/-- The largest exponent `e` with `2 ^ e ≤ num / den`, for positive numbers. -/
def floorLog2 (num den : Nat) : Int :=
  let k : Int := (num.log2 : Int) - den.log2
  if den * pow2 k.toNat ≤ num * pow2 (-k).toNat then k else k - 1

/-- The number of the format nearest to `num / den`; `none` when it is too large for the format. -/
def round? (f : Format) (num den : Nat) : Option Binary :=
  if num == 0 then some ⟨0, f.minExponent⟩
  else
    let e := max (floorLog2 num den - (f.precision - 1 : Nat)) f.minExponent
    let m := roundDiv .toEven (num * pow2 (-e).toNat) (den * pow2 e.toNat)
    let b : Binary := if m == pow2 f.precision then ⟨pow2 (f.precision - 1), e + 1⟩ else ⟨m, e⟩
    if f.maxExponent < b.exponent then none else some b

end Format

end PeerSearch.Number
