import PeerSearch.Number.Binary

/-!
# PeerSearch.Number.Shortest -- the fewest decimal digits that read back

A number of a format stands for the interval of values that round to it. Its shortest decimal form
is the coarsest power of ten with a multiple in that interval, and of two such multiples the one
nearer to the number.
-/

namespace PeerSearch.Number

/-- The decimal number `digits * 10 ^ exponent`. -/
structure Decimal where
  digits : Nat
  exponent : Int
  deriving DecidableEq, Repr

namespace Format

/-- Whether `digits * 10 ^ exponent` rounds to the positive number `b` of the format. The interval
is measured in quarters of the last bit; its ends belong to it when the mantissa is even, and it is
narrower below a power of two. -/
def readsBack (f : Format) (b : Binary) (d : Decimal) : Bool :=
  let q := b.exponent - 2
  let scaled (quarters : Nat) : Nat := quarters * pow2 q.toNat * pow10 (-d.exponent).toNat
  let value := d.digits * pow10 d.exponent.toNat * pow2 (-q).toNat
  let below := if b.mantissa == pow2 (f.precision - 1) && f.minExponent < b.exponent then 1 else 2
  let low := scaled (4 * b.mantissa - below)
  let high := scaled (4 * b.mantissa + 2)
  if b.mantissa % 2 == 0 then low ≤ value && value ≤ high else low < value && value < high

/-- The multiple of `10 ^ k` that stands for `b`, if one does: the nearest, and of two equally near
the one that `tie` says. -/
def onGrid? (f : Format) (tie : Tie) (b : Binary) (k : Int) : Option Decimal :=
  let num := b.num * pow10 (-k).toNat
  let den := b.den * pow10 k.toNat
  let near : Decimal := ⟨roundDiv tie num den, k⟩
  let other : Decimal := ⟨if near.digits == num / den then num / den + 1 else num / den, k⟩
  if f.readsBack b near then some near
  else if f.readsBack b other then some other
  else none

/-- Searches the grids `10 ^ k`, `10 ^ (k - 1)`, ... for `steps` steps. The finest grid searched is
one that the number itself lies on. -/
def searchGrids (f : Format) (tie : Tie) (b : Binary) : Nat → Int → Decimal
  | 0, k => ⟨roundDiv tie (b.num * pow10 (-k).toNat) (b.den * pow10 k.toNat), k⟩
  | steps + 1, k => (f.onGrid? tie b k).getD (searchGrids f tie b steps (k - 1))

/-- The shortest decimal form of a number of the format; zero has the digit 0. -/
def shortest (f : Format) (tie : Tie) (b : Binary) : Decimal :=
  if b.mantissa == 0 then ⟨0, 0⟩
  else
    let top : Nat := ((b.num / b.den).log2 / 3) + 1
    let bottom := min b.exponent 0
    f.searchGrids tie b (top - bottom).toNat top

end Format

namespace Decimal

/-- The digits of the number with a decimal point where it belongs, and zeros up to it; a whole
number has no point. -/
def positional (d : Decimal) : String :=
  let ds := toString d.digits
  if 0 ≤ d.exponent then
    if d.digits == 0 then "0" else ds ++ String.ofList (List.replicate d.exponent.toNat '0')
  else
    let places := (-d.exponent).toNat
    let all := List.replicate (places + 1 - ds.length) '0' ++ ds.toList
    let whole := all.length - places
    String.ofList (all.take whole ++ '.' :: all.drop whole)

end Decimal

end PeerSearch.Number
