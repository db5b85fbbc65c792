/-!
# PeerSearch.Number.Power -- powers of two and of ten

Floating-point numbers are scaled by powers of two and decimal ones by powers of ten. Whole numbers
in records and settings have 32 or 64 bits, with or without a sign.
-/

namespace PeerSearch.Number

/-- `2 ^ n`. -/
def pow2 (n : Nat) : Nat := Nat.pow 2 n

/-- `10 ^ n`. -/
def pow10 (n : Nat) : Nat := Nat.pow 10 n

/-- The largest whole number of so many bits without sign. -/
def maxOfBits (bits : Nat) : Nat := pow2 bits - 1

/-- The whole number of 64 bits that has that sign and magnitude. -/
def int64? (negative : Bool) (magnitude : Nat) : Option Int :=
  if negative then if magnitude ≤ pow2 63 then some (-(magnitude : Int)) else none
  else if magnitude < pow2 63 then some (magnitude : Int)
  else none

end PeerSearch.Number
