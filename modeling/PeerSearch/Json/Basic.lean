import PeerSearch.Number.DecimalText
import PeerSearch.SortedMap

/-!
# PeerSearch.Json.Basic -- JSON values

A value keeps what its text says. Numbers written as whole numbers stay apart from those with a
fraction or an exponent; members of an object stand in the order of the text, repeated names
included; and a string literal with an unpaired surrogate is kept as a string that denotes no
text (`none`), because a reader that skips the value never looks at it.
-/

namespace PeerSearch

/-- A number literal: a whole number of at most 64 bits, or a decimal. -/
inductive JsonNumber where
  | whole (n : Int)
  | decimal (negative : Bool) (value : Number.Decimal)
  deriving DecidableEq, Repr

/-- A JSON value. -/
inductive Json where
  | null
  | bool (b : Bool)
  | number (n : JsonNumber)
  | string (s : Option String)
  | array (items : List Json)
  | object (members : List (Option String × Json))
  deriving Repr

namespace JsonNumber

open Number

/-- The power of ten as a number of double precision. -/
def powerOfTen (n : Nat) : Binary :=
  (Format.double.round? (pow10 n) 1).getD ⟨0, 0⟩

/-- `b / 10 ^ 308`, taken `steps` times, each time to the nearest double. -/
def scaleDown : Nat → Binary → Binary
  | 0, b => b
  | steps + 1, b =>
    if b.mantissa == 0 then b
    else
      let p := powerOfTen 308
      scaleDown steps ((Format.double.round? (b.num * p.den) (b.den * p.num)).getD ⟨0, 0⟩)

/-- Steps of 308 after which every double has become zero. -/
def stepsToZero : Nat := 3

/-- The double of a decimal literal: its digits as a double, multiplied or divided by the power of
ten as a double. A value too large for a double has none. -/
def doubleOfDecimal? (d : Decimal) : Option Binary := do
  let b ← Format.double.round? d.digits 1
  if b.mantissa == 0 then
    return b
  else if 308 < d.exponent then
    none
  else if 0 ≤ d.exponent then
    let p := powerOfTen d.exponent.toNat
    Format.double.round? (b.num * p.num) (b.den * p.den)
  else
    let places := (-d.exponent).toNat
    let steps := min ((places - 1) / 308) stepsToZero
    let b := scaleDown steps b
    let p := powerOfTen (min (places - 308 * steps) 308)
    Format.double.round? (b.num * p.den) (b.den * p.num)

/-- Sign and absolute value of the double nearest to the literal, if it is not too large. -/
def toDouble? : JsonNumber → Option (Bool × Binary)
  | .whole n => (Format.double.round? n.natAbs 1).map (n < 0, ·)
  | .decimal negative d => (doubleOfDecimal? d).map (negative, ·)

/-- The literal as a single-precision number: a whole one goes to the nearest, any other by way of
double precision. -/
def toSingle? : JsonNumber → Option Binary32
  | .whole n => some (.ofQuotient (n < 0) n.natAbs 1)
  | .decimal negative d => (doubleOfDecimal? d).map (·.toSingle negative)

/-- The literal for a single-precision number, with the digits of the equal double. -/
def ofSingle (x : Binary32) : JsonNumber :=
  let b := x.absolute
  let wide := (Format.double.round? b.num b.den).getD ⟨0, 0⟩
  .decimal x.isNegative (Format.double.shortest .toEven wide)

end JsonNumber

namespace Json

/-! ## Reading parts of a value -/

def text? : Json → Option String
  | .string s => s
  | _ => none

def bool? : Json → Option Bool
  | .bool b => some b
  | _ => none

/-- A whole number from `low` to `high`. -/
def wholeIn? (low high : Int) : Json → Option Int
  | .number (.whole n) => if low ≤ n && n ≤ high then some n else none
  | _ => none

/-- A whole number of 64 bits without sign. -/
def nat64? (j : Json) : Option Nat :=
  (j.wholeIn? 0 (Number.maxOfBits 64)).map Int.toNat

/-- A whole number of 32 bits without sign. -/
def nat32? (j : Json) : Option Nat :=
  (j.wholeIn? 0 (Number.maxOfBits 32)).map Int.toNat

/-- A whole number of 64 bits with sign. -/
def int64? (j : Json) : Option Int :=
  j.wholeIn? (-(Number.pow2 63 : Int)) (Number.maxOfBits 63)

/-- A number in single precision. -/
def single? : Json → Option Binary32
  | .number n => n.toSingle?
  | _ => none

/-- The value of the last member of that name. -/
def member? (name : String) : Json → Option Json
  | .object members => (members.reverse.find? (·.1 == some name)).map (·.2)
  | _ => none

/-! ## Canonical order -/

/-- Members in the order of their names, the last one of each name. -/
def sortMembers (members : List (Option String × Json)) : List (Option String × Json) :=
  (SortedMap.ofList members).entries

mutual

/-- The value with the members of every object in the order of their names, the last one of each
name standing for it. -/
def canonical : Json → Json
  | .array items => .array (canonicalItems items)
  | .object members => .object (sortMembers (canonicalMembers members))
  | j => j

/-- The canonical forms of items. -/
def canonicalItems : List Json → List Json
  | [] => []
  | item :: items => canonical item :: canonicalItems items

/-- Members with the canonical forms of their values. -/
def canonicalMembers : List (Option String × Json) → List (Option String × Json)
  | [] => []
  | (name, value) :: members => (name, canonical value) :: canonicalMembers members

end

/-! ## Building values -/

def ofText (s : String) : Json :=
  .string (some s)

def ofNat (n : Nat) : Json :=
  .number (.whole n)

def ofInt (n : Int) : Json :=
  .number (.whole n)

/-- An object with the given members. -/
def ofMembers (members : List (String × Json)) : Json :=
  .object (members.map fun (name, value) => (some name, value))

/-- The encoding of a value that may be absent; `null` stands for absence. -/
def ofOption {α : Type} (encode : α → Json) : Option α → Json
  | none => .null
  | some a => encode a

end Json

end PeerSearch
