import PeerSearch.Number.DecimalText

/-!
# PeerSearch.Toml.DateTime -- dates and times of day in settings documents

A moment is a date, a time of day, or both; only both together may have an offset. Dates are those
of the Gregorian calendar. Moments are kept for their text: `read?` checks one, `text` writes it in
its usual form.
-/

namespace PeerSearch.Toml

/-- A day of the Gregorian calendar. -/
structure Date where
  year : Nat
  month : Nat
  day : Nat
  deriving DecidableEq, Repr

/-- A time of day; the last second of a day may be counted twice. -/
structure TimeOfDay where
  hour : Nat
  minute : Nat
  second : Option Nat := none
  /-- Digits of the fraction of a second, at most nine, without zeros at the end. -/
  fraction : Option (List Char) := none
  deriving DecidableEq, Repr

/-- The distance of local time from universal time. -/
inductive Offset where
  | universal
  | ahead (hours minutes : Nat)
  | behind (hours minutes : Nat)
  deriving DecidableEq, Repr

/-- A date, a time of day, or both. -/
inductive Moment where
  | date (d : Date)
  | time (t : TimeOfDay)
  | both (d : Date) (t : TimeOfDay) (offset : Option Offset)
  deriving DecidableEq, Repr

/-! ## The calendar -/

def isLeapYear (year : Nat) : Bool :=
  (year % 4 == 0 && year % 100 != 0) || year % 400 == 0

/-- The number of days of a month. -/
def daysInMonth (year month : Nat) : Nat :=
  if month == 2 then
    if isLeapYear year then 29 else 28
  else if [4, 6, 9, 11].contains month then 30
  else 31

namespace Date

def isValid (d : Date) : Bool :=
  1 ≤ d.month && d.month ≤ 12 && 1 ≤ d.day && d.day ≤ daysInMonth d.year d.month

end Date

/-! ## Reading -/

/-- The number that so many digits at the start of the text spell, and what follows. -/
def readDigits? (count : Nat) (cs : List Char) : Option (Nat × List Char) :=
  let digits := cs.take count
  if digits.length == count && digits.all Char.isDigit then
    some (Number.ofDigits digits, cs.drop count)
  else none

/-- What follows a character at the start of the text. -/
def after? (c : Char) : List Char → Option (List Char)
  | head :: rest => if head == c then some rest else none
  | [] => none

def readDate? (cs : List Char) : Option (Date × List Char) := do
  let (year, cs) ← readDigits? 4 cs
  let (month, cs) ← readDigits? 2 (← after? '-' cs)
  let (day, cs) ← readDigits? 2 (← after? '-' cs)
  let d : Date := { year, month, day }
  if d.isValid then return (d, cs) else none

/-- Digits without the zeros at their end; one is left. -/
def trimFraction (digits : List Char) : List Char :=
  match (digits.reverse.dropWhile (· == '0')).reverse with
  | [] => ['0']
  | digits => digits

def readTime? (cs : List Char) : Option (TimeOfDay × List Char) := do
  let (hour, cs) ← readDigits? 2 cs
  let (minute, cs) ← readDigits? 2 (← after? ':' cs)
  if 24 ≤ hour || 60 ≤ minute then none
  else
    match cs with
    | ':' :: cs =>
      let (second, cs) ← readDigits? 2 cs
      if 61 ≤ second then none
      else
        match cs with
        | '.' :: cs =>
          let digits := cs.takeWhile Char.isDigit
          if digits.isEmpty then none
          else
            let fraction := trimFraction (digits.take 9)
            return ({ hour, minute, second := some second, fraction := some fraction },
              cs.dropWhile Char.isDigit)
        | cs => return ({ hour, minute, second := some second }, cs)
    | cs => return ({ hour, minute }, cs)

/-- An offset that takes up the whole text. -/
def readOffset? (cs : List Char) : Option Offset :=
  match cs with
  | ['Z'] | ['z'] => some .universal
  | sign :: cs => do
    let (hours, cs) ← readDigits? 2 cs
    let (minutes, cs) ← readDigits? 2 (← after? ':' cs)
    if !cs.isEmpty || 24 ≤ hours || 60 ≤ minutes then none
    else if sign == '+' || (sign == '-' && hours == 0 && minutes == 0) then
      return .ahead hours minutes
    else if sign == '-' then return .behind hours minutes
    else none
  | [] => none

/-- A letter or a blank between a date and a time. -/
def isDateEnd (c : Char) : Bool :=
  c == 'T' || c == 't' || c == ' '

namespace Moment

/-- The moment that a text is. -/
def read? (cs : List Char) : Option Moment :=
  match readDate? cs with
  | some (d, []) => some (.date d)
  | some (d, c :: rest) =>
    if isDateEnd c then do
      let (t, rest) ← readTime? rest
      if rest.isEmpty then return .both d t none else return .both d t (← readOffset? rest)
    else none
  | none =>
    match readTime? cs with
    | some (t, []) => some (.time t)
    | _ => none

end Moment

/-! ## Writing -/

/-- A number with zeros in front of it up to so many digits. -/
def padded (count n : Nat) : String :=
  let digits := toString n
  String.ofList (List.replicate (count - digits.length) '0') ++ digits

def Date.text (d : Date) : String :=
  padded 4 d.year ++ "-" ++ padded 2 d.month ++ "-" ++ padded 2 d.day

def TimeOfDay.text (t : TimeOfDay) : String :=
  let second := (t.second.map fun s => ":" ++ padded 2 s).getD ""
  let fraction := (t.fraction.map fun digits => "." ++ String.ofList digits).getD ""
  padded 2 t.hour ++ ":" ++ padded 2 t.minute ++ second ++ fraction

def Offset.text : Offset → String
  | universal => "Z"
  | ahead hours minutes => "+" ++ padded 2 hours ++ ":" ++ padded 2 minutes
  | behind hours minutes => "-" ++ padded 2 hours ++ ":" ++ padded 2 minutes

def Moment.text : Moment → String
  | date d => d.text
  | time t => t.text
  | both d t offset => d.text ++ "T" ++ t.text ++ (offset.map Offset.text).getD ""

end PeerSearch.Toml
