/-!
# PeerSearch.Text.Utf8 -- reading bytes as text, whatever they are

A character takes one to four bytes. Bytes that are no character are read as the replacement
character: one for each longest run of bytes that starts a character and breaks off, and one for
each byte that starts none.
-/

namespace PeerSearch.Text

/-- What stands for bytes that are no character. -/
def replacement : Char := '\uFFFD'

/-- A character of which some bytes have been read. -/
structure PartialChar where
  value : Nat
  /-- The number of bytes to come. -/
  missing : Nat
  /-- The least and the largest byte that may come next. -/
  low : Nat := 0x80
  high : Nat := 0xBF
  deriving DecidableEq, Repr

namespace PartialChar

/-- What has been read with the first byte of a character of several bytes. The second byte of some
is bounded, so that each character has one form and no half of a surrogate pair has any. -/
def start? (b : Nat) : Option PartialChar :=
  if b < 0xC2 then none
  else if b < 0xE0 then some { value := b - 0xC0, missing := 1 }
  else if b == 0xE0 then some { value := 0, missing := 2, low := 0xA0 }
  else if b == 0xED then some { value := 0xD, missing := 2, high := 0x9F }
  else if b < 0xF0 then some { value := b - 0xE0, missing := 2 }
  else if b == 0xF0 then some { value := 0, missing := 3, low := 0x90 }
  else if b < 0xF4 then some { value := b - 0xF0, missing := 3 }
  else if b == 0xF4 then some { value := 4, missing := 3, high := 0x8F }
  else none

end PartialChar

/-- The characters that a byte completes where a character starts, and what it leaves open. -/
def startByte (b : Nat) : List Char × Option PartialChar :=
  if b < 0x80 then ([Char.ofNat b], none)
  else
    match PartialChar.start? b with
    | some p => ([], some p)
    | none => ([replacement], none)

/-- The characters that a byte completes, and what it leaves open. -/
def nextByte (pending : Option PartialChar) (b : Nat) : List Char × Option PartialChar :=
  match pending with
  | none => startByte b
  | some p =>
    if p.low ≤ b && b ≤ p.high then
      let value := 64 * p.value + b % 64
      if p.missing ≤ 1 then ([Char.ofNat value], none)
      else ([], some { value, missing := p.missing - 1 })
    else
      let (cs, pending) := startByte b
      (replacement :: cs, pending)

/-- The characters of bytes in front of which some of a character have been read. -/
def decodeFrom (pending : Option PartialChar) : List UInt8 → List Char
  | [] => if pending.isSome then [replacement] else []
  | b :: rest =>
    let (cs, pending) := nextByte pending b.toNat
    cs ++ decodeFrom pending rest

/-- The characters of bytes. -/
def decode (bytes : List UInt8) : List Char :=
  decodeFrom none bytes

end PeerSearch.Text
