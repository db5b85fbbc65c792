import PeerSearch.Text.CaseTable

/-!
# PeerSearch.Text.LowerCase -- full Unicode lower-casing

Every character is lower-cased by itself, with two exceptions. Capital I with a dot above becomes
two characters, and capital sigma becomes the final form at the end of a word: when a cased letter
stands before it and none after it, looking through characters that case ignores.
-/

namespace PeerSearch.Text

/-! ## One character -/

/-- The lower-case form of a character that does not depend on its neighbours. -/
def lowerChar (c : Char) : List Char :=
  if c.toNat < 0x80 then
    if 'A' ≤ c && c ≤ 'Z' then [Char.ofNat (c.toNat + 0x20)] else [c]
  else if c.toNat == 0x130 then ['i', Char.ofNat 0x307]
  else
    match lowerRuns.find? (·.holds c.toNat) with
    | some run => [Char.ofNat (c.toNat + run.offset).toNat]
    | none => [c]

/-- Whether the first character that case does not ignore is a cased letter. -/
def leadsToCased (cs : List Char) : Bool :=
  match cs.dropWhile caseIgnorable.holds with
  | c :: _ => casedLetters.holds c
  | [] => false

/-- The two lower-case forms of capital sigma: `before` holds the characters in front of it,
nearest first, and `after` those that follow. -/
def lowerSigma (before after : List Char) : Char :=
  if leadsToCased before && !leadsToCased after then 'ς' else 'σ'

/-! ## Texts -/

/-- The lower-case form of a text that follows `before`, given nearest character first. -/
def lowerFrom (before : List Char) : List Char → List Char
  | [] => []
  | c :: rest =>
    (if c == 'Σ' then [lowerSigma before rest] else lowerChar c) ++ lowerFrom (c :: before) rest

/-- The lower-case form of a text. -/
def lowerChars (cs : List Char) : List Char :=
  lowerFrom [] cs

/-- The lower-case form of a string. -/
def lower (s : String) : String :=
  String.ofList (lowerChars s.toList)

end PeerSearch.Text
