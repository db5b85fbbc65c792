import PeerSearch.EditDistance
import PeerSearch.SearchResult
import PeerSearch.Text.LowerCase

/-!
# PeerSearch.Fingerprint -- when two results are the same file

A fingerprint holds what duplicate detection looks at. Extensions must agree. Two content hashes
decide by themselves; otherwise the sizes must be equal and the names within a few edits of each
other, a tenth of the shorter name and never more than four.
-/

namespace PeerSearch

/-! ## Names -/

/-- The name in lower case with single spaces between its words. -/
def normalizeName (name : String) : String :=
  String.ofList ([' '].intercalate ((Text.words name.toList).map Text.lowerChars))

/-! ## Fingerprints -/

/-- What duplicate detection looks at. -/
structure Fingerprint where
  hash : Option ContentHash
  /-- Extension in lower case. -/
  extension : String
  size : Nat
  normalizedName : String
  /-- Characters of the name before it was normalized. -/
  nameLength : Nat
  deriving DecidableEq

/-- The largest number of edits between two names of one file. -/
def maxNameEdits : Nat := 4

namespace Fingerprint

/-- The fingerprint of a result. -/
def ofResult (r : SearchResult) : Fingerprint where
  hash := r.hash
  extension := Text.lower r.extension
  size := r.size
  normalizedName := normalizeName r.stem
  nameLength := r.stem.length

/-- Edits allowed between the names: a tenth of the shorter length, to the nearest whole number,
up to the largest number allowed. -/
def allowedEdits (a b : Fingerprint) : Nat :=
  min ((min a.nameLength b.nameLength + 5) / 10) maxNameEdits

/-- Whether the names differ by no more than the allowed edits. -/
def similarNames (a b : Fingerprint) : Bool :=
  EditDistance.within (a.allowedEdits b) a.normalizedName.toList b.normalizedName.toList

end Fingerprint

/-! ## Comparison -/

/-- Verdict on two fingerprints. A scan in the order of sizes may stop at a different one, but not
at one of the same size. -/
inductive MatchOutcome where
  | identical
  /-- The sizes agree, but the extensions or the names do not. -/
  | sameSizeDifferentName
  | different
  deriving DecidableEq, Repr

def MatchOutcome.name : MatchOutcome → String
  | identical => "identical"
  | sameSizeDifferentName => "same_size_different_name"
  | different => "different"

namespace Fingerprint

/-- Compares two fingerprints. -/
def compareTo (a b : Fingerprint) : MatchOutcome :=
  match a.hash, b.hash with
  | some g, some h => if g = h ∧ a.extension = b.extension then .identical else .different
  | _, _ =>
    if a.size ≠ b.size then .different
    else if a.extension ≠ b.extension then .sameSizeDifferentName
    else if a.similarNames b then .identical
    else .sameSizeDifferentName

end Fingerprint

/-- Compares two results. -/
def SearchResult.compareTo (a b : SearchResult) : MatchOutcome :=
  (Fingerprint.ofResult a).compareTo (Fingerprint.ofResult b)

end PeerSearch
