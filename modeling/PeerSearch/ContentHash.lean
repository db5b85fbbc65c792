import PeerSearch.Text.Ascii
import PeerSearch.Text.Blank

/-!
# PeerSearch.ContentHash -- SHA-1 content names

A content hash names the exact bytes of a shared file: thirty-two characters of the base-32
alphabet, of which upper case is the canonical form. It is read from a bare digest or from a URN in
any case, with white space around it.
-/

namespace PeerSearch

/-! ## The type -/

/-- A character of the base-32 alphabet in canonical case. -/
def isBase32 (c : Char) : Bool :=
  ('A' ≤ c && c ≤ 'Z') || ('2' ≤ c && c ≤ '7')

/-- A digest in canonical form. -/
def isDigest (cs : List Char) : Bool :=
  cs.length == 32 && cs.all isBase32

/-- A content hash: a digest of thirty-two base-32 characters in upper case. -/
structure ContentHash where
  digest : List Char
  isDigest_digest : isDigest digest = true
  deriving DecidableEq

namespace ContentHash

/-- What stands in front of the digest in a URN. -/
def scheme : List Char := "urn:sha1:".toList

/-- The canonical text of a hash. -/
def urn (h : ContentHash) : String :=
  String.ofList (scheme ++ h.digest)

theorem urn_injective {g h : ContentHash} (e : g.urn = h.urn) : g = h := by
  have e : scheme ++ g.digest = scheme ++ h.digest := by
    simpa only [urn, String.toList_ofList] using congrArg String.toList e
  cases g
  cases h
  cases List.append_cancel_left e
  rfl

/-! ## Reading -/

/-- What is wrong with a text that is no content hash. -/
inductive Flaw where
  /-- The digest does not take thirty-two bytes. -/
  | length
  /-- The digest has a character outside the alphabet. -/
  | alphabet
  deriving DecidableEq, Repr

/-- The reason in words. -/
def Flaw.reason : Flaw → String
  | .length => "expected 32 base32 characters"
  | .alphabet => "digest is not base32"

/-- The text without the scheme at its start, in whatever ASCII case. -/
def dropScheme (cs : List Char) : List Char :=
  if (cs.take scheme.length).map Text.asciiLowerChar == scheme then cs.drop scheme.length else cs

/-- Bytes that the text takes in UTF-8. -/
def byteLength (cs : List Char) : Nat :=
  (cs.map Char.utf8Size).foldr (· + ·) 0

/-- Reads a hash from a URN or a bare digest. -/
def read (value : String) : Except Flaw ContentHash :=
  let digest := dropScheme (Text.trimChars value.toList)
  if byteLength digest ≠ 32 then .error .length
  else
    let upper := digest.map Text.asciiUpperChar
    if h : isDigest upper = true then .ok ⟨upper, h⟩ else .error .alphabet

end ContentHash

end PeerSearch
