/-!
# PeerSearch.Text.Ascii -- case folding of the twenty-six ASCII letters

File extensions, vendor codes and the words of options are compared without regard to ASCII case.
Letters outside ASCII are left alone.
-/

namespace PeerSearch.Text

/-- The ASCII letter in lower case; any other character as it is. -/
def asciiLowerChar (c : Char) : Char :=
  if 'A' ≤ c && c ≤ 'Z' then Char.ofNat (c.toNat + 0x20) else c

/-- The ASCII letter in upper case; any other character as it is. -/
def asciiUpperChar (c : Char) : Char :=
  if 'a' ≤ c && c ≤ 'z' then Char.ofNat (c.toNat - 0x20) else c

/-- The string with its ASCII letters in lower case. -/
def asciiLower (s : String) : String :=
  String.ofList (s.toList.map asciiLowerChar)

/-- Whether two strings differ at most in the case of ASCII letters. -/
def sameIgnoringAsciiCase (s t : String) : Bool :=
  s.toList.map asciiLowerChar == t.toList.map asciiLowerChar

end PeerSearch.Text
