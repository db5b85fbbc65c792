/-!
# PeerSearch.Text.Ranges -- sets of code points

Character properties are given as lists of closed ranges of code points, in increasing order.
-/

namespace PeerSearch.Text

/-- Closed ranges of code points, in increasing order. -/
abbrev Ranges := List (Nat × Nat)

/-- Whether some range holds the character's code point. -/
def Ranges.holds (ranges : Ranges) (c : Char) : Bool :=
  ranges.any fun r => r.1 ≤ c.toNat && c.toNat ≤ r.2

end PeerSearch.Text
