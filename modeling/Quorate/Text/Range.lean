/-!
# Sets of characters as ranges

A property of characters is kept as a list of closed ranges of code points.
-/

namespace Quorate.Text

/-- Whether the code point of a character lies in one of the closed ranges. -/
def inRanges (ranges : List (Nat × Nat)) (c : Char) : Bool :=
  ranges.any fun r => r.1 ≤ c.toNat && c.toNat ≤ r.2

end Quorate.Text
