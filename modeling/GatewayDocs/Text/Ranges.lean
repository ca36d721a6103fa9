/-! # Sets of characters by ranges

A set of characters beyond ASCII is a list of ranges of code points, ascending and apart
(`inRanges`). -/

namespace GatewayDocs.Text

/-- Whether a code point lies in one of the ranges. -/
def inRanges (ranges : List (Nat × Nat)) (n : Nat) : Bool :=
  ranges.any fun r => r.1 ≤ n && n ≤ r.2

/-- A set of characters given by a test for ASCII and ranges beyond it. -/
def isMember (ascii : Char → Bool) (ranges : List (Nat × Nat)) (c : Char) : Bool :=
  if c.toNat < 0x80 then ascii c else inRanges ranges c.toNat

end GatewayDocs.Text
