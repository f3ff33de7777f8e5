/-!
# Ranges of characters

A character class is given as a list of inclusive ranges of code points.
-/

namespace NetRedact.Text

/-- Whether the code point of `c` lies in one of the inclusive ranges. -/
def inRanges (c : Char) (ranges : List (Nat × Nat)) : Bool :=
  ranges.any fun range => decide (range.1 ≤ c.toNat ∧ c.toNat ≤ range.2)

end NetRedact.Text
