/-!
# Sets of characters given by ranges of code points

* `inRanges` looks a character up in a table of inclusive ranges.
-/

namespace Straightline.Text

/-- Whether the code point of `c` lies in one of the inclusive ranges. -/
def inRanges (ranges : List (Nat × Nat)) (c : Char) : Bool :=
  ranges.any fun r => r.1 ≤ c.toNat && c.toNat ≤ r.2

end Straightline.Text
