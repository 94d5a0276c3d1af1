/-! Closed ranges of code points: the form in which a property of characters is carried. -/

namespace ApiTypings.Text

/-- First and last code point of a range, both included. -/
abbrev CodeRange := Nat × Nat

/-- Does one of the ranges hold the character? -/
def inRanges (ranges : List CodeRange) (c : Char) : Bool :=
  ranges.any fun r => r.1 ≤ c.toNat && c.toNat ≤ r.2

end ApiTypings.Text
