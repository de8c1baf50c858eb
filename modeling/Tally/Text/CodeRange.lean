/-! Sets of characters written as ranges of code points. -/

namespace Tally.Text

/-- Both ends of a range belong to it. -/
abbrev CodeRange := Nat × Nat

def inRanges (c : Char) (ranges : List CodeRange) : Bool :=
  ranges.any fun r => r.1 ≤ c.toNat && c.toNat ≤ r.2

end Tally.Text
