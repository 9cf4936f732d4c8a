/-! Sets of characters given by ranges of code points. -/

namespace CurvePlot.Text

/-- Whether a character is in one of some ranges, each given by its first and its last code
point. -/
def inRanges (c : Char) (ranges : List (Nat × Nat)) : Bool :=
  ranges.any fun (lo, hi) => lo ≤ c.toNat && c.toNat ≤ hi

end CurvePlot.Text
