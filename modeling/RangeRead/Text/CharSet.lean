/-!
# Sets of characters

A set of characters is given by the runs of consecutive code points that it consists of.
-/

namespace RangeRead.Text

/-- Whether a code point lies in one of the runs, ends included. -/
def inRanges (ranges : List (Nat × Nat)) (code : Nat) : Bool :=
  ranges.any fun range => range.1 ≤ code && code ≤ range.2

theorem inRanges_iff {ranges : List (Nat × Nat)} {code : Nat} :
    inRanges ranges code = true ↔ ∃ range ∈ ranges, range.1 ≤ code ∧ code ≤ range.2 := by
  simp [inRanges]

end RangeRead.Text
