/-!
# Classes of characters given by ranges

A character class of a standard is a table of closed ranges of code points.
-/
namespace ScriptFacts.Text

/-- Whether the code point of `c` lies in one of the closed `ranges`. -/
def inRanges (ranges : List (Nat × Nat)) (c : Char) : Bool :=
  ranges.any fun range => range.1 ≤ c.toNat && c.toNat ≤ range.2

theorem inRanges_iff {ranges : List (Nat × Nat)} {c : Char} :
    inRanges ranges c = true ↔ ∃ range ∈ ranges, range.1 ≤ c.toNat ∧ c.toNat ≤ range.2 := by
  simp [inRanges]

end ScriptFacts.Text
