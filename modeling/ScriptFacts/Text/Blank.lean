import ScriptFacts.Text.CodePoint

/-!
# Blank characters

A character is blank when it has the Unicode property `White_Space`: 25 code points in ten ranges.
-/
namespace ScriptFacts.Text

/-- The code points with the property `White_Space`, in increasing order. -/
def blankRanges : List (Nat × Nat) := [
  (0x9, 0xD), (0x20, 0x20), (0x85, 0x85), (0xA0, 0xA0), (0x1680, 0x1680), (0x2000, 0x200A),
  (0x2028, 0x2029), (0x202F, 0x202F), (0x205F, 0x205F), (0x3000, 0x3000)]

/-- Spaces, tabs, line ends and the other characters that only separate tokens. -/
def isBlank (c : Char) : Bool :=
  inRanges blankRanges c

end ScriptFacts.Text
