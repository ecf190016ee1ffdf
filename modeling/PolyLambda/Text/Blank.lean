import PolyLambda.Text.Ranges

/-!
# Blank characters

The characters of the Unicode property `White_Space`. They separate tokens and
have no other meaning.
-/

namespace PolyLambda.Text

/-- The inclusive ranges of code points that are blank. -/
def blankRanges : List (Nat × Nat) :=
  [(0x9, 0xD), (0x20, 0x20), (0x85, 0x85), (0xA0, 0xA0), (0x1680, 0x1680), (0x2000, 0x200A),
    (0x2028, 0x2029), (0x202F, 0x202F), (0x205F, 0x205F), (0x3000, 0x3000)]

/-- Whether a character is blank. -/
def isBlank (char : Char) : Bool :=
  inRanges blankRanges char

end PolyLambda.Text
