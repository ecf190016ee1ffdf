/-!
# Ranges of code points
-/

namespace PolyLambda.Text

/-- Whether a character lies in one of some inclusive ranges of code points. -/
def inRanges (ranges : List (Nat × Nat)) (char : Char) : Bool :=
  ranges.any fun (first, last) => first ≤ char.toNat && char.toNat ≤ last

end PolyLambda.Text
