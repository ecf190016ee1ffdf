/-!
# Parentheses
-/

namespace PolyLambda.Text

/-- Puts a text in parentheses unless it can stand alone. -/
def enclosed (alone : Bool) (text : String) : String :=
  if alone then text else "(" ++ text ++ ")"

end PolyLambda.Text
