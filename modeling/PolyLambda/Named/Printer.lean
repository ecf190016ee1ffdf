import PolyLambda.Named.Basic
import PolyLambda.Text.Parens

/-!
# Written form of named trees

Trees are written with the fewest parentheses that the grammar allows without
looking past one node: a variable never takes any, and an application takes none
in function position.
-/

namespace PolyLambda.Named

open PolyLambda.Text

namespace Ty

/-- Whether a type can stand alone left of an arrow. -/
def isAtom : Ty → Bool
  | var _ _ => true
  | _ => false

/-- The written form of a type. -/
def text : Ty → String
  | var _ name => name
  | arrow _ domain codomain => enclosed domain.isAtom domain.text ++ " -> " ++ codomain.text
  | all _ param body => "forall " ++ param.name ++ ". " ++ body.text

end Ty

namespace Term

/-- Whether a term can stand alone as an argument. -/
def isAtom : Term → Bool
  | var _ _ => true
  | _ => false

/-- Whether a term can stand alone as a function. -/
def isApplication : Term → Bool
  | var _ _ => true
  | app _ _ _ => true
  | tyApp _ _ _ => true
  | _ => false

/-- The written form of a term. -/
def text : Term → String
  | var _ name => name
  | lam _ param paramType body =>
    "fun " ++ param.name ++ ": " ++ paramType.text ++ ". " ++ body.text
  | app _ function argument =>
    enclosed function.isApplication function.text ++ " " ++ enclosed argument.isAtom argument.text
  | tyLam _ param body => "fun2 " ++ param.name ++ ". " ++ body.text
  | tyApp _ function argument =>
    enclosed function.isApplication function.text ++ " [" ++ argument.text ++ "]"

end Term

end PolyLambda.Named
