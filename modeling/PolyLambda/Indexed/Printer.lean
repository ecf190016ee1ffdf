import PolyLambda.Indexed.Basic
import PolyLambda.Text.Parens

/-!
# Written form of indexed trees

Parentheses stand as in named trees; binders are anonymous and variables are
numbers.
-/

namespace PolyLambda.Indexed

open PolyLambda.Text

namespace Ty

/-- Whether a type can stand alone left of an arrow. -/
def isAtom : Ty → Bool
  | var _ _ => true
  | _ => false

/-- The written form of a type. -/
def text : Ty → String
  | var _ index => toString index
  | arrow _ domain codomain => enclosed domain.isAtom domain.text ++ " -> " ++ codomain.text
  | all _ body => "forall. " ++ body.text

end Ty

namespace Term

/-- Whether a term can stand alone as an argument. -/
def isAtom : Term → Bool
  | var _ _ => true
  | _ => false

/-- Whether a term can stand alone as a function. -/
def isApplication : Term → Bool
  | var _ _ => true
  | app _ _ _ => true
  | tyApp _ _ _ => true
  | _ => false

/-- The written form of a term. -/
def text : Term → String
  | var _ index => toString index
  | lam _ paramType body => "fun: " ++ paramType.text ++ ". " ++ body.text
  | app _ function argument =>
    enclosed function.isApplication function.text ++ " " ++ enclosed argument.isAtom argument.text
  | tyLam _ body => "fun2. " ++ body.text
  | tyApp _ function argument =>
    enclosed function.isApplication function.text ++ " [" ++ argument.text ++ "]"

end Term

end PolyLambda.Indexed
