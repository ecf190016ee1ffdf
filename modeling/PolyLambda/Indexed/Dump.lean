import PolyLambda.Indexed.Basic
import PolyLambda.Text.Dump

/-!
# Dumps of indexed trees
-/

namespace PolyLambda.Indexed

open PolyLambda.Text

/-- The dump of an index. -/
def dumpIndex (index : Nat) : Dump :=
  .atom ("#" ++ toString index)

/-- The dump of a type. -/
def Ty.dump : Ty → Dump
  | .var _ index => .wrapped "Var" (dumpIndex index)
  | .arrow _ domain codomain => .record "Arr" [("dom", domain.dump), ("codom", codomain.dump)]
  | .all _ body => .record "All" [("body", body.dump)]

/-- The dump of a term. -/
def Term.dump : Term → Dump
  | .var _ index => .wrapped "Var" (dumpIndex index)
  | .lam _ paramType body => .record "Abs" [("param_type", paramType.dump), ("body", body.dump)]
  | .app _ function argument => .record "App" [("func", function.dump), ("arg", argument.dump)]
  | .tyLam _ body => .record "TyAbs" [("body", body.dump)]
  | .tyApp _ function argument => .record "TyApp" [("func", function.dump), ("arg", argument.dump)]

end PolyLambda.Indexed
