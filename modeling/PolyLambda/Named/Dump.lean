import PolyLambda.Named.Statement
import PolyLambda.Text.Dump
import PolyLambda.Text.Quoted

/-!
# Dumps of named trees and statements
-/

namespace PolyLambda.Named

open PolyLambda.Text

/-- The dump of a name. -/
def dumpName (name : String) : Dump :=
  .atom (quoted name)

/-- The dump of a type. -/
def Ty.dump : Ty → Dump
  | .var _ name => .wrapped "Var" (dumpName name)
  | .arrow _ domain codomain => .record "Arr" [("dom", domain.dump), ("codom", codomain.dump)]
  | .all _ param body => .record "All" [("param", dumpName param.name), ("body", body.dump)]

/-- The dump of a term. -/
def Term.dump : Term → Dump
  | .var _ name => .wrapped "Var" (dumpName name)
  | .lam _ param paramType body =>
    .record "Abs" [("param", dumpName param.name), ("param_type", paramType.dump),
      ("body", body.dump)]
  | .app _ function argument => .record "App" [("func", function.dump), ("arg", argument.dump)]
  | .tyLam _ param body => .record "TyAbs" [("param", dumpName param.name), ("body", body.dump)]
  | .tyApp _ function argument => .record "TyApp" [("func", function.dump), ("arg", argument.dump)]

/-- The dump of a command. -/
def Command.dump : Command → Dump
  | .assumeType name => .record "Variable" [("name", dumpName name.name)]
  | .assumeTerm name ty => .record "Axiom" [("name", dumpName name.name), ("ty", ty.dump)]
  | .define name expected term =>
    .record "Define" [("name", dumpName name.name), ("ty", .option (expected.map Ty.dump)),
      ("term", term.dump)]
  | .reduce term => .record "Reduce" [("term", term.dump)]
  | .print name => .record "Print" [("name", dumpName name.name)]
  | .clear => .atom "Clear"

/-- The dump of a program. -/
def dumpProgram (statements : List Statement) : Dump :=
  .list (statements.map fun statement => statement.command.dump)

end PolyLambda.Named
