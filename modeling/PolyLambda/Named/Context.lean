import PolyLambda.Context.Scope
import PolyLambda.Named.Dump
import PolyLambda.Named.Printer

/-!
# Named contexts

The context that statements run in: types and definitions are recorded as they
were written, and their names refer to the binders below them.
-/

namespace PolyLambda.Named

/-- A context of named types and terms, the newest binder first. -/
abbrev Context := PolyLambda.Context String Ty Term

/-- A binder of a named context. -/
abbrev Binding := PolyLambda.Binding String Ty Term

namespace Context

/-- The index of the newest type binder of a name. -/
def typeIndex? (context : Context) (name : String) : Option Nat :=
  context.scope.indexOf? .type name

/-- The index of the newest term binder of a name. -/
def termIndex? (context : Context) (name : String) : Option Nat :=
  context.scope.indexOf? .term name

/-- What is recorded about the newest term binder of a name. -/
def entry? (context : Context) (name : String) : Option (TermEntry String Ty Term) :=
  context.findSome? fun
    | .type _ => none
    | .term entry => if entry.name = name then some entry else none

/-- A context without spans. -/
def bare (context : Context) : Context :=
  context.map fun
    | .type name => .type name
    | .term entry => .term ⟨entry.name, entry.ty.bare, entry.definition.map Term.bare⟩

open PolyLambda.Text in
/-- The dump of a context. -/
def dump (context : Context) : Dump :=
  .list (context.map fun
    | .type name => .record "Type" [("name", dumpName name)]
    | .term entry =>
      .record "Term" [("name", dumpName entry.name), ("ty", entry.ty.dump),
        ("definition", .option (entry.definition.map Term.dump))])

end Context

end PolyLambda.Named
