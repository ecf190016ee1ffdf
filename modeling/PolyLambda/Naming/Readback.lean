import PolyLambda.Indexed.Context
import PolyLambda.Named.Context
import PolyLambda.Naming.Generated

/-!
# Naming indexed trees

Free indices take the names of the context they point to. Every binder of the tree
draws a new name, and names of the context are skipped, so that no binder captures
a free variable and no two binders of one kind share a name.
-/

namespace PolyLambda

namespace Naming

/-- The binders that a tree being named refers to: those of the surrounding
context, and those of the tree itself, the innermost one first. -/
structure Binders where
  ambient : Scope
  inner : Scope

namespace Binders

/-- The name that an index denotes. Indices that point out of the tree are looked
up, and reported, as they count in the surrounding context. -/
def nameAt (binders : Binders) (kind : Kind) (index : Nat) : Except LookupError String :=
  if index < binders.inner.length then
    binders.inner.nameAt kind index
  else
    binders.ambient.nameAt kind (index - binders.inner.length)

/-- Enters a binder of the given kind, which draws a new name. -/
def enter (binders : Binders) (supply : Supply) (kind : Kind) :
    String × Binders × Supply :=
  let (name, supply) := supply.draw kind (binders.ambient.names kind)
  (name, { binders with inner := ⟨kind, name⟩ :: binders.inner }, supply)

/-- Enters several binders, the last one of the list first. -/
def enterAll (binders : Binders) (supply : Supply) : List Kind → Binders × Supply
  | [] => (binders, supply)
  | kind :: kinds =>
    let (binders, supply) := binders.enterAll supply kinds
    (binders.enter supply kind).2

end Binders

end Naming

namespace Indexed

/-- Names a type. -/
def Ty.withNames (binders : Naming.Binders) (supply : Naming.Supply) :
    Ty → Except LookupError (Named.Ty × Naming.Supply)
  | .var span index => do
    return (.var span (← binders.nameAt .type index), supply)
  | .arrow span domain codomain => do
    let (domain, supply) ← domain.withNames binders supply
    let (codomain, supply) ← codomain.withNames binders supply
    return (.arrow span domain codomain, supply)
  | .all span body => do
    let (name, binders, supply) := binders.enter supply .type
    let (body, supply) ← body.withNames binders supply
    return (.all span ⟨span, name⟩ body, supply)

/-- Names a term. The type of a parameter is named before the parameter. -/
def Term.withNames (binders : Naming.Binders) (supply : Naming.Supply) :
    Term → Except LookupError (Named.Term × Naming.Supply)
  | .var span index => do
    return (.var span (← binders.nameAt .term index), supply)
  | .lam span paramType body => do
    let (paramType, supply) ← paramType.withNames binders supply
    let (name, binders, supply) := binders.enter supply .term
    let (body, supply) ← body.withNames binders supply
    return (.lam span ⟨span, name⟩ paramType body, supply)
  | .app span function argument => do
    let (function, supply) ← function.withNames binders supply
    let (argument, supply) ← argument.withNames binders supply
    return (.app span function argument, supply)
  | .tyLam span body => do
    let (name, binders, supply) := binders.enter supply .type
    let (body, supply) ← body.withNames binders supply
    return (.tyLam span ⟨span, name⟩ body, supply)
  | .tyApp span function argument => do
    let (function, supply) ← function.withNames binders supply
    let (argument, supply) ← argument.withNames binders supply
    return (.tyApp span function argument, supply)

end Indexed

namespace Named.Context

/-- Names a type whose free indices point to a context. -/
def nameType (context : Context) (ty : Indexed.Ty) : Except LookupError Ty := do
  let (ty, _) ← ty.withNames ⟨context.scope, []⟩ .initial
  return ty

/-- Names a term whose free indices point to a context. -/
def nameTerm (context : Context) (term : Indexed.Term) : Except LookupError Term := do
  let (term, _) ← term.withNames ⟨context.scope, []⟩ .initial
  return term

/-- Names a type whose free indices point to `scope`: the indexed form of
`context` under further binders, which draw names before the type does. -/
def nameTypeIn (context : Context) (scope : Indexed.Context) (ty : Indexed.Ty) :
    Except LookupError Ty :=
  if scope.length < context.length then
    .error (.outOfRange scope.length context.length)
  else do
    let kinds := (scope.take (scope.length - context.length)).map PolyLambda.Binding.kind
    let (binders, supply) := Naming.Binders.enterAll ⟨context.scope, []⟩ .initial kinds
    let (ty, _) ← ty.withNames binders supply
    return ty

end Named.Context

end PolyLambda
