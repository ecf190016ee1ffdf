import PolyLambda.Indexed.Shift

/-!
# Substitution

Substitution replaces the variable of a given index by a tree. At every binder it
crosses, the index grows by one and the replacement is shifted with it, whether or
not the variable occurs further in. Instantiation substitutes for the innermost
binder of a body and removes that binder.
-/

namespace PolyLambda.Indexed

/-- Replaces the type variable `index` by a type. -/
def Ty.subst (range : IndexRange) (ty : Ty) (index : Nat) (replacement : Ty) :
    Except IndexFault Ty :=
  match ty with
  | .var span other =>
    .ok (if other = index then replacement else .var span other)
  | .arrow span domain codomain => do
    let domain ← domain.subst range index replacement
    let codomain ← codomain.subst range index replacement
    return .arrow span domain codomain
  | .all span body => do
    let index ← range.succ index
    let replacement ← replacement.shift range 0 1
    return .all span (← body.subst range index replacement)

/-- Replaces the term variable `index` by a term. Types hold no term variables
and stay as they are. -/
def Term.subst (range : IndexRange) (term : Term) (index : Nat) (replacement : Term) :
    Except IndexFault Term :=
  match term with
  | .var span other =>
    .ok (if other = index then replacement else .var span other)
  | .lam span paramType body => do
    let index ← range.succ index
    let replacement ← replacement.shift range 0 1
    return .lam span paramType (← body.subst range index replacement)
  | .app span function argument => do
    let function ← function.subst range index replacement
    let argument ← argument.subst range index replacement
    return .app span function argument
  | .tyLam span body => do
    let index ← range.succ index
    let replacement ← replacement.shift range 0 1
    return .tyLam span (← body.subst range index replacement)
  | .tyApp span function argument => do
    return .tyApp span (← function.subst range index replacement) argument

/-- Replaces the type variable `index` by a type in all types of a term. -/
def Term.substType (range : IndexRange) (term : Term) (index : Nat) (replacement : Ty) :
    Except IndexFault Term :=
  match term with
  | .var span other => .ok (.var span other)
  | .lam span paramType body => do
    let paramType ← paramType.subst range index replacement
    let index ← range.succ index
    let replacement ← replacement.shift range 0 1
    return .lam span paramType (← body.substType range index replacement)
  | .app span function argument => do
    let function ← function.substType range index replacement
    let argument ← argument.substType range index replacement
    return .app span function argument
  | .tyLam span body => do
    let index ← range.succ index
    let replacement ← replacement.shift range 0 1
    return .tyLam span (← body.substType range index replacement)
  | .tyApp span function argument => do
    let function ← function.substType range index replacement
    let argument ← argument.subst range index replacement
    return .tyApp span function argument

/-- The body of a quantified type at a type. -/
def Ty.instantiate (range : IndexRange) (body argument : Ty) : Except IndexFault Ty := do
  let argument ← argument.shift range 0 1
  let body ← body.subst range 0 argument
  body.shift range 1 (-1)

/-- The body of an abstraction at a term. -/
def Term.instantiate (range : IndexRange) (body argument : Term) : Except IndexFault Term := do
  let argument ← argument.shift range 0 1
  let body ← body.subst range 0 argument
  body.shift range 1 (-1)

/-- The body of a type abstraction at a type. -/
def Term.instantiateType (range : IndexRange) (body : Term) (argument : Ty) :
    Except IndexFault Term := do
  let argument ← argument.shift range 0 1
  let body ← body.substType range 0 argument
  body.shift range 1 (-1)

end PolyLambda.Indexed
