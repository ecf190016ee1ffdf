import PolyLambda.Indexed.Context
import PolyLambda.Named.Context

/-!
# Resolving names

Resolution replaces every name by the index of the newest binder of its kind and
name, binders inside the tree coming before those of the context. It fails at the
first occurrence, from left to right, that nothing binds.
-/

namespace PolyLambda

/-- An occurrence of a name that nothing binds. -/
structure Unbound where
  kind : Kind
  name : String
  span : Span
deriving DecidableEq

/-- The wording for an unbound name. -/
def Unbound.message (unbound : Unbound) : String :=
  match unbound.kind with
  | .type => "unbound type variable: " ++ unbound.name
  | .term => "unbound variable: " ++ unbound.name

/-- The index that an occurrence of a name denotes. -/
def Scope.resolve (scope : Scope) (kind : Kind) (name : String) (span : Span) :
    Except Unbound Nat :=
  match scope.indexOf? kind name with
  | some index => .ok index
  | none => .error ⟨kind, name, span⟩

namespace Named

/-- Resolves the names of a type. -/
def Ty.resolve (scope : Scope) : Ty → Except Unbound Indexed.Ty
  | .var span name => do
    return .var span (← scope.resolve .type name span)
  | .arrow span domain codomain => do
    let domain ← domain.resolve scope
    let codomain ← codomain.resolve scope
    return .arrow span domain codomain
  | .all span param body => do
    return .all span (← body.resolve (⟨.type, param.name⟩ :: scope))

/-- Resolves the names of a term. The type of a parameter is resolved outside
that parameter. -/
def Term.resolve (scope : Scope) : Term → Except Unbound Indexed.Term
  | .var span name => do
    return .var span (← scope.resolve .term name span)
  | .lam span param paramType body => do
    let paramType ← paramType.resolve scope
    let body ← body.resolve (⟨.term, param.name⟩ :: scope)
    return .lam span paramType body
  | .app span function argument => do
    let function ← function.resolve scope
    let argument ← argument.resolve scope
    return .app span function argument
  | .tyLam span param body => do
    return .tyLam span (← body.resolve (⟨.type, param.name⟩ :: scope))
  | .tyApp span function argument => do
    let function ← function.resolve scope
    let argument ← argument.resolve scope
    return .tyApp span function argument

/-- Resolves the definition of an entry, if it has one. -/
def resolveDefinition (scope : Scope) : Option Term → Except Unbound (Option Indexed.Term)
  | none => .ok none
  | some definition => do
    return some (← definition.resolve scope)

/-- Resolves what a binder records against the scope below it, the type before
the definition. -/
def Binding.resolve (scope : Scope) : Binding → Except Unbound Indexed.Binding
  | .type _ => .ok (.type ())
  | .term entry => do
    let ty ← entry.ty.resolve scope
    let definition ← resolveDefinition scope entry.definition
    return .term ⟨(), ty, definition⟩

/-- Resolves a whole context, the oldest binder first. -/
def Context.resolve : Context → Except Unbound Indexed.Context
  | [] => .ok []
  | binding :: rest => do
    let resolved ← Context.resolve rest
    let binding ← Binding.resolve (Context.scope rest) binding
    return binding :: resolved

end Named

end PolyLambda
