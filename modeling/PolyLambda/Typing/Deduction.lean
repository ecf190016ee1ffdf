import PolyLambda.Indexed.Context
import PolyLambda.Indexed.Substitution

/-!
# Deducing types

Every term determines its type. Types are compared up to spans; a deduced type
keeps the spans of the types and terms it comes from.
-/

namespace PolyLambda.Indexed

/-- An index that does not denote what it should, with the span of its
occurrence if it has one. No source text leads to such an error. -/
structure IllegalIndex where
  error : LookupError
  span : Option Span
deriving DecidableEq

/-- Why a term has no type. Types are relative to `scope`, the context at the
faulty part of the term. -/
inductive TypeError
  /-- A variable does not denote a binder of its kind. -/
  | illegal (index : IllegalIndex)
  /-- Index arithmetic left the representable range. -/
  | indexFault (fault : IndexFault)
  /-- What is applied to an argument has no arrow type. -/
  | notFunction (functionSpan : Span) (found : Ty) (argumentSpan : Span) (argumentType : Ty)
      (scope : Context)
  /-- The type of an argument is not the domain of the function. -/
  | argumentMismatch (argumentSpan : Span) (expected found : Ty) (scope : Context)
  /-- What is applied to a type has no quantified type. -/
  | notUniversal (functionSpan : Span) (found : Ty) (scope : Context)
deriving DecidableEq

/-- Looks up the type binder that an occurrence denotes. -/
def Context.checkType (context : Context) (span : Span) (index : Nat) :
    Except IllegalIndex Unit :=
  (context.typeAt index).mapError fun error => ⟨error, some span⟩

/-- Looks up the term binder that an occurrence denotes. -/
def Context.lookupTerm (context : Context) (span : Span) (index : Nat) :
    Except IllegalIndex (TermEntry Unit Ty Term) :=
  (context.termAt index).mapError fun error => ⟨error, some span⟩

/-- Checks that a type, under `depth` binders of its own, refers to type binders
of a context only. -/
def Ty.checkScope (context : Context) (depth : Nat) : Ty → Except IllegalIndex Unit
  | .var span index =>
    if index < depth then .ok () else context.checkType span (index - depth)
  | .arrow _ domain codomain => do
    domain.checkScope context depth
    codomain.checkScope context depth
  | .all _ body => body.checkScope context (depth + 1)

/-- Deduces the type of a term in a context. -/
def Term.deduce (range : IndexRange) (context : Context) : Term → Except TypeError Ty
  | .var span index => do
    let entry ← (context.lookupTerm span index).mapError .illegal
    -- the type was recorded outside the binder and everything newer
    let distance ← (range.distance index).mapError .indexFault
    (entry.ty.shift range 0 distance).mapError .indexFault
  | .lam span paramType body => do
    (paramType.checkScope context 0).mapError .illegal
    let bodyType ← body.deduce range (context.pushTerm paramType)
    -- the type of the body cannot refer to the parameter
    let codomain ← (bodyType.shift range 1 (-1)).mapError .indexFault
    return .arrow span paramType codomain
  | .app _ function argument => do
    let functionType ← function.deduce range context
    let argumentType ← argument.deduce range context
    match functionType with
    | .arrow _ domain codomain =>
      if domain.Same argumentType then
        .ok codomain
      else
        .error (.argumentMismatch argument.span domain argumentType context)
    | found =>
      .error (.notFunction function.span found argument.span argumentType context)
  | .tyLam span body => do
    let bodyType ← body.deduce range context.pushType
    return .all span bodyType
  | .tyApp _ function argument => do
    let functionType ← function.deduce range context
    (argument.checkScope context 0).mapError .illegal
    match functionType with
    | .all _ body => (body.instantiate range argument).mapError .indexFault
    | found => .error (.notUniversal function.span found context)

end PolyLambda.Indexed
