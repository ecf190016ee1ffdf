import PolyLambda.Typing.Deduction

/-!
# Normalisation

Normalisation unfolds definitions and contracts applications of abstractions,
inside abstractions too, until nothing is left to do. Both sides of an application
are normalised before it is contracted. Terms without a type need not have a
normal form, so the depth of the recursion is bounded.
-/

namespace PolyLambda.Indexed

/-- Why a term is not normalised. -/
inductive ReductionError
  /-- A variable does not denote a term binder. -/
  | illegal (index : IllegalIndex)
  /-- Index arithmetic left the representable range. -/
  | indexFault (fault : IndexFault)
  /-- The recursion went deeper than it was allowed to. -/
  | exhausted
deriving DecidableEq

/-- Normalises a term in a context, to a recursion depth of at most `depth`. -/
def Term.normalize (range : IndexRange) :
    (depth : Nat) → Context → Term → Except ReductionError Term
  | 0, _, _ => .error .exhausted
  | depth + 1, context, .var span index => do
    let entry ← (context.lookupTerm span index).mapError .illegal
    match entry.definition with
    | none => return .var span index
    | some definition =>
      let distance ← (range.distance index).mapError .indexFault
      let unfolded ← (definition.shift range 0 distance).mapError .indexFault
      unfolded.normalize range depth context
  | depth + 1, context, .lam span paramType body => do
    return .lam span paramType (← body.normalize range depth (context.pushTerm paramType))
  | depth + 1, context, .app span function argument => do
    let function ← function.normalize range depth context
    let argument ← argument.normalize range depth context
    match function with
    | .lam _ _ body =>
      let contracted ← (body.instantiate range argument).mapError .indexFault
      contracted.normalize range depth context
    | function => return .app span function argument
  | depth + 1, context, .tyLam span body => do
    return .tyLam span (← body.normalize range depth context.pushType)
  | depth + 1, context, .tyApp span function argument => do
    let function ← function.normalize range depth context
    match function with
    | .tyLam _ body =>
      let contracted ← (body.instantiateType range argument).mapError .indexFault
      contracted.normalize range depth context
    | function => return .tyApp span function argument

end PolyLambda.Indexed
