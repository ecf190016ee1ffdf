import PolyLambda.Indexed.Basic
import PolyLambda.Indexed.Index

/-!
# Shifting

Shifting moves the indices of a tree that point out of it, from `cutoff` on, by a
signed amount. It is what adding or removing binders around a tree requires. At every
binder of the tree the cutoff grows by one.
-/

namespace PolyLambda.Indexed

/-- Moves an index unless it points below the cutoff. -/
def shiftFrom (range : IndexRange) (cutoff : Nat) (delta : Int) (index : Nat) :
    Except IndexFault Nat :=
  if cutoff ≤ index then range.shift index delta else .ok index

/-- Shifts the indices of a type from `cutoff` on. -/
def Ty.shift (range : IndexRange) (cutoff : Nat) (delta : Int) : Ty → Except IndexFault Ty
  | .var span index => do
    return .var span (← shiftFrom range cutoff delta index)
  | .arrow span domain codomain => do
    let domain ← domain.shift range cutoff delta
    let codomain ← codomain.shift range cutoff delta
    return .arrow span domain codomain
  | .all span body => do
    let cutoff ← range.succ cutoff
    return .all span (← body.shift range cutoff delta)

/-- Shifts the indices of a term, and of the types in it, from `cutoff` on. -/
def Term.shift (range : IndexRange) (cutoff : Nat) (delta : Int) : Term → Except IndexFault Term
  | .var span index => do
    return .var span (← shiftFrom range cutoff delta index)
  | .lam span paramType body => do
    let paramType ← paramType.shift range cutoff delta
    let cutoff ← range.succ cutoff
    let body ← body.shift range cutoff delta
    return .lam span paramType body
  | .app span function argument => do
    let function ← function.shift range cutoff delta
    let argument ← argument.shift range cutoff delta
    return .app span function argument
  | .tyLam span body => do
    let cutoff ← range.succ cutoff
    return .tyLam span (← body.shift range cutoff delta)
  | .tyApp span function argument => do
    let function ← function.shift range cutoff delta
    let argument ← argument.shift range cutoff delta
    return .tyApp span function argument

end PolyLambda.Indexed
