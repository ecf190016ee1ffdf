import PolyLambda.Source.Span

/-!
# Indexed types and terms

Types and terms without names. A variable is an index that counts the binders
between it and its own; types and terms share one index space, so that every
binder, of a type or of a term, counts once. As in named trees, spans take no part
in the meaning of a tree.
-/

namespace PolyLambda.Indexed

/-- Types of the polymorphic lambda calculus, by index. -/
inductive Ty
  | var (span : Span) (index : Nat)
  | arrow (span : Span) (domain codomain : Ty)
  | all (span : Span) (body : Ty)
deriving DecidableEq

/-- Terms of the polymorphic lambda calculus, by index. -/
inductive Term
  | var (span : Span) (index : Nat)
  | lam (span : Span) (paramType : Ty) (body : Term)
  | app (span : Span) (function argument : Term)
  | tyLam (span : Span) (body : Term)
  | tyApp (span : Span) (function : Term) (argument : Ty)
deriving DecidableEq

namespace Ty

/-- The span of the outermost node. -/
def span : Ty → Span
  | var span _ => span
  | arrow span _ _ => span
  | all span _ => span

/-- The type without spans. -/
def bare : Ty → Ty
  | var _ index => var default index
  | arrow _ domain codomain => arrow default domain.bare codomain.bare
  | all _ body => all default body.bare

/-- Two types are the same when they differ in spans at most. -/
def Same (left right : Ty) : Prop :=
  left.bare = right.bare

instance (left right : Ty) : Decidable (left.Same right) :=
  inferInstanceAs (Decidable (_ = _))

/-- The free indices of a type under `depth` binders of its own, as they count
from outside those binders, in the order of their occurrence. -/
def freeOccurrences (depth : Nat) : Ty → List Nat
  | var _ index => if depth ≤ index then [index - depth] else []
  | arrow _ domain codomain => domain.freeOccurrences depth ++ codomain.freeOccurrences depth
  | all _ body => body.freeOccurrences (depth + 1)

/-- The free indices of a type, each once, in the order of their first occurrence. -/
def freeIndices (ty : Ty) : List Nat :=
  (ty.freeOccurrences 0).eraseDups

end Ty

namespace Term

/-- The span of the outermost node. -/
def span : Term → Span
  | var span _ => span
  | lam span _ _ => span
  | app span _ _ => span
  | tyLam span _ => span
  | tyApp span _ _ => span

/-- The term without spans. -/
def bare : Term → Term
  | var _ index => var default index
  | lam _ paramType body => lam default paramType.bare body.bare
  | app _ function argument => app default function.bare argument.bare
  | tyLam _ body => tyLam default body.bare
  | tyApp _ function argument => tyApp default function.bare argument.bare

/-- Two terms are the same when they differ in spans at most. -/
def Same (left right : Term) : Prop :=
  left.bare = right.bare

instance (left right : Term) : Decidable (left.Same right) :=
  inferInstanceAs (Decidable (_ = _))

end Term

end PolyLambda.Indexed
