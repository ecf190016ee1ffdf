import PolyLambda.Source.Span

/-!
# Named types and terms

Types and terms as they are written: variables and binders carry names, and every
node carries the span of the source it came from. Spans take no part in the
meaning of a tree; `bare` forgets them.
-/

namespace PolyLambda.Named

/-- A name at the place where it is introduced. -/
structure Ident where
  span : Span
  name : String
deriving DecidableEq

/-- Types of the polymorphic lambda calculus, by name. -/
inductive Ty
  | var (span : Span) (name : String)
  | arrow (span : Span) (domain codomain : Ty)
  | all (span : Span) (param : Ident) (body : Ty)
deriving DecidableEq

/-- Terms of the polymorphic lambda calculus, by name. -/
inductive Term
  | var (span : Span) (name : String)
  | lam (span : Span) (param : Ident) (paramType : Ty) (body : Term)
  | app (span : Span) (function argument : Term)
  | tyLam (span : Span) (param : Ident) (body : Term)
  | tyApp (span : Span) (function : Term) (argument : Ty)
deriving DecidableEq

/-- The identifier without its place. -/
def Ident.bare (ident : Ident) : Ident :=
  ⟨default, ident.name⟩

namespace Ty

/-- The span of the outermost node. -/
def span : Ty → Span
  | var span _ => span
  | arrow span _ _ => span
  | all span _ _ => span

/-- The type without spans. -/
def bare : Ty → Ty
  | var _ name => var default name
  | arrow _ domain codomain => arrow default domain.bare codomain.bare
  | all _ param body => all default param.bare body.bare

/-- Quantifies a body over several parameters, the first one outermost. Every
node takes the same span. -/
def allMany (span : Span) (params : List Ident) (body : Ty) : Ty :=
  params.foldr (all span) body

end Ty

namespace Term

/-- The span of the outermost node. -/
def span : Term → Span
  | var span _ => span
  | lam span _ _ _ => span
  | app span _ _ => span
  | tyLam span _ _ => span
  | tyApp span _ _ => span

/-- The term without spans. -/
def bare : Term → Term
  | var _ name => var default name
  | lam _ param paramType body => lam default param.bare paramType.bare body.bare
  | app _ function argument => app default function.bare argument.bare
  | tyLam _ param body => tyLam default param.bare body.bare
  | tyApp _ function argument => tyApp default function.bare argument.bare

/-- Abstracts a body over several parameters, the first one outermost. Every
node takes the same span. -/
def lamMany (span : Span) (params : List (Ident × Ty)) (body : Term) : Term :=
  params.foldr (fun (param, paramType) rest => lam span param paramType rest) body

/-- Abstracts a body over several type parameters, the first one outermost. Every
node takes the same span. -/
def tyLamMany (span : Span) (params : List Ident) (body : Term) : Term :=
  params.foldr (tyLam span) body

end Term

end PolyLambda.Named
