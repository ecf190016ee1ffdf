import PolyLambda.Context.Basic

/-!
# Scopes

A scope is a context reduced to what names resolve against: the kind and the name
of each binder, the newest one first. Names of types and names of terms are
separate; of two binders of one kind and name the newer one hides the other.
-/

namespace PolyLambda

/-- The kind and the name of a binder. -/
structure Binder where
  kind : Kind
  name : String
deriving DecidableEq

/-- A stack of named binders, the newest one first. -/
abbrev Scope := List Binder

namespace Scope

/-- The index of the newest binder of a kind and name. -/
def indexOf? (scope : Scope) (kind : Kind) (name : String) : Option Nat :=
  scope.findIdx? fun binder => binder == ⟨kind, name⟩

/-- The name of the binder at an index, which has to be of the given kind. -/
def nameAt (scope : Scope) (kind : Kind) (index : Nat) : Except LookupError String :=
  match scope[index]? with
  | some binder =>
    if binder.kind = kind then
      .ok binder.name
    else
      .error (.inconsistent index binder.kind kind)
  | none => .error (.outOfRange index scope.length)

/-- The names that a scope uses for one kind. -/
def names (scope : Scope) (kind : Kind) : List String :=
  (scope.filter fun binder => binder.kind == kind).map Binder.name

end Scope

/-- The scope of a context whose binders have names. -/
def Context.scope {τ δ : Type} (context : Context String τ δ) : Scope :=
  context.map fun binding => ⟨binding.kind, binding.name⟩

end PolyLambda
