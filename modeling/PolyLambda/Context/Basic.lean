/-!
# Contexts

A context is the stack of binders that a type or term refers to, the newest one
first. An index counts from the newest binder.
-/

namespace PolyLambda

/-- What a binder binds. -/
inductive Kind
  | type
  | term
deriving DecidableEq

/-- The word for a kind. -/
def Kind.text : Kind → String
  | type => "type"
  | term => "term"

/-- What a context records about a term: its name, its type, and the term it
stands for unless it is assumed. -/
structure TermEntry (ν τ δ : Type) where
  name : ν
  ty : τ
  definition : Option δ
deriving DecidableEq

/-- A binder, with names in `ν`, types in `τ` and definitions in `δ`. -/
inductive Binding (ν τ δ : Type)
  | type (name : ν)
  | term (entry : TermEntry ν τ δ)
deriving DecidableEq

/-- A stack of binders, the newest one first. -/
abbrev Context (ν τ δ : Type) := List (Binding ν τ δ)

/-- Why an index does not denote a binder of the kind asked for. -/
inductive LookupError
  /-- The context has only `length` binders. -/
  | outOfRange (index length : Nat)
  /-- The binder is of the other kind. -/
  | inconsistent (index : Nat) (found expected : Kind)
deriving DecidableEq

/-- The wording of a lookup error. -/
def LookupError.message : LookupError → String
  | outOfRange index length =>
    "index out of range: " ++ toString index ++ " (context has " ++ toString length ++ " bindings)"
  | inconsistent index found expected =>
    "inconsistent binding: index " ++ toString index ++ " refers to a " ++ found.text ++
      " binding, expected a " ++ expected.text ++ " binding"

namespace Binding

variable {ν τ δ : Type}

/-- What a binder binds. -/
def kind : Binding ν τ δ → Kind
  | type _ => .type
  | term _ => .term

/-- The name of a binder. -/
def name : Binding ν τ δ → ν
  | type name => name
  | term entry => entry.name

end Binding

namespace Context

variable {ν τ δ : Type}

/-- The name of the type binder at an index. -/
def typeAt (context : Context ν τ δ) (index : Nat) : Except LookupError ν :=
  match context[index]? with
  | some (.type name) => .ok name
  | some (.term _) => .error (.inconsistent index .term .type)
  | none => .error (.outOfRange index context.length)

/-- What is recorded about the term binder at an index. -/
def termAt (context : Context ν τ δ) (index : Nat) : Except LookupError (TermEntry ν τ δ) :=
  match context[index]? with
  | some (.term entry) => .ok entry
  | some (.type _) => .error (.inconsistent index .type .term)
  | none => .error (.outOfRange index context.length)

end Context

end PolyLambda
