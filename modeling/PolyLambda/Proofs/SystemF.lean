import PolyLambda.Proofs.Substitution

/-!
# System F

The calculus as textbooks have it, with an index space of its own for types and another
for terms: binding a term moves no type index, and applying a term to a type is
substitution in its type. Nothing here refers to the shared index space.
-/

namespace PolyLambda.SystemF

open Indexed (Renaming)

/-- Types. An index counts the type binders between a variable and its own. -/
inductive Ty
  | var (index : Nat)
  | arrow (domain codomain : Ty)
  | all (body : Ty)
deriving DecidableEq

/-- Terms. An index counts the term binders between a variable and its own. -/
inductive Term
  | var (index : Nat)
  | lam (paramType : Ty) (body : Term)
  | app (function argument : Term)
  | tyLam (body : Term)
  | tyApp (function : Term) (argument : Ty)
deriving DecidableEq

namespace Ty

/-- The type with its indices mapped. -/
def rename (mapping : Renaming) : Ty → Ty
  | var index => var (mapping index)
  | arrow domain codomain => arrow (domain.rename mapping) (codomain.rename mapping)
  | all body => all (body.rename mapping.under)

/-- The type inside one more type binder. -/
def lift (ty : Ty) : Ty :=
  ty.rename Nat.succ

/-- The substitution inside one more type binder, which stands for itself. -/
def substUnder (types : Nat → Ty) : Nat → Ty
  | 0 => var 0
  | index + 1 => (types index).lift

/-- The type with all its variables replaced at once. -/
def subst (types : Nat → Ty) : Ty → Ty
  | var index => types index
  | arrow domain codomain => arrow (domain.subst types) (codomain.subst types)
  | all body => all (body.subst (substUnder types))

/-- The body of a quantified type at a type. -/
def instantiate (body argument : Ty) : Ty :=
  body.subst fun
    | 0 => argument
    | index + 1 => var index

/-- Every index of the type is below the number of type binders around it. -/
def InScope (types : Nat) : Ty → Prop
  | var index => index < types
  | arrow domain codomain => domain.InScope types ∧ codomain.InScope types
  | all body => body.InScope (types + 1)

/-- Being in scope can be decided. -/
def decideInScope : (types : Nat) → (ty : Ty) → Decidable (ty.InScope types)
  | types, var index => inferInstanceAs (Decidable (index < types))
  | types, arrow domain codomain =>
    @instDecidableAnd _ _ (domain.decideInScope types) (codomain.decideInScope types)
  | types, all body => body.decideInScope (types + 1)

instance (types : Nat) (ty : Ty) : Decidable (ty.InScope types) :=
  ty.decideInScope types

end Ty

/-- The number of type binders, and the types of the term binders, the newest one first. -/
structure Context where
  types : Nat
  terms : List Ty
deriving DecidableEq

namespace Context

/-- The context under one more type binder, which the types of all terms make room for. -/
def pushType (context : Context) : Context :=
  ⟨context.types + 1, context.terms.map Ty.lift⟩

/-- The context under one more term binder. -/
def pushTerm (context : Context) (ty : Ty) : Context :=
  ⟨context.types, ty :: context.terms⟩

end Context

/-- The type of a term, if it has one. -/
def Term.synthesize (context : Context) : Term → Option Ty
  | .var index => context.terms[index]?
  | .lam paramType body =>
    if paramType.InScope context.types then
      (body.synthesize (context.pushTerm paramType)).map (.arrow paramType)
    else
      none
  | .app function argument =>
    match function.synthesize context, argument.synthesize context with
    | some (.arrow domain codomain), some found => if domain = found then some codomain else none
    | _, _ => none
  | .tyLam body => (body.synthesize context.pushType).map .all
  | .tyApp function argument =>
    match function.synthesize context with
    | some (.all body) =>
      if argument.InScope context.types then some (body.instantiate argument) else none
    | _ => none

/-! ## What the parts of a typed term are -/

section

variable {context : Context} {ty : Ty}

/-- A function has an arrow type exactly if its parameter type is in scope and its
body has a type. -/
theorem synthesize_lam_eq_some_iff {paramType : Ty} {body : Term} :
    (Term.lam paramType body).synthesize context = some ty ↔
      paramType.InScope context.types ∧ ∃ codomain,
        body.synthesize (context.pushTerm paramType) = some codomain ∧
          ty = .arrow paramType codomain := by
  rw [Term.synthesize]
  by_cases inScope : paramType.InScope context.types
  · rw [if_pos inScope, Option.map_eq_some_iff]
    constructor
    · rintro ⟨codomain, bodyType, rfl⟩
      exact ⟨inScope, codomain, bodyType, rfl⟩
    · rintro ⟨_, codomain, bodyType, rfl⟩
      exact ⟨codomain, bodyType, rfl⟩
  · simp [inScope]

/-- An application has a type exactly if the argument is of the domain of the function. -/
theorem synthesize_app_eq_some_iff {function argument : Term} :
    (Term.app function argument).synthesize context = some ty ↔
      ∃ domain, function.synthesize context = some (.arrow domain ty) ∧
        argument.synthesize context = some domain := by
  rw [Term.synthesize]
  constructor
  · intro synthesized
    split at synthesized
    · next domain codomain found functionType argumentType =>
        split at synthesized
        · next same =>
            cases synthesized
            exact ⟨domain, functionType, same ▸ argumentType⟩
        · cases synthesized
    · cases synthesized
  · rintro ⟨domain, functionType, argumentType⟩
    simp [functionType, argumentType]

/-- An application to a type has an instance of the quantified type of the function. -/
theorem synthesize_tyApp_eq_some_iff {function : Term} {argument : Ty} :
    (Term.tyApp function argument).synthesize context = some ty ↔
      argument.InScope context.types ∧ ∃ body,
        function.synthesize context = some (.all body) ∧ ty = body.instantiate argument := by
  rw [Term.synthesize]
  constructor
  · intro synthesized
    split at synthesized
    · next body functionType =>
        split at synthesized
        · next inScope =>
            cases synthesized
            exact ⟨inScope, body, functionType, rfl⟩
        · cases synthesized
    · cases synthesized
  · rintro ⟨inScope, body, functionType, rfl⟩
    simp [functionType, inScope]

end

/-- Mapping every index to itself changes nothing. -/
theorem Ty.rename_self (ty : Ty) : ty.rename (fun index => index) = ty := by
  induction ty with
  | var index => rfl
  | arrow domain codomain domainIH codomainIH => rw [rename, domainIH, codomainIH]
  | all body bodyIH => rw [rename, Renaming.under_id, bodyIH]

end PolyLambda.SystemF
