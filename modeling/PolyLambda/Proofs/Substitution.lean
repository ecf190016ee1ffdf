import PolyLambda.Indexed.Basic

/-!
# Simultaneous renaming and substitution

A renaming moves all free indices of a tree at once, and a substitution replaces
them all at once. Both are total, and both know one way only to cross a binder:
`under`, whichever kind the binder is of. A substitution also sees the span of the
variable it replaces, so that `Ty.var` and `Term.var` are the substitutions that
change nothing and every renaming is a substitution, spans included.

The laws of this module say that two such operations in a row are one.
-/

namespace PolyLambda.Indexed

/-- A map of indices. -/
abbrev Renaming := Nat → Nat

/-- What stands for each type variable. -/
abbrev TySubst := Span → Nat → Ty

/-- What stands for each term variable. -/
abbrev TermSubst := Span → Nat → Term

namespace Renaming

/-- The renaming inside one more binder, which keeps its own index. -/
def under (mapping : Renaming) : Renaming
  | 0 => 0
  | index + 1 => mapping index + 1

/-- A renaming under several binders. -/
def underMany (mapping : Renaming) : Nat → Renaming
  | 0 => mapping
  | count + 1 => (mapping.underMany count).under

/-- The renaming that makes room for `amount` new binders. -/
def up (amount : Nat) : Renaming := fun index => index + amount

@[simp] theorem under_zero (mapping : Renaming) : mapping.under 0 = 0 := rfl

@[simp] theorem under_succ (mapping : Renaming) (index : Nat) :
    mapping.under (index + 1) = mapping index + 1 := rfl

@[simp] theorem up_apply (amount index : Nat) : up amount index = index + amount := rfl

/-- Moving nothing moves nothing inside a binder. -/
theorem under_id : under (fun index => index) = fun index => index := by
  ext index
  cases index <;> rfl

/-- Moving nothing moves nothing inside any number of binders. -/
theorem underMany_id (count : Nat) :
    underMany (fun index => index) count = fun index => index := by
  induction count with
  | zero => rfl
  | succ count countIH => rw [underMany, countIH, under_id]

/-- Under several binders these keep their indices. -/
theorem underMany_of_lt (mapping : Renaming) {count index : Nat} (inner : index < count) :
    mapping.underMany count index = index := by
  induction count generalizing index with
  | zero => exact absurd inner (Nat.not_lt_zero index)
  | succ count countIH =>
      cases index with
      | zero => rfl
      | succ index => exact congrArg (· + 1) (countIH (Nat.lt_of_succ_lt_succ inner))

/-- Past the binders that a renaming has entered it moves indices as outside. -/
theorem underMany_add (mapping : Renaming) (count index : Nat) :
    mapping.underMany count (index + count) = mapping index + count := by
  induction count with
  | zero => rfl
  | succ count countIH => exact congrArg (· + 1) countIH

/-- Two renamings, each inside a binder, are their composite inside it. -/
theorem under_comp (first second : Renaming) :
    (fun index => second.under (first.under index)) =
      under (fun index => second (first index)) := by
  ext index
  cases index <;> rfl

end Renaming

/-- Renames the free indices of a type. -/
def Ty.rename (mapping : Renaming) : Ty → Ty
  | .var span index => .var span (mapping index)
  | .arrow span domain codomain => .arrow span (domain.rename mapping) (codomain.rename mapping)
  | .all span body => .all span (body.rename mapping.under)

/-- Renames the free indices of a term and of the types in it. -/
def Term.rename (mapping : Renaming) : Term → Term
  | .var span index => .var span (mapping index)
  | .lam span paramType body =>
    .lam span (paramType.rename mapping) (body.rename mapping.under)
  | .app span function argument => .app span (function.rename mapping) (argument.rename mapping)
  | .tyLam span body => .tyLam span (body.rename mapping.under)
  | .tyApp span function argument =>
    .tyApp span (function.rename mapping) (argument.rename mapping)

/-- Makes room for `amount` new binders around a type. -/
def Ty.lift (amount : Nat) (ty : Ty) : Ty :=
  ty.rename (.up amount)

/-- Makes room for `amount` new binders around a term. -/
def Term.lift (amount : Nat) (term : Term) : Term :=
  term.rename (.up amount)

/-- The substitution inside one more binder, which stands for itself. -/
def TySubst.under (types : TySubst) : TySubst
  | span, 0 => .var span 0
  | span, index + 1 => (types span index).lift 1

@[inherit_doc TySubst.under]
def TermSubst.under (terms : TermSubst) : TermSubst
  | span, 0 => .var span 0
  | span, index + 1 => (terms span index).lift 1

/-- The substitution that takes away the innermost binder, for which `head` stands. -/
def TySubst.cons (head : Ty) (types : TySubst) : TySubst
  | _, 0 => head
  | span, index + 1 => types span index

@[inherit_doc TySubst.cons]
def TermSubst.cons (head : Term) (terms : TermSubst) : TermSubst
  | _, 0 => head
  | span, index + 1 => terms span index

/-- Replaces the type variables of a type. -/
def Ty.substAll (types : TySubst) : Ty → Ty
  | .var span index => types span index
  | .arrow span domain codomain => .arrow span (domain.substAll types) (codomain.substAll types)
  | .all span body => .all span (body.substAll types.under)

/-- Replaces the type variables and the term variables of a term. -/
def Term.substAll (types : TySubst) (terms : TermSubst) : Term → Term
  | .var span index => terms span index
  | .lam span paramType body =>
    .lam span (paramType.substAll types) (body.substAll types.under terms.under)
  | .app span function argument =>
    .app span (function.substAll types terms) (argument.substAll types terms)
  | .tyLam span body => .tyLam span (body.substAll types.under terms.under)
  | .tyApp span function argument =>
    .tyApp span (function.substAll types terms) (argument.substAll types)

/-- A closed type, for places that no type can take. -/
def Ty.filler : Ty :=
  .all default (.var default 0)

/-- A closed term, for places that no term can take. -/
def Term.filler : Term :=
  .lam default .filler (.var default 0)

/-- The body of a quantified type at a type. -/
def Ty.bodyAt (body argument : Ty) : Ty :=
  body.substAll (.cons argument .var)

/-- The body of an abstraction at a term. The parameter is no type, so that the
filler stands for it among types. -/
def Term.bodyAt (body argument : Term) : Term :=
  body.substAll (.cons .filler .var) (.cons argument .var)

/-- The body of a type abstraction at a type. The parameter is no term, so that
the filler stands for it among terms. -/
def Term.bodyAtType (body : Term) (argument : Ty) : Term :=
  body.substAll (.cons argument .var) (.cons .filler .var)

/-! ## Renaming after renaming -/

@[simp] theorem Ty.rename_id (ty : Ty) : ty.rename (fun index => index) = ty := by
  induction ty with
  | var span index => rfl
  | arrow span domain codomain domainIH codomainIH => simp only [Ty.rename, domainIH, codomainIH]
  | all span body bodyIH => simp only [Ty.rename, Renaming.under_id, bodyIH]

@[simp] theorem Term.rename_id (term : Term) : term.rename (fun index => index) = term := by
  induction term with
  | var span index => rfl
  | lam span paramType body bodyIH =>
      simp only [Term.rename, Ty.rename_id, Renaming.under_id, bodyIH]
  | app span function argument functionIH argumentIH =>
      simp only [Term.rename, functionIH, argumentIH]
  | tyLam span body bodyIH => simp only [Term.rename, Renaming.under_id, bodyIH]
  | tyApp span function argument functionIH => simp only [Term.rename, functionIH, Ty.rename_id]

/-- Renaming a type twice is renaming it once. -/
theorem Ty.rename_rename (ty : Ty) (first second : Renaming) :
    (ty.rename first).rename second = ty.rename (fun index => second (first index)) := by
  induction ty generalizing first second with
  | var span index => rfl
  | arrow span domain codomain domainIH codomainIH => simp only [Ty.rename, domainIH, codomainIH]
  | all span body bodyIH => simp only [Ty.rename, bodyIH, Renaming.under_comp]

/-- Renaming a term twice is renaming it once. -/
theorem Term.rename_rename (term : Term) (first second : Renaming) :
    (term.rename first).rename second = term.rename (fun index => second (first index)) := by
  induction term generalizing first second with
  | var span index => rfl
  | lam span paramType body bodyIH =>
      simp only [Term.rename, Ty.rename_rename, bodyIH, Renaming.under_comp]
  | app span function argument functionIH argumentIH =>
      simp only [Term.rename, functionIH, argumentIH]
  | tyLam span body bodyIH => simp only [Term.rename, bodyIH, Renaming.under_comp]
  | tyApp span function argument functionIH =>
      simp only [Term.rename, functionIH, Ty.rename_rename]

/-- Room for binders may be made in a type all at once. -/
theorem Ty.lift_lift (ty : Ty) (first second : Nat) :
    (ty.lift first).lift second = ty.lift (first + second) := by
  simp only [Ty.lift, Ty.rename_rename, Renaming.up_apply, Nat.add_assoc]
  rfl

/-- Room for binders may be made in a term all at once. -/
theorem Term.lift_lift (term : Term) (first second : Nat) :
    (term.lift first).lift second = term.lift (first + second) := by
  simp only [Term.lift, Term.rename_rename, Renaming.up_apply, Nat.add_assoc]
  rfl

/-- A renaming inside a binder leaves room for that binder. -/
theorem Ty.lift_rename_under (ty : Ty) (mapping : Renaming) :
    (ty.lift 1).rename mapping.under = (ty.rename mapping).lift 1 := by
  simp only [Ty.lift, Ty.rename_rename, Renaming.up_apply, Renaming.under_succ]

/-- Making room for a binder and renaming inside of it is renaming and then making room. -/
theorem Term.lift_rename_under (term : Term) (mapping : Renaming) :
    (term.lift 1).rename mapping.under = (term.rename mapping).lift 1 := by
  simp only [Term.lift, Term.rename_rename, Renaming.up_apply, Renaming.under_succ]

/-! ## Substitution after renaming -/

/-- A type substitution after a renaming may be composed outside of a binder. -/
theorem TySubst.under_rename (mapping : Renaming) (types : TySubst) :
    (fun span index => types.under span (mapping.under index)) =
      TySubst.under (fun span index => types span (mapping index)) := by
  ext span index
  cases index <;> rfl

/-- A term substitution after a renaming may be composed outside of a binder. -/
theorem TermSubst.under_rename (mapping : Renaming) (terms : TermSubst) :
    (fun span index => terms.under span (mapping.under index)) =
      TermSubst.under (fun span index => terms span (mapping index)) := by
  ext span index
  cases index <;> rfl

/-- Substituting in a renamed type is substituting for what the indices are renamed to. -/
theorem Ty.rename_substAll (ty : Ty) (mapping : Renaming) (types : TySubst) :
    (ty.rename mapping).substAll types =
      ty.substAll (fun span index => types span (mapping index)) := by
  induction ty generalizing mapping types with
  | var span index => rfl
  | arrow span domain codomain domainIH codomainIH =>
      simp only [Ty.rename, Ty.substAll, domainIH, codomainIH]
  | all span body bodyIH => simp only [Ty.rename, Ty.substAll, bodyIH, TySubst.under_rename]

/-- Substituting in a renamed term is substituting for what the indices are renamed to. -/
theorem Term.rename_substAll (term : Term) (mapping : Renaming) (types : TySubst)
    (terms : TermSubst) :
    (term.rename mapping).substAll types terms =
      term.substAll (fun span index => types span (mapping index))
        (fun span index => terms span (mapping index)) := by
  induction term generalizing mapping types terms with
  | var span index => rfl
  | lam span paramType body bodyIH =>
      simp only [Term.rename, Term.substAll, Ty.rename_substAll, bodyIH, TySubst.under_rename,
        TermSubst.under_rename]
  | app span function argument functionIH argumentIH =>
      simp only [Term.rename, Term.substAll, functionIH, argumentIH]
  | tyLam span body bodyIH =>
      simp only [Term.rename, Term.substAll, bodyIH, TySubst.under_rename, TermSubst.under_rename]
  | tyApp span function argument functionIH =>
      simp only [Term.rename, Term.substAll, functionIH, Ty.rename_substAll]

/-! ## Renaming after substitution -/

/-- Renaming the images of a type substitution may be done outside of a binder. -/
theorem TySubst.rename_under (types : TySubst) (mapping : Renaming) :
    (fun span index => (types.under span index).rename mapping.under) =
      TySubst.under (fun span index => (types span index).rename mapping) := by
  ext span index
  cases index with
  | zero => rfl
  | succ index => exact Ty.lift_rename_under (types span index) mapping

/-- Renaming the images of a term substitution may be done outside of a binder. -/
theorem TermSubst.rename_under (terms : TermSubst) (mapping : Renaming) :
    (fun span index => (terms.under span index).rename mapping.under) =
      TermSubst.under (fun span index => (terms span index).rename mapping) := by
  ext span index
  cases index with
  | zero => rfl
  | succ index => exact Term.lift_rename_under (terms span index) mapping

/-- Renaming after a substitution in a type renames the images. -/
theorem Ty.substAll_rename (ty : Ty) (types : TySubst) (mapping : Renaming) :
    (ty.substAll types).rename mapping =
      ty.substAll (fun span index => (types span index).rename mapping) := by
  induction ty generalizing types mapping with
  | var span index => rfl
  | arrow span domain codomain domainIH codomainIH =>
      simp only [Ty.rename, Ty.substAll, domainIH, codomainIH]
  | all span body bodyIH => simp only [Ty.rename, Ty.substAll, bodyIH, TySubst.rename_under]

/-- Renaming after a substitution in a term renames the images. -/
theorem Term.substAll_rename (term : Term) (types : TySubst) (terms : TermSubst)
    (mapping : Renaming) :
    (term.substAll types terms).rename mapping =
      term.substAll (fun span index => (types span index).rename mapping)
        (fun span index => (terms span index).rename mapping) := by
  induction term generalizing types terms mapping with
  | var span index => rfl
  | lam span paramType body bodyIH =>
      simp only [Term.rename, Term.substAll, Ty.substAll_rename, bodyIH, TySubst.rename_under,
        TermSubst.rename_under]
  | app span function argument functionIH argumentIH =>
      simp only [Term.rename, Term.substAll, functionIH, argumentIH]
  | tyLam span body bodyIH =>
      simp only [Term.rename, Term.substAll, bodyIH, TySubst.rename_under, TermSubst.rename_under]
  | tyApp span function argument functionIH =>
      simp only [Term.rename, Term.substAll, functionIH, Ty.substAll_rename]

/-! ## Substitution after substitution -/

/-- Replacing every type variable by itself does so inside a binder. -/
theorem TySubst.under_var : TySubst.under .var = .var := by
  ext span index
  cases index <;> rfl

/-- Replacing every term variable by itself does so inside a binder. -/
theorem TermSubst.under_var : TermSubst.under .var = .var := by
  ext span index
  cases index <;> rfl

@[simp] theorem Ty.substAll_var (ty : Ty) : ty.substAll .var = ty := by
  induction ty with
  | var span index => rfl
  | arrow span domain codomain domainIH codomainIH => simp only [Ty.substAll, domainIH, codomainIH]
  | all span body bodyIH => simp only [Ty.substAll, TySubst.under_var, bodyIH]

@[simp] theorem Term.substAll_var (term : Term) : term.substAll .var .var = term := by
  induction term with
  | var span index => rfl
  | lam span paramType body bodyIH =>
      simp only [Term.substAll, Ty.substAll_var, TySubst.under_var, TermSubst.under_var, bodyIH]
  | app span function argument functionIH argumentIH =>
      simp only [Term.substAll, functionIH, argumentIH]
  | tyLam span body bodyIH =>
      simp only [Term.substAll, TySubst.under_var, TermSubst.under_var, bodyIH]
  | tyApp span function argument functionIH =>
      simp only [Term.substAll, functionIH, Ty.substAll_var]

/-- Two type substitutions may be composed outside of a binder. -/
theorem TySubst.substAll_under (first second : TySubst) :
    (fun span index => (first.under span index).substAll second.under) =
      TySubst.under (fun span index => (first span index).substAll second) := by
  ext span index
  cases index with
  | zero => rfl
  | succ index =>
      simp only [TySubst.under, Ty.lift, Ty.rename_substAll, Ty.substAll_rename]
      rfl

/-- Two term substitutions may be composed outside of a binder. -/
theorem TermSubst.substAll_under (terms : TermSubst) (secondTypes : TySubst)
    (secondTerms : TermSubst) :
    (fun span index => (terms.under span index).substAll secondTypes.under secondTerms.under) =
      TermSubst.under (fun span index => (terms span index).substAll secondTypes secondTerms) := by
  ext span index
  cases index with
  | zero => rfl
  | succ index =>
      simp only [TermSubst.under, Term.lift, Term.rename_substAll, Term.substAll_rename]
      rfl

/-- Substituting in a type twice is substituting once, in the images. -/
theorem Ty.substAll_substAll (ty : Ty) (first second : TySubst) :
    (ty.substAll first).substAll second =
      ty.substAll (fun span index => (first span index).substAll second) := by
  induction ty generalizing first second with
  | var span index => rfl
  | arrow span domain codomain domainIH codomainIH => simp only [Ty.substAll, domainIH, codomainIH]
  | all span body bodyIH => simp only [Ty.substAll, bodyIH, TySubst.substAll_under]

/-- Substituting in a term twice is substituting once, in the images. -/
theorem Term.substAll_substAll (term : Term) (firstTypes secondTypes : TySubst)
    (firstTerms secondTerms : TermSubst) :
    (term.substAll firstTypes firstTerms).substAll secondTypes secondTerms =
      term.substAll (fun span index => (firstTypes span index).substAll secondTypes)
        (fun span index => (firstTerms span index).substAll secondTypes secondTerms) := by
  induction term generalizing firstTypes secondTypes firstTerms secondTerms with
  | var span index => rfl
  | lam span paramType body bodyIH =>
      simp only [Term.substAll, Ty.substAll_substAll, bodyIH, TySubst.substAll_under,
        TermSubst.substAll_under]
  | app span function argument functionIH argumentIH =>
      simp only [Term.substAll, functionIH, argumentIH]
  | tyLam span body bodyIH =>
      simp only [Term.substAll, bodyIH, TySubst.substAll_under, TermSubst.substAll_under]
  | tyApp span function argument functionIH =>
      simp only [Term.substAll, functionIH, Ty.substAll_substAll]

/-! ## Taking away a binder -/

@[simp] theorem Ty.lift_substAll_cons (ty head : Ty) (types : TySubst) :
    (ty.lift 1).substAll (.cons head types) = ty.substAll types :=
  Ty.rename_substAll ty (.up 1) (.cons head types)

@[simp] theorem Term.lift_substAll_cons (term head : Term) (headType : Ty) (types : TySubst)
    (terms : TermSubst) :
    (term.lift 1).substAll (.cons headType types) (.cons head terms) = term.substAll types terms :=
  Term.rename_substAll term (.up 1) (.cons headType types) (.cons head terms)

@[simp] theorem Ty.lift_substAll_under (ty : Ty) (types : TySubst) :
    (ty.lift 1).substAll types.under = (ty.substAll types).lift 1 := by
  simp only [Ty.lift, Ty.rename_substAll, Ty.substAll_rename]
  rfl

@[simp] theorem Term.lift_substAll_under (term : Term) (types : TySubst) (terms : TermSubst) :
    (term.lift 1).substAll types.under terms.under = (term.substAll types terms).lift 1 := by
  simp only [Term.lift, Term.rename_substAll, Term.substAll_rename]
  rfl

/-- Entering a binder and then filling it fills it and substitutes in the images, for types. -/
theorem TySubst.under_substAll_cons (types second : TySubst) (head : Ty) :
    (fun span index => (types.under span index).substAll (.cons head second)) =
      TySubst.cons head (fun span index => (types span index).substAll second) := by
  ext span index
  cases index with
  | zero => rfl
  | succ index => exact Ty.lift_substAll_cons (types span index) head second

/-- Entering a binder and then filling it fills it and substitutes in the images, for terms. -/
theorem TermSubst.under_substAll_cons (terms : TermSubst) (headType : Ty) (head : Term)
    (secondTypes : TySubst) (secondTerms : TermSubst) :
    (fun span index =>
      (terms.under span index).substAll (.cons headType secondTypes) (.cons head secondTerms)) =
      TermSubst.cons head
        (fun span index => (terms span index).substAll secondTypes secondTerms) := by
  ext span index
  cases index with
  | zero => rfl
  | succ index =>
      exact Term.lift_substAll_cons (terms span index) head headType secondTypes secondTerms

/-- Substituting under a binder and then for that binder is one substitution. -/
theorem Ty.substAll_under_bodyAt (body argument : Ty) (types : TySubst) :
    (body.substAll types.under).bodyAt argument = body.substAll (.cons argument types) := by
  simp only [Ty.bodyAt, Ty.substAll_substAll, TySubst.under_substAll_cons, Ty.substAll_var]

@[inherit_doc Ty.substAll_under_bodyAt]
theorem Term.substAll_under_bodyAt (body argument : Term) (types : TySubst)
    (terms : TermSubst) :
    (body.substAll types.under terms.under).bodyAt argument =
      body.substAll (.cons .filler types) (.cons argument terms) := by
  simp only [Term.bodyAt, Term.substAll_substAll, TySubst.under_substAll_cons,
    TermSubst.under_substAll_cons, Ty.substAll_var, Term.substAll_var]

@[inherit_doc Ty.substAll_under_bodyAt]
theorem Term.substAll_under_bodyAtType (body : Term) (argument : Ty) (types : TySubst)
    (terms : TermSubst) :
    (body.substAll types.under terms.under).bodyAtType argument =
      body.substAll (.cons argument types) (.cons .filler terms) := by
  simp only [Term.bodyAtType, Term.substAll_substAll, TySubst.under_substAll_cons,
    TermSubst.under_substAll_cons, Ty.substAll_var, Term.substAll_var]

/-- A type substitution after the filling of a binder applies to what fills it and to the
rest. -/
theorem TySubst.cons_substAll (head : Ty) (types second : TySubst) :
    (fun span index => (cons head types span index).substAll second) =
      cons (head.substAll second) (fun span index => (types span index).substAll second) := by
  ext span index
  cases index <;> rfl

/-- A term substitution after the filling of a binder applies to what fills it and to the
rest. -/
theorem TermSubst.cons_substAll (head : Term) (terms : TermSubst) (secondTypes : TySubst)
    (secondTerms : TermSubst) :
    (fun span index => (cons head terms span index).substAll secondTypes secondTerms) =
      cons (head.substAll secondTypes secondTerms)
        (fun span index => (terms span index).substAll secondTypes secondTerms) := by
  ext span index
  cases index <;> rfl

/-- Taking a body at an argument commutes with substitution. -/
theorem Ty.bodyAt_substAll (body argument : Ty) (types : TySubst) :
    (body.bodyAt argument).substAll types =
      (body.substAll types.under).bodyAt (argument.substAll types) := by
  rw [Ty.substAll_under_bodyAt, Ty.bodyAt, Ty.substAll_substAll, TySubst.cons_substAll]
  rfl

@[inherit_doc Ty.bodyAt_substAll]
theorem Term.bodyAt_substAll (body argument : Term) (types : TySubst) (terms : TermSubst) :
    (body.bodyAt argument).substAll types terms =
      (body.substAll types.under terms.under).bodyAt (argument.substAll types terms) := by
  rw [Term.substAll_under_bodyAt, Term.bodyAt, Term.substAll_substAll, TySubst.cons_substAll,
    TermSubst.cons_substAll]
  rfl

@[inherit_doc Ty.bodyAt_substAll]
theorem Term.bodyAtType_substAll (body : Term) (argument : Ty) (types : TySubst)
    (terms : TermSubst) :
    (body.bodyAtType argument).substAll types terms =
      (body.substAll types.under terms.under).bodyAtType (argument.substAll types) := by
  rw [Term.substAll_under_bodyAtType, Term.bodyAtType, Term.substAll_substAll,
    TySubst.cons_substAll, TermSubst.cons_substAll]
  rfl

/-! ## Renamings are substitutions -/

/-- A renaming of types stays one inside a binder. -/
theorem TySubst.under_ofRenaming (mapping : Renaming) :
    TySubst.under (fun span index => .var span (mapping index)) =
      fun span index => .var span (mapping.under index) := by
  ext span index
  cases index <;> rfl

/-- A renaming of terms stays one inside a binder. -/
theorem TermSubst.under_ofRenaming (mapping : Renaming) :
    TermSubst.under (fun span index => .var span (mapping index)) =
      fun span index => .var span (mapping.under index) := by
  ext span index
  cases index <;> rfl

/-- Renaming a type is substituting variables in it. -/
theorem Ty.rename_eq_substAll (ty : Ty) (mapping : Renaming) :
    ty.rename mapping = ty.substAll (fun span index => .var span (mapping index)) := by
  rw [← Ty.substAll_var (ty.rename mapping), Ty.rename_substAll]

/-- Renaming a term is substituting variables in it. -/
theorem Term.rename_eq_substAll (term : Term) (mapping : Renaming) :
    term.rename mapping =
      term.substAll (fun span index => .var span (mapping index))
        (fun span index => .var span (mapping index)) := by
  rw [← Term.substAll_var (term.rename mapping), Term.rename_substAll]

/-- Taking a body at an argument commutes with renaming. -/
theorem Ty.bodyAt_rename (body argument : Ty) (mapping : Renaming) :
    (body.bodyAt argument).rename mapping =
      (body.rename mapping.under).bodyAt (argument.rename mapping) := by
  simp only [Ty.rename_eq_substAll, Ty.bodyAt_substAll, TySubst.under_ofRenaming]

@[inherit_doc Ty.bodyAt_rename]
theorem Term.bodyAt_rename (body argument : Term) (mapping : Renaming) :
    (body.bodyAt argument).rename mapping =
      (body.rename mapping.under).bodyAt (argument.rename mapping) := by
  simp only [Term.rename_eq_substAll, Term.bodyAt_substAll, TySubst.under_ofRenaming,
    TermSubst.under_ofRenaming]

@[inherit_doc Ty.bodyAt_rename]
theorem Term.bodyAtType_rename (body : Term) (argument : Ty) (mapping : Renaming) :
    (body.bodyAtType argument).rename mapping =
      (body.rename mapping.under).bodyAtType (argument.rename mapping) := by
  simp only [Term.rename_eq_substAll, Ty.rename_eq_substAll, Term.bodyAtType_substAll,
    TySubst.under_ofRenaming, TermSubst.under_ofRenaming]

end PolyLambda.Indexed
