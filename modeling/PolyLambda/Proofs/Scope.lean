import PolyLambda.Proofs.IndexArithmetic
import PolyLambda.Typing.Deduction

/-!
# Scopes of indexed trees

A tree is in the scope of a context when each of its indices names a binder of the
right kind. Renaming and substitution keep trees in scope, and inside a scope it
does not matter what a substitution does to indices of the wrong kind.
-/

namespace PolyLambda.Indexed

/-! ## What a context says about an index -/

namespace Context

/-- The index names a type binder. -/
def BindsType (context : Context) (index : Nat) : Prop :=
  context[index]? = some (.type ())

/-- The type of a term binder, as it reads inside the whole context. -/
def termType? (context : Context) (index : Nat) : Option Ty :=
  match context[index]? with
  | some (.term entry) => some (entry.ty.lift (index + 1))
  | _ => none

/-- The definition of a term binder, as it reads inside the whole context. -/
def unfolding? (context : Context) (index : Nat) : Option Term :=
  match context[index]? with
  | some (.term entry) => entry.definition.map (Term.lift (index + 1))
  | _ => none

variable {context : Context} {binding : Binding} {index : Nat}

@[simp] theorem bindsType_cons_succ :
    BindsType (binding :: context) (index + 1) ↔ context.BindsType index :=
  Iff.rfl

@[simp] theorem bindsType_cons_zero : BindsType (binding :: context) 0 ↔ binding = .type () := by
  simp [BindsType]

@[simp] theorem termType?_cons_succ :
    termType? (binding :: context) (index + 1) = (context.termType? index).map (Ty.lift 1) := by
  simp only [termType?, List.getElem?_cons_succ]
  cases context[index]? with
  | none => rfl
  | some binder =>
      cases binder with
      | type name => rfl
      | term entry => simp [Ty.lift_lift]

@[simp] theorem termType?_type_zero (name : Unit) : termType? (.type name :: context) 0 = none :=
  rfl

@[simp] theorem termType?_term_zero (entry : TermEntry Unit Ty Term) :
    termType? (.term entry :: context) 0 = some (entry.ty.lift 1) := rfl

@[simp] theorem unfolding?_cons_succ :
    unfolding? (binding :: context) (index + 1) = (context.unfolding? index).map (Term.lift 1) := by
  simp only [unfolding?, List.getElem?_cons_succ]
  cases context[index]? with
  | none => rfl
  | some binder =>
      cases binder with
      | type name => rfl
      | term entry => simp [Function.comp_def, Term.lift_lift]

@[simp] theorem unfolding?_type_zero (name : Unit) :
    unfolding? (.type name :: context) 0 = none := rfl

@[simp] theorem unfolding?_term_zero (entry : TermEntry Unit Ty Term) :
    unfolding? (.term entry :: context) 0 = entry.definition.map (Term.lift 1) := rfl

end Context

/-! ## Trees in scope -/

/-- Every index of the type names a type binder. -/
def Ty.InScope (context : Context) : Ty → Prop
  | .var _ index => context.BindsType index
  | .arrow _ domain codomain => domain.InScope context ∧ codomain.InScope context
  | .all _ body => body.InScope context.pushType

/-- Every index of the term names a binder of the kind asked for. -/
def Term.InScope (context : Context) : Term → Prop
  | .var _ index => (context.termType? index).isSome
  | .lam _ paramType body => paramType.InScope context ∧ body.InScope (context.pushTerm paramType)
  | .app _ function argument => function.InScope context ∧ argument.InScope context
  | .tyLam _ body => body.InScope context.pushType
  | .tyApp _ function argument => function.InScope context ∧ argument.InScope context

/-- The types that a context records are in the scope of what stands below them. -/
def Context.TypesScoped : Context → Prop
  | [] => True
  | .type _ :: rest => TypesScoped rest
  | .term entry :: rest => entry.ty.InScope rest ∧ TypesScoped rest

/-- What a context records is in the scope of what stands below it. -/
def Context.Scoped : Context → Prop
  | [] => True
  | .type _ :: rest => Scoped rest
  | .term entry :: rest =>
    entry.ty.InScope rest ∧ (∀ definition ∈ entry.definition, definition.InScope rest) ∧ Scoped rest

/-! ## Renaming -/

/-- A renaming carries one context to another when it respects kinds, recorded
types and definitions. -/
structure Renaming.Carries (mapping : Renaming) (source target : Context) : Prop where
  types : ∀ {index}, source.BindsType index → target.BindsType (mapping index)
  terms : ∀ {index ty}, source.termType? index = some ty →
    target.termType? (mapping index) = some (ty.rename mapping)
  unfoldings : ∀ {index definition}, source.unfolding? index = some definition →
    target.unfolding? (mapping index) = some (definition.rename mapping)

namespace Renaming.Carries

variable {mapping : Renaming} {source target : Context}

/-- Adding a binder on top leaves room for it everywhere else. -/
theorem up (context : Context) (binding : Binding) :
    (Renaming.up 1).Carries context (binding :: context) where
  types bound := bound
  terms recorded := by simp [recorded, Ty.lift]
  unfoldings unfolds := by simp [unfolds, Term.lift]

/-- Inside one more type binder, that binder may go to any type binder. -/
theorem extendType (carries : mapping.Carries source target) {extended : Renaming}
    (head : target.pushType.BindsType (extended 0))
    (tail : ∀ index, extended (index + 1) = mapping index + 1) :
    extended.Carries source.pushType target.pushType where
  types {index} bound := by
    cases index with
    | zero => exact head
    | succ index =>
        rw [tail]
        exact carries.types bound
  terms {index ty} recorded := by
    cases index with
    | zero => cases recorded
    | succ index =>
        simp only [Context.pushType, Context.termType?_cons_succ, Option.map_eq_some_iff]
          at recorded
        obtain ⟨below, recorded, rfl⟩ := recorded
        simp [Context.pushType, carries.terms recorded, Ty.lift, Ty.rename_rename, tail]
  unfoldings {index definition} unfolds := by
    cases index with
    | zero => cases unfolds
    | succ index =>
        simp only [Context.pushType, Context.unfolding?_cons_succ, Option.map_eq_some_iff]
          at unfolds
        obtain ⟨below, unfolds, rfl⟩ := unfolds
        simp [Context.pushType, carries.unfoldings unfolds, Term.lift, Term.rename_rename, tail]

/-- A renaming between contexts is one between them with a type binder each. -/
theorem underType (carries : mapping.Carries source target) :
    mapping.under.Carries source.pushType target.pushType :=
  carries.extendType rfl (fun _ => rfl)

/-- A term binder is carried together with its type and its definition. -/
theorem underEntry (carries : mapping.Carries source target) (ty : Ty)
    (definition : Option Term) :
    mapping.under.Carries (.term ⟨(), ty, definition⟩ :: source)
      (.term ⟨(), ty.rename mapping, definition.map (Term.rename mapping)⟩ :: target) where
  types {index} bound := by
    cases index with
    | zero => cases bound
    | succ index => exact carries.types bound
  terms {index found} recorded := by
    cases index with
    | zero =>
        cases recorded
        simp [Ty.lift_rename_under]
    | succ index =>
        simp only [Context.termType?_cons_succ, Option.map_eq_some_iff] at recorded
        obtain ⟨below, recorded, rfl⟩ := recorded
        simp [carries.terms recorded, Ty.lift_rename_under]
  unfoldings {index found} unfolds := by
    cases index with
    | zero =>
        simp only [Context.unfolding?_term_zero, Option.map_eq_some_iff] at unfolds
        obtain ⟨below, rfl, rfl⟩ := unfolds
        simp [Term.lift_rename_under]
    | succ index =>
        simp only [Context.unfolding?_cons_succ, Option.map_eq_some_iff] at unfolds
        obtain ⟨below, unfolds, rfl⟩ := unfolds
        simp [carries.unfoldings unfolds, Term.lift_rename_under]

/-- A renaming between contexts is one between them with a term binder each, whose type it
renames. -/
theorem underTerm (carries : mapping.Carries source target) (ty : Ty) :
    mapping.under.Carries (source.pushTerm ty) (target.pushTerm (ty.rename mapping)) :=
  carries.underEntry ty none

end Renaming.Carries

/-- A renamed type is in scope where the renaming leads to. -/
theorem Ty.InScope.rename {mapping : Renaming} {source target : Context} {ty : Ty}
    (inScope : ty.InScope source) (carries : mapping.Carries source target) :
    (ty.rename mapping).InScope target := by
  induction ty generalizing mapping source target with
  | var span index => exact carries.types inScope
  | arrow span domain codomain domainIH codomainIH =>
      exact ⟨domainIH inScope.1 carries, codomainIH inScope.2 carries⟩
  | all span body bodyIH => exact bodyIH inScope carries.underType

/-- A renamed term is in scope where the renaming leads to. -/
theorem Term.InScope.rename {mapping : Renaming} {source target : Context} {term : Term}
    (inScope : term.InScope source) (carries : mapping.Carries source target) :
    (term.rename mapping).InScope target := by
  induction term generalizing mapping source target with
  | var span index =>
      obtain ⟨ty, recorded⟩ := Option.isSome_iff_exists.mp inScope
      exact Option.isSome_iff_exists.mpr ⟨_, carries.terms recorded⟩
  | lam span paramType body bodyIH =>
      exact ⟨inScope.1.rename carries, bodyIH inScope.2 (carries.underTerm paramType)⟩
  | app span function argument functionIH argumentIH =>
      exact ⟨functionIH inScope.1 carries, argumentIH inScope.2 carries⟩
  | tyLam span body bodyIH => exact bodyIH inScope carries.underType
  | tyApp span function argument functionIH =>
      exact ⟨functionIH inScope.1 carries, inScope.2.rename carries⟩

/-- A type in scope stays in scope under a new binder. -/
theorem Ty.InScope.lift {context : Context} {ty : Ty} (inScope : ty.InScope context)
    (binding : Binding) : (ty.lift 1).InScope (binding :: context) :=
  inScope.rename (.up context binding)

/-- A term in scope stays in scope under a new binder. -/
theorem Term.InScope.lift {context : Context} {term : Term} (inScope : term.InScope context)
    (binding : Binding) : (term.lift 1).InScope (binding :: context) :=
  inScope.rename (.up context binding)

/-! ## Substitution -/

/-- A substitution replaces the variables of one context by trees in the scope of
another. -/
structure SubstInScope (types : TySubst) (terms : TermSubst) (source target : Context) :
    Prop where
  types : ∀ {index}, source.BindsType index → ∀ span, (types span index).InScope target
  terms : ∀ {index}, (source.termType? index).isSome →
    ∀ span, (terms span index).InScope target

namespace SubstInScope

variable {types : TySubst} {terms : TermSubst} {source target : Context}

/-- A substitution between scopes is one inside one more type binder. -/
theorem underType (inScope : SubstInScope types terms source target) :
    SubstInScope types.under terms.under source.pushType target.pushType where
  types {index} bound span := by
    cases index with
    | zero => rfl
    | succ index => exact (inScope.types bound span).lift _
  terms {index} bound span := by
    cases index with
    | zero => cases bound
    | succ index =>
        simp only [Context.pushType, Context.termType?_cons_succ, Option.isSome_map] at bound
        exact (inScope.terms bound span).lift _

/-- A substitution between scopes is one inside one more term binder. -/
theorem underTerm (inScope : SubstInScope types terms source target) (ty other : Ty) :
    SubstInScope types.under terms.under (source.pushTerm ty) (target.pushTerm other) where
  types {index} bound span := by
    cases index with
    | zero => cases bound
    | succ index => exact (inScope.types bound span).lift _
  terms {index} bound span := by
    cases index with
    | zero => rfl
    | succ index =>
        simp only [Context.pushTerm, Context.termType?_cons_succ, Option.isSome_map] at bound
        exact (inScope.terms bound span).lift _

/-- Filling a term binder with a term in scope leads back to the context. -/
theorem consTerm (context : Context) (ty : Ty) {argument : Term}
    (inScope : argument.InScope context) (filler : Ty) :
    SubstInScope (.cons filler .var) (.cons argument .var) (context.pushTerm ty) context where
  types {index} bound span := by
    cases index with
    | zero => cases bound
    | succ index => exact bound
  terms {index} bound span := by
    cases index with
    | zero => exact inScope
    | succ index =>
        rw [Context.pushTerm, Context.termType?_cons_succ, Option.isSome_map] at bound
        exact bound

/-- Filling a type binder with a type in scope leads back to the context. -/
theorem consType (context : Context) {argument : Ty} (inScope : argument.InScope context)
    (filler : Term) :
    SubstInScope (.cons argument .var) (.cons filler .var) context.pushType context where
  types {index} bound span := by
    cases index with
    | zero => exact inScope
    | succ index => exact bound
  terms {index} bound span := by
    cases index with
    | zero => cases bound
    | succ index =>
        rw [Context.pushType, Context.termType?_cons_succ, Option.isSome_map] at bound
        exact bound

end SubstInScope

/-- What is substituted in a type in scope is in scope. -/
theorem Ty.InScope.substAll {types : TySubst} {terms : TermSubst} {source target : Context}
    {ty : Ty} (inScope : ty.InScope source) (substitutes : SubstInScope types terms source target) :
    (ty.substAll types).InScope target := by
  induction ty generalizing types terms source target with
  | var span index => exact substitutes.types inScope span
  | arrow span domain codomain domainIH codomainIH =>
      exact ⟨domainIH inScope.1 substitutes, codomainIH inScope.2 substitutes⟩
  | all span body bodyIH => exact bodyIH inScope substitutes.underType

/-- What is substituted in a term in scope is in scope. -/
theorem Term.InScope.substAll {types : TySubst} {terms : TermSubst} {source target : Context}
    {term : Term} (inScope : term.InScope source)
    (substitutes : SubstInScope types terms source target) :
    (term.substAll types terms).InScope target := by
  induction term generalizing types terms source target with
  | var span index => exact substitutes.terms inScope span
  | lam span paramType body bodyIH =>
      exact ⟨inScope.1.substAll substitutes,
        bodyIH inScope.2 (substitutes.underTerm paramType (paramType.substAll types))⟩
  | app span function argument functionIH argumentIH =>
      exact ⟨functionIH inScope.1 substitutes, argumentIH inScope.2 substitutes⟩
  | tyLam span body bodyIH => exact bodyIH inScope substitutes.underType
  | tyApp span function argument functionIH =>
      exact ⟨functionIH inScope.1 substitutes, inScope.2.substAll substitutes⟩

/-- The body of a function at an argument in scope is in scope. -/
theorem Term.InScope.bodyAt {context : Context} {ty : Ty} {body argument : Term}
    (bodyInScope : body.InScope (context.pushTerm ty)) (inScope : argument.InScope context) :
    (body.bodyAt argument).InScope context :=
  bodyInScope.substAll (.consTerm context ty inScope .filler)

/-- The body of a polymorphic function at a type in scope is in scope. -/
theorem Term.InScope.bodyAtType {context : Context} {body : Term} {argument : Ty}
    (bodyInScope : body.InScope context.pushType) (inScope : argument.InScope context) :
    (body.bodyAtType argument).InScope context :=
  bodyInScope.substAll (.consType context inScope .filler)

/-- The body of a quantified type at a type in scope is in scope. -/
theorem Ty.InScope.bodyAt {context : Context} {body argument : Ty}
    (bodyInScope : body.InScope context.pushType) (inScope : argument.InScope context) :
    (body.bodyAt argument).InScope context :=
  bodyInScope.substAll (.consType context inScope .filler)

/-! ## What substitution does out of scope does not matter -/

/-- Two substitutions do the same to the type binders of a context. -/
def TySubst.AgreesOn (context : Context) (types others : TySubst) : Prop :=
  ∀ {index}, context.BindsType index → ∀ span, types span index = others span index

/-- Two substitutions do the same to the term binders of a context. -/
def TermSubst.AgreesOn (context : Context) (terms others : TermSubst) : Prop :=
  ∀ {index}, (context.termType? index).isSome → ∀ span, terms span index = others span index

/-- Type substitutions that agree on a context agree inside one more binder. -/
theorem TySubst.AgreesOn.under {context : Context} {types others : TySubst}
    (agree : AgreesOn context types others) (binding : Binding) :
    AgreesOn (binding :: context) types.under others.under := by
  intro index bound span
  cases index with
  | zero => rfl
  | succ index => exact congrArg (Ty.lift 1) (agree bound span)

/-- Term substitutions that agree on a context agree inside one more binder. -/
theorem TermSubst.AgreesOn.under {context : Context} {terms others : TermSubst}
    (agree : AgreesOn context terms others) (binding : Binding) :
    AgreesOn (binding :: context) terms.under others.under := by
  intro index bound span
  cases index with
  | zero => rfl
  | succ index =>
      rw [Context.termType?_cons_succ, Option.isSome_map] at bound
      exact congrArg (Term.lift 1) (agree bound span)

/-- A type in scope cannot tell substitutions apart that agree on the context. -/
theorem Ty.InScope.substAll_congr {context : Context} {types others : TySubst} {ty : Ty}
    (inScope : ty.InScope context) (agree : TySubst.AgreesOn context types others) :
    ty.substAll types = ty.substAll others := by
  induction ty generalizing context types others with
  | var span index => exact agree inScope span
  | arrow span domain codomain domainIH codomainIH =>
      simp only [Ty.substAll, domainIH inScope.1 agree, codomainIH inScope.2 agree]
  | all span body bodyIH => simp only [Ty.substAll, bodyIH inScope (agree.under _)]

/-- A term in scope cannot tell substitutions apart that agree on the context. -/
theorem Term.InScope.substAll_congr {context : Context} {types otherTypes : TySubst}
    {terms otherTerms : TermSubst} {term : Term} (inScope : term.InScope context)
    (typesAgree : TySubst.AgreesOn context types otherTypes)
    (termsAgree : TermSubst.AgreesOn context terms otherTerms) :
    term.substAll types terms = term.substAll otherTypes otherTerms := by
  induction term generalizing context types otherTypes terms otherTerms with
  | var span index => exact termsAgree inScope span
  | lam span paramType body bodyIH =>
      simp only [Term.substAll, inScope.1.substAll_congr typesAgree,
        bodyIH inScope.2 (typesAgree.under _) (termsAgree.under _)]
  | app span function argument functionIH argumentIH =>
      simp only [Term.substAll, functionIH inScope.1 typesAgree termsAgree,
        argumentIH inScope.2 typesAgree termsAgree]
  | tyLam span body bodyIH =>
      simp only [Term.substAll, bodyIH inScope (typesAgree.under _) (termsAgree.under _)]
  | tyApp span function argument functionIH =>
      simp only [Term.substAll, functionIH inScope.1 typesAgree termsAgree,
        inScope.2.substAll_congr typesAgree]

/-- In scope, instantiating an abstraction is taking its body at the argument. -/
theorem Term.InScope.instantiate_computes {context : Context} {ty : Ty} {body : Term}
    (inScope : body.InScope (context.pushTerm ty)) (range : IndexRange) (argument : Term) :
    range.Computes (body.instantiate range argument) (body.bodyAt argument) := by
  have same : body.bodyAt argument =
      body.substAll (fun span index => .var span (index - 1)) (.cons argument .var) := by
    refine inScope.substAll_congr ?_ fun _ _ => rfl
    intro index bound span
    cases index with
    | zero => cases bound
    | succ index => rfl
  rw [same]
  exact Term.instantiate_computes range body argument

@[inherit_doc Term.InScope.instantiate_computes]
theorem Term.InScope.instantiateType_computes {context : Context} {body : Term}
    (inScope : body.InScope context.pushType) (range : IndexRange) (argument : Ty) :
    range.Computes (body.instantiateType range argument) (body.bodyAtType argument) := by
  have same : body.bodyAtType argument =
      body.substAll (.cons argument .var) (fun span index => .var span (index - 1)) := by
    refine inScope.substAll_congr (fun _ _ => rfl) ?_
    intro index bound span
    cases index with
    | zero => cases bound
    | succ index => rfl
  rw [same]
  exact Term.instantiateType_computes range body argument

/-- A type in the scope of a term binder does not refer to it. -/
theorem Ty.InScope.lift_down {context : Context} {param ty : Ty}
    (inScope : ty.InScope (context.pushTerm param)) : (ty.rename .down).lift 1 = ty := by
  have same : ty.substAll (fun span index => .var span (index - 1 + 1)) = ty.substAll .var := by
    refine inScope.substAll_congr ?_
    intro index bound span
    cases index with
    | zero => cases bound
    | succ index => rfl
  rw [Ty.lift, Ty.rename_rename, Ty.rename_eq_substAll]
  exact same.trans (Ty.substAll_var ty)

/-! ## Scoped contexts -/

/-- Below the newest binder the recorded types are in scope, too. -/
theorem Context.TypesScoped.tail {binding : Binding} {rest : Context}
    (typesClosed : Context.TypesScoped (binding :: rest)) : rest.TypesScoped := by
  cases binding with
  | type name => exact typesClosed
  | term entry => exact typesClosed.2

/-- The type of a variable is in scope if those that the context records are. -/
theorem Context.TypesScoped.termType? {context : Context} (typesClosed : context.TypesScoped)
    {index : Nat} {ty : Ty} (recorded : context.termType? index = some ty) :
    ty.InScope context := by
  induction context generalizing index ty with
  | nil => cases recorded
  | cons binding rest restIH =>
      cases index with
      | zero =>
          cases binding with
          | type name => cases recorded
          | term entry =>
              cases recorded
              exact typesClosed.1.lift _
      | succ index =>
          simp only [Context.termType?_cons_succ, Option.map_eq_some_iff] at recorded
          obtain ⟨below, recorded, rfl⟩ := recorded
          exact (restIH typesClosed.tail recorded).lift binding

/-- A parameter whose type is in scope leaves the recorded types in scope. -/
theorem Context.TypesScoped.pushTerm {context : Context} (typesClosed : context.TypesScoped)
    {ty : Ty} (inScope : ty.InScope context) : (context.pushTerm ty).TypesScoped :=
  ⟨inScope, typesClosed⟩

/-- Below the newest binder a scoped context is scoped. -/
theorem Context.Scoped.tail {binding : Binding} {rest : Context}
    (closed : Context.Scoped (binding :: rest)) : rest.Scoped := by
  cases binding with
  | type name => exact closed
  | term entry => exact closed.2.2

/-- The recorded types of a scoped context are in scope. -/
theorem Context.Scoped.types {context : Context} (closed : context.Scoped) :
    context.TypesScoped := by
  induction context with
  | nil => trivial
  | cons binding rest restIH =>
      cases binding with
      | type name => exact restIH closed
      | term entry => exact ⟨closed.1, restIH closed.2.2⟩

/-- The type of a variable is in scope in a scoped context. -/
theorem Context.Scoped.termType? {context : Context} (closed : context.Scoped) {index : Nat}
    {ty : Ty} (recorded : context.termType? index = some ty) : ty.InScope context :=
  closed.types.termType? recorded

/-- What a variable unfolds to is in scope in a scoped context. -/
theorem Context.Scoped.unfolding? {context : Context} (closed : context.Scoped) {index : Nat}
    {definition : Term} (unfolds : context.unfolding? index = some definition) :
    definition.InScope context := by
  induction context generalizing index definition with
  | nil => cases unfolds
  | cons binding rest restIH =>
      cases index with
      | zero =>
          cases binding with
          | type name => cases unfolds
          | term entry =>
              simp only [Context.unfolding?_term_zero, Option.map_eq_some_iff] at unfolds
              obtain ⟨below, recorded, rfl⟩ := unfolds
              exact (closed.2.1 below recorded).lift _
      | succ index =>
          simp only [Context.unfolding?_cons_succ, Option.map_eq_some_iff] at unfolds
          obtain ⟨below, unfolds, rfl⟩ := unfolds
          exact (restIH closed.tail unfolds).lift binding

/-- A parameter whose type is in scope keeps a context scoped. -/
theorem Context.Scoped.pushTerm {context : Context} (closed : context.Scoped) {ty : Ty}
    (inScope : ty.InScope context) : (context.pushTerm ty).Scoped :=
  ⟨inScope, nofun, closed⟩

/-! ## Checking scopes -/

/-- A context under several type binders. -/
def Context.underTypes (context : Context) (depth : Nat) : Context :=
  List.replicate depth (.type ()) ++ context

/-- Under type binders an index denotes one of them, or a type binder of the context around
them. -/
theorem Context.bindsType_underTypes_iff (context : Context) (depth index : Nat) :
    (context.underTypes depth).BindsType index ↔
      index < depth ∨ depth ≤ index ∧ context.BindsType (index - depth) := by
  by_cases inner : index < depth
  · simp [Context.BindsType, Context.underTypes, List.getElem?_append_left, inner]
  · have outer : depth ≤ index := Nat.le_of_not_lt inner
    simp [Context.BindsType, Context.underTypes, List.getElem?_append_right, inner, outer]

/-- An index passes the check exactly if it denotes a type binder. -/
theorem Context.checkType_eq_ok_iff (context : Context) (span : Span) (index : Nat) :
    context.checkType span index = .ok () ↔ context.BindsType index := by
  simp only [Context.checkType, Context.BindsType, PolyLambda.Context.typeAt]
  split <;> simp_all

/-- A type passes the check of its scope exactly if it is in scope. -/
theorem Ty.checkScope_eq_ok_iff (context : Context) (depth : Nat) (ty : Ty) :
    ty.checkScope context depth = .ok () ↔ ty.InScope (context.underTypes depth) := by
  induction ty generalizing depth with
  | var span index =>
      simp only [Ty.checkScope, Ty.InScope, Context.bindsType_underTypes_iff]
      split
      · simp [*]
      · rw [Context.checkType_eq_ok_iff]
        simp [*, Nat.le_of_not_lt]
  | arrow span domain codomain domainIH codomainIH =>
      rw [Ty.InScope, ← domainIH, ← codomainIH, Ty.checkScope]
      cases domain.checkScope context depth <;> simp [bind, Except.bind]
  | all span body bodyIH => exact bodyIH (depth + 1)

/-! ## Free indices -/

/-- A type is in scope when its free indices name type binders. -/
theorem Ty.inScope_underTypes_iff (context : Context) (depth : Nat) (ty : Ty) :
    ty.InScope (context.underTypes depth) ↔
      ∀ index ∈ ty.freeOccurrences depth, context.BindsType index := by
  induction ty generalizing depth with
  | var span index =>
      rw [Ty.InScope, Context.bindsType_underTypes_iff, Ty.freeOccurrences]
      by_cases free : depth ≤ index
      · simp [free, Nat.not_lt_of_le free]
      · simp [free, Nat.lt_of_not_le free]
  | arrow span domain codomain domainIH codomainIH =>
      simp only [Ty.InScope, Ty.freeOccurrences, domainIH, codomainIH, List.forall_mem_append]
  | all span body bodyIH => exact bodyIH (depth + 1)

/-- A type is in scope exactly if each of its free indices denotes a type binder. -/
theorem Ty.inScope_iff (context : Context) (ty : Ty) :
    ty.InScope context ↔ ∀ index ∈ ty.freeIndices, context.BindsType index := by
  simp only [Ty.freeIndices, List.mem_eraseDups]
  exact Ty.inScope_underTypes_iff context 0 ty

/-- A variable is free under some binders if it points out of them. -/
theorem Ty.mem_freeOccurrences_var {span : Span} {depth index free : Nat} :
    free ∈ (Ty.var span index).freeOccurrences depth ↔ depth ≤ index ∧ free = index - depth := by
  by_cases outside : depth ≤ index <;> simp [Ty.freeOccurrences, outside]

/-- An index under `depth` binders is bound by one of them or occurs outside them. -/
def BoundOr (depth : Nat) (occurs : Nat → Prop) (index : Nat) : Prop :=
  depth ≤ index → occurs (index - depth)

/-- What is bound or occurs is bound or among more that occur. -/
theorem BoundOr.mono {depth index : Nat} {occurs others : Nat → Prop}
    (bound : BoundOr depth occurs index) (imp : ∀ free, occurs free → others free) :
    BoundOr depth others index :=
  fun outside => imp _ (bound outside)

/-- An index that is bound or occurs inside a binder is so seen from outside of it. -/
theorem BoundOr.of_succ {depth index : Nat} {occurs : Nat → Prop}
    (bound : BoundOr (depth + 1) occurs (index + 1)) : BoundOr depth occurs index := by
  rwa [BoundOr, Nat.add_le_add_iff_right, Nat.add_sub_add_right] at bound

/-- Type substitutions that agree on the indices that occur agree inside one more binder. -/
theorem TySubst.under_agree {types others : TySubst} {depth : Nat} {occurs : Nat → Prop}
    (agree : ∀ index, BoundOr depth occurs index → ∀ span, types span index = others span index)
    (index : Nat) (bound : BoundOr (depth + 1) occurs index) (span : Span) :
    types.under span index = others.under span index := by
  cases index with
  | zero => rfl
  | succ index => exact congrArg (Ty.lift 1) (agree index bound.of_succ span)

/-- Substitution looks at free indices only. The bound ones are those below `depth`. -/
theorem Ty.substAll_congr (depth : Nat) {types others : TySubst} {ty : Ty}
    (agree : ∀ index, BoundOr depth (· ∈ ty.freeOccurrences depth) index →
      ∀ span, types span index = others span index) :
    ty.substAll types = ty.substAll others := by
  induction ty generalizing depth types others with
  | var span index =>
      exact agree index (fun outside => Ty.mem_freeOccurrences_var.mpr ⟨outside, rfl⟩) span
  | arrow span domain codomain domainIH codomainIH =>
      have domains := domainIH depth fun index bound =>
        agree index (bound.mono fun _ => List.mem_append_left _)
      have codomains := codomainIH depth fun index bound =>
        agree index (bound.mono fun _ => List.mem_append_right _)
      rw [Ty.substAll, Ty.substAll, domains, codomains]
  | all span body bodyIH =>
      rw [Ty.substAll, Ty.substAll, bodyIH (depth + 1) (TySubst.under_agree agree)]

/-- Renamings that agree on the free indices of a type rename it alike. -/
theorem Ty.rename_congr {mapping other : Renaming} {ty : Ty}
    (agree : ∀ index ∈ ty.freeIndices, mapping index = other index) :
    ty.rename mapping = ty.rename other := by
  rw [Ty.rename_eq_substAll, Ty.rename_eq_substAll]
  refine Ty.substAll_congr 0 fun index occurs span => ?_
  have member : index ∈ ty.freeIndices := List.mem_eraseDups.mpr (occurs (Nat.zero_le index))
  rw [agree index member]

/-- A type in scope is renamed alike by renamings that agree on the type binders. -/
theorem Ty.InScope.rename_congr {context : Context} {mapping other : Renaming} {ty : Ty}
    (inScope : ty.InScope context)
    (agree : ∀ index, context.BindsType index → mapping index = other index) :
    ty.rename mapping = ty.rename other :=
  Ty.rename_congr fun index member =>
    agree index ((Ty.inScope_iff context ty).mp inScope index member)

end PolyLambda.Indexed
