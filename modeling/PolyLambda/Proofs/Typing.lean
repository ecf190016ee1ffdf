import PolyLambda.Proofs.Scope

/-!
# Typing

`Typed` is the typing relation that deducing a type decides. Types matter up to
spans only, which the rule `same` says once for all; without it the rules follow
the terms. Deduction is sound for contexts whose recorded types are in scope
(`deduce_typed`) and, while indices have no limit, complete (`Typed.deduce`).
-/

namespace PolyLambda.Indexed

/-! ## Types up to spans -/

namespace Ty.Same

variable {left middle right : Ty}

/-- A type is the same as itself. -/
theorem refl (ty : Ty) : ty.Same ty := rfl

/-- Being the same does not depend on the order of the two types. -/
theorem symm (same : left.Same right) : right.Same left := Eq.symm same

/-- What is the same as one and the same type is the same. -/
theorem trans (first : left.Same middle) (second : middle.Same right) : left.Same right :=
  Eq.trans first second

end Ty.Same

/-- Only an arrow is the same as an arrow, and then the two agree side by side. -/
theorem Ty.same_arrow_iff {span : Span} {domain codomain other : Ty} :
    (Ty.arrow span domain codomain).Same other ↔
      ∃ otherSpan otherDomain otherCodomain, other = .arrow otherSpan otherDomain otherCodomain ∧
        domain.Same otherDomain ∧ codomain.Same otherCodomain := by
  cases other <;> simp [Ty.Same, Ty.bare, and_assoc]

/-- Only a quantified type is the same as a quantified type, and then the bodies agree. -/
theorem Ty.same_all_iff {span : Span} {body other : Ty} :
    (Ty.all span body).Same other ↔
      ∃ otherSpan otherBody, other = .all otherSpan otherBody ∧ body.Same otherBody := by
  cases other <;> simp [Ty.Same, Ty.bare, and_assoc]

/-- Arrows are the same if both of their sides are, whatever their spans. -/
theorem Ty.Same.arrow {domain codomain otherDomain otherCodomain : Ty} (span otherSpan : Span)
    (domains : domain.Same otherDomain) (codomains : codomain.Same otherCodomain) :
    (Ty.arrow span domain codomain).Same (.arrow otherSpan otherDomain otherCodomain) :=
  Ty.same_arrow_iff.mpr ⟨_, _, _, rfl, domains, codomains⟩

/-- Quantified types are the same if their bodies are, whatever their spans. -/
theorem Ty.Same.all {body otherBody : Ty} (span otherSpan : Span) (bodies : body.Same otherBody) :
    (Ty.all span body).Same (.all otherSpan otherBody) :=
  Ty.same_all_iff.mpr ⟨_, _, rfl, bodies⟩

/-- Two substitutions agree up to spans, whatever the span of the variable. -/
def TySubst.Same (types others : TySubst) : Prop :=
  ∀ span otherSpan index, (types span index).Same (others otherSpan index)

/-- Renaming commutes with taking spans away. -/
theorem Ty.bare_rename (ty : Ty) (mapping : Renaming) :
    (ty.rename mapping).bare = ty.bare.rename mapping := by
  induction ty generalizing mapping with
  | var span index => rfl
  | arrow span domain codomain domainIH codomainIH =>
      simp only [Ty.rename, Ty.bare, domainIH, codomainIH]
  | all span body bodyIH => simp only [Ty.rename, Ty.bare, bodyIH]

/-- Types that are the same stay so under a renaming. -/
theorem Ty.Same.rename {left right : Ty} (same : left.Same right) (mapping : Renaming) :
    (left.rename mapping).Same (right.rename mapping) := by
  unfold Ty.Same at same ⊢
  rw [Ty.bare_rename, Ty.bare_rename, same]

/-- Substitutions that are the same stay so inside one more binder. -/
theorem TySubst.Same.under {types others : TySubst} (same : types.Same others) :
    types.under.Same others.under := by
  intro span otherSpan index
  cases index with
  | zero => rfl
  | succ index => exact (same span otherSpan index).rename _

/-- Filling a binder with types that are the same gives substitutions that are the same. -/
theorem TySubst.Same.cons {argument other : Ty} (same : argument.Same other) :
    (TySubst.cons argument .var).Same (.cons other .var) := by
  intro span otherSpan index
  cases index with
  | zero => exact same
  | succ index => rfl

/-- Substituting the same types in the same type gives the same result. -/
theorem Ty.Same.substAll {left right : Ty} (same : left.Same right) {types others : TySubst}
    (substs : types.Same others) : (left.substAll types).Same (right.substAll others) := by
  induction left generalizing right types others with
  | var span index =>
      cases right with
      | var otherSpan other =>
          cases same
          exact substs span otherSpan index
      | arrow => cases same
      | all => cases same
  | arrow span domain codomain domainIH codomainIH =>
      obtain ⟨_, _, _, rfl, domains, codomains⟩ := Ty.same_arrow_iff.mp same
      exact .arrow _ _ (domainIH domains substs) (codomainIH codomains substs)
  | all span body bodyIH =>
      obtain ⟨_, _, rfl, bodies⟩ := Ty.same_all_iff.mp same
      exact .all _ _ (bodyIH bodies substs.under)

/-- The same bodies at the same type are the same. -/
theorem Ty.Same.bodyAt {left right argument other : Ty} (bodies : left.Same right)
    (arguments : argument.Same other) : (left.bodyAt argument).Same (right.bodyAt other) :=
  bodies.substAll (TySubst.Same.cons arguments)

/-- Scope does not depend on spans. -/
theorem Ty.Same.inScope {context : Context} {left right : Ty} (same : left.Same right)
    (inScope : left.InScope context) : right.InScope context := by
  induction left generalizing right context with
  | var span index =>
      cases right with
      | var otherSpan other =>
          cases same
          exact inScope
      | arrow => cases same
      | all => cases same
  | arrow span domain codomain domainIH codomainIH =>
      obtain ⟨_, _, _, rfl, domains, codomains⟩ := Ty.same_arrow_iff.mp same
      exact ⟨domainIH domains inScope.1, codomainIH codomains inScope.2⟩
  | all span body bodyIH =>
      obtain ⟨_, _, rfl, bodies⟩ := Ty.same_all_iff.mp same
      have bodyInScope := bodyIH bodies inScope
      exact bodyInScope

/-! ## The typing relation -/

/-- A term has a type in a context. -/
inductive Typed : Context → Term → Ty → Prop
  | var {context span index ty} (recorded : context.termType? index = some ty) :
      Typed context (.var span index) ty
  | lam {context span arrowSpan paramType body codomain}
      (inScope : paramType.InScope context)
      (bodyTyped : Typed (context.pushTerm paramType) body (codomain.lift 1)) :
      Typed context (.lam span paramType body) (.arrow arrowSpan paramType codomain)
  | app {context span arrowSpan function argument domain codomain}
      (functionTyped : Typed context function (.arrow arrowSpan domain codomain))
      (argumentTyped : Typed context argument domain) :
      Typed context (.app span function argument) codomain
  | tyLam {context span allSpan body bodyType}
      (bodyTyped : Typed context.pushType body bodyType) :
      Typed context (.tyLam span body) (.all allSpan bodyType)
  | tyApp {context span allSpan function argument bodyType}
      (functionTyped : Typed context function (.all allSpan bodyType))
      (inScope : argument.InScope context) :
      Typed context (.tyApp span function argument) (bodyType.bodyAt argument)
  | same {context term ty other} (typed : Typed context term ty) (same : ty.Same other) :
      Typed context term other

/-- What the outermost node of a typed term asks for. -/
def Typed.Generation (context : Context) (ty : Ty) : Term → Prop
  | .var _ index => ∃ found, context.termType? index = some found ∧ found.Same ty
  | .lam _ paramType body => ∃ span codomain, paramType.InScope context ∧
      Typed (context.pushTerm paramType) body (codomain.lift 1) ∧
      (Ty.arrow span paramType codomain).Same ty
  | .app _ function argument => ∃ span domain codomain,
      Typed context function (.arrow span domain codomain) ∧ Typed context argument domain ∧
      codomain.Same ty
  | .tyLam _ body => ∃ span bodyType, Typed context.pushType body bodyType ∧
      (Ty.all span bodyType).Same ty
  | .tyApp _ function argument => ∃ span bodyType, Typed context function (.all span bodyType) ∧
      argument.InScope context ∧ (bodyType.bodyAt argument).Same ty

/-- The conditions on the parts of a term depend on its type only up to spans. -/
theorem Typed.Generation.same {context : Context} {ty other : Ty} {term : Term}
    (generation : Generation context ty term) (same : ty.Same other) :
    Generation context other term := by
  cases term with
  | var span index =>
      obtain ⟨found, recorded, found_same⟩ := generation
      exact ⟨found, recorded, found_same.trans same⟩
  | lam span paramType body =>
      obtain ⟨arrowSpan, codomain, inScope, bodyTyped, arrow_same⟩ := generation
      exact ⟨arrowSpan, codomain, inScope, bodyTyped, arrow_same.trans same⟩
  | app span function argument =>
      obtain ⟨arrowSpan, domain, codomain, functionTyped, argumentTyped, codomain_same⟩ :=
        generation
      exact ⟨arrowSpan, domain, codomain, functionTyped, argumentTyped, codomain_same.trans same⟩
  | tyLam span body =>
      obtain ⟨allSpan, bodyType, bodyTyped, all_same⟩ := generation
      exact ⟨allSpan, bodyType, bodyTyped, all_same.trans same⟩
  | tyApp span function argument =>
      obtain ⟨allSpan, bodyType, functionTyped, inScope, body_same⟩ := generation
      exact ⟨allSpan, bodyType, functionTyped, inScope, body_same.trans same⟩

/-- Whatever derivation a term has, its parts satisfy the conditions of its constructor. -/
theorem Typed.generation {context : Context} {term : Term} {ty : Ty}
    (typed : Typed context term ty) : Generation context ty term := by
  induction typed with
  | var recorded => exact ⟨_, recorded, .refl _⟩
  | lam inScope bodyTyped => exact ⟨_, _, inScope, bodyTyped, .refl _⟩
  | app functionTyped argumentTyped => exact ⟨_, _, _, functionTyped, argumentTyped, .refl _⟩
  | tyLam bodyTyped => exact ⟨_, _, bodyTyped, .refl _⟩
  | tyApp functionTyped inScope => exact ⟨_, _, functionTyped, inScope, .refl _⟩
  | same _ same inductionHypothesis => exact inductionHypothesis.same same

/-- A typed abstraction of arrow type has a body of its codomain. -/
theorem Typed.lam_body {context : Context} {span arrowSpan : Span} {paramType domain codomain : Ty}
    {body : Term}
    (typed : Typed context (.lam span paramType body) (.arrow arrowSpan domain codomain)) :
    paramType.Same domain ∧ Typed (context.pushTerm paramType) body (codomain.lift 1) := by
  obtain ⟨_, _, _, bodyTyped, arrow_same⟩ := typed.generation
  obtain ⟨_, _, _, equal, domains, codomains⟩ := Ty.same_arrow_iff.mp arrow_same
  cases equal
  exact ⟨domains, bodyTyped.same (codomains.rename _)⟩

/-- A typed type abstraction of quantified type has a body of the body type. -/
theorem Typed.tyLam_body {context : Context} {span allSpan : Span} {bodyType : Ty} {body : Term}
    (typed : Typed context (.tyLam span body) (.all allSpan bodyType)) :
    Typed context.pushType body bodyType := by
  obtain ⟨_, _, bodyTyped, all_same⟩ := typed.generation
  obtain ⟨_, _, equal, bodies⟩ := Ty.same_all_iff.mp all_same
  cases equal
  exact bodyTyped.same bodies

/-! ## Scopes of typed terms -/

/-- A typed term has no dangling index. -/
theorem Typed.inScope {context : Context} {term : Term} {ty : Ty} (typed : Typed context term ty) :
    term.InScope context := by
  induction typed with
  | var recorded => exact Option.isSome_iff_exists.mpr ⟨_, recorded⟩
  | lam inScope _ bodyIH => exact ⟨inScope, bodyIH⟩
  | app _ _ functionIH argumentIH => exact ⟨functionIH, argumentIH⟩
  | tyLam _ bodyIH => exact bodyIH
  | tyApp _ inScope functionIH => exact ⟨functionIH, inScope⟩
  | same _ _ inductionHypothesis => exact inductionHypothesis

/-- A type was in scope before a renaming that tells which indices denote types. -/
theorem Ty.InScope.ofRename {mapping : Renaming} {source target : Context} {ty : Ty}
    (inScope : (ty.rename mapping).InScope target)
    (reflects : ∀ {index}, target.BindsType (mapping index) → source.BindsType index) :
    ty.InScope source := by
  induction ty generalizing mapping source target with
  | var span index => exact reflects inScope
  | arrow span domain codomain domainIH codomainIH =>
      exact ⟨domainIH inScope.1 reflects, codomainIH inScope.2 reflects⟩
  | all span body bodyIH =>
      refine bodyIH inScope ?_
      intro index bound
      cases index with
      | zero => rfl
      | succ index => exact reflects bound

/-- A type that was moved under a binder and is in scope there was in scope outside. -/
theorem Ty.InScope.ofLift {context : Context} {binding : Binding} {ty : Ty}
    (inScope : (ty.lift 1).InScope (binding :: context)) : ty.InScope context := by
  unfold Ty.lift at inScope
  exact inScope.ofRename fun bound => bound

/-- The type of a term is in scope if those that the context records are. -/
theorem Typed.ty_inScope_ofTypes {context : Context} {term : Term} {ty : Ty}
    (typed : Typed context term ty) (typesClosed : context.TypesScoped) : ty.InScope context := by
  induction typed with
  | var recorded => exact typesClosed.termType? recorded
  | lam inScope _ bodyIH =>
      exact ⟨inScope, (bodyIH (typesClosed.pushTerm inScope)).ofLift⟩
  | app _ _ functionIH _ => exact (functionIH typesClosed).2
  | tyLam _ bodyIH => exact bodyIH typesClosed
  | tyApp _ inScope functionIH => exact Ty.InScope.bodyAt (functionIH typesClosed) inScope
  | same _ same inductionHypothesis => exact same.inScope (inductionHypothesis typesClosed)

/-- The type of a term is in scope in a scoped context. -/
theorem Typed.ty_inScope {context : Context} {term : Term} {ty : Ty}
    (typed : Typed context term ty) (closed : context.Scoped) : ty.InScope context :=
  typed.ty_inScope_ofTypes closed.types

/-! ## Renaming and substitution -/

/-- Typing is stable under a renaming that carries one context into another. -/
theorem Typed.rename {mapping : Renaming} {source target : Context} {term : Term} {ty : Ty}
    (typed : Typed source term ty) (carries : mapping.Carries source target) :
    Typed target (term.rename mapping) (ty.rename mapping) := by
  induction typed generalizing mapping target with
  | var recorded => exact .var (carries.terms recorded)
  | lam inScope _ bodyIH =>
      have bodyTyped := bodyIH (carries.underTerm _)
      rw [Ty.lift_rename_under] at bodyTyped
      exact .lam (inScope.rename carries) bodyTyped
  | app _ _ functionIH argumentIH => exact .app (functionIH carries) (argumentIH carries)
  | tyLam _ bodyIH => exact .tyLam (bodyIH carries.underType)
  | tyApp _ inScope functionIH =>
      rw [Ty.bodyAt_rename]
      exact .tyApp (functionIH carries) (inScope.rename carries)
  | same _ same inductionHypothesis =>
      exact (inductionHypothesis carries).same (same.rename mapping)

/-- Typing is stable under a new binder. -/
theorem Typed.lift {context : Context} {term : Term} {ty : Ty} (typed : Typed context term ty)
    (binding : Binding) : Typed (binding :: context) (term.lift 1) (ty.lift 1) :=
  typed.rename (.up context binding)

/-- A substitution replaces the variables of one context by trees of the right
types in another. -/
structure SubstTyped (types : TySubst) (terms : TermSubst) (source target : Context) : Prop where
  uniform : types.Same types
  inScope : ∀ {index}, source.BindsType index → ∀ span, (types span index).InScope target
  typed : ∀ {index ty}, source.termType? index = some ty →
    ∀ span, Typed target (terms span index) (ty.substAll types)

namespace SubstTyped

variable {types : TySubst} {terms : TermSubst} {source target : Context}

/-- A substitution that respects types respects scope. -/
theorem toInScope (substitutes : SubstTyped types terms source target) :
    SubstInScope types terms source target where
  types := substitutes.inScope
  terms bound span := by
    obtain ⟨ty, recorded⟩ := Option.isSome_iff_exists.mp bound
    exact (substitutes.typed recorded span).inScope

/-- A substitution that respects types does so inside one more type binder. -/
theorem underType (substitutes : SubstTyped types terms source target) :
    SubstTyped types.under terms.under source.pushType target.pushType where
  uniform := substitutes.uniform.under
  inScope := substitutes.toInScope.underType.types
  typed {index ty} recorded span := by
    cases index with
    | zero => cases recorded
    | succ index =>
        simp only [Context.pushType, Context.termType?_cons_succ, Option.map_eq_some_iff]
          at recorded
        obtain ⟨below, recorded, rfl⟩ := recorded
        rw [Ty.lift_substAll_under]
        exact (substitutes.typed recorded span).lift _

/-- A substitution that respects types does so inside one more term binder. -/
theorem underTerm (substitutes : SubstTyped types terms source target) (ty : Ty) :
    SubstTyped types.under terms.under (source.pushTerm ty)
      (target.pushTerm (ty.substAll types)) where
  uniform := substitutes.uniform.under
  inScope := (substitutes.toInScope.underTerm ty (ty.substAll types)).types
  typed {index found} recorded span := by
    cases index with
    | zero =>
        cases recorded
        exact .var (by simp [Context.pushTerm])
    | succ index =>
        simp only [Context.pushTerm, Context.termType?_cons_succ, Option.map_eq_some_iff]
          at recorded
        obtain ⟨below, recorded, rfl⟩ := recorded
        rw [Ty.lift_substAll_under]
        exact (substitutes.typed recorded span).lift _

/-- Filling a term binder with a term of its type respects types. -/
theorem consTerm {context : Context} {ty : Ty} {argument : Term}
    (typed : Typed context argument ty) :
    SubstTyped (.cons .filler .var) (.cons argument .var) (context.pushTerm ty) context where
  uniform := .cons (.refl _)
  inScope := (SubstInScope.consTerm context ty typed.inScope .filler).types
  typed {index found} recorded span := by
    cases index with
    | zero =>
        cases recorded
        rw [Ty.lift_substAll_cons, Ty.substAll_var]
        exact typed
    | succ index =>
        simp only [Context.pushTerm, Context.termType?_cons_succ, Option.map_eq_some_iff]
          at recorded
        obtain ⟨below, recorded, rfl⟩ := recorded
        rw [Ty.lift_substAll_cons, Ty.substAll_var]
        exact .var recorded

/-- Filling a type binder with a type in scope respects types. -/
theorem consType {context : Context} {argument : Ty} (inScope : argument.InScope context) :
    SubstTyped (.cons argument .var) (.cons .filler .var) context.pushType context where
  uniform := .cons (.refl _)
  inScope := (SubstInScope.consType context inScope .filler).types
  typed {index found} recorded span := by
    cases index with
    | zero => cases recorded
    | succ index =>
        simp only [Context.pushType, Context.termType?_cons_succ, Option.map_eq_some_iff]
          at recorded
        obtain ⟨below, recorded, rfl⟩ := recorded
        rw [Ty.lift_substAll_cons, Ty.substAll_var]
        exact .var recorded

end SubstTyped

/-- Substitution preserves typing. -/
theorem Typed.substAll {types : TySubst} {terms : TermSubst} {source target : Context}
    {term : Term} {ty : Ty} (typed : Typed source term ty)
    (substitutes : SubstTyped types terms source target) :
    Typed target (term.substAll types terms) (ty.substAll types) := by
  induction typed generalizing types terms target with
  | var recorded => exact substitutes.typed recorded _
  | lam inScope _ bodyIH =>
      have bodyTyped := bodyIH (substitutes.underTerm _)
      rw [Ty.lift_substAll_under] at bodyTyped
      exact .lam (inScope.substAll substitutes.toInScope) bodyTyped
  | app _ _ functionIH argumentIH =>
      exact .app (functionIH substitutes) (argumentIH substitutes)
  | tyLam _ bodyIH => exact .tyLam (bodyIH substitutes.underType)
  | tyApp _ inScope functionIH =>
      rw [Ty.bodyAt_substAll]
      exact .tyApp (functionIH substitutes) (inScope.substAll substitutes.toInScope)
  | same _ same inductionHypothesis =>
      exact (inductionHypothesis substitutes).same (same.substAll substitutes.uniform)

/-- The body of a function, at an argument of the type of its parameter, keeps its type. -/
theorem Typed.bodyAt {context : Context} {param ty : Ty} {body argument : Term}
    (bodyTyped : Typed (context.pushTerm param) body (ty.lift 1))
    (argumentTyped : Typed context argument param) : Typed context (body.bodyAt argument) ty := by
  simpa [Term.bodyAt] using bodyTyped.substAll (.consTerm argumentTyped)

/-- The body of a polymorphic function, at a type, has the type of the body at it. -/
theorem Typed.bodyAtType {context : Context} {ty argument : Ty} {body : Term}
    (bodyTyped : Typed context.pushType body ty) (inScope : argument.InScope context) :
    Typed context (body.bodyAtType argument) (ty.bodyAt argument) :=
  bodyTyped.substAll (.consType inScope)

/-! ## Deduction decides typing -/

/-- A lookup finds a term entry exactly if it stands at the index. -/
theorem Context.lookupTerm_eq_ok_iff {context : Context} {span : Span} {index : Nat}
    {entry : TermEntry Unit Ty Term} :
    context.lookupTerm span index = .ok entry ↔ context[index]? = some (.term entry) := by
  simp only [Context.lookupTerm, mapError_eq_ok_iff, PolyLambda.Context.termAt]
  split <;> simp_all

/-- The type of a variable is the one recorded with it, moved past the binders above. -/
theorem Context.termType?_eq_some_iff {context : Context} {index : Nat} {ty : Ty} :
    context.termType? index = some ty ↔
      ∃ entry, context[index]? = some (.term entry) ∧ entry.ty.lift (index + 1) = ty := by
  simp only [Context.termType?]
  split <;> simp_all

/-- Deduction does not look at definitions, so nothing is asked of them. -/
theorem Term.deduce_typed_ofTypes {range : IndexRange} {context : Context} {term : Term} {ty : Ty}
    (typesClosed : context.TypesScoped) (deduced : term.deduce range context = .ok ty) :
    Typed context term ty := by
  induction term generalizing context ty with
  | var span index =>
      simp only [Term.deduce, bind_eq_ok_iff, mapError_eq_ok_iff] at deduced
      obtain ⟨entry, found, distance, measured, shifted⟩ := deduced
      cases (range.distance_computes index).eq_of_ok measured
      cases (Ty.shift_computes_lift range _ entry.ty).eq_of_ok shifted
      have recorded := Context.lookupTerm_eq_ok_iff.mp found
      exact .var (Context.termType?_eq_some_iff.mpr ⟨entry, recorded, rfl⟩)
  | lam span paramType body bodyIH =>
      simp only [Term.deduce, bind_eq_ok_iff, mapError_eq_ok_iff] at deduced
      obtain ⟨_, checked, bodyType, bodyDeduced, codomain, lowered, result⟩ := deduced
      cases result
      have inScope : paramType.InScope context :=
        (Ty.checkScope_eq_ok_iff context 0 paramType).mp checked
      have bodyTyped := bodyIH (typesClosed.pushTerm inScope) bodyDeduced
      have unchanged := (bodyTyped.ty_inScope_ofTypes (typesClosed.pushTerm inScope)).lift_down
      rw [(Ty.shift_computes_down range bodyType).eq_of_ok lowered]
      refine .lam inScope ?_
      rw [unchanged]
      exact bodyTyped
  | app span function argument functionIH argumentIH =>
      simp only [Term.deduce, bind_eq_ok_iff] at deduced
      obtain ⟨functionType, functionDeduced, argumentType, argumentDeduced, result⟩ := deduced
      cases functionType with
      | arrow arrowSpan domain codomain =>
          simp only at result
          split at result
          case isTrue same =>
            cases result
            exact .app (functionIH typesClosed functionDeduced)
              ((argumentIH typesClosed argumentDeduced).same same.symm)
          case isFalse => cases result
      | var => cases result
      | all => cases result
  | tyLam span body bodyIH =>
      simp only [Term.deduce, bind_eq_ok_iff] at deduced
      obtain ⟨bodyType, bodyDeduced, result⟩ := deduced
      cases result
      have pushed : context.pushType.TypesScoped := typesClosed
      exact .tyLam (bodyIH pushed bodyDeduced)
  | tyApp span function argument functionIH =>
      simp only [Term.deduce, bind_eq_ok_iff, mapError_eq_ok_iff] at deduced
      obtain ⟨functionType, functionDeduced, _, checked, result⟩ := deduced
      have inScope : argument.InScope context :=
        (Ty.checkScope_eq_ok_iff context 0 argument).mp checked
      cases functionType with
      | all allSpan bodyType =>
          simp only [mapError_eq_ok_iff] at result
          rw [(Ty.instantiate_computes range bodyType argument).eq_of_ok result]
          exact .tyApp (functionIH typesClosed functionDeduced) inScope
      | var => cases result
      | arrow => cases result

/-- A deduced type is a type of the term in a scoped context. -/
theorem Term.deduce_typed {range : IndexRange} {context : Context} {term : Term} {ty : Ty}
    (closed : context.Scoped) (deduced : term.deduce range context = .ok ty) :
    Typed context term ty :=
  Term.deduce_typed_ofTypes closed.types deduced

/-- Deduction gives the term this type, up to spans. -/
def Term.Deduces (range : IndexRange) (context : Context) (term : Term) (ty : Ty) : Prop :=
  ∃ found, term.deduce range context = .ok found ∧ found.Same ty

instance (range : IndexRange) (context : Context) (term : Term) (ty : Ty) :
    Decidable (term.Deduces range context ty) :=
  match deduced : term.deduce range context with
  | .ok found => decidable_of_iff (found.Same ty) (by simp [Term.Deduces, deduced])
  | .error _ => .isFalse (by simp [Term.Deduces, deduced])

/-- Every typed term deduces a type, the same as its own. -/
theorem Typed.deduce {context : Context} {term : Term} {ty : Ty} (typed : Typed context term ty) :
    term.Deduces .unlimited context ty := by
  induction typed with
  | var recorded =>
      obtain ⟨entry, found, rfl⟩ := Context.termType?_eq_some_iff.mp recorded
      refine ⟨_, ?_, .refl _⟩
      simp only [Term.deduce, bind_eq_ok_iff, mapError_eq_ok_iff]
      exact ⟨entry, Context.lookupTerm_eq_ok_iff.mpr found, _,
        (IndexRange.distance_computes .unlimited _).ofUnlimited,
        (Ty.shift_computes_lift .unlimited _ entry.ty).ofUnlimited⟩
  | @lam context span arrowSpan paramType body codomain inScope bodyTyped bodyIH =>
      obtain ⟨bodyType, bodyDeduced, bodySame⟩ := bodyIH
      refine ⟨.arrow span paramType (bodyType.rename .down), ?_, .arrow _ _ (.refl _) ?_⟩
      · simp only [Term.deduce, bind_eq_ok_iff, mapError_eq_ok_iff]
        exact ⟨(), (Ty.checkScope_eq_ok_iff context 0 paramType).mpr inScope, bodyType, bodyDeduced,
          _, (Ty.shift_computes_down .unlimited bodyType).ofUnlimited, rfl⟩
      · simpa using bodySame.rename .down
  | app functionTyped argumentTyped functionIH argumentIH =>
      obtain ⟨functionType, functionDeduced, functionSame⟩ := functionIH
      obtain ⟨argumentType, argumentDeduced, argumentSame⟩ := argumentIH
      obtain ⟨_, domain, codomain, rfl, domains, codomains⟩ :=
        Ty.same_arrow_iff.mp functionSame.symm
      refine ⟨codomain, ?_, codomains.symm⟩
      simp only [Term.deduce, functionDeduced, argumentDeduced]
      exact if_pos (domains.symm.trans argumentSame.symm)
  | @tyLam context span allSpan body bodyType bodyTyped bodyIH =>
      obtain ⟨found, bodyDeduced, bodySame⟩ := bodyIH
      refine ⟨.all span found, ?_, .all _ _ bodySame⟩
      simp only [Term.deduce, bodyDeduced]
      rfl
  | @tyApp context span allSpan function argument bodyType functionTyped inScope functionIH =>
      obtain ⟨functionType, functionDeduced, functionSame⟩ := functionIH
      obtain ⟨_, found, rfl, bodies⟩ := Ty.same_all_iff.mp functionSame.symm
      refine ⟨found.bodyAt argument, ?_, Ty.Same.bodyAt bodies.symm (.refl argument)⟩
      have checked := (Ty.checkScope_eq_ok_iff context 0 argument).mpr inScope
      simp only [Term.deduce, functionDeduced, checked]
      exact ((Ty.instantiate_computes .unlimited found argument).mapError _).ofUnlimited
  | same _ same inductionHypothesis =>
      obtain ⟨found, deduced, foundSame⟩ := inductionHypothesis
      exact ⟨found, deduced, foundSame.trans same⟩

/-- A term has one type up to spans. -/
theorem Typed.unique {context : Context} {term : Term} {first second : Ty}
    (firstTyped : Typed context term first) (secondTyped : Typed context term second) :
    first.Same second := by
  obtain ⟨found, deduced, foundFirst⟩ := firstTyped.deduce
  obtain ⟨again, deducedAgain, foundSecond⟩ := secondTyped.deduce
  cases deduced.symm.trans deducedAgain
  exact foundFirst.symm.trans foundSecond

/-! ## Well-formed contexts -/

namespace Context

/-- Every recorded type is in the scope of the context below it, and every
definition deduces there the type that is recorded for it. -/
def WellFormed (range : IndexRange) : Context → Prop
  | [] => True
  | .type _ :: rest => WellFormed range rest
  | .term entry :: rest =>
    entry.ty.checkScope rest 0 = .ok () ∧
      (∀ definition ∈ entry.definition, definition.Deduces range rest entry.ty) ∧
      WellFormed range rest

instance WellFormed.decidable (range : IndexRange) :
    (context : Context) → Decidable (context.WellFormed range)
  | [] => .isTrue trivial
  | .type _ :: rest => WellFormed.decidable range rest
  | .term _ :: rest =>
    have := WellFormed.decidable range rest
    inferInstanceAs (Decidable (_ ∧ _ ∧ _))

/-- Every recorded type is in the scope of the context below it, and every
definition has there the type that is recorded for it. -/
def WellTyped : Context → Prop
  | [] => True
  | .type _ :: rest => WellTyped rest
  | .term entry :: rest =>
    entry.ty.InScope rest ∧ (∀ definition ∈ entry.definition, Typed rest definition entry.ty) ∧
      WellTyped rest

/-- Below the newest binder a well-typed context is well-typed. -/
theorem WellTyped.tail {binding : Binding} {rest : Context}
    (wellTyped : WellTyped (binding :: rest)) : rest.WellTyped := by
  cases binding with
  | type name => exact wellTyped
  | term entry => exact wellTyped.2.2

/-- A well-typed context has no dangling index. -/
theorem WellTyped.closed {context : Context} (wellTyped : context.WellTyped) : context.Scoped := by
  induction context with
  | nil => trivial
  | cons binding rest restIH =>
      cases binding with
      | type name => exact restIH wellTyped
      | term entry =>
          exact ⟨wellTyped.1,
            fun definition recorded => (wellTyped.2.1 definition recorded).inScope,
            restIH wellTyped.2.2⟩

/-- A context that passes all its checks is well-typed. -/
theorem WellFormed.wellTyped {range : IndexRange} {context : Context}
    (wellFormed : context.WellFormed range) : context.WellTyped := by
  induction context with
  | nil => trivial
  | cons binding rest restIH =>
      cases binding with
      | type name => exact restIH wellFormed
      | term entry =>
          obtain ⟨checked, deduced, below⟩ := wellFormed
          have restTyped := restIH below
          refine ⟨(Ty.checkScope_eq_ok_iff rest 0 entry.ty).mp checked, ?_, restTyped⟩
          intro definition recorded
          obtain ⟨ty, deduced, same⟩ := deduced definition recorded
          exact (Term.deduce_typed restTyped.closed deduced).same same

/-- A parameter whose type is in scope keeps a context well-typed. -/
theorem WellTyped.pushTerm {context : Context} (wellTyped : context.WellTyped) {ty : Ty}
    (inScope : ty.InScope context) : (context.pushTerm ty).WellTyped :=
  ⟨inScope, nofun, wellTyped⟩

/-- A definition has the type of its binder, read inside the whole context. -/
theorem WellTyped.unfolding? {context : Context} (wellTyped : context.WellTyped) {index : Nat}
    {definition : Term} {ty : Ty} (unfolds : context.unfolding? index = some definition)
    (recorded : context.termType? index = some ty) : Typed context definition ty := by
  induction context generalizing index definition ty with
  | nil => cases unfolds
  | cons binding rest restIH =>
      cases index with
      | zero =>
          cases binding with
          | type name => cases unfolds
          | term entry =>
              cases recorded
              simp only [Context.unfolding?_term_zero, Option.map_eq_some_iff] at unfolds
              obtain ⟨below, stored, rfl⟩ := unfolds
              exact (wellTyped.2.1 below stored).lift _
      | succ index =>
          simp only [Context.termType?_cons_succ, Context.unfolding?_cons_succ,
            Option.map_eq_some_iff] at recorded unfolds
          obtain ⟨_, recorded, rfl⟩ := recorded
          obtain ⟨_, unfolds, rfl⟩ := unfolds
          exact (restIH wellTyped.tail unfolds recorded).lift binding

end Context

end PolyLambda.Indexed
