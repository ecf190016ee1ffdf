import PolyLambda.Proofs.SystemF
import PolyLambda.Proofs.TreeHeights

/-!
# One index space or two

The calculus counts binders of both kinds together; System F counts them apart. Erasure
takes each index to the number of binders of its own kind inside the binder it denotes.
It commutes with everything that moves indices, and it tells types in scope apart, so
deduction and synthesis agree: a term has a type exactly if its erasure has the erased
type, and one of them fails exactly if the other does.
-/

namespace PolyLambda.Indexed

/-! ## Erasure -/

/-- The number of binders of a kind that stand inside the binder at an index. -/
def Context.rank (kind : Kind) (context : Context) (index : Nat) : Nat :=
  (context.take index).countP fun binding => binding.kind = kind

/-- The type in the type indices of a context. -/
def Ty.erase (context : Context) : Ty → SystemF.Ty
  | .var _ index => .var (context.rank .type index)
  | .arrow _ domain codomain => .arrow (domain.erase context) (codomain.erase context)
  | .all _ body => .all (body.erase context.pushType)

/-- The term in the type indices and the term indices of a context. -/
def Term.erase (context : Context) : Term → SystemF.Term
  | .var _ index => .var (context.rank .term index)
  | .lam _ paramType body =>
    .lam (paramType.erase context) (body.erase (context.pushTerm paramType))
  | .app _ function argument => .app (function.erase context) (argument.erase context)
  | .tyLam _ body => .tyLam (body.erase context.pushType)
  | .tyApp _ function argument => .tyApp (function.erase context) (argument.erase context)

/-- The context with its type binders counted and the types of its terms erased, each
below its own binder. -/
def Context.erase : Context → SystemF.Context
  | [] => ⟨0, []⟩
  | .type _ :: rest => (erase rest).pushType
  | .term entry :: rest => (erase rest).pushTerm (entry.ty.erase rest)

/-! ## Ranks -/

namespace Context

variable {kind : Kind} {context : Context} {binding : Binding} {index other : Nat}

@[simp] theorem rank_zero : context.rank kind 0 = 0 := rfl

@[simp] theorem rank_type_type (name : Unit) :
    rank .type (.type name :: context) (index + 1) = context.rank .type index + 1 := by
  simp [rank, Binding.kind]

@[simp] theorem rank_type_term (entry : TermEntry Unit Ty Term) :
    rank .type (.term entry :: context) (index + 1) = context.rank .type index := by
  simp [rank, Binding.kind]

@[simp] theorem rank_term_type (name : Unit) :
    rank .term (.type name :: context) (index + 1) = context.rank .term index := by
  simp [rank, Binding.kind]

@[simp] theorem rank_term_term (entry : TermEntry Unit Ty Term) :
    rank .term (.term entry :: context) (index + 1) = context.rank .term index + 1 := by
  simp [rank, Binding.kind]

/-- Binders of one kind are told apart by their ranks. -/
theorem BindsType.rank_injective (bound : context.BindsType index)
    (otherBound : context.BindsType other)
    (ranks : context.rank .type index = context.rank .type other) : index = other := by
  induction context generalizing index other with
  | nil => cases bound
  | cons binding rest restIH =>
      cases binding with
      | type name =>
          cases index with
          | zero =>
              cases other with
              | zero => rfl
              | succ other =>
                  rw [rank_type_type, rank_zero] at ranks
                  omega
          | succ index =>
              cases other with
              | zero =>
                  rw [rank_type_type, rank_zero] at ranks
                  omega
              | succ other =>
                  rw [rank_type_type, rank_type_type] at ranks
                  rw [restIH bound otherBound (Nat.succ.inj ranks)]
      | term entry =>
          -- The newest binder is of the other kind, so both indices point below it.
          cases index with
          | zero => cases bound
          | succ index =>
              cases other with
              | zero => cases otherBound
              | succ other =>
                  rw [rank_type_term, rank_type_term] at ranks
                  rw [restIH bound otherBound ranks]

/-- The rank of a type binder is below the number of type binders. -/
theorem BindsType.rank_lt (bound : context.BindsType index) :
    context.rank .type index < context.erase.types := by
  induction context generalizing index with
  | nil => cases bound
  | cons binding rest restIH =>
      cases index with
      | zero =>
          cases binding with
          | type name => exact Nat.succ_pos _
          | term entry => cases bound
      | succ index =>
          have below := restIH bound
          cases binding with
          | type name =>
              rw [rank_type_type]
              exact Nat.succ_lt_succ below
          | term entry =>
              rw [rank_type_term]
              exact below

end Context

/-! ## Erasure commutes with moving indices -/

/-- Types that are the same have the same erasure. -/
theorem Ty.Same.erase {left right : Ty} (same : left.Same right) (context : Context) :
    left.erase context = right.erase context := by
  induction left generalizing right context with
  | var span index =>
      cases right with
      | var =>
          cases same
          rfl
      | arrow | all => cases same
  | arrow span domain codomain domainIH codomainIH =>
      obtain ⟨_, _, _, rfl, domains, codomains⟩ := Ty.same_arrow_iff.mp same
      rw [Ty.erase, Ty.erase, domainIH domains, codomainIH codomains]
  | all span body bodyIH =>
      obtain ⟨_, _, rfl, bodies⟩ := Ty.same_all_iff.mp same
      rw [Ty.erase, Ty.erase, bodyIH bodies]

/-- A renaming that moves ranks by another one renames the erasure by it. -/
theorem Ty.erase_rename {source target : Context} {mapping ranks : Renaming}
    (moves : ∀ index, target.rank .type (mapping index) = ranks (source.rank .type index))
    (ty : Ty) :
    (ty.rename mapping).erase target = (ty.erase source).rename ranks := by
  induction ty generalizing source target mapping ranks with
  | var span index => exact congrArg SystemF.Ty.var (moves index)
  | arrow span domain codomain domainIH codomainIH =>
      simp only [Ty.rename, Ty.erase, SystemF.Ty.rename, domainIH moves, codomainIH moves]
  | all span body bodyIH =>
      have inside : ∀ index, target.pushType.rank .type (mapping.under index) =
          ranks.under (source.pushType.rank .type index) := by
        intro index
        cases index with
        | zero => rfl
        | succ index =>
            simp only [Context.pushType, Renaming.under_succ, Context.rank_type_type, moves index]
      simp only [Ty.rename, Ty.erase, SystemF.Ty.rename, bodyIH inside]

/-- A type binder moves all type indices. -/
theorem Ty.erase_lift_type (ty : Ty) (name : Unit) (context : Context) :
    (ty.lift 1).erase (.type name :: context) = (ty.erase context).lift :=
  Ty.erase_rename (fun _ => Context.rank_type_type name) ty

/-- A term binder moves no type index. -/
theorem Ty.erase_lift_term (ty : Ty) (entry : TermEntry Unit Ty Term) (context : Context) :
    (ty.lift 1).erase (.term entry :: context) = ty.erase context := by
  have moves : ∀ index, Context.rank .type (.term entry :: context) (Renaming.up 1 index) =
      context.rank .type index := fun _ => Context.rank_type_term entry
  exact (Ty.erase_rename moves ty).trans (SystemF.Ty.rename_self _)

/-- A substitution that replaces ranks by images substitutes the images in the erasure. -/
theorem Ty.erase_substAll {source target : Context} {types : TySubst} {image : Nat → SystemF.Ty}
    (replaces : ∀ span index,
      (types span index).erase target = image (source.rank .type index)) (ty : Ty) :
    (ty.substAll types).erase target = (ty.erase source).subst image := by
  induction ty generalizing source target types image with
  | var span index => exact replaces span index
  | arrow span domain codomain domainIH codomainIH =>
      simp only [Ty.substAll, Ty.erase, SystemF.Ty.subst, domainIH replaces, codomainIH replaces]
  | all span body bodyIH =>
      have inside : ∀ span index, (types.under span index).erase target.pushType =
          SystemF.Ty.substUnder image (source.pushType.rank .type index) := by
        intro span index
        cases index with
        | zero => rfl
        | succ index =>
            have lifted := Ty.erase_lift_type (types span index) () target
            rw [replaces span index] at lifted
            simp only [Context.pushType, Context.rank_type_type]
            exact lifted
      simp only [Ty.substAll, Ty.erase, SystemF.Ty.subst, bodyIH inside]

/-- Taking the body of a quantified type at a type is ordinary instantiation. -/
theorem Ty.erase_bodyAt (body argument : Ty) (context : Context) :
    (body.bodyAt argument).erase context =
      (body.erase context.pushType).instantiate (argument.erase context) := by
  apply Ty.erase_substAll
  intro span index
  cases index with
  | zero => rfl
  | succ index =>
      simp only [Context.pushType, Context.rank_type_type]
      rfl

/-! ## Erasure of what is in scope -/

/-- Types in scope are told apart by their erasures, up to spans. -/
theorem Ty.InScope.same_of_erase {context : Context} {left right : Ty}
    (leftInScope : left.InScope context) (rightInScope : right.InScope context)
    (erased : left.erase context = right.erase context) : left.Same right := by
  induction left generalizing right context with
  | var span index =>
      cases right with
      | var otherSpan other =>
          have ranks := SystemF.Ty.var.inj erased
          rw [Context.BindsType.rank_injective leftInScope rightInScope ranks]
          rfl
      | arrow | all => cases erased
  | arrow span domain codomain domainIH codomainIH =>
      cases right with
      | arrow otherSpan otherDomain otherCodomain =>
          obtain ⟨domains, codomains⟩ := SystemF.Ty.arrow.inj erased
          exact .arrow _ _ (domainIH leftInScope.1 rightInScope.1 domains)
            (codomainIH leftInScope.2 rightInScope.2 codomains)
      | var | all => cases erased
  | all span body bodyIH =>
      cases right with
      | all otherSpan otherBody =>
          have bodies := SystemF.Ty.all.inj erased
          exact .all _ _ (bodyIH leftInScope rightInScope bodies)
      | var | arrow => cases erased

/-- The erasure of a type in scope is in scope. -/
theorem Ty.InScope.erase {context : Context} {ty : Ty} (inScope : ty.InScope context) :
    (ty.erase context).InScope context.erase.types := by
  induction ty generalizing context with
  | var span index => exact Context.BindsType.rank_lt inScope
  | arrow span domain codomain domainIH codomainIH =>
      exact ⟨domainIH inScope.1, codomainIH inScope.2⟩
  | all span body bodyIH =>
      have bodyInScope : body.InScope context.pushType := inScope
      exact bodyIH bodyInScope

/-- The erased context records the erased type of every term, at the erased index. -/
theorem Context.erase_termType? {context : Context} {index : Nat} {ty : Ty}
    (recorded : context.termType? index = some ty) :
    context.erase.terms[context.rank .term index]? = some (ty.erase context) := by
  induction context generalizing index ty with
  | nil => cases recorded
  | cons binding rest restIH =>
      cases index with
      | zero =>
          cases binding with
          | type name => cases recorded
          | term entry =>
              cases recorded
              rw [Ty.erase_lift_term]
              rfl
      | succ index =>
          rw [Context.termType?_cons_succ, Option.map_eq_some_iff] at recorded
          obtain ⟨below, recordedBelow, rfl⟩ := recorded
          have found := restIH recordedBelow
          cases binding with
          | type name =>
              rw [Context.rank_term_type, Ty.erase_lift_type]
              simp only [Context.erase, SystemF.Context.pushType, List.getElem?_map, found,
                Option.map_some]
          | term entry =>
              rw [Context.rank_term_term, Ty.erase_lift_term]
              exact found

/-! ## Typing and synthesis -/

/-- The erasure of a typed term has the erased type. -/
theorem Typed.synthesize {context : Context} {term : Term} {ty : Ty}
    (typed : Typed context term ty) :
    (term.erase context).synthesize context.erase = some (ty.erase context) := by
  induction typed with
  | var recorded => exact Context.erase_termType? recorded
  | @lam context span arrowSpan paramType body codomain inScope _ bodyIH =>
      rw [Context.pushTerm, Ty.erase_lift_term] at bodyIH
      exact SystemF.synthesize_lam_eq_some_iff.mpr ⟨inScope.erase, _, bodyIH, rfl⟩
  | app _ _ functionIH argumentIH =>
      exact SystemF.synthesize_app_eq_some_iff.mpr ⟨_, functionIH, argumentIH⟩
  | tyLam _ bodyIH => exact Option.map_eq_some_iff.mpr ⟨_, bodyIH, rfl⟩
  | tyApp _ inScope functionIH =>
      rw [Ty.erase_bodyAt]
      exact SystemF.synthesize_tyApp_eq_some_iff.mpr ⟨inScope.erase, _, functionIH, rfl⟩
  | same _ same inductionHypothesis => rwa [← same.erase]

/-- A term in scope whose erasure has a type is typed, and its type erases to that one. -/
theorem Term.InScope.typed_of_synthesize {context : Context} {term : Term}
    (inScope : term.InScope context) (closed : context.Scoped) {erased : SystemF.Ty}
    (synthesized : (term.erase context).synthesize context.erase = some erased) :
    ∃ ty, Typed context term ty ∧ ty.erase context = erased := by
  induction term generalizing context erased with
  | var span index =>
      obtain ⟨ty, recorded⟩ := Option.isSome_iff_exists.mp inScope
      have found := Context.erase_termType? recorded
      exact ⟨ty, .var recorded, Option.some.inj (found.symm.trans synthesized)⟩
  | lam span paramType body bodyIH =>
      obtain ⟨_, codomain, bodySynthesized, rfl⟩ :=
        SystemF.synthesize_lam_eq_some_iff.mp synthesized
      have pushed := closed.pushTerm inScope.1
      obtain ⟨bodyType, bodyTyped, rfl⟩ := bodyIH inScope.2 pushed bodySynthesized
      -- The type of the body does not mention the parameter.
      have lowered := (bodyTyped.ty_inScope pushed).lift_down
      rw [← lowered] at bodyTyped ⊢
      refine ⟨.arrow span paramType (bodyType.rename .down), .lam inScope.1 bodyTyped, ?_⟩
      rw [Context.pushTerm, Ty.erase_lift_term]
      rfl
  | app span function argument functionIH argumentIH =>
      obtain ⟨domain, functionSynthesized, argumentSynthesized⟩ :=
        SystemF.synthesize_app_eq_some_iff.mp synthesized
      obtain ⟨functionType, functionTyped, functionErased⟩ :=
        functionIH inScope.1 closed functionSynthesized
      obtain ⟨argumentType, argumentTyped, argumentErased⟩ :=
        argumentIH inScope.2 closed argumentSynthesized
      cases functionType with
      | var | all => cases functionErased
      | arrow arrowSpan foundDomain foundCodomain =>
          obtain ⟨domains, codomains⟩ := SystemF.Ty.arrow.inj functionErased
          have arrowInScope := functionTyped.ty_inScope closed
          have same := (argumentTyped.ty_inScope closed).same_of_erase arrowInScope.1
            (argumentErased.trans domains.symm)
          exact ⟨foundCodomain, .app functionTyped (argumentTyped.same same), codomains⟩
  | tyLam span body bodyIH =>
      obtain ⟨bodyErased, bodySynthesized, rfl⟩ := Option.map_eq_some_iff.mp synthesized
      have pushed : context.pushType.Scoped := closed
      have bodyInScope : body.InScope context.pushType := inScope
      obtain ⟨bodyType, bodyTyped, rfl⟩ := bodyIH bodyInScope pushed bodySynthesized
      exact ⟨.all span bodyType, .tyLam bodyTyped, rfl⟩
  | tyApp span function argument functionIH =>
      obtain ⟨_, bodyErased, functionSynthesized, rfl⟩ :=
        SystemF.synthesize_tyApp_eq_some_iff.mp synthesized
      obtain ⟨functionType, functionTyped, functionErased⟩ :=
        functionIH inScope.1 closed functionSynthesized
      cases functionType with
      | var | arrow => cases functionErased
      | all allSpan body =>
          cases SystemF.Ty.all.inj functionErased
          exact ⟨_, .tyApp functionTyped inScope.2, Ty.erase_bodyAt body argument context⟩

/-- Deduction agrees with synthesis in System F: it gives a term in scope a type exactly
if the erased term has the erased type, and it fails exactly if the erased term has none.
A range of indices changes nothing as long as it has room for the trees on the way. -/
theorem deduce_agrees_with_systemF {context : Context} {term : Term} (closed : context.Scoped)
    (inScope : term.InScope context) :
    (∀ ty : Ty, ty.InScope context → (term.Deduces .unlimited context ty ↔
      (term.erase context).synthesize context.erase = some (ty.erase context))) ∧
      ((∃ error, term.deduce .unlimited context = .error error) ↔
        (term.erase context).synthesize context.erase = none) ∧
      ∀ range, term.DeducesWithin range context →
        term.deduce range context = term.deduce .unlimited context := by
  refine ⟨?_, ?_, fun range within => Term.deduce_eq_unlimited closed inScope within⟩
  · intro ty tyInScope
    constructor
    · rintro ⟨found, deduced, same⟩
      exact ((Term.deduce_typed closed deduced).same same).synthesize
    · intro synthesized
      obtain ⟨found, typed, erased⟩ := inScope.typed_of_synthesize closed synthesized
      have same := (typed.ty_inScope closed).same_of_erase tyInScope erased
      exact (typed.same same).deduce
  · constructor
    · rintro ⟨error, failed⟩
      cases synthesized : (term.erase context).synthesize context.erase with
      | none => rfl
      | some erased =>
          obtain ⟨_, typed, _⟩ := inScope.typed_of_synthesize closed synthesized
          obtain ⟨_, deduced, _⟩ := typed.deduce
          cases failed.symm.trans deduced
    · intro untyped
      cases deduced : term.deduce .unlimited context with
      | error error => exact ⟨error, rfl⟩
      | ok ty =>
          have synthesized := (Term.deduce_typed closed deduced).synthesize
          cases untyped.symm.trans synthesized

/-- The identity at an arrow type, applied to itself, under binders of both kinds. -/
def identityUnder : Term :=
  .tyLam ⟨0, 30⟩ (.lam ⟨8, 30⟩ (.var ⟨15, 16⟩ 0)
    (.app ⟨18, 30⟩
      (.tyApp ⟨18, 24⟩ (.var ⟨18, 20⟩ 2) (.arrow ⟨21, 23⟩ (.var ⟨21, 22⟩ 1) (.var ⟨22, 23⟩ 4)))
      (.lam ⟨25, 30⟩ (.var ⟨26, 27⟩ 1) (.var ⟨28, 29⟩ 4))))

/-- The type deduced for the identity under binders is the one synthesized for its erasure. -/
theorem deduce_agrees_with_systemF_identity :
    identityContext.Scoped ∧ identityUnder.InScope identityContext ∧
      identityUnder.DeducesWithin .standard identityContext ∧
      (identityUnder.erase identityContext).synthesize identityContext.erase =
        some (.all (.arrow (.var 0) (.arrow (.var 0) (.var 1)))) ∧
      ∃ found, identityUnder.deduce .standard identityContext = .ok found ∧
        found.Same (.all ⟨0, 30⟩ (.arrow ⟨8, 30⟩ (.var ⟨15, 16⟩ 0)
          (.arrow ⟨21, 23⟩ (.var ⟨21, 22⟩ 0) (.var ⟨22, 23⟩ 3)))) := by
  have closed : identityContext.Scoped := by
    have wellFormed : identityContext.WellFormed .unlimited := by decide
    exact wellFormed.wellTyped.closed
  have deduced : identityUnder.Deduces .unlimited identityContext
      (.all ⟨0, 30⟩ (.arrow ⟨8, 30⟩ (.var ⟨15, 16⟩ 0)
        (.arrow ⟨21, 23⟩ (.var ⟨21, 22⟩ 0) (.var ⟨22, 23⟩ 3)))) := by decide
  obtain ⟨found, unlimited, same⟩ := deduced
  have typed := Term.deduce_typed closed unlimited
  have within : identityUnder.DeducesWithin .standard identityContext := by
    unfold Term.DeducesWithin
    decide +kernel
  obtain ⟨agrees, _, limited⟩ := deduce_agrees_with_systemF closed typed.inScope
  refine ⟨closed, typed.inScope, within, ?_, found, (limited .standard within).trans unlimited,
    same⟩
  exact (agrees _ ((typed.same same).ty_inScope closed)).mp ⟨found, unlimited, same⟩

end PolyLambda.Indexed
