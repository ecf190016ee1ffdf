import PolyLambda.Proofs.SessionSafety

/-!
# What deduction and normalisation ask of a context

Contracting an application keeps its type in every context whose recorded types are in
scope, whatever its definitions look like: `contraction_keeps_type`. Where the
definitions are in scope too, neither deduction nor normalisation ever leaves the scope,
also if the term has no type: `deduction_and_normalization_stay_in_scope`.
-/

namespace PolyLambda.Indexed

/-! ## Contraction -/

/-- The body of an abstraction at an argument of the type of the parameter has the type
of the body, outside the parameter. -/
theorem Term.deduces_instantiate {context : Context} {param ty : Ty} {body argument : Term}
    (typesClosed : context.TypesScoped) (inScope : param.InScope context)
    (bodyDeduced : body.deduce .unlimited (context.pushTerm param) = .ok ty)
    (argumentDeduced : argument.Deduces .unlimited context param) :
    ∃ contracted lowered,
      body.instantiate .unlimited argument = .ok contracted ∧
      ty.shift .unlimited 1 (-1) = .ok lowered ∧
      contracted.Deduces .unlimited context lowered := by
  have pushed := typesClosed.pushTerm inScope
  have bodyTyped := Term.deduce_typed_ofTypes pushed bodyDeduced
  obtain ⟨found, deduced, same⟩ := argumentDeduced
  have argumentTyped := (Term.deduce_typed_ofTypes typesClosed deduced).same same
  -- The type of the body does not mention the parameter, so it is a type from outside.
  have outside := (bodyTyped.ty_inScope_ofTypes pushed).lift_down
  have contractedTyped : Typed context (body.bodyAt argument) (ty.rename .down) := by
    apply Typed.bodyAt _ argumentTyped
    rw [outside]
    exact bodyTyped
  exact ⟨_, _, (bodyTyped.inScope.instantiate_computes .unlimited argument).ofUnlimited,
    (Ty.shift_computes_down .unlimited ty).ofUnlimited, contractedTyped.deduce⟩

/-- The body of a type abstraction at a type in scope has the type of the body, at that
type. -/
theorem Term.deduces_instantiateType {context : Context} {argument ty : Ty} {body : Term}
    (typesClosed : context.TypesScoped) (inScope : argument.InScope context)
    (bodyDeduced : body.deduce .unlimited context.pushType = .ok ty) :
    ∃ contracted instantiated,
      body.instantiateType .unlimited argument = .ok contracted ∧
      ty.instantiate .unlimited argument = .ok instantiated ∧
      contracted.Deduces .unlimited context instantiated := by
  have pushed : context.pushType.TypesScoped := typesClosed
  have bodyTyped := Term.deduce_typed_ofTypes pushed bodyDeduced
  have contractedTyped := bodyTyped.bodyAtType inScope
  exact ⟨_, _, (bodyTyped.inScope.instantiateType_computes .unlimited argument).ofUnlimited,
    (Ty.instantiate_computes .unlimited ty argument).ofUnlimited, contractedTyped.deduce⟩

/-- Contraction keeps types, of abstractions and of type abstractions, in every context
whose recorded types are in scope. Types are compared up to spans. -/
theorem contraction_keeps_type {context : Context} (typesClosed : context.TypesScoped) :
    (∀ (body argument : Term) (param ty : Ty), param.InScope context →
      body.deduce .unlimited (context.pushTerm param) = .ok ty →
      argument.Deduces .unlimited context param →
      ∃ contracted lowered,
        body.instantiate .unlimited argument = .ok contracted ∧
        ty.shift .unlimited 1 (-1) = .ok lowered ∧
        contracted.Deduces .unlimited context lowered) ∧
    (∀ (body : Term) (argument ty : Ty), argument.checkScope context 0 = .ok () →
      body.deduce .unlimited context.pushType = .ok ty →
      ∃ contracted instantiated,
        body.instantiateType .unlimited argument = .ok contracted ∧
        ty.instantiate .unlimited argument = .ok instantiated ∧
        contracted.Deduces .unlimited context instantiated) := by
  constructor
  · intro body argument param ty inScope bodyDeduced argumentDeduced
    exact Term.deduces_instantiate typesClosed inScope bodyDeduced argumentDeduced
  · intro body argument ty checked bodyDeduced
    have inScope := (Ty.checkScope_eq_ok_iff context 0 argument).mp checked
    exact Term.deduces_instantiateType typesClosed inScope bodyDeduced

/-- A type and an element of it, whose definition refers to a binder that is not there. -/
def danglingContext : Context :=
  [.term ⟨(), .var ⟨7, 8⟩ 0, some (.var ⟨11, 12⟩ 5)⟩, .type ()]

/-- A function of the parameter that ignores its argument, with the parameter two binders
up from its occurrence. -/
def constantBody : Term :=
  .lam ⟨10, 20⟩ (.all ⟨14, 18⟩ (.var ⟨16, 17⟩ 0)) (.var ⟨19, 20⟩ 1)

/-- A function that is to be read below a type parameter, from that parameter to the
type of the context. -/
def polymorphicBody : Term :=
  .lam ⟨10, 20⟩ (.var ⟨14, 15⟩ 0) (.var ⟨19, 20⟩ 2)

/-- The definition is never looked at: both contractions have their types, though there
is nothing that it could stand for. -/
theorem contraction_keeps_type_dangling :
    danglingContext.TypesScoped ∧ ¬ danglingContext.Scoped ∧
    (∃ contracted, constantBody.instantiate .unlimited (.var ⟨0, 1⟩ 0) = .ok contracted ∧
      contracted.Deduces .unlimited danglingContext
        (.arrow ⟨10, 20⟩ (.all ⟨14, 18⟩ (.var ⟨16, 17⟩ 0)) (.var ⟨7, 8⟩ 1))) ∧
    (∃ contracted,
      polymorphicBody.instantiateType .unlimited (.arrow ⟨0, 6⟩ (.var ⟨0, 1⟩ 1) (.var ⟨5, 6⟩ 1)) =
        .ok contracted ∧
      contracted.Deduces .unlimited danglingContext
        (.arrow ⟨10, 20⟩ (.arrow ⟨0, 6⟩ (.var ⟨0, 1⟩ 1) (.var ⟨5, 6⟩ 1)) (.var ⟨7, 8⟩ 1))) := by
  have typesClosed : danglingContext.TypesScoped := ⟨rfl, trivial⟩
  obtain ⟨ofTerms, ofTypes⟩ := contraction_keeps_type typesClosed
  refine ⟨typesClosed, ?_, ?_, ?_⟩
  · intro closed
    have inScope := closed.2.1 _ rfl
    cases inScope
  · obtain ⟨contracted, lowered, contracts, lowers, deduces⟩ :=
      ofTerms constantBody (.var ⟨0, 1⟩ 0) (.var ⟨3, 4⟩ 1) _ rfl rfl ⟨_, rfl, rfl⟩
    cases lowers
    exact ⟨contracted, contracts, deduces⟩
  · obtain ⟨contracted, instantiated, contracts, instantiates, deduces⟩ :=
      ofTypes polymorphicBody (.arrow ⟨0, 6⟩ (.var ⟨0, 1⟩ 1) (.var ⟨5, 6⟩ 1)) _ rfl rfl
    cases instantiates
    exact ⟨contracted, contracts, deduces⟩

/-! ## Staying in scope -/

/-- Deduction in scope blames no index, and no arithmetic unless indices are limited. -/
theorem Term.InScope.deduce_error_legal {range : IndexRange} {context : Context} {term : Term}
    {error : TypeError} (inScope : term.InScope context) (closed : context.Scoped)
    (failed : term.deduce range context = .error error) :
    (∀ index, error ≠ .illegal index) ∧
      (∀ fault, error = .indexFault fault → range ≠ .unlimited) := by
  have errorInScope := inScope.deduce_error closed failed
  obtain ⟨_, _, _, fails⟩ := Term.deduce_error failed
  constructor
  · rintro index rfl
    exact errorInScope
  · rintro fault rfl
    cases fails with
    | indexFault limited => exact limited

/-- Normalisation in scope stays there, if it comes to an end. -/
theorem Term.InScope.normalize_cases {context : Context} {term : Term}
    (inScope : term.InScope context) (closed : context.Scoped) (range : IndexRange) (depth : Nat) :
    (∃ normal, term.normalize range depth context = .ok normal ∧ normal.InScope context) ∨
      term.normalize range depth context = .error .exhausted ∨
      range ≠ .unlimited ∧
        ∃ fault, term.normalize range depth context = .error (.indexFault fault) := by
  cases normalized : term.normalize range depth context with
  | ok normal => exact .inl ⟨normal, rfl, Term.normalize_inScope closed inScope normalized⟩
  | error error =>
      rcases inScope.normalize_error closed normalized with rfl | ⟨limited, fault, rfl⟩
      · exact .inr (.inl rfl)
      · exact .inr (.inr ⟨limited, fault, rfl⟩)

/-- A term with a type is in scope, and so is its type. In scope, whether there is a type
or not, deduction blames no index, and normalisation yields a term in scope unless it goes
too deep. Index arithmetic fails only where indices are limited, and there only if a tree
that is met has as many as `2 ^ 63` binders around one of its places. -/
theorem deduction_and_normalization_stay_in_scope {context : Context} (closed : context.Scoped)
    (term : Term) :
    (∀ range ty, term.deduce range context = .ok ty →
      term.InScope context ∧ ty.checkScope context 0 = .ok ()) ∧
    (term.InScope context →
      (∀ range error, term.deduce range context = .error error →
        (∀ index, error ≠ .illegal index) ∧
        (∀ fault, error = .indexFault fault → range ≠ .unlimited)) ∧
      (∀ range depth,
        (∃ normal, term.normalize range depth context = .ok normal ∧ normal.InScope context) ∨
        term.normalize range depth context = .error .exhausted ∨
        range ≠ .unlimited ∧
          ∃ fault, term.normalize range depth context = .error (.indexFault fault)) ∧
      ((∀ height ∈ term.deductionHeights context, height < Nat.pow 2 63) →
        term.deduce .standard context = term.deduce .unlimited context) ∧
      (∀ depth, (∀ height ∈ term.normalizationHeights depth context, height < Nat.pow 2 63) →
        term.normalize .standard depth context = term.normalize .unlimited depth context)) := by
  constructor
  · intro range ty deduced
    have typed := Term.deduce_typed closed deduced
    exact ⟨typed.inScope, (Ty.checkScope_eq_ok_iff context 0 ty).mpr (typed.ty_inScope closed)⟩
  · intro inScope
    refine ⟨?_, inScope.normalize_cases closed, ?_, ?_⟩
    · intro range error failed
      exact inScope.deduce_error_legal closed failed
    · intro low
      have within : term.DeducesWithin .standard context := low
      exact Term.deduce_eq_unlimited closed inScope within
    · intro depth low
      have within : term.NormalizesWithin .standard depth context := low
      exact Term.normalize_eq_unlimited closed inScope within

/-- A type, an assumed element of it and a name for this element. -/
def aliasContext : Context :=
  [.term ⟨(), .var ⟨7, 8⟩ 1, some (.var ⟨11, 12⟩ 0)⟩, .term ⟨(), .var ⟨9, 10⟩ 0, none⟩, .type ()]

/-- A function that applies an element of the type to itself, applied to the name. -/
def selfApplication : Term :=
  .app ⟨0, 17⟩
    (.lam ⟨1, 14⟩ (.var ⟨8, 9⟩ 2) (.app ⟨11, 14⟩ (.var ⟨11, 12⟩ 0) (.var ⟨13, 14⟩ 0)))
    (.var ⟨16, 17⟩ 0)

/-- The self-application has no type, yet it has a normal form, in which the name is
unfolded twice. The trees on the way are at most four binders high. The name itself has
a type. -/
theorem deduction_and_normalization_stay_in_scope_self :
    aliasContext.Scoped ∧
    (Ty.var ⟨7, 8⟩ 2).checkScope aliasContext 0 = .ok () ∧
    selfApplication.InScope aliasContext ∧
    (∃ error, selfApplication.deduce .standard aliasContext = .error error ∧
      ∀ index, error ≠ .illegal index) ∧
    ∃ normal, selfApplication.normalize .standard 5 aliasContext = .ok normal ∧
      selfApplication.normalize .unlimited 5 aliasContext = .ok normal ∧
      normal.InScope aliasContext := by
  have wellFormed : aliasContext.WellFormed .unlimited := by decide
  have closed := wellFormed.wellTyped.closed
  obtain ⟨typed, _⟩ := deduction_and_normalization_stay_in_scope closed (.var ⟨16, 17⟩ 0)
  obtain ⟨_, untyped⟩ := deduction_and_normalization_stay_in_scope closed selfApplication
  have inScope : selfApplication.InScope aliasContext := ⟨⟨rfl, rfl, rfl⟩, rfl⟩
  obtain ⟨errors, normals, _, limited⟩ := untyped inScope
  have low : ∀ height ∈ selfApplication.normalizationHeights 5 aliasContext,
      height < Nat.pow 2 63 := by decide
  have normalized : selfApplication.normalize .unlimited 5 aliasContext =
      .ok (.app ⟨11, 14⟩ (.var ⟨11, 12⟩ 1) (.var ⟨11, 12⟩ 1)) := rfl
  refine ⟨closed, (typed .standard _ rfl).2, inScope, ⟨_, rfl, (errors .standard _ rfl).1⟩, ?_⟩
  rcases normals .unlimited 5 with ⟨normal, succeeds, normalInScope⟩ | exhausted | ⟨isLimited, _⟩
  · exact ⟨normal, (limited 5 low).trans succeeds, succeeds, normalInScope⟩
  · cases normalized.symm.trans exhausted
  · exact absurd rfl isLimited

end PolyLambda.Indexed
