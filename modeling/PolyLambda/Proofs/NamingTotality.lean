import PolyLambda.Proofs.DeductionFailures
import PolyLambda.Proofs.NameBridge
import PolyLambda.Typing.Mismatch

/-!
# Trees in scope have names

Naming fails at an index that denotes no binder of its kind, and at nothing else, so
a tree in scope is named. The types of a type error are in the scope that the error
records, whose innermost binders draw their names before the types do; hence the
type errors of terms in scope are reported as clashes of types, and never as illegal
indices.
-/

namespace PolyLambda

/-! ## Entering several binders -/

/-- Entering binders puts binders of these kinds inside all others. -/
theorem Naming.Binders.enterAll_scope (binders : Binders) (supply : Supply) (kinds : List Kind) :
    ∃ inner : Scope, (binders.enterAll supply kinds).1.scope = inner ++ binders.scope ∧
      inner.map Binder.kind = kinds := by
  induction kinds with
  | nil => exact ⟨[], rfl, rfl⟩
  | cons kind kinds kindsIH =>
      obtain ⟨inner, scopeEq, kindsEq⟩ := kindsIH
      rcases entered : (binders.enterAll supply kinds).1.enter
        (binders.enterAll supply kinds).2 kind with ⟨name, inside, drawn⟩
      refine ⟨⟨kind, name⟩ :: inner, ?_, ?_⟩
      · simp only [enterAll, entered, enter_scope entered, scopeEq, List.cons_append]
      · simp only [List.map_cons, kindsEq]

/-- A scope goes on describing a context below inner binders of the same kinds. -/
theorem Scope.Describes.append {scope inner : Scope} {context outer : Indexed.Context}
    (describes : scope.Describes context)
    (kinds : inner.map Binder.kind = outer.map Binding.kind) :
    Scope.Describes (inner ++ scope) (outer ++ context) := by
  unfold Scope.Describes at *
  rw [List.map_append, List.map_append, kinds, describes]

/-- A scope has as many binders as the context that it describes. -/
theorem Scope.Describes.length_eq {scope : Scope} {context : Indexed.Context}
    (describes : scope.Describes context) : scope.length = context.length := by
  have lengths := congrArg List.length describes
  simpa using lengths

/-- The binder of a term in a context has a name of a term in the scope. -/
theorem Scope.Describes.termName {scope : Scope} {context : Indexed.Context} {index : Nat}
    (describes : scope.Describes context) (bound : (context.termType? index).isSome) :
    ∃ name, scope[index]? = some ⟨.term, name⟩ := by
  obtain ⟨ty, recorded⟩ := Option.isSome_iff_exists.mp bound
  obtain ⟨entry, found, _⟩ := Indexed.Context.termType?_eq_some_iff.mp recorded
  have kinds := describes.kindAt index
  rw [found] at kinds
  obtain ⟨⟨kind, name⟩, named, rfl⟩ := Option.map_eq_some_iff.mp kinds
  exact ⟨name, named⟩

/-! ## Trees -/

namespace Indexed

open Naming

/-- A type in scope has names. -/
theorem Ty.InScope.named {ty : Ty} {context : Context} (inScope : ty.InScope context)
    {binders : Binders} (describes : binders.scope.Describes context) (supply : Supply) :
    ∃ named drawn, ty.NamedBy binders supply named drawn := by
  induction ty generalizing context binders supply with
  | var span index =>
      obtain ⟨name, found⟩ := describes.bindsType_iff.mp inScope
      exact ⟨_, _, .var found⟩
  | arrow span domain codomain domainIH codomainIH =>
      obtain ⟨namedDomain, middle, domainNamed⟩ := domainIH inScope.1 describes supply
      obtain ⟨namedCodomain, drawn, codomainNamed⟩ := codomainIH inScope.2 describes middle
      exact ⟨_, _, .arrow domainNamed codomainNamed⟩
  | all span body bodyIH =>
      rcases entered : binders.enter supply .type with ⟨name, inside, after⟩
      have bodyInScope : body.InScope context.pushType := inScope
      have insideDescribes : inside.scope.Describes context.pushType := by
        rw [Binders.enter_scope entered]
        exact describes.pushType name
      obtain ⟨namedBody, drawn, bodyNamed⟩ := bodyIH bodyInScope insideDescribes after
      exact ⟨_, _, .all entered bodyNamed⟩

/-- A term in scope has names. -/
theorem Term.InScope.named {term : Term} {context : Context} (inScope : term.InScope context)
    {binders : Binders} (describes : binders.scope.Describes context) (supply : Supply) :
    ∃ named drawn, term.NamedBy binders supply named drawn := by
  induction term generalizing context binders supply with
  | var span index =>
      obtain ⟨name, found⟩ := describes.termName inScope
      exact ⟨_, _, .var found⟩
  | lam span paramType body bodyIH =>
      obtain ⟨namedType, middle, typeNamed⟩ := inScope.1.named describes supply
      rcases entered : binders.enter middle .term with ⟨name, inside, after⟩
      have insideDescribes : inside.scope.Describes (context.pushTerm paramType) := by
        rw [Binders.enter_scope entered]
        exact describes.pushTerm name paramType
      obtain ⟨namedBody, drawn, bodyNamed⟩ := bodyIH inScope.2 insideDescribes after
      exact ⟨_, _, .lam typeNamed entered bodyNamed⟩
  | app span function argument functionIH argumentIH =>
      obtain ⟨namedFunction, middle, functionNamed⟩ := functionIH inScope.1 describes supply
      obtain ⟨namedArgument, drawn, argumentNamed⟩ := argumentIH inScope.2 describes middle
      exact ⟨_, _, .app functionNamed argumentNamed⟩
  | tyLam span body bodyIH =>
      rcases entered : binders.enter supply .type with ⟨name, inside, after⟩
      have bodyInScope : body.InScope context.pushType := inScope
      have insideDescribes : inside.scope.Describes context.pushType := by
        rw [Binders.enter_scope entered]
        exact describes.pushType name
      obtain ⟨namedBody, drawn, bodyNamed⟩ := bodyIH bodyInScope insideDescribes after
      exact ⟨_, _, .tyLam entered bodyNamed⟩
  | tyApp span function argument functionIH =>
      obtain ⟨namedFunction, middle, functionNamed⟩ := functionIH inScope.1 describes supply
      obtain ⟨namedArgument, drawn, argumentNamed⟩ := inScope.2.named describes middle
      exact ⟨_, _, .tyApp functionNamed argumentNamed⟩

end Indexed

namespace Named.Context

variable {context : Context} {indexed : Indexed.Context}

/-- A context gives names to every type in scope. -/
theorem nameType_of_inScope (describes : context.scope.Describes indexed) {ty : Indexed.Ty}
    (inScope : ty.InScope indexed) : ∃ named, context.nameType ty = .ok named := by
  have noneInside : (Naming.Binders.mk context.scope []).scope.Describes indexed := describes
  obtain ⟨named, drawn, naming⟩ := inScope.named noneInside .initial
  exact ⟨named, nameType_eq_ok_iff.mpr ⟨drawn, naming⟩⟩

/-- A context gives names to every term in scope. -/
theorem nameTerm_of_inScope (describes : context.scope.Describes indexed) {term : Indexed.Term}
    (inScope : term.InScope indexed) : ∃ named, context.nameTerm term = .ok named := by
  have noneInside : (Naming.Binders.mk context.scope []).scope.Describes indexed := describes
  obtain ⟨named, drawn, naming⟩ := inScope.named noneInside .initial
  exact ⟨named, nameTerm_eq_ok_iff.mpr ⟨drawn, naming⟩⟩

/-- The binders and the supply with which types inside `inner` are named. -/
def inside (context : Context) (inner : Indexed.Context) : Naming.Binders × Naming.Supply :=
  Naming.Binders.enterAll ⟨context.scope, []⟩ .initial (inner.map Binding.kind)

/-- Inside of further binders the scope has a name for each of them, of its kind. -/
theorem inside_scope (context : Context) (inner : Indexed.Context) :
    ∃ names : Scope, (context.inside inner).1.scope = names ++ context.scope ∧
      names.map Binder.kind = inner.map Binding.kind :=
  Naming.Binders.enterAll_scope ⟨context.scope, []⟩ .initial (inner.map Binding.kind)

/-- Inside of further binders the scope goes on describing the context. -/
theorem inside_describes (describes : context.scope.Describes indexed) (inner : Indexed.Context) :
    (context.inside inner).1.scope.Describes (inner ++ indexed) := by
  obtain ⟨names, scopeEq, kinds⟩ := context.inside_scope inner
  rw [scopeEq]
  exact describes.append kinds

/-- A type under binders of a term is named after names for these binders have been drawn. -/
theorem nameTypeIn_eq_ok_iff (describes : context.scope.Describes indexed)
    (inner : Indexed.Context) {ty : Indexed.Ty} {named : Ty} :
    context.nameTypeIn (inner ++ indexed) ty = .ok named ↔
      ∃ drawn, ty.NamedBy (context.inside inner).1 (context.inside inner).2 named drawn := by
  have lengths : context.length = indexed.length := by
    have scopeLength := describes.length_eq
    simpa [PolyLambda.Context.scope] using scopeLength
  have enough : ¬ (inner ++ indexed).length < context.length := by
    rw [List.length_append, lengths]
    omega
  have taken : (inner ++ indexed).take ((inner ++ indexed).length - context.length) = inner := by
    rw [List.length_append, lengths, Nat.add_sub_cancel, List.take_left]
  simp only [nameTypeIn, if_neg enough, taken, bind_eq_ok_iff]
  constructor
  · rintro ⟨⟨found, drawn⟩, naming, result⟩
    cases result
    exact ⟨drawn, Indexed.Ty.withNames_eq_ok_iff.mp naming⟩
  · rintro ⟨drawn, naming⟩
    exact ⟨_, Indexed.Ty.withNames_eq_ok_iff.mpr naming, rfl⟩

/-- A type in scope under binders of a term has names. -/
theorem nameTypeIn_of_inScope (describes : context.scope.Describes indexed)
    (inner : Indexed.Context) {ty : Indexed.Ty} (inScope : ty.InScope (inner ++ indexed)) :
    ∃ named, context.nameTypeIn (inner ++ indexed) ty = .ok named := by
  obtain ⟨named, drawn, naming⟩ :=
    inScope.named (inside_describes describes inner) (context.inside inner).2
  exact ⟨named, (nameTypeIn_eq_ok_iff describes inner).mpr ⟨drawn, naming⟩⟩

end Named.Context

/-! ## Type errors -/

namespace Indexed

/-- The error is about types, and they are in the scope that it records: the context
under further binders. -/
def TypeError.InScope (context : Context) : TypeError → Prop
  | .illegal _ => False
  | .indexFault _ => True
  | .notFunction _ found _ argumentType scope =>
    (∃ inner, scope = inner ++ context) ∧ found.InScope scope ∧ argumentType.InScope scope
  | .argumentMismatch _ expected found scope =>
    (∃ inner, scope = inner ++ context) ∧ expected.InScope scope ∧ found.InScope scope
  | .notUniversal _ found scope =>
    (∃ inner, scope = inner ++ context) ∧ found.InScope scope

/-- The type errors of terms in scope are in scope. -/
theorem Term.InScope.deduce_error {range : IndexRange} {context : Context} {term : Term}
    {error : TypeError} (inScope : term.InScope context) (closed : context.Scoped)
    (failed : term.deduce range context = .error error) : error.InScope context := by
  obtain ⟨scope, part, member, fails⟩ := Term.deduce_error failed
  obtain ⟨extension, scopeClosed, partInScope⟩ := inScope.parts closed member
  -- The types of the error were deduced at the part where deduction fails.
  have deducedInScope : ∀ {piece : Term} {ty : Ty}, piece.deduce range scope = .ok ty →
      ty.InScope scope :=
    fun deduced => (Term.deduce_typed scopeClosed deduced).ty_inScope scopeClosed
  cases fails with
  | illegal outOfScope => exact outOfScope partInScope
  | indexFault => trivial
  | notFunction functionDeduced argumentDeduced _ =>
      exact ⟨extension, deducedInScope functionDeduced, deducedInScope argumentDeduced⟩
  | argumentMismatch functionDeduced argumentDeduced _ =>
      have arrowInScope := deducedInScope functionDeduced
      exact ⟨extension, arrowInScope.1, deducedInScope argumentDeduced⟩
  | notUniversal functionDeduced _ => exact ⟨extension, deducedInScope functionDeduced⟩

/-- A mismatch of types that have names is reported with both. -/
theorem TypeError.argumentMismatch_inContext {context : Named.Context} {span : Span}
    {expected found : Ty} {scope : Context} {expectedName foundName : Named.Ty}
    (expectedNamed : context.nameTypeIn scope expected = .ok expectedName)
    (foundNamed : context.nameTypeIn scope found = .ok foundName) :
    (TypeError.argumentMismatch span expected found scope).inContext context =
      .mismatch (.argument span expectedName foundName) := by
  simp only [TypeError.inContext, TypeError.mismatch, expectedNamed, foundNamed, bind, Except.bind,
    pure, Except.pure]

/-- A clash is reported only if the types of the error have names. -/
theorem TypeError.mismatch_of_inContext {context : Named.Context} {error : TypeError}
    {clash : Mismatch} (reported : error.inContext context = .mismatch clash) :
    error.mismatch context = .ok (.mismatch clash) := by
  unfold TypeError.inContext at reported
  split at reported
  · next success => rw [success, reported]
  · cases reported

/-- A type error in scope is put in terms of names, unless it is a fault. -/
theorem TypeError.InScope.inContext {context : Named.Context} {indexed : Context}
    {error : TypeError} (inScope : error.InScope indexed)
    (describes : context.scope.Describes indexed) :
    (∃ fault, error = .indexFault fault ∧ error.inContext context = .indexFault fault) ∨
      ∃ clash, error.inContext context = .mismatch clash := by
  -- The types of the error are named in the scope it records.
  have named : ∀ {inner : Context} {ty : Ty}, ty.InScope (inner ++ indexed) →
      ∃ name, context.nameTypeIn (inner ++ indexed) ty = .ok name :=
    fun inScope => Named.Context.nameTypeIn_of_inScope describes _ inScope
  cases error with
  | illegal => exact inScope.elim
  | indexFault fault => exact .inl ⟨fault, rfl, rfl⟩
  | notFunction span found argumentSpan argumentType scope =>
      obtain ⟨⟨inner, rfl⟩, foundInScope, argumentInScope⟩ := inScope
      obtain ⟨foundName, foundNamed⟩ := named foundInScope
      obtain ⟨argumentName, argumentNamed⟩ := named argumentInScope
      refine .inr ⟨.notFunction span foundName argumentSpan argumentName, ?_⟩
      simp only [TypeError.inContext, TypeError.mismatch, foundNamed, argumentNamed, bind,
        Except.bind, pure, Except.pure]
  | argumentMismatch span expected found scope =>
      obtain ⟨⟨inner, rfl⟩, expectedInScope, foundInScope⟩ := inScope
      obtain ⟨expectedName, expectedNamed⟩ := named expectedInScope
      obtain ⟨foundName, foundNamed⟩ := named foundInScope
      exact .inr ⟨_, TypeError.argumentMismatch_inContext expectedNamed foundNamed⟩
  | notUniversal span found scope =>
      obtain ⟨⟨inner, rfl⟩, foundInScope⟩ := inScope
      obtain ⟨foundName, foundNamed⟩ := named foundInScope
      refine .inr ⟨.notUniversal span foundName, ?_⟩
      simp only [TypeError.inContext, TypeError.mismatch, foundNamed, bind, Except.bind, pure,
        Except.pure]

end Indexed

end PolyLambda
