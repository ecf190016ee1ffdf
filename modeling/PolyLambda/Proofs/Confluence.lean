import PolyLambda.Proofs.Reduction

/-!
# Normal forms are unique

Steps can be taken in any order. `Parallel` takes some of the steps that a term offers
at once, and whichever it takes, taking all of them is one more such step away. Hence
two sequences of steps from one term can be continued to a common term, spans included.

Normalisation ends in a term without steps, so it finds the only one that can be
reached. The main result says so of `Rewrites`, whose steps are computed by
instantiation and shifting; inside a scope these are the steps of `Step`.
-/

namespace PolyLambda.Indexed

open Relation (ReflTransGen)

/-! ## Several steps at once -/

/-- Contracts and unfolds any number of places of a term at once. What a contraction
brings about, or an unfolding, is left for later. -/
inductive Parallel : Context → Term → Term → Prop
  | var {context span index} : Parallel context (.var span index) (.var span index)
  | unfold {context span index definition} (unfolds : context.unfolding? index = some definition) :
      Parallel context (.var span index) definition
  | lam {context span paramType body next}
      (bodyParallel : Parallel (context.pushTerm paramType) body next) :
      Parallel context (.lam span paramType body) (.lam span paramType next)
  | app {context span function nextFunction argument nextArgument}
      (functionParallel : Parallel context function nextFunction)
      (argumentParallel : Parallel context argument nextArgument) :
      Parallel context (.app span function argument) (.app span nextFunction nextArgument)
  | beta {context span lamSpan paramType body nextBody argument nextArgument}
      (bodyParallel : Parallel (context.pushTerm paramType) body nextBody)
      (argumentParallel : Parallel context argument nextArgument) :
      Parallel context (.app span (.lam lamSpan paramType body) argument)
        (nextBody.bodyAt nextArgument)
  | tyLam {context span body next} (bodyParallel : Parallel context.pushType body next) :
      Parallel context (.tyLam span body) (.tyLam span next)
  | tyApp {context span function next argument}
      (functionParallel : Parallel context function next) :
      Parallel context (.tyApp span function argument) (.tyApp span next argument)
  | tyBeta {context span lamSpan body next argument}
      (bodyParallel : Parallel context.pushType body next) :
      Parallel context (.tyApp span (.tyLam lamSpan body) argument) (next.bodyAtType argument)

namespace Parallel

/-- Every term steps to itself in parallel. -/
theorem refl (context : Context) (term : Term) : Parallel context term term := by
  induction term generalizing context with
  | var span index => exact .var
  | lam span paramType body bodyIH => exact .lam (bodyIH _)
  | app span function argument functionIH argumentIH =>
      exact .app (functionIH context) (argumentIH context)
  | tyLam span body bodyIH => exact .tyLam (bodyIH _)
  | tyApp span function argument functionIH => exact .tyApp (functionIH context)

/-- A step is a parallel step. -/
theorem ofStep {context : Context} {term next : Term} (step : Step context term next) :
    Parallel context term next := by
  induction step with
  | unfold unfolds => exact .unfold unfolds
  | beta => exact .beta (refl _ _) (refl _ _)
  | tyBeta => exact .tyBeta (refl _ _)
  | lam _ stepIH => exact .lam stepIH
  | function _ stepIH => exact .app stepIH (refl _ _)
  | argument _ stepIH => exact .app (refl _ _) stepIH
  | tyLam _ stepIH => exact .tyLam stepIH
  | tyFunction _ stepIH => exact .tyApp stepIH

/-- A parallel step is made of steps. -/
theorem steps {context : Context} {term next : Term} (parallel : Parallel context term next) :
    Steps context term next := by
  induction parallel with
  | var => exact .refl
  | unfold unfolds => exact .single (.unfold unfolds)
  | lam _ bodyIH => exact Steps.lam bodyIH
  | app _ _ functionIH argumentIH => exact Steps.app _ functionIH argumentIH
  | beta _ _ bodyIH argumentIH =>
      exact (Steps.app _ (Steps.lam bodyIH) argumentIH).tail .beta
  | tyLam _ bodyIH => exact Steps.tyLam bodyIH
  | tyApp _ functionIH => exact Steps.tyApp _ functionIH _
  | tyBeta _ bodyIH => exact (Steps.tyApp _ (Steps.tyLam bodyIH) _).tail .tyBeta

/-- Parallel steps are carried along by renamings. -/
theorem rename {mapping : Renaming} {source target : Context} {term next : Term}
    (parallel : Parallel source term next) (carries : mapping.Carries source target) :
    Parallel target (term.rename mapping) (next.rename mapping) := by
  induction parallel generalizing mapping target with
  | var => exact .var
  | unfold unfolds => exact .unfold (carries.unfoldings unfolds)
  | lam _ bodyIH => exact .lam (bodyIH (carries.underTerm _))
  | app _ _ functionIH argumentIH => exact .app (functionIH carries) (argumentIH carries)
  | beta _ _ bodyIH argumentIH =>
      rw [Term.bodyAt_rename]
      exact .beta (bodyIH (carries.underTerm _)) (argumentIH carries)
  | tyLam _ bodyIH => exact .tyLam (bodyIH carries.underType)
  | tyApp _ functionIH => exact .tyApp (functionIH carries)
  | tyBeta _ bodyIH =>
      rw [Term.bodyAtType_rename]
      exact .tyBeta (bodyIH carries.underType)

end Parallel

/-! ## Parallel steps and substitution -/

/-- What one substitution puts in place of each variable steps to what another one does,
and in place of a defined variable also to the definition. -/
structure SubstParallel (types : TySubst) (terms others : TermSubst) (source target : Context) :
    Prop where
  replacements : ∀ span index, Parallel target (terms span index) (others span index)
  unfoldings : ∀ {index definition}, source.unfolding? index = some definition →
    ∀ span, Parallel target (terms span index) (definition.substAll types others)

namespace SubstParallel

variable {types : TySubst} {terms others : TermSubst} {source target : Context}

/-- Under a binder without a definition there is nothing more to unfold. -/
theorem under (parallel : SubstParallel types terms others source target)
    {binding other : Binding} (undefined : Context.unfolding? (binding :: source) 0 = none) :
    SubstParallel types.under terms.under others.under (binding :: source) (other :: target) where
  replacements span index := by
    cases index with
    | zero => exact .var
    | succ index => exact (parallel.replacements span index).rename (.up target other)
  unfoldings {index definition} found span := by
    cases index with
    | zero =>
        rw [undefined] at found
        cases found
    | succ index =>
        rw [Context.unfolding?_cons_succ, Option.map_eq_some_iff] at found
        obtain ⟨below, found, rfl⟩ := found
        rw [Term.lift_substAll_under]
        exact (parallel.unfoldings found span).rename (.up target other)

/-- Substituting for a binder without a definition. -/
theorem cons {context : Context} {binding : Binding} {head next : Term} (headType : Ty)
    (parallel : Parallel context head next)
    (undefined : Context.unfolding? (binding :: context) 0 = none) :
    SubstParallel (.cons headType .var) (.cons head .var) (.cons next .var) (binding :: context)
      context where
  replacements span index := by
    cases index with
    | zero => exact parallel
    | succ index => exact .var
  unfoldings {index definition} found span := by
    cases index with
    | zero =>
        rw [undefined] at found
        cases found
    | succ index =>
        rw [Context.unfolding?_cons_succ, Option.map_eq_some_iff] at found
        obtain ⟨below, found, rfl⟩ := found
        rw [Term.lift_substAll_cons, Term.substAll_var]
        exact .unfold found

end SubstParallel

namespace Parallel

/-- Parallel steps are carried along by substitutions that step in parallel. -/
theorem substAll {types : TySubst} {terms others : TermSubst} {source target : Context}
    {term next : Term} (parallel : Parallel source term next)
    (substitutes : SubstParallel types terms others source target) :
    Parallel target (term.substAll types terms) (next.substAll types others) := by
  induction parallel generalizing types terms others target with
  | var => exact substitutes.replacements _ _
  | unfold unfolds => exact substitutes.unfoldings unfolds _
  | lam _ bodyIH => exact .lam (bodyIH (substitutes.under rfl))
  | app _ _ functionIH argumentIH => exact .app (functionIH substitutes) (argumentIH substitutes)
  | beta _ _ bodyIH argumentIH =>
      rw [Term.bodyAt_substAll]
      exact .beta (bodyIH (substitutes.under rfl)) (argumentIH substitutes)
  | tyLam _ bodyIH => exact .tyLam (bodyIH (substitutes.under rfl))
  | tyApp _ functionIH => exact .tyApp (functionIH substitutes)
  | tyBeta _ bodyIH =>
      rw [Term.bodyAtType_substAll]
      exact .tyBeta (bodyIH (substitutes.under rfl))

/-- Bodies and arguments that step in parallel are contracted to terms that do. -/
theorem bodyAt {context : Context} {paramType : Ty} {body nextBody argument nextArgument : Term}
    (bodyParallel : Parallel (context.pushTerm paramType) body nextBody)
    (argumentParallel : Parallel context argument nextArgument) :
    Parallel context (body.bodyAt argument) (nextBody.bodyAt nextArgument) :=
  bodyParallel.substAll (.cons .filler argumentParallel rfl)

/-- Bodies that step in parallel are contracted at a type to terms that do. -/
theorem bodyAtType {context : Context} {body next : Term}
    (bodyParallel : Parallel context.pushType body next) (argument : Ty) :
    Parallel context (body.bodyAtType argument) (next.bodyAtType argument) :=
  bodyParallel.substAll (.cons argument (refl context .filler) rfl)

end Parallel

/-! ## All steps at once -/

/-- Contracts and unfolds every place of a term where that can be done. -/
def Term.develop (context : Context) : Term → Term
  | .var span index => (context.unfolding? index).getD (.var span index)
  | .lam span paramType body => .lam span paramType (body.develop (context.pushTerm paramType))
  | .app _ (.lam _ paramType body) argument =>
    (body.develop (context.pushTerm paramType)).bodyAt (argument.develop context)
  | .app span function argument => .app span (function.develop context) (argument.develop context)
  | .tyLam span body => .tyLam span (body.develop context.pushType)
  | .tyApp _ (.tyLam _ body) argument => (body.develop context.pushType).bodyAtType argument
  | .tyApp span function argument => .tyApp span (function.develop context) argument

/-- Whatever has been contracted, contracting the rest leads to the same term. -/
theorem Parallel.develop {context : Context} {term next : Term}
    (parallel : Parallel context term next) : Parallel context next (term.develop context) := by
  induction parallel with
  | @var context span index =>
      rw [Term.develop]
      cases unfolds : context.unfolding? index with
      | none => exact .var
      | some definition => exact .unfold unfolds
  | unfold unfolds =>
      rw [Term.develop, unfolds]
      exact refl _ _
  | lam _ bodyIH => exact .lam bodyIH
  | @app context span function nextFunction argument nextArgument functionParallel _ functionIH
      argumentIH =>
      cases function with
      | lam lamSpan paramType body =>
          -- An abstraction steps to an abstraction, so the contraction is still to be made.
          cases functionParallel with
          | lam bodyParallel =>
              cases functionIH with
              | lam bodyDevelops => exact .beta bodyDevelops argumentIH
      | var | app | tyLam | tyApp => exact .app functionIH argumentIH
  | beta _ _ bodyIH argumentIH => exact bodyIH.bodyAt argumentIH
  | tyLam _ bodyIH => exact .tyLam bodyIH
  | @tyApp context span function next argument functionParallel functionIH =>
      cases function with
      | tyLam lamSpan body =>
          cases functionParallel with
          | tyLam bodyParallel =>
              cases functionIH with
              | tyLam bodyDevelops => exact .tyBeta bodyDevelops
      | var | lam | app | tyApp => exact .tyApp functionIH
  | tyBeta _ bodyIH => exact bodyIH.bodyAtType _

/-! ## Confluence -/

/-- Steps are parallel steps. -/
theorem Steps.parallel {context : Context} {term next : Term} (steps : Steps context term next) :
    ReflTransGen (Parallel context) term next := by
  induction steps with
  | refl => exact .refl
  | tail _ step inductionHypothesis => exact inductionHypothesis.tail (.ofStep step)

/-- Parallel steps are steps. -/
theorem Steps.ofParallel {context : Context} {term next : Term}
    (parallel : ReflTransGen (Parallel context) term next) : Steps context term next := by
  induction parallel with
  | refl => exact .refl
  | tail _ parallel inductionHypothesis => exact inductionHypothesis.trans parallel.steps

/-- Whichever steps are taken from a term, they can be continued to a common one. -/
theorem Steps.confluent {context : Context} {term left right : Term}
    (leftSteps : Steps context term left) (rightSteps : Steps context term right) :
    ∃ meeting, Steps context left meeting ∧ Steps context right meeting := by
  obtain ⟨meeting, leftMeets, rightMeets⟩ :=
    Relation.church_rosser
      (fun start first second toFirst toSecond =>
        ⟨start.develop context, .single toFirst.develop, .single toSecond.develop⟩)
      leftSteps.parallel rightSteps.parallel
  exact ⟨meeting, Steps.ofParallel leftMeets, Steps.ofParallel rightMeets⟩

/-! ## Normal forms -/

/-- No step can be taken. -/
def Irreducible (context : Context) (term : Term) : Prop :=
  ∀ next, ¬ Step context term next

/-- A term that cannot step steps only to itself. -/
theorem Irreducible.eq_of_steps {context : Context} {term next : Term}
    (irreducible : Irreducible context term) (steps : Steps context term next) : next = term := by
  rcases ReflTransGen.cases_head steps with rfl | ⟨first, step, _⟩
  · rfl
  · exact absurd step (irreducible first)

/-- At most one term without steps can be reached. -/
theorem Steps.irreducible_unique {context : Context} {term left right : Term}
    (leftSteps : Steps context term left) (rightSteps : Steps context term right)
    (leftIrreducible : Irreducible context left) (rightIrreducible : Irreducible context right) :
    left = right := by
  obtain ⟨meeting, leftMeets, rightMeets⟩ := leftSteps.confluent rightSteps
  exact (leftIrreducible.eq_of_steps leftMeets).symm.trans (rightIrreducible.eq_of_steps rightMeets)

/-- Normalisation ends where no step can be taken. -/
theorem Evaluates.irreducible {range : IndexRange} {context : Context} {term normal : Term}
    (evaluates : Evaluates range context term normal) : Irreducible context normal := by
  induction evaluates with
  | assumed found assumed =>
      intro next step
      cases step with
      | unfold unfolds => simp [Context.unfolding?, found, assumed] at unfolds
  | unfold _ _ _ _ _ continuedIH => exact continuedIH
  | lam _ bodyIH =>
      intro next step
      cases step with
      | lam step => exact bodyIH _ step
  | app _ _ stuck functionIH argumentIH =>
      intro next step
      cases step with
      | beta => exact stuck _ _ _ rfl
      | function step => exact functionIH _ step
      | argument step => exact argumentIH _ step
  | beta _ _ _ _ _ _ continuedIH => exact continuedIH
  | tyLam _ bodyIH =>
      intro next step
      cases step with
      | tyLam step => exact bodyIH _ step
  | tyApp _ stuck functionIH =>
      intro next step
      cases step with
      | tyBeta => exact stuck _ _ rfl
      | tyFunction step => exact functionIH _ step
  | tyBeta _ _ _ _ continuedIH => exact continuedIH

/-! ## Steps by instantiation and shifting -/

/-- One contraction, computed by instantiating the body, or one unfolding, computed by
shifting the definition, anywhere in a term. -/
inductive Rewrites : Context → Term → Term → Prop
  | unfold {context span index entry definition unfolded}
      (found : context[index]? = some (.term entry)) (stored : entry.definition = some definition)
      (shifted : definition.shift .unlimited 0 (index + 1) = .ok unfolded) :
      Rewrites context (.var span index) unfolded
  | beta {context span lamSpan paramType body argument contracted}
      (instantiated : body.instantiate .unlimited argument = .ok contracted) :
      Rewrites context (.app span (.lam lamSpan paramType body) argument) contracted
  | tyBeta {context span lamSpan body argument contracted}
      (instantiated : body.instantiateType .unlimited argument = .ok contracted) :
      Rewrites context (.tyApp span (.tyLam lamSpan body) argument) contracted
  | lam {context span paramType body next}
      (rewrites : Rewrites (context.pushTerm paramType) body next) :
      Rewrites context (.lam span paramType body) (.lam span paramType next)
  | function {context span function next argument} (rewrites : Rewrites context function next) :
      Rewrites context (.app span function argument) (.app span next argument)
  | argument {context span function argument next} (rewrites : Rewrites context argument next) :
      Rewrites context (.app span function argument) (.app span function next)
  | tyLam {context span body next} (rewrites : Rewrites context.pushType body next) :
      Rewrites context (.tyLam span body) (.tyLam span next)
  | tyFunction {context span function next argument} (rewrites : Rewrites context function next) :
      Rewrites context (.tyApp span function argument) (.tyApp span next argument)

/-- A variable unfolds to the definition that the context records, raised to its place. -/
theorem Context.unfolding?_eq_some_iff {context : Context} {index : Nat} {unfolded : Term} :
    context.unfolding? index = some unfolded ↔
      ∃ entry definition, context[index]? = some (.term entry) ∧
        entry.definition = some definition ∧ unfolded = definition.lift (index + 1) := by
  constructor
  · intro unfolds
    unfold Context.unfolding? at unfolds
    split at unfolds
    · rename_i entry found
      obtain ⟨definition, stored, rfl⟩ := Option.map_eq_some_iff.mp unfolds
      exact ⟨entry, definition, found, stored, rfl⟩
    · cases unfolds
  · rintro ⟨entry, definition, found, stored, rfl⟩
    exact Context.unfolding?_of_definition found stored

/-- In scope, a step by instantiation and shifting is a step. -/
theorem rewrites_iff_step {context : Context} {term next : Term} (inScope : term.InScope context) :
    Rewrites context term next ↔ Step context term next := by
  constructor
  · intro rewrites
    induction rewrites with
    | @unfold _ _ index _ definition _ found stored shifted =>
        have lifted := (Term.shift_computes_lift .unlimited (index + 1) definition).eq_of_ok shifted
        exact .unfold (Context.unfolding?_eq_some_iff.mpr ⟨_, _, found, stored, lifted⟩)
    | beta instantiated =>
        cases (inScope.1.2.instantiate_computes .unlimited _).eq_of_ok instantiated
        exact .beta
    | @tyBeta context _ _ body _ _ instantiated =>
        have bodyInScope : body.InScope context.pushType := inScope.1
        cases (bodyInScope.instantiateType_computes .unlimited _).eq_of_ok instantiated
        exact .tyBeta
    | lam _ rewritesIH => exact .lam (rewritesIH inScope.2)
    | function _ rewritesIH => exact .function (rewritesIH inScope.1)
    | argument _ rewritesIH => exact .argument (rewritesIH inScope.2)
    | tyLam _ rewritesIH => exact .tyLam (rewritesIH inScope)
    | tyFunction _ rewritesIH => exact .tyFunction (rewritesIH inScope.1)
  · intro step
    induction step with
    | @unfold _ _ index _ unfolds =>
        obtain ⟨entry, definition, found, stored, rfl⟩ := Context.unfolding?_eq_some_iff.mp unfolds
        have lifted := Term.shift_computes_lift .unlimited (index + 1) definition
        exact .unfold found stored lifted.ofUnlimited
    | beta => exact .beta (inScope.1.2.instantiate_computes .unlimited _).ofUnlimited
    | @tyBeta context _ _ body _ =>
        have bodyInScope : body.InScope context.pushType := inScope.1
        exact .tyBeta (bodyInScope.instantiateType_computes .unlimited _).ofUnlimited
    | lam _ stepIH => exact .lam (stepIH inScope.2)
    | function _ stepIH => exact .function (stepIH inScope.1)
    | argument _ stepIH => exact .argument (stepIH inScope.2)
    | tyLam _ stepIH => exact .tyLam (stepIH inScope)
    | tyFunction _ stepIH => exact .tyFunction (stepIH inScope.1)

/-- In scope, steps by instantiation and shifting are steps. -/
theorem rewrites_iff_steps {context : Context} {term next : Term} (closed : context.Scoped)
    (inScope : term.InScope context) :
    ReflTransGen (Rewrites context) term next ↔ Steps context term next := by
  constructor
  · intro rewrites
    induction rewrites with
    | refl => exact .refl
    | tail _ rewrites steps =>
        exact steps.tail ((rewrites_iff_step (steps.inScope closed inScope)).mp rewrites)
  · intro steps
    induction steps with
    | refl => exact .refl
    | tail steps step rewrites =>
        exact rewrites.tail ((rewrites_iff_step (Steps.inScope steps closed inScope)).mpr step)

/-- A normal form is reached by rewriting and cannot be rewritten, and whatever else
the term is rewritten to, in any order, has no other normal form, spans included. -/
theorem normalize_unique_normalForm {context : Context} {term normal : Term} {depth : Nat}
    (closed : context.Scoped) (inScope : term.InScope context)
    (normalized : term.normalize .unlimited depth context = .ok normal) :
    ReflTransGen (Rewrites context) term normal ∧
      (∀ next, ¬ Rewrites context normal next) ∧
      ∀ (other found : Term) (otherDepth : Nat), ReflTransGen (Rewrites context) term other →
        other.normalize .unlimited otherDepth context = .ok found → found = normal := by
  have evaluates := Term.normalize_evaluates normalized
  have steps := evaluates.steps closed inScope
  refine ⟨(rewrites_iff_steps closed inScope).mpr steps, ?_, ?_⟩
  · intro next rewrites
    exact evaluates.irreducible next
      ((rewrites_iff_step (steps.inScope closed inScope)).mp rewrites)
  · intro other found otherDepth rewrites otherNormalized
    have otherSteps := (rewrites_iff_steps closed inScope).mp rewrites
    have otherEvaluates := Term.normalize_evaluates otherNormalized
    have foundSteps := otherEvaluates.steps closed (otherSteps.inScope closed inScope)
    exact Steps.irreducible_unique (otherSteps.trans foundSteps) steps
      otherEvaluates.irreducible evaluates.irreducible

/-- `identityTwice` with its argument evaluated first: the identity at a type. -/
def identityOnce : Term :=
  .app ⟨0, 20⟩ (.tyApp ⟨0, 11⟩ (.var ⟨0, 2⟩ 0) (.arrow ⟨4, 10⟩ (.var ⟨4, 5⟩ 2) (.var ⟨9, 10⟩ 2)))
    (.lam ⟨8, 20⟩ (.var ⟨17, 18⟩ 2) (.var ⟨18, 19⟩ 0))

/-- Normalisation evaluates the function of `identityTwice` before its argument; evaluating
the argument first leads to the same normal form. -/
theorem normalize_unique_normalForm_identity :
    identityContext.Scoped ∧ identityTwice.InScope identityContext ∧
      identityTwice.normalize .unlimited 6 identityContext =
        .ok (.lam ⟨8, 20⟩ (.var ⟨17, 18⟩ 2) (.var ⟨18, 19⟩ 0)) ∧
      ReflTransGen (Rewrites identityContext) identityTwice identityOnce ∧
      identityOnce ≠ identityTwice ∧
      ∀ (found : Term) (depth : Nat),
        identityOnce.normalize .unlimited depth identityContext = .ok found →
          found = .lam ⟨8, 20⟩ (.var ⟨17, 18⟩ 2) (.var ⟨18, 19⟩ 0) := by
  have wellFormed : identityContext.WellFormed .unlimited := by decide
  have closed := wellFormed.wellTyped.closed
  have deduced : identityTwice.deduce .unlimited identityContext =
      .ok (.arrow ⟨4, 10⟩ (.var ⟨4, 5⟩ 2) (.var ⟨9, 10⟩ 2)) := rfl
  have inScope := (Term.deduce_typed closed deduced).inScope
  have normalized : identityTwice.normalize .unlimited 6 identityContext =
      .ok (.lam ⟨8, 20⟩ (.var ⟨17, 18⟩ 2) (.var ⟨18, 19⟩ 0)) := rfl
  have rewrites : ReflTransGen (Rewrites identityContext) identityTwice identityOnce :=
    .head (.argument (.tyFunction (.unfold rfl rfl rfl))) (.single (.argument (.tyBeta rfl)))
  obtain ⟨_, _, unique⟩ := normalize_unique_normalForm closed inScope normalized
  exact ⟨closed, inScope, normalized, rewrites, by decide,
    fun found depth => unique identityOnce found depth rewrites⟩

end PolyLambda.Indexed
