import Mathlib.Logic.Relation
import PolyLambda.Proofs.Evaluation

/-!
# Reduction

`Step` contracts one application of an abstraction, or unfolds one definition,
anywhere in a term. Steps keep types in a well-typed context, and normalising a
term in scope takes steps only. Every property of normal forms that steps keep
follows from these two facts.
-/

namespace PolyLambda.Indexed

open Relation (ReflTransGen)

/-- One contraction or one unfolding, anywhere in a term. -/
inductive Step : Context → Term → Term → Prop
  | unfold {context span index definition} (unfolds : context.unfolding? index = some definition) :
      Step context (.var span index) definition
  | beta {context span lamSpan paramType body argument} :
      Step context (.app span (.lam lamSpan paramType body) argument) (body.bodyAt argument)
  | tyBeta {context span lamSpan body argument} :
      Step context (.tyApp span (.tyLam lamSpan body) argument) (body.bodyAtType argument)
  | lam {context span paramType body next} (step : Step (context.pushTerm paramType) body next) :
      Step context (.lam span paramType body) (.lam span paramType next)
  | function {context span function next argument} (step : Step context function next) :
      Step context (.app span function argument) (.app span next argument)
  | argument {context span function argument next} (step : Step context argument next) :
      Step context (.app span function argument) (.app span function next)
  | tyLam {context span body next} (step : Step context.pushType body next) :
      Step context (.tyLam span body) (.tyLam span next)
  | tyFunction {context span function next argument} (step : Step context function next) :
      Step context (.tyApp span function argument) (.tyApp span next argument)

/-- Any number of steps. -/
abbrev Steps (context : Context) : Term → Term → Prop :=
  ReflTransGen (Step context)

namespace Steps

/-- What maps steps to steps maps any number of them. -/
theorem map {source target : Context} {term next : Term} (image : Term → Term)
    (maps : ∀ {first second}, Step source first second → Step target (image first) (image second))
    (steps : Steps source term next) : Steps target (image term) (image next) := by
  induction steps with
  | refl => exact .refl
  | tail _ step inductionHypothesis => exact inductionHypothesis.tail (maps step)

variable {context : Context}

/-- Steps of a body are steps of the function. -/
theorem lam {span : Span} {paramType : Ty} {body next : Term}
    (steps : Steps (context.pushTerm paramType) body next) :
    Steps context (.lam span paramType body) (.lam span paramType next) :=
  steps.map (.lam span paramType) .lam

/-- Steps of a function and of its argument are steps of the application. -/
theorem app (span : Span) {function nextFunction argument nextArgument : Term}
    (functionSteps : Steps context function nextFunction)
    (argumentSteps : Steps context argument nextArgument) :
    Steps context (.app span function argument) (.app span nextFunction nextArgument) :=
  (functionSteps.map (fun function => .app span function argument) .function).trans
    (argumentSteps.map (.app span nextFunction) .argument)

/-- Steps of a body are steps of the polymorphic function. -/
theorem tyLam {span : Span} {body next : Term} (steps : Steps context.pushType body next) :
    Steps context (.tyLam span body) (.tyLam span next) :=
  steps.map (.tyLam span) .tyLam

/-- Steps of a function are steps of its application to a type. -/
theorem tyApp (span : Span) {function next : Term} (steps : Steps context function next)
    (argument : Ty) : Steps context (.tyApp span function argument) (.tyApp span next argument) :=
  steps.map (fun function => .tyApp span function argument) .tyFunction

end Steps

/-! ## Steps and renaming -/

/-- A step is carried along by a renaming. -/
theorem Step.rename {mapping : Renaming} {source target : Context} {term next : Term}
    (step : Step source term next) (carries : mapping.Carries source target) :
    Step target (term.rename mapping) (next.rename mapping) := by
  induction step generalizing mapping target with
  | unfold unfolds => exact .unfold (carries.unfoldings unfolds)
  | beta =>
      rw [Term.bodyAt_rename]
      exact .beta
  | tyBeta =>
      rw [Term.bodyAtType_rename]
      exact .tyBeta
  | lam _ stepIH => exact .lam (stepIH (carries.underTerm _))
  | function _ stepIH => exact .function (stepIH carries)
  | argument _ stepIH => exact .argument (stepIH carries)
  | tyLam _ stepIH => exact .tyLam (stepIH carries.underType)
  | tyFunction _ stepIH => exact .tyFunction (stepIH carries)

/-- Steps are carried along by a renaming. -/
theorem Steps.rename {mapping : Renaming} {source target : Context} {term next : Term}
    (steps : Steps source term next) (carries : mapping.Carries source target) :
    Steps target (term.rename mapping) (next.rename mapping) :=
  steps.map (Term.rename mapping) fun step => step.rename carries

/-! ## Steps keep types -/

/-- A step preserves the type of a term. -/
theorem Step.typed {context : Context} {term next : Term} (step : Step context term next)
    (wellTyped : context.WellTyped) {ty : Ty} (typed : Typed context term ty) :
    Typed context next ty := by
  induction step generalizing ty with
  | unfold unfolds =>
      obtain ⟨found, recorded, same⟩ := typed.generation
      exact (wellTyped.unfolding? unfolds recorded).same same
  | beta =>
      obtain ⟨_, _, _, functionTyped, argumentTyped, same⟩ := typed.generation
      obtain ⟨domains, bodyTyped⟩ := functionTyped.lam_body
      exact (bodyTyped.bodyAt (argumentTyped.same domains.symm)).same same
  | tyBeta =>
      obtain ⟨_, _, functionTyped, inScope, same⟩ := typed.generation
      exact (functionTyped.tyLam_body.bodyAtType inScope).same same
  | lam _ stepIH =>
      obtain ⟨_, _, inScope, bodyTyped, same⟩ := typed.generation
      exact (Typed.lam inScope (stepIH (wellTyped.pushTerm inScope) bodyTyped)).same same
  | function _ stepIH =>
      obtain ⟨_, _, _, functionTyped, argumentTyped, same⟩ := typed.generation
      exact (Typed.app (stepIH wellTyped functionTyped) argumentTyped).same same
  | argument _ stepIH =>
      obtain ⟨_, _, _, functionTyped, argumentTyped, same⟩ := typed.generation
      exact (Typed.app functionTyped (stepIH wellTyped argumentTyped)).same same
  | @tyLam context _ _ _ _ stepIH =>
      obtain ⟨_, _, bodyTyped, same⟩ := typed.generation
      have pushed : context.pushType.WellTyped := wellTyped
      exact (Typed.tyLam (stepIH pushed bodyTyped)).same same
  | tyFunction _ stepIH =>
      obtain ⟨_, _, functionTyped, inScope, same⟩ := typed.generation
      exact (Typed.tyApp (stepIH wellTyped functionTyped) inScope).same same

/-- Steps preserve the type of a term. -/
theorem Steps.typed {context : Context} {term next : Term} (steps : Steps context term next)
    (wellTyped : context.WellTyped) {ty : Ty} (typed : Typed context term ty) :
    Typed context next ty := by
  induction steps with
  | refl => exact typed
  | tail _ step inductionHypothesis => exact step.typed wellTyped inductionHypothesis

/-! ## Steps stay in scope -/

/-- A step keeps a term in scope. -/
theorem Step.inScope {context : Context} {term next : Term} (step : Step context term next)
    (closed : context.Scoped) (inScope : term.InScope context) : next.InScope context := by
  induction step with
  | unfold unfolds => exact closed.unfolding? unfolds
  | beta => exact inScope.1.2.bodyAt inScope.2
  | tyBeta => exact Term.InScope.bodyAtType inScope.1 inScope.2
  | lam _ stepIH => exact ⟨inScope.1, stepIH (closed.pushTerm inScope.1) inScope.2⟩
  | function _ stepIH => exact ⟨stepIH closed inScope.1, inScope.2⟩
  | argument _ stepIH => exact ⟨inScope.1, stepIH closed inScope.2⟩
  | tyLam _ stepIH => exact stepIH closed inScope
  | tyFunction _ stepIH => exact ⟨stepIH closed inScope.1, inScope.2⟩

/-- Steps keep a term in scope. -/
theorem Steps.inScope {context : Context} {term next : Term} (steps : Steps context term next)
    (closed : context.Scoped) (inScope : term.InScope context) : next.InScope context := by
  induction steps with
  | refl => exact inScope
  | tail _ step inductionHypothesis => exact step.inScope closed inductionHypothesis

/-! ## Normalisation takes steps -/

/-- A defined variable unfolds to its definition, raised to its place. -/
theorem Context.unfolding?_of_definition {context : Context} {index : Nat}
    {entry : TermEntry Unit Ty Term} {definition : Term}
    (found : context[index]? = some (.term entry)) (stored : entry.definition = some definition) :
    context.unfolding? index = some (definition.lift (index + 1)) := by
  simp [Context.unfolding?, found, stored]

/-- What a term evaluates to it steps to. -/
theorem Evaluates.steps {range : IndexRange} {context : Context} {term normal : Term}
    (evaluates : Evaluates range context term normal) (closed : context.Scoped)
    (inScope : term.InScope context) : Steps context term normal := by
  induction evaluates with
  | assumed => exact .refl
  | @unfold context span index entry definition _ _ _ found stored measured shifted _ continuedIH =>
      cases (range.distance_computes index).eq_of_ok measured
      cases (Term.shift_computes_lift range _ definition).eq_of_ok shifted
      have unfolds := Context.unfolding?_of_definition found stored
      exact .head (.unfold unfolds) (continuedIH closed (closed.unfolding? unfolds))
  | lam _ bodyIH => exact Steps.lam (bodyIH (closed.pushTerm inScope.1) inScope.2)
  | @app _ span _ _ _ _ _ _ _ functionIH argumentIH =>
      exact Steps.app span (functionIH closed inScope.1) (argumentIH closed inScope.2)
  | @beta _ span _ _ _ _ _ normalArgument _ _ _ _ instantiated _ functionIH argumentIH
      continuedIH =>
      have functionSteps := functionIH closed inScope.1
      have argumentSteps := argumentIH closed inScope.2
      have bodyInScope := (functionSteps.inScope closed inScope.1).2
      cases (bodyInScope.instantiate_computes range normalArgument).eq_of_ok instantiated
      have contractedInScope := bodyInScope.bodyAt (argumentSteps.inScope closed inScope.2)
      have contraction := (Steps.app span functionSteps argumentSteps).tail .beta
      exact contraction.trans (continuedIH closed contractedInScope)
  | @tyLam context _ _ _ _ bodyIH =>
      have pushed : context.pushType.Scoped := closed
      exact Steps.tyLam (bodyIH pushed inScope)
  | @tyApp _ span _ argument _ _ _ functionIH =>
      exact Steps.tyApp span (functionIH closed inScope.1) argument
  | @tyBeta context span _ argument _ body _ _ _ instantiated _ functionIH continuedIH =>
      have functionSteps := functionIH closed inScope.1
      have bodyInScope : body.InScope context.pushType := functionSteps.inScope closed inScope.1
      cases (bodyInScope.instantiateType_computes range argument).eq_of_ok instantiated
      have contractedInScope := bodyInScope.bodyAtType inScope.2
      have contraction := (Steps.tyApp span functionSteps argument).tail .tyBeta
      exact contraction.trans (continuedIH closed contractedInScope)

/-- The normal form of a term has the type of the term, in every context that is
well formed. -/
theorem normalize_preserves_type {context : Context} {term normal : Term} {ty : Ty} {depth : Nat}
    (wellFormed : context.WellFormed .unlimited)
    (deduced : term.deduce .unlimited context = .ok ty)
    (normalized : term.normalize .unlimited depth context = .ok normal) :
    ∃ found, normal.deduce .unlimited context = .ok found ∧ found.Same ty := by
  have wellTyped := wellFormed.wellTyped
  have typed := Term.deduce_typed wellTyped.closed deduced
  have steps := (Term.normalize_evaluates normalized).steps wellTyped.closed typed.inScope
  exact (steps.typed wellTyped typed).deduce

/-- A type, a term of it, and the polymorphic identity, which is defined. -/
def identityContext : Context :=
  [.term ⟨(), .all ⟨0, 6⟩ (.arrow ⟨7, 13⟩ (.var ⟨7, 8⟩ 0) (.var ⟨12, 13⟩ 0)),
      some (.tyLam ⟨0, 20⟩ (.lam ⟨8, 20⟩ (.var ⟨15, 16⟩ 0) (.var ⟨18, 19⟩ 0)))⟩,
    .term ⟨(), .var ⟨30, 31⟩ 0, none⟩,
    .type ()]

/-- The identity at an arrow type, applied to itself at a type. -/
def identityTwice : Term :=
  .app ⟨0, 20⟩ (.tyApp ⟨0, 11⟩ (.var ⟨0, 2⟩ 0) (.arrow ⟨4, 10⟩ (.var ⟨4, 5⟩ 2) (.var ⟨9, 10⟩ 2)))
    (.tyApp ⟨13, 19⟩ (.var ⟨13, 15⟩ 0) (.var ⟨17, 18⟩ 2))

/-- Normalising `identityTwice` unfolds a definition twice, contracts both kinds of
redexes and ends under a binder. -/
theorem normalize_preserves_type_identity :
    identityContext.WellFormed .unlimited ∧
      identityTwice.deduce .unlimited identityContext =
        .ok (.arrow ⟨4, 10⟩ (.var ⟨4, 5⟩ 2) (.var ⟨9, 10⟩ 2)) ∧
      identityTwice.normalize .unlimited 6 identityContext =
        .ok (.lam ⟨8, 20⟩ (.var ⟨17, 18⟩ 2) (.var ⟨18, 19⟩ 0)) ∧
      ∃ found, Term.deduce .unlimited identityContext
          (.lam ⟨8, 20⟩ (.var ⟨17, 18⟩ 2) (.var ⟨18, 19⟩ 0)) = .ok found ∧
        found.Same (.arrow ⟨4, 10⟩ (.var ⟨4, 5⟩ 2) (.var ⟨9, 10⟩ 2)) := by
  have wellFormed : identityContext.WellFormed .unlimited := by decide
  have deduced : identityTwice.deduce .unlimited identityContext =
      .ok (.arrow ⟨4, 10⟩ (.var ⟨4, 5⟩ 2) (.var ⟨9, 10⟩ 2)) := rfl
  have normalized : identityTwice.normalize .unlimited 6 identityContext =
      .ok (.lam ⟨8, 20⟩ (.var ⟨17, 18⟩ 2) (.var ⟨18, 19⟩ 0)) := rfl
  exact ⟨wellFormed, deduced, normalized, normalize_preserves_type wellFormed deduced normalized⟩

end PolyLambda.Indexed
