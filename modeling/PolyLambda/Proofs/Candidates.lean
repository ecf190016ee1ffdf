import PolyLambda.Proofs.Reduction

/-!
# Reducibility candidates

Every typed term terminates under `Step`, whichever step is taken. A type means a
set of terms that contains terminating terms only, is closed under steps, and
contains each term that is no abstraction as soon as it contains all that the term
steps to. A quantified type ranges over all such sets, which is what no measure on
terms could replace. Definitions need no extra care: a defined variable is no
abstraction, and its one step leads to its definition.
-/

namespace PolyLambda.Indexed

/-! ## Steps and substitution -/

/-- A substitution replaces each defined variable by a term that steps to the
definition. -/
def SubstUnfolds (types : TySubst) (terms : TermSubst) (source target : Context) : Prop :=
  ∀ {index definition}, source.unfolding? index = some definition →
    ∀ span, Step target (terms span index) (definition.substAll types terms)

namespace SubstUnfolds

variable {types : TySubst} {terms : TermSubst} {source target : Context}

/-- Under a binder without a definition there is nothing more to unfold. -/
theorem under (unfolds : SubstUnfolds types terms source target) {binding other : Binding}
    (undefined : Context.unfolding? (binding :: source) 0 = none) :
    SubstUnfolds types.under terms.under (binding :: source) (other :: target) := by
  intro index definition found span
  cases index with
  | zero =>
      rw [undefined] at found
      cases found
  | succ index =>
      rw [Context.unfolding?_cons_succ, Option.map_eq_some_iff] at found
      obtain ⟨below, found, rfl⟩ := found
      rw [Term.lift_substAll_under]
      exact (unfolds found span).rename (.up target other)

/-- Filling a binder without a definition leaves what unfolds as it is. -/
theorem cons (context : Context) {binding : Binding} (headType : Ty) (head : Term)
    (undefined : Context.unfolding? (binding :: context) 0 = none) :
    SubstUnfolds (.cons headType .var) (.cons head .var) (binding :: context) context := by
  intro index definition found span
  cases index with
  | zero =>
      rw [undefined] at found
      cases found
  | succ index =>
      rw [Context.unfolding?_cons_succ, Option.map_eq_some_iff] at found
      obtain ⟨below, found, rfl⟩ := found
      rw [Term.lift_substAll_cons, Term.substAll_var]
      exact .unfold found

end SubstUnfolds

/-- A step is carried along by a substitution that keeps what unfolds. -/
theorem Step.substAll {types : TySubst} {terms : TermSubst} {source target : Context}
    {term next : Term} (step : Step source term next)
    (unfolds : SubstUnfolds types terms source target) :
    Step target (term.substAll types terms) (next.substAll types terms) := by
  induction step generalizing types terms target with
  | unfold found => exact unfolds found _
  | beta =>
      rw [Term.bodyAt_substAll]
      exact .beta
  | tyBeta =>
      rw [Term.bodyAtType_substAll]
      exact .tyBeta
  | lam _ stepIH => exact .lam (stepIH (unfolds.under rfl))
  | function _ stepIH => exact .function (stepIH unfolds)
  | argument _ stepIH => exact .argument (stepIH unfolds)
  | tyLam _ stepIH => exact .tyLam (stepIH (unfolds.under rfl))
  | tyFunction _ stepIH => exact .tyFunction (stepIH unfolds)

/-- A step of a body is one of the contracted term. -/
theorem Step.bodyAt {context : Context} {paramType : Ty} {body next : Term}
    (step : Step (context.pushTerm paramType) body next) (argument : Term) :
    Step context (body.bodyAt argument) (next.bodyAt argument) :=
  step.substAll (SubstUnfolds.cons context .filler argument rfl)

/-- A step of a body is one of the term that is contracted at a type. -/
theorem Step.bodyAtType {context : Context} {body next : Term}
    (step : Step context.pushType body next) (argument : Ty) :
    Step context (body.bodyAtType argument) (next.bodyAtType argument) :=
  step.substAll (SubstUnfolds.cons context argument .filler rfl)

/-- Steps of what is substituted are steps of the result. -/
theorem Steps.substAll (types : TySubst) {terms others : TermSubst} {target : Context}
    (term : Term) (steps : ∀ span index, Steps target (terms span index) (others span index)) :
    Steps target (term.substAll types terms) (term.substAll types others) := by
  have under : ∀ {target : Context} {terms others : TermSubst} (binding : Binding),
      (∀ span index, Steps target (terms span index) (others span index)) →
      ∀ span index,
        Steps (binding :: target) (terms.under span index) (others.under span index) := by
    intro target terms others binding steps span index
    cases index with
    | zero => exact .refl
    | succ index => exact (steps span index).rename (.up target binding)
  induction term generalizing types terms others target with
  | var span index => exact steps span index
  | lam span paramType body bodyIH => exact Steps.lam (bodyIH types.under (under _ steps))
  | app span function argument functionIH argumentIH =>
      exact Steps.app span (functionIH types steps) (argumentIH types steps)
  | tyLam span body bodyIH => exact Steps.tyLam (bodyIH types.under (under _ steps))
  | tyApp span function argument functionIH => exact Steps.tyApp span (functionIH types steps) _

/-- A step of an argument gives steps of the contracted term. -/
theorem Steps.bodyAt {context : Context} (body : Term) {argument next : Term}
    (step : Step context argument next) :
    Steps context (body.bodyAt argument) (body.bodyAt next) := by
  apply Steps.substAll _ body
  intro span index
  cases index with
  | zero => exact .single step
  | succ index => exact .refl

/-! ## Termination of steps -/

/-- No infinite sequence of steps starts at the term. -/
def Terminates (context : Context) (term : Term) : Prop :=
  Acc (fun next term => Step context term next) term

namespace Terminates

variable {context : Context}

/-- What a terminating term steps to terminates. -/
theorem step {term next : Term} (terminates : Terminates context term)
    (step : Step context term next) : Terminates context next :=
  terminates.inv step

/-- A term terminates if an image of it does, whose steps include those of the term. -/
theorem ofImage {source target : Context} {term : Term} (image : Term → Term)
    (maps : ∀ {first second}, Step source first second → Step target (image first) (image second))
    (terminates : Terminates target (image term)) : Terminates source term := by
  have pulledBack := InvImage.accessible image terminates
  exact Subrelation.accessible maps pulledBack

/-- A function terminates if its body does. -/
theorem lam {span : Span} {paramType : Ty} {body : Term}
    (terminates : Terminates (context.pushTerm paramType) body) :
    Terminates context (.lam span paramType body) := by
  induction terminates with
  | intro body _ bodyIH =>
      apply Acc.intro
      intro next step
      cases step with
      | lam step => exact bodyIH _ step

/-- A polymorphic function terminates if its body does. -/
theorem tyLam {span : Span} {body : Term} (terminates : Terminates context.pushType body) :
    Terminates context (.tyLam span body) := by
  induction terminates with
  | intro body _ bodyIH =>
      apply Acc.intro
      intro next step
      cases step with
      | tyLam step => exact bodyIH _ step

end Terminates

/-! ## Candidates -/

/-- A term that is no abstraction, so that applying it makes no contraction possible. -/
def Term.Neutral : Term → Prop
  | .lam _ _ _ => False
  | .tyLam _ _ => False
  | _ => True

/-- A set of terms that types can stand for. -/
structure Candidate (context : Context) where
  Contains : Term → Prop
  terminates : ∀ {term}, Contains term → Terminates context term
  step : ∀ {term next}, Contains term → Step context term next → Contains next
  expand : ∀ {term}, term.Neutral → (∀ next, Step context term next → Contains next) →
    Contains term

namespace Candidate

variable {context : Context}

/-- A candidate contains what its members step to. -/
theorem steps (candidate : Candidate context) {term next : Term}
    (contained : candidate.Contains term) (steps : Steps context term next) :
    candidate.Contains next := by
  induction steps with
  | refl => exact contained
  | tail _ step inductionHypothesis => exact candidate.step inductionHypothesis step

/-- All terms that terminate. -/
def terminating (context : Context) : Candidate context where
  Contains := Terminates context
  terminates terminates := terminates
  step := Terminates.step
  expand _ after := .intro _ after

/-- An index beyond the context does not step, so every candidate contains it. -/
theorem contains_beyond (candidate : Candidate context) :
    candidate.Contains (.var default context.length) := by
  refine candidate.expand trivial ?_
  intro next step
  cases step with
  | unfold unfolds => simp [Context.unfolding?] at unfolds

/-- A term that applied to an argument in one candidate lies in another. -/
theorem contains_app (domain codomain : Candidate context) (span : Span) {function argument : Term}
    (neutral : function.Neutral)
    (after : ∀ next, Step context function next →
      ∀ argument, domain.Contains argument → codomain.Contains (.app span next argument))
    (contained : domain.Contains argument) : codomain.Contains (.app span function argument) := by
  have terminates := domain.terminates contained
  induction terminates with
  | intro argument _ argumentIH =>
      refine codomain.expand trivial ?_
      intro next step
      cases step with
      | beta => exact neutral.elim
      | function step => exact after _ step argument contained
      | argument step => exact argumentIH _ step (domain.step contained step)

/-- The terms that take arguments in one candidate to results in another. -/
def arrow (domain codomain : Candidate context) : Candidate context where
  Contains term := Terminates context term ∧
    ∀ span argument, domain.Contains argument → codomain.Contains (.app span term argument)
  terminates contained := contained.1
  step contained step := by
    constructor
    · exact contained.1.step step
    · intro span argument argumentContained
      exact codomain.step (contained.2 span argument argumentContained) (.function step)
  expand neutral after := by
    constructor
    · exact .intro _ fun next step => (after next step).1
    · intro span argument argumentContained
      have afterStep := fun next step => (after next step).2 span
      exact contains_app domain codomain span neutral afterStep argumentContained

/-- The terms that take every type to a result, whatever the type stands for. -/
def all (family : Candidate context → Candidate context) : Candidate context where
  Contains term := Terminates context term ∧
    ∀ span argument candidate, (family candidate).Contains (.tyApp span term argument)
  terminates contained := contained.1
  step contained step := by
    constructor
    · exact contained.1.step step
    · intro span argument candidate
      exact (family candidate).step (contained.2 span argument candidate) (.tyFunction step)
  expand {term} neutral after := by
    constructor
    · exact .intro _ fun next step => (after next step).1
    · intro span argument candidate
      refine (family candidate).expand trivial ?_
      intro next step
      cases step with
      | tyBeta => exact neutral.elim
      | tyFunction step => exact (after _ step).2 span argument candidate

/-- An application of an abstraction lies in a candidate when its contraction does. -/
theorem contains_beta (candidate : Candidate context) (span lamSpan : Span) (paramType : Ty)
    {body argument : Term} (bodyTerminates : Terminates (context.pushTerm paramType) body)
    (argumentTerminates : Terminates context argument)
    (contained : candidate.Contains (body.bodyAt argument)) :
    candidate.Contains (.app span (.lam lamSpan paramType body) argument) := by
  induction bodyTerminates generalizing argument with
  | intro body _ bodyIH =>
      induction argumentTerminates with
      | intro argument argumentAcc argumentIH =>
          refine candidate.expand trivial ?_
          intro next step
          cases step with
          | beta => exact contained
          | function step =>
              cases step with
              | lam step =>
                  exact bodyIH _ step (.intro _ argumentAcc)
                    (candidate.step contained (step.bodyAt argument))
          | argument step =>
              exact argumentIH _ step (candidate.steps contained (Steps.bodyAt body step))

@[inherit_doc contains_beta]
theorem contains_tyBeta (candidate : Candidate context) (span lamSpan : Span) (argument : Ty)
    {body : Term} (bodyTerminates : Terminates context.pushType body)
    (contained : candidate.Contains (body.bodyAtType argument)) :
    candidate.Contains (.tyApp span (.tyLam lamSpan body) argument) := by
  induction bodyTerminates with
  | intro body _ bodyIH =>
      refine candidate.expand trivial ?_
      intro next step
      cases step with
      | tyBeta => exact contained
      | tyFunction step =>
          cases step with
          | tyLam step => exact bodyIH _ step (candidate.step contained (step.bodyAtType argument))

/-- An abstraction lies in the candidate of functions when its body does at every
argument. -/
theorem contains_lam (domain codomain : Candidate context) (span : Span) (paramType : Ty)
    {body : Term}
    (bodies : ∀ argument, domain.Contains argument → codomain.Contains (body.bodyAt argument)) :
    (domain.arrow codomain).Contains (.lam span paramType body) := by
  have bodyTerminates : Terminates (context.pushTerm paramType) body := by
    have atVariable := codomain.terminates (bodies _ domain.contains_beyond)
    exact atVariable.ofImage (fun body => body.bodyAt _) fun step => step.bodyAt _
  constructor
  · exact bodyTerminates.lam
  · intro appSpan argument contained
    have argumentTerminates := domain.terminates contained
    exact codomain.contains_beta appSpan span paramType bodyTerminates argumentTerminates
      (bodies argument contained)

/-- A type abstraction lies in the candidate of a family when its body does at
every type. -/
theorem contains_tyLam (family : Candidate context → Candidate context) (span : Span) {body : Term}
    (bodies : ∀ argument candidate, (family candidate).Contains (body.bodyAtType argument)) :
    (all family).Contains (.tyLam span body) := by
  have bodyTerminates : Terminates context.pushType body := by
    have atFiller := (family (terminating context)).terminates (bodies .filler _)
    exact atFiller.ofImage (fun body => body.bodyAtType .filler) fun step => step.bodyAtType _
  constructor
  · exact bodyTerminates.tyLam
  · intro appSpan argument candidate
    exact (family candidate).contains_tyBeta appSpan span argument bodyTerminates
      (bodies argument candidate)

end Candidate

end PolyLambda.Indexed
