import PolyLambda.Proofs.Candidates
import PolyLambda.Proofs.TypeMeaning

/-!
# Normalisation terminates

A typed term lies in what its type means, so it terminates under `Step`. From
there to the recursion of `normalize` it is a structural argument: the recursion
enters subterms, whose steps are steps of the whole term, or goes on with a term
that at least one step has been taken to. Main statement: in a well-formed context
every term that deduces a type has a normal form, which a bounded depth reaches.
-/

namespace PolyLambda.Indexed

open Relation (TransGen)

/-! ## What types mean -/

/-- Types are read as candidates. -/
def Candidate.reading (context : Context) : Reading (Candidate context) where
  arrow := Candidate.arrow
  all := Candidate.all

/-! ## Typed terms lie in what their types mean -/

/-- A substitution replaces each term variable by a term in what its type means. -/
def Realizes {target : Context} (assignment : Assignment (Candidate target)) (terms : TermSubst)
    (source : Context) : Prop :=
  ∀ index ty, source.termType? index = some ty →
    ∀ span, (ty.read (Candidate.reading target) assignment).Contains (terms span index)

namespace Realizes

variable {source target : Context} {assignment : Assignment (Candidate target)} {terms : TermSubst}

/-- Terms that realize a context go on doing so with an argument for a parameter. -/
theorem consTerm (realizes : Realizes assignment terms source) (paramType : Ty)
    (candidate : Candidate target) {argument : Term}
    (contained : (paramType.read (Candidate.reading target) assignment).Contains argument) :
    Realizes (assignment.cons candidate) (terms.cons argument) (source.pushTerm paramType) := by
  intro index ty recorded span
  cases index with
  | zero =>
      cases recorded
      rw [Ty.read_lift_cons]
      exact contained
  | succ index =>
      rw [Context.pushTerm, Context.termType?_cons_succ, Option.map_eq_some_iff] at recorded
      obtain ⟨below, recorded, rfl⟩ := recorded
      rw [Ty.read_lift_cons]
      exact realizes index below recorded span

/-- Terms that realize a context go on doing so with any candidate for a type binder. -/
theorem consType (realizes : Realizes assignment terms source) (candidate : Candidate target)
    (filler : Term) :
    Realizes (assignment.cons candidate) (terms.cons filler) source.pushType := by
  intro index ty recorded span
  cases index with
  | zero => cases recorded
  | succ index =>
      rw [Context.pushType, Context.termType?_cons_succ, Option.map_eq_some_iff] at recorded
      obtain ⟨below, recorded, rfl⟩ := recorded
      rw [Ty.read_lift_cons]
      exact realizes index below recorded span

end Realizes

/-- A typed term is contained in the meaning of its type, whatever realizes its context. -/
theorem Typed.contained {source target : Context} {term : Term} {ty : Ty}
    (typed : Typed source term ty) (types : TySubst) {terms : TermSubst}
    {assignment : Assignment (Candidate target)} (realizes : Realizes assignment terms source) :
    (ty.read (Candidate.reading target) assignment).Contains (term.substAll types terms) := by
  induction typed generalizing types terms assignment with
  | var recorded => exact realizes _ _ recorded _
  | lam _ _ bodyIH =>
      apply Candidate.contains_lam _ _ _ _
      intro argument contained
      rw [Term.substAll_under_bodyAt]
      have bodyContained := bodyIH (types.cons .filler)
        (realizes.consTerm _ (.terminating target) contained)
      rw [Ty.read_lift_cons] at bodyContained
      exact bodyContained
  | app _ _ functionIH argumentIH =>
      have functionContained := functionIH types realizes
      have argumentContained := argumentIH types realizes
      exact functionContained.2 _ _ argumentContained
  | tyLam _ bodyIH =>
      apply Candidate.contains_tyLam _ _
      intro argument candidate
      rw [Term.substAll_under_bodyAtType]
      exact bodyIH (types.cons argument) (realizes.consType candidate .filler)
  | tyApp _ _ functionIH =>
      rw [Ty.read_bodyAt]
      have functionContained := functionIH types realizes
      exact functionContained.2 _ _ _
  | same _ same inductionHypothesis =>
      rw [← same.read (Candidate.reading target) assignment]
      exact inductionHypothesis types realizes

/-- Variables lie in what their types mean: an assumed one because it does not
step, a defined one because its definition does, which has its type further down in
the context. -/
theorem Context.WellTyped.realizes {context below : Context} (wellTyped : below.WellTyped)
    {offset : Nat} (suffix : context.drop offset = below) (candidate : Candidate context) :
    Realizes (fun _ => candidate) (fun span index => .var span (index + offset)) below := by
  induction below generalizing offset with
  | nil =>
      intro index ty recorded
      cases recorded
  | cons binding rest restIH =>
      have restTyped := wellTyped.tail
      have restSuffix : context.drop (offset + 1) = rest := by
        rw [← List.drop_drop, suffix]
        rfl
      have restRealizes := restIH restTyped restSuffix
      have here : context[offset]? = some binding := by
        have head := congrArg (fun entries => entries[0]?) suffix
        simpa using head
      intro index ty recorded span
      cases index with
      | succ index =>
          rw [Context.termType?_cons_succ, Option.map_eq_some_iff] at recorded
          obtain ⟨found, recorded, rfl⟩ := recorded
          have contained := restRealizes index found recorded span
          have position : index + 1 + offset = index + (offset + 1) := by omega
          rw [Ty.lift, Ty.read_rename]
          simpa only [position] using contained
      | zero =>
          cases binding with
          | type name => cases recorded
          | term entry =>
              cases recorded
              rw [Ty.lift, Ty.read_rename]
              simp only [Nat.zero_add]
              refine Candidate.expand _ trivial ?_
              intro next step
              cases step with
              | unfold unfolds =>
                  simp only [Context.unfolding?, here, Option.map_eq_some_iff] at unfolds
                  obtain ⟨definition, stored, rfl⟩ := unfolds
                  have typed := wellTyped.2.1 definition stored
                  have contained := typed.contained
                    (fun span index => .var span (index + (offset + 1))) restRealizes
                  rw [Term.lift, Term.rename_eq_substAll]
                  exact contained

/-- Every sequence of steps from a typed term ends. -/
theorem Typed.terminates {context : Context} {term : Term} {ty : Ty} (typed : Typed context term ty)
    (wellTyped : context.WellTyped) : Terminates context term := by
  have realizes := wellTyped.realizes (List.drop_zero) (.terminating context)
  have contained := typed.contained .var realizes
  rw [show (fun span index => Term.var span (index + 0)) = .var from rfl, Term.substAll_var]
    at contained
  exact Candidate.terminates _ contained

/-! ## From steps to the recursion -/

/-- The term has a normal form. -/
def Normalizes (context : Context) (term : Term) : Prop :=
  ∃ normal, Evaluates .unlimited context term normal

namespace Normalizes

variable {context : Context} {span : Span}

/-- Where a function has a normal form its body has one. -/
theorem lamBody {paramType : Ty} {body : Term}
    (normalizes : Normalizes context (.lam span paramType body)) :
    Normalizes (context.pushTerm paramType) body := by
  obtain ⟨normal, evaluates⟩ := normalizes
  cases evaluates with
  | lam bodyEvaluates => exact ⟨_, bodyEvaluates⟩

/-- Where an application has a normal form both its sides have one. -/
theorem appParts {function argument : Term}
    (normalizes : Normalizes context (.app span function argument)) :
    Normalizes context function ∧ Normalizes context argument := by
  obtain ⟨normal, evaluates⟩ := normalizes
  cases evaluates with
  | app functionEvaluates argumentEvaluates =>
      exact ⟨⟨_, functionEvaluates⟩, ⟨_, argumentEvaluates⟩⟩
  | beta functionEvaluates argumentEvaluates =>
      exact ⟨⟨_, functionEvaluates⟩, ⟨_, argumentEvaluates⟩⟩

/-- Where a polymorphic function has a normal form its body has one. -/
theorem tyLamBody {body : Term} (normalizes : Normalizes context (.tyLam span body)) :
    Normalizes context.pushType body := by
  obtain ⟨normal, evaluates⟩ := normalizes
  cases evaluates with
  | tyLam bodyEvaluates => exact ⟨_, bodyEvaluates⟩

/-- Where an application to a type has a normal form its function has one. -/
theorem tyAppFunction {function : Term} {argument : Ty}
    (normalizes : Normalizes context (.tyApp span function argument)) :
    Normalizes context function := by
  obtain ⟨normal, evaluates⟩ := normalizes
  cases evaluates with
  | tyApp functionEvaluates => exact ⟨_, functionEvaluates⟩
  | tyBeta functionEvaluates => exact ⟨_, functionEvaluates⟩

/-- A variable normalises when what it unfolds to does. -/
theorem var {index : Nat} (bound : (context.termType? index).isSome)
    (unfolded : ∀ {definition}, context.unfolding? index = some definition →
      Normalizes context definition) : Normalizes context (.var span index) := by
  obtain ⟨ty, recorded⟩ := Option.isSome_iff_exists.mp bound
  obtain ⟨entry, found, _⟩ := Context.termType?_eq_some_iff.mp recorded
  cases stored : entry.definition with
  | none => exact ⟨_, .assumed found stored⟩
  | some definition =>
      have measured := (IndexRange.unlimited.distance_computes index).ofUnlimited
      have shifted := (Term.shift_computes_lift .unlimited (index + 1) definition).ofUnlimited
      obtain ⟨normal, continued⟩ := unfolded (Context.unfolding?_of_definition found stored)
      exact ⟨normal, .unfold found stored measured shifted continued⟩

/-- An application normalises when both sides do, and when what their normal
forms contract to does. -/
theorem app {function argument : Term} (closed : context.Scoped)
    (inScope : (Term.app span function argument).InScope context)
    (functionNormalizes : Normalizes context function)
    (argumentNormalizes : Normalizes context argument)
    (contracted : ∀ next, TransGen (Step context) (.app span function argument) next →
      Normalizes context next) : Normalizes context (.app span function argument) := by
  obtain ⟨normalFunction, functionEvaluates⟩ := functionNormalizes
  obtain ⟨normalArgument, argumentEvaluates⟩ := argumentNormalizes
  have functionSteps := functionEvaluates.steps closed inScope.1
  have argumentSteps := argumentEvaluates.steps closed inScope.2
  cases normalFunction with
  | lam lamSpan paramType body =>
      have bodyInScope := (functionSteps.inScope closed inScope.1).2
      have instantiated :=
        (bodyInScope.instantiate_computes .unlimited normalArgument).ofUnlimited
      have steps : TransGen (Step context) (.app span function argument)
          (body.bodyAt normalArgument) :=
        .tail' (Steps.app span functionSteps argumentSteps) .beta
      obtain ⟨normal, continued⟩ := contracted _ steps
      exact ⟨normal, .beta functionEvaluates argumentEvaluates instantiated continued⟩
  | var | app | tyLam | tyApp => exact ⟨_, .app functionEvaluates argumentEvaluates nofun⟩

/-- An application to a type normalises when its function does, and when what the
normal form contracts to does. -/
theorem tyApp {function : Term} {argument : Ty} (closed : context.Scoped)
    (inScope : (Term.tyApp span function argument).InScope context)
    (functionNormalizes : Normalizes context function)
    (contracted : ∀ next, TransGen (Step context) (.tyApp span function argument) next →
      Normalizes context next) : Normalizes context (.tyApp span function argument) := by
  obtain ⟨normalFunction, functionEvaluates⟩ := functionNormalizes
  have functionSteps := functionEvaluates.steps closed inScope.1
  cases normalFunction with
  | tyLam lamSpan body =>
      have bodyInScope : body.InScope context.pushType := functionSteps.inScope closed inScope.1
      have instantiated := (bodyInScope.instantiateType_computes .unlimited argument).ofUnlimited
      have steps : TransGen (Step context) (.tyApp span function argument)
          (body.bodyAtType argument) :=
        .tail' (Steps.tyApp span functionSteps argument) .tyBeta
      obtain ⟨normal, continued⟩ := contracted _ steps
      exact ⟨normal, .tyBeta functionEvaluates instantiated continued⟩
  | var | lam | app | tyApp => exact ⟨_, .tyApp functionEvaluates nofun⟩

end Normalizes

/-- If everything that a typed term steps to normalises, so does the term. -/
theorem Typed.normalizes_of_later {context : Context} {term : Term} {ty : Ty}
    (typed : Typed context term ty) (wellTyped : context.WellTyped)
    (later : ∀ next, TransGen (Step context) term next → Normalizes context next) :
    Normalizes context term := by
  induction term generalizing context ty with
  | var span index =>
      exact Normalizes.var typed.inScope fun unfolds => later _ (.single (.unfold unfolds))
  | lam span paramType body bodyIH =>
      obtain ⟨_, _, inScope, bodyTyped, _⟩ := typed.generation
      have bodyLater : ∀ next, TransGen (Step (context.pushTerm paramType)) body next →
          Normalizes (context.pushTerm paramType) next := by
        intro next steps
        have wholeSteps := TransGen.lift (Term.lam span paramType) (fun _ _ => Step.lam) _ _ steps
        exact (later _ wholeSteps).lamBody
      obtain ⟨normal, evaluates⟩ := bodyIH bodyTyped (wellTyped.pushTerm inScope) bodyLater
      exact ⟨_, .lam evaluates⟩
  | app span function argument functionIH argumentIH =>
      obtain ⟨_, _, _, functionTyped, argumentTyped, _⟩ := typed.generation
      have functionNormalizes := functionIH functionTyped wellTyped (by
        intro next steps
        have wholeSteps := TransGen.lift (fun function => Term.app span function argument)
          (fun _ _ => Step.function) _ _ steps
        exact (later _ wholeSteps).appParts.1)
      have argumentNormalizes := argumentIH argumentTyped wellTyped (by
        intro next steps
        have wholeSteps :=
          TransGen.lift (Term.app span function) (fun _ _ => Step.argument) _ _ steps
        exact (later _ wholeSteps).appParts.2)
      exact Normalizes.app wellTyped.closed typed.inScope functionNormalizes argumentNormalizes
        later
  | tyLam span body bodyIH =>
      obtain ⟨_, _, bodyTyped, _⟩ := typed.generation
      have bodyLater : ∀ next, TransGen (Step context.pushType) body next →
          Normalizes context.pushType next := by
        intro next steps
        have wholeSteps := TransGen.lift (Term.tyLam span) (fun _ _ => Step.tyLam) _ _ steps
        exact (later _ wholeSteps).tyLamBody
      have pushed : context.pushType.WellTyped := wellTyped
      obtain ⟨normal, evaluates⟩ := bodyIH bodyTyped pushed bodyLater
      exact ⟨_, .tyLam evaluates⟩
  | tyApp span function argument functionIH =>
      obtain ⟨_, _, functionTyped, _, _⟩ := typed.generation
      have functionNormalizes := functionIH functionTyped wellTyped (by
        intro next steps
        have wholeSteps := TransGen.lift (fun function => Term.tyApp span function argument)
          (fun _ _ => Step.tyFunction) _ _ steps
        exact (later _ wholeSteps).tyAppFunction)
      exact Normalizes.tyApp wellTyped.closed typed.inScope functionNormalizes later

/-- A typed term that terminates under steps normalises, and so does everything it
steps to. -/
theorem Terminates.normalizes {context : Context} {term next : Term} {ty : Ty}
    (terminates : Terminates context term) (wellTyped : context.WellTyped)
    (typed : Typed context term ty) (steps : Steps context term next) :
    Normalizes context next := by
  induction terminates generalizing next with
  | intro term _ termIH =>
      have later : ∀ next, TransGen (Step context) term next → Normalizes context next := by
        intro next steps
        obtain ⟨middle, first, rest⟩ := TransGen.head'_iff.mp steps
        exact termIH middle first (first.typed wellTyped typed) rest
      rcases Relation.reflTransGen_iff_eq_or_transGen.mp steps with rfl | steps
      · exact typed.normalizes_of_later wellTyped later
      · exact later next steps

/-- Normalisation ends, with a normal form, on every term that deduces a type in a
well-formed context. -/
theorem normalize_terminates {context : Context} {term : Term} {ty : Ty}
    (wellFormed : context.WellFormed .unlimited)
    (deduced : term.deduce .unlimited context = .ok ty) :
    ∃ depth normal, ∀ deeper ≥ depth, term.normalize .unlimited deeper context = .ok normal := by
  have wellTyped := wellFormed.wellTyped
  have typed := Term.deduce_typed wellTyped.closed deduced
  obtain ⟨normal, evaluates⟩ := (typed.terminates wellTyped).normalizes wellTyped typed .refl
  obtain ⟨depth, normalized⟩ := evaluates.normalize
  exact ⟨depth, normal, normalized⟩

/-- The identity, twice unfolded and applied at an arrow type, has a normal form. -/
theorem normalize_terminates_identity :
    identityContext.WellFormed .unlimited ∧
      identityTwice.deduce .unlimited identityContext =
        .ok (.arrow ⟨4, 10⟩ (.var ⟨4, 5⟩ 2) (.var ⟨9, 10⟩ 2)) ∧
      ∃ depth normal, ∀ deeper ≥ depth,
        identityTwice.normalize .unlimited deeper identityContext = .ok normal := by
  have wellFormed : identityContext.WellFormed .unlimited := by decide
  have deduced : identityTwice.deduce .unlimited identityContext =
      .ok (.arrow ⟨4, 10⟩ (.var ⟨4, 5⟩ 2) (.var ⟨9, 10⟩ 2)) := rfl
  exact ⟨wellFormed, deduced, normalize_terminates wellFormed deduced⟩

end PolyLambda.Indexed
