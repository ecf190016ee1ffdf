import PolyLambda.Proofs.Typing
import PolyLambda.Reduction.Normalization

/-!
# Normalisation without a depth

`Evaluates` is the recursion of normalisation with nothing said about how deep it
goes. A term evaluates to a normal form exactly when some depth is enough to
normalise it, and then every greater depth is.
-/

namespace PolyLambda.Indexed

/-- A term is normalised by finitely many rules, in the order of the recursion. -/
inductive Evaluates (range : IndexRange) : Context → Term → Term → Prop
  | assumed {context span index entry} (found : context[index]? = some (.term entry))
      (assumed : entry.definition = none) :
      Evaluates range context (.var span index) (.var span index)
  | unfold {context span index entry definition distance unfolded normal}
      (found : context[index]? = some (.term entry)) (stored : entry.definition = some definition)
      (measured : range.distance index = .ok distance)
      (shifted : definition.shift range 0 distance = .ok unfolded)
      (continued : Evaluates range context unfolded normal) :
      Evaluates range context (.var span index) normal
  | lam {context span paramType body normalBody}
      (bodyEvaluates : Evaluates range (context.pushTerm paramType) body normalBody) :
      Evaluates range context (.lam span paramType body) (.lam span paramType normalBody)
  | app {context span function argument normalFunction normalArgument}
      (functionEvaluates : Evaluates range context function normalFunction)
      (argumentEvaluates : Evaluates range context argument normalArgument)
      (stuck : ∀ lamSpan paramType body, normalFunction ≠ .lam lamSpan paramType body) :
      Evaluates range context (.app span function argument)
        (.app span normalFunction normalArgument)
  | beta {context span function argument lamSpan paramType body normalArgument contracted normal}
      (functionEvaluates : Evaluates range context function (.lam lamSpan paramType body))
      (argumentEvaluates : Evaluates range context argument normalArgument)
      (instantiated : body.instantiate range normalArgument = .ok contracted)
      (continued : Evaluates range context contracted normal) :
      Evaluates range context (.app span function argument) normal
  | tyLam {context span body normalBody}
      (bodyEvaluates : Evaluates range context.pushType body normalBody) :
      Evaluates range context (.tyLam span body) (.tyLam span normalBody)
  | tyApp {context span function argument normalFunction}
      (functionEvaluates : Evaluates range context function normalFunction)
      (stuck : ∀ lamSpan body, normalFunction ≠ .tyLam lamSpan body) :
      Evaluates range context (.tyApp span function argument) (.tyApp span normalFunction argument)
  | tyBeta {context span function argument lamSpan body contracted normal}
      (functionEvaluates : Evaluates range context function (.tyLam lamSpan body))
      (instantiated : body.instantiateType range argument = .ok contracted)
      (continued : Evaluates range context contracted normal) :
      Evaluates range context (.tyApp span function argument) normal

/-- A term evaluates to the normal form that is computed for it. -/
theorem Term.normalize_evaluates {range : IndexRange} {depth : Nat} {context : Context}
    {term normal : Term} (normalized : term.normalize range depth context = .ok normal) :
    Evaluates range context term normal := by
  induction depth generalizing context term normal with
  | zero => cases normalized
  | succ depth depthIH =>
      cases term with
      | var span index =>
          simp only [Term.normalize, bind_eq_ok_iff, mapError_eq_ok_iff] at normalized
          obtain ⟨entry, lookup, rest⟩ := normalized
          have found := Context.lookupTerm_eq_ok_iff.mp lookup
          cases stored : entry.definition with
          | none =>
              rw [stored] at rest
              cases rest
              exact .assumed found stored
          | some definition =>
              simp only [stored, bind_eq_ok_iff, mapError_eq_ok_iff] at rest
              obtain ⟨distance, measured, unfolded, shifted, continued⟩ := rest
              exact .unfold found stored measured shifted (depthIH continued)
      | lam span paramType body =>
          simp only [Term.normalize, bind_eq_ok_iff] at normalized
          obtain ⟨normalBody, bodyNormalized, result⟩ := normalized
          cases result
          exact .lam (depthIH bodyNormalized)
      | app span function argument =>
          simp only [Term.normalize, bind_eq_ok_iff] at normalized
          obtain ⟨normalFunction, functionNormalized, normalArgument, argumentNormalized, rest⟩ :=
            normalized
          have functionEvaluates := depthIH functionNormalized
          have argumentEvaluates := depthIH argumentNormalized
          cases normalFunction with
          | lam lamSpan paramType body =>
              simp only [bind_eq_ok_iff, mapError_eq_ok_iff] at rest
              obtain ⟨contracted, instantiated, continued⟩ := rest
              exact .beta functionEvaluates argumentEvaluates instantiated (depthIH continued)
          | var | app | tyLam | tyApp =>
              cases rest
              exact .app functionEvaluates argumentEvaluates (by simp)
      | tyLam span body =>
          simp only [Term.normalize, bind_eq_ok_iff] at normalized
          obtain ⟨normalBody, bodyNormalized, result⟩ := normalized
          cases result
          exact .tyLam (depthIH bodyNormalized)
      | tyApp span function argument =>
          simp only [Term.normalize, bind_eq_ok_iff] at normalized
          obtain ⟨normalFunction, functionNormalized, rest⟩ := normalized
          have functionEvaluates := depthIH functionNormalized
          cases normalFunction with
          | tyLam lamSpan body =>
              simp only [bind_eq_ok_iff, mapError_eq_ok_iff] at rest
              obtain ⟨contracted, instantiated, continued⟩ := rest
              exact .tyBeta functionEvaluates instantiated (depthIH continued)
          | var | lam | app | tyApp =>
              cases rest
              exact .tyApp functionEvaluates (by simp)

/-- What holds from some depth on holds from one more than it on, where a rule has
been applied. -/
theorem exists_depth_succ {enough : Nat → Prop} (depth : Nat)
    (holds : ∀ deeper ≥ depth, enough (deeper + 1)) : ∃ depth, ∀ deeper ≥ depth, enough deeper := by
  refine ⟨depth + 1, ?_⟩
  intro deeper atLeast
  cases deeper with
  | zero => exact absurd atLeast (Nat.not_succ_le_zero depth)
  | succ deeper => exact holds deeper (Nat.le_of_succ_le_succ atLeast)

/-- A term that evaluates is normalised to every depth that is great enough. -/
theorem Evaluates.normalize {range : IndexRange} {context : Context} {term normal : Term}
    (evaluates : Evaluates range context term normal) :
    ∃ depth, ∀ deeper ≥ depth, term.normalize range deeper context = .ok normal := by
  induction evaluates with
  | @assumed context span index entry found assumed =>
      apply exists_depth_succ 0
      intro deeper _
      have lookup : context.lookupTerm span index = .ok entry :=
        Context.lookupTerm_eq_ok_iff.mpr found
      simp only [Term.normalize, bind_eq_ok_iff, mapError_eq_ok_iff]
      refine ⟨_, lookup, ?_⟩
      simp only [assumed]
      rfl
  | @unfold context span index entry _ _ _ _ found stored measured shifted _ continuedIH =>
      obtain ⟨depth, continued⟩ := continuedIH
      apply exists_depth_succ depth
      intro deeper enough
      have lookup : context.lookupTerm span index = .ok entry :=
        Context.lookupTerm_eq_ok_iff.mpr found
      simp only [Term.normalize, bind_eq_ok_iff, mapError_eq_ok_iff]
      refine ⟨_, lookup, ?_⟩
      simp only [stored, bind_eq_ok_iff, mapError_eq_ok_iff]
      exact ⟨_, measured, _, shifted, continued deeper enough⟩
  | lam _ bodyIH =>
      obtain ⟨depth, body⟩ := bodyIH
      apply exists_depth_succ depth
      intro deeper enough
      simp only [Term.normalize, bind_eq_ok_iff]
      exact ⟨_, body deeper enough, rfl⟩
  | @app _ _ _ _ normalFunction _ _ _ stuck functionIH argumentIH =>
      obtain ⟨functionDepth, function⟩ := functionIH
      obtain ⟨argumentDepth, argument⟩ := argumentIH
      apply exists_depth_succ (max functionDepth argumentDepth)
      intro deeper enough
      simp only [Term.normalize, bind_eq_ok_iff]
      refine ⟨_, function deeper (by omega), _, argument deeper (by omega), ?_⟩
      cases normalFunction with
      | lam lamSpan paramType body => exact absurd rfl (stuck lamSpan paramType body)
      | var | app | tyLam | tyApp => rfl
  | beta _ _ instantiated _ functionIH argumentIH continuedIH =>
      obtain ⟨functionDepth, function⟩ := functionIH
      obtain ⟨argumentDepth, argument⟩ := argumentIH
      obtain ⟨depth, continued⟩ := continuedIH
      apply exists_depth_succ (max depth (max functionDepth argumentDepth))
      intro deeper enough
      simp only [Term.normalize, bind_eq_ok_iff]
      refine ⟨_, function deeper (by omega), _, argument deeper (by omega), ?_⟩
      simp only [bind_eq_ok_iff, mapError_eq_ok_iff]
      exact ⟨_, instantiated, continued deeper (by omega)⟩
  | tyLam _ bodyIH =>
      obtain ⟨depth, body⟩ := bodyIH
      apply exists_depth_succ depth
      intro deeper enough
      simp only [Term.normalize, bind_eq_ok_iff]
      exact ⟨_, body deeper enough, rfl⟩
  | @tyApp _ _ _ _ normalFunction _ stuck functionIH =>
      obtain ⟨depth, function⟩ := functionIH
      apply exists_depth_succ depth
      intro deeper enough
      simp only [Term.normalize, bind_eq_ok_iff]
      refine ⟨_, function deeper enough, ?_⟩
      cases normalFunction with
      | tyLam lamSpan body => exact absurd rfl (stuck lamSpan body)
      | var | lam | app | tyApp => rfl
  | tyBeta _ instantiated _ functionIH continuedIH =>
      obtain ⟨functionDepth, function⟩ := functionIH
      obtain ⟨depth, continued⟩ := continuedIH
      apply exists_depth_succ (max depth functionDepth)
      intro deeper enough
      simp only [Term.normalize, bind_eq_ok_iff]
      refine ⟨_, function deeper (by omega), ?_⟩
      simp only [bind_eq_ok_iff, mapError_eq_ok_iff]
      exact ⟨_, instantiated, continued deeper (by omega)⟩

/-- A term evaluates to a normal form exactly if this is computed at some depth. -/
theorem evaluates_iff {range : IndexRange} {context : Context} {term normal : Term} :
    Evaluates range context term normal ↔
      ∃ depth, term.normalize range depth context = .ok normal := by
  constructor
  · intro evaluates
    obtain ⟨depth, normalized⟩ := evaluates.normalize
    exact ⟨depth, normalized depth (Nat.le_refl depth)⟩
  · rintro ⟨depth, normalized⟩
    exact Term.normalize_evaluates normalized

end PolyLambda.Indexed
