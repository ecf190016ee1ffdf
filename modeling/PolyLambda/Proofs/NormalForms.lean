import PolyLambda.Proofs.DeductionFailures
import PolyLambda.Proofs.Reduction

/-!
# The shape of normal forms

Normalisation ends in terms that apply no abstraction and use no definition, in any
context and whether they have a type or not, and it gives these terms back as they are.
A normal form can still be stuck: normalisation leaves a function applied to a type, or a
type abstraction applied to a term. Types exclude this, so that what is applied in the
normal form of a typed term is an assumed variable in the end.
-/

namespace PolyLambda.Indexed

/-! ## Normal terms -/

/-- The index denotes a term that is assumed and has no definition. -/
def Context.Assumes (context : Context) (index : Nat) : Prop :=
  ∃ entry, context[index]? = some (.term entry) ∧ entry.definition = none

/-- No abstraction is applied to what it abstracts over, and all variables are assumed. -/
inductive Normal : Context → Term → Prop
  | var {context span index} (assumed : context.Assumes index) :
      Normal context (.var span index)
  | lam {context span paramType body} (bodyNormal : Normal (context.pushTerm paramType) body) :
      Normal context (.lam span paramType body)
  | app {context span function argument} (functionNormal : Normal context function)
      (argumentNormal : Normal context argument)
      (stuck : ∀ lamSpan paramType body, function ≠ .lam lamSpan paramType body) :
      Normal context (.app span function argument)
  | tyLam {context span body} (bodyNormal : Normal context.pushType body) :
      Normal context (.tyLam span body)
  | tyApp {context span function argument} (functionNormal : Normal context function)
      (stuck : ∀ lamSpan body, function ≠ .tyLam lamSpan body) :
      Normal context (.tyApp span function argument)

/-- What a term evaluates to is normal. -/
theorem Evaluates.normal {range : IndexRange} {context : Context} {term normal : Term}
    (evaluates : Evaluates range context term normal) : Normal context normal := by
  induction evaluates with
  | assumed found assumed => exact .var ⟨_, found, assumed⟩
  | unfold _ _ _ _ _ continuedIH => exact continuedIH
  | lam _ bodyIH => exact .lam bodyIH
  | app _ _ stuck functionIH argumentIH => exact .app functionIH argumentIH stuck
  | beta _ _ _ _ _ _ continuedIH => exact continuedIH
  | tyLam _ bodyIH => exact .tyLam bodyIH
  | tyApp _ stuck functionIH => exact .tyApp functionIH stuck
  | tyBeta _ _ _ _ continuedIH => exact continuedIH

/-- The parts of a normal term are normal. -/
theorem Normal.parts {context : Context} {term : Term} (normal : Normal context term)
    {scope : Context} {part : Term} (member : (scope, part) ∈ term.parts context) :
    Normal scope part := by
  refine Term.forall_parts ?_ ?_ ?_ ?_ normal scope part member
  · rintro _ _ _ _ (_ | bodyNormal)
    exact bodyNormal
  · rintro _ _ _ _ (_ | _ | ⟨functionNormal, argumentNormal, _⟩)
    exact ⟨functionNormal, argumentNormal⟩
  · rintro _ _ _ (_ | _ | _ | bodyNormal)
    exact bodyNormal
  · rintro _ _ _ _ (_ | _ | _ | _ | ⟨functionNormal, _⟩)
    exact functionNormal

/-! ## Redexes -/

/-- Something can be done at the root of a term. -/
inductive Term.IsRedex (context : Context) : Term → Prop
  /-- A function is applied to a term. -/
  | app {span lamSpan paramType body argument} :
      IsRedex context (.app span (.lam lamSpan paramType body) argument)
  /-- A type abstraction is applied to a type. -/
  | tyApp {span lamSpan body argument} :
      IsRedex context (.tyApp span (.tyLam lamSpan body) argument)
  /-- A variable has a definition. -/
  | var {span index entry definition} (found : context[index]? = some (.term entry))
      (stored : entry.definition = some definition) :
      IsRedex context (.var span index)

/-- A normal term is no redex. -/
theorem Normal.not_isRedex {context : Context} {term : Term} (normal : Normal context term) :
    ¬ term.IsRedex context := by
  intro redex
  cases redex with
  | app =>
      cases normal with
      | app _ _ stuck => exact stuck _ _ _ rfl
  | tyApp =>
      cases normal with
      | tyApp _ stuck => exact stuck _ _ rfl
  | var found stored =>
      cases normal with
      | var assumed =>
          obtain ⟨entry, sameFound, undefined⟩ := assumed
          cases found.symm.trans sameFound
          cases stored.symm.trans undefined

/-! ## Normalising normal terms -/

/-- How deep the nodes of a term are nested. -/
def Term.depth : Term → Nat
  | .var _ _ => 1
  | .lam _ _ body => body.depth + 1
  | .app _ function argument => max function.depth argument.depth + 1
  | .tyLam _ body => body.depth + 1
  | .tyApp _ function _ => function.depth + 1

/-- A normal form is nested no deeper than the recursion that has found it. -/
theorem Term.depth_le_of_normalize {range : IndexRange} {depth : Nat} {context : Context}
    {term normal : Term} (normalized : term.normalize range depth context = .ok normal) :
    normal.depth ≤ depth := by
  induction depth generalizing context term normal with
  | zero => cases normalized
  | succ depth depthIH =>
      -- What a contraction or an unfolding goes on with is found one level deeper.
      have continued : ∀ {next : Term}, next.normalize range depth context = .ok normal →
          normal.depth ≤ depth + 1 :=
        fun normalized => Nat.le_succ_of_le (depthIH normalized)
      cases term with
      | var span index =>
          simp only [Term.normalize, bind_eq_ok_iff] at normalized
          obtain ⟨entry, _, rest⟩ := normalized
          cases stored : entry.definition with
          | none =>
              rw [stored] at rest
              cases rest
              exact Nat.le_add_left 1 depth
          | some definition =>
              simp only [stored, bind_eq_ok_iff] at rest
              obtain ⟨_, _, _, _, unfolded⟩ := rest
              exact continued unfolded
      | lam span paramType body =>
          simp only [Term.normalize, bind_eq_ok_iff] at normalized
          obtain ⟨normalBody, bodyNormalized, result⟩ := normalized
          cases result
          exact Nat.succ_le_succ (depthIH bodyNormalized)
      | app span function argument =>
          simp only [Term.normalize, bind_eq_ok_iff] at normalized
          obtain ⟨normalFunction, functionNormalized, normalArgument, argumentNormalized, rest⟩ :=
            normalized
          cases normalFunction with
          | lam lamSpan paramType body =>
              simp only [bind_eq_ok_iff] at rest
              obtain ⟨_, _, contracted⟩ := rest
              exact continued contracted
          | var | app | tyLam | tyApp =>
              cases rest
              have functionDepth := depthIH functionNormalized
              have argumentDepth := depthIH argumentNormalized
              exact Nat.succ_le_succ (Nat.max_le.mpr ⟨functionDepth, argumentDepth⟩)
      | tyLam span body =>
          simp only [Term.normalize, bind_eq_ok_iff] at normalized
          obtain ⟨normalBody, bodyNormalized, result⟩ := normalized
          cases result
          exact Nat.succ_le_succ (depthIH bodyNormalized)
      | tyApp span function argument =>
          simp only [Term.normalize, bind_eq_ok_iff] at normalized
          obtain ⟨normalFunction, functionNormalized, rest⟩ := normalized
          cases normalFunction with
          | tyLam lamSpan body =>
              simp only [bind_eq_ok_iff] at rest
              obtain ⟨_, _, contracted⟩ := rest
              exact continued contracted
          | var | lam | app | tyApp =>
              cases rest
              exact Nat.succ_le_succ (depthIH functionNormalized)

/-- A normal term is its own normal form. No index is computed to find it, so the range
of indices does not matter. -/
theorem Normal.normalize {context : Context} {term : Term} (normal : Normal context term)
    (range : IndexRange) {depth : Nat} (enough : term.depth ≤ depth) :
    term.normalize range depth context = .ok term := by
  induction depth generalizing context term with
  | zero => cases normal <;> exact absurd enough (Nat.not_succ_le_zero _)
  | succ depth depthIH =>
      cases normal with
      | @var _ span index assumed =>
          obtain ⟨entry, found, undefined⟩ := assumed
          have lookup : context.lookupTerm span index = .ok entry :=
            Context.lookupTerm_eq_ok_iff.mpr found
          simp only [Term.normalize, lookup, mapError_ok, undefined, bind, Except.bind, pure,
            Except.pure]
      | lam bodyNormal =>
          have bodyDepth := Nat.le_of_succ_le_succ enough
          simp only [Term.normalize, bind_eq_ok_iff]
          exact ⟨_, depthIH bodyNormal bodyDepth, rfl⟩
      | @app _ _ function _ functionNormal argumentNormal stuck =>
          obtain ⟨functionDepth, argumentDepth⟩ := Nat.max_le.mp (Nat.le_of_succ_le_succ enough)
          simp only [Term.normalize, bind_eq_ok_iff]
          refine ⟨_, depthIH functionNormal functionDepth, _,
            depthIH argumentNormal argumentDepth, ?_⟩
          cases function with
          | lam lamSpan paramType body => exact absurd rfl (stuck lamSpan paramType body)
          | var | app | tyLam | tyApp => rfl
      | tyLam bodyNormal =>
          have bodyDepth := Nat.le_of_succ_le_succ enough
          simp only [Term.normalize, bind_eq_ok_iff]
          exact ⟨_, depthIH bodyNormal bodyDepth, rfl⟩
      | @tyApp _ _ function _ functionNormal stuck =>
          have functionDepth := Nat.le_of_succ_le_succ enough
          simp only [Term.normalize, bind_eq_ok_iff]
          refine ⟨_, depthIH functionNormal functionDepth, ?_⟩
          cases function with
          | tyLam lamSpan body => exact absurd rfl (stuck lamSpan body)
          | var | lam | app | tyApp => rfl

/-- Nothing is left to do anywhere in a normal form, which is why normalising it again
gives it back, spans included, to the same depth and every greater one. -/
theorem normalize_ends_in_fixed_form {range : IndexRange} {depth : Nat} {context : Context}
    {term normal : Term} (normalized : term.normalize range depth context = .ok normal) :
    (∀ scope part, (scope, part) ∈ normal.parts context → ¬ part.IsRedex scope) ∧
      ∀ otherRange deeper, depth ≤ deeper →
        normal.normalize otherRange deeper context = .ok normal := by
  have isNormal := (Term.normalize_evaluates normalized).normal
  constructor
  · intro scope part member
    exact (isNormal.parts member).not_isRedex
  · intro otherRange deeper enough
    have normalDepth := Term.depth_le_of_normalize normalized
    exact isNormal.normalize otherRange (Nat.le_trans normalDepth enough)

/-- A function that applies the identity to its parameter and forgets the type argument. -/
def forgetfulIdentity : Term :=
  .lam ⟨0, 14⟩ (.var ⟨7, 8⟩ 2) (.app ⟨10, 14⟩ (.var ⟨10, 12⟩ 1) (.var ⟨13, 14⟩ 0))

/-- Under the parameter the identity is unfolded, and then nothing can be contracted. -/
def forgetfulNormalForm : Term :=
  .lam ⟨0, 14⟩ (.var ⟨7, 8⟩ 2)
    (.app ⟨10, 14⟩ (.tyLam ⟨0, 20⟩ (.lam ⟨8, 20⟩ (.var ⟨15, 16⟩ 0) (.var ⟨18, 19⟩ 0)))
      (.var ⟨13, 14⟩ 0))

/-- The term has no type, and the normal form applies a type abstraction to a term. -/
theorem normalize_ends_in_fixed_form_forgetful :
    forgetfulIdentity.normalize .standard 6 identityContext = .ok forgetfulNormalForm ∧
      (∀ scope part, (scope, part) ∈ forgetfulNormalForm.parts identityContext →
        ¬ part.IsRedex scope) ∧
      forgetfulNormalForm.normalize .standard 6 identityContext = .ok forgetfulNormalForm := by
  have normalized : forgetfulIdentity.normalize .standard 6 identityContext =
      .ok forgetfulNormalForm := rfl
  obtain ⟨noRedex, fixed⟩ := normalize_ends_in_fixed_form normalized
  exact ⟨normalized, noRedex, fixed .standard 6 (Nat.le_refl 6)⟩

/-! ## Normal forms of typed terms -/

/-- The parts of a typed term are typed. -/
theorem Typed.parts {context : Context} {term : Term} {ty : Ty} (typed : Typed context term ty)
    {scope : Context} {part : Term} (member : (scope, part) ∈ term.parts context) :
    ∃ partType, Typed scope part partType := by
  let HasType : Context → Term → Prop := fun scope part => ∃ ty, Typed scope part ty
  refine @Term.forall_parts HasType ?_ ?_ ?_ ?_ _ _ ⟨ty, typed⟩ scope part member
  · rintro _ span paramType body ⟨ty, typed⟩
    obtain ⟨_, _, _, bodyTyped, _⟩ := typed.generation
    exact ⟨_, bodyTyped⟩
  · rintro _ span function argument ⟨ty, typed⟩
    obtain ⟨_, _, _, functionTyped, argumentTyped, _⟩ := typed.generation
    exact ⟨⟨_, functionTyped⟩, ⟨_, argumentTyped⟩⟩
  · rintro _ span body ⟨ty, typed⟩
    obtain ⟨_, _, bodyTyped, _⟩ := typed.generation
    exact ⟨_, bodyTyped⟩
  · rintro _ span function argument ⟨ty, typed⟩
    obtain ⟨_, _, functionTyped, _⟩ := typed.generation
    exact ⟨_, functionTyped⟩

/-- What stands at the head of a chain of applications, to terms and to types. -/
def Term.head : Term → Term
  | .app _ function _ => function.head
  | .tyApp _ function _ => function.head
  | .var span index => .var span index
  | .lam span paramType body => .lam span paramType body
  | .tyLam span body => .tyLam span body

/-- Something is applied, to a term or to a type. -/
def Term.IsApplication : Term → Prop
  | .app _ _ _ => True
  | .tyApp _ _ _ => True
  | _ => False

/-- An assumed variable stands at the head of a term. -/
def Term.HeadAssumed (context : Context) (term : Term) : Prop :=
  ∃ span index, term.head = .var span index ∧ context.Assumes index

/-- Types and their canonical terms: functions for arrows and type abstractions for
quantified types. A type variable has none. -/
inductive Term.IsCanonical : Ty → Term → Prop
  | lam {span domain codomain lamSpan paramType body} :
      IsCanonical (.arrow span domain codomain) (.lam lamSpan paramType body)
  | tyLam {span bodyType lamSpan body} :
      IsCanonical (.all span bodyType) (.tyLam lamSpan body)

/-- A typed function is canonical for its type. -/
theorem Typed.lam_isCanonical {context : Context} {span : Span} {paramType ty : Ty} {body : Term}
    (typed : Typed context (.lam span paramType body) ty) :
    Term.IsCanonical ty (.lam span paramType body) := by
  obtain ⟨_, _, _, _, same⟩ := typed.generation
  obtain ⟨_, _, _, rfl, _, _⟩ := Ty.same_arrow_iff.mp same
  exact .lam

/-- A typed polymorphic function is canonical for its type. -/
theorem Typed.tyLam_isCanonical {context : Context} {span : Span} {ty : Ty} {body : Term}
    (typed : Typed context (.tyLam span body) ty) : Term.IsCanonical ty (.tyLam span body) := by
  obtain ⟨_, _, _, same⟩ := typed.generation
  obtain ⟨_, _, rfl, _⟩ := Ty.same_all_iff.mp same
  exact .tyLam

/-- A normal term with a type is canonical, unless an assumed variable stands at its
head. -/
theorem Typed.canonical_or_headAssumed {context : Context} {term : Term} {ty : Ty}
    (typed : Typed context term ty) (normal : Normal context term) :
    term.IsCanonical ty ∨ term.HeadAssumed context := by
  induction normal generalizing ty with
  | var assumed => exact .inr ⟨_, _, rfl, assumed⟩
  | lam => exact .inl typed.lam_isCanonical
  | app _ _ stuck functionIH =>
      obtain ⟨_, _, _, functionTyped, _, _⟩ := typed.generation
      rcases functionIH functionTyped with canonical | headAssumed
      · cases canonical with
        | lam => exact absurd rfl (stuck _ _ _)
      · exact .inr headAssumed
  | tyLam => exact .inl typed.tyLam_isCanonical
  | tyApp _ stuck functionIH =>
      obtain ⟨_, _, functionTyped, _, _⟩ := typed.generation
      rcases functionIH functionTyped with canonical | headAssumed
      · cases canonical with
        | tyLam => exact absurd rfl (stuck _ _)
      · exact .inr headAssumed

/-- A canonical term is no application. -/
theorem Term.IsCanonical.not_isApplication {ty : Ty} {term : Term}
    (canonical : term.IsCanonical ty) : ¬ term.IsApplication := by
  cases canonical <;> exact id

/-- Every chain of applications in the normal form of a typed term has an assumed variable
at its head. So where everything is defined, the normal form is a function if its type is
an arrow, a type abstraction if it is quantified, and it is never a type variable. -/
theorem typed_normal_form_never_stuck {range : IndexRange} {depth : Nat} {context : Context}
    {term normal : Term} {ty : Ty} (wellFormed : context.WellFormed range)
    (deduced : term.deduce range context = .ok ty)
    (normalized : term.normalize range depth context = .ok normal) :
    (∀ scope part, (scope, part) ∈ normal.parts context → part.IsApplication →
        part.HeadAssumed scope) ∧
      ((∀ entry, .term entry ∈ context → entry.definition ≠ none) → normal.IsCanonical ty) := by
  have wellTyped := wellFormed.wellTyped
  have typed := Term.deduce_typed wellTyped.closed deduced
  have evaluates := Term.normalize_evaluates normalized
  have normalTyped := (evaluates.steps wellTyped.closed typed.inScope).typed wellTyped typed
  constructor
  · intro scope part member isApplication
    obtain ⟨_, partTyped⟩ := normalTyped.parts member
    rcases partTyped.canonical_or_headAssumed (evaluates.normal.parts member) with
      canonical | headAssumed
    · exact absurd isApplication canonical.not_isApplication
    · exact headAssumed
  · intro allDefined
    rcases normalTyped.canonical_or_headAssumed evaluates.normal with canonical | headAssumed
    · exact canonical
    · obtain ⟨_, _, _, entry, found, undefined⟩ := headAssumed
      exact absurd undefined (allDefined entry (List.mem_of_getElem? found))

/-- The type of the identity. -/
def identityType : Ty :=
  .all ⟨0, 16⟩ (.arrow ⟨10, 16⟩ (.var ⟨10, 11⟩ 0) (.var ⟨15, 16⟩ 0))

/-- A type, an element of it, and an assumed term of the type of the identity. -/
def assumedContext : Context :=
  [.term ⟨(), identityType, none⟩, .term ⟨(), .var ⟨30, 31⟩ 0, none⟩, .type ()]

/-- A function that applies its parameter to a type and an element, applied to the assumed
term. -/
def appliedAssumption : Term :=
  .app ⟨0, 20⟩
    (.lam ⟨1, 15⟩ identityType
      (.app ⟨7, 14⟩ (.tyApp ⟨7, 12⟩ (.var ⟨7, 8⟩ 0) (.var ⟨10, 11⟩ 3)) (.var ⟨13, 14⟩ 2)))
    (.var ⟨17, 18⟩ 0)

/-- The identity, and nothing else. -/
def definedContext : Context :=
  [.term ⟨(), identityType,
    some (.tyLam ⟨0, 20⟩ (.lam ⟨8, 20⟩ (.var ⟨15, 16⟩ 0) (.var ⟨18, 19⟩ 0)))⟩]

/-- The identity at its own type, applied to itself. -/
def selfIdentity : Term :=
  .app ⟨0, 12⟩ (.tyApp ⟨0, 9⟩ (.var ⟨0, 2⟩ 0) identityType) (.var ⟨10, 12⟩ 0)

/-- With an assumption, the normal form is a chain with that assumption at its head. With
definitions only, the normal form of a quantified type is a type abstraction. -/
theorem typed_normal_form_never_stuck_identity :
    (∃ normal, appliedAssumption.normalize .standard 5 assumedContext = .ok normal ∧
      normal.IsApplication ∧ normal.HeadAssumed assumedContext) ∧
    ∃ normal, selfIdentity.normalize .standard 6 definedContext = .ok normal ∧
      normal.IsCanonical identityType := by
  constructor
  · have wellFormed : assumedContext.WellFormed .standard := by decide
    have deduced : appliedAssumption.deduce .standard assumedContext = .ok (.var ⟨10, 11⟩ 2) := rfl
    have normalized : appliedAssumption.normalize .standard 5 assumedContext =
        .ok (.app ⟨7, 14⟩ (.tyApp ⟨7, 12⟩ (.var ⟨17, 18⟩ 0) (.var ⟨10, 11⟩ 2)) (.var ⟨13, 14⟩ 1)) :=
      rfl
    obtain ⟨chains, _⟩ := typed_normal_form_never_stuck wellFormed deduced normalized
    exact ⟨_, normalized, trivial, chains _ _ (Term.mem_parts_self _ _) trivial⟩
  · have wellFormed : definedContext.WellFormed .standard := by decide
    have deduced : selfIdentity.deduce .standard definedContext = .ok identityType := rfl
    have normalized : selfIdentity.normalize .standard 6 definedContext =
        .ok (.tyLam ⟨0, 20⟩ (.lam ⟨8, 20⟩ (.var ⟨15, 16⟩ 0) (.var ⟨18, 19⟩ 0))) := rfl
    obtain ⟨_, canonical⟩ := typed_normal_form_never_stuck wellFormed deduced normalized
    refine ⟨_, normalized, canonical ?_⟩
    intro entry member undefined
    cases List.mem_singleton.mp member
    cases undefined

end PolyLambda.Indexed
