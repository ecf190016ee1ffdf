import PolyLambda.Proofs.DeductionFailures
import PolyLambda.Proofs.IndexBounds

/-!
# Heights of the trees that are met

The height of a tree in a context is the greatest number of binders around one of
its places, those of the context included. This module lists the heights of all
trees that deduction and normalisation come to. If the range admits each of them as
a distance, then deduction and normalisation compute what they compute without a
limit, and no index arithmetic fails.
-/

namespace PolyLambda.Indexed

/-- The greatest number of binders around a place of a type in a context. -/
def Ty.height (context : Context) (ty : Ty) : Nat :=
  context.length + ty.nesting

/-- The greatest number of binders around a place of a term in a context. -/
def Term.height (context : Context) (term : Term) : Nat :=
  context.length + term.nesting

/-! ## Deduction -/

/-- The height of a term, and that of its type if it has one. -/
def Term.ownHeights (context : Context) (term : Term) : List Nat :=
  match term.deduce .unlimited context with
  | .ok ty => [term.height context, ty.height context]
  | .error _ => [term.height context]

/-- The heights of all trees that deduction comes to: the parts of the term, and
their types. -/
def Term.deductionHeights (context : Context) (term : Term) : List Nat :=
  (term.parts context).flatMap fun (scope, part) => part.ownHeights scope

/-- The height of a term is listed among its own. -/
theorem Term.height_mem_ownHeights (context : Context) (term : Term) :
    term.height context ∈ term.ownHeights context := by
  unfold Term.ownHeights
  split <;> simp

/-- The height of the type of a term is listed among its own. -/
theorem Term.type_height_mem_ownHeights {context : Context} {term : Term} {ty : Ty}
    (deduced : term.deduce .unlimited context = .ok ty) :
    ty.height context ∈ term.ownHeights context := by
  simp [Term.ownHeights, deduced]

/-- The range has room for all trees that deduction comes to. -/
def Term.DeducesWithin (range : IndexRange) (context : Context) (term : Term) : Prop :=
  ∀ height ∈ term.deductionHeights context, range.AdmitsDistance height

/-- There is room for a deduction exactly if there is room for each part and its type. -/
theorem Term.deducesWithin_iff {range : IndexRange} {context : Context} {term : Term} :
    term.DeducesWithin range context ↔ ∀ scope part, (scope, part) ∈ term.parts context →
      ∀ height ∈ part.ownHeights scope, range.AdmitsDistance height := by
  simp only [Term.DeducesWithin, Term.deductionHeights, List.mem_flatMap, Prod.exists]
  constructor
  · intro within scope part member height own
    exact within height ⟨scope, part, member, own⟩
  · rintro within height ⟨scope, part, member, own⟩
    exact within scope part member height own

/-- Where there is room for a term, there is room for its parts. -/
theorem Term.DeducesWithin.part {range : IndexRange} {context scope : Context} {term part : Term}
    (within : term.DeducesWithin range context)
    (parts : ∀ place ∈ part.parts scope, place ∈ term.parts context) :
    part.DeducesWithin range scope := by
  rw [Term.deducesWithin_iff] at *
  intro inner piece member
  exact within inner piece (parts _ member)

/-- Where there is room for a deduction there is room for the term itself. -/
theorem Term.DeducesWithin.height {range : IndexRange} {context : Context} {term : Term}
    (within : term.DeducesWithin range context) : range.AdmitsDistance (term.height context) :=
  Term.deducesWithin_iff.mp within context term (Term.mem_parts_self context term) _
    (Term.height_mem_ownHeights context term)

/-- Where there is room for a deduction there is room for the type that it finds. -/
theorem Term.DeducesWithin.type_height {range : IndexRange} {context : Context} {term : Term}
    {ty : Ty} (within : term.DeducesWithin range context)
    (deduced : term.deduce .unlimited context = .ok ty) :
    range.AdmitsDistance (ty.height context) :=
  Term.deducesWithin_iff.mp within context term (Term.mem_parts_self context term) _
    (Term.type_height_mem_ownHeights deduced)

/-- A representable difference is a representable index. -/
theorem IndexRange.AdmitsDistance.admits {range : IndexRange} {value : Nat}
    (admitted : range.AdmitsDistance value) : range.Admits value :=
  (admitted.add admitted).mono (Nat.le_add_right value value)

/-- A distance is measured where it is a representable difference. -/
theorem IndexRange.distance_eq_ok {range : IndexRange} {index : Nat}
    (admitted : range.AdmitsDistance (index + 1)) : range.distance index = .ok (index + 1) := by
  have counted := (range.succ_overflowsUnless index).eq_ok admitted.admits
  simp only [IndexRange.distance, counted, ok_bind, if_pos admitted]

/-- An argument in scope can be taken to every place of a body, if the range has room
for both. -/
theorem Ty.InScope.admittedUnder {range : IndexRange} {context : Context} {argument : Ty}
    (inScope : argument.InScope context) {nesting : Nat}
    (bodyRoom : range.AdmitsDistance (context.length + nesting))
    (argumentRoom : range.AdmitsDistance (argument.height context)) :
    argument.AdmittedUnder range nesting := by
  intro amount within
  apply inScope.lift_admitted
  have both := bodyRoom.add argumentRoom
  exact both.mono (by unfold Ty.height; omega)

@[inherit_doc Ty.InScope.admittedUnder]
theorem Term.InScope.admittedUnder {range : IndexRange} {context : Context} {argument : Term}
    (inScope : argument.InScope context) {nesting : Nat}
    (bodyRoom : range.AdmitsDistance (context.length + nesting))
    (argumentRoom : range.AdmitsDistance (argument.height context)) :
    argument.AdmittedUnder range nesting := by
  intro amount within
  apply inScope.lift_admitted
  have both := bodyRoom.add argumentRoom
  exact both.mono (by unfold Term.height; omega)

/-- A variable has its recorded type, moved to its place, where there is room for both. -/
theorem Term.deduce_var_eq_ok {range : IndexRange} {context : Context} {index : Nat} {ty : Ty}
    (span : Span) (recorded : context.termType? index = some ty)
    (near : range.AdmitsDistance (index + 1)) (admitted : ty.Admitted range)
    (counts : range.Counts 0 ty.nesting) :
    (Term.var span index).deduce range context = .ok ty := by
  obtain ⟨entry, found, rfl⟩ := Context.termType?_eq_some_iff.mp recorded
  rw [Ty.nesting_lift] at counts
  simp only [Term.deduce, bind_eq_ok_iff, mapError_eq_ok_iff]
  exact ⟨entry, Context.lookupTerm_eq_ok_iff.mpr found, index + 1,
    IndexRange.distance_eq_ok near, (Ty.lift_overflowsUnless admitted).eq_ok counts⟩

/-- With room for all trees on the way, deduction is what it is without a limit. -/
theorem Term.deduce_eq_unlimited {range : IndexRange} {context : Context} {term : Term}
    (closed : context.Scoped) (inScope : term.InScope context)
    (within : term.DeducesWithin range context) :
    term.deduce range context = term.deduce .unlimited context := by
  induction term generalizing context with
  | var span index =>
      obtain ⟨ty, recorded⟩ := Option.isSome_iff_exists.mp inScope
      have tyInScope := closed.termType? recorded
      have unlimited : (Term.var span index).deduce .unlimited context = .ok ty :=
        Term.deduce_var_eq_ok span recorded trivial (tyInScope.admitted trivial) (.inr trivial)
      have inside := Context.lt_length_of_termType? inScope
      have room := (within.type_height unlimited).admits
      rw [unlimited]
      exact Term.deduce_var_eq_ok span recorded (within.height.mono inside)
        (tyInScope.admitted room) (room.counts.of_le (Nat.zero_le _))
  | lam span paramType body bodyIH =>
      have bodyWithin : body.DeducesWithin range (context.pushTerm paramType) :=
        within.part fun _ member => List.mem_cons_of_mem _ member
      have pushed := closed.pushTerm inScope.1
      simp only [Term.deduce, bodyIH pushed inScope.2 bodyWithin]
      cases bodyDeduced : body.deduce .unlimited (context.pushTerm paramType) with
      | error error => rfl
      | ok bodyType =>
          have bodyTypeInScope := (Term.deduce_typed pushed bodyDeduced).ty_inScope pushed
          have room := (bodyWithin.type_height bodyDeduced).admits
          have counts : range.Counts 1 bodyType.nesting := room.counts.of_le (Nat.le_add_left 1 _)
          have lowered := (bodyTypeInScope.admitted room).down_overflowsUnless.eq_ok counts
          have unlimited := (Ty.shift_computes_down .unlimited bodyType).ofUnlimited
          simp only [bind, Except.bind, lowered, unlimited]
  | app span function argument functionIH argumentIH =>
      have functionWithin : function.DeducesWithin range context :=
        within.part fun _ member => List.mem_cons_of_mem _ (List.mem_append_left _ member)
      have argumentWithin : argument.DeducesWithin range context :=
        within.part fun _ member => List.mem_cons_of_mem _ (List.mem_append_right _ member)
      simp only [Term.deduce, functionIH closed inScope.1 functionWithin,
        argumentIH closed inScope.2 argumentWithin]
  | tyLam span body bodyIH =>
      have bodyWithin : body.DeducesWithin range context.pushType :=
        within.part fun _ member => List.mem_cons_of_mem _ member
      have pushed : context.pushType.Scoped := closed
      simp only [Term.deduce, bodyIH pushed inScope bodyWithin]
  | tyApp span function argument functionIH =>
      have functionWithin : function.DeducesWithin range context :=
        within.part fun _ member => List.mem_cons_of_mem _ member
      simp only [Term.deduce, functionIH closed inScope.1 functionWithin]
      cases functionDeduced : function.deduce .unlimited context with
      | error error => rfl
      | ok functionType =>
          cases functionType with
          | var | arrow => rfl
          | all allSpan body =>
              have bodyInScope : body.InScope context.pushType :=
                (Term.deduce_typed closed functionDeduced).ty_inScope closed
              have bodyRoom := functionWithin.type_height functionDeduced
              have argumentRoom : range.AdmitsDistance (argument.height context) :=
                within.height.mono (by simp only [Term.height, Term.nesting, Ty.height]; omega)
              have instantiated := Ty.instantiate_eq_ok
                (bodyInScope.admitted (bodyRoom.admits.mono (by
                  simp only [Ty.height, Ty.nesting, Context.pushType, List.length_cons]
                  omega)))
                (inScope.2.admittedUnder bodyRoom argumentRoom)
                (.inr ((bodyRoom.add argumentRoom).mono (by
                  simp only [Ty.height, Ty.nesting]
                  omega)))
              have unlimited := (Ty.instantiate_computes .unlimited body argument).ofUnlimited
              simp only [bind, Except.bind, instantiated, unlimited]

/-! ## Normalisation -/

/-- A normal form of a term in scope is in scope. -/
theorem Term.normalize_inScope {range : IndexRange} {depth : Nat} {context : Context}
    {term normal : Term} (closed : context.Scoped) (inScope : term.InScope context)
    (normalized : term.normalize range depth context = .ok normal) : normal.InScope context :=
  ((Term.normalize_evaluates normalized).steps closed inScope).inScope closed inScope

/-- Normalising a term in scope fails in two ways only: it runs too deep, or an index
leaves the range. -/
theorem Term.InScope.normalize_error {range : IndexRange} {depth : Nat} {context : Context}
    {term : Term} {error : ReductionError} (closed : context.Scoped)
    (inScope : term.InScope context)
    (failed : term.normalize range depth context = .error error) :
    error = .exhausted ∨ range ≠ .unlimited ∧ ∃ fault, error = .indexFault fault := by
  induction depth generalizing context term with
  | zero =>
      cases failed
      exact .inl rfl
  | succ depth depthIH =>
      cases term with
      | var span index =>
          simp only [Term.normalize, bind_eq_error_iff, mapError_eq_error_iff,
            mapError_eq_ok_iff] at failed
          rcases failed with ⟨illegal, lookup, _⟩ | ⟨entry, lookup, failed⟩
          · obtain ⟨entry, found⟩ := (context.termType?_isSome_iff span index).mp inScope
            rw [lookup] at found
            cases found
          cases stored : entry.definition with
          | none =>
              rw [stored] at failed
              cases failed
          | some definition =>
              simp only [stored, bind_eq_error_iff, mapError_eq_error_iff,
                mapError_eq_ok_iff] at failed
              rcases failed with ⟨fault, unmeasured, rfl⟩ | ⟨distance, measured, failed⟩
              · exact .inr ⟨(range.distance_computes index).limited unmeasured, fault, rfl⟩
              rcases failed with ⟨fault, unshifted, rfl⟩ | ⟨unfolded, shifted, failed⟩
              · have lifts := Term.shift_computes_lift range distance definition
                exact .inr ⟨lifts.limited unshifted, fault, rfl⟩
              cases (range.distance_computes index).eq_of_ok measured
              cases (Term.shift_computes_lift range _ definition).eq_of_ok shifted
              have found := Context.lookupTerm_eq_ok_iff.mp lookup
              have unfolds := Context.unfolding?_of_definition found stored
              exact depthIH closed (closed.unfolding? unfolds) failed
      | lam span paramType body =>
          simp only [Term.normalize, bind_eq_error_iff] at failed
          rcases failed with bodyFailed | ⟨_, _, ⟨⟩⟩
          exact depthIH (closed.pushTerm inScope.1) inScope.2 bodyFailed
      | app span function argument =>
          simp only [Term.normalize, bind_eq_error_iff] at failed
          rcases failed with functionFailed | ⟨normalFunction, functionNormalized, failed⟩
          · exact depthIH closed inScope.1 functionFailed
          rcases failed with argumentFailed | ⟨normalArgument, argumentNormalized, failed⟩
          · exact depthIH closed inScope.2 argumentFailed
          have functionInScope := Term.normalize_inScope closed inScope.1 functionNormalized
          have argumentInScope := Term.normalize_inScope closed inScope.2 argumentNormalized
          cases normalFunction with
          | lam lamSpan paramType body =>
              simp only [bind_eq_error_iff, mapError_eq_error_iff, mapError_eq_ok_iff] at failed
              have computes := functionInScope.2.instantiate_computes range normalArgument
              rcases failed with ⟨fault, uninstantiated, rfl⟩ | ⟨contracted, instantiated, failed⟩
              · exact .inr ⟨computes.limited uninstantiated, fault, rfl⟩
              cases computes.eq_of_ok instantiated
              exact depthIH closed (functionInScope.2.bodyAt argumentInScope) failed
          | var | app | tyLam | tyApp => cases failed
      | tyLam span body =>
          simp only [Term.normalize, bind_eq_error_iff] at failed
          rcases failed with bodyFailed | ⟨_, _, ⟨⟩⟩
          have pushed : context.pushType.Scoped := closed
          exact depthIH pushed inScope bodyFailed
      | tyApp span function argument =>
          simp only [Term.normalize, bind_eq_error_iff] at failed
          rcases failed with functionFailed | ⟨normalFunction, functionNormalized, failed⟩
          · exact depthIH closed inScope.1 functionFailed
          have functionInScope := Term.normalize_inScope closed inScope.1 functionNormalized
          cases normalFunction with
          | tyLam lamSpan body =>
              have bodyInScope : body.InScope context.pushType := functionInScope
              simp only [bind_eq_error_iff, mapError_eq_error_iff, mapError_eq_ok_iff] at failed
              have computes := bodyInScope.instantiateType_computes range argument
              rcases failed with ⟨fault, uninstantiated, rfl⟩ | ⟨contracted, instantiated, failed⟩
              · exact .inr ⟨computes.limited uninstantiated, fault, rfl⟩
              cases computes.eq_of_ok instantiated
              exact depthIH closed (bodyInScope.bodyAtType inScope.2) failed
          | var | lam | app | tyApp => cases failed

/-- The heights of all terms that normalisation enters, to a recursion depth of at
most `depth`. -/
def Term.normalizationHeights : (depth : Nat) → Context → Term → List Nat
  | 0, context, term => [term.height context]
  | depth + 1, context, term =>
    term.height context ::
      match term with
      | .var _ index =>
        match context.unfolding? index with
        | some definition => definition.normalizationHeights depth context
        | none => []
      | .lam _ paramType body => body.normalizationHeights depth (context.pushTerm paramType)
      | .app _ function argument =>
        function.normalizationHeights depth context ++
          argument.normalizationHeights depth context ++
          match function.normalize .unlimited depth context,
            argument.normalize .unlimited depth context with
          | .ok (.lam _ _ body), .ok argument =>
            (body.bodyAt argument).normalizationHeights depth context
          | _, _ => []
      | .tyLam _ body => body.normalizationHeights depth context.pushType
      | .tyApp _ function argument =>
        function.normalizationHeights depth context ++
          match function.normalize .unlimited depth context with
          | .ok (.tyLam _ body) => (body.bodyAtType argument).normalizationHeights depth context
          | _ => []

/-- The range has room for all terms that normalisation enters. -/
def Term.NormalizesWithin (range : IndexRange) (depth : Nat) (context : Context) (term : Term) :
    Prop :=
  ∀ height ∈ term.normalizationHeights depth context, range.AdmitsDistance height

namespace Term.NormalizesWithin

variable {range : IndexRange} {depth : Nat} {context : Context}

/-- Where there is room for a normalisation there is room for the term itself. -/
theorem height {term : Term} (within : term.NormalizesWithin range depth context) :
    range.AdmitsDistance (term.height context) := by
  apply within
  cases depth <;> simp [Term.normalizationHeights]

/-- Where there is room for a variable there is room for what it unfolds to. -/
theorem unfolding {span : Span} {index : Nat} {definition : Term}
    (within : (Term.var span index).NormalizesWithin range (depth + 1) context)
    (unfolds : context.unfolding? index = some definition) :
    definition.NormalizesWithin range depth context := by
  intro height member
  exact within height (by simp [Term.normalizationHeights, unfolds, member])

/-- Where there is room for a function there is room for its body. -/
theorem lam {span : Span} {paramType : Ty} {body : Term}
    (within : (Term.lam span paramType body).NormalizesWithin range (depth + 1) context) :
    body.NormalizesWithin range depth (context.pushTerm paramType) :=
  fun height member => within height (List.mem_cons_of_mem _ member)

/-- Where there is room for an application there is room for its function. -/
theorem function {span : Span} {function argument : Term}
    (within : (Term.app span function argument).NormalizesWithin range (depth + 1) context) :
    function.NormalizesWithin range depth context := by
  intro height member
  exact within height (by simp [Term.normalizationHeights, member])

/-- Where there is room for an application there is room for its argument. -/
theorem argument {span : Span} {function argument : Term}
    (within : (Term.app span function argument).NormalizesWithin range (depth + 1) context) :
    argument.NormalizesWithin range depth context := by
  intro height member
  exact within height (by simp [Term.normalizationHeights, member])

/-- Where there is room for an application there is room for what it contracts to. -/
theorem beta {span lamSpan : Span} {paramType : Ty} {function argument body normalArgument : Term}
    (within : (Term.app span function argument).NormalizesWithin range (depth + 1) context)
    (functionNormal :
      function.normalize .unlimited depth context = .ok (.lam lamSpan paramType body))
    (argumentNormal : argument.normalize .unlimited depth context = .ok normalArgument) :
    (body.bodyAt normalArgument).NormalizesWithin range depth context := by
  intro height member
  exact within height
    (by simp [Term.normalizationHeights, functionNormal, argumentNormal, member])

/-- Where there is room for a polymorphic function there is room for its body. -/
theorem tyLam {span : Span} {body : Term}
    (within : (Term.tyLam span body).NormalizesWithin range (depth + 1) context) :
    body.NormalizesWithin range depth context.pushType :=
  fun height member => within height (List.mem_cons_of_mem _ member)

/-- Where there is room for an application to a type there is room for its function. -/
theorem polymorphic {span : Span} {function : Term} {argument : Ty}
    (within : (Term.tyApp span function argument).NormalizesWithin range (depth + 1) context) :
    function.NormalizesWithin range depth context := by
  intro height member
  exact within height (by simp [Term.normalizationHeights, member])

/-- Where there is room for an application to a type there is room for what it contracts to. -/
theorem tyBeta {span lamSpan : Span} {function body : Term} {argument : Ty}
    (within : (Term.tyApp span function argument).NormalizesWithin range (depth + 1) context)
    (functionNormal : function.normalize .unlimited depth context = .ok (.tyLam lamSpan body)) :
    (body.bodyAtType argument).NormalizesWithin range depth context := by
  intro height member
  exact within height (by simp [Term.normalizationHeights, functionNormal, member])

end Term.NormalizesWithin

/-- The greater of two representable differences is representable. -/
theorem IndexRange.AdmitsDistance.max {range : IndexRange} {first second : Nat}
    (admitsFirst : range.AdmitsDistance first) (admitsSecond : range.AdmitsDistance second) :
    range.AdmitsDistance (max first second) := by
  rcases Nat.le_total first second with le | le
  · rwa [Nat.max_eq_right le]
  · rwa [Nat.max_eq_left le]

/-- A function is as high as the higher of its parameter type and its body under the parameter. -/
theorem Term.height_lam (context : Context) (span : Span) (paramType : Ty) (body : Term) :
    (Term.lam span paramType body).height context =
      max (paramType.height context) (body.height (context.pushTerm paramType)) := by
  simp only [Term.height, Ty.height, Term.nesting, Context.pushTerm, List.length_cons]
  omega

/-- An application is as high as the higher of its sides. -/
theorem Term.height_app (context : Context) (span : Span) (function argument : Term) :
    (Term.app span function argument).height context =
      max (function.height context) (argument.height context) := by
  simp only [Term.height, Term.nesting]
  omega

/-- A polymorphic function is as high as its body under the type binder. -/
theorem Term.height_tyLam (context : Context) (span : Span) (body : Term) :
    (Term.tyLam span body).height context = body.height context.pushType := by
  simp only [Term.height, Term.nesting, Context.pushType, List.length_cons]
  omega

/-- An application to a type is as high as the higher of its sides. -/
theorem Term.height_tyApp (context : Context) (span : Span) (function : Term) (argument : Ty) :
    (Term.tyApp span function argument).height context =
      max (function.height context) (argument.height context) := by
  simp only [Term.height, Ty.height, Term.nesting]
  omega

/-- With room for all terms on the way there is room for the normal form. -/
theorem Term.NormalizesWithin.normal_height {range : IndexRange} {depth : Nat} {context : Context}
    {term normal : Term} (closed : context.Scoped) (inScope : term.InScope context)
    (within : term.NormalizesWithin range depth context)
    (normalized : term.normalize .unlimited depth context = .ok normal) :
    range.AdmitsDistance (normal.height context) := by
  induction depth generalizing context term normal with
  | zero => cases normalized
  | succ depth depthIH =>
      cases term with
      | var span index =>
          simp only [Term.normalize, bind_eq_ok_iff, mapError_eq_ok_iff] at normalized
          obtain ⟨entry, lookup, normalized⟩ := normalized
          cases stored : entry.definition with
          | none =>
              rw [stored] at normalized
              cases normalized
              exact within.height
          | some definition =>
              simp only [stored, bind_eq_ok_iff, mapError_eq_ok_iff] at normalized
              obtain ⟨distance, measured, unfolded, shifted, normalized⟩ := normalized
              cases (IndexRange.unlimited.distance_computes index).eq_of_ok measured
              cases (Term.shift_computes_lift .unlimited _ definition).eq_of_ok shifted
              have unfolds := Context.unfolding?_of_definition
                (Context.lookupTerm_eq_ok_iff.mp lookup) stored
              exact depthIH closed (closed.unfolding? unfolds) (within.unfolding unfolds) normalized
      | lam span paramType body =>
          simp only [Term.normalize, bind_eq_ok_iff] at normalized
          obtain ⟨normalBody, bodyNormalized, ⟨⟩⟩ := normalized
          have own := within.height
          rw [Term.height_lam] at own ⊢
          exact (own.mono (Nat.le_max_left _ _)).max
            (depthIH (closed.pushTerm inScope.1) inScope.2 within.lam bodyNormalized)
      | app span function argument =>
          simp only [Term.normalize, bind_eq_ok_iff] at normalized
          obtain ⟨normalFunction, functionNormalized, normalArgument, argumentNormalized,
            normalized⟩ := normalized
          cases normalFunction with
          | lam lamSpan paramType body =>
              simp only [bind_eq_ok_iff, mapError_eq_ok_iff] at normalized
              obtain ⟨contracted, instantiated, normalized⟩ := normalized
              have functionInScope := Term.normalize_inScope closed inScope.1 functionNormalized
              have argumentInScope := Term.normalize_inScope closed inScope.2 argumentNormalized
              cases (functionInScope.2.instantiate_computes .unlimited normalArgument).eq_of_ok
                instantiated
              exact depthIH closed (functionInScope.2.bodyAt argumentInScope)
                (within.beta functionNormalized argumentNormalized) normalized
          | var | app | tyLam | tyApp =>
              cases normalized
              rw [Term.height_app]
              exact (depthIH closed inScope.1 within.function functionNormalized).max
                (depthIH closed inScope.2 within.argument argumentNormalized)
      | tyLam span body =>
          simp only [Term.normalize, bind_eq_ok_iff] at normalized
          obtain ⟨normalBody, bodyNormalized, ⟨⟩⟩ := normalized
          have pushed : context.pushType.Scoped := closed
          rw [Term.height_tyLam]
          exact depthIH pushed inScope within.tyLam bodyNormalized
      | tyApp span function argument =>
          simp only [Term.normalize, bind_eq_ok_iff] at normalized
          obtain ⟨normalFunction, functionNormalized, normalized⟩ := normalized
          cases normalFunction with
          | tyLam lamSpan body =>
              have functionInScope := Term.normalize_inScope closed inScope.1 functionNormalized
              have bodyInScope : body.InScope context.pushType := functionInScope
              simp only [bind_eq_ok_iff, mapError_eq_ok_iff] at normalized
              obtain ⟨contracted, instantiated, normalized⟩ := normalized
              cases (bodyInScope.instantiateType_computes .unlimited argument).eq_of_ok instantiated
              exact depthIH closed (bodyInScope.bodyAtType inScope.2)
                (within.tyBeta functionNormalized) normalized
          | var | lam | app | tyApp =>
              cases normalized
              have own := within.height
              rw [Term.height_tyApp] at own ⊢
              exact (depthIH closed inScope.1 within.polymorphic functionNormalized).max
                (own.mono (Nat.le_max_right _ _))

/-- Where there is room for a function and its argument, instantiating gives the contracted
term. -/
theorem Term.instantiate_eq_bodyAt {range : IndexRange} {context : Context} {span : Span}
    {paramType : Ty} {body argument : Term}
    (functionInScope : (Term.lam span paramType body).InScope context)
    (argumentInScope : argument.InScope context)
    (functionRoom : range.AdmitsDistance ((Term.lam span paramType body).height context))
    (argumentRoom : range.AdmitsDistance (argument.height context)) :
    body.instantiate range argument = .ok (body.bodyAt argument) := by
  rw [Term.height_lam] at functionRoom
  have bodyRoom := functionRoom.mono (Nat.le_max_right _ _)
  have argumentFits : argument.AdmittedUnder range (body.nesting + 1) := by
    apply argumentInScope.admittedUnder _ argumentRoom
    exact bodyRoom.mono (by
      simp only [Term.height, Context.pushTerm, List.length_cons]
      omega)
  have counts : range.Counts 1 (body.nesting + argument.nesting) :=
    .inr ((bodyRoom.add argumentRoom).mono (by
      simp only [Term.height, Context.pushTerm, List.length_cons]
      omega))
  obtain ⟨contracted, succeeded, -⟩ :=
    Term.instantiate_succeeds (functionInScope.2.admitted bodyRoom.admits) argumentFits counts
  exact (functionInScope.2.instantiate_computes range argument).eq_ok ⟨contracted, succeeded⟩

/-- Where there is room for a polymorphic function and a type, instantiating gives the
contracted term. -/
theorem Term.instantiateType_eq_bodyAtType {range : IndexRange} {context : Context} {span : Span}
    {body : Term} {argument : Ty} (functionInScope : (Term.tyLam span body).InScope context)
    (argumentInScope : argument.InScope context)
    (functionRoom : range.AdmitsDistance ((Term.tyLam span body).height context))
    (argumentRoom : range.AdmitsDistance (argument.height context)) :
    body.instantiateType range argument = .ok (body.bodyAtType argument) := by
  have bodyInScope : body.InScope context.pushType := functionInScope
  rw [Term.height_tyLam] at functionRoom
  have argumentFits : argument.AdmittedUnder range (body.nesting + 1) := by
    apply argumentInScope.admittedUnder _ argumentRoom
    exact functionRoom.mono (by
      simp only [Term.height, Context.pushType, List.length_cons]
      omega)
  have counts : range.Counts 1 (body.nesting + argument.nesting) :=
    .inr ((functionRoom.add argumentRoom).mono (by
      simp only [Term.height, Ty.height, Context.pushType, List.length_cons]
      omega))
  obtain ⟨contracted, succeeded, -⟩ :=
    Term.instantiateType_succeeds (bodyInScope.admitted functionRoom.admits) argumentFits counts
  exact (bodyInScope.instantiateType_computes range argument).eq_ok ⟨contracted, succeeded⟩

/-- With room for all terms on the way, normalisation is what it is without a limit. -/
theorem Term.normalize_eq_unlimited {range : IndexRange} {depth : Nat} {context : Context}
    {term : Term} (closed : context.Scoped) (inScope : term.InScope context)
    (within : term.NormalizesWithin range depth context) :
    term.normalize range depth context = term.normalize .unlimited depth context := by
  induction depth generalizing context term with
  | zero => rfl
  | succ depth depthIH =>
      cases term with
      | var span index =>
          obtain ⟨entry, lookup⟩ := (context.termType?_isSome_iff span index).mp inScope
          simp only [Term.normalize, lookup, mapError_ok, bind, Except.bind]
          cases stored : entry.definition with
          | none => rfl
          | some definition =>
              have unfolds := Context.unfolding?_of_definition
                (Context.lookupTerm_eq_ok_iff.mp lookup) stored
              have unfoldedInScope := closed.unfolding? unfolds
              have unfoldedWithin := within.unfolding unfolds
              have inside := Context.lt_length_of_termType? inScope
              have measured : range.distance index = .ok (index + 1) :=
                IndexRange.distance_eq_ok (within.height.mono inside)
              have room := unfoldedWithin.height.admits
              have counts : range.Counts 0 definition.nesting :=
                .inr (room.mono (by simp [Term.height]))
              have shifted :=
                (Term.lift_overflowsUnless (unfoldedInScope.admitted room)).eq_ok counts
              have unlimited :=
                (Term.shift_computes_lift .unlimited (index + 1) definition).ofUnlimited
              have unlimitedDistance := (IndexRange.unlimited.distance_computes index).ofUnlimited
              simp only [measured, shifted, unlimitedDistance, unlimited, mapError_ok]
              exact depthIH closed unfoldedInScope unfoldedWithin
      | lam span paramType body =>
          simp only [Term.normalize,
            depthIH (closed.pushTerm inScope.1) inScope.2 within.lam]
      | app span function argument =>
          simp only [Term.normalize, depthIH closed inScope.1 within.function,
            depthIH closed inScope.2 within.argument]
          cases functionNormalized : function.normalize .unlimited depth context with
          | error error => rfl
          | ok normalFunction =>
              cases argumentNormalized : argument.normalize .unlimited depth context with
              | error error => rfl
              | ok normalArgument =>
                  cases normalFunction with
                  | var | app | tyLam | tyApp => rfl
                  | lam lamSpan paramType body =>
                      have functionInScope :=
                        Term.normalize_inScope closed inScope.1 functionNormalized
                      have argumentInScope :=
                        Term.normalize_inScope closed inScope.2 argumentNormalized
                      have instantiated := Term.instantiate_eq_bodyAt functionInScope
                        argumentInScope
                        (within.function.normal_height closed inScope.1 functionNormalized)
                        (within.argument.normal_height closed inScope.2 argumentNormalized)
                      have unlimited := (functionInScope.2.instantiate_computes .unlimited
                        normalArgument).ofUnlimited
                      simp only [bind, Except.bind, instantiated, unlimited, mapError_ok]
                      exact depthIH closed (functionInScope.2.bodyAt argumentInScope)
                        (within.beta functionNormalized argumentNormalized)
      | tyLam span body =>
          have pushed : context.pushType.Scoped := closed
          simp only [Term.normalize, depthIH pushed inScope within.tyLam]
      | tyApp span function argument =>
          simp only [Term.normalize, depthIH closed inScope.1 within.polymorphic]
          cases functionNormalized : function.normalize .unlimited depth context with
          | error error => rfl
          | ok normalFunction =>
              cases normalFunction with
              | var | lam | app | tyApp => rfl
              | tyLam lamSpan body =>
                  have functionInScope :=
                    Term.normalize_inScope closed inScope.1 functionNormalized
                  have argumentRoom : range.AdmitsDistance (argument.height context) := by
                    have own := within.height
                    rw [Term.height_tyApp] at own
                    exact own.mono (Nat.le_max_right _ _)
                  have instantiated := Term.instantiateType_eq_bodyAtType functionInScope inScope.2
                    (within.polymorphic.normal_height closed inScope.1 functionNormalized)
                    argumentRoom
                  have bodyInScope : body.InScope context.pushType := functionInScope
                  have unlimited :=
                    (bodyInScope.instantiateType_computes .unlimited argument).ofUnlimited
                  simp only [bind, Except.bind, instantiated, unlimited, mapError_ok]
                  exact depthIH closed (bodyInScope.bodyAtType inScope.2)
                    (within.tyBeta functionNormalized)

/-! ## Reduction -/

/-- The heights of all trees met by checking a term, normalising it and checking the
normal form, as far as this goes. -/
def Term.reductionHeights (depth : Nat) (context : Context) (term : Term) : List Nat :=
  term.deductionHeights context ++
    match term.deduce .unlimited context with
    | .error _ => []
    | .ok _ =>
      term.normalizationHeights depth context ++
        match term.normalize .unlimited depth context with
        | .error _ => []
        | .ok normal => normal.deductionHeights context

/-- The range has room for all trees met by reducing a term. -/
def Term.ReducesWithin (range : IndexRange) (depth : Nat) (context : Context) (term : Term) :
    Prop :=
  ∀ height ∈ term.reductionHeights depth context, range.AdmitsDistance height

namespace Term.ReducesWithin

variable {range : IndexRange} {depth : Nat} {context : Context} {term : Term}

/-- Where there is room for a reduction there is room for the deduction before it. -/
theorem deduces (within : term.ReducesWithin range depth context) :
    term.DeducesWithin range context :=
  fun height member => within height (List.mem_append_left _ member)

/-- Where there is room for a reduction there is room for the normalisation. -/
theorem normalizes (within : term.ReducesWithin range depth context) {ty : Ty}
    (deduced : term.deduce .unlimited context = .ok ty) :
    term.NormalizesWithin range depth context := by
  intro height member
  exact within height (by simp [Term.reductionHeights, deduced, member])

/-- Where there is room for a reduction there is room for the deduction after it. -/
theorem normalForm (within : term.ReducesWithin range depth context) {ty : Ty} {normal : Term}
    (deduced : term.deduce .unlimited context = .ok ty)
    (normalized : term.normalize .unlimited depth context = .ok normal) :
    normal.DeducesWithin range context := by
  intro height member
  exact within height (by simp [Term.reductionHeights, deduced, normalized, member])

end Term.ReducesWithin

end PolyLambda.Indexed
