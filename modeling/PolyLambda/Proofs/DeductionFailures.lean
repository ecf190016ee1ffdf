import PolyLambda.Proofs.Typing

/-!
# Where deduction fails

A term without a type has a part that lacks one although its own parts have theirs.
`FailsAt` says all that can be wrong at such a part; what is true of type errors is
read off from it. In particular no term in scope leads to an illegal index, and the
types of an error are in the scope that the error records.
-/

namespace PolyLambda.Indexed

/-! ## Parts of a term -/

/-- The parts of a term, the term itself included, each with the context in which it
stands. -/
def Term.parts (context : Context) : Term → List (Context × Term)
  | .var span index => [(context, .var span index)]
  | .lam span paramType body =>
    (context, .lam span paramType body) :: body.parts (context.pushTerm paramType)
  | .app span function argument =>
    (context, .app span function argument) :: (function.parts context ++ argument.parts context)
  | .tyLam span body => (context, .tyLam span body) :: body.parts context.pushType
  | .tyApp span function argument =>
    (context, .tyApp span function argument) :: function.parts context

/-- A term is among its own parts. -/
theorem Term.mem_parts_self (context : Context) (term : Term) :
    (context, term) ∈ term.parts context := by
  cases term <;> simp [Term.parts]

/-- What passes from a term to its immediate parts passes to all parts. -/
theorem Term.forall_parts {property : Context → Term → Prop}
    (lam : ∀ {context span paramType body}, property context (.lam span paramType body) →
      property (context.pushTerm paramType) body)
    (app : ∀ {context span function argument}, property context (.app span function argument) →
      property context function ∧ property context argument)
    (tyLam : ∀ {context span body}, property context (.tyLam span body) →
      property context.pushType body)
    (tyApp : ∀ {context span function argument}, property context (.tyApp span function argument) →
      property context function)
    {context : Context} {term : Term} (holds : property context term) :
    ∀ scope part, (scope, part) ∈ term.parts context → property scope part := by
  induction term generalizing context with
  | var span index =>
      intro scope part member
      cases List.mem_singleton.mp member
      exact holds
  | lam span paramType body bodyIH =>
      intro scope part member
      rcases List.mem_cons.mp member with same | member
      · cases same
        exact holds
      · exact bodyIH (lam holds) scope part member
  | app span function argument functionIH argumentIH =>
      intro scope part member
      rcases List.mem_cons.mp member with same | member
      · cases same
        exact holds
      · rcases List.mem_append.mp member with member | member
        · exact functionIH (app holds).1 scope part member
        · exact argumentIH (app holds).2 scope part member
  | tyLam span body bodyIH =>
      intro scope part member
      rcases List.mem_cons.mp member with same | member
      · cases same
        exact holds
      · exact bodyIH (tyLam holds) scope part member
  | tyApp span function argument functionIH =>
      intro scope part member
      rcases List.mem_cons.mp member with same | member
      · cases same
        exact holds
      · exact functionIH (tyApp holds) scope part member

/-- The parts of a term in scope are in scope, under binders of the term. -/
theorem Term.InScope.parts {context : Context} {term : Term} (closed : context.Scoped)
    (inScope : term.InScope context) {scope : Context} {part : Term}
    (member : (scope, part) ∈ term.parts context) :
    (∃ inner, scope = inner ++ context) ∧ scope.Scoped ∧ part.InScope scope := by
  let Inside : Context → Term → Prop := fun scope part =>
    (∃ inner, scope = inner ++ context) ∧ scope.Scoped ∧ part.InScope scope
  refine @Term.forall_parts Inside ?_ ?_ ?_ ?_ _ _ ⟨⟨[], rfl⟩, closed, inScope⟩ scope part member
  · rintro _ span paramType body ⟨⟨inner, rfl⟩, closed, inScope⟩
    exact ⟨⟨_ :: inner, rfl⟩, closed.pushTerm inScope.1, inScope.2⟩
  · rintro _ span function argument ⟨extension, closed, inScope⟩
    exact ⟨⟨extension, closed, inScope.1⟩, ⟨extension, closed, inScope.2⟩⟩
  · rintro _ span body ⟨⟨inner, rfl⟩, closed, inScope⟩
    exact ⟨⟨_ :: inner, rfl⟩, closed, inScope⟩
  · rintro _ span function argument ⟨extension, closed, inScope⟩
    exact ⟨extension, closed, inScope.1⟩

/-! ## What is wrong at a part -/

/-- Deduction reports this error at a term whose parts have types. -/
inductive Term.FailsAt (range : IndexRange) (context : Context) : Term → TypeError → Prop
  | illegal {term index} (outOfScope : ¬ term.InScope context) :
      FailsAt range context term (.illegal index)
  | indexFault {term fault} (limited : range ≠ .unlimited) :
      FailsAt range context term (.indexFault fault)
  | notFunction {span function argument found argumentType}
      (functionDeduced : function.deduce range context = .ok found)
      (argumentDeduced : argument.deduce range context = .ok argumentType)
      (noArrow : ∀ arrowSpan domain codomain, found ≠ .arrow arrowSpan domain codomain) :
      FailsAt range context (.app span function argument)
        (.notFunction function.span found argument.span argumentType context)
  | argumentMismatch {span function argument arrowSpan domain codomain argumentType}
      (functionDeduced : function.deduce range context = .ok (.arrow arrowSpan domain codomain))
      (argumentDeduced : argument.deduce range context = .ok argumentType)
      (differ : ¬ domain.Same argumentType) :
      FailsAt range context (.app span function argument)
        (.argumentMismatch argument.span domain argumentType context)
  | notUniversal {span function argument found}
      (functionDeduced : function.deduce range context = .ok found)
      (noUniversal : ∀ allSpan body, found ≠ .all allSpan body) :
      FailsAt range context (.tyApp span function argument)
        (.notUniversal function.span found context)

/-- A computation that has a value fails in a limited range only. -/
theorem IndexRange.Computes.limited {ε α : Type} {range : IndexRange} {result : Except ε α}
    {value : α} (computes : range.Computes result value) {fault : ε}
    (failed : result = .error fault) : range ≠ .unlimited := by
  rcases computes with success | ⟨limited, _⟩
  · rw [failed] at success
    cases success
  · exact limited

/-- A context records a type for an index exactly if the lookup of a term succeeds there. -/
theorem Context.termType?_isSome_iff (context : Context) (span : Span) (index : Nat) :
    (context.termType? index).isSome ↔ ∃ entry, context.lookupTerm span index = .ok entry := by
  simp only [Option.isSome_iff_exists, Context.lookupTerm_eq_ok_iff, Context.termType?_eq_some_iff]
  constructor
  · rintro ⟨_, entry, found, _⟩
    exact ⟨entry, found⟩
  · rintro ⟨entry, found⟩
    exact ⟨_, entry, found, rfl⟩

/-- A type that does not pass the check is not in scope. -/
theorem Ty.checkScope_error {context : Context} {ty : Ty} {index : IllegalIndex}
    (failed : ty.checkScope context 0 = .error index) : ¬ ty.InScope context := by
  intro inScope
  have checked := (Ty.checkScope_eq_ok_iff context 0 ty).mpr inScope
  rw [failed] at checked
  cases checked

/-- Every failure of deduction is a failure at some part of the term. -/
theorem Term.deduce_error {range : IndexRange} {context : Context} {term : Term}
    {error : TypeError} (failed : term.deduce range context = .error error) :
    ∃ scope part, (scope, part) ∈ term.parts context ∧ part.FailsAt range scope error := by
  -- A failure of this node is one at the whole term.
  have here : ∀ {context : Context} {term : Term}, term.FailsAt range context error →
      ∃ scope part, (scope, part) ∈ term.parts context ∧ part.FailsAt range scope error :=
    fun fails => ⟨_, _, Term.mem_parts_self _ _, fails⟩
  induction term generalizing context with
  | var span index =>
      simp only [Term.deduce, bind_eq_error_iff, mapError_eq_error_iff, mapError_eq_ok_iff]
        at failed
      rcases failed with ⟨illegal, lookup, rfl⟩ | ⟨entry, _, failed⟩
      · apply here
        apply FailsAt.illegal
        intro inScope
        obtain ⟨entry, found⟩ := (context.termType?_isSome_iff span index).mp inScope
        rw [lookup] at found
        cases found
      rcases failed with ⟨fault, unmeasured, rfl⟩ | ⟨distance, _, fault, unshifted, rfl⟩
      · exact here (.indexFault ((range.distance_computes index).limited unmeasured))
      · have lifts := Ty.shift_computes_lift range distance entry.ty
        exact here (.indexFault (lifts.limited unshifted))
  | lam span paramType body bodyIH =>
      simp only [Term.deduce, bind_eq_error_iff, mapError_eq_error_iff, mapError_eq_ok_iff]
        at failed
      rcases failed with ⟨illegal, unchecked, rfl⟩ | ⟨_, _, failed⟩
      · exact here (.illegal fun inScope => Ty.checkScope_error unchecked inScope.1)
      rcases failed with bodyFailed | ⟨bodyType, _, failed⟩
      · obtain ⟨scope, part, member, fails⟩ := bodyIH bodyFailed
        exact ⟨scope, part, List.mem_cons_of_mem _ member, fails⟩
      rcases failed with ⟨fault, unshifted, rfl⟩ | ⟨_, _, impossible⟩
      · exact here (.indexFault ((Ty.shift_computes_down range bodyType).limited unshifted))
      · cases impossible
  | app span function argument functionIH argumentIH =>
      simp only [Term.deduce, bind_eq_error_iff] at failed
      rcases failed with functionFailed | ⟨functionType, functionDeduced, failed⟩
      · obtain ⟨scope, part, member, fails⟩ := functionIH functionFailed
        exact ⟨scope, part, List.mem_cons_of_mem _ (List.mem_append_left _ member), fails⟩
      rcases failed with argumentFailed | ⟨argumentType, argumentDeduced, failed⟩
      · obtain ⟨scope, part, member, fails⟩ := argumentIH argumentFailed
        exact ⟨scope, part, List.mem_cons_of_mem _ (List.mem_append_right _ member), fails⟩
      cases functionType with
      | arrow arrowSpan domain codomain =>
          simp only at failed
          split at failed
          · cases failed
          · next differ =>
              cases failed
              exact here (.argumentMismatch functionDeduced argumentDeduced differ)
      | var | all =>
          cases failed
          exact here (.notFunction functionDeduced argumentDeduced (by simp))
  | tyLam span body bodyIH =>
      simp only [Term.deduce, bind_eq_error_iff] at failed
      rcases failed with bodyFailed | ⟨_, _, impossible⟩
      · obtain ⟨scope, part, member, fails⟩ := bodyIH bodyFailed
        exact ⟨scope, part, List.mem_cons_of_mem _ member, fails⟩
      · cases impossible
  | tyApp span function argument functionIH =>
      simp only [Term.deduce, bind_eq_error_iff, mapError_eq_error_iff, mapError_eq_ok_iff]
        at failed
      rcases failed with functionFailed | ⟨functionType, functionDeduced, failed⟩
      · obtain ⟨scope, part, member, fails⟩ := functionIH functionFailed
        exact ⟨scope, part, List.mem_cons_of_mem _ member, fails⟩
      rcases failed with ⟨illegal, unchecked, rfl⟩ | ⟨_, _, failed⟩
      · exact here (.illegal fun inScope => Ty.checkScope_error unchecked inScope.2)
      cases functionType with
      | all allSpan body =>
          simp only [mapError_eq_error_iff] at failed
          obtain ⟨fault, uninstantiated, rfl⟩ := failed
          have instantiates := Ty.instantiate_computes range body argument
          exact here (.indexFault (instantiates.limited uninstantiated))
      | var | arrow =>
          cases failed
          exact here (.notUniversal functionDeduced (by simp))

end PolyLambda.Indexed
