import PolyLambda.Proofs.SessionSafety

/-!
# Overflowing indices

Statements run with indices of a limited range. The limit shows in one way only: a
computation that leaves the range ends there and reports it. Every other result is
the one that there would be without a limit.
-/

namespace PolyLambda

namespace Indexed

/-- A computation within a range of indices ends as it does without a limit, unless
it ends with a fault of index arithmetic. -/
def IndexRange.Curbs {ε α : Type} (range : IndexRange) (isFault : ε → Prop)
    (limited free : Except ε α) : Prop :=
  limited = free ∨ range ≠ .unlimited ∧ ∃ failure, isFault failure ∧ limited = .error failure

namespace IndexRange.Curbs

variable {ε ε' α β : Type} {range : IndexRange} {isFault : ε → Prop} {limited free : Except ε α}

/-- A computation that does not depend on the range is not changed by it. -/
theorem refl (result : Except ε α) : range.Curbs isFault result result :=
  .inl rfl

/-- A range curbs a computation in steps if it curbs each step. -/
theorem bind (curbs : range.Curbs isFault limited free) {next otherNext : α → Except ε β}
    (onward : ∀ value, free = .ok value → range.Curbs isFault (next value) (otherNext value)) :
    range.Curbs isFault (limited >>= next) (free >>= otherNext) := by
  rcases curbs with rfl | ⟨isLimited, failure, fault, rfl⟩
  · cases limited with
    | error failure => exact .refl _
    | ok value => exact onward value rfl
  · exact .inr ⟨isLimited, failure, fault, rfl⟩

/-- Curbing is kept when failures are wrapped and faults stay faults. -/
theorem mapError (curbs : range.Curbs isFault limited free) {isOtherFault : ε' → Prop}
    {wrap : ε → ε'} (wraps : ∀ failure, isFault failure → isOtherFault (wrap failure)) :
    range.Curbs isOtherFault (limited.mapError wrap) (free.mapError wrap) := by
  rcases curbs with rfl | ⟨isLimited, failure, fault, rfl⟩
  · exact .refl _
  · exact .inr ⟨isLimited, wrap failure, wraps failure fault, rfl⟩

end IndexRange.Curbs

/-- Where a range of indices and the lack of one compute the same value, the range
curbs the computation at most. -/
theorem IndexRange.Computes.curbs {ε α : Type} {range : IndexRange} {value : α}
    {limited free : Except IndexFault α} (computes : range.Computes limited value)
    (freely : IndexRange.unlimited.Computes free value) {isFault : ε → Prop} {wrap : IndexFault → ε}
    (wraps : ∀ fault, isFault (wrap fault)) :
    range.Curbs isFault (limited.mapError wrap) (free.mapError wrap) := by
  cases freely.ofUnlimited
  rcases computes with rfl | ⟨isLimited, fault, rfl⟩
  · exact .refl _
  · exact .inr ⟨isLimited, wrap fault, wraps fault, rfl⟩

/-- The error reports a fault of index arithmetic. -/
def TypeError.IsFault : TypeError → Prop
  | .indexFault _ => True
  | _ => False

/-- The error reports a fault of index arithmetic. -/
def ReductionError.IsFault : ReductionError → Prop
  | .indexFault _ => True
  | _ => False

/-- A range curbs the deduction of types. -/
theorem Term.deduce_curbs (range : IndexRange) (context : Context) (term : Term) :
    range.Curbs TypeError.IsFault (term.deduce range context)
      (term.deduce .unlimited context) := by
  induction term generalizing context with
  | var span index =>
      refine (IndexRange.Curbs.refl _).bind ?_
      intro entry _
      refine ((range.distance_computes index).curbs (IndexRange.unlimited.distance_computes index)
        fun _ => trivial).bind ?_
      intro distance _
      exact (Ty.shift_computes_lift range distance entry.ty).curbs
        (Ty.shift_computes_lift .unlimited distance entry.ty) fun _ => trivial
  | lam span paramType body bodyIH =>
      refine (IndexRange.Curbs.refl _).bind ?_
      intro _ _
      refine (bodyIH (context.pushTerm paramType)).bind ?_
      intro bodyType _
      refine ((Ty.shift_computes_down range bodyType).curbs
        (Ty.shift_computes_down .unlimited bodyType) fun _ => trivial).bind ?_
      intro codomain _
      exact .refl _
  | app span function argument functionIH argumentIH =>
      refine (functionIH context).bind ?_
      intro functionType _
      refine (argumentIH context).bind ?_
      intro argumentType _
      exact .refl _
  | tyLam span body bodyIH =>
      refine (bodyIH context.pushType).bind ?_
      intro bodyType _
      exact .refl _
  | tyApp span function argument functionIH =>
      refine (functionIH context).bind ?_
      intro functionType _
      refine (IndexRange.Curbs.refl _).bind ?_
      intro _ _
      cases functionType with
      | var | arrow => exact .refl _
      | all allSpan body =>
          exact (Ty.instantiate_computes range body argument).curbs
            (Ty.instantiate_computes .unlimited body argument) fun _ => trivial

/-- A range curbs normalisation. -/
theorem Term.normalize_curbs (range : IndexRange) (depth : Nat) (context : Context)
    (term : Term) :
    range.Curbs ReductionError.IsFault (term.normalize range depth context)
      (term.normalize .unlimited depth context) := by
  induction depth generalizing context term with
  | zero => exact .refl _
  | succ depth depthIH =>
      cases term with
      | var span index =>
          refine (IndexRange.Curbs.refl _).bind ?_
          intro entry _
          cases entry.definition with
          | none => exact .refl _
          | some definition =>
              refine ((range.distance_computes index).curbs
                (IndexRange.unlimited.distance_computes index) fun _ => trivial).bind ?_
              intro distance _
              refine ((Term.shift_computes_lift range distance definition).curbs
                (Term.shift_computes_lift .unlimited distance definition) fun _ => trivial).bind ?_
              intro unfolded _
              exact depthIH context unfolded
      | lam span paramType body =>
          refine (depthIH (context.pushTerm paramType) body).bind ?_
          intro normalBody _
          exact .refl _
      | app span function argument =>
          refine (depthIH context function).bind ?_
          intro normalFunction _
          refine (depthIH context argument).bind ?_
          intro normalArgument _
          cases normalFunction with
          | var | app | tyLam | tyApp => exact .refl _
          | lam lamSpan paramType body =>
              refine ((Term.instantiate_computes range body normalArgument).curbs
                (Term.instantiate_computes .unlimited body normalArgument) fun _ => trivial).bind ?_
              intro contracted _
              exact depthIH context contracted
      | tyLam span body =>
          refine (depthIH context.pushType body).bind ?_
          intro normalBody _
          exact .refl _
      | tyApp span function argument =>
          refine (depthIH context function).bind ?_
          intro normalFunction _
          cases normalFunction with
          | var | lam | app | tyApp => exact .refl _
          | tyLam lamSpan body =>
              refine ((Term.instantiateType_computes range body argument).curbs
                (Term.instantiateType_computes .unlimited body argument) fun _ => trivial).bind ?_
              intro contracted _
              exact depthIH context contracted

end Indexed

/-- The failure reports a fault of index arithmetic. -/
def Failure.IsFault : Failure → Prop
  | .typing (.indexFault _) => True
  | .reduction (.indexFault _) => True
  | _ => False

/-- The same limits, but with indices of every size. -/
def Limits.unbounded (limits : Limits) : Limits :=
  ⟨.unlimited, limits.depth⟩

namespace Session

open Indexed (TypeError ReductionError)

variable {context : Named.Context}

/-- A typing fault of an index is a fault of the failure that reports it. -/
theorem typing_isFault (context : Named.Context) (error : TypeError) (fault : error.IsFault) :
    Failure.IsFault (.typing (error.inContext context)) := by
  cases error <;> trivial

/-- A fault of an index in a reduction is a fault of the failure that reports it. -/
theorem reduction_isFault (error : ReductionError) (fault : error.IsFault) :
    Failure.IsFault (.reduction error) := by
  cases error <;> trivial

/-- A range curbs the check of a term. -/
theorem checkTerm_curbs (limits : Limits) (context : Named.Context) (term : Named.Term) :
    limits.range.Curbs Failure.IsFault (checkTerm limits context term)
      (checkTerm limits.unbounded context term) := by
  refine (Indexed.IndexRange.Curbs.refl _).bind ?_
  intro resolved _
  refine (Indexed.IndexRange.Curbs.refl _).bind ?_
  intro indexed _
  refine ((resolved.deduce_curbs limits.range indexed).mapError (typing_isFault context)).bind ?_
  intro ty _
  exact .refl _

/-- A range curbs the effect of a statement. -/
theorem effect_curbs (limits : Limits) (context : Named.Context) (statement : Named.Statement) :
    limits.range.Curbs Failure.IsFault (effect limits context statement)
      (effect limits.unbounded context statement) := by
  obtain ⟨span, command⟩ := statement
  cases command with
  | assumeType | assumeTerm | print | clear => exact .refl _
  | define name expected term =>
      refine (Indexed.IndexRange.Curbs.refl _).bind ?_
      intro announced _
      refine (checkTerm_curbs limits context term).bind ?_
      intro checked _
      exact .refl _
  | reduce term =>
      refine (checkTerm_curbs limits context term).bind ?_
      rintro ⟨resolved, indexed, expected⟩ _
      refine ((resolved.normalize_curbs limits.range limits.depth indexed).mapError
        reduction_isFault).bind ?_
      intro normal _
      refine ((normal.deduce_curbs limits.range indexed).mapError (typing_isFault context)).bind ?_
      intro found _
      exact .refl _

/-- A statement fails with a fault of index arithmetic, since a tree that it meets is
too high for the range of indices. -/
def Outgrows (limits : Limits) (context : Named.Context) (statement : Named.Statement) : Prop :=
  ∃ indexed failure, Named.Context.resolve context = .ok indexed ∧
    ¬ Within limits context.scope indexed statement.command ∧ failure.IsFault ∧
    exec limits context statement = (context, .error failure)

/-- A statement for which there is room does not outgrow the range. -/
theorem Within.not_outgrows {limits : Limits} {indexed : Indexed.Context}
    {statement : Named.Statement}
    (within : Within limits context.scope indexed statement.command)
    (resolved : Named.Context.resolve context = .ok indexed) :
    ¬ Outgrows limits context statement := by
  rintro ⟨other, _, otherResolved, high, _⟩
  cases resolved.symm.trans otherResolved
  exact high within

/-- Nothing is too high for a range without an end. -/
theorem Outgrows.limited {limits : Limits} {statement : Named.Statement}
    (outgrows : Outgrows limits context statement) : limits.range ≠ .unlimited := by
  intro unlimited
  obtain ⟨indexed, _, _, high, _⟩ := outgrows
  apply high
  intro height _
  rw [unlimited]
  trivial

/-- A statement ends as it does without a limit to indices, unless it meets a tree that
is too high. -/
theorem exec_eq_or_outgrows {limits : Limits} (recorded : Recorded limits context)
    (statement : Named.Statement) :
    exec limits context statement = exec limits.unbounded context statement ∨
      Outgrows limits context statement := by
  obtain ⟨indexed, sound⟩ := recorded.sound
  rcases effect_curbs limits context statement with equal | ⟨_, failure, fault, failed⟩
  · left
    simp only [exec, equal]
  · right
    have ends : exec limits context statement = (context, .error failure) := by
      simp only [exec, failed]
    refine ⟨indexed, failure, sound.resolved, ?_, fault, ends⟩
    cases sound.effect_complaint failed with
    | typingFault high => exact high
    | reductionFault high => exact high
    | unbound | mismatch | exhausted | unsound => cases fault

/-- One of the statements of a run meets a tree that is too high. -/
def Overflows (limits : Limits) (context : Named.Context) : List Named.Statement → Prop
  | [] => False
  | statement :: rest =>
    Outgrows limits context statement ∨ Overflows limits (exec limits context statement).1 rest

/-- Statements end as they do without a limit to indices, unless one of them meets a
tree that is too high. -/
theorem execAll_eq_or_overflows {limits : Limits} (recorded : Recorded limits context)
    (statements : List Named.Statement) :
    execAll limits context statements = execAll limits.unbounded context statements ∨
      Overflows limits context statements := by
  induction statements generalizing context with
  | nil => exact .inl rfl
  | cons statement rest restIH =>
      rcases exec_eq_or_outgrows recorded statement with equal | outgrows
      · refine (restIH (recorded.exec statement)).imp ?_ .inr
        intro restEqual
        simp only [execAll]
        rw [restEqual, equal]
      · exact .inr (.inl outgrows)

end Session

end PolyLambda
