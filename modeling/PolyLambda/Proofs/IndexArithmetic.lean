import PolyLambda.Indexed.Substitution
import PolyLambda.Proofs.Substitution

/-!
# What index arithmetic computes

Shifting, substitution and instantiation are renamings and substitutions, except
that indices, or the count of the binders around them, may leave a range that ends.
Without an end they always succeed: a
downward shift is only made from a cutoff that it cannot cross, which is why
`shift_computes` asks that the cutoff plus the amount is not negative.
-/

namespace PolyLambda

/-! ## Computations that may fail -/

/-- Two steps succeed exactly if the first does and the second does from there. -/
theorem bind_eq_ok_iff {ε α β : Type} {result : Except ε α} {next : α → Except ε β} {final : β} :
    result >>= next = .ok final ↔ ∃ value, result = .ok value ∧ next value = .ok final := by
  cases result with
  | ok value => simp [bind, Except.bind]
  | error fault => simp [bind, Except.bind]

/-- After a success the next step takes over. -/
theorem ok_bind {ε α β : Type} (value : α) (next : α → Except ε β) :
    (Except.ok value >>= next) = next value :=
  rfl

@[simp] theorem mapError_ok {ε ε' α : Type} (wrap : ε → ε') (value : α) :
    (Except.ok value).mapError wrap = .ok value :=
  rfl

@[simp] theorem mapError_error {ε ε' α : Type} (wrap : ε → ε') (fault : ε) :
    (Except.error fault : Except ε α).mapError wrap = .error (wrap fault) :=
  rfl

@[simp] theorem mapError_eq_ok_iff {ε ε' α : Type} {result : Except ε α} {wrap : ε → ε'}
    {value : α} : result.mapError wrap = .ok value ↔ result = .ok value := by
  cases result <;> simp

/-- Two steps fail exactly if the first does, or the second does from where the first came
to. -/
theorem bind_eq_error_iff {ε α β : Type} {result : Except ε α} {next : α → Except ε β}
    {failure : ε} :
    result >>= next = .error failure ↔
      result = .error failure ∨ ∃ value, result = .ok value ∧ next value = .error failure := by
  cases result with
  | ok value => simp [bind, Except.bind]
  | error fault => simp [bind, Except.bind]

/-- A wrapped failure wraps a failure. -/
theorem mapError_eq_error_iff {ε ε' α : Type} {result : Except ε α} {wrap : ε → ε'}
    {failure : ε'} :
    result.mapError wrap = .error failure ↔
      ∃ fault, result = .error fault ∧ wrap fault = failure := by
  cases result <;> simp

instance decidableEqOk {ε α : Type} [DecidableEq α] (result : Except ε α) (value : α) :
    Decidable (result = .ok value) :=
  match result with
  | .ok found => decidable_of_iff (found = value) (by simp)
  | .error _ => .isFalse nofun

namespace Indexed

/-- A result is a given value, unless the range ends and an index or a count has left it. -/
def IndexRange.Computes {ε α : Type} (range : IndexRange) (result : Except ε α) (value : α) :
    Prop :=
  result = .ok value ∨ range ≠ .unlimited ∧ ∃ fault, result = .error fault

namespace IndexRange.Computes

variable {ε ε' α β : Type} {range : IndexRange} {result : Except ε α} {value : α}

/-- A value that is there has been computed. -/
theorem ok (value : α) : range.Computes (.ok value : Except ε α) value :=
  .inl rfl

/-- A range without end leaves no way to fail. -/
theorem ofUnlimited (computes : IndexRange.unlimited.Computes result value) :
    result = .ok value := by
  rcases computes with success | ⟨limited, _⟩
  · exact success
  · exact absurd rfl limited

/-- Whatever the range, a success has the computed value. -/
theorem eq_of_ok (computes : range.Computes result value) {found : α}
    (success : result = .ok found) : found = value := by
  rcases computes with expected | ⟨_, _, failure⟩
  · exact Except.ok.inj (success.symm.trans expected)
  · rw [failure] at success
    cases success

/-- Steps that compute their values compute the last one in turn. -/
theorem bind (first : range.Computes result value) {next : α → Except ε β} {final : β}
    (second : range.Computes (next value) final) : range.Computes (result >>= next) final := by
  rcases first with rfl | ⟨limited, fault, rfl⟩
  · exact second
  · exact .inr ⟨limited, fault, rfl⟩

/-- What is computed does not depend on how failures are wrapped. -/
theorem mapError (computes : range.Computes result value) (wrap : ε → ε') :
    range.Computes (result.mapError wrap) value := by
  rcases computes with rfl | ⟨limited, fault, rfl⟩
  · exact .inl rfl
  · exact .inr ⟨limited, wrap fault, rfl⟩

end IndexRange.Computes

open IndexRange (Computes)

/-! ## Shifting -/

/-- The renaming that moves the indices from `cutoff` on by a signed amount. -/
def Renaming.shift (cutoff : Nat) (delta : Int) : Renaming := fun index =>
  if cutoff ≤ index then ((index : Int) + delta).toNat else index

/-- Inside a binder the cutoff is one higher, if the amount does not cross it. -/
theorem Renaming.under_shift {cutoff : Nat} {delta : Int} (bounded : 0 ≤ (cutoff : Int) + delta) :
    (Renaming.shift cutoff delta).under = Renaming.shift (cutoff + 1) delta := by
  ext index
  cases index with
  | zero => rfl
  | succ index =>
      simp only [Renaming.under_succ, Renaming.shift]
      split <;> split <;> omega

/-- An upward shift of all indices makes room for new binders. -/
theorem Renaming.shift_zero (amount : Nat) : Renaming.shift 0 amount = .up amount := by
  ext index
  simp only [Renaming.shift, Renaming.up_apply, Nat.zero_le, if_true]
  omega

/-- Shifting one index computes the shifted index. -/
theorem shiftFrom_computes (range : IndexRange) {cutoff : Nat} {delta : Int}
    (bounded : 0 ≤ (cutoff : Int) + delta) (index : Nat) :
    range.Computes (shiftFrom range cutoff delta index) (Renaming.shift cutoff delta index) := by
  unfold shiftFrom Renaming.shift
  split
  · have nonnegative : 0 ≤ (index : Int) + delta := by omega
    cases range with
    | unlimited => exact .inl (if_pos ⟨nonnegative, trivial⟩)
    | word bits =>
        by_cases admitted : (IndexRange.word bits).Admits ((index : Int) + delta).toNat
        · exact .inl (if_pos ⟨nonnegative, admitted⟩)
        · exact .inr ⟨nofun, .shift, if_neg fun both => admitted both.2⟩
  · exact .ok index

/-- One binder more is counted, unless the range ends here. -/
theorem IndexRange.succ_computes (range : IndexRange) (index : Nat) :
    range.Computes (range.succ index) (index + 1) := by
  cases range with
  | unlimited => exact .inl rfl
  | word bits =>
      unfold IndexRange.succ
      split
      · exact .ok _
      · exact .inr ⟨nofun, .overflow, rfl⟩

/-- Shifting a type computes the renaming that moves its indices. -/
theorem Ty.shift_computes (range : IndexRange) {cutoff : Nat} {delta : Int}
    (bounded : 0 ≤ (cutoff : Int) + delta) (ty : Ty) :
    range.Computes (ty.shift range cutoff delta) (ty.rename (.shift cutoff delta)) := by
  induction ty generalizing cutoff with
  | var span index => exact (shiftFrom_computes range bounded index).bind (.ok _)
  | arrow span domain codomain domainIH codomainIH =>
      exact (domainIH bounded).bind ((codomainIH bounded).bind (.ok _))
  | all span body bodyIH =>
      rw [Ty.rename, Renaming.under_shift bounded]
      exact (range.succ_computes cutoff).bind ((bodyIH (by omega)).bind (.ok _))

/-- Shifting a term computes the renaming that moves its indices. -/
theorem Term.shift_computes (range : IndexRange) {cutoff : Nat} {delta : Int}
    (bounded : 0 ≤ (cutoff : Int) + delta) (term : Term) :
    range.Computes (term.shift range cutoff delta) (term.rename (.shift cutoff delta)) := by
  induction term generalizing cutoff with
  | var span index => exact (shiftFrom_computes range bounded index).bind (.ok _)
  | lam span paramType body bodyIH =>
      rw [Term.rename, Renaming.under_shift bounded]
      exact (Ty.shift_computes range bounded paramType).bind
        ((range.succ_computes cutoff).bind ((bodyIH (by omega)).bind (.ok _)))
  | app span function argument functionIH argumentIH =>
      exact (functionIH bounded).bind ((argumentIH bounded).bind (.ok _))
  | tyLam span body bodyIH =>
      rw [Term.rename, Renaming.under_shift bounded]
      exact (range.succ_computes cutoff).bind ((bodyIH (by omega)).bind (.ok _))
  | tyApp span function argument functionIH =>
      exact (functionIH bounded).bind ((Ty.shift_computes range bounded argument).bind (.ok _))

/-- Shifting all indices of a type up computes the type under new binders. -/
theorem Ty.shift_computes_lift (range : IndexRange) (amount : Nat) (ty : Ty) :
    range.Computes (ty.shift range 0 amount) (ty.lift amount) := by
  rw [Ty.lift, ← Renaming.shift_zero]
  exact Ty.shift_computes range (by omega) ty

/-- Shifting all indices of a term up computes the term under new binders. -/
theorem Term.shift_computes_lift (range : IndexRange) (amount : Nat) (term : Term) :
    range.Computes (term.shift range 0 amount) (term.lift amount) := by
  rw [Term.lift, ← Renaming.shift_zero]
  exact Term.shift_computes range (by omega) term

/-- The number of binders up to that of an index. -/
theorem IndexRange.distance_computes (range : IndexRange) (index : Nat) :
    range.Computes (range.distance index) (index + 1) := by
  refine (range.succ_computes index).bind ?_
  cases range with
  | unlimited => exact .inl rfl
  | word bits =>
      split
      · exact .ok _
      · exact .inr ⟨nofun, .distance, rfl⟩

/-! ## Substitution -/

/-- The substitution of a type for one variable. -/
def TySubst.point (index : Nat) (replacement : Ty) : TySubst := fun span other =>
  if other = index then replacement else .var span other

@[inherit_doc TySubst.point]
def TermSubst.point (index : Nat) (replacement : Term) : TermSubst := fun span other =>
  if other = index then replacement else .var span other

/-- Inside a binder the substitution for one type variable is one for the next index. -/
theorem TySubst.under_point (index : Nat) (replacement : Ty) :
    (TySubst.point index replacement).under = .point (index + 1) (replacement.lift 1) := by
  ext span other
  cases other with
  | zero => rfl
  | succ other =>
      simp only [TySubst.under, TySubst.point, Nat.add_right_cancel_iff]
      split <;> rfl

/-- Inside a binder the substitution for one term variable is one for the next index. -/
theorem TermSubst.under_point (index : Nat) (replacement : Term) :
    (TermSubst.point index replacement).under = .point (index + 1) (replacement.lift 1) := by
  ext span other
  cases other with
  | zero => rfl
  | succ other =>
      simp only [TermSubst.under, TermSubst.point, Nat.add_right_cancel_iff]
      split <;> rfl

/-- Substituting in a type computes the substitution for one variable. -/
theorem Ty.subst_computes (range : IndexRange) (ty : Ty) (index : Nat) (replacement : Ty) :
    range.Computes (ty.subst range index replacement) (ty.substAll (.point index replacement)) := by
  induction ty generalizing index replacement with
  | var span other => exact .ok _
  | arrow span domain codomain domainIH codomainIH =>
      exact (domainIH index replacement).bind ((codomainIH index replacement).bind (.ok _))
  | all span body bodyIH =>
      rw [Ty.substAll, TySubst.under_point]
      exact (range.succ_computes index).bind
        ((Ty.shift_computes_lift range 1 replacement).bind ((bodyIH _ _).bind (.ok _)))

/-- Substituting a term computes the substitution for one variable. -/
theorem Term.subst_computes (range : IndexRange) (term : Term) (index : Nat)
    (replacement : Term) :
    range.Computes (term.subst range index replacement)
      (term.substAll .var (.point index replacement)) := by
  induction term generalizing index replacement with
  | var span other => exact .ok _
  | lam span paramType body bodyIH =>
      rw [Term.substAll, Ty.substAll_var, TySubst.under_var, TermSubst.under_point]
      exact (range.succ_computes index).bind
        ((Term.shift_computes_lift range 1 replacement).bind ((bodyIH _ _).bind (.ok _)))
  | app span function argument functionIH argumentIH =>
      exact (functionIH index replacement).bind ((argumentIH index replacement).bind (.ok _))
  | tyLam span body bodyIH =>
      rw [Term.substAll, TySubst.under_var, TermSubst.under_point]
      exact (range.succ_computes index).bind
        ((Term.shift_computes_lift range 1 replacement).bind ((bodyIH _ _).bind (.ok _)))
  | tyApp span function argument functionIH =>
      rw [Term.substAll, Ty.substAll_var]
      exact (functionIH index replacement).bind (.ok _)

/-- Substituting a type in a term computes the substitution for one variable. -/
theorem Term.substType_computes (range : IndexRange) (term : Term) (index : Nat)
    (replacement : Ty) :
    range.Computes (term.substType range index replacement)
      (term.substAll (.point index replacement) .var) := by
  induction term generalizing index replacement with
  | var span other => exact .ok _
  | lam span paramType body bodyIH =>
      rw [Term.substAll, TySubst.under_point, TermSubst.under_var]
      exact (Ty.subst_computes range paramType index replacement).bind
        ((range.succ_computes index).bind
          ((Ty.shift_computes_lift range 1 replacement).bind ((bodyIH _ _).bind (.ok _))))
  | app span function argument functionIH argumentIH =>
      exact (functionIH index replacement).bind ((argumentIH index replacement).bind (.ok _))
  | tyLam span body bodyIH =>
      rw [Term.substAll, TySubst.under_point, TermSubst.under_var]
      exact (range.succ_computes index).bind
        ((Ty.shift_computes_lift range 1 replacement).bind ((bodyIH _ _).bind (.ok _)))
  | tyApp span function argument functionIH =>
      exact (functionIH index replacement).bind
        ((Ty.subst_computes range argument index replacement).bind (.ok _))

/-! ## Instantiation -/

/-- The renaming that takes away the innermost binder. Nothing may refer to it. -/
def Renaming.down : Renaming := fun index => index - 1

/-- Shifting down from the innermost binder takes it away. -/
theorem Renaming.shift_one : Renaming.shift 1 (-1) = .down := by
  ext index
  simp only [Renaming.shift, Renaming.down]
  split <;> omega

/-- Shifting a type down computes the type without its innermost binder. -/
theorem Ty.shift_computes_down (range : IndexRange) (ty : Ty) :
    range.Computes (ty.shift range 1 (-1)) (ty.rename .down) := by
  rw [← Renaming.shift_one]
  exact Ty.shift_computes range (by omega) ty

/-- Shifting a term down computes the term without its innermost binder. -/
theorem Term.shift_computes_down (range : IndexRange) (term : Term) :
    range.Computes (term.shift range 1 (-1)) (term.rename .down) := by
  rw [← Renaming.shift_one]
  exact Term.shift_computes range (by omega) term

/-- Taking away a binder for which room was made changes nothing. -/
@[simp] theorem Ty.lift_rename_down (ty : Ty) : (ty.lift 1).rename .down = ty := by
  rw [Ty.lift, Ty.rename_rename]
  exact Ty.rename_id ty

@[inherit_doc Ty.lift_rename_down, simp]
theorem Term.lift_rename_down (term : Term) : (term.lift 1).rename .down = term := by
  rw [Term.lift, Term.rename_rename]
  exact Term.rename_id term

/-- Substituting for the innermost type binder and taking it away is filling it. -/
theorem TySubst.point_down (argument : Ty) :
    (fun span index => (TySubst.point 0 (argument.lift 1) span index).rename .down) =
      TySubst.cons argument .var := by
  ext span index
  cases index with
  | zero => exact Ty.lift_rename_down argument
  | succ index => rfl

/-- Substituting for the innermost term binder and taking it away is filling it. -/
theorem TermSubst.point_down (argument : Term) :
    (fun span index => (TermSubst.point 0 (argument.lift 1) span index).rename .down) =
      TermSubst.cons argument .var := by
  ext span index
  cases index with
  | zero => exact Term.lift_rename_down argument
  | succ index => rfl

/-- Instantiating a quantified type computes its body at the argument. -/
theorem Ty.instantiate_computes (range : IndexRange) (body argument : Ty) :
    range.Computes (body.instantiate range argument) (body.bodyAt argument) := by
  refine (Ty.shift_computes_lift range 1 argument).bind ((Ty.subst_computes range body 0 _).bind ?_)
  rw [Ty.bodyAt, ← TySubst.point_down, ← Ty.substAll_rename]
  exact Ty.shift_computes_down range _

/-- Instantiating a function computes its body with the argument filled in. Types in the body
that refer to the binder all the same come to refer to the next one. -/
theorem Term.instantiate_computes (range : IndexRange) (body argument : Term) :
    range.Computes (body.instantiate range argument)
      (body.substAll (fun span index => .var span (index - 1)) (.cons argument .var)) := by
  refine (Term.shift_computes_lift range 1 argument).bind
    ((Term.subst_computes range body 0 _).bind ?_)
  have fused := Term.substAll_rename body .var (.point 0 (argument.lift 1)) .down
  rw [TermSubst.point_down] at fused
  rw [show (fun span index => Ty.var span (index - 1)) =
    fun span index => (Ty.var span index).rename .down from rfl, ← fused]
  exact Term.shift_computes_down range _

/-- Instantiating a polymorphic function computes its body with the type filled in. Terms in the
body that refer to the binder all the same come to refer to the next one. -/
theorem Term.instantiateType_computes (range : IndexRange) (body : Term) (argument : Ty) :
    range.Computes (body.instantiateType range argument)
      (body.substAll (.cons argument .var) (fun span index => .var span (index - 1))) := by
  refine (Ty.shift_computes_lift range 1 argument).bind
    ((Term.substType_computes range body 0 _).bind ?_)
  have fused := Term.substAll_rename body (.point 0 (argument.lift 1)) .var .down
  rw [TySubst.point_down] at fused
  rw [show (fun span index => Term.var span (index - 1)) =
    fun span index => (Term.var span index).rename .down from rfl, ← fused]
  exact Term.shift_computes_down range _

end Indexed

end PolyLambda
