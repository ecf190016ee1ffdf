import PolyLambda.Proofs.Reduction

/-!
# Index arithmetic within its range

An index of a tree in scope is smaller than the number of binders around it: those
of the context and those of the tree itself. While this number stays within half of
the range for every tree that deduction or normalisation comes to, no index leaves
the range, and both do what they do without a limit. Half of the range is enough
because at most two trees are put inside each other at a time.
-/

namespace PolyLambda.Indexed

/-! ## Nesting -/

/-- The greatest number of binders around a place of a type. -/
def Ty.nesting : Ty → Nat
  | .var _ _ => 0
  | .arrow _ domain codomain => max domain.nesting codomain.nesting
  | .all _ body => body.nesting + 1

/-- The greatest number of binders around a place of a term, or of a type in it. -/
def Term.nesting : Term → Nat
  | .var _ _ => 0
  | .lam _ paramType body => max paramType.nesting (body.nesting + 1)
  | .app _ function argument => max function.nesting argument.nesting
  | .tyLam _ body => body.nesting + 1
  | .tyApp _ function argument => max function.nesting argument.nesting

/-- The greatest number of binders around a term inside a term. Binders of types do not
count. -/
def Term.termNesting : Term → Nat
  | .var _ _ => 0
  | .lam _ _ body => body.termNesting + 1
  | .app _ function argument => max function.termNesting argument.termNesting
  | .tyLam _ body => body.termNesting + 1
  | .tyApp _ function _ => function.termNesting

/-- A term nests no deeper without the binders of its types. -/
theorem Term.termNesting_le (term : Term) : term.termNesting ≤ term.nesting := by
  induction term with
  | var span index => exact Nat.le_refl 0
  | lam span paramType body bodyIH =>
      simp only [Term.termNesting, Term.nesting]
      omega
  | app span function argument functionIH argumentIH =>
      simp only [Term.termNesting, Term.nesting]
      omega
  | tyLam span body bodyIH => exact Nat.succ_le_succ bodyIH
  | tyApp span function argument functionIH =>
      simp only [Term.termNesting, Term.nesting]
      omega

@[simp] theorem Ty.nesting_rename (ty : Ty) (mapping : Renaming) :
    (ty.rename mapping).nesting = ty.nesting := by
  induction ty generalizing mapping with
  | var span index => rfl
  | arrow span domain codomain domainIH codomainIH =>
      simp only [Ty.rename, Ty.nesting, domainIH, codomainIH]
  | all span body bodyIH => simp only [Ty.rename, Ty.nesting, bodyIH]

@[simp] theorem Term.nesting_rename (term : Term) (mapping : Renaming) :
    (term.rename mapping).nesting = term.nesting := by
  induction term generalizing mapping with
  | var span index => rfl
  | lam span paramType body bodyIH =>
      simp only [Term.rename, Term.nesting, Ty.nesting_rename, bodyIH]
  | app span function argument functionIH argumentIH =>
      simp only [Term.rename, Term.nesting, functionIH, argumentIH]
  | tyLam span body bodyIH => simp only [Term.rename, Term.nesting, bodyIH]
  | tyApp span function argument functionIH =>
      simp only [Term.rename, Term.nesting, functionIH, Ty.nesting_rename]

@[simp] theorem Ty.nesting_lift (ty : Ty) (amount : Nat) : (ty.lift amount).nesting = ty.nesting :=
  ty.nesting_rename (.up amount)

@[simp] theorem Term.nesting_lift (term : Term) (amount : Nat) :
    (term.lift amount).nesting = term.nesting :=
  term.nesting_rename (.up amount)

/-- Inside a binder the images of a type substitution nest no deeper. -/
theorem TySubst.nesting_under_le {types : TySubst} {bound : Nat}
    (images : ∀ span index, (types span index).nesting ≤ bound) (span : Span) (index : Nat) :
    (types.under span index).nesting ≤ bound := by
  cases index with
  | zero => exact Nat.zero_le bound
  | succ index =>
      rw [TySubst.under, Ty.lift, Ty.nesting_rename]
      exact images span index

/-- Inside a binder the images of a term substitution nest no deeper. -/
theorem TermSubst.nesting_under_le {terms : TermSubst} {bound : Nat}
    (images : ∀ span index, (terms span index).nesting ≤ bound) (span : Span) (index : Nat) :
    (terms.under span index).nesting ≤ bound := by
  cases index with
  | zero => exact Nat.zero_le bound
  | succ index =>
      rw [TermSubst.under, Term.lift, Term.nesting_rename]
      exact images span index

/-- A substitution in a type adds no more nesting than its images have. -/
theorem Ty.nesting_substAll_le {types : TySubst} {bound : Nat} (ty : Ty)
    (images : ∀ span index, (types span index).nesting ≤ bound) :
    (ty.substAll types).nesting ≤ ty.nesting + bound := by
  induction ty generalizing types with
  | var span index =>
      rw [Ty.substAll, Ty.nesting, Nat.zero_add]
      exact images span index
  | arrow span domain codomain domainIH codomainIH =>
      have domainBound := domainIH images
      have codomainBound := codomainIH images
      simp only [Ty.substAll, Ty.nesting]
      omega
  | all span body bodyIH =>
      have bodyBound := bodyIH (TySubst.nesting_under_le images)
      simp only [Ty.substAll, Ty.nesting]
      omega

/-- A substitution in a term adds no more nesting than its images have. -/
theorem Term.nesting_substAll_le {types : TySubst} {terms : TermSubst} {bound : Nat} (term : Term)
    (typeImages : ∀ span index, (types span index).nesting ≤ bound)
    (termImages : ∀ span index, (terms span index).nesting ≤ bound) :
    (term.substAll types terms).nesting ≤ term.nesting + bound := by
  induction term generalizing types terms with
  | var span index =>
      rw [Term.substAll, Term.nesting, Nat.zero_add]
      exact termImages span index
  | lam span paramType body bodyIH =>
      have paramBound := paramType.nesting_substAll_le typeImages
      have bodyBound := bodyIH (TySubst.nesting_under_le typeImages)
        (TermSubst.nesting_under_le termImages)
      simp only [Term.substAll, Term.nesting]
      omega
  | app span function argument functionIH argumentIH =>
      have functionBound := functionIH typeImages termImages
      have argumentBound := argumentIH typeImages termImages
      simp only [Term.substAll, Term.nesting]
      omega
  | tyLam span body bodyIH =>
      have bodyBound := bodyIH (TySubst.nesting_under_le typeImages)
        (TermSubst.nesting_under_le termImages)
      simp only [Term.substAll, Term.nesting]
      omega
  | tyApp span function argument functionIH =>
      have functionBound := functionIH typeImages termImages
      have argumentBound := argument.nesting_substAll_le typeImages
      simp only [Term.substAll, Term.nesting]
      omega

/-- The images of the substitution for one type variable nest no deeper than the replacement. -/
theorem TySubst.nesting_point_le (index : Nat) (replacement : Ty) (span : Span) (other : Nat) :
    (TySubst.point index replacement span other).nesting ≤ replacement.nesting := by
  unfold TySubst.point
  split
  · exact Nat.le_refl _
  · exact Nat.zero_le _

/-- The images of the substitution for one term variable nest no deeper than the replacement. -/
theorem TermSubst.nesting_point_le (index : Nat) (replacement : Term) (span : Span)
    (other : Nat) :
    (TermSubst.point index replacement span other).nesting ≤ replacement.nesting := by
  unfold TermSubst.point
  split
  · exact Nat.le_refl _
  · exact Nat.zero_le _

/-! ## Representable numbers -/

/-- Below a representable index every number is one. -/
theorem IndexRange.Admits.mono {range : IndexRange} {smaller larger : Nat}
    (admits : range.Admits larger) (le : smaller ≤ larger) : range.Admits smaller := by
  cases range with
  | unlimited => trivial
  | word bits => exact Nat.lt_of_le_of_lt le admits

/-- Below a representable difference every number is one. -/
theorem IndexRange.AdmitsDistance.mono {range : IndexRange} {smaller larger : Nat}
    (admits : range.AdmitsDistance larger) (le : smaller ≤ larger) :
    range.AdmitsDistance smaller := by
  cases range with
  | unlimited => trivial
  | word bits => exact Nat.lt_of_le_of_lt le admits

/-- Two halves of a range make the whole of it. -/
theorem IndexRange.AdmitsDistance.add {range : IndexRange} {first second : Nat}
    (firstAdmitted : range.AdmitsDistance first) (secondAdmitted : range.AdmitsDistance second) :
    range.Admits (first + second) := by
  cases range with
  | unlimited => trivial
  | word bits =>
      simp only [IndexRange.AdmitsDistance, IndexRange.Admits] at *
      cases bits with
      | zero => simp_all
      | succ bits =>
          have halves : Nat.pow 2 (bits + 1) = Nat.pow 2 bits + Nat.pow 2 bits := by
            rw [Nat.pow_eq, Nat.pow_eq, Nat.pow_succ]
            omega
          simp only [Nat.add_sub_cancel] at *
          omega

/-- Counting `steps` binders from `start` on does not leave the range. -/
def IndexRange.Counts (range : IndexRange) (start steps : Nat) : Prop :=
  steps = 0 ∨ range.Admits (start + steps)

namespace IndexRange

variable {range : IndexRange} {start steps : Nat}

/-- Where the last binder has a number, so have those before it. -/
theorem Admits.counts (admits : range.Admits (start + steps)) : range.Counts start steps :=
  .inr admits

/-- From a lower start there is more room. -/
theorem Counts.of_le {lower : Nat} (counts : range.Counts start steps) (le : lower ≤ start) :
    range.Counts lower steps :=
  counts.imp_right fun admits => admits.mono (by omega)

/-- Fewer binders take less room. -/
theorem Counts.of_steps_le {fewer : Nat} (counts : range.Counts start steps) (le : fewer ≤ steps) :
    range.Counts start fewer := by
  rcases counts with rfl | admits
  · exact .inl (Nat.le_zero.mp le)
  · exact .inr (admits.mono (by omega))

/-- The first binder is counted, and then the others from there. -/
theorem counts_succ_iff :
    range.Counts start (steps + 1) ↔ range.Admits (start + 1) ∧ range.Counts (start + 1) steps := by
  constructor
  · rintro (none | admits)
    · omega
    · exact ⟨admits.mono (by omega), .inr (admits.mono (by omega))⟩
  · rintro ⟨first, rfl | others⟩
    · exact .inr first
    · exact .inr (others.mono (by omega))

/-- Two branches are counted where the deeper one is. -/
theorem counts_max_iff {other : Nat} :
    range.Counts start (max steps other) ↔ range.Counts start steps ∧ range.Counts start other := by
  constructor
  · rintro (none | admits)
    · exact ⟨.inl (by omega), .inl (by omega)⟩
    · exact ⟨.inr (admits.mono (by omega)), .inr (admits.mono (by omega))⟩
  · rintro ⟨left, right⟩
    rcases Nat.le_total steps other with le | le
    · rwa [Nat.max_eq_right le]
    · rwa [Nat.max_eq_left le]

/-- What is carried into two branches is carried into each, and the binders of each are counted. -/
theorem counts_branches {other : Nat} {carried : Prop}
    (counted : range.Counts start (max steps other) ∧ carried) :
    (range.Counts start steps ∧ carried) ∧ range.Counts start other ∧ carried := by
  obtain ⟨inFirst, inSecond⟩ := counts_max_iff.mp counted.1
  exact ⟨⟨inFirst, counted.2⟩, inSecond, counted.2⟩

/-- What is carried past a binder is moved once, where the binder is counted, and carried on. -/
theorem counts_below {carried : Prop} (counted : range.Counts start (steps + 1) ∧ carried) :
    range.Admits (start + 1) ∧ carried ∧ range.Counts (start + 1) steps ∧ carried := by
  obtain ⟨here, below⟩ := counts_succ_iff.mp counted.1
  exact ⟨here, counted.2, below, counted.2⟩

/-- Binders that are counted together are counted in either part, from the beginning. -/
theorem Counts.parts {more : Nat} (counts : range.Counts start (steps + more)) :
    range.Counts 0 steps ∧ range.Counts 0 more := by
  have fromZero := counts.of_le (Nat.zero_le start)
  exact ⟨fromZero.of_steps_le (by omega), fromZero.of_steps_le (by omega)⟩

end IndexRange

/-! ## Representable trees -/

/-- Every index of the type is representable. -/
def Ty.Admitted (range : IndexRange) : Ty → Prop
  | .var _ index => range.Admits index
  | .arrow _ domain codomain => domain.Admitted range ∧ codomain.Admitted range
  | .all _ body => body.Admitted range

/-- Every index of the term, and of the types in it, is representable. -/
def Term.Admitted (range : IndexRange) : Term → Prop
  | .var _ index => range.Admits index
  | .lam _ paramType body => paramType.Admitted range ∧ body.Admitted range
  | .app _ function argument => function.Admitted range ∧ argument.Admitted range
  | .tyLam _ body => body.Admitted range
  | .tyApp _ function argument => function.Admitted range ∧ argument.Admitted range

instance Ty.decidableAdmitted (range : IndexRange) : (ty : Ty) → Decidable (ty.Admitted range)
  | .var _ index => inferInstanceAs (Decidable (range.Admits index))
  | .arrow _ domain codomain =>
    have := Ty.decidableAdmitted range domain
    have := Ty.decidableAdmitted range codomain
    inferInstanceAs (Decidable (_ ∧ _))
  | .all _ body => Ty.decidableAdmitted range body

instance Term.decidableAdmitted (range : IndexRange) :
    (term : Term) → Decidable (term.Admitted range)
  | .var _ index => inferInstanceAs (Decidable (range.Admits index))
  | .lam _ _ body =>
    have := Term.decidableAdmitted range body
    inferInstanceAs (Decidable (_ ∧ _))
  | .app _ function argument =>
    have := Term.decidableAdmitted range function
    have := Term.decidableAdmitted range argument
    inferInstanceAs (Decidable (_ ∧ _))
  | .tyLam _ body => Term.decidableAdmitted range body
  | .tyApp _ function _ =>
    have := Term.decidableAdmitted range function
    inferInstanceAs (Decidable (_ ∧ _))

/-- An index that denotes a type binder points into the context. -/
theorem Context.BindsType.lt_length {context : Context} {index : Nat}
    (bound : context.BindsType index) : index < context.length :=
  (List.getElem?_eq_some_iff.mp bound).1

/-- An index that denotes a term binder points into the context. -/
theorem Context.lt_length_of_termType? {context : Context} {index : Nat}
    (bound : (context.termType? index).isSome) : index < context.length := by
  obtain ⟨ty, recorded⟩ := Option.isSome_iff_exists.mp bound
  obtain ⟨entry, found, _⟩ := Context.termType?_eq_some_iff.mp recorded
  exact (List.getElem?_eq_some_iff.mp found).1

/-- A renaming that keeps the indices of a context below a bound keeps them there
inside one more binder. -/
theorem Renaming.under_lt {mapping : Renaming} {length bound : Nat}
    (below : ∀ index < length, mapping index < bound) :
    ∀ index < length + 1, mapping.under index < bound + 1 := by
  intro index inside
  cases index with
  | zero => exact Nat.succ_pos bound
  | succ index => exact Nat.succ_lt_succ (below index (Nat.lt_of_succ_lt_succ inside))

/-- A renamed type is representable if the range has room for its binders above the renamed
indices. -/
theorem Ty.InScope.rename_admitted {range : IndexRange} {context : Context} {ty : Ty}
    {mapping : Renaming} {bound : Nat} (inScope : ty.InScope context)
    (below : ∀ index < context.length, mapping index < bound)
    (enough : range.Admits (bound + ty.nesting)) : (ty.rename mapping).Admitted range := by
  induction ty generalizing context mapping bound with
  | var span index =>
      exact enough.mono (Nat.le_of_lt (below index (Context.BindsType.lt_length inScope)))
  | arrow span domain codomain domainIH codomainIH =>
      simp only [Ty.nesting] at enough
      exact ⟨domainIH inScope.1 below (enough.mono (by omega)),
        codomainIH inScope.2 below (enough.mono (by omega))⟩
  | all span body bodyIH =>
      simp only [Ty.nesting] at enough
      exact bodyIH inScope (Renaming.under_lt below) (enough.mono (by omega))

/-- A renamed term is representable if the range has room for its binders above the renamed
indices. -/
theorem Term.InScope.rename_admitted {range : IndexRange} {context : Context} {term : Term}
    {mapping : Renaming} {bound : Nat} (inScope : term.InScope context)
    (below : ∀ index < context.length, mapping index < bound)
    (enough : range.Admits (bound + term.nesting)) : (term.rename mapping).Admitted range := by
  induction term generalizing context mapping bound with
  | var span index =>
      exact enough.mono (Nat.le_of_lt (below index (Context.lt_length_of_termType? inScope)))
  | lam span paramType body bodyIH =>
      simp only [Term.nesting] at enough
      exact ⟨inScope.1.rename_admitted below (enough.mono (by omega)),
        bodyIH inScope.2 (Renaming.under_lt below) (enough.mono (by omega))⟩
  | app span function argument functionIH argumentIH =>
      simp only [Term.nesting] at enough
      exact ⟨functionIH inScope.1 below (enough.mono (by omega)),
        argumentIH inScope.2 below (enough.mono (by omega))⟩
  | tyLam span body bodyIH =>
      simp only [Term.nesting] at enough
      exact bodyIH inScope (Renaming.under_lt below) (enough.mono (by omega))
  | tyApp span function argument functionIH =>
      simp only [Term.nesting] at enough
      exact ⟨functionIH inScope.1 below (enough.mono (by omega)),
        inScope.2.rename_admitted below (enough.mono (by omega))⟩

/-- A type in scope is representable if the range has room for its binders and those around
it. -/
theorem Ty.InScope.admitted {range : IndexRange} {context : Context} {ty : Ty}
    (inScope : ty.InScope context) (enough : range.Admits (context.length + ty.nesting)) :
    ty.Admitted range := by
  have admitted := inScope.rename_admitted (fun _ inside => inside) enough
  rwa [Ty.rename_id] at admitted

/-- A term in scope is representable if the range has room for its binders and those around
it. -/
theorem Term.InScope.admitted {range : IndexRange} {context : Context} {term : Term}
    (inScope : term.InScope context) (enough : range.Admits (context.length + term.nesting)) :
    term.Admitted range := by
  have admitted := inScope.rename_admitted (fun _ inside => inside) enough
  rwa [Term.rename_id] at admitted

/-- A type in scope stays representable under binders that the range has room for. -/
theorem Ty.InScope.lift_admitted {range : IndexRange} {context : Context} {ty : Ty} {amount : Nat}
    (inScope : ty.InScope context)
    (enough : range.Admits (context.length + amount + ty.nesting)) :
    (ty.lift amount).Admitted range :=
  inScope.rename_admitted (fun _ inside => Nat.add_lt_add_right inside amount) enough

/-- A term in scope stays representable under binders that the range has room for. -/
theorem Term.InScope.lift_admitted {range : IndexRange} {context : Context} {term : Term}
    {amount : Nat} (inScope : term.InScope context)
    (enough : range.Admits (context.length + amount + term.nesting)) :
    (term.lift amount).Admitted range :=
  inScope.rename_admitted (fun _ inside => Nat.add_lt_add_right inside amount) enough

/-- Renamings compare inside a binder as they do outside. -/
theorem Renaming.under_mono {smaller larger : Renaming}
    (le : ∀ index, smaller index ≤ larger index) :
    ∀ index, smaller.under index ≤ larger.under index := by
  intro index
  cases index with
  | zero => exact Nat.le_refl 0
  | succ index => exact Nat.succ_le_succ (le index)

/-! ## Results that only a count of binders prevents -/

/-- A result is a given value, unless a count of binders leaves the range. This does not happen
where `counts` holds. -/
def OverflowsUnless {α : Type} (counts : Prop) (result : Except IndexFault α) (value : α) : Prop :=
  result = .ok value ∨ ¬ counts ∧ result = .error .overflow

namespace OverflowsUnless

variable {α β : Type} {counts others : Prop} {result : Except IndexFault α} {value : α}

theorem ok (value : α) : OverflowsUnless counts (.ok value) value :=
  .inl rfl

/-- Where the count is known to stay in the range the result is the value. -/
theorem eq_ok (overflows : OverflowsUnless counts result value) (holds : counts) :
    result = .ok value := by
  rcases overflows with success | ⟨fails, -⟩
  · exact success
  · exact absurd holds fails

/-- No index of the result has left the range. -/
theorem ne_shift (overflows : OverflowsUnless counts result value) : result ≠ .error .shift := by
  rcases overflows with rfl | ⟨-, rfl⟩
  · simp
  · simp

/-- A stronger condition rules out no less. -/
theorem of_imp (overflows : OverflowsUnless counts result value) (stronger : others → counts) :
    OverflowsUnless others result value :=
  overflows.imp_right fun failure => ⟨fun holds => failure.1 (stronger holds), failure.2⟩

/-- Two steps that may overflow in turn. -/
theorem bind (first : OverflowsUnless counts result value) {next : α → Except IndexFault β}
    {final : β} (second : OverflowsUnless others (next value) final) :
    OverflowsUnless (counts ∧ others) (result >>= next) final := by
  rcases first with rfl | ⟨fails, rfl⟩
  · exact second.of_imp And.right
  · exact .inr ⟨fun both => fails both.1, rfl⟩

/-- What is made of a result in the end adds no way to fail. -/
theorem map (overflows : OverflowsUnless counts result value) (make : α → β) :
    OverflowsUnless counts (do return make (← result)) (make value) :=
  (overflows.bind (.ok (make value))).of_imp fun holds => ⟨holds, trivial⟩

end OverflowsUnless

/-- The next binder is counted unless the range ends. -/
theorem IndexRange.succ_overflowsUnless (range : IndexRange) (index : Nat) :
    OverflowsUnless (range.Admits (index + 1)) (range.succ index) (index + 1) := by
  unfold IndexRange.succ
  split
  case isTrue admitted => exact .ok _
  case isFalse excluded => exact .inr ⟨excluded, rfl⟩

/-- Counting on succeeds exactly if the next number is representable. -/
theorem IndexRange.succ_eq_ok_iff {range : IndexRange} {index next : Nat} :
    range.succ index = .ok next ↔ next = index + 1 ∧ range.Admits next := by
  unfold IndexRange.succ
  split
  case isTrue admitted =>
    constructor
    · rintro ⟨⟩
      exact ⟨rfl, admitted⟩
    · rintro ⟨rfl, -⟩
      rfl
  case isFalse excluded =>
    refine iff_of_false (by simp) ?_
    rintro ⟨rfl, admitted⟩
    exact excluded admitted

/-! ## Shifting within the range -/

/-- One index is shifted where the outcome is representable. -/
theorem shiftFrom_eq_ok {range : IndexRange} {cutoff index : Nat} {delta : Int}
    (bounded : 0 ≤ (cutoff : Int) + delta)
    (admitted : range.Admits (Renaming.shift cutoff delta index)) :
    shiftFrom range cutoff delta index = .ok (Renaming.shift cutoff delta index) := by
  unfold shiftFrom Renaming.shift at *
  split
  case isTrue moved =>
    rw [if_pos moved] at admitted
    exact if_pos ⟨by omega, admitted⟩
  case isFalse => rfl

/-- A shift succeeds when what it computes is representable, and the binders of the tree can be
counted from the cutoff on. -/
theorem Ty.shift_overflowsUnless {range : IndexRange} {cutoff : Nat} {delta : Int} {ty : Ty}
    (bounded : 0 ≤ (cutoff : Int) + delta)
    (admitted : (ty.rename (.shift cutoff delta)).Admitted range) :
    OverflowsUnless (range.Counts cutoff ty.nesting) (ty.shift range cutoff delta)
      (ty.rename (.shift cutoff delta)) := by
  induction ty generalizing cutoff with
  | var span index =>
      have moved : OverflowsUnless (range.Counts cutoff 0) (shiftFrom range cutoff delta index) _ :=
        .inl (shiftFrom_eq_ok bounded admitted)
      exact moved.map (Ty.var span)
  | arrow span domain codomain domainIH codomainIH =>
      exact ((domainIH bounded admitted.1).bind ((codomainIH bounded admitted.2).map _)).of_imp
        IndexRange.counts_max_iff.mp
  | all span body bodyIH =>
      rw [Ty.rename, Renaming.under_shift bounded] at admitted ⊢
      exact ((range.succ_overflowsUnless cutoff).bind ((bodyIH (by omega) admitted).map _)).of_imp
        IndexRange.counts_succ_iff.mp

@[inherit_doc Ty.shift_overflowsUnless]
theorem Term.shift_overflowsUnless {range : IndexRange} {cutoff : Nat} {delta : Int} {term : Term}
    (bounded : 0 ≤ (cutoff : Int) + delta)
    (admitted : (term.rename (.shift cutoff delta)).Admitted range) :
    OverflowsUnless (range.Counts cutoff term.nesting) (term.shift range cutoff delta)
      (term.rename (.shift cutoff delta)) := by
  induction term generalizing cutoff with
  | var span index =>
      have moved : OverflowsUnless (range.Counts cutoff 0) (shiftFrom range cutoff delta index) _ :=
        .inl (shiftFrom_eq_ok bounded admitted)
      exact moved.map (Term.var span)
  | lam span paramType body bodyIH =>
      rw [Term.rename, Renaming.under_shift bounded] at admitted ⊢
      refine ((Ty.shift_overflowsUnless bounded admitted.1).bind
        ((range.succ_overflowsUnless cutoff).bind ((bodyIH (by omega) admitted.2).map _))).of_imp ?_
      intro counts
      obtain ⟨inParam, inBody⟩ := IndexRange.counts_max_iff.mp counts
      exact ⟨inParam, IndexRange.counts_succ_iff.mp inBody⟩
  | app span function argument functionIH argumentIH =>
      exact ((functionIH bounded admitted.1).bind ((argumentIH bounded admitted.2).map _)).of_imp
        IndexRange.counts_max_iff.mp
  | tyLam span body bodyIH =>
      rw [Term.rename, Renaming.under_shift bounded] at admitted ⊢
      exact ((range.succ_overflowsUnless cutoff).bind ((bodyIH (by omega) admitted).map _)).of_imp
        IndexRange.counts_succ_iff.mp
  | tyApp span function argument functionIH =>
      exact ((functionIH bounded admitted.1).bind
        ((Ty.shift_overflowsUnless bounded admitted.2).map _)).of_imp IndexRange.counts_max_iff.mp

/-- An upward shift makes room for binders where the moved indices are representable. -/
theorem Ty.lift_overflowsUnless {range : IndexRange} {ty : Ty} {amount : Nat}
    (admitted : (ty.lift amount).Admitted range) :
    OverflowsUnless (range.Counts 0 ty.nesting) (ty.shift range 0 amount) (ty.lift amount) := by
  rw [Ty.lift, ← Renaming.shift_zero] at *
  exact Ty.shift_overflowsUnless (by omega) admitted

@[inherit_doc Ty.lift_overflowsUnless]
theorem Term.lift_overflowsUnless {range : IndexRange} {term : Term} {amount : Nat}
    (admitted : (term.lift amount).Admitted range) :
    OverflowsUnless (range.Counts 0 term.nesting) (term.shift range 0 amount)
      (term.lift amount) := by
  rw [Term.lift, ← Renaming.shift_zero] at *
  exact Term.shift_overflowsUnless (by omega) admitted

/-- Indices that are moved less far stay representable. -/
theorem Ty.Admitted.of_le {range : IndexRange} {ty : Ty} {smaller larger : Renaming}
    (admitted : (ty.rename larger).Admitted range)
    (le : ∀ index, smaller index ≤ larger index) : (ty.rename smaller).Admitted range := by
  induction ty generalizing smaller larger with
  | var span index => exact IndexRange.Admits.mono admitted (le index)
  | arrow span domain codomain domainIH codomainIH =>
      exact ⟨domainIH admitted.1 le, codomainIH admitted.2 le⟩
  | all span body bodyIH => exact bodyIH admitted (Renaming.under_mono le)

@[inherit_doc Ty.Admitted.of_le]
theorem Term.Admitted.of_le {range : IndexRange} {term : Term} {smaller larger : Renaming}
    (admitted : (term.rename larger).Admitted range)
    (le : ∀ index, smaller index ≤ larger index) : (term.rename smaller).Admitted range := by
  induction term generalizing smaller larger with
  | var span index => exact IndexRange.Admits.mono admitted (le index)
  | lam span paramType body bodyIH =>
      exact ⟨admitted.1.of_le le, bodyIH admitted.2 (Renaming.under_mono le)⟩
  | app span function argument functionIH argumentIH =>
      exact ⟨functionIH admitted.1 le, argumentIH admitted.2 le⟩
  | tyLam span body bodyIH => exact bodyIH admitted (Renaming.under_mono le)
  | tyApp span function argument functionIH =>
      exact ⟨functionIH admitted.1 le, admitted.2.of_le le⟩

/-- Indices that do not grow stay representable. -/
theorem Ty.Admitted.rename {range : IndexRange} {ty : Ty} (admitted : ty.Admitted range)
    {mapping : Renaming} (shrinks : ∀ index, mapping index ≤ index) :
    (ty.rename mapping).Admitted range := by
  have unmoved : (ty.rename fun index => index).Admitted range := by rwa [Ty.rename_id]
  exact unmoved.of_le shrinks

@[inherit_doc Ty.Admitted.rename]
theorem Term.Admitted.rename {range : IndexRange} {term : Term} (admitted : term.Admitted range)
    {mapping : Renaming} (shrinks : ∀ index, mapping index ≤ index) :
    (term.rename mapping).Admitted range := by
  have unmoved : (term.rename fun index => index).Admitted range := by rwa [Term.rename_id]
  exact unmoved.of_le shrinks

/-- Taking away a binder takes no index out of the range. -/
theorem Ty.Admitted.down_overflowsUnless {range : IndexRange} {ty : Ty}
    (admitted : ty.Admitted range) :
    OverflowsUnless (range.Counts 1 ty.nesting) (ty.shift range 1 (-1)) (ty.rename .down) := by
  have lowered : (ty.rename .down).Admitted range := admitted.rename fun index => Nat.sub_le index 1
  rw [← Renaming.shift_one] at *
  exact Ty.shift_overflowsUnless (by omega) lowered

@[inherit_doc Ty.Admitted.down_overflowsUnless]
theorem Term.Admitted.down_overflowsUnless {range : IndexRange} {term : Term}
    (admitted : term.Admitted range) :
    OverflowsUnless (range.Counts 1 term.nesting) (term.shift range 1 (-1))
      (term.rename .down) := by
  have lowered : (term.rename .down).Admitted range :=
    admitted.rename fun index => Nat.sub_le index 1
  rw [← Renaming.shift_one] at *
  exact Term.shift_overflowsUnless (by omega) lowered

/-! ## Substitution within the range -/

/-- A type stays representable under as many binders as a tree nests. -/
def Ty.AdmittedUnder (range : IndexRange) (nesting : Nat) (ty : Ty) : Prop :=
  ∀ amount ≤ nesting, (ty.lift amount).Admitted range

@[inherit_doc Ty.AdmittedUnder]
def Term.AdmittedUnder (range : IndexRange) (nesting : Nat) (term : Term) : Prop :=
  ∀ amount ≤ nesting, (term.lift amount).Admitted range

/-- A type that has room under some binders has room under fewer. -/
theorem Ty.AdmittedUnder.mono {range : IndexRange} {smaller larger : Nat} {ty : Ty}
    (admitted : ty.AdmittedUnder range larger) (le : smaller ≤ larger) :
    ty.AdmittedUnder range smaller :=
  fun amount within => admitted amount (Nat.le_trans within le)

/-- A term that has room under some binders has room under fewer. -/
theorem Term.AdmittedUnder.mono {range : IndexRange} {smaller larger : Nat} {term : Term}
    (admitted : term.AdmittedUnder range larger) (le : smaller ≤ larger) :
    term.AdmittedUnder range smaller :=
  fun amount within => admitted amount (Nat.le_trans within le)

/-- Moving a type under binders uses up as much of its room. -/
theorem Ty.AdmittedUnder.lift {range : IndexRange} {nesting amount : Nat} {ty : Ty}
    (admitted : ty.AdmittedUnder range (nesting + amount)) :
    (ty.lift amount).AdmittedUnder range nesting := by
  intro further within
  rw [Ty.lift_lift]
  exact admitted (amount + further) (by omega)

/-- Moving a term under binders uses up as much of its room. -/
theorem Term.AdmittedUnder.lift {range : IndexRange} {nesting amount : Nat} {term : Term}
    (admitted : term.AdmittedUnder range (nesting + amount)) :
    (term.lift amount).AdmittedUnder range nesting := by
  intro further within
  rw [Term.lift_lift]
  exact admitted (amount + further) (by omega)

/-- What stays representable under some binders does so under fewer. -/
theorem Ty.admittedUnder_iff {range : IndexRange} {nesting : Nat} {ty : Ty} :
    ty.AdmittedUnder range nesting ↔ (ty.lift nesting).Admitted range := by
  refine ⟨fun admitted => admitted nesting (Nat.le_refl nesting), fun admitted amount within => ?_⟩
  exact admitted.of_le fun index => Nat.add_le_add_left within index

@[inherit_doc Ty.admittedUnder_iff]
theorem Term.admittedUnder_iff {range : IndexRange} {nesting : Nat} {term : Term} :
    term.AdmittedUnder range nesting ↔ (term.lift nesting).Admitted range := by
  refine ⟨fun admitted => admitted nesting (Nat.le_refl nesting), fun admitted amount within => ?_⟩
  exact admitted.of_le fun index => Nat.add_le_add_left within index

/-- A type that has room under binders is representable. -/
theorem Ty.AdmittedUnder.zero {range : IndexRange} {nesting : Nat} {ty : Ty}
    (admitted : ty.AdmittedUnder range nesting) : ty.Admitted range := by
  have unmoved := admitted 0 (Nat.zero_le nesting)
  rwa [Ty.lift, show Renaming.up 0 = fun index => index from rfl, Ty.rename_id] at unmoved

/-- A term that has room under binders is representable. -/
theorem Term.AdmittedUnder.zero {range : IndexRange} {nesting : Nat} {term : Term}
    (admitted : term.AdmittedUnder range nesting) : term.Admitted range := by
  have unmoved := admitted 0 (Nat.zero_le nesting)
  rwa [Term.lift, show Renaming.up 0 = fun index => index from rfl, Term.rename_id] at unmoved

/-- Substituting a type succeeds when the type can be taken to every place of the tree and the
binders can be counted on the way there. The result is representable. -/
theorem Ty.subst_overflowsUnless {range : IndexRange} {ty : Ty} (admitted : ty.Admitted range)
    (index : Nat) {replacement : Ty} (replaced : replacement.AdmittedUnder range ty.nesting) :
    OverflowsUnless (range.Counts index ty.nesting ∧ range.Counts 0 replacement.nesting)
        (ty.subst range index replacement) (ty.substAll (.point index replacement)) ∧
      (ty.substAll (.point index replacement)).Admitted range := by
  induction ty generalizing index replacement with
  | var span other =>
      refine ⟨.ok _, ?_⟩
      rw [Ty.substAll, TySubst.point]
      split
      · exact replaced.zero
      · exact admitted
  | arrow span domain codomain domainIH codomainIH =>
      simp only [Ty.nesting] at replaced
      obtain ⟨domainOk, domainAdmitted⟩ := domainIH admitted.1 index (replaced.mono (by omega))
      obtain ⟨codomainOk, codomainAdmitted⟩ :=
        codomainIH admitted.2 index (replaced.mono (by omega))
      exact ⟨(domainOk.bind (codomainOk.map _)).of_imp IndexRange.counts_branches,
        domainAdmitted, codomainAdmitted⟩
  | all span body bodyIH =>
      obtain ⟨bodyOk, bodyAdmitted⟩ := bodyIH admitted (index + 1) replaced.lift
      have lifted := Ty.lift_overflowsUnless (replaced 1 (by simp [Ty.nesting]))
      rw [Ty.nesting_lift] at bodyOk
      rw [Ty.substAll, TySubst.under_point]
      exact ⟨((range.succ_overflowsUnless index).bind (lifted.bind (bodyOk.map _))).of_imp
        IndexRange.counts_below, bodyAdmitted⟩

/-- Substituting a term succeeds when the term can be taken to every place of the tree that
may hold it and the binders can be counted on the way there. The result is representable. -/
theorem Term.subst_overflowsUnless {range : IndexRange} {term : Term}
    (admitted : term.Admitted range) (index : Nat) {replacement : Term}
    (replaced : replacement.AdmittedUnder range term.termNesting) :
    OverflowsUnless (range.Counts index term.termNesting ∧ range.Counts 0 replacement.nesting)
        (term.subst range index replacement) (term.substAll .var (.point index replacement)) ∧
      (term.substAll .var (.point index replacement)).Admitted range := by
  induction term generalizing index replacement with
  | var span other =>
      refine ⟨.ok _, ?_⟩
      rw [Term.substAll, TermSubst.point]
      split
      · exact replaced.zero
      · exact admitted
  | lam span paramType body bodyIH =>
      obtain ⟨bodyOk, bodyAdmitted⟩ := bodyIH admitted.2 (index + 1) replaced.lift
      have lifted := Term.lift_overflowsUnless (replaced 1 (by simp [Term.termNesting]))
      rw [Term.nesting_lift] at bodyOk
      rw [Term.substAll, Ty.substAll_var, TySubst.under_var, TermSubst.under_point]
      exact ⟨((range.succ_overflowsUnless index).bind (lifted.bind (bodyOk.map _))).of_imp
        IndexRange.counts_below, admitted.1, bodyAdmitted⟩
  | app span function argument functionIH argumentIH =>
      simp only [Term.termNesting] at replaced
      obtain ⟨functionOk, functionAdmitted⟩ :=
        functionIH admitted.1 index (replaced.mono (by omega))
      obtain ⟨argumentOk, argumentAdmitted⟩ :=
        argumentIH admitted.2 index (replaced.mono (by omega))
      exact ⟨(functionOk.bind (argumentOk.map _)).of_imp IndexRange.counts_branches,
        functionAdmitted, argumentAdmitted⟩
  | tyLam span body bodyIH =>
      obtain ⟨bodyOk, bodyAdmitted⟩ := bodyIH admitted (index + 1) replaced.lift
      have lifted := Term.lift_overflowsUnless (replaced 1 (by simp [Term.termNesting]))
      rw [Term.nesting_lift] at bodyOk
      rw [Term.substAll, TySubst.under_var, TermSubst.under_point]
      exact ⟨((range.succ_overflowsUnless index).bind (lifted.bind (bodyOk.map _))).of_imp
        IndexRange.counts_below, bodyAdmitted⟩
  | tyApp span function argument functionIH =>
      obtain ⟨functionOk, functionAdmitted⟩ := functionIH admitted.1 index replaced
      rw [Term.substAll, Ty.substAll_var]
      exact ⟨functionOk.map _, functionAdmitted, admitted.2⟩

@[inherit_doc Ty.subst_overflowsUnless]
theorem Term.substType_overflowsUnless {range : IndexRange} {term : Term}
    (admitted : term.Admitted range) (index : Nat) {replacement : Ty}
    (replaced : replacement.AdmittedUnder range term.nesting) :
    OverflowsUnless (range.Counts index term.nesting ∧ range.Counts 0 replacement.nesting)
        (term.substType range index replacement) (term.substAll (.point index replacement) .var) ∧
      (term.substAll (.point index replacement) .var).Admitted range := by
  induction term generalizing index replacement with
  | var span other => exact ⟨.ok _, admitted⟩
  | lam span paramType body bodyIH =>
      have inside : replacement.AdmittedUnder range (body.nesting + 1) :=
        replaced.mono (Nat.le_max_right _ _)
      obtain ⟨paramOk, paramAdmitted⟩ :=
        Ty.subst_overflowsUnless admitted.1 index (replaced.mono (Nat.le_max_left _ _))
      obtain ⟨bodyOk, bodyAdmitted⟩ := bodyIH admitted.2 (index + 1) inside.lift
      have lifted := Ty.lift_overflowsUnless (inside 1 (by omega))
      rw [Ty.nesting_lift] at bodyOk
      rw [Term.substAll, TySubst.under_point, TermSubst.under_var]
      refine ⟨(paramOk.bind ((range.succ_overflowsUnless index).bind
        (lifted.bind (bodyOk.map _)))).of_imp ?_, paramAdmitted, bodyAdmitted⟩
      intro counted
      obtain ⟨inParam, inBody⟩ := IndexRange.counts_branches counted
      exact ⟨inParam, IndexRange.counts_below inBody⟩
  | app span function argument functionIH argumentIH =>
      simp only [Term.nesting] at replaced
      obtain ⟨functionOk, functionAdmitted⟩ :=
        functionIH admitted.1 index (replaced.mono (by omega))
      obtain ⟨argumentOk, argumentAdmitted⟩ :=
        argumentIH admitted.2 index (replaced.mono (by omega))
      exact ⟨(functionOk.bind (argumentOk.map _)).of_imp IndexRange.counts_branches,
        functionAdmitted, argumentAdmitted⟩
  | tyLam span body bodyIH =>
      obtain ⟨bodyOk, bodyAdmitted⟩ := bodyIH admitted (index + 1) replaced.lift
      have lifted := Ty.lift_overflowsUnless (replaced 1 (by simp [Term.nesting]))
      rw [Ty.nesting_lift] at bodyOk
      rw [Term.substAll, TySubst.under_point, TermSubst.under_var]
      exact ⟨((range.succ_overflowsUnless index).bind (lifted.bind (bodyOk.map _))).of_imp
        IndexRange.counts_below, bodyAdmitted⟩
  | tyApp span function argument functionIH =>
      simp only [Term.nesting] at replaced
      obtain ⟨functionOk, functionAdmitted⟩ :=
        functionIH admitted.1 index (replaced.mono (by omega))
      obtain ⟨argumentOk, argumentAdmitted⟩ :=
        Ty.subst_overflowsUnless admitted.2 index (replaced.mono (by omega))
      exact ⟨(functionOk.bind (argumentOk.map _)).of_imp IndexRange.counts_branches,
        functionAdmitted, argumentAdmitted⟩

/-! ## Instantiation within the range -/

/-- Instantiation computes one value, so it computes this value when it succeeds. -/
theorem IndexRange.Computes.eq_ok {ε α : Type} {range : IndexRange} {result : Except ε α}
    {value : α} (computes : range.Computes result value) (succeeds : ∃ found, result = .ok found) :
    result = .ok value := by
  obtain ⟨found, success⟩ := succeeds
  rw [success, computes.eq_of_ok success]

/-- Instantiating succeeds when the argument can be taken to every place of the body and the
binders of both can be counted. The result is representable. -/
theorem Ty.instantiate_succeeds {range : IndexRange} {body argument : Ty}
    (bodyAdmitted : body.Admitted range)
    (argumentAdmitted : argument.AdmittedUnder range (body.nesting + 1))
    (counts : range.Counts 1 (body.nesting + argument.nesting)) :
    ∃ contracted, body.instantiate range argument = .ok contracted ∧ contracted.Admitted range := by
  obtain ⟨bodyCounts, argumentCounts⟩ := counts.parts
  have lifted := (Ty.lift_overflowsUnless (argumentAdmitted 1 (by omega))).eq_ok argumentCounts
  obtain ⟨substitutes, admitted⟩ := Ty.subst_overflowsUnless bodyAdmitted 0 argumentAdmitted.lift
  have substituted := substitutes.eq_ok ⟨bodyCounts, by rwa [Ty.nesting_lift]⟩
  have nesting := body.nesting_substAll_le (TySubst.nesting_point_le 0 (argument.lift 1))
  rw [Ty.nesting_lift] at nesting
  have lowered := admitted.down_overflowsUnless.eq_ok (counts.of_steps_le nesting)
  simp only [Ty.instantiate, bind_eq_ok_iff]
  exact ⟨_, ⟨_, lifted, _, substituted, lowered⟩, admitted.rename fun index => Nat.sub_le index 1⟩

/-- Where there is room, instantiating a type gives its body at the argument. -/
theorem Ty.instantiate_eq_ok {range : IndexRange} {body argument : Ty}
    (bodyAdmitted : body.Admitted range)
    (argumentAdmitted : argument.AdmittedUnder range (body.nesting + 1))
    (counts : range.Counts 1 (body.nesting + argument.nesting)) :
    body.instantiate range argument = .ok (body.bodyAt argument) := by
  obtain ⟨contracted, succeeded, -⟩ :=
    Ty.instantiate_succeeds bodyAdmitted argumentAdmitted counts
  exact (Ty.instantiate_computes range body argument).eq_ok ⟨contracted, succeeded⟩

@[inherit_doc Ty.instantiate_succeeds]
theorem Term.instantiate_succeeds {range : IndexRange} {body argument : Term}
    (bodyAdmitted : body.Admitted range)
    (argumentAdmitted : argument.AdmittedUnder range (body.nesting + 1))
    (counts : range.Counts 1 (body.nesting + argument.nesting)) :
    ∃ contracted, body.instantiate range argument = .ok contracted ∧ contracted.Admitted range := by
  have within := body.termNesting_le
  obtain ⟨bodyCounts, argumentCounts⟩ := counts.parts
  have lifted := (Term.lift_overflowsUnless (argumentAdmitted 1 (by omega))).eq_ok argumentCounts
  obtain ⟨substitutes, admitted⟩ :=
    Term.subst_overflowsUnless bodyAdmitted 0 (argumentAdmitted.lift.mono within)
  have substituted := substitutes.eq_ok
    ⟨bodyCounts.of_steps_le within, by rwa [Term.nesting_lift]⟩
  have nesting : (body.substAll .var (.point 0 (argument.lift 1))).nesting ≤
      body.nesting + (argument.lift 1).nesting :=
    body.nesting_substAll_le (fun _ _ => Nat.zero_le _) (TermSubst.nesting_point_le 0 _)
  rw [Term.nesting_lift] at nesting
  have lowered := admitted.down_overflowsUnless.eq_ok (counts.of_steps_le nesting)
  simp only [Term.instantiate, bind_eq_ok_iff]
  exact ⟨_, ⟨_, lifted, _, substituted, lowered⟩, admitted.rename fun index => Nat.sub_le index 1⟩

@[inherit_doc Ty.instantiate_succeeds]
theorem Term.instantiateType_succeeds {range : IndexRange} {body : Term} {argument : Ty}
    (bodyAdmitted : body.Admitted range)
    (argumentAdmitted : argument.AdmittedUnder range (body.nesting + 1))
    (counts : range.Counts 1 (body.nesting + argument.nesting)) :
    ∃ contracted,
      body.instantiateType range argument = .ok contracted ∧ contracted.Admitted range := by
  obtain ⟨bodyCounts, argumentCounts⟩ := counts.parts
  have lifted := (Ty.lift_overflowsUnless (argumentAdmitted 1 (by omega))).eq_ok argumentCounts
  obtain ⟨substitutes, admitted⟩ :=
    Term.substType_overflowsUnless bodyAdmitted 0 argumentAdmitted.lift
  have substituted := substitutes.eq_ok ⟨bodyCounts, by rwa [Ty.nesting_lift]⟩
  have nesting : (body.substAll (.point 0 (argument.lift 1)) .var).nesting ≤
      body.nesting + (argument.lift 1).nesting :=
    body.nesting_substAll_le (TySubst.nesting_point_le 0 _) (fun _ _ => Nat.zero_le _)
  rw [Ty.nesting_lift] at nesting
  have lowered := admitted.down_overflowsUnless.eq_ok (counts.of_steps_le nesting)
  simp only [Term.instantiateType, bind_eq_ok_iff]
  exact ⟨_, ⟨_, lifted, _, substituted, lowered⟩, admitted.rename fun index => Nat.sub_le index 1⟩

end PolyLambda.Indexed
