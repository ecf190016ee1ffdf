import PolyLambda.Proofs.InstantiationLaws

/-!
# Where instantiation leaves the range

Instantiation moves indices in three steps. The argument makes room for the binder that it
fills, it makes room for each binder of the body that it is taken under, and the body loses
the binder. The last step takes no index below zero, in scope or not and of either kind,
since it leaves alone whatever lies below its cutoff. The other two leave the range exactly
if an index that points out of the argument has no room under all these binders. Apart from
that, instantiation can only fail to count the binders of the trees.
-/

namespace PolyLambda.Indexed

/-! ## The indices of a tree -/

/-- The indices that occur in a type, from left to right. -/
def Ty.indices : Ty → List Nat
  | .var _ index => [index]
  | .arrow _ domain codomain => domain.indices ++ codomain.indices
  | .all _ body => body.indices

/-- The indices that occur in a term and in the types in it, from left to right. -/
def Term.indices : Term → List Nat
  | .var _ index => [index]
  | .lam _ paramType body => paramType.indices ++ body.indices
  | .app _ function argument => function.indices ++ argument.indices
  | .tyLam _ body => body.indices
  | .tyApp _ function argument => function.indices ++ argument.indices

/-- The indices of a type that a shift from `cutoff` moves, from left to right. -/
def Ty.movedFrom (cutoff : Nat) : Ty → List Nat
  | .var _ index => if cutoff ≤ index then [index] else []
  | .arrow _ domain codomain => domain.movedFrom cutoff ++ codomain.movedFrom cutoff
  | .all _ body => body.movedFrom (cutoff + 1)

/-- The indices of a term that a shift from `cutoff` moves, from left to right. -/
def Term.movedFrom (cutoff : Nat) : Term → List Nat
  | .var _ index => if cutoff ≤ index then [index] else []
  | .lam _ paramType body => paramType.movedFrom cutoff ++ body.movedFrom (cutoff + 1)
  | .app _ function argument => function.movedFrom cutoff ++ argument.movedFrom cutoff
  | .tyLam _ body => body.movedFrom (cutoff + 1)
  | .tyApp _ function argument => function.movedFrom cutoff ++ argument.movedFrom cutoff

/-- Only an index at or above the cutoff is listed as moved. -/
theorem mem_ite_singleton_iff {cutoff index moved : Nat} :
    moved ∈ (if cutoff ≤ index then [index] else []) ↔ cutoff ≤ index ∧ moved = index := by
  by_cases outer : cutoff ≤ index <;> simp [outer]

/-- A raised index is representable exactly if it is so wherever it is listed as moved. -/
theorem shift_admits_iff {range : IndexRange} {cutoff up index : Nat}
    (admitted : range.Admits index) :
    range.Admits (Renaming.shift cutoff up index) ↔
      ∀ moved ∈ (if cutoff ≤ index then [index] else []), range.Admits (moved + up) := by
  by_cases outer : cutoff ≤ index
  · rw [Renaming.shift_of_le outer, if_pos outer, List.forall_mem_singleton]
  · rw [Renaming.shift_of_lt (Nat.lt_of_not_le outer), if_neg outer]
    exact iff_of_true admitted (List.forall_mem_nil _)

/-- What a shift moves are indices of the type, none of them below the cutoff. -/
theorem Ty.mem_movedFrom {cutoff index : Nat} {ty : Ty} (moved : index ∈ ty.movedFrom cutoff) :
    index ∈ ty.indices ∧ cutoff ≤ index := by
  induction ty generalizing cutoff with
  | var span own =>
      obtain ⟨outer, rfl⟩ := mem_ite_singleton_iff.mp moved
      exact ⟨List.mem_singleton_self index, outer⟩
  | arrow span domain codomain domainIH codomainIH =>
      rw [Ty.indices, List.mem_append]
      rcases List.mem_append.mp moved with inDomain | inCodomain
      · exact (domainIH inDomain).imp_left .inl
      · exact (codomainIH inCodomain).imp_left .inr
  | all span body bodyIH => exact (bodyIH moved).imp_right Nat.le_of_succ_le

@[inherit_doc Ty.mem_movedFrom]
theorem Term.mem_movedFrom {cutoff index : Nat} {term : Term}
    (moved : index ∈ term.movedFrom cutoff) : index ∈ term.indices ∧ cutoff ≤ index := by
  induction term generalizing cutoff with
  | var span own =>
      obtain ⟨outer, rfl⟩ := mem_ite_singleton_iff.mp moved
      exact ⟨List.mem_singleton_self index, outer⟩
  | lam span paramType body bodyIH =>
      rw [Term.indices, List.mem_append]
      rcases List.mem_append.mp moved with inParam | inBody
      · exact (Ty.mem_movedFrom inParam).imp_left .inl
      · exact (bodyIH inBody).imp .inr Nat.le_of_succ_le
  | app span function argument functionIH argumentIH =>
      rw [Term.indices, List.mem_append]
      rcases List.mem_append.mp moved with inFunction | inArgument
      · exact (functionIH inFunction).imp_left .inl
      · exact (argumentIH inArgument).imp_left .inr
  | tyLam span body bodyIH => exact (bodyIH moved).imp_right Nat.le_of_succ_le
  | tyApp span function argument functionIH =>
      rw [Term.indices, List.mem_append]
      rcases List.mem_append.mp moved with inFunction | inArgument
      · exact (functionIH inFunction).imp_left .inl
      · exact (Ty.mem_movedFrom inArgument).imp_left .inr

/-- A type is representable exactly if all its indices are. -/
theorem Ty.admitted_iff {range : IndexRange} {ty : Ty} :
    ty.Admitted range ↔ ∀ index ∈ ty.indices, range.Admits index := by
  induction ty with
  | var span index => rw [Ty.indices, List.forall_mem_singleton, Ty.Admitted]
  | arrow span domain codomain domainIH codomainIH =>
      rw [Ty.indices, List.forall_mem_append, ← domainIH, ← codomainIH, Ty.Admitted]
  | all span body bodyIH => exact bodyIH

/-- A term is representable exactly if all its indices are. -/
theorem Term.admitted_iff {range : IndexRange} {term : Term} :
    term.Admitted range ↔ ∀ index ∈ term.indices, range.Admits index := by
  induction term with
  | var span index => rw [Term.indices, List.forall_mem_singleton, Term.Admitted]
  | lam span paramType body bodyIH =>
      rw [Term.indices, List.forall_mem_append, ← Ty.admitted_iff, ← bodyIH, Term.Admitted]
  | app span function argument functionIH argumentIH =>
      rw [Term.indices, List.forall_mem_append, ← functionIH, ← argumentIH, Term.Admitted]
  | tyLam span body bodyIH => exact bodyIH
  | tyApp span function argument functionIH =>
      rw [Term.indices, List.forall_mem_append, ← functionIH, ← Ty.admitted_iff, Term.Admitted]

/-- An upward shift keeps a type in the range exactly if each index that it moves has room. -/
theorem Ty.Admitted.shift_iff {range : IndexRange} {cutoff up : Nat} {ty : Ty}
    (admitted : ty.Admitted range) :
    (ty.rename (.shift cutoff up)).Admitted range ↔
      ∀ index ∈ ty.movedFrom cutoff, range.Admits (index + up) := by
  induction ty generalizing cutoff with
  | var span index => exact shift_admits_iff admitted
  | arrow span domain codomain domainIH codomainIH =>
      rw [Ty.movedFrom, List.forall_mem_append, ← domainIH admitted.1, ← codomainIH admitted.2]
      exact Iff.rfl
  | all span body bodyIH =>
      rw [Ty.rename, Renaming.under_shift (by omega)]
      exact bodyIH admitted

@[inherit_doc Ty.Admitted.shift_iff]
theorem Term.Admitted.shift_iff {range : IndexRange} {cutoff up : Nat} {term : Term}
    (admitted : term.Admitted range) :
    (term.rename (.shift cutoff up)).Admitted range ↔
      ∀ index ∈ term.movedFrom cutoff, range.Admits (index + up) := by
  induction term generalizing cutoff with
  | var span index => exact shift_admits_iff admitted
  | lam span paramType body bodyIH =>
      rw [Term.movedFrom, List.forall_mem_append, ← admitted.1.shift_iff, ← bodyIH admitted.2,
        Term.rename, Renaming.under_shift (by omega)]
      exact Iff.rfl
  | app span function argument functionIH argumentIH =>
      rw [Term.movedFrom, List.forall_mem_append, ← functionIH admitted.1,
        ← argumentIH admitted.2]
      exact Iff.rfl
  | tyLam span body bodyIH =>
      rw [Term.rename, Renaming.under_shift (by omega)]
      exact bodyIH admitted
  | tyApp span function argument functionIH =>
      rw [Term.movedFrom, List.forall_mem_append, ← functionIH admitted.1, ← admitted.2.shift_iff]
      exact Iff.rfl

/-! ## Room for a replacement -/

section

variable {α : Type} {range : IndexRange} {trees : TreeSort α} {tree : α}

/-- Room for two raises is room for the greater one. -/
theorem TreeSort.AdmittedUnder.max {first second : Nat}
    (fitsFirst : trees.AdmittedUnder first tree) (fitsSecond : trees.AdmittedUnder second tree) :
    trees.AdmittedUnder (Nat.max first second) tree := by
  rcases Nat.le_total first second with le | le
  · rwa [show Nat.max first second = second from Nat.max_eq_right le]
  · rwa [show Nat.max first second = first from Nat.max_eq_left le]

/-- What still has room once it was taken under a binder has room for one binder more. -/
theorem TreeSort.Lawful.admittedUnder_succ (lawful : trees.Lawful range) {room : Nat} {raised : α}
    (shifted : trees.shift 0 1 tree = .ok raised) (fits : trees.AdmittedUnder room raised) :
    trees.AdmittedUnder (room + 1) tree := by
  obtain rfl := (lawful.shift_computes_up tree).eq_of_ok shifted
  rw [TreeSort.AdmittedUnder, lawful.rename_rename] at fits
  refine lawful.of_le fits fun index => ?_
  simp only [Renaming.up_apply]
  omega

/-- A representable tree has room to stay where it is. -/
theorem TreeSort.Lawful.admittedUnder_zero (lawful : trees.Lawful range)
    (admitted : trees.Admitted tree) : trees.AdmittedUnder 0 tree := by
  rw [← lawful.rename_id tree] at admitted
  exact admitted

end

/-- A type that was substituted could be taken to every place of the tree, whether or not
the variable occurs there. -/
theorem Ty.subst_fits {range : IndexRange} {ty replacement result : Ty} {index : Nat}
    (admitted : replacement.Admitted range)
    (substituted : ty.subst range index replacement = .ok result) :
    (Ty.sort range).AdmittedUnder ty.nesting replacement := by
  induction ty generalizing index replacement result with
  | var span other => exact (Ty.sort_lawful range).admittedUnder_zero admitted
  | arrow span domain codomain domainIH codomainIH =>
      simp only [Ty.subst, bind_eq_ok_iff] at substituted
      obtain ⟨_, domainOk, _, codomainOk, -⟩ := substituted
      exact (domainIH admitted domainOk).max (codomainIH admitted codomainOk)
  | all span body bodyIH =>
      simp only [Ty.subst, bind_eq_ok_iff] at substituted
      obtain ⟨_, -, raised, shifted, _, bodyOk, -⟩ := substituted
      have fits := bodyIH (admitted.shift shifted) bodyOk
      exact (Ty.sort_lawful range).admittedUnder_succ shifted fits

/-- A term that was substituted could be taken to every place of the tree that may hold it,
whether or not the variable occurs there. -/
theorem Term.subst_fits {range : IndexRange} {term replacement result : Term} {index : Nat}
    (admitted : replacement.Admitted range)
    (substituted : term.subst range index replacement = .ok result) :
    (Term.sort range).AdmittedUnder term.termNesting replacement := by
  induction term generalizing index replacement result with
  | var span other => exact (Term.sort_lawful range).admittedUnder_zero admitted
  | lam span paramType body bodyIH =>
      simp only [Term.subst, bind_eq_ok_iff] at substituted
      obtain ⟨_, -, raised, shifted, _, bodyOk, -⟩ := substituted
      have fits := bodyIH (admitted.shift shifted) bodyOk
      exact (Term.sort_lawful range).admittedUnder_succ shifted fits
  | app span function argument functionIH argumentIH =>
      simp only [Term.subst, bind_eq_ok_iff] at substituted
      obtain ⟨_, functionOk, _, argumentOk, -⟩ := substituted
      exact (functionIH admitted functionOk).max (argumentIH admitted argumentOk)
  | tyLam span body bodyIH =>
      simp only [Term.subst, bind_eq_ok_iff] at substituted
      obtain ⟨_, -, raised, shifted, _, bodyOk, -⟩ := substituted
      have fits := bodyIH (admitted.shift shifted) bodyOk
      exact (Term.sort_lawful range).admittedUnder_succ shifted fits
  | tyApp span function argument functionIH =>
      simp only [Term.subst, bind_eq_ok_iff] at substituted
      obtain ⟨_, functionOk, -⟩ := substituted
      exact functionIH admitted functionOk

@[inherit_doc Ty.subst_fits]
theorem Term.substType_fits {range : IndexRange} {term result : Term} {replacement : Ty}
    {index : Nat} (admitted : replacement.Admitted range)
    (substituted : term.substType range index replacement = .ok result) :
    (Ty.sort range).AdmittedUnder term.nesting replacement := by
  induction term generalizing index replacement result with
  | var span other => exact (Ty.sort_lawful range).admittedUnder_zero admitted
  | lam span paramType body bodyIH =>
      simp only [Term.substType, bind_eq_ok_iff] at substituted
      obtain ⟨_, paramOk, _, -, raised, shifted, _, bodyOk, -⟩ := substituted
      have fits := bodyIH (admitted.shift shifted) bodyOk
      exact (Ty.subst_fits admitted paramOk).max
        ((Ty.sort_lawful range).admittedUnder_succ shifted fits)
  | app span function argument functionIH argumentIH =>
      simp only [Term.substType, bind_eq_ok_iff] at substituted
      obtain ⟨_, functionOk, _, argumentOk, -⟩ := substituted
      exact (functionIH admitted functionOk).max (argumentIH admitted argumentOk)
  | tyLam span body bodyIH =>
      simp only [Term.substType, bind_eq_ok_iff] at substituted
      obtain ⟨_, -, raised, shifted, _, bodyOk, -⟩ := substituted
      have fits := bodyIH (admitted.shift shifted) bodyOk
      exact (Ty.sort_lawful range).admittedUnder_succ shifted fits
  | tyApp span function argument functionIH =>
      simp only [Term.substType, bind_eq_ok_iff] at substituted
      obtain ⟨_, functionOk, _, argumentOk, -⟩ := substituted
      exact (functionIH admitted functionOk).max (Ty.subst_fits admitted argumentOk)

/-! ## The steps of instantiation -/

/-- A sort of trees together with the lists of their indices: of all, and of those that a
shift from a cutoff moves. -/
structure ListedSort (α : Type) extends TreeSort α where
  indices : α → List Nat
  movedFrom : Nat → α → List Nat

/-- The types with indices of a range. -/
def Ty.listed (range : IndexRange) : ListedSort Ty :=
  ⟨Ty.sort range, Ty.indices, Ty.movedFrom⟩

/-- The terms with indices of a range. -/
def Term.listed (range : IndexRange) : ListedSort Term :=
  ⟨Term.sort range, Term.indices, Term.movedFrom⟩

/-- The lists of indices decide which trees are representable, and which still are after an
upward shift. -/
structure ListedSort.Lawful {α : Type} (range : IndexRange) (trees : ListedSort α) : Prop where
  sort : trees.toTreeSort.Lawful range
  admitted_iff : ∀ {tree}, trees.Admitted tree ↔ ∀ index ∈ trees.indices tree, range.Admits index
  shift_iff : ∀ {cutoff up : Nat} {tree}, trees.Admitted tree →
    (trees.Admitted (trees.rename (.shift cutoff up) tree) ↔
      ∀ index ∈ trees.movedFrom cutoff tree, range.Admits (index + up))
  mem_movedFrom : ∀ {cutoff index tree}, index ∈ trees.movedFrom cutoff tree →
    index ∈ trees.indices tree ∧ cutoff ≤ index

/-- Types follow the laws of trees with listed indices. -/
theorem Ty.listed_lawful (range : IndexRange) : (Ty.listed range).Lawful range where
  sort := Ty.sort_lawful range
  admitted_iff := Ty.admitted_iff
  shift_iff := Ty.Admitted.shift_iff
  mem_movedFrom := Ty.mem_movedFrom

/-- Terms follow the laws of trees with listed indices. -/
theorem Term.listed_lawful (range : IndexRange) : (Term.listed range).Lawful range where
  sort := Term.sort_lawful range
  admitted_iff := Term.admitted_iff
  shift_iff := Term.Admitted.shift_iff
  mem_movedFrom := Term.mem_movedFrom

section

variable {α β : Type} {range : IndexRange} {bodies : ListedSort α} {arguments : ListedSort β}
  {reach : α → Nat} {subst : α → Nat → β → Except IndexFault α} {replace : α → Nat → β → α}
  {instantiate : α → β → Except IndexFault α}

/-- The indices that need room under binders are those that point out of the tree. -/
theorem ListedSort.Lawful.admittedUnder_iff (lawful : arguments.Lawful range) {argument : β}
    (admitted : arguments.Admitted argument) {room : Nat} :
    arguments.AdmittedUnder room argument ↔
      ∀ index ∈ arguments.movedFrom 0 argument, range.Admits (index + room) := by
  rw [TreeSort.AdmittedUnder, ← Renaming.shift_zero]
  exact lawful.shift_iff admitted

/-- What instantiation asks of a substitution: the result is representable and only a count
of binders can prevent it, exactly if the replacement has room under `reach` binders. -/
structure CarriesUnder (range : IndexRange) (bodies : TreeSort α) (arguments : TreeSort β)
    (reach : α → Nat) (subst : α → Nat → β → Except IndexFault α) (replace : α → Nat → β → α) :
    Prop where
  reach_le : ∀ body, reach body ≤ bodies.nesting body
  nesting_le : ∀ body index argument, bodies.nesting (replace body index argument) ≤
    bodies.nesting body + arguments.nesting argument
  overflowsUnless : ∀ {body argument}, bodies.Admitted body → ∀ index,
    arguments.AdmittedUnder (reach body) argument →
    OverflowsUnless (range.Counts index (reach body) ∧ range.Counts 0 (arguments.nesting argument))
        (subst body index argument) (replace body index argument) ∧
      bodies.Admitted (replace body index argument)
  fits : ∀ {body argument index result}, arguments.Admitted argument →
    subst body index argument = .ok result → arguments.AdmittedUnder (reach body) argument

/-- How instantiation keeps within a range, step by step: it raises the argument, substitutes
it and takes the binder away. -/
structure InstantiatesWithin (range : IndexRange) (bodies : ListedSort α)
    (arguments : ListedSort β) (reach : α → Nat) (subst : α → Nat → β → Except IndexFault α)
    (instantiate : α → β → Except IndexFault α) : Prop where
  /-- No index leaves the range where every index of the argument has room under the binder
  that is filled and those of the body. -/
  stays : ∀ body argument, bodies.Admitted body →
    (∀ index ∈ arguments.indices argument, range.Admits (index + 1 + bodies.nesting body)) →
    instantiate body argument ≠ .error .shift
  /-- Every step succeeds where the binders can be counted, too. The last step meets no index
  that it would take below zero. -/
  succeeds : ∀ body argument, bodies.Admitted body →
    (∀ index ∈ arguments.indices argument, range.Admits (index + 1 + bodies.nesting body)) →
    range.Counts 1 (bodies.nesting body + arguments.nesting argument) →
    ∃ raised replaced contracted,
      arguments.shift 0 1 argument = .ok raised ∧
      subst body 0 raised = .ok replaced ∧
      (∀ index ∈ bodies.movedFrom 1 replaced, 0 < index) ∧
      bodies.shift 1 (-1) replaced = .ok contracted ∧
      instantiate body argument = .ok contracted
  /-- The indices that decide are those that point out of the argument, and the binders that
  count are those that the argument is taken under. -/
  succeeds_iff : ∀ body argument, bodies.Admitted body → arguments.Admitted argument →
    range.Counts 1 (bodies.nesting body + arguments.nesting argument) →
    ((∃ contracted, instantiate body argument = .ok contracted) ↔
      ∀ index ∈ arguments.movedFrom 0 argument, range.Admits (index + 1 + reach body))

/-- The steps of an instantiation compute what they should where the argument has room, unless
the binders cannot be counted. -/
theorem CarriesUnder.steps_overflowsUnless
    (carries : CarriesUnder range bodies.toTreeSort arguments.toTreeSort reach subst replace)
    (bodiesLawful : bodies.Lawful range) (argumentsLawful : arguments.Lawful range)
    {body : α} {argument : β} (bodyAdmitted : bodies.Admitted body)
    (room : arguments.AdmittedUnder (1 + reach body) argument) :
    ∃ contracted, OverflowsUnless
      (range.Counts 1 (bodies.nesting body + arguments.nesting argument))
      (do
        let argument ← arguments.shift 0 1 argument
        let body ← subst body 0 argument
        bodies.shift 1 (-1) body) contracted := by
  have raisedRoom := argumentsLawful.sort.admittedUnder_rename room (Renaming.shift_le 0 1)
  have raises := argumentsLawful.sort.shift_overflowsUnless (by omega)
    (argumentsLawful.sort.admitted raisedRoom)
  obtain ⟨substitutes, replacedAdmitted⟩ := carries.overflowsUnless bodyAdmitted 0 raisedRoom
  have lowers := bodiesLawful.sort.down_overflowsUnless replacedAdmitted
  refine ⟨_, (raises.bind (substitutes.bind lowers)).of_imp fun counts => ?_⟩
  have nesting := carries.nesting_le body 0 (arguments.rename (.shift 0 1) argument)
  have reached := carries.reach_le body
  rw [argumentsLawful.sort.nesting_rename] at nesting ⊢
  obtain ⟨bodyCounts, argumentCounts⟩ := counts.parts
  exact ⟨argumentCounts, ⟨bodyCounts.of_steps_le reached, argumentCounts⟩,
    counts.of_steps_le nesting⟩

/-- A substitution that carries replacements under binders gives an instantiation that keeps
within a range. -/
theorem CarriesUnder.instantiatesWithin
    (carries : CarriesUnder range bodies.toTreeSort arguments.toTreeSort reach subst replace)
    (bodiesLawful : bodies.Lawful range) (argumentsLawful : arguments.Lawful range)
    (steps : ∀ body argument, instantiate body argument = (do
      let argument ← arguments.shift 0 1 argument
      let body ← subst body 0 argument
      bodies.shift 1 (-1) body)) :
    InstantiatesWithin range bodies arguments reach subst instantiate := by
  have carried : ∀ {body argument},
      (∀ index ∈ arguments.indices argument, range.Admits (index + 1 + bodies.nesting body)) →
      arguments.AdmittedUnder (1 + reach body) argument := by
    intro body argument room
    have admitted : arguments.Admitted argument :=
      argumentsLawful.admitted_iff.mpr fun index occurs => (room index occurs).mono (by omega)
    refine (argumentsLawful.admittedUnder_iff admitted).mpr fun index moved => ?_
    have reached := carries.reach_le body
    exact (room index (argumentsLawful.mem_movedFrom moved).1).mono (by omega)
  refine ⟨?stays, ?succeeds, ?succeeds_iff⟩
  case stays =>
    intro body argument bodyAdmitted room
    obtain ⟨contracted, computes⟩ := carries.steps_overflowsUnless bodiesLawful argumentsLawful
      bodyAdmitted (carried room)
    rw [steps]
    exact computes.ne_shift
  case succeeds =>
    intro body argument bodyAdmitted room counts
    obtain ⟨contracted, computes⟩ := carries.steps_overflowsUnless bodiesLawful argumentsLawful
      bodyAdmitted (carried room)
    have succeeded := computes.eq_ok counts
    obtain ⟨raised, shifted, replaced, substituted, lowered⟩ := by
      simpa only [bind_eq_ok_iff] using succeeded
    exact ⟨raised, replaced, contracted, shifted, substituted,
      fun index moved => (bodiesLawful.mem_movedFrom moved).2, lowered, (steps ..).trans succeeded⟩
  case succeeds_iff =>
    intro body argument bodyAdmitted argumentAdmitted counts
    simp only [Nat.add_assoc, ← argumentsLawful.admittedUnder_iff argumentAdmitted]
    constructor
    · rintro ⟨contracted, instantiated⟩
      simp only [steps, bind_eq_ok_iff] at instantiated
      obtain ⟨raised, shifted, replaced, substituted, -⟩ := instantiated
      have raisedAdmitted := argumentsLawful.sort.admitted_of_shift argumentAdmitted shifted
      rw [Nat.add_comm]
      have fits := carries.fits raisedAdmitted substituted
      exact argumentsLawful.sort.admittedUnder_succ shifted fits
    · intro room
      obtain ⟨contracted, computes⟩ := carries.steps_overflowsUnless bodiesLawful argumentsLawful
        bodyAdmitted room
      exact ⟨contracted, (steps ..).trans (computes.eq_ok counts)⟩

end

/-- Substituting a type for a type variable carries the type under the binders of a type. -/
theorem Ty.subst_carriesUnder (range : IndexRange) :
    CarriesUnder range (Ty.sort range) (Ty.sort range) Ty.nesting (Ty.subst range)
      (fun ty index replacement => ty.substAll (.point index replacement)) where
  reach_le _ := Nat.le_refl _
  nesting_le := (Ty.subst_substitutesBy range).nesting_le
  overflowsUnless := (Ty.subst_substitutesBy range).overflowsUnless
  fits := Ty.subst_fits

/-- Substituting a term for a variable carries the term under the term binders of a term. -/
theorem Term.subst_carriesUnder (range : IndexRange) :
    CarriesUnder range (Term.sort range) (Term.sort range) Term.termNesting (Term.subst range)
      (fun term index replacement => term.substAll .var (.point index replacement)) where
  reach_le := Term.termNesting_le
  nesting_le := (Term.subst_substitutesBy range).nesting_le
  overflowsUnless admitted index room :=
    Term.subst_overflowsUnless admitted index (Term.admittedUnder_sort_iff.mp room)
  fits := Term.subst_fits

/-- Substituting a type in a term carries the type under all binders of the term. -/
theorem Term.substType_carriesUnder (range : IndexRange) :
    CarriesUnder range (Term.sort range) (Ty.sort range) Term.nesting (Term.substType range)
      (fun term index replacement => term.substAll (.point index replacement) .var) where
  reach_le _ := Nat.le_refl _
  nesting_le := (Term.substType_substitutesBy range).nesting_le
  overflowsUnless := (Term.substType_substitutesBy range).overflowsUnless
  fits := Term.substType_fits

/-- Each of the three instantiations leaves the range at its end only, and never below zero. -/
theorem instantiation_leaves_range_only_at_end (range : IndexRange) :
    InstantiatesWithin range (Ty.listed range) (Ty.listed range) Ty.nesting (Ty.subst range)
      (Ty.instantiate range) ∧
    InstantiatesWithin range (Term.listed range) (Term.listed range) Term.termNesting
      (Term.subst range) (Term.instantiate range) ∧
    InstantiatesWithin range (Term.listed range) (Ty.listed range) Term.nesting
      (Term.substType range) (Term.instantiateType range) := by
  have types := Ty.listed_lawful range
  have terms := Term.listed_lawful range
  refine ⟨?inType, ?termInTerm, ?typeInTerm⟩
  case inType =>
    exact (Ty.subst_carriesUnder range).instantiatesWithin types types fun _ _ => rfl
  case termInTerm =>
    exact (Term.subst_carriesUnder range).instantiatesWithin terms terms fun _ _ => rfl
  case typeInTerm =>
    exact (Term.substType_carriesUnder range).instantiatesWithin terms types fun _ _ => rfl

/-- The body of a polymorphic function that uses its binder as a type, around a parameter and
inside it, and as a term. -/
def misusing : Term :=
  .lam ⟨0, 30⟩ (.var ⟨5, 6⟩ 0)
    (.tyApp ⟨10, 30⟩ (.app ⟨10, 20⟩ (.var ⟨10, 11⟩ 1) (.var ⟨12, 13⟩ 0)) (.var ⟨25, 26⟩ 1))

/-- A body with one binder is instantiated at the greatest type variable that has room for two
raises, and not at the next one. -/
theorem instantiation_leaves_range_only_at_end_misusing :
    misusing.Admitted .standard ∧ misusing.nesting = 1 ∧
    (∃ raised replaced contracted,
      Ty.shift .standard 0 1 (.var ⟨40, 60⟩ 18446744073709551613) = .ok raised ∧
      misusing.substType .standard 0 raised = .ok replaced ∧
      (∀ index ∈ replaced.movedFrom 1, 0 < index) ∧
      replaced.shift .standard 1 (-1) = .ok contracted ∧
      misusing.instantiateType .standard (.var ⟨40, 60⟩ 18446744073709551613) =
        .ok contracted) ∧
    ¬ ∃ contracted,
      misusing.instantiateType .standard (.var ⟨40, 60⟩ 18446744073709551614) = .ok contracted := by
  have admitted : misusing.Admitted .standard := by decide
  have last : Ty.Admitted .standard (.var ⟨40, 60⟩ 18446744073709551614) := by decide
  have laws := (instantiation_leaves_range_only_at_end .standard).2.2
  have within := laws.succeeds misusing (.var ⟨40, 60⟩ 18446744073709551613) admitted
    (List.forall_mem_singleton.mpr (by decide)) (.inr (by decide))
  refine ⟨admitted, rfl, within, fun succeeded => ?_⟩
  have room := (laws.succeeds_iff misusing (.var ⟨40, 60⟩ 18446744073709551614) admitted last
    (.inr (by decide))).mp succeeded
  exact absurd (room _ (List.mem_singleton_self _)) (by decide)

end PolyLambda.Indexed
