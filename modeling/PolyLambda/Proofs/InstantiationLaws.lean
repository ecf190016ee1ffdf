import PolyLambda.Proofs.NameRoundTrip
import PolyLambda.Proofs.SubstitutionLaws

/-!
# Instantiation and substitution

Instantiation fills the innermost binder of a body and takes the binder away. It undoes a
shift that made room for the binder, and it commutes with the substitution for any other
variable, where the argument undergoes the substitution too.

Kinds share one space of indices. A body may then use the index of its binder at the kind
that the binder does not have, and taking the binder away turns that index into the one
outside. Such a body is left out where the substitution is for the other kind.
-/

namespace PolyLambda.Indexed

/-! ## Substitutions that agree on the free indices of a tree -/

/-- Substitutions that agree on what is bound or occurs agree so under one more binder. -/
theorem TermSubst.under_agree {terms others : TermSubst} {depth : Nat} {occurs : Nat → Prop}
    (agree : ∀ index, BoundOr depth occurs index → ∀ span, terms span index = others span index)
    (index : Nat) (bound : BoundOr (depth + 1) occurs index) (span : Span) :
    terms.under span index = others.under span index := by
  cases index with
  | zero => rfl
  | succ index => exact congrArg (Term.lift 1) (agree index bound.of_succ span)

@[inherit_doc Ty.substAll_congr]
theorem Term.substAll_congr (depth : Nat) {types otherTypes : TySubst}
    {terms otherTerms : TermSubst} {term : Term}
    (typesAgree : ∀ index,
      BoundOr depth (fun free => (.type, free) ∈ term.freeOccurrences depth) index →
      ∀ span, types span index = otherTypes span index)
    (termsAgree : ∀ index,
      BoundOr depth (fun free => (.term, free) ∈ term.freeOccurrences depth) index →
      ∀ span, terms span index = otherTerms span index) :
    term.substAll types terms = term.substAll otherTypes otherTerms := by
  induction term generalizing depth types otherTypes terms otherTerms with
  | var span index =>
      exact termsAgree index (fun outside => Term.mem_freeOccurrences_var.mpr ⟨outside, rfl⟩) span
  | lam span paramType body bodyIH =>
      have paramTypes : paramType.substAll types = paramType.substAll otherTypes :=
        Ty.substAll_congr depth fun index bound => typesAgree index (bound.mono fun _ member =>
          List.mem_append_left _ (List.mem_map_of_mem member))
      have bodies := bodyIH (depth + 1)
        (TySubst.under_agree fun index bound =>
          typesAgree index (bound.mono fun _ => List.mem_append_right _))
        (TermSubst.under_agree fun index bound =>
          termsAgree index (bound.mono fun _ => List.mem_append_right _))
      rw [Term.substAll, Term.substAll, paramTypes, bodies]
  | app span function argument functionIH argumentIH =>
      have functions := functionIH depth
        (fun index bound => typesAgree index (bound.mono fun _ => List.mem_append_left _))
        (fun index bound => termsAgree index (bound.mono fun _ => List.mem_append_left _))
      have arguments := argumentIH depth
        (fun index bound => typesAgree index (bound.mono fun _ => List.mem_append_right _))
        (fun index bound => termsAgree index (bound.mono fun _ => List.mem_append_right _))
      rw [Term.substAll, Term.substAll, functions, arguments]
  | tyLam span body bodyIH =>
      rw [Term.substAll, Term.substAll,
        bodyIH (depth + 1) (TySubst.under_agree typesAgree) (TermSubst.under_agree termsAgree)]
  | tyApp span function argument functionIH =>
      have functions := functionIH depth
        (fun index bound => typesAgree index (bound.mono fun _ => List.mem_append_left _))
        (fun index bound => termsAgree index (bound.mono fun _ => List.mem_append_left _))
      have arguments : argument.substAll types = argument.substAll otherTypes :=
        Ty.substAll_congr depth fun index bound => typesAgree index (bound.mono fun _ member =>
          List.mem_append_right _ (List.mem_map_of_mem member))
      rw [Term.substAll, Term.substAll, functions, arguments]

/-! ## Contracting a body -/

/-- Takes away a binder at the kind that the binder does not have. An index that refers to it
all the same comes to refer to the next binder. -/
def TySubst.down : TySubst := fun span index => .var span (index - 1)

@[inherit_doc TySubst.down]
def TermSubst.down : TermSubst := fun span index => .var span (index - 1)

/-- The body with its binder filled by a term and taken away. -/
def Term.contract (body argument : Term) : Term :=
  body.substAll .down (.cons argument .var)

/-- The body with its binder filled by a type and taken away. -/
def Term.contractType (body : Term) (argument : Ty) : Term :=
  body.substAll (.cons argument .var) .down

/-- Filling a binder that was just added gives back the type. -/
theorem Ty.lift_substAll_down (ty : Ty) : (ty.lift 1).substAll .down = ty := by
  rw [Ty.lift, Ty.rename_substAll]
  exact ty.substAll_var

/-- A type that does not refer to a binder is the same at every argument. -/
theorem Ty.lift_bodyAt (ty argument : Ty) : (ty.lift 1).bodyAt argument = ty := by
  rw [Ty.bodyAt, Ty.lift_substAll_cons, Ty.substAll_var]

/-- A term that does not refer to a binder is the same for every argument. -/
theorem Term.lift_contract (term argument : Term) : (term.lift 1).contract argument = term := by
  rw [Term.contract, Term.lift, Term.rename_substAll]
  exact term.substAll_var

/-- A term that does not refer to a type binder is the same for every type. -/
theorem Term.lift_contractType (term : Term) (argument : Ty) :
    (term.lift 1).contractType argument = term := by
  rw [Term.contractType, Term.lift, Term.rename_substAll]
  exact term.substAll_var

/-- Contraction commutes with substitution, unless the body uses its own binder as a type
and the substitution has another type for the variable that comes to stand there. -/
theorem Term.contract_substAll {body : Term} {types : TySubst}
    (apart : (.type, 0) ∈ body.freeOccurrences 0 → ∀ span, types span 0 = .var span 0)
    (argument : Term) (terms : TermSubst) :
    (body.contract argument).substAll types terms =
      (body.substAll types.under terms.under).contract (argument.substAll types terms) := by
  rw [Term.contract, Term.contract, Term.substAll_substAll, Term.substAll_substAll]
  refine Term.substAll_congr 0 (fun index occurs span => ?_) fun index _ span => ?_
  -- The sides differ at one index, that of the binder, where it asks for a type.
  · cases index with
    | zero => exact apart (occurs (Nat.le_refl 0)) span
    | succ index => exact (Ty.lift_substAll_down (types span index)).symm
  · cases index with
    | zero => rfl
    | succ index => exact (Term.lift_contract (terms span index) _).symm

/-- Contraction commutes with substitution, unless the body uses its own binder as a term
and the substitution has another term for the variable that comes to stand there. -/
theorem Term.contractType_substAll {body : Term} {terms : TermSubst}
    (apart : (.term, 0) ∈ body.freeOccurrences 0 → ∀ span, terms span 0 = .var span 0)
    (argument : Ty) (types : TySubst) :
    (body.contractType argument).substAll types terms =
      (body.substAll types.under terms.under).contractType (argument.substAll types) := by
  rw [Term.contractType, Term.contractType, Term.substAll_substAll, Term.substAll_substAll]
  refine Term.substAll_congr 0 (fun index _ span => ?_) fun index occurs span => ?_
  · cases index with
    | zero => rfl
    | succ index => exact (Ty.lift_bodyAt (types span index) _).symm
  · cases index with
    | zero => exact apart (occurs (Nat.le_refl 0)) span
    | succ index => exact (Term.lift_contractType (terms span index) _).symm

/-- Filling a binder nests no more than what fills it. -/
theorem TySubst.nesting_cons_var_le (head : Ty) (span : Span) (index : Nat) :
    (TySubst.cons head .var span index).nesting ≤ head.nesting := by
  cases index with
  | zero => exact Nat.le_refl _
  | succ index => exact Nat.zero_le _

/-- Filling a term binder nests no more than what fills it. -/
theorem TermSubst.nesting_cons_var_le (head : Term) (span : Span) (index : Nat) :
    (TermSubst.cons head .var span index).nesting ≤ head.nesting := by
  cases index with
  | zero => exact Nat.le_refl _
  | succ index => exact Nat.zero_le _

/-! ## The substitution lemma -/

section

variable {α β γ : Type} {range : IndexRange} {bodies : TreeSort α} {arguments : TreeSort β}
  {replacements : TreeSort γ} {instantiate : α → β → Except IndexFault α} {contract : α → β → α}

/-- Instantiating a tree in which room was made for the binder gives the tree. -/
def UndoesShift (range : IndexRange) (bodies : TreeSort α) (arguments : TreeSort β)
    (instantiate : α → β → Except IndexFault α) : Prop :=
  ∀ (tree : α) (argument : β),
    OneResult
      (bodies.AdmittedUnder 1 tree ∧
        arguments.AdmittedUnder (bodies.nesting tree + 1) argument ∧
        range.Counts 1 (bodies.nesting tree + arguments.nesting argument))
      (do
        let raised ← bodies.shift 0 1 tree
        instantiate raised argument)
      (.ok tree)

/-- Instantiating and then substituting is substituting in the body and in the argument and
then instantiating. In the body, the index and the replacement move past the binder. -/
def SubstitutionLemma (range : IndexRange) (bodies : TreeSort α) (arguments : TreeSort β)
    (replacements : TreeSort γ)
    (instantiate : α → β → Except IndexFault α) (subst : α → Nat → γ → Except IndexFault α)
    (substArgument : β → Nat → γ → Except IndexFault β) (body : α) : Prop :=
  ∀ (argument : β) (index : Nat) (replacement : γ),
    OneResult
      (let nesting := bodies.nesting body + arguments.nesting argument +
        replacements.nesting replacement
      bodies.Admitted body ∧ arguments.AdmittedUnder (nesting + 1) argument ∧
        replacements.AdmittedUnder (nesting + 1) replacement ∧
        range.Counts (index + 1) (nesting + replacements.nesting replacement))
      (do
        let contracted ← instantiate body argument
        subst contracted index replacement)
      (do
        let raised ← replacements.shift 0 1 replacement
        let body ← subst body (index + 1) raised
        let argument ← substArgument argument index replacement
        instantiate body argument)

/-- What the laws of instantiation rest on. It computes `contract`, and it succeeds where the
argument has room under the binders of the body and the one that is filled, and the binders of
both can be counted. -/
structure InstantiatesBy (range : IndexRange) (bodies : TreeSort α) (arguments : TreeSort β)
    (instantiate : α → β → Except IndexFault α) (contract : α → β → α) : Prop where
  computes : ∀ body argument,
    range.Computes (instantiate body argument) (contract body argument)
  succeeds : ∀ {body argument}, bodies.Admitted body →
    arguments.AdmittedUnder (bodies.nesting body + 1) argument →
    range.Counts 1 (bodies.nesting body + arguments.nesting argument) →
    ∃ contracted, instantiate body argument = .ok contracted ∧ bodies.Admitted contracted
  nesting_le : ∀ body argument, bodies.nesting (contract body argument) ≤
    bodies.nesting body + arguments.nesting argument
  contract_raised : ∀ body argument, contract (bodies.rename (.up 1) body) argument = body

/-- Raising a tree computes the raised tree. -/
theorem TreeSort.Lawful.shift_computes_up (lawful : bodies.Lawful range) (body : α) :
    range.Computes (bodies.shift 0 1 body) (bodies.rename (.up 1) body) := by
  rw [← Renaming.shift_zero]
  exact lawful.shift_computes (by omega) body

namespace InstantiatesBy

/-- Instantiating a tree that was raised over the binder gives it back. -/
theorem undoesShift (instantiates : InstantiatesBy range bodies arguments instantiate contract)
    (lawful : bodies.Lawful range) : UndoesShift range bodies arguments instantiate := by
  intro tree argument
  have contracts := instantiates.computes (bodies.rename (.up 1) tree) argument
  rw [instantiates.contract_raised] at contracts
  refine IndexRange.Computes.oneResult ((lawful.shift_computes_up tree).bind contracts)
    (.ok tree) ?_
  rintro ⟨fits, argumentFits, counts⟩
  obtain ⟨raised, shifted, raisedFits, nesting⟩ := lawful.shift_within counts.parts.1 0 fits
  rw [← nesting] at argumentFits counts
  obtain ⟨contracted, instantiated, -⟩ :=
    instantiates.succeeds (lawful.admitted raisedFits) argumentFits counts
  exact ⟨⟨contracted, bind_eq_ok_iff.mpr ⟨raised, shifted, instantiated⟩⟩, tree, rfl⟩

/-- The two sides of the substitution lemma agree if what they compute does. -/
theorem substitutionLemma {subst : α → Nat → γ → Except IndexFault α} {replace : α → Nat → γ → α}
    {substArgument : β → Nat → γ → Except IndexFault β} {replaceArgument : β → Nat → γ → β}
    (instantiates : InstantiatesBy range bodies arguments instantiate contract)
    (substitutes : SubstitutesBy range bodies replacements subst replace)
    (substitutesArgument : SubstitutesBy range arguments replacements substArgument replaceArgument)
    (argumentsLawful : arguments.Lawful range) (replacementsLawful : replacements.Lawful range)
    {body : α}
    (commute : ∀ argument index replacement,
      replace (contract body argument) index replacement =
        contract (replace body (index + 1) (replacements.rename (.up 1) replacement))
          (replaceArgument argument index replacement)) :
    SubstitutionLemma range bodies arguments replacements instantiate subst substArgument
      body := by
  intro argument index replacement
  refine IndexRange.Computes.oneResult
    ((instantiates.computes ..).bind (substitutes.computes ..)) ?_ ?_
  · rw [commute]
    exact (replacementsLawful.shift_computes_up replacement).bind ((substitutes.computes ..).bind
      ((substitutesArgument.computes ..).bind (instantiates.computes ..)))
  · rintro ⟨bodyAdmitted, argumentFits, replacementFits, counts⟩
    have fromIndex := counts.of_le (Nat.le_add_right index 1)
    have fromOne := counts.of_le (Nat.le_add_left 1 index)
    have carried : range.Counts 0 (replacements.nesting replacement) := counts.parts.2
    simp only [bind_eq_ok_iff]
    constructor
    · obtain ⟨contracted, instantiated, contractedAdmitted⟩ :=
        instantiates.succeeds bodyAdmitted (argumentsLawful.mono argumentFits (by omega))
          (fromOne.of_steps_le (by omega))
      have nesting := instantiates.nesting_le body argument
      rw [← (instantiates.computes body argument).eq_of_ok instantiated] at nesting
      obtain ⟨substituted, -⟩ := substitutes.overflowsUnless contractedAdmitted index
        (replacementsLawful.mono replacementFits (by omega))
      exact ⟨_, contracted, instantiated,
        substituted.eq_ok ⟨fromIndex.of_steps_le (by omega), carried⟩⟩
    · rw [Nat.add_comm _ 1] at replacementFits
      obtain ⟨raised, shifted, raisedFits, raisedNesting⟩ :=
        replacementsLawful.shift_within carried _ replacementFits
      obtain ⟨substituted, replacedAdmitted⟩ := substitutes.overflowsUnless bodyAdmitted (index + 1)
        (replacementsLawful.mono raisedFits (by omega))
      rw [raisedNesting] at substituted
      -- The argument must have room under the binders that the replacement brings to the body.
      obtain ⟨replacedArgument, argumentSubstituted, replacedArgumentFits, argumentNesting⟩ :=
        substitutesArgument.within argumentsLawful replacementsLawful
          (argumentsLawful.mono argumentFits
            (by omega : bodies.nesting body + replacements.nesting replacement + 1 ≤ _))
          (replacementsLawful.mono replacementFits (by omega))
          ⟨fromIndex.of_steps_le (by omega), carried⟩
      have nesting := substitutes.nesting_le body (index + 1) raised
      obtain ⟨contracted, instantiated, -⟩ := instantiates.succeeds replacedAdmitted
        (argumentsLawful.mono replacedArgumentFits (by omega)) (fromOne.of_steps_le (by omega))
      exact ⟨contracted, raised, shifted, _,
        substituted.eq_ok ⟨counts.of_steps_le (by omega), carried⟩,
        replacedArgument, argumentSubstituted, instantiated⟩

end InstantiatesBy

end

/-- Instantiating a type computes its body at the argument. -/
theorem Ty.instantiate_instantiatesBy (range : IndexRange) :
    InstantiatesBy range (Ty.sort range) (Ty.sort range) (Ty.instantiate range) Ty.bodyAt where
  computes := Ty.instantiate_computes range
  succeeds admitted argumentFits counts :=
    Ty.instantiate_succeeds admitted (Ty.admittedUnder_sort_iff.mp argumentFits) counts
  nesting_le body argument := body.nesting_substAll_le (TySubst.nesting_cons_var_le argument)
  contract_raised := Ty.lift_bodyAt

/-- Instantiating a term computes its contraction. -/
theorem Term.instantiate_instantiatesBy (range : IndexRange) :
    InstantiatesBy range (Term.sort range) (Term.sort range) (Term.instantiate range)
      Term.contract where
  computes := Term.instantiate_computes range
  succeeds admitted argumentFits counts :=
    Term.instantiate_succeeds admitted (Term.admittedUnder_sort_iff.mp argumentFits) counts
  nesting_le body argument := body.nesting_substAll_le (fun _ _ => Nat.zero_le _)
    (TermSubst.nesting_cons_var_le argument)
  contract_raised := Term.lift_contract

/-- Instantiating a term at a type computes its contraction at the type. -/
theorem Term.instantiateType_instantiatesBy (range : IndexRange) :
    InstantiatesBy range (Term.sort range) (Ty.sort range) (Term.instantiateType range)
      Term.contractType where
  computes := Term.instantiateType_computes range
  succeeds admitted argumentFits counts :=
    Term.instantiateType_succeeds admitted (Ty.admittedUnder_sort_iff.mp argumentFits) counts
  nesting_le body argument := body.nesting_substAll_le (TySubst.nesting_cons_var_le argument)
    (fun _ _ => Nat.zero_le _)
  contract_raised := Term.lift_contractType

/-- A type has no terms in it to substitute for. -/
theorem Ty.unchanged_substitutesBy (range : IndexRange) :
    SubstitutesBy range (Ty.sort range) (Term.sort range) (fun ty _ _ => .ok ty)
      (fun ty _ _ => ty) where
  computes ty _ _ := .ok ty
  overflowsUnless {ty _} admitted _ _ := ⟨.ok ty, admitted⟩
  rename_replace _ _ _ _ := rfl
  nesting_le _ _ _ := Nat.le_add_right ..

/-- Instantiation undoes the shift that makes room for its binder, and it satisfies the
substitution lemma: for a type in a type, and for each kind of argument of a term with each
kind of substitution. -/
theorem instantiation_substitution_lemma (range : IndexRange) :
    (UndoesShift range (Ty.sort range) (Ty.sort range) (Ty.instantiate range) ∧
      ∀ body, SubstitutionLemma range (Ty.sort range) (Ty.sort range) (Ty.sort range)
        (Ty.instantiate range) (Ty.subst range) (Ty.subst range) body) ∧
    (UndoesShift range (Term.sort range) (Term.sort range) (Term.instantiate range) ∧
      (∀ body, SubstitutionLemma range (Term.sort range) (Term.sort range) (Term.sort range)
        (Term.instantiate range) (Term.subst range) (Term.subst range) body) ∧
      ∀ body, (.type, 0) ∉ body.freeOccurrences 0 →
        SubstitutionLemma range (Term.sort range) (Term.sort range) (Ty.sort range)
          (Term.instantiate range) (Term.substType range) (Term.substType range) body) ∧
    UndoesShift range (Term.sort range) (Ty.sort range) (Term.instantiateType range) ∧
      (∀ body, SubstitutionLemma range (Term.sort range) (Ty.sort range) (Ty.sort range)
        (Term.instantiateType range) (Term.substType range) (Ty.subst range) body) ∧
      ∀ body, (.term, 0) ∉ body.freeOccurrences 0 →
        SubstitutionLemma range (Term.sort range) (Ty.sort range) (Term.sort range)
          (Term.instantiateType range) (Term.subst range) (fun argument _ _ => .ok argument)
          body := by
  have types := Ty.sort_lawful range
  have terms := Term.sort_lawful range
  have inType := Ty.instantiate_instantiatesBy range
  have inTerm := Term.instantiate_instantiatesBy range
  have typeInTerm := Term.instantiateType_instantiatesBy range
  have substType := Term.substType_substitutesBy range
  have substTerm := Term.subst_substitutesBy range
  refine ⟨⟨inType.undoesShift types, ?inType⟩,
    ⟨inTerm.undoesShift terms, ?termWithTerm, ?termWithType⟩,
    typeInTerm.undoesShift terms, ?typeWithType, ?typeWithTerm⟩
  case inType =>
    intro body
    refine inType.substitutionLemma (Ty.subst_substitutesBy range) (Ty.subst_substitutesBy range)
      types types ?_
    intro argument index replacement
    rw [Ty.bodyAt_substAll, TySubst.under_point]
    rfl
  case termWithTerm =>
    intro body
    refine inTerm.substitutionLemma substTerm substTerm terms terms ?_
    intro argument index replacement
    rw [Term.contract_substAll fun _ _ => rfl, TySubst.under_var, TermSubst.under_point]
    rfl
  case termWithType =>
    intro body unused
    refine inTerm.substitutionLemma substType substType terms types ?_
    intro argument index replacement
    rw [Term.contract_substAll fun used => absurd used unused, TySubst.under_point,
      TermSubst.under_var]
    rfl
  case typeWithType =>
    intro body
    refine typeInTerm.substitutionLemma substType (Ty.subst_substitutesBy range) types types ?_
    intro argument index replacement
    rw [Term.contractType_substAll fun _ _ => rfl, TySubst.under_point, TermSubst.under_var]
    rfl
  case typeWithTerm =>
    intro body unused
    refine typeInTerm.substitutionLemma substTerm (Ty.unchanged_substitutesBy range) types terms ?_
    intro argument index replacement
    rw [Term.contractType_substAll fun used => absurd used unused, Ty.substAll_var,
      TySubst.under_var, TermSubst.under_point]
    rfl

/-- The body of a function that applies its argument to a variable outside and then to a
type, which refers to the binder next to its own. -/
def usingBinder : Term :=
  .tyApp ⟨0, 20⟩ (.app ⟨0, 4⟩ (.var ⟨0, 1⟩ 0) (.var ⟨2, 4⟩ 40)) (.all ⟨6, 20⟩ (.var ⟨18, 19⟩ 2))

/-- A body whose term binder is filled, with a type substituted before or after,
gives one result. -/
theorem instantiation_substitution_lemma_usingBinder :
    (.type, 0) ∉ usingBinder.freeOccurrences 0 ∧
    ∃ result,
      (do
        let contracted ← usingBinder.instantiate .standard (.var ⟨30, 31⟩ 8)
        contracted.substType .standard 0 (.var ⟨40, 41⟩ 3)) = .ok result ∧
      (do
        let raised ← Ty.shift .standard 0 1 (.var ⟨40, 41⟩ 3)
        let body ← usingBinder.substType .standard 1 raised
        let argument ← Term.substType .standard (.var ⟨30, 31⟩ 8) 0 (.var ⟨40, 41⟩ 3)
        body.instantiate .standard argument) = .ok result := by
  have unused : (.type, 0) ∉ usingBinder.freeOccurrences 0 := by decide
  have law := (instantiation_substitution_lemma .standard).2.1.2.2 usingBinder unused
    (.var ⟨30, 31⟩ 8) 0 (.var ⟨40, 41⟩ 3)
  have bodyRoom : usingBinder.Admitted .standard := by decide
  have argumentRoom : (Term.lift 2 (.var ⟨30, 31⟩ 8)).Admitted .standard := by decide
  have replacementRoom : (Ty.lift 2 (.var ⟨40, 41⟩ 3)).Admitted .standard := by decide
  exact ⟨unused, law.succeed ⟨bodyRoom, argumentRoom, replacementRoom, .inr (by decide)⟩⟩

/-- A body that uses its binder as a term and as a type does not satisfy the lemma: once the
binder is gone, the type refers to the variable that is substituted for. -/
example :
    let body : Term := .tyApp ⟨0, 3⟩ (.var ⟨0, 1⟩ 0) (.var ⟨2, 3⟩ 0)
    (do
      let contracted ← body.instantiate .standard (.var ⟨30, 31⟩ 8)
      contracted.substType .standard 0 (.var ⟨40, 41⟩ 3)) ≠
    (do
      let raised ← Ty.shift .standard 0 1 (.var ⟨40, 41⟩ 3)
      let body ← body.substType .standard 1 raised
      let argument ← Term.substType .standard (.var ⟨30, 31⟩ 8) 0 (.var ⟨40, 41⟩ 3)
      body.instantiate .standard argument) := by
  decide

end PolyLambda.Indexed
