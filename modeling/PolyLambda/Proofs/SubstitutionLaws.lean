import PolyLambda.Proofs.ShiftLaws

/-!
# Substitution and shifting

Substitution for one variable commutes with shifting, whether the variable lies above or
below the cutoff: for types, for terms in terms and for types in terms, and for trees with
dangling indices or indices of the wrong kind.

The law compares two computations. They differ in the indices that they come to on the
way, and in the binders that they count, so that close to the end of the range one may succeed
where the other does not.
-/

namespace PolyLambda.Indexed

/-! ## Two computations with one result -/

/-- Two computations have one result wherever both of them have one, and both have it if
there is room for the indices. -/
structure OneResult {α : Type} (room : Prop) (left right : Except IndexFault α) : Prop where
  agree : ∀ first second, left = .ok first → right = .ok second → first = second
  succeed : room → ∃ result, left = .ok result ∧ right = .ok result

/-- Two computations of one value have one result where there is room for both. -/
theorem IndexRange.Computes.oneResult {α : Type} {range : IndexRange} {value : α}
    {left right : Except IndexFault α} {room : Prop} (leftComputes : range.Computes left value)
    (rightComputes : range.Computes right value)
    (succeed : room → (∃ result, left = .ok result) ∧ ∃ result, right = .ok result) :
    OneResult room left right where
  agree first second leftOk rightOk := by
    rw [leftComputes.eq_of_ok leftOk, rightComputes.eq_of_ok rightOk]
  succeed fits :=
    ⟨value, leftComputes.eq_ok (succeed fits).1, rightComputes.eq_ok (succeed fits).2⟩

/-! ## Renaming after the substitution for one variable -/

/-- Raising tells indices apart. -/
theorem Renaming.up_injective (amount : Nat) : Function.Injective (Renaming.up amount) :=
  fun _ _ same => Nat.add_right_cancel same

/-- Raising from a cutoff tells indices apart. -/
theorem Renaming.shift_injective (cutoff amount : Nat) :
    Function.Injective (Renaming.shift cutoff amount) := by
  intro first second same
  unfold Renaming.shift at same
  split at same <;> split at same <;> omega

/-- Renaming after putting a type in one place is putting the renamed type in the
renamed place. -/
theorem TySubst.point_rename {mapping : Renaming} (injective : Function.Injective mapping)
    (index : Nat) (replacement : Ty) (span : Span) (other : Nat) :
    (TySubst.point index replacement span other).rename mapping =
      TySubst.point (mapping index) (replacement.rename mapping) span (mapping other) := by
  simp only [TySubst.point, injective.eq_iff]
  split <;> rfl

/-- Renaming after putting a term in one place is putting the renamed term in the
renamed place. -/
theorem TermSubst.point_rename {mapping : Renaming} (injective : Function.Injective mapping)
    (index : Nat) (replacement : Term) (span : Span) (other : Nat) :
    (TermSubst.point index replacement span other).rename mapping =
      TermSubst.point (mapping index) (replacement.rename mapping) span (mapping other) := by
  simp only [TermSubst.point, injective.eq_iff]
  split <;> rfl

/-- Renaming commutes with the substitution for one variable if it keeps the others apart
from it. -/
theorem Ty.point_rename {mapping : Renaming} (injective : Function.Injective mapping) (ty : Ty)
    (index : Nat) (replacement : Ty) :
    (ty.substAll (.point index replacement)).rename mapping =
      (ty.rename mapping).substAll (.point (mapping index) (replacement.rename mapping)) := by
  simp only [Ty.substAll_rename, Ty.rename_substAll, TySubst.point_rename injective]

@[inherit_doc Ty.point_rename]
theorem Term.point_rename {mapping : Renaming} (injective : Function.Injective mapping)
    (term : Term) (index : Nat) (replacement : Term) :
    (term.substAll .var (.point index replacement)).rename mapping =
      (term.rename mapping).substAll .var
        (.point (mapping index) (replacement.rename mapping)) := by
  simp only [Term.substAll_rename, Term.rename_substAll, TermSubst.point_rename injective,
    Ty.rename]

@[inherit_doc Ty.point_rename]
theorem Term.typePoint_rename {mapping : Renaming} (injective : Function.Injective mapping)
    (term : Term) (index : Nat) (replacement : Ty) :
    (term.substAll (.point index replacement) .var).rename mapping =
      (term.rename mapping).substAll (.point (mapping index) (replacement.rename mapping))
        .var := by
  simp only [Term.substAll_rename, Term.rename_substAll, TySubst.point_rename injective,
    Term.rename]

/-! ## Substitution and shifting -/

/-- Raising from a cutoff adds the amount to what is at or above it. -/
theorem Renaming.shift_eq_ite (cutoff amount index : Nat) :
    Renaming.shift cutoff amount index = if cutoff ≤ index then index + amount else index := by
  unfold Renaming.shift
  split <;> omega

section

variable {α γ : Type} {range : IndexRange} {trees : TreeSort α} {replacements : TreeSort γ}
  {subst : α → Nat → γ → Except IndexFault α} {replace : α → Nat → γ → α}

/-- Substituting and then shifting is shifting both trees and then substituting, at an index
that has moved if it lies from the cutoff on. -/
def CommutesWithShift (range : IndexRange) (trees : TreeSort α) (replacements : TreeSort γ)
    (subst : α → Nat → γ → Except IndexFault α) : Prop :=
  ∀ (tree : α) (index : Nat) (replacement : γ) (cutoff up : Nat),
    OneResult
      (trees.AdmittedUnder up tree ∧
        replacements.AdmittedUnder (up + trees.nesting tree) replacement ∧
        range.Counts (index + up) (trees.nesting tree) ∧
        range.Counts cutoff (trees.nesting tree + replacements.nesting replacement))
      (do
        let replaced ← subst tree index replacement
        trees.shift cutoff up replaced)
      (do
        let tree ← trees.shift cutoff up tree
        let replacement ← replacements.shift cutoff up replacement
        subst tree (if cutoff ≤ index then index + up else index) replacement)

/-- What the laws of a substitution for one variable rest on. It computes `replace`, and it
succeeds where the replacement has room under the binders of the tree and the binders can be
counted. -/
structure SubstitutesBy (range : IndexRange) (trees : TreeSort α) (replacements : TreeSort γ)
    (subst : α → Nat → γ → Except IndexFault α) (replace : α → Nat → γ → α) : Prop where
  computes : ∀ tree index replacement,
    range.Computes (subst tree index replacement) (replace tree index replacement)
  overflowsUnless : ∀ {tree replacement}, trees.Admitted tree → ∀ index,
    replacements.AdmittedUnder (trees.nesting tree) replacement →
    OverflowsUnless (range.Counts index (trees.nesting tree) ∧
          range.Counts 0 (replacements.nesting replacement))
        (subst tree index replacement) (replace tree index replacement) ∧
      trees.Admitted (replace tree index replacement)
  rename_replace : ∀ {mapping : Renaming}, Function.Injective mapping →
    ∀ tree index replacement, trees.rename mapping (replace tree index replacement) =
      replace (trees.rename mapping tree) (mapping index) (replacements.rename mapping replacement)
  nesting_le : ∀ tree index replacement, trees.nesting (replace tree index replacement) ≤
    trees.nesting tree + replacements.nesting replacement

/-- A substitution keeps the room of the tree if the replacement has as much in its place. -/
theorem SubstitutesBy.within (substitutes : SubstitutesBy range trees replacements subst replace)
    (lawful : trees.Lawful range) (replacementsLawful : replacements.Lawful range)
    {room index : Nat} {tree : α} {replacement : γ} (fits : trees.AdmittedUnder room tree)
    (replacementFits : replacements.AdmittedUnder (room + trees.nesting tree) replacement)
    (counts : range.Counts index (trees.nesting tree) ∧
      range.Counts 0 (replacements.nesting replacement)) :
    ∃ result, subst tree index replacement = .ok result ∧ trees.AdmittedUnder room result ∧
      trees.nesting result ≤ trees.nesting tree + replacements.nesting replacement := by
  have inPlace := replacementsLawful.mono replacementFits (Nat.le_add_left ..)
  obtain ⟨substituted, -⟩ := substitutes.overflowsUnless (lawful.admitted fits) index inPlace
  refine ⟨_, substituted.eq_ok counts, ?_, substitutes.nesting_le tree index replacement⟩
  -- Raising the result is substituting into the raised tree, where the index fits again.
  have raisedInPlace := replacementsLawful.admittedUnder_rename replacementFits
    (fun index => Nat.le_refl (Renaming.up room index))
  rw [← lawful.nesting_rename tree (.up room)] at raisedInPlace
  rw [TreeSort.AdmittedUnder, substitutes.rename_replace (Renaming.up_injective room)]
  exact (substitutes.overflowsUnless fits _ raisedInPlace).2

/-- What a substitution computes commutes with shifting, so the substitution does where both
sides succeed. -/
theorem SubstitutesBy.commutesWithShift
    (substitutes : SubstitutesBy range trees replacements subst replace)
    (lawful : trees.Lawful range) (replacementsLawful : replacements.Lawful range) :
    CommutesWithShift range trees replacements subst := by
  intro tree index replacement cutoff up
  rw [← Renaming.shift_eq_ite]
  refine IndexRange.Computes.oneResult
    ((substitutes.computes ..).bind (lawful.shift_computes (by omega) _)) ?_ ?_
  · rw [substitutes.rename_replace (Renaming.shift_injective cutoff up)]
    exact (lawful.shift_computes (by omega) tree).bind
      ((replacementsLawful.shift_computes (by omega) replacement).bind (substitutes.computes ..))
  · rintro ⟨fits, replacementFits, indexCounts, counts⟩
    have replacementCounts : range.Counts cutoff (replacements.nesting replacement) :=
      counts.of_steps_le (Nat.le_add_left ..)
    have carried := replacementCounts.of_le (Nat.zero_le cutoff)
    simp only [bind_eq_ok_iff]
    constructor
    · have unmovedCounts := indexCounts.of_le (Nat.le_add_right index up)
      obtain ⟨replaced, substituted, replacedFits, nesting⟩ :=
        substitutes.within lawful replacementsLawful fits replacementFits ⟨unmovedCounts, carried⟩
      obtain ⟨result, shifted, -⟩ := lawful.shift_within (counts.of_steps_le nesting) 0 replacedFits
      exact ⟨result, replaced, substituted, shifted⟩
    · obtain ⟨raised, shifted, raisedFits, nesting⟩ :=
        lawful.shift_within (counts.of_steps_le (Nat.le_add_right ..)) 0 fits
      obtain ⟨raisedReplacement, replacementShifted, raisedReplacementFits, sameNesting⟩ :=
        replacementsLawful.shift_within replacementCounts _ replacementFits
      rw [← nesting] at raisedReplacementFits
      obtain ⟨substituted, -⟩ := substitutes.overflowsUnless (lawful.admitted raisedFits)
        (Renaming.shift cutoff up index) raisedReplacementFits
      rw [nesting, sameNesting] at substituted
      -- The index has moved up no further than by the amount of the shift.
      have movedCounts := indexCounts.of_le (Renaming.shift_le cutoff up index)
      exact ⟨_, raised, shifted, raisedReplacement, replacementShifted,
        substituted.eq_ok ⟨movedCounts, carried⟩⟩

end

/-- Substituting in a type puts the replacement in place of one type variable. -/
theorem Ty.subst_substitutesBy (range : IndexRange) :
    SubstitutesBy range (Ty.sort range) (Ty.sort range) (Ty.subst range)
      (fun ty index replacement => ty.substAll (.point index replacement)) where
  computes := Ty.subst_computes range
  overflowsUnless admitted index replacementFits :=
    Ty.subst_overflowsUnless admitted index (Ty.admittedUnder_sort_iff.mp replacementFits)
  rename_replace := Ty.point_rename
  nesting_le ty index replacement :=
    ty.nesting_substAll_le (TySubst.nesting_point_le index replacement)

/-- Substituting in a term puts the replacement in place of one variable. -/
theorem Term.subst_substitutesBy (range : IndexRange) :
    SubstitutesBy range (Term.sort range) (Term.sort range) (Term.subst range)
      (fun term index replacement => term.substAll .var (.point index replacement)) where
  computes := Term.subst_computes range
  overflowsUnless {term _} admitted index replacementFits := by
    obtain ⟨substituted, replacedAdmitted⟩ := Term.subst_overflowsUnless admitted index
      ((Term.admittedUnder_sort_iff.mp replacementFits).mono term.termNesting_le)
    exact ⟨substituted.of_imp (And.imp_left (·.of_steps_le term.termNesting_le)), replacedAdmitted⟩
  rename_replace := Term.point_rename
  nesting_le term index replacement :=
    term.nesting_substAll_le (fun _ _ => Nat.zero_le _)
      (TermSubst.nesting_point_le index replacement)

/-- Substituting a type in a term puts the replacement in place of one type variable. -/
theorem Term.substType_substitutesBy (range : IndexRange) :
    SubstitutesBy range (Term.sort range) (Ty.sort range) (Term.substType range)
      (fun term index replacement => term.substAll (.point index replacement) .var) where
  computes := Term.substType_computes range
  overflowsUnless admitted index replacementFits :=
    Term.substType_overflowsUnless admitted index (Ty.admittedUnder_sort_iff.mp replacementFits)
  rename_replace := Term.typePoint_rename
  nesting_le term index replacement :=
    term.nesting_substAll_le (TySubst.nesting_point_le index replacement)
      (fun _ _ => Nat.zero_le _)

/-- Each of the three substitutions commutes with shifting. -/
theorem substitution_commutes_with_shift (range : IndexRange) :
    CommutesWithShift range (Ty.sort range) (Ty.sort range) (Ty.subst range) ∧
    CommutesWithShift range (Term.sort range) (Term.sort range) (Term.subst range) ∧
    CommutesWithShift range (Term.sort range) (Ty.sort range) (Term.substType range) :=
  ⟨(Ty.subst_substitutesBy range).commutesWithShift (Ty.sort_lawful range) (Ty.sort_lawful range),
    (Term.subst_substitutesBy range).commutesWithShift (Term.sort_lawful range)
      (Term.sort_lawful range),
    (Term.substType_substitutesBy range).commutesWithShift (Term.sort_lawful range)
      (Ty.sort_lawful range)⟩

/-- A type substituted above the cutoff and a shift give one result in either order. -/
theorem substitution_commutes_with_shift_straddling :
    straddling.nesting = 1 ∧
    ∃ result,
      (do
        let replaced ← straddling.substType .standard 2 (.var ⟨40, 41⟩ 7)
        replaced.shift .standard 1 5) = .ok result ∧
      (do
        let raised ← straddling.shift .standard 1 5
        let replacement ← Ty.shift .standard 1 5 (.var ⟨40, 41⟩ 7)
        raised.substType .standard 7 replacement) = .ok result := by
  have room : (straddling.lift 5).Admitted .standard := by decide
  have replacementRoom : (Ty.lift 6 (.var ⟨40, 41⟩ 7)).Admitted .standard := by decide
  have law := (substitution_commutes_with_shift .standard).2.2 straddling 2 (.var ⟨40, 41⟩ 7) 1 5
  exact ⟨rfl, law.succeed ⟨room, replacementRoom, .inr (by decide), .inr (by decide)⟩⟩

end PolyLambda.Indexed
