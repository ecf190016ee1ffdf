import PolyLambda.Proofs.SessionReduction
import PolyLambda.Proofs.SessionSafety

/-!
# Checking normal forms again

After a reduction the normal form is checked like any other term, and this check has
its own ways to fail. In the contexts that sessions reach a normal form is typed once
type variables of one name are made one. So only one thing can go wrong, and only where
a type name is used twice: an argument has a type that reads like the one its function
asks for and is another. Such a clash is then reported like a clash in the statement,
not as a change of type.
-/

namespace PolyLambda

namespace Indexed

/-! ## Terms that a renaming makes typed -/

/-- A part of a term of `source` is typed after the renaming, which leaves the binders
around the part alone. -/
def Term.TypedAfter (mapping : Renaming) (source scope : Context) (part : Term) : Prop :=
  ∃ inner target ty, scope = inner ++ source ∧
    (mapping.underMany inner.length).Carries scope target ∧
    Typed target (part.rename (mapping.underMany inner.length)) ty

/-- If a term is typed after a renaming, then all its parts are. -/
theorem Typed.typedAfter {mapping : Renaming} {source target : Context} {term : Term} {ty : Ty}
    (typed : Typed target (term.rename mapping) ty) (carries : mapping.Carries source target)
    {scope : Context} {part : Term} (member : (scope, part) ∈ term.parts source) :
    part.TypedAfter mapping source scope := by
  have whole : term.TypedAfter mapping source source := ⟨[], target, ty, rfl, carries, typed⟩
  refine @Term.forall_parts (Term.TypedAfter mapping source) ?_ ?_ ?_ ?_ _ _ whole scope part member
  · rintro _ span paramType body ⟨inner, target, ty, rfl, carries, typed⟩
    obtain ⟨_, _, _, bodyTyped, _⟩ := typed.generation
    exact ⟨_ :: inner, _, _, rfl, carries.underTerm paramType, bodyTyped⟩
  · rintro _ span function argument ⟨inner, target, ty, rfl, carries, typed⟩
    obtain ⟨_, _, _, functionTyped, argumentTyped, _⟩ := typed.generation
    exact ⟨⟨inner, target, _, rfl, carries, functionTyped⟩,
      ⟨inner, target, _, rfl, carries, argumentTyped⟩⟩
  · rintro _ span body ⟨inner, target, ty, rfl, carries, typed⟩
    obtain ⟨_, _, bodyTyped, _⟩ := typed.generation
    exact ⟨_ :: inner, _, _, rfl, carries.underType, bodyTyped⟩
  · rintro _ span function argument ⟨inner, target, ty, rfl, carries, typed⟩
    obtain ⟨_, _, functionTyped, _⟩ := typed.generation
    exact ⟨inner, target, _, rfl, carries, functionTyped⟩

/-- Types clash that a renaming makes the same, the renaming taken under the binders
around the clash. -/
def TypeError.VanishesUnder (mapping : Renaming) (source : Context) : TypeError → Prop
  | .argumentMismatch _ expected found scope => ∃ inner, scope = inner ++ source ∧
      ¬ expected.Same found ∧
      (expected.rename (mapping.underMany inner.length)).Same
        (found.rename (mapping.underMany inner.length))
  | _ => False

/-- Deduction fails at a term that is typed after a renaming only at an argument, whose
type the renaming makes the right one. -/
theorem Typed.deduce_error {mapping : Renaming} {source target : Context} {term : Term} {ty : Ty}
    (typed : Typed target (term.rename mapping) ty) (carries : mapping.Carries source target)
    (closed : source.Scoped) (inScope : term.InScope source) {range : IndexRange}
    {error : TypeError} (failed : term.deduce range source = .error error) :
    (∃ fault, error = .indexFault fault) ∨ error.VanishesUnder mapping source := by
  obtain ⟨scope, part, member, fails⟩ := Term.deduce_error failed
  obtain ⟨_, scopeClosed, partInScope⟩ := inScope.parts closed member
  obtain ⟨inner, partTarget, partType, rfl, partCarries, partTyped⟩ :=
    typed.typedAfter carries member
  -- A deduced type is the type after the renaming, up to the renaming.
  have agrees : ∀ {piece : Term} {found known : Ty},
      piece.deduce range (inner ++ source) = .ok found →
      Typed partTarget (piece.rename (mapping.underMany inner.length)) known →
      (found.rename (mapping.underMany inner.length)).Same known := by
    intro piece found known deduced knownTyped
    exact ((Term.deduce_typed scopeClosed deduced).rename partCarries).unique knownTyped
  cases fails with
  | illegal outOfScope => exact absurd partInScope outOfScope
  | indexFault => exact .inl ⟨_, rfl⟩
  | @notFunction span function argument found argumentType functionDeduced _ noArrow =>
      obtain ⟨_, _, _, functionTyped, _, _⟩ := partTyped.generation
      have same := agrees functionDeduced functionTyped
      cases found with
      | arrow arrowSpan domain codomain => exact absurd rfl (noArrow arrowSpan domain codomain)
      | var | all => cases same
  | argumentMismatch functionDeduced argumentDeduced differ =>
      obtain ⟨_, _, _, functionTyped, argumentTyped, _⟩ := partTyped.generation
      have arrows := agrees functionDeduced functionTyped
      obtain ⟨_, _, _, equal, domains, _⟩ := Ty.same_arrow_iff.mp arrows
      cases equal
      have arguments := agrees argumentDeduced argumentTyped
      exact .inr ⟨inner, rfl, differ, domains.trans arguments.symm⟩
  | @notUniversal span function argument found functionDeduced noUniversal =>
      obtain ⟨_, _, functionTyped, _⟩ := partTyped.generation
      have same := agrees functionDeduced functionTyped
      cases found with
      | all allSpan body => exact absurd rfl (noUniversal allSpan body)
      | var | arrow => cases same

end Indexed

/-! ## Names inside a term -/

/-- A renaming that keeps names keeps them under further binders. -/
theorem Scope.getElem?_underMany {scope : Scope} {mapping : Indexed.Renaming}
    (keeps : ∀ index, scope[mapping index]? = scope[index]?) (names : Scope) (index : Nat) :
    (names ++ scope)[mapping.underMany names.length index]? = (names ++ scope)[index]? := by
  induction names generalizing index with
  | nil => exact keeps index
  | cons binder names namesIH =>
      cases index with
      | zero => rfl
      | succ index => exact namesIH index

/-- Types that collapsing makes the same read the same, also inside a term. -/
theorem Named.Context.text_eq_of_collapsed_inside {context : Context} {indexed : Indexed.Context}
    (describes : context.scope.Describes indexed) {inner : Indexed.Context} {ty other : Indexed.Ty}
    {named otherNamed : Ty} (naming : context.nameTypeIn (inner ++ indexed) ty = .ok named)
    (otherNaming : context.nameTypeIn (inner ++ indexed) other = .ok otherNamed)
    (collapsed : (ty.rename (context.scope.oldest.underMany inner.length)).Same
      (other.rename (context.scope.oldest.underMany inner.length))) :
    named.text = otherNamed.text := by
  obtain ⟨_, namedBy⟩ := (nameTypeIn_eq_ok_iff describes inner).mp naming
  obtain ⟨_, otherNamedBy⟩ := (nameTypeIn_eq_ok_iff describes inner).mp otherNaming
  obtain ⟨names, scopeEq, kinds⟩ := context.inside_scope inner
  have lengths : names.length = inner.length := by
    simpa using congrArg List.length kinds
  have keeps : ∀ index, (context.inside inner).1.scope[
      context.scope.oldest.underMany inner.length index]? =
        (context.inside inner).1.scope[index]? := by
    intro index
    rw [scopeEq, ← lengths]
    exact Scope.getElem?_underMany (Scope.getElem?_oldest context.scope) names index
  have bare := ((namedBy.rename keeps).bare_eq (otherNamedBy.rename keeps) collapsed).1
  rw [← Ty.text_bare named, bare, Ty.text_bare]

/-! ## The check after a reduction -/

namespace Session

variable {limits : Limits} {context : Named.Context} {indexed : Indexed.Context}

/-- The check of a normal form fails only at types that collapsing makes the same. -/
theorem Sound.normal_deduce_error (sound : Sound limits context indexed)
    {range : Indexed.IndexRange} {depth : Nat} {term normal : Indexed.Term} {expected : Indexed.Ty}
    {error : Indexed.TypeError} (deduced : term.deduce range indexed = .ok expected)
    (normalized : term.normalize range depth indexed = .ok normal)
    (failed : normal.deduce range indexed = .error error) :
    (∃ fault, error = .indexFault fault) ∨
      error.VanishesUnder context.scope.oldest indexed := by
  have preserved := sound.normal_typed deduced normalized
  have termInScope := (Indexed.Term.deduce_typed sound.closed deduced).inScope
  have normalInScope := Indexed.Term.normalize_inScope sound.closed termInScope normalized
  exact preserved.deduce_error sound.carries sound.closed normalInScope failed

/-- Where no type name is used twice no clash vanishes. -/
theorem not_vanishesUnder_of_distinct (distinct : (context.scope.names .type).Nodup)
    (error : Indexed.TypeError) : ¬ error.VanishesUnder context.scope.oldest indexed := by
  intro vanishes
  cases error with
  | argumentMismatch span expected found scope =>
      obtain ⟨inner, _, differ, same⟩ := vanishes
      have unmoved : context.scope.oldest = fun index => index :=
        funext (Scope.oldest_eq_self distinct)
      rw [unmoved, Indexed.Renaming.underMany_id, Indexed.Ty.rename_id,
        Indexed.Ty.rename_id] at same
      exact differ same
  | illegal | indexFault | notFunction | notUniversal => exact vanishes

/-- A clash that collapsing removes is reported as one of two types that read the same. -/
theorem Sound.inContext_of_vanishes (sound : Sound limits context indexed)
    {error : Indexed.TypeError} (inScope : error.InScope indexed)
    (vanishes : error.VanishesUnder context.scope.oldest indexed) :
    ∃ span expected found, error.inContext context = .mismatch (.argument span expected found) ∧
      expected.text = found.text := by
  cases error with
  | argumentMismatch span expected found scope =>
      obtain ⟨inner, rfl, _, collapsed⟩ := vanishes
      obtain ⟨_, expectedInScope, foundInScope⟩ := inScope
      obtain ⟨expectedName, expectedNamed⟩ :=
        Named.Context.nameTypeIn_of_inScope sound.describes inner expectedInScope
      obtain ⟨foundName, foundNamed⟩ :=
        Named.Context.nameTypeIn_of_inScope sound.describes inner foundInScope
      exact ⟨span, expectedName, foundName,
        Indexed.TypeError.argumentMismatch_inContext expectedNamed foundNamed,
        Named.Context.text_eq_of_collapsed_inside sound.describes expectedNamed foundNamed
          collapsed⟩
  | illegal | indexFault | notFunction | notUniversal => exact vanishes.elim

section

variable {named : Named.Term} {term normal : Indexed.Term} {expected : Indexed.Ty}

/-- A failure of the check after a reduction is reported as it stands. -/
theorem exec_reduce_of_error (span : Span) {error : Indexed.TypeError}
    (checked : checkTerm limits context named = .ok (term, indexed, expected))
    (normalized : term.normalize limits.range limits.depth indexed = .ok normal)
    (failed : normal.deduce limits.range indexed = .error error) :
    (exec limits context ⟨span, .reduce named⟩).2 = .error (.typing (error.inContext context)) := by
  apply exec_eq_error_iff.mpr
  simp only [effect, reduce, checked, normalized, failed, bind, Except.bind, mapError_ok,
    mapError_error]

/-- Where the normal form has a type, it is either the right one or reported. -/
theorem Sound.exec_reduce_of_ok (sound : Sound limits context indexed) (span : Span)
    {found : Indexed.Ty}
    (checked : checkTerm limits context named = .ok (term, indexed, expected))
    (normalized : term.normalize limits.range limits.depth indexed = .ok normal)
    (deduced : normal.deduce limits.range indexed = .ok found) :
    (∃ normalName ty,
        (exec limits context ⟨span, .reduce named⟩).2 = .ok (.reduced normalName ty)) ∨
      ∃ change, (exec limits context ⟨span, .reduce named⟩).2 = .error (.unsound change) := by
  obtain ⟨_, _, expectedDeduced⟩ := sound.checked checked
  have normalInScope := (Indexed.Term.deduce_typed sound.closed deduced).inScope
  obtain ⟨expectedName, expectedNamed⟩ :=
    Named.Context.nameType_of_inScope sound.describes (sound.inScope expectedDeduced)
  by_cases same : found.Same expected
  · obtain ⟨normalName, normalNamed⟩ :=
      Named.Context.nameTerm_of_inScope sound.describes normalInScope
    have effective : effect limits context ⟨span, .reduce named⟩ =
        .ok (context, .reduced normalName expectedName) := by
      simp only [effect, reduce, checked, normalized, deduced, if_pos same, nameTerm, nameType,
        normalNamed, expectedNamed, bind, Except.bind, mapError_ok, pure, Except.pure]
    exact .inl ⟨normalName, expectedName, congrArg Prod.snd (exec_eq_ok_iff.mpr effective)⟩
  · obtain ⟨foundName, foundNamed⟩ :=
      Named.Context.nameType_of_inScope sound.describes (sound.inScope deduced)
    have failed : effect limits context ⟨span, .reduce named⟩ = .error (.unsound
        ⟨expectedName, foundName, shadowedNames context [expected, found], span⟩) := by
      simp only [effect, reduce, checked, normalized, deduced, if_neg same, nameType,
        expectedNamed, foundNamed, bind, Except.bind, mapError_ok]
    exact .inr ⟨_, exec_eq_error_iff.mpr failed⟩

/-- Once a term has been checked and normalised, the statement yields the normal form or
reports a change of type, with two exceptions. Where a type name is used twice it may
report an argument whose type reads like the one asked for, and where a tree is too high
for the range of indices, a fault. -/
theorem checked_reduction_result (reachable : Reachable limits context) (span : Span)
    (checked : checkTerm limits context named = .ok (term, indexed, expected))
    (normalized : term.normalize limits.range limits.depth indexed = .ok normal) :
    (∃ normalName ty,
        (exec limits context ⟨span, .reduce named⟩).2 = .ok (.reduced normalName ty)) ∨
      (∃ change, (exec limits context ⟨span, .reduce named⟩).2 = .error (.unsound change)) ∨
      (¬ (context.scope.names .type).Nodup ∧ ∃ argumentSpan expectedName foundName,
        (exec limits context ⟨span, .reduce named⟩).2 =
          .error (.typing (.mismatch (.argument argumentSpan expectedName foundName))) ∧
        expectedName.text = foundName.text) ∨
      (¬ normal.DeducesWithin limits.range indexed ∧ ∃ fault,
        (exec limits context ⟨span, .reduce named⟩).2 = .error (.typing (.indexFault fault))) := by
  obtain ⟨_, sound⟩ := reachable.recorded.sound
  obtain ⟨rfl, _, deduced⟩ := sound.checked checked
  have termInScope := (Indexed.Term.deduce_typed sound.closed deduced).inScope
  have normalInScope := Indexed.Term.normalize_inScope sound.closed termInScope normalized
  cases normalDeduced : normal.deduce limits.range indexed with
  | ok found =>
      rcases sound.exec_reduce_of_ok span checked normalized normalDeduced with reduced | unsound
      · exact .inl reduced
      · exact .inr (.inl unsound)
  | error error =>
      rw [exec_reduce_of_error span checked normalized normalDeduced]
      rcases sound.normal_deduce_error deduced normalized normalDeduced with ⟨fault, rfl⟩ | vanishes
      · have high := normalInScope.not_deducesWithin sound.closed normalDeduced
        exact .inr (.inr (.inr ⟨high, fault, rfl⟩))
      · have errorInScope := normalInScope.deduce_error sound.closed normalDeduced
        obtain ⟨argumentSpan, expectedName, foundName, reported, sameText⟩ :=
          sound.inContext_of_vanishes errorInScope vanishes
        rw [reported]
        have hidden : ¬ (context.scope.names .type).Nodup := by
          intro distinct
          exact not_vanishesUnder_of_distinct distinct error vanishes
        exact .inr (.inr (.inl ⟨hidden, argumentSpan, expectedName, foundName, rfl, sameText⟩))

end

/-! ## A clash that is reported as one in the statement -/

/-- The term of `hiddenReduction`. -/
def hiddenTerm : Named.Term :=
  .app ⟨45, 48⟩ (.var ⟨45, 46⟩ "d") (.var ⟨47, 48⟩ "a")

/-- The hidden term has the type that its statement is checked with. -/
theorem hiddenTerm_checked : checkTerm .standard (hiddenReduction.context .standard) hiddenTerm =
    .ok (.app ⟨45, 48⟩ (.var ⟨45, 46⟩ 1) (.var ⟨47, 48⟩ 0), hiddenContext, .var ⟨26, 27⟩ 2) :=
  rfl

/-- The hidden term is normalised to an application of the unfolded function. -/
theorem hiddenTerm_normalized :
    (Indexed.Term.app ⟨45, 48⟩ (.var ⟨45, 46⟩ 1) (.var ⟨47, 48⟩ 0)).normalize
        Limits.standard.range Limits.standard.depth hiddenContext =
      .ok (.app ⟨45, 48⟩ (.var ⟨23, 24⟩ 3) (.var ⟨47, 48⟩ 0)) :=
  rfl

/-- The unfolded `f` asks for the older `A`, and `a` is of the newer one. -/
theorem hiddenReduction_clashes :
    (exec .standard (hiddenReduction.context .standard) ⟨⟨38, 48⟩, .reduce hiddenTerm⟩).2 =
      .error (.typing (.mismatch (.argument ⟨47, 48⟩ (.var ⟨21, 22⟩ "A") (.var ⟨35, 36⟩ "A")))) :=
  rfl

/-- The hidden reduction is checked and normalised, and then reported as a clash of two
types of one text. -/
theorem checked_reduction_result_hidden :
    ∃ term indexed expected normal,
      checkTerm .standard (hiddenReduction.context .standard) hiddenTerm =
          .ok (term, indexed, expected) ∧
        term.normalize Limits.standard.range Limits.standard.depth indexed = .ok normal ∧
        ¬ ((hiddenReduction.context .standard).scope.names .type).Nodup ∧
        ∃ argumentSpan expectedName foundName,
          (exec .standard (hiddenReduction.context .standard)
              ⟨⟨38, 48⟩, .reduce hiddenTerm⟩).2 =
            .error (.typing (.mismatch (.argument argumentSpan expectedName foundName))) ∧
          expectedName.text = foundName.text := by
  refine ⟨_, _, _, _, hiddenTerm_checked, hiddenTerm_normalized, ?_⟩
  rcases checked_reduction_result (hiddenReduction.reachable .standard) ⟨38, 48⟩ hiddenTerm_checked
    hiddenTerm_normalized with ⟨_, _, reduced⟩ | ⟨_, unsound⟩ | clash | ⟨_, _, faulty⟩
  · cases hiddenReduction_clashes.symm.trans reduced
  · cases hiddenReduction_clashes.symm.trans unsound
  · exact clash
  · cases hiddenReduction_clashes.symm.trans faulty

/-- A term that is checked and normalised need not be reduced or reported as changing
its type: the check of the normal form can fail as that of a statement does. -/
theorem check_after_reduction_fails :
    ¬ ∀ context span named term indexed expected normal, Reachable .standard context →
      checkTerm .standard context named = .ok (term, indexed, expected) →
      term.normalize Limits.standard.range Limits.standard.depth indexed = .ok normal →
      (∃ normalName ty,
        (exec .standard context ⟨span, .reduce named⟩).2 = .ok (.reduced normalName ty)) ∨
      ∃ change, (exec .standard context ⟨span, .reduce named⟩).2 = .error (.unsound change) := by
  intro always
  rcases always _ ⟨38, 48⟩ _ _ _ _ _ (hiddenReduction.reachable .standard) hiddenTerm_checked
    hiddenTerm_normalized with ⟨_, _, reduced⟩ | ⟨_, unsound⟩
  · cases hiddenReduction_clashes.symm.trans reduced
  · cases hiddenReduction_clashes.symm.trans unsound

end Session

end PolyLambda
