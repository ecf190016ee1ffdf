import PolyLambda.Proofs.SessionRecords

/-!
# Reducing in a session

A reduction that changes the type of its term is reported. In the contexts that
sessions reach this has one cause only: type variables of one name, which the
recorded types no longer tell apart. Where no type name is used twice it does not
happen, and where it does happen the two types read the same and a hidden name is
reported with them.
-/

namespace PolyLambda.Session

variable {limits : Limits} {context : Named.Context}

/-! ## What collapsing leaves of a change of type -/

/-- A collapsed normal form has the collapsed type of its term, in the collapsed context. -/
theorem Sound.normal_typed {indexed : Indexed.Context} (sound : Sound limits context indexed)
    {range : Indexed.IndexRange} {depth : Nat} {term normal : Indexed.Term} {expected : Indexed.Ty}
    (deduced : term.deduce range indexed = .ok expected)
    (normalized : term.normalize range depth indexed = .ok normal) :
    Indexed.Typed (indexed.collapse context.scope) (normal.rename context.scope.oldest)
      (expected.rename context.scope.oldest) := by
  have typed := Indexed.Term.deduce_typed sound.closed deduced
  have evaluates := Indexed.Term.normalize_evaluates normalized
  have steps := evaluates.steps sound.closed typed.inScope
  exact (steps.rename sound.carries).typed sound.collapsed (typed.rename sound.carries)

/-- A normal form has the type of its term, once type variables of one name are made
one. -/
theorem Sound.normal_same {indexed : Indexed.Context} (sound : Sound limits context indexed)
    {range : Indexed.IndexRange} {depth : Nat} {term normal : Indexed.Term}
    {expected found : Indexed.Ty} (deduced : term.deduce range indexed = .ok expected)
    (normalized : term.normalize range depth indexed = .ok normal)
    (normalDeduced : normal.deduce range indexed = .ok found) :
    (found.rename context.scope.oldest).Same (expected.rename context.scope.oldest) := by
  have normalTyped := Indexed.Term.deduce_typed sound.closed normalDeduced
  exact (normalTyped.rename sound.carries).unique (sound.normal_typed deduced normalized)

/-- Where no type name is used twice, a normal form has the type of its term. -/
theorem Sound.normal_same_of_distinct {indexed : Indexed.Context}
    (sound : Sound limits context indexed) (distinct : (context.scope.names .type).Nodup)
    {range : Indexed.IndexRange} {depth : Nat} {term normal : Indexed.Term}
    {expected found : Indexed.Ty} (deduced : term.deduce range indexed = .ok expected)
    (normalized : term.normalize range depth indexed = .ok normal)
    (normalDeduced : normal.deduce range indexed = .ok found) : found.Same expected := by
  have same := sound.normal_same deduced normalized normalDeduced
  rwa [Indexed.Ty.rename_oldest_of_distinct distinct,
    Indexed.Ty.rename_oldest_of_distinct distinct] at same

/-! ## Hidden names -/

/-- A free index that a newer binder of its name hides has its name reported. -/
theorem mem_shadowedNames {types : List Indexed.Ty} {ty : Indexed.Ty} {index : Nat} {name : String}
    (member : ty ∈ types) (free : index ∈ ty.freeIndices)
    (bound : context.scope[index]? = some ⟨.type, name⟩)
    (hidden : context.scope.newest index ≠ index) : name ∈ shadowedNames context types := by
  have resolved : context.typeIndex? name = some (context.scope.newest index) :=
    Scope.indexOf?_newest bound
  have isHidden : context.typeIndex? name ≠ some index := by
    rw [resolved]
    exact fun same => hidden (Option.some.inj same)
  rw [shadowedNames, List.mem_eraseDups, List.mem_filterMap]
  refine ⟨index, List.mem_flatten.mpr ⟨_, List.mem_map.mpr ⟨ty, member, rfl⟩, free⟩, ?_⟩
  simp [Named.Context.typeAt_eq_ok_iff.mpr bound, isHidden]

/-- Types that only collapsing makes the same have a hidden name. -/
theorem shadowedNames_ne_nil {indexed : Indexed.Context}
    (describes : context.scope.Describes indexed) {left right : Indexed.Ty}
    (leftInScope : left.InScope indexed) (rightInScope : right.InScope indexed)
    (collapsed : (left.rename context.scope.oldest).Same (right.rename context.scope.oldest))
    (differ : ¬ left.Same right) {types : List Indexed.Ty}
    (leftMember : left ∈ types) (rightMember : right ∈ types) :
    shadowedNames context types ≠ [] := by
  intro empty
  have newest : ∀ ty ∈ types, ty.InScope indexed →
      ∀ index ∈ ty.freeIndices, context.scope.newest index = index := by
    intro ty member inScope index free
    by_contra hidden
    have bindsType := (Indexed.Ty.inScope_iff indexed ty).mp inScope index free
    obtain ⟨name, bound⟩ := describes.bindsType_iff.mp bindsType
    have reported := mem_shadowedNames member free bound hidden
    rw [empty] at reported
    cases reported
  exact differ (Indexed.Ty.same_of_newest describes leftInScope rightInScope collapsed
    (newest left leftMember leftInScope) (newest right rightMember rightInScope))

/-! ## Reports of a change of type -/

/-- Checking a term reports no unsound reduction. -/
theorem checkTerm_ne_unsound (limits : Limits) (context : Named.Context) (term : Named.Term)
    (change : UnsoundReduction) : checkTerm limits context term ≠ .error (.unsound change) := by
  intro failed
  simp only [checkTerm, bind_eq_error_iff, mapError_eq_error_iff] at failed
  rcases failed with ⟨_, _, ⟨⟩⟩ | ⟨_, _, ⟨_, _, ⟨⟩⟩ | ⟨_, _, ⟨_, _, ⟨⟩⟩ | ⟨_, _, ⟨⟩⟩⟩⟩

/-- Naming a type reports no unsound reduction. -/
theorem nameType_ne_unsound (context : Named.Context) (ty : Indexed.Ty)
    (change : UnsoundReduction) : nameType context ty ≠ .error (.unsound change) := by
  intro failed
  obtain ⟨_, _, ⟨⟩⟩ := mapError_eq_error_iff.mp failed

/-- What a report of a change of type says about the reduction. -/
theorem exec_reduce_unsound {span : Span} {named : Named.Term} {change : UnsoundReduction}
    (unsound : (exec limits context ⟨span, .reduce named⟩).2 = .error (.unsound change)) :
    ∃ term indexed expected normal found,
      checkTerm limits context named = .ok (term, indexed, expected) ∧
        term.normalize limits.range limits.depth indexed = .ok normal ∧
        normal.deduce limits.range indexed = .ok found ∧ ¬ found.Same expected ∧
        context.nameType expected = .ok change.expected ∧
        context.nameType found = .ok change.found ∧
        change.shadowed = shadowedNames context [expected, found] := by
  have failed : reduce limits context span named = .error (.unsound change) :=
    exec_eq_error_iff.mp unsound
  -- The failures on the way are of other kinds, so that only the last one is left.
  simp only [reduce, bind_eq_error_iff, mapError_eq_error_iff] at failed
  rcases failed with checking | ⟨⟨term, indexed, expected⟩, checked, failed⟩
  · exact absurd checking (checkTerm_ne_unsound _ _ _ _)
  rcases failed with ⟨_, _, ⟨⟩⟩ | ⟨normal, normalized, failed⟩
  simp only [mapError_eq_ok_iff] at normalized
  rcases failed with ⟨_, _, ⟨⟩⟩ | ⟨found, normalDeduced, failed⟩
  simp only [mapError_eq_ok_iff] at normalDeduced
  split at failed
  · simp only [bind_eq_error_iff] at failed
    rcases failed with naming | ⟨_, _, naming | ⟨_, _, ⟨⟩⟩⟩
    · obtain ⟨_, _, ⟨⟩⟩ := mapError_eq_error_iff.mp naming
    · exact absurd naming (nameType_ne_unsound _ _ _)
  · next differ =>
      simp only [bind_eq_error_iff] at failed
      rcases failed with
        naming | ⟨expectedName, expectedNaming, naming | ⟨foundName, foundNaming, result⟩⟩
      · exact absurd naming (nameType_ne_unsound _ _ _)
      · exact absurd naming (nameType_ne_unsound _ _ _)
      · cases result
        exact ⟨term, indexed, expected, normal, found, checked, normalized, normalDeduced, differ,
          mapError_eq_ok_iff.mp expectedNaming, mapError_eq_ok_iff.mp foundNaming, rfl⟩

/-! ## Sessions without hidden type names -/

/-- The contexts that sessions reach without using a type name twice are well formed:
they resolve, what they record is in scope, and every definition deduces the type
recorded for it. A type recorded with a definition resolves to the deduced one, and
no reduction changes a type. -/
theorem reachable_wellFormed (reachable : Reachable limits context)
    (distinct : (context.scope.names .type).Nodup) :
    (∃ indexed, Named.Context.resolve context = .ok indexed ∧ indexed.WellFormed limits.range) ∧
      (∀ span name expected term next outcome,
        exec limits context ⟨span, .define name expected term⟩ = (next, .ok outcome) →
          ∃ definition indexed actual ty recorded,
            checkTerm limits context term = .ok (definition, indexed, actual) ∧
              next = .term ⟨name.name, ty, some term⟩ :: context ∧
              ty.resolve context.scope = .ok recorded ∧ recorded.Same actual) ∧
      ∀ span term change,
        (exec limits context ⟨span, .reduce term⟩).2 ≠ .error (.unsound change) := by
  obtain ⟨indexed, sound⟩ := reachable.recorded.sound
  refine ⟨⟨indexed, sound.resolved, sound.wellFormed distinct⟩, ?_, ?_⟩
  · intro span name expected term next outcome defined
    obtain ⟨definition, found, actual, ty, checked, records, rfl⟩ :=
      define_records (exec_eq_ok_iff.mp defined)
    obtain ⟨rfl, _, deduced⟩ := sound.checked checked
    obtain ⟨recorded, resolves, same⟩ := records.resolve sound.describes (sound.inScope deduced)
    simp only [Indexed.Ty.rename_oldest_of_distinct distinct] at same
    exact ⟨definition, _, actual, ty, recorded, checked, rfl, resolves, same⟩
  · intro span term change unsound
    obtain ⟨_, _, _, _, _, checked, normalized, normalDeduced, differ, _⟩ :=
      exec_reduce_unsound unsound
    obtain ⟨rfl, _, deduced⟩ := sound.checked checked
    exact differ (sound.normal_same_of_distinct distinct deduced normalized normalDeduced)

/-- After a new start: a type, a term of it, the identity, and a theorem that hides
the term by the identity applied to it. The last statement fails. -/
def identityStatements : List Named.Statement :=
  [⟨⟨0, 10⟩, .assumeType ⟨⟨9, 10⟩, "A"⟩⟩,
    ⟨⟨12, 17⟩, .clear⟩,
    ⟨⟨19, 29⟩, .assumeType ⟨⟨28, 29⟩, "A"⟩⟩,
    ⟨⟨31, 41⟩, .assumeTerm ⟨⟨37, 38⟩, "a"⟩ (.var ⟨40, 41⟩ "A")⟩,
    ⟨⟨43, 73⟩, .define ⟨⟨50, 52⟩, "id"⟩ none
      (.tyLam ⟨55, 73⟩ ⟨⟨60, 61⟩, "X"⟩
        (.lam ⟨63, 73⟩ ⟨⟨67, 68⟩, "x"⟩ (.var ⟨70, 71⟩ "X") (.var ⟨72, 73⟩ "x")))⟩,
    ⟨⟨75, 99⟩, .define ⟨⟨83, 84⟩, "a"⟩ (some (.var ⟨86, 87⟩ "A"))
      (.app ⟨90, 99⟩ (.tyApp ⟨90, 96⟩ (.var ⟨90, 92⟩ "id") (.var ⟨94, 95⟩ "A"))
        (.var ⟨98, 99⟩ "a"))⟩,
    ⟨⟨101, 109⟩, .reduce (.var ⟨108, 109⟩ "b")⟩]

/-- The context that `identityStatements` lead to. -/
def identitySession : Named.Context :=
  (execAll .standard [] identityStatements).1

/-- The session resolves to a well-formed context of four binders. -/
theorem reachable_wellFormed_identity :
    identitySession.length = 4 ∧ (identitySession.scope.names .type).Nodup ∧
      (∃ indexed, Named.Context.resolve identitySession = .ok indexed ∧
        indexed.WellFormed Limits.standard.range) ∧
      ∀ span term change,
        (exec .standard identitySession ⟨span, .reduce term⟩).2 ≠ .error (.unsound change) := by
  have distinct : (identitySession.scope.names .type).Nodup := by decide +kernel
  obtain ⟨wellFormed, _, sound⟩ := reachable_wellFormed ⟨identityStatements, rfl⟩ distinct
  exact ⟨by decide +kernel, distinct, wellFormed, sound⟩

/-! ## Sessions with hidden type names -/

/-- Every report of a change of type is explained by hidden names: the two types read
the same, and some hidden name is reported. -/
theorem unsound_reduction_explained (reachable : Reachable limits context) {span : Span}
    {term : Named.Term} {change : UnsoundReduction}
    (unsound : (exec limits context ⟨span, .reduce term⟩).2 = .error (.unsound change)) :
    change.expected.text = change.found.text ∧ change.shadowed ≠ [] := by
  obtain ⟨indexed, sound⟩ := reachable.recorded.sound
  obtain ⟨definition, _, expected, normal, found, checked, normalized, normalDeduced, differ,
    expectedNaming, foundNaming, shadowed⟩ := exec_reduce_unsound unsound
  obtain ⟨rfl, _, deduced⟩ := sound.checked checked
  have same := sound.normal_same deduced normalized normalDeduced
  constructor
  · exact Named.Context.text_eq_of_collapsed expectedNaming foundNaming same.symm
  · have expectedInScope := sound.inScope deduced
    have foundInScope := sound.inScope normalDeduced
    rw [shadowed]
    exact shadowedNames_ne_nil sound.describes foundInScope expectedInScope same differ
      (by simp) (by simp)

/-- A definition whose type names a hidden variable. -/
def hidingStatements : List Named.Statement :=
  [⟨⟨0, 10⟩, .assumeType ⟨⟨9, 10⟩, "A"⟩⟩,
    ⟨⟨12, 22⟩, .assumeTerm ⟨⟨18, 19⟩, "a"⟩ (.var ⟨21, 22⟩ "A")⟩,
    ⟨⟨24, 34⟩, .assumeType ⟨⟨33, 34⟩, "A"⟩⟩,
    ⟨⟨36, 48⟩, .define ⟨⟨43, 44⟩, "d"⟩ none (.var ⟨47, 48⟩ "a")⟩]

/-- Unfolding the definition changes its type from the newer to the older `A`. -/
theorem unsound_reduction_explained_hiding :
    ∃ change : UnsoundReduction,
      (exec .standard (execAll .standard [] hidingStatements).1
        ⟨⟨50, 58⟩, .reduce (.var ⟨57, 58⟩ "d")⟩).2 = .error (.unsound change) ∧
      change.expected.text = change.found.text ∧ change.shadowed ≠ [] := by
  have unsound : (exec .standard (execAll .standard [] hidingStatements).1
      ⟨⟨50, 58⟩, .reduce (.var ⟨57, 58⟩ "d")⟩).2 =
      .error (.unsound ⟨.var ⟨21, 22⟩ "A", .var ⟨21, 22⟩ "A", ["A"], ⟨50, 58⟩⟩) := rfl
  exact ⟨_, unsound, unsound_reduction_explained ⟨hidingStatements, rfl⟩ unsound⟩

end PolyLambda.Session
