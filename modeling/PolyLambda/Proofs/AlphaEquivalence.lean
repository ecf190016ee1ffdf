import PolyLambda.Proofs.NameBridge

/-!
# Names of bound variables

Two named trees are alpha-equivalent when they differ in the names of their bound
variables only. Types and terms are named apart, so the binders around two variables
are compared by kind. Resolution counts the binders of both kinds, and yet finds the
same indices exactly in trees that are alpha-equivalent.
-/

namespace PolyLambda

/-! ## Alpha-equivalence -/

namespace Named

/-- Two variables are alike inside pairs of binders, the innermost pair first: they are
bound by the same pair, or by none and have the same name. -/
def Alike : List (String × String) → String → String → Prop
  | [], left, right => left = right
  | (leftBound, rightBound) :: pairs, left, right =>
    left = leftBound ∧ right = rightBound ∨
      left ≠ leftBound ∧ right ≠ rightBound ∧ Alike pairs left right

/-- Two types differ in the names of their bound variables only, inside pairs of binders
that belong together. -/
def Ty.AlphaInside (pairs : List (String × String)) : Ty → Ty → Prop
  | .var _ left, .var _ right => Alike pairs left right
  | .arrow _ domain codomain, .arrow _ otherDomain otherCodomain =>
    domain.AlphaInside pairs otherDomain ∧ codomain.AlphaInside pairs otherCodomain
  | .all _ param body, .all _ otherParam otherBody =>
    body.AlphaInside ((param.name, otherParam.name) :: pairs) otherBody
  | _, _ => False

/-- Two types differ in the names of their bound variables only. -/
def Ty.Alpha (left right : Ty) : Prop :=
  left.AlphaInside [] right

/-- Two terms differ in the names of their bound variables only, inside pairs of type
binders and pairs of term binders that belong together. -/
def Term.AlphaInside (types terms : List (String × String)) : Term → Term → Prop
  | .var _ left, .var _ right => Alike terms left right
  | .lam _ param paramType body, .lam _ otherParam otherType otherBody =>
    paramType.AlphaInside types otherType ∧
      body.AlphaInside types ((param.name, otherParam.name) :: terms) otherBody
  | .app _ function argument, .app _ otherFunction otherArgument =>
    function.AlphaInside types terms otherFunction ∧ argument.AlphaInside types terms otherArgument
  | .tyLam _ param body, .tyLam _ otherParam otherBody =>
    body.AlphaInside ((param.name, otherParam.name) :: types) terms otherBody
  | .tyApp _ function argument, .tyApp _ otherFunction otherArgument =>
    function.AlphaInside types terms otherFunction ∧ argument.AlphaInside types otherArgument
  | _, _ => False

/-- Two terms differ in the names of their bound variables only. -/
def Term.Alpha (left right : Term) : Prop :=
  left.AlphaInside [] [] right

end Named

/-! ## Scopes inside pairs of binders -/

/-- Chooses by kind. -/
def Kind.pick {α : Type} (ofTypes ofTerms : α) : Kind → α
  | .type => ofTypes
  | .term => ofTerms

/-- Two scopes have the same outer binders, and their inner ones are pairs of one kind. -/
inductive Scope.Paired (outer : Scope) :
    List (String × String) → List (String × String) → Scope → Scope → Prop
  | outer : Paired outer [] [] outer outer
  | type {types terms scope other left right} (paired : Paired outer types terms scope other) :
      Paired outer ((left, right) :: types) terms (⟨.type, left⟩ :: scope) (⟨.type, right⟩ :: other)
  | term {types terms scope other left right} (paired : Paired outer types terms scope other) :
      Paired outer types ((left, right) :: terms) (⟨.term, left⟩ :: scope) (⟨.term, right⟩ :: other)

namespace Scope

variable {scope other : Scope} {kind binderKind : Kind} {name otherName : String}
  {index otherIndex : Nat}

/-- Different names of one kind resolve to different binders. -/
theorem indexOf?_eq_iff (found : scope.indexOf? kind name = some index)
    (otherFound : scope.indexOf? kind otherName = some otherIndex) :
    index = otherIndex ↔ name = otherName := by
  constructor
  · rintro rfl
    have sameBinder := (getElem?_of_indexOf? found).symm.trans (getElem?_of_indexOf? otherFound)
    exact (Binder.mk.inj (Option.some.inj sameBinder)).2
  · rintro rfl
    exact Option.some.inj (found.symm.trans otherFound)

/-- A name resolves past a binder that is another one. -/
theorem indexOf?_cons_eq_some_iff {binder : Binder} :
    Scope.indexOf? (binder :: scope) kind name = some index ↔
      binder = ⟨kind, name⟩ ∧ index = 0 ∨
        binder ≠ ⟨kind, name⟩ ∧ ∃ below, scope.indexOf? kind name = some below ∧
          index = below + 1 := by
  by_cases same : binder = ⟨kind, name⟩
  · subst same
    have found : Scope.indexOf? (⟨kind, name⟩ :: scope) kind name = some 0 := indexOf?_cons_self
    simp [found, eq_comm]
  · rw [indexOf?_cons_of_ne same, Option.map_eq_some_iff]
    simp [same, eq_comm]

/-- One more pair of binders of the kind that is looked for. -/
theorem index_eq_iff_inside_pair {left right : String} {pairs : List (String × String)}
    (found : Scope.indexOf? (⟨kind, left⟩ :: scope) kind name = some index)
    (otherFound : Scope.indexOf? (⟨kind, right⟩ :: other) kind otherName = some otherIndex)
    (below : ∀ {index otherIndex}, scope.indexOf? kind name = some index →
      other.indexOf? kind otherName = some otherIndex →
        (index = otherIndex ↔ Named.Alike pairs name otherName)) :
    index = otherIndex ↔ Named.Alike ((left, right) :: pairs) name otherName := by
  rw [indexOf?_cons_eq_some_iff] at found otherFound
  rcases found with ⟨⟨⟩, rfl⟩ | ⟨differs, index, found, rfl⟩ <;>
    rcases otherFound with ⟨⟨⟩, rfl⟩ | ⟨otherDiffers, otherIndex, otherFound, rfl⟩
  · simp [Named.Alike]
  · have otherNe : otherName ≠ right := by
      rintro rfl
      exact otherDiffers rfl
    simp [Named.Alike, otherNe]
  · have ne : name ≠ left := by
      rintro rfl
      exact differs rfl
    simp [Named.Alike, ne]
  · have ne : name ≠ left := by
      rintro rfl
      exact differs rfl
    have otherNe : otherName ≠ right := by
      rintro rfl
      exact otherDiffers rfl
    simp [Named.Alike, ne, otherNe, below found otherFound]

/-- One more pair of binders of another kind moves both indices. -/
theorem index_eq_iff_past_pair {left right : String} (differ : binderKind ≠ kind) {Alike : Prop}
    (found : Scope.indexOf? (⟨binderKind, left⟩ :: scope) kind name = some index)
    (otherFound : Scope.indexOf? (⟨binderKind, right⟩ :: other) kind otherName = some otherIndex)
    (below : ∀ {index otherIndex}, scope.indexOf? kind name = some index →
      other.indexOf? kind otherName = some otherIndex → (index = otherIndex ↔ Alike)) :
    index = otherIndex ↔ Alike := by
  rw [indexOf?_cons_eq_some_iff] at found otherFound
  rcases found with ⟨same, _⟩ | ⟨_, index, found, rfl⟩
  · exact absurd (congrArg Binder.kind same) differ
  rcases otherFound with ⟨same, _⟩ | ⟨_, otherIndex, otherFound, rfl⟩
  · exact absurd (congrArg Binder.kind same) differ
  rw [← below found otherFound]
  omega

/-- Inside pairs of binders, variables that are alike are those of the same index. -/
theorem Paired.index_eq_iff {outer : Scope} {types terms : List (String × String)}
    (paired : Scope.Paired outer types terms scope other)
    (found : scope.indexOf? kind name = some index)
    (otherFound : other.indexOf? kind otherName = some otherIndex) :
    index = otherIndex ↔ Named.Alike (kind.pick types terms) name otherName := by
  induction paired generalizing index otherIndex with
  | outer =>
      rw [indexOf?_eq_iff found otherFound]
      cases kind <;> rfl
  | type _ pairedIH =>
      cases kind with
      | type => exact index_eq_iff_inside_pair found otherFound pairedIH
      | term => exact index_eq_iff_past_pair (by decide) found otherFound pairedIH
  | term _ pairedIH =>
      cases kind with
      | type => exact index_eq_iff_past_pair (by decide) found otherFound pairedIH
      | term => exact index_eq_iff_inside_pair found otherFound pairedIH

end Scope

/-! ## Alpha-equivalent trees have the same indices -/

namespace Named

/-- Types in paired scopes resolve to the same type exactly if they are equivalent inside
of the pairs. -/
theorem Ty.ResolvesTo.same_iff_alphaInside {outer scope other : Scope}
    {types terms : List (String × String)} {left right : Ty} {ty otherTy : Indexed.Ty}
    (resolves : left.ResolvesTo scope ty) (otherResolves : right.ResolvesTo other otherTy)
    (paired : outer.Paired types terms scope other) :
    ty.Same otherTy ↔ left.AlphaInside types right := by
  induction resolves generalizing right other types otherTy with
  | var found =>
      cases otherResolves with
      | var otherFound =>
          have alike := paired.index_eq_iff found otherFound
          simpa [Indexed.Ty.Same, Indexed.Ty.bare, Ty.AlphaInside, Kind.pick] using alike
      | arrow | all => simp [Indexed.Ty.Same, Indexed.Ty.bare, Ty.AlphaInside]
  | arrow _ _ domainIH codomainIH =>
      cases otherResolves with
      | arrow otherDomain otherCodomain =>
          rw [Ty.AlphaInside, ← domainIH otherDomain paired, ← codomainIH otherCodomain paired]
          simp [Indexed.Ty.Same, Indexed.Ty.bare]
      | var | all => simp [Indexed.Ty.Same, Indexed.Ty.bare, Ty.AlphaInside]
  | all _ bodyIH =>
      cases otherResolves with
      | all otherBody =>
          rw [Ty.AlphaInside, ← bodyIH otherBody paired.type]
          simp [Indexed.Ty.Same, Indexed.Ty.bare]
      | var | arrow => simp [Indexed.Ty.Same, Indexed.Ty.bare, Ty.AlphaInside]

/-- Terms in paired scopes resolve to the same term exactly if they are equivalent inside
of the pairs. -/
theorem Term.ResolvesTo.same_iff_alphaInside {outer scope other : Scope}
    {types terms : List (String × String)} {left right : Term} {term otherTerm : Indexed.Term}
    (resolves : left.ResolvesTo scope term) (otherResolves : right.ResolvesTo other otherTerm)
    (paired : outer.Paired types terms scope other) :
    term.Same otherTerm ↔ left.AlphaInside types terms right := by
  induction resolves generalizing right other types terms otherTerm with
  | var found =>
      cases otherResolves with
      | var otherFound =>
          have alike := paired.index_eq_iff found otherFound
          simpa [Indexed.Term.Same, Indexed.Term.bare, Term.AlphaInside, Kind.pick] using alike
      | lam | app | tyLam | tyApp =>
          simp [Indexed.Term.Same, Indexed.Term.bare, Term.AlphaInside]
  | lam typeResolves _ bodyIH =>
      cases otherResolves with
      | lam otherType otherBody =>
          rw [Term.AlphaInside, ← typeResolves.same_iff_alphaInside otherType paired,
            ← bodyIH otherBody paired.term]
          simp [Indexed.Term.Same, Indexed.Ty.Same, Indexed.Term.bare]
      | var | app | tyLam | tyApp =>
          simp [Indexed.Term.Same, Indexed.Term.bare, Term.AlphaInside]
  | app _ _ functionIH argumentIH =>
      cases otherResolves with
      | app otherFunction otherArgument =>
          rw [Term.AlphaInside, ← functionIH otherFunction paired,
            ← argumentIH otherArgument paired]
          simp [Indexed.Term.Same, Indexed.Term.bare]
      | var | lam | tyLam | tyApp =>
          simp [Indexed.Term.Same, Indexed.Term.bare, Term.AlphaInside]
  | tyLam _ bodyIH =>
      cases otherResolves with
      | tyLam otherBody =>
          rw [Term.AlphaInside, ← bodyIH otherBody paired.type]
          simp [Indexed.Term.Same, Indexed.Term.bare]
      | var | lam | app | tyApp =>
          simp [Indexed.Term.Same, Indexed.Term.bare, Term.AlphaInside]
  | tyApp _ argumentResolves functionIH =>
      cases otherResolves with
      | tyApp otherFunction otherArgument =>
          rw [Term.AlphaInside, ← functionIH otherFunction paired,
            ← argumentResolves.same_iff_alphaInside otherArgument paired]
          simp [Indexed.Term.Same, Indexed.Ty.Same, Indexed.Term.bare]
      | var | lam | app | tyLam =>
          simp [Indexed.Term.Same, Indexed.Term.bare, Term.AlphaInside]

end Named

end PolyLambda
