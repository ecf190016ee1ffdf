import PolyLambda.Proofs.AlphaEquivalence
import PolyLambda.Proofs.NameRoundTrip

/-!
# Stable names

What a name denotes depends on the scope that it is read in. Where one scope arises
from another and every name goes on denoting its binder, trees go on resolving to the
same trees, up to the places that the binders have moved to. The other way round, a
tree is named alike in two scopes that hold the same binders in different places.
-/

namespace PolyLambda

open Indexed (Renaming)

namespace Scope

variable {scope other : Scope} {binder : Binder} {mapping : Renaming}

/-! ## Scopes that agree -/

/-- Every name that denotes a binder in one scope denotes the binder at the image of
its index in another. -/
def Moves (mapping : Renaming) (scope other : Scope) : Prop :=
  ∀ kind name index, scope.indexOf? kind name = some index →
    other.indexOf? kind name = some (mapping index)

/-- A move of names is one under a binder that is added to both scopes. -/
theorem Moves.under (moves : Moves mapping scope other) (binder : Binder) :
    Moves mapping.under (binder :: scope) (binder :: other) := by
  intro kind name index found
  rcases indexOf?_cons_eq_some_iff.mp found with ⟨here, rfl⟩ | ⟨differ, below, foundBelow, rfl⟩
  · exact indexOf?_cons_eq_some_iff.mpr (.inl ⟨here, rfl⟩)
  · exact indexOf?_cons_eq_some_iff.mpr (.inr ⟨differ, _, moves _ _ _ foundBelow, rfl⟩)

/-- A name that is found is in scope. -/
theorem mem_of_indexOf? {kind : Kind} {name : String} {index : Nat}
    (found : scope.indexOf? kind name = some index) : ⟨kind, name⟩ ∈ scope :=
  List.mem_of_getElem? (getElem?_of_indexOf? found)

/-- A binder that hides no other leaves all names what they were. -/
theorem Moves.push (fresh : binder ∉ scope) : Moves (.up 1) scope (binder :: scope) := by
  intro kind name index found
  have differ : binder ≠ ⟨kind, name⟩ := by
    rintro rfl
    exact fresh (mem_of_indexOf? found)
  exact indexOf?_cons_eq_some_iff.mpr (.inr ⟨differ, index, found, rfl⟩)

/-- One scope is another one with its binders in other places: at the image of an index
stands the binder that stood at the index. -/
structure Rearranges (mapping : Renaming) (scope other : Scope) : Prop where
  perm : scope.Perm other
  kept : ∀ {index binder}, scope[index]? = some binder → other[mapping index]? = some binder

/-- A rearrangement is one under a binder that is added to both scopes. -/
theorem Rearranges.under (rearranges : Rearranges mapping scope other) (binder : Binder) :
    Rearranges mapping.under (binder :: scope) (binder :: other) where
  perm := rearranges.perm.cons binder
  kept {index found} present := by
    cases index with
    | zero => exact present
    | succ index => exact rearranges.kept present

/-- A rearrangement is one under binders that are added to both scopes. -/
theorem Rearranges.underMany (rearranges : Rearranges mapping scope other) (inner : Scope) :
    Rearranges (mapping.underMany inner.length) (inner ++ scope) (inner ++ other) := by
  induction inner with
  | nil => exact rearranges
  | cons binder inner innerIH => exact innerIH.under binder

/-- A rearrangement permutes the names of each kind. -/
theorem Rearranges.names_perm (rearranges : Rearranges mapping scope other) (kind : Kind) :
    (scope.names kind).Perm (other.names kind) :=
  (rearranges.perm.filter _).map _

/-- A name is found exactly if it is in scope. -/
theorem exists_indexOf?_iff {kind : Kind} {name : String} :
    (∃ index, scope.indexOf? kind name = some index) ↔ ⟨kind, name⟩ ∈ scope := by
  constructor
  · rintro ⟨index, found⟩
    exact mem_of_indexOf? found
  · intro member
    obtain ⟨index, found⟩ := List.mem_iff_getElem?.mp member
    exact ⟨_, indexOf?_newest found⟩

/-- Where no name is used twice for one kind, the names of each kind differ. -/
theorem names_nodup (distinct : scope.Nodup) (kind : Kind) : (scope.names kind).Nodup := by
  refine (distinct.filter _).map_on ?_
  rintro ⟨kind, name⟩ member ⟨otherKind, otherName⟩ otherMember equal
  simp only [List.mem_filter, beq_iff_eq] at member otherMember
  rw [Binder.mk.injEq]
  exact ⟨member.2.trans otherMember.2.symm, equal⟩

/-- Where no name is used twice, every binder is the newest of its name. -/
theorem newest_eq_self (distinct : scope.Nodup) (index : Nat) : scope.newest index = index := by
  cases found : scope[index]? with
  | none => simp [newest, found]
  | some binder =>
      refine (newest_eq_self_iff found).mpr ⟨binder.name, found, ?_⟩
      intro newer before again
      have inside : index < scope.length := (List.getElem?_eq_some_iff.mp found).1
      have equal := (List.getElem?_inj inside distinct).mp (found.trans again.symm)
      omega

/-- Where no name is shadowed a rearrangement moves every name to its new index. -/
theorem Rearranges.moves (rearranges : Rearranges mapping scope other) (distinct : other.Nodup) :
    Moves mapping scope other := by
  intro kind name index found
  rw [indexOf?_newest (rearranges.kept (getElem?_of_indexOf? found)), newest_eq_self distinct]

end Scope

/-! ## Resolving in another scope -/

namespace Named

open Scope (Moves)

/-- What a type resolves to moves along with its names. -/
theorem Ty.ResolvesTo.moved {mapping : Renaming} {scope other : Scope} {named : Ty}
    {ty : Indexed.Ty} (resolves : named.ResolvesTo scope ty) (moves : Moves mapping scope other) :
    named.ResolvesTo other (ty.rename mapping) := by
  induction resolves generalizing mapping other with
  | var found => exact .var (moves _ _ _ found)
  | arrow _ _ domainIH codomainIH => exact .arrow (domainIH moves) (codomainIH moves)
  | all _ bodyIH => exact .all (bodyIH (moves.under _))

/-- What a term resolves to moves along with its names. -/
theorem Term.ResolvesTo.moved {mapping : Renaming} {scope other : Scope} {named : Term}
    {term : Indexed.Term} (resolves : named.ResolvesTo scope term)
    (moves : Moves mapping scope other) : named.ResolvesTo other (term.rename mapping) := by
  induction resolves generalizing mapping other with
  | var found => exact .var (moves _ _ _ found)
  | lam typeResolves _ bodyIH => exact .lam (typeResolves.moved moves) (bodyIH (moves.under _))
  | app _ _ functionIH argumentIH => exact .app (functionIH moves) (argumentIH moves)
  | tyLam _ bodyIH => exact .tyLam (bodyIH (moves.under _))
  | tyApp _ argumentResolves functionIH =>
      exact .tyApp (functionIH moves) (argumentResolves.moved moves)

/-- Resolving a type in a scope whose names are moved gives the moved type. -/
theorem Ty.resolve_moved {mapping : Renaming} {scope other : Scope} {named : Ty}
    {ty : Indexed.Ty} (resolved : named.resolve scope = .ok ty)
    (moves : Moves mapping scope other) :
    named.resolve other = .ok (ty.rename mapping) :=
  Ty.resolve_eq_ok_iff.mpr ((Ty.resolve_eq_ok_iff.mp resolved).moved moves)

/-- Resolving a term in a scope whose names are moved gives the moved term. -/
theorem Term.resolve_moved {mapping : Renaming} {scope other : Scope} {named : Term}
    {term : Indexed.Term} (resolved : named.resolve scope = .ok term)
    (moves : Moves mapping scope other) : named.resolve other = .ok (term.rename mapping) :=
  Term.resolve_eq_ok_iff.mpr ((Term.resolve_eq_ok_iff.mp resolved).moved moves)

/-- The names that a type refers to without binding them. -/
def Ty.freeNames : Ty → List Binder
  | .var _ name => [⟨.type, name⟩]
  | .arrow _ domain codomain => domain.freeNames ++ codomain.freeNames
  | .all _ param body => body.freeNames.filter (· ≠ ⟨.type, param.name⟩)

/-- The names that a term refers to without binding them. -/
def Term.freeNames : Term → List Binder
  | .var _ name => [⟨.term, name⟩]
  | .lam _ param paramType body =>
    paramType.freeNames ++ body.freeNames.filter (· ≠ ⟨.term, param.name⟩)
  | .app _ function argument => function.freeNames ++ argument.freeNames
  | .tyLam _ param body => body.freeNames.filter (· ≠ ⟨.type, param.name⟩)
  | .tyApp _ function argument => function.freeNames ++ argument.freeNames

/-- Names other than a binder's are in scope exactly if the names are in scope under the
binder. -/
theorem filter_ne_subset_iff {binder : Binder} {names scope : List Binder} :
    names.filter (· ≠ binder) ⊆ scope ↔ names ⊆ binder :: scope := by
  simp only [List.subset_def, List.mem_filter, List.mem_cons, decide_eq_true_eq, and_imp]
  exact forall₂_congr fun other _ => or_iff_not_imp_left.symm

/-- A type resolves exactly where all its free names are bound. -/
theorem Ty.exists_resolvesTo_iff {scope : Scope} {named : Ty} :
    (∃ ty, named.ResolvesTo scope ty) ↔ named.freeNames ⊆ scope := by
  induction named generalizing scope with
  | var span name =>
      simp only [freeNames, List.cons_subset, List.nil_subset, and_true,
        ← Scope.exists_indexOf?_iff]
      constructor
      · rintro ⟨_, ⟨found⟩⟩
        exact ⟨_, found⟩
      · rintro ⟨index, found⟩
        exact ⟨_, .var found⟩
  | arrow span domain codomain domainIH codomainIH =>
      rw [freeNames, List.append_subset, ← domainIH, ← codomainIH]
      constructor
      · rintro ⟨_, _ | ⟨domainResolves, codomainResolves⟩⟩
        exact ⟨⟨_, domainResolves⟩, ⟨_, codomainResolves⟩⟩
      · rintro ⟨⟨_, domainResolves⟩, ⟨_, codomainResolves⟩⟩
        exact ⟨_, .arrow domainResolves codomainResolves⟩
  | all span param body bodyIH =>
      rw [freeNames, filter_ne_subset_iff, ← bodyIH]
      constructor
      · rintro ⟨_, _ | _ | bodyResolves⟩
        exact ⟨_, bodyResolves⟩
      · rintro ⟨_, bodyResolves⟩
        exact ⟨_, .all bodyResolves⟩

/-- A term resolves exactly where all its free names are bound. -/
theorem Term.exists_resolvesTo_iff {scope : Scope} {named : Term} :
    (∃ term, named.ResolvesTo scope term) ↔ named.freeNames ⊆ scope := by
  induction named generalizing scope with
  | var span name =>
      simp only [freeNames, List.cons_subset, List.nil_subset, and_true,
        ← Scope.exists_indexOf?_iff]
      constructor
      · rintro ⟨_, ⟨found⟩⟩
        exact ⟨_, found⟩
      · rintro ⟨index, found⟩
        exact ⟨_, .var found⟩
  | lam span param paramType body bodyIH =>
      rw [freeNames, List.append_subset, filter_ne_subset_iff, ← Ty.exists_resolvesTo_iff, ← bodyIH]
      constructor
      · rintro ⟨_, _ | ⟨typeResolves, bodyResolves⟩⟩
        exact ⟨⟨_, typeResolves⟩, ⟨_, bodyResolves⟩⟩
      · rintro ⟨⟨_, typeResolves⟩, ⟨_, bodyResolves⟩⟩
        exact ⟨_, .lam typeResolves bodyResolves⟩
  | app span function argument functionIH argumentIH =>
      rw [freeNames, List.append_subset, ← functionIH, ← argumentIH]
      constructor
      · rintro ⟨_, _ | _ | ⟨functionResolves, argumentResolves⟩⟩
        exact ⟨⟨_, functionResolves⟩, ⟨_, argumentResolves⟩⟩
      · rintro ⟨⟨_, functionResolves⟩, ⟨_, argumentResolves⟩⟩
        exact ⟨_, .app functionResolves argumentResolves⟩
  | tyLam span param body bodyIH =>
      rw [freeNames, filter_ne_subset_iff, ← bodyIH]
      constructor
      · rintro ⟨_, _ | _ | _ | bodyResolves⟩
        exact ⟨_, bodyResolves⟩
      · rintro ⟨_, bodyResolves⟩
        exact ⟨_, .tyLam bodyResolves⟩
  | tyApp span function argument functionIH =>
      rw [freeNames, List.append_subset, ← functionIH, ← Ty.exists_resolvesTo_iff]
      constructor
      · rintro ⟨_, _ | _ | _ | _ | ⟨functionResolves, argumentResolves⟩⟩
        exact ⟨⟨_, functionResolves⟩, ⟨_, argumentResolves⟩⟩
      · rintro ⟨⟨_, functionResolves⟩, ⟨_, argumentResolves⟩⟩
        exact ⟨_, .tyApp functionResolves argumentResolves⟩

/-- A type resolves exactly if its free names are in scope. -/
theorem Ty.exists_resolve_iff {scope : Scope} {named : Ty} :
    (∃ ty, named.resolve scope = .ok ty) ↔ named.freeNames ⊆ scope := by
  simp only [Ty.resolve_eq_ok_iff, Ty.exists_resolvesTo_iff]

/-- A term resolves exactly if its free names are in scope. -/
theorem Term.exists_resolve_iff {scope : Scope} {named : Term} :
    (∃ term, named.resolve scope = .ok term) ↔ named.freeNames ⊆ scope := by
  simp only [Term.resolve_eq_ok_iff, Term.exists_resolvesTo_iff]

end Named

/-! ## Naming in another scope -/

namespace Naming

/-- A fresh name does not depend on the order of the names that are taken. -/
theorem freshId_of_perm {taken other : List String} (perm : taken.Perm other) (kind : Kind)
    (start : Nat) : freshId taken kind start = freshId other kind start := by
  simp only [freshId, perm.length_eq, perm.contains_eq]

/-- A name that is drawn does not depend on the order of the names that are taken. -/
theorem Supply.draw_of_perm (supply : Supply) (kind : Kind) {taken other : List String}
    (perm : taken.Perm other) : supply.draw kind taken = supply.draw kind other := by
  cases kind <;> simp only [draw, freshId_of_perm perm]

/-- Entering a binder draws the same name in a rearranged scope. -/
theorem Binders.enter_rearranged {binders inside : Binders} {supply drawn : Supply} {kind : Kind}
    {name : String} {mapping : Renaming} {other : Scope}
    (entered : binders.enter supply kind = (name, inside, drawn))
    (rearranges : Scope.Rearranges mapping binders.ambient other) :
    Binders.enter ⟨other, binders.inner⟩ supply kind =
      (name, ⟨other, ⟨kind, name⟩ :: binders.inner⟩, drawn) := by
  rw [Binders.enter_eq_iff] at entered ⊢
  rw [← supply.draw_of_perm kind (rearranges.names_perm kind)]
  exact ⟨entered.1, rfl⟩

end Naming

namespace Indexed

open Naming Scope

/-- A type has the same names in a rearranged scope. -/
theorem Ty.NamedBy.rearranged {binders : Binders} {supply drawn : Supply} {ty : Ty}
    {named : Named.Ty} {mapping : Renaming} {other : Scope}
    (naming : ty.NamedBy binders supply named drawn)
    (rearranges : Rearranges mapping binders.ambient other) :
    (ty.rename (mapping.underMany binders.inner.length)).NamedBy ⟨other, binders.inner⟩ supply
      named drawn := by
  induction naming with
  | var found => exact .var ((rearranges.underMany _).kept found)
  | arrow _ _ domainIH codomainIH => exact .arrow (domainIH rearranges) (codomainIH rearranges)
  | all entered _ bodyIH =>
      obtain ⟨-, rfl⟩ := Binders.enter_eq_iff.mp entered
      exact .all (Binders.enter_rearranged entered rearranges) (bodyIH rearranges)

/-- A term has the same names in a rearranged scope. -/
theorem Term.NamedBy.rearranged {binders : Binders} {supply drawn : Supply} {term : Term}
    {named : Named.Term} {mapping : Renaming} {other : Scope}
    (naming : term.NamedBy binders supply named drawn)
    (rearranges : Rearranges mapping binders.ambient other) :
    (term.rename (mapping.underMany binders.inner.length)).NamedBy ⟨other, binders.inner⟩ supply
      named drawn := by
  induction naming with
  | var found => exact .var ((rearranges.underMany _).kept found)
  | lam typeNamed entered _ bodyIH =>
      obtain ⟨-, rfl⟩ := Binders.enter_eq_iff.mp entered
      exact .lam (typeNamed.rearranged rearranges) (Binders.enter_rearranged entered rearranges)
        (bodyIH rearranges)
  | app _ _ functionIH argumentIH => exact .app (functionIH rearranges) (argumentIH rearranges)
  | tyLam entered _ bodyIH =>
      obtain ⟨-, rfl⟩ := Binders.enter_eq_iff.mp entered
      exact .tyLam (Binders.enter_rearranged entered rearranges) (bodyIH rearranges)
  | tyApp _ argumentNamed functionIH =>
      exact .tyApp (functionIH rearranges) (argumentNamed.rearranged rearranges)

end Indexed

namespace Named.Context

variable {context other : Context} {mapping : Renaming}

/-- The names of a tree depend on which names are taken, not on where they are bound. -/
theorem nameType_rearranged {ty : Indexed.Ty} {named : Ty}
    (naming : context.nameType ty = .ok named)
    (rearranges : context.scope.Rearranges mapping other.scope) :
    other.nameType (ty.rename mapping) = .ok named := by
  obtain ⟨drawn, naming⟩ := nameType_eq_ok_iff.mp naming
  exact nameType_eq_ok_iff.mpr ⟨drawn, naming.rearranged rearranges⟩

/-- A rearranged context gives the rearranged term the same names. -/
theorem nameTerm_rearranged {term : Indexed.Term} {named : Term}
    (naming : context.nameTerm term = .ok named)
    (rearranges : context.scope.Rearranges mapping other.scope) :
    other.nameTerm (term.rename mapping) = .ok named := by
  obtain ⟨drawn, naming⟩ := nameTerm_eq_ok_iff.mp naming
  exact nameTerm_eq_ok_iff.mpr ⟨drawn, naming.rearranged rearranges⟩

end Named.Context

end PolyLambda
