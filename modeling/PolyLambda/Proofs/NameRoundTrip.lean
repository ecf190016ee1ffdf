import PolyLambda.Proofs.NamingTotality

/-!
# Naming and resolving again

Naming forgets which of several binders of one name an index points to, and nothing
else. So resolving the names of a tree gives that tree back, spans included, exactly
when each of its free indices points to the newest binder of its kind and name. Trees
that come from names have only such indices.
-/

namespace PolyLambda

/-! ## Newest binders -/

namespace Scope

variable {scope inner : Scope} {kind : Kind} {name : String} {index : Nat}

/-- The binder at an index is of the given kind, and no newer one of that kind has its
name. -/
def IsNewest (scope : Scope) (kind : Kind) (index : Nat) : Prop :=
  ∃ name, scope[index]? = some ⟨kind, name⟩ ∧ ∀ newer < index, scope[newer]? ≠ some ⟨kind, name⟩

/-- Names resolve to newest binders only. -/
theorem isNewest_of_indexOf? (found : scope.indexOf? kind name = some index) :
    scope.IsNewest kind index := by
  refine ⟨name, getElem?_of_indexOf? found, ?_⟩
  intro newer before sameBinder
  obtain ⟨inside, _, noEarlier⟩ := List.findIdx?_eq_some_iff_getElem.mp found
  rw [List.getElem?_eq_getElem (Nat.lt_trans before inside), Option.some.injEq] at sameBinder
  exact noEarlier newer before (beq_iff_eq.mpr sameBinder)

/-- An index stays where it is exactly if it points to a newest binder already. -/
theorem newest_eq_self_iff (found : scope[index]? = some ⟨kind, name⟩) :
    scope.newest index = index ↔ scope.IsNewest kind index := by
  have resolved := indexOf?_newest found
  constructor
  · intro same
    rw [same] at resolved
    exact isNewest_of_indexOf? resolved
  · rintro ⟨other, sameFound, noNewer⟩
    obtain ⟨_, rfl⟩ := Binder.mk.inj (Option.some.inj (found.symm.trans sameFound))
    have notLater : ¬ index < scope.newest index := by
      intro later
      obtain ⟨inside, _, noEarlier⟩ := List.findIdx?_eq_some_iff_getElem.mp resolved
      rw [List.getElem?_eq_getElem (Nat.lt_trans later inside), Option.some.injEq] at found
      exact noEarlier index later (beq_iff_eq.mpr found)
    have notEarlier : ¬ scope.newest index < index := by
      intro earlier
      exact noNewer _ earlier (getElem?_of_indexOf? resolved)
    omega

/-- A name that resolves past the inner binders resolves as if they were not there. -/
theorem indexOf?_of_append (found : Scope.indexOf? (inner ++ scope) kind name = some index)
    (outside : inner.length ≤ index) : scope.indexOf? kind name = some (index - inner.length) := by
  unfold indexOf? at found ⊢
  rw [List.findIdx?_append] at found
  cases innerFound : inner.findIdx? fun binder => binder == ⟨kind, name⟩ with
  | some position =>
      rw [innerFound, Option.some_or, Option.some.injEq] at found
      obtain ⟨inside, _⟩ := List.findIdx?_eq_some_iff_getElem.mp innerFound
      omega
  | none =>
      rw [innerFound, Option.none_or, Option.map_eq_some_iff] at found
      obtain ⟨below, belowFound, rfl⟩ := found
      rw [belowFound, Nat.add_sub_cancel]

/-- There are indexed contexts with binders of any kinds. -/
theorem exists_describes (scope : Scope) :
    ∃ context : Indexed.Context, scope.Describes context := by
  induction scope with
  | nil => exact ⟨[], rfl⟩
  | cons binder scope scopeIH =>
      obtain ⟨context, describes⟩ := scopeIH
      obtain ⟨kind, name⟩ := binder
      cases kind with
      | type => exact ⟨_, describes.pushType name⟩
      | term => exact ⟨_, describes.pushTerm name .filler⟩

end Scope

/-! ## Free indices -/

namespace Indexed

/-- The free indices of a term under `depth` binders of its own, as they count from
outside those binders, each with the kind of binder that it asks for. -/
def Term.freeOccurrences (depth : Nat) : Term → List (Kind × Nat)
  | .var _ index => if depth ≤ index then [(.term, index - depth)] else []
  | .lam _ paramType body =>
    (paramType.freeOccurrences depth).map (Prod.mk .type) ++ body.freeOccurrences (depth + 1)
  | .app _ function argument => function.freeOccurrences depth ++ argument.freeOccurrences depth
  | .tyLam _ body => body.freeOccurrences (depth + 1)
  | .tyApp _ function argument =>
    function.freeOccurrences depth ++ (argument.freeOccurrences depth).map (Prod.mk .type)

/-- A variable occurs free exactly if it refers out of the binders around it. -/
theorem Term.mem_freeOccurrences_var {span : Span} {depth index : Nat} {free : Kind × Nat} :
    free ∈ (Term.var span index).freeOccurrences depth ↔
      depth ≤ index ∧ free = (.term, index - depth) := by
  by_cases outside : depth ≤ index <;> simp [Term.freeOccurrences, outside]

/-- Under binders a renaming keeps an index exactly if it keeps what refers out of them. -/
theorem Renaming.underMany_eq_self_iff {mapping : Renaming} {depth index : Nat} :
    mapping.underMany depth index = index ↔
      (depth ≤ index → mapping (index - depth) = index - depth) := by
  by_cases outside : depth ≤ index
  · have moved := mapping.underMany_add depth (index - depth)
    rw [Nat.sub_add_cancel outside] at moved
    rw [moved]
    omega
  · have kept := mapping.underMany_of_lt (Nat.lt_of_not_le outside)
    simp [kept, outside]

/-- A renaming changes nothing about a type exactly if it keeps its free indices. -/
theorem Ty.rename_eq_self_iff {mapping : Renaming} {depth : Nat} {ty : Ty} :
    ty.rename (mapping.underMany depth) = ty ↔
      ∀ index ∈ ty.freeOccurrences depth, mapping index = index := by
  induction ty generalizing depth with
  | var span index =>
      simp [Ty.rename, Ty.mem_freeOccurrences_var, Renaming.underMany_eq_self_iff]
  | arrow span domain codomain domainIH codomainIH =>
      simp only [Ty.rename, Ty.arrow.injEq, true_and, domainIH, codomainIH, Ty.freeOccurrences,
        List.forall_mem_append]
  | all span body bodyIH =>
      rw [Ty.rename, Ty.all.injEq, Ty.freeOccurrences, ← bodyIH]
      exact and_iff_right rfl

@[inherit_doc Ty.rename_eq_self_iff]
theorem Term.rename_eq_self_iff {mapping : Renaming} {depth : Nat} {term : Term} :
    term.rename (mapping.underMany depth) = term ↔
      ∀ free ∈ term.freeOccurrences depth, mapping free.2 = free.2 := by
  induction term generalizing depth with
  | var span index =>
      simp [Term.rename, Term.mem_freeOccurrences_var, Renaming.underMany_eq_self_iff]
  | lam span paramType body bodyIH =>
      rw [Term.rename, Term.lam.injEq, Ty.rename_eq_self_iff, Term.freeOccurrences,
        List.forall_mem_append, List.forall_mem_map, ← bodyIH]
      exact and_iff_right rfl
  | app span function argument functionIH argumentIH =>
      simp only [Term.rename, Term.app.injEq, true_and, functionIH, argumentIH,
        Term.freeOccurrences, List.forall_mem_append]
  | tyLam span body bodyIH =>
      rw [Term.rename, Term.tyLam.injEq, Term.freeOccurrences, ← bodyIH]
      exact and_iff_right rfl
  | tyApp span function argument functionIH =>
      simp only [Term.rename, Term.tyApp.injEq, true_and, functionIH, Ty.rename_eq_self_iff,
        Term.freeOccurrences, List.forall_mem_append, List.forall_mem_map]

/-! ## What naming has looked up -/

open Naming

/-- The binders of the tree itself are `inner`; what is free in it has a name in the
context. -/
theorem Ty.NamedBy.free_bound {binders : Binders} {supply drawn : Supply} {ty : Ty}
    {named : Named.Ty} (naming : ty.NamedBy binders supply named drawn) :
    ∀ index ∈ ty.freeOccurrences binders.inner.length,
      ∃ name, binders.ambient[index]? = some ⟨.type, name⟩ := by
  induction naming with
  | @var binders _ _ index name found =>
      intro free member
      obtain ⟨outside, rfl⟩ := Ty.mem_freeOccurrences_var.mp member
      rw [Binders.scope, List.getElem?_append_right outside] at found
      exact ⟨name, found⟩
  | arrow _ _ domainIH codomainIH => exact List.forall_mem_append.mpr ⟨domainIH, codomainIH⟩
  | all entered _ bodyIH =>
      obtain ⟨_, rfl⟩ := Binders.enter_eq_iff.mp entered
      exact bodyIH

@[inherit_doc Ty.NamedBy.free_bound]
theorem Term.NamedBy.free_bound {binders : Binders} {supply drawn : Supply} {term : Term}
    {named : Named.Term} (naming : term.NamedBy binders supply named drawn) :
    ∀ free ∈ term.freeOccurrences binders.inner.length,
      ∃ name, binders.ambient[free.2]? = some ⟨free.1, name⟩ := by
  induction naming with
  | @var binders _ _ index name found =>
      intro free member
      obtain ⟨outside, rfl⟩ := Term.mem_freeOccurrences_var.mp member
      rw [Binders.scope, List.getElem?_append_right outside] at found
      exact ⟨name, found⟩
  | lam typeNamed entered _ bodyIH =>
      obtain ⟨_, rfl⟩ := Binders.enter_eq_iff.mp entered
      exact List.forall_mem_append.mpr ⟨List.forall_mem_map.mpr typeNamed.free_bound, bodyIH⟩
  | app _ _ functionIH argumentIH => exact List.forall_mem_append.mpr ⟨functionIH, argumentIH⟩
  | tyLam entered _ bodyIH =>
      obtain ⟨_, rfl⟩ := Binders.enter_eq_iff.mp entered
      exact bodyIH
  | tyApp _ argumentNamed functionIH =>
      exact List.forall_mem_append.mpr
        ⟨functionIH, List.forall_mem_map.mpr argumentNamed.free_bound⟩

end Indexed

/-! ## Resolved trees point to newest binders -/

namespace Named

/-- What a type resolves to refers to the newest binders of their names only. -/
theorem Ty.ResolvesTo.isNewest {full inner scope : Scope} {named : Ty} {ty : Indexed.Ty}
    (resolves : named.ResolvesTo full ty) (split : full = inner ++ scope) :
    ∀ index ∈ ty.freeOccurrences inner.length, scope.IsNewest .type index := by
  induction resolves generalizing inner with
  | var found =>
      intro free member
      obtain ⟨outside, rfl⟩ := Indexed.Ty.mem_freeOccurrences_var.mp member
      rw [split] at found
      exact Scope.isNewest_of_indexOf? (Scope.indexOf?_of_append found outside)
  | arrow _ _ domainIH codomainIH =>
      exact List.forall_mem_append.mpr ⟨domainIH split, codomainIH split⟩
  | @all _ _ param _ _ _ bodyIH =>
      exact @bodyIH (⟨.type, param.name⟩ :: inner) (congrArg (_ :: ·) split)

/-- What a term resolves to refers to the newest binders of their names only. -/
theorem Term.ResolvesTo.isNewest {full inner scope : Scope} {named : Term} {term : Indexed.Term}
    (resolves : named.ResolvesTo full term) (split : full = inner ++ scope) :
    ∀ free ∈ term.freeOccurrences inner.length, scope.IsNewest free.1 free.2 := by
  induction resolves generalizing inner with
  | var found =>
      intro free member
      obtain ⟨outside, rfl⟩ := Indexed.Term.mem_freeOccurrences_var.mp member
      rw [split] at found
      exact Scope.isNewest_of_indexOf? (Scope.indexOf?_of_append found outside)
  | @lam _ _ param _ _ _ _ typeResolves _ bodyIH =>
      exact List.forall_mem_append.mpr ⟨List.forall_mem_map.mpr (typeResolves.isNewest split),
        @bodyIH (⟨.term, param.name⟩ :: inner) (congrArg (_ :: ·) split)⟩
  | app _ _ functionIH argumentIH =>
      exact List.forall_mem_append.mpr ⟨functionIH split, argumentIH split⟩
  | @tyLam _ _ param _ _ _ bodyIH =>
      exact @bodyIH (⟨.type, param.name⟩ :: inner) (congrArg (_ :: ·) split)
  | tyApp _ argumentResolves functionIH =>
      exact List.forall_mem_append.mpr
        ⟨functionIH split, List.forall_mem_map.mpr (argumentResolves.isNewest split)⟩

/-! ## The round trip -/

namespace Context

/-- A named term is kept by moving to the newest binders exactly if it refers to these only. -/
theorem rename_newest_eq_self_iff_of_nameTerm {context : Context} {term : Indexed.Term}
    {named : Term} (naming : context.nameTerm term = .ok named) :
    term.rename context.scope.newest = term ↔
      ∀ free ∈ term.freeOccurrences 0, context.scope.IsNewest free.1 free.2 := by
  obtain ⟨_, namedBy⟩ := nameTerm_eq_ok_iff.mp naming
  rw [show context.scope.newest = context.scope.newest.underMany 0 from rfl,
    Indexed.Term.rename_eq_self_iff]
  refine forall₂_congr fun free member => ?_
  obtain ⟨_, found⟩ := namedBy.free_bound free member
  exact Scope.newest_eq_self_iff found

/-- A named type is kept by moving to the newest binders exactly if it refers to these only. -/
theorem rename_newest_eq_self_iff_of_nameType {context : Context} {ty : Indexed.Ty} {named : Ty}
    (naming : context.nameType ty = .ok named) :
    ty.rename context.scope.newest = ty ↔
      ∀ index ∈ ty.freeOccurrences 0, context.scope.IsNewest .type index := by
  obtain ⟨_, namedBy⟩ := nameType_eq_ok_iff.mp naming
  rw [show context.scope.newest = context.scope.newest.underMany 0 from rfl,
    Indexed.Ty.rename_eq_self_iff]
  refine forall₂_congr fun index member => ?_
  obtain ⟨_, found⟩ := namedBy.free_bound index member
  exact Scope.newest_eq_self_iff found

/-- What comes from names has a name, and resolves to itself. -/
theorem nameTerm_of_resolve {context : Context} {written : Term} {term : Indexed.Term}
    (resolved : written.resolve context.scope = .ok term) :
    ∃ named, context.nameTerm term = .ok named ∧ named.resolve context.scope = .ok term := by
  obtain ⟨indexed, describes⟩ := context.scope.exists_describes
  obtain ⟨named, naming⟩ := nameTerm_of_inScope describes (Term.resolve_inScope resolved describes)
  have newest := @Term.ResolvesTo.isNewest _ [] context.scope _ _
    (Term.resolve_eq_ok_iff.mp resolved) rfl
  have unmoved := (rename_newest_eq_self_iff_of_nameTerm naming).mpr newest
  exact ⟨named, naming, unmoved ▸ nameTerm_resolve naming⟩

@[inherit_doc nameTerm_of_resolve]
theorem nameType_of_resolve {context : Context} {written : Ty} {ty : Indexed.Ty}
    (resolved : written.resolve context.scope = .ok ty) :
    ∃ named, context.nameType ty = .ok named ∧ named.resolve context.scope = .ok ty := by
  obtain ⟨indexed, describes⟩ := context.scope.exists_describes
  obtain ⟨named, naming⟩ := nameType_of_inScope describes (Ty.resolve_inScope resolved describes)
  have newest := @Ty.ResolvesTo.isNewest _ [] context.scope _ _
    (Ty.resolve_eq_ok_iff.mp resolved) rfl
  have unmoved := (rename_newest_eq_self_iff_of_nameType naming).mpr newest
  exact ⟨named, naming, unmoved ▸ nameType_resolve naming⟩

/-- Naming a tree and resolving its names gives the tree back, spans included, exactly
if each of its free indices points to the newest binder of its kind and name. What
comes from names has a name and is given back. -/
theorem naming_round_trips (context : Context) :
    (∀ term named, context.nameTerm term = .ok named →
      ∃ resolved, named.resolve context.scope = .ok resolved ∧
        (resolved = term ↔
          ∀ free ∈ term.freeOccurrences 0, context.scope.IsNewest free.1 free.2)) ∧
    (∀ ty named, context.nameType ty = .ok named →
      ∃ resolved, named.resolve context.scope = .ok resolved ∧
        (resolved = ty ↔ ∀ index ∈ ty.freeIndices, context.scope.IsNewest .type index)) ∧
    (∀ (written : Term) term, written.resolve context.scope = .ok term →
      ∃ named, context.nameTerm term = .ok named ∧ named.resolve context.scope = .ok term) ∧
    (∀ (written : Ty) ty, written.resolve context.scope = .ok ty →
      ∃ named, context.nameType ty = .ok named ∧ named.resolve context.scope = .ok ty) := by
  refine ⟨?_, ?_, fun _ _ => nameTerm_of_resolve, fun _ _ => nameType_of_resolve⟩
  · intro term named naming
    exact ⟨_, nameTerm_resolve naming, rename_newest_eq_self_iff_of_nameTerm naming⟩
  · intro ty named naming
    refine ⟨_, nameType_resolve naming, ?_⟩
    simp only [Indexed.Ty.freeIndices, List.mem_eraseDups]
    exact rename_newest_eq_self_iff_of_nameType naming

/-- Two types of one name, and a term between them. -/
def hidingContext : Context :=
  [.type "A", .term ⟨"a", .var ⟨0, 1⟩ "A", none⟩, .type "A"]

/-- A function on functions of the type at an index of `hidingContext`, which it applies
to the term of `hidingContext`. -/
def applying (index : Nat) : Indexed.Term :=
  .tyLam ⟨0, 20⟩ (.lam ⟨5, 20⟩ (.arrow ⟨8, 14⟩ (.var ⟨8, 9⟩ (index + 1)) (.var ⟨13, 14⟩ 0))
    (.app ⟨16, 19⟩ (.var ⟨16, 17⟩ 0) (.var ⟨18, 19⟩ 3)))

/-- The two types are named alike, so one of them does not come back. -/
theorem naming_round_trips_hidden :
    (∃ named, hidingContext.nameTerm (applying 2) = .ok named ∧
      ∃ resolved, named.resolve hidingContext.scope = .ok resolved ∧ resolved ≠ applying 2) ∧
    ∃ named, hidingContext.nameTerm (applying 0) = .ok named ∧
      named.resolve hidingContext.scope = .ok (applying 0) := by
  have named : ∀ index ∈ [0, 2], hidingContext.nameTerm (applying index) =
      .ok (.tyLam ⟨0, 20⟩ ⟨⟨0, 20⟩, "B"⟩ (.lam ⟨5, 20⟩ ⟨⟨5, 20⟩, "b"⟩
        (.arrow ⟨8, 14⟩ (.var ⟨8, 9⟩ "A") (.var ⟨13, 14⟩ "B"))
        (.app ⟨16, 19⟩ (.var ⟨16, 17⟩ "b") (.var ⟨18, 19⟩ "a")))) := by decide +kernel
  obtain ⟨terms, _, _, _⟩ := naming_round_trips hidingContext
  constructor
  · obtain ⟨resolved, resolves, sameIff⟩ := terms _ _ (named 2 (by decide))
    refine ⟨_, named 2 (by decide), resolved, resolves, ?_⟩
    rw [ne_eq, sameIff]
    intro allNewest
    obtain ⟨name, found, noNewer⟩ := allNewest (.type, 2) (by decide)
    cases found
    exact noNewer 0 (by decide) rfl
  · obtain ⟨resolved, resolves, sameIff⟩ := terms _ _ (named 0 (by decide))
    have typeFound : hidingContext.scope.indexOf? .type "A" = some 0 := rfl
    have termFound : hidingContext.scope.indexOf? .term "a" = some 1 := rfl
    have newest : ∀ free ∈ (applying 0).freeOccurrences 0,
        hidingContext.scope.IsNewest free.1 free.2 := by
      intro free member
      rcases List.mem_cons.mp member with rfl | member
      · exact Scope.isNewest_of_indexOf? typeFound
      · rw [List.mem_singleton.mp member]
        exact Scope.isNewest_of_indexOf? termFound
    exact ⟨_, named 0 (by decide), sameIff.mpr newest ▸ resolves⟩

end Context

end Named

end PolyLambda
