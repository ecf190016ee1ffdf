import PolyLambda.Proofs.NamingHygiene

/-!
# Dangling indices of types

Checking the scope of a type subtracts the number of quantifiers around an index from it,
naming a type keeps a list of the quantifiers, and the free indices are collected from below.
All three agree on what is wrong with a type: it is the first of its free indices that
denotes no type binder, counted in the context around the type.
-/

namespace PolyLambda

/-! ## Failures of computations -/

/-- Why a computation fails, if it does. -/
def failure? {ε α : Type} : Except ε α → Option ε
  | .ok _ => none
  | .error failure => some failure

section

variable {ε ε' α β : Type} {result : Except ε α}

/-- The failure of a computation is what it fails with. -/
theorem failure?_eq_some_iff {failure : ε} :
    failure? result = some failure ↔ result = .error failure := by
  cases result <;> simp [failure?]

/-- A computation without a failure succeeds. -/
theorem failure?_eq_none_iff : failure? result = none ↔ ∃ value, result = .ok value := by
  cases result <;> simp [failure?]

/-- Wrapping failures wraps the failure. -/
theorem failure?_mapError (wrap : ε → ε') :
    failure? (result.mapError wrap) = (failure? result).map wrap := by
  cases result <;> rfl

/-- A second computation is asked for its failure after the first one, whatever it is given. -/
theorem failure?_bind {next : α → Except ε β} {rest : Option ε}
    (nextFails : ∀ value, failure? (next value) = rest) :
    failure? (result >>= next) = (failure? result).or rest := by
  cases result with
  | ok value => exact nextFails value
  | error failure => rfl

/-- A computation that goes on without failing has the failure of its beginning. -/
theorem failure?_bind_ok {next : α → Except ε β}
    (succeeds : ∀ value, failure? (next value) = none) :
    failure? (result >>= next) = failure? result := by
  rw [failure?_bind succeeds, Option.or_none]

end

/-! ## Lists without repetitions -/

section

variable {α β : Type} [DecidableEq α]

/-- Removing duplicates leaves none. -/
theorem nodup_eraseDups (list : List α) : list.eraseDups.Nodup := by
  match list with
  | [] => exact List.nodup_nil
  | first :: rest =>
      rw [List.eraseDups_cons, List.nodup_cons]
      refine ⟨?_, nodup_eraseDups _⟩
      simp [List.mem_eraseDups]
termination_by list.length
decreasing_by exact Nat.lt_succ_of_le (List.length_filter_le _ _)

/-- A repetition is never the first of its kind. -/
theorem findSome?_eraseDups (check : α → Option β) (list : List α) :
    list.eraseDups.findSome? check = list.findSome? check := by
  match list with
  | [] => rfl
  | first :: rest =>
      rw [List.eraseDups_cons, List.findSome?_cons, List.findSome?_cons,
        findSome?_eraseDups check]
      cases checked : check first with
      | some found => rfl
      | none =>
          show (rest.filter fun other => !other == first).findSome? check = rest.findSome? check
          induction rest with
          | nil => rfl
          | cons other rest restIH =>
              by_cases same : other = first
              · simpa [same, checked] using restIH
              · simp [same, List.findSome?_cons, restIH]
termination_by list.length
decreasing_by exact Nat.lt_succ_of_le (List.length_filter_le _ _)

end

/-! ## Looking up types -/

/-- What is wrong with an index that is to denote a type binder, where the kinds of the
binders are given. -/
def typeFault? (kinds : List Kind) (index : Nat) : Option LookupError :=
  match kinds[index]? with
  | some .type => none
  | some .term => some (.inconsistent index .term .type)
  | none => some (.outOfRange index kinds.length)

/-- Looking up a type variable in a context fails as the kind at its index says. -/
theorem Context.failure?_typeAt {ν τ δ : Type} (context : Context ν τ δ) (index : Nat) :
    failure? (context.typeAt index) = typeFault? (context.map Binding.kind) index := by
  unfold Context.typeAt typeFault?
  rw [List.getElem?_map, List.length_map]
  cases context[index]? with
  | none => rfl
  | some binding => cases binding <;> rfl

/-- Naming a type variable in a scope fails as the kind at its index says. -/
theorem Scope.failure?_nameAt (scope : Scope) (index : Nat) :
    failure? (scope.nameAt .type index) = typeFault? (scope.map Binder.kind) index := by
  unfold Scope.nameAt typeFault?
  rw [List.getElem?_map, List.length_map]
  cases scope[index]? with
  | none => rfl
  | some binder =>
      obtain ⟨kind, name⟩ := binder
      cases kind <;> rfl

namespace Indexed

open Naming

/-! ## The walks over a type -/

/-- The check of a type finds the first free occurrence that denotes no type. -/
theorem Ty.failure?_checkScope (context : Context) (depth : Nat) (ty : Ty) :
    (failure? (ty.checkScope context depth)).map IllegalIndex.error =
      (ty.freeOccurrences depth).findSome? (typeFault? (context.map Binding.kind)) := by
  induction ty generalizing depth with
  | var span index =>
      rw [Ty.checkScope, Ty.freeOccurrences]
      by_cases bound : index < depth
      · simp [bound, Nat.not_le_of_lt bound, failure?]
      · rw [if_neg bound, if_pos (Nat.le_of_not_lt bound), List.findSome?_singleton,
          ← Context.failure?_typeAt, Context.checkType, failure?_mapError, Option.map_map]
        exact Option.map_id'
  | arrow span domain codomain domainIH codomainIH =>
      rw [Ty.checkScope, Ty.freeOccurrences, List.findSome?_append, ← domainIH, ← codomainIH,
        failure?_bind fun _ => rfl, Option.map_or]
  | all span body bodyIH => exact bodyIH (depth + 1)

/-- Naming a type fails at the first free occurrence that denotes no type. -/
theorem Ty.failure?_withNames (binders : Binders) (supply : Supply) (ty : Ty)
    (quantifiers : ∀ binder ∈ binders.inner, binder.kind = .type) :
    failure? (ty.withNames binders supply) =
      (ty.freeOccurrences binders.inner.length).findSome?
        (typeFault? (binders.ambient.map Binder.kind)) := by
  induction ty generalizing binders supply with
  | var span index =>
      have named : failure? (Ty.withNames binders supply (.var span index)) =
          failure? (binders.nameAt .type index) :=
        failure?_bind_ok fun _ => rfl
      rw [named, Ty.freeOccurrences, Binders.nameAt]
      by_cases bound : index < binders.inner.length
      · have isType := quantifiers _ (List.getElem_mem bound)
        simp [bound, Nat.not_le_of_lt bound, Scope.nameAt, isType, failure?]
      · rw [if_neg bound, if_pos (Nat.le_of_not_lt bound), List.findSome?_singleton,
          Scope.failure?_nameAt]
  | arrow span domain codomain domainIH codomainIH =>
      rw [Ty.withNames, Ty.freeOccurrences, List.findSome?_append, ← domainIH _ supply quantifiers]
      apply failure?_bind
      rintro ⟨namedDomain, middle⟩
      rw [← codomainIH _ middle quantifiers]
      exact failure?_bind_ok fun _ => rfl
  | all span body bodyIH =>
      rcases entered : binders.enter supply .type with ⟨name, inside, after⟩
      obtain ⟨_, rfl⟩ := Binders.enter_eq_iff.mp entered
      have insideQuantifiers : ∀ binder ∈ (⟨.type, name⟩ :: binders.inner : Scope),
          binder.kind = .type :=
        List.forall_mem_cons.mpr ⟨rfl, quantifiers⟩
      have bodyFails :=
        bodyIH ⟨binders.ambient, ⟨.type, name⟩ :: binders.inner⟩ after insideQuantifiers
      simp only [Ty.withNames, entered]
      rw [failure?_bind_ok fun _ => rfl]
      exact bodyFails

/-- Walks over a type and appends each free index that has not been found before. -/
def Ty.collectFree (depth : Nat) (found : List Nat) : Ty → List Nat
  | .var _ index =>
    if depth ≤ index ∧ index - depth ∉ found then found ++ [index - depth] else found
  | .arrow _ domain codomain => codomain.collectFree depth (domain.collectFree depth found)
  | .all _ body => body.collectFree (depth + 1) found

/-- Collecting free indices adds those that are not yet found, in the order of
their occurrences. -/
theorem Ty.collectFree_eraseDups (ty : Ty) (depth : Nat) (found : List Nat) :
    ty.collectFree depth found.eraseDups = (found ++ ty.freeOccurrences depth).eraseDups := by
  induction ty generalizing depth found with
  | var span index =>
      rw [Ty.collectFree, Ty.freeOccurrences]
      by_cases free : depth ≤ index
      · by_cases known : index - depth ∈ found
        · simp [free, known, List.eraseDups_append, List.removeAll]
        · simp [free, known, List.eraseDups_append, List.removeAll, List.eraseDups_cons]
      · simp [free]
  | arrow span domain codomain domainIH codomainIH =>
      rw [Ty.collectFree, Ty.freeOccurrences, domainIH, codomainIH, List.append_assoc]
  | all span body bodyIH => exact bodyIH (depth + 1) found

/-- The free indices are those that one walk over the type collects. -/
theorem Ty.freeIndices_eq_collectFree (ty : Ty) : ty.freeIndices = ty.collectFree 0 [] :=
  (ty.collectFree_eraseDups 0 []).symm

/-- The first fault among the free indices is the first one among the free occurrences. -/
theorem Ty.findSome?_freeIndices {β : Type} (check : Nat → Option β) (ty : Ty) :
    ty.freeIndices.findSome? check = (ty.freeOccurrences 0).findSome? check :=
  findSome?_eraseDups check _

end Indexed

namespace Named.Context

open Indexed (IllegalIndex)

variable {context : Context} {ty : Indexed.Ty}

/-- Naming a type fails at the first free index that denotes no type. -/
theorem failure?_nameType (context : Context) (ty : Indexed.Ty) :
    failure? (context.nameType ty) =
      ty.freeIndices.findSome? fun index => failure? (context.typeAt index) := by
  have named : failure? (context.nameType ty) =
      failure? (ty.withNames ⟨context.scope, []⟩ .initial) :=
    failure?_bind_ok fun _ => rfl
  rw [named, Indexed.Ty.failure?_withNames _ _ ty (List.forall_mem_nil _), kinds_scope,
    Indexed.Ty.findSome?_freeIndices]
  simp only [PolyLambda.Context.failure?_typeAt]
  rfl

/-- The check of a type fails at the first free index that denotes no type. -/
theorem failure?_checkScope {indexed : Indexed.Context}
    (resolved : Context.resolve context = .ok indexed) (ty : Indexed.Ty) :
    (failure? (ty.checkScope indexed 0)).map IllegalIndex.error =
      ty.freeIndices.findSome? fun index => failure? (context.typeAt index) := by
  rw [Indexed.Ty.failure?_checkScope, ← resolve_describes resolved, kinds_scope,
    Indexed.Ty.findSome?_freeIndices]
  simp only [PolyLambda.Context.failure?_typeAt]

/-- In a context that resolves, a type is in scope exactly if it has a name, which is exactly
if each of its free indices denotes a type binder. If it is not, checking and naming it fail
in the same way, and as the first of its free indices does that denotes no type binder. -/
theorem scope_walkers_agree {indexed : Indexed.Context}
    (resolved : Context.resolve context = .ok indexed) (ty : Indexed.Ty) :
    (ty.checkScope indexed 0 = .ok () ↔ ∃ named, context.nameType ty = .ok named) ∧
    ((∃ named, context.nameType ty = .ok named) ↔
      ∀ index ∈ ty.freeIndices, ∃ name, context.typeAt index = .ok name) ∧
    (∀ error, (∃ span, ty.checkScope indexed 0 = .error ⟨error, span⟩) ↔
      context.nameType ty = .error error) ∧
    (∀ error, context.nameType ty = .error error ↔
      ∃ before index after, ty.freeIndices = before ++ index :: after ∧
        (∀ earlier ∈ before, ∃ name, context.typeAt earlier = .ok name) ∧
        context.typeAt index = .error error) ∧
    ty.freeIndices.Nodup := by
  have checking := failure?_checkScope resolved ty
  have naming := failure?_nameType context ty
  refine ⟨?succeed, ?resolve, ?fail, ?first, nodup_eraseDups _⟩
  case succeed =>
    rw [← failure?_eq_none_iff, naming, ← checking, Option.map_eq_none_iff, failure?_eq_none_iff]
    exact ⟨fun success => ⟨(), success⟩, fun ⟨(), success⟩ => success⟩
  case resolve =>
    rw [← failure?_eq_none_iff, naming, List.findSome?_eq_none_iff]
    simp only [failure?_eq_none_iff]
  case fail =>
    intro error
    rw [← failure?_eq_some_iff, naming, ← checking, Option.map_eq_some_iff]
    simp only [failure?_eq_some_iff]
    constructor
    · rintro ⟨span, failed⟩
      exact ⟨_, failed, rfl⟩
    · rintro ⟨⟨_, span⟩, failed, rfl⟩
      exact ⟨span, failed⟩
  case first =>
    intro error
    rw [← failure?_eq_some_iff, naming, List.findSome?_eq_some_iff]
    simp only [failure?_eq_some_iff, failure?_eq_none_iff]
    constructor
    · rintro ⟨before, index, after, split, failed, earlier⟩
      exact ⟨before, index, after, split, earlier, failed⟩
    · rintro ⟨before, index, after, split, earlier, failed⟩
      exact ⟨before, index, after, split, failed, earlier⟩

/-- A type over the context `A`, `y: A`: its free indices `1` and `0` are those of `A` and of
`y`, and the third one points out of the context. -/
def danglingType : Indexed.Ty :=
  .arrow ⟨0, 20⟩
    (.all ⟨1, 10⟩ (.arrow ⟨2, 9⟩ (.var ⟨2, 3⟩ 2) (.all ⟨4, 8⟩ (.var ⟨5, 6⟩ 2))))
    (.arrow ⟨11, 20⟩ (.var ⟨11, 12⟩ 1) (.var ⟨15, 16⟩ 7))

/-- The index of the term is blamed, as it counts outside of the two quantifiers around it. -/
theorem scope_walkers_agree_dangling :
    danglingType.freeIndices = [1, 0, 7] ∧
    Context.resolve [.term ⟨"y", .var ⟨0, 1⟩ "A", none⟩, .type "A"] =
      .ok [.term ⟨(), .var ⟨0, 1⟩ 0, none⟩, .type ()] ∧
    (∃ span, danglingType.checkScope [.term ⟨(), .var ⟨0, 1⟩ 0, none⟩, .type ()] 0 =
      .error ⟨.inconsistent 0 .term .type, span⟩) ∧
    nameType [.term ⟨"y", .var ⟨0, 1⟩ "A", none⟩, .type "A"] danglingType =
      .error (.inconsistent 0 .term .type) := by
  have resolved : Context.resolve [.term ⟨"y", .var ⟨0, 1⟩ "A", none⟩, .type "A"] =
      .ok [.term ⟨(), .var ⟨0, 1⟩ 0, none⟩, .type ()] := rfl
  have indices : danglingType.freeIndices = [1, 0, 7] := by decide
  obtain ⟨_, _, same, first, _⟩ := scope_walkers_agree resolved danglingType
  have unnamed := (first (.inconsistent 0 .term .type)).mpr
    ⟨[1], 0, [7], indices, List.forall_mem_singleton.mpr ⟨"A", rfl⟩, rfl⟩
  exact ⟨indices, resolved, (same _).mpr unnamed, unnamed⟩

end Named.Context

end PolyLambda
