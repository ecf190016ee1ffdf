import PolyLambda.Proofs.TreeHeights

/-!
# Weakening

A context may be extended anywhere. Everything above the new binder moves past it,
and so do the indices of the terms that are read there; apart from that, types and
normal forms stay what they were. More generally, a renaming that embeds one context
into another takes deduction and normalisation along.
-/

namespace PolyLambda

/-- A second computation mirrors a first one: they succeed together, and the second
one yields the image of what the first one yields. -/
def Mirrors {ε ε' α β : Type} (image : α → β) (first : Except ε α) (second : Except ε' β) : Prop :=
  second.toOption = first.toOption.map image

namespace Mirrors

variable {ε ε' α β γ δ : Type} {image : α → β} {first : Except ε α} {second : Except ε' β}

/-- A result is mirrored by its image. -/
theorem ok (image : α → β) (value : α) :
    Mirrors image (.ok value : Except ε α) (.ok (image value) : Except ε' β) :=
  rfl

/-- A failure is mirrored by any failure. -/
theorem error (image : α → β) (failure : ε) (otherFailure : ε') :
    Mirrors image (.error failure : Except ε α) (.error otherFailure : Except ε' β) :=
  rfl

/-- Where the first computation succeeds the second yields the image. -/
theorem eq_ok (mirrors : Mirrors image first second) {value : α} (success : first = .ok value) :
    second = .ok (image value) := by
  subst success
  cases second with
  | error failure => cases mirrors
  | ok other =>
      cases mirrors
      rfl

/-- Where the second computation succeeds it yields an image of what the first one yields. -/
theorem exists_ok (mirrors : Mirrors image first second) {other : β}
    (success : second = .ok other) : ∃ value, first = .ok value ∧ image value = other := by
  subst success
  cases first with
  | error failure => cases mirrors
  | ok value =>
      cases mirrors
      exact ⟨value, rfl, rfl⟩

/-- Computations in steps mirror each other if their steps do. -/
theorem bind (mirrors : Mirrors image first second) {next : α → Except ε γ}
    {otherNext : β → Except ε' δ} {finalImage : γ → δ}
    (onward : ∀ value, first = .ok value →
      Mirrors finalImage (next value) (otherNext (image value))) :
    Mirrors finalImage (first >>= next) (second >>= otherNext) := by
  cases first with
  | error failure =>
      cases second with
      | error otherFailure => rfl
      | ok other => cases mirrors
  | ok value =>
      cases mirrors.eq_ok rfl
      exact onward value rfl

end Mirrors

/-- A mapped computation yields the images of what the computation yields. -/
theorem map_eq_ok_iff {ε α β : Type} {result : Except ε α} {image : α → β} {other : β} :
    result.map image = .ok other ↔ ∃ value, result = .ok value ∧ image value = other := by
  cases result <;> simp [Except.map]

namespace Indexed

/-! ## Embeddings -/

/-- What a binder records, with its indices renamed. -/
def Binding.rename (mapping : Renaming) : Binding → Binding
  | .type name => .type name
  | .term entry => .term ⟨(), entry.ty.rename mapping, entry.definition.map (Term.rename mapping)⟩

/-- An injective renaming is injective under a binder. -/
theorem Renaming.under_injective {mapping : Renaming} (injective : Function.Injective mapping) :
    Function.Injective mapping.under := by
  intro first second equal
  cases first with
  | zero =>
      cases second with
      | zero => rfl
      | succ second => cases equal
  | succ first =>
      cases second with
      | zero => cases equal
      | succ second =>
          simp only [Renaming.under_succ, Nat.add_right_cancel_iff] at equal
          rw [injective equal]

/-- An injective renaming tells types apart. -/
theorem Ty.rename_injective {mapping : Renaming} (injective : Function.Injective mapping) :
    Function.Injective (Ty.rename mapping) := by
  intro left right equal
  induction left generalizing mapping right with
  | var span index =>
      cases right <;> simp_all [Ty.rename, injective.eq_iff]
  | arrow span domain codomain domainIH codomainIH =>
      cases right with
      | arrow otherSpan otherDomain otherCodomain =>
          simp only [Ty.rename, Ty.arrow.injEq] at equal
          rw [equal.1, domainIH injective equal.2.1, codomainIH injective equal.2.2]
      | var | all => cases equal
  | all span body bodyIH =>
      cases right with
      | all otherSpan otherBody =>
          simp only [Ty.rename, Ty.all.injEq] at equal
          rw [equal.1, bodyIH (Renaming.under_injective injective) equal.2]
      | var | arrow => cases equal

/-- An injective renaming confuses no types. -/
theorem Ty.same_rename_iff {mapping : Renaming} (injective : Function.Injective mapping)
    {left right : Ty} : (left.rename mapping).Same (right.rename mapping) ↔ left.Same right := by
  simp only [Ty.Same, Ty.bare_rename, (Ty.rename_injective injective).eq_iff]

/-- A renaming embeds one context into another when it carries what is recorded,
keeps binders apart and takes assumptions to assumptions. -/
structure Renaming.Embeds (mapping : Renaming) (source target : Context) : Prop
    extends Renaming.Carries mapping source target where
  injective : Function.Injective mapping
  assumed : ∀ {index}, (source.termType? index).isSome → source.unfolding? index = none →
    target.unfolding? (mapping index) = none

namespace Renaming.Embeds

variable {mapping : Renaming} {source target : Context}

/-- Raising every index embeds a context into the context with one more binder. -/
theorem up (context : Context) (binding : Binding) :
    (Renaming.up 1).Embeds context (binding :: context) where
  toCarries := .up context binding
  injective first second equal := by simpa using equal
  assumed _ absent := by simp [absent]

/-- Both contexts may be extended by a binder, renamed in the second one. -/
theorem under (embeds : mapping.Embeds source target) (binding : Binding) :
    mapping.under.Embeds (binding :: source) (Binding.rename mapping binding :: target) where
  toCarries := by
    cases binding with
    | type name => exact embeds.underType
    | term entry => exact embeds.underEntry entry.ty entry.definition
  injective := Renaming.under_injective embeds.injective
  assumed {index} bound absent := by
    cases index with
    | zero =>
        cases binding with
        | type name => rfl
        | term entry => simpa [Binding.rename] using absent
    | succ index =>
        simp only [Context.termType?_cons_succ, Option.isSome_map] at bound
        simp only [Context.unfolding?_cons_succ, Option.map_eq_none_iff] at absent
        simp [embeds.assumed bound absent]

/-- An embedding is one under a type binder. -/
theorem underTypeBinder (embeds : mapping.Embeds source target) :
    mapping.under.Embeds source.pushType target.pushType :=
  embeds.under (.type ())

/-- An embedding is one under a term binder, whose type it renames. -/
theorem underTermBinder (embeds : mapping.Embeds source target) (ty : Ty) :
    mapping.under.Embeds (source.pushTerm ty) (target.pushTerm (ty.rename mapping)) :=
  embeds.under (.term ⟨(), ty, none⟩)

end Renaming.Embeds

/-! ## Deduction -/

/-- A variable has the type that the context records. -/
theorem Term.deduce_var {context : Context} {index : Nat} {ty : Ty} (span : Span)
    (recorded : context.termType? index = some ty) :
    (Term.var span index).deduce .unlimited context = .ok ty := by
  obtain ⟨entry, found, rfl⟩ := Context.termType?_eq_some_iff.mp recorded
  simp only [Term.deduce, bind_eq_ok_iff, mapError_eq_ok_iff]
  exact ⟨entry, Context.lookupTerm_eq_ok_iff.mpr found, _,
    (IndexRange.distance_computes .unlimited _).ofUnlimited,
    (Ty.shift_computes_lift .unlimited _ entry.ty).ofUnlimited⟩

/-- The type of a function in scope leads from the parameter type to the type of the body. -/
theorem Term.deduce_lam {context : Context} {paramType : Ty} (span : Span) (body : Term)
    (inScope : paramType.InScope context) :
    (Term.lam span paramType body).deduce .unlimited context = (do
      let bodyType ← body.deduce .unlimited (context.pushTerm paramType)
      return .arrow span paramType (bodyType.rename .down)) := by
  have lowered : ∀ bodyType : Ty, bodyType.shift .unlimited 1 (-1) = .ok (bodyType.rename .down) :=
    fun bodyType => (Ty.shift_computes_down .unlimited bodyType).ofUnlimited
  simp only [Term.deduce, (Ty.checkScope_eq_ok_iff context 0 paramType).mpr inScope, lowered,
    mapError_ok]
  rfl

/-- A universal type is instantiated at a type in scope. -/
theorem Term.deduce_tyApp {context : Context} {argument : Ty} (span : Span) (function : Term)
    (inScope : argument.InScope context) :
    (Term.tyApp span function argument).deduce .unlimited context = (do
      let functionType ← function.deduce .unlimited context
      match functionType with
      | .all _ body => return body.bodyAt argument
      | found => .error (.notUniversal function.span found context)) := by
  have instantiated : ∀ body : Ty,
      body.instantiate .unlimited argument = .ok (body.bodyAt argument) :=
    fun body => (Ty.instantiate_computes .unlimited body argument).ofUnlimited
  simp only [Term.deduce, (Ty.checkScope_eq_ok_iff context 0 argument).mpr inScope, instantiated,
    mapError_ok]
  rfl

/-- A type in the scope of a term binder does not mention it, so renaming below the
binder is renaming outside of it. -/
theorem Ty.InScope.rename_under_down {context : Context} {param ty : Ty}
    (inScope : ty.InScope (context.pushTerm param)) (mapping : Renaming) :
    (ty.rename mapping.under).rename .down = (ty.rename .down).rename mapping := by
  have lifted := inScope.lift_down
  calc (ty.rename mapping.under).rename .down
      = (((ty.rename .down).lift 1).rename mapping.under).rename .down := by rw [lifted]
    _ = (((ty.rename .down).rename mapping).lift 1).rename .down := by rw [Ty.lift_rename_under]
    _ = (ty.rename .down).rename mapping := Ty.lift_rename_down _

/-- Deduction follows an embedding. -/
theorem Term.deduce_mirrors {mapping : Renaming} {source target : Context} {term : Term}
    (embeds : mapping.Embeds source target) (closed : source.Scoped)
    (inScope : term.InScope source) :
    Mirrors (Ty.rename mapping) (term.deduce .unlimited source)
      ((term.rename mapping).deduce .unlimited target) := by
  induction term generalizing mapping source target with
  | var span index =>
      obtain ⟨ty, recorded⟩ := Option.isSome_iff_exists.mp inScope
      rw [Term.rename, Term.deduce_var span recorded, Term.deduce_var span (embeds.terms recorded)]
      exact .ok _ ty
  | lam span paramType body bodyIH =>
      have pushed := closed.pushTerm inScope.1
      rw [Term.rename, Term.deduce_lam span body inScope.1,
        Term.deduce_lam span _ (inScope.1.rename embeds.toCarries)]
      refine (bodyIH (embeds.underTermBinder paramType) pushed inScope.2).bind ?_
      intro bodyType deduced
      have bodyInScope := (Term.deduce_typed pushed deduced).ty_inScope pushed
      rw [bodyInScope.rename_under_down mapping]
      exact .ok _ _
  | app span function argument functionIH argumentIH =>
      refine (functionIH embeds closed inScope.1).bind ?_
      intro functionType _
      refine (argumentIH embeds closed inScope.2).bind ?_
      intro argumentType _
      cases functionType with
      | var | all => exact .error _ _ _
      | arrow arrowSpan domain codomain =>
          simp only [Ty.rename, Ty.same_rename_iff embeds.injective]
          split
          · exact .ok _ codomain
          · exact .error _ _ _
  | tyLam span body bodyIH =>
      have pushed : source.pushType.Scoped := closed
      refine (bodyIH embeds.underTypeBinder pushed inScope).bind ?_
      intro bodyType _
      exact .ok _ _
  | tyApp span function argument functionIH =>
      rw [Term.rename, Term.deduce_tyApp span function inScope.2,
        Term.deduce_tyApp span _ (inScope.2.rename embeds.toCarries)]
      refine (functionIH embeds closed inScope.1).bind ?_
      intro functionType _
      cases functionType with
      | var | arrow => exact .error _ _ _
      | all allSpan body =>
          simp only [Ty.rename, ← Ty.bodyAt_rename]
          exact .ok _ _

/-! ## Normalisation -/

/-- A variable is unfolded if it is defined and stays otherwise. -/
theorem Term.normalize_var {context : Context} {index : Nat} (span : Span)
    (bound : (context.termType? index).isSome) (depth : Nat) :
    (Term.var span index).normalize .unlimited (depth + 1) context =
      match context.unfolding? index with
      | none => .ok (.var span index)
      | some definition => definition.normalize .unlimited depth context := by
  obtain ⟨entry, lookup⟩ := (context.termType?_isSome_iff span index).mp bound
  have found := Context.lookupTerm_eq_ok_iff.mp lookup
  have measured := (IndexRange.unlimited.distance_computes index).ofUnlimited
  simp only [Term.normalize, lookup, mapError_ok, bind, Except.bind]
  cases stored : entry.definition with
  | none =>
      have absent : context.unfolding? index = none := by simp [Context.unfolding?, found, stored]
      simp only [absent]
      rfl
  | some definition =>
      have shifted := (Term.shift_computes_lift .unlimited (index + 1) definition).ofUnlimited
      simp only [Context.unfolding?_of_definition found stored, measured, shifted, mapError_ok]

/-- An application is contracted if its function comes to an abstraction. -/
theorem Term.normalize_app {context : Context} {function argument : Term} {depth : Nat}
    (span : Span) (inScope : ∀ {normal}, function.normalize .unlimited depth context = .ok normal →
      normal.InScope context) :
    (Term.app span function argument).normalize .unlimited (depth + 1) context = (do
      let function ← function.normalize .unlimited depth context
      let argument ← argument.normalize .unlimited depth context
      match function with
      | .lam _ _ body => (body.bodyAt argument).normalize .unlimited depth context
      | function => return .app span function argument) := by
  simp only [Term.normalize]
  cases functionNormalized : function.normalize .unlimited depth context with
  | error error => rfl
  | ok normalFunction =>
      cases argument.normalize .unlimited depth context with
      | error error => rfl
      | ok normalArgument =>
          cases normalFunction with
          | var | app | tyLam | tyApp => rfl
          | lam lamSpan paramType body =>
              have instantiated := ((inScope functionNormalized).2.instantiate_computes .unlimited
                normalArgument).ofUnlimited
              simp only [bind, Except.bind, instantiated, mapError_ok]

/-- An application to a type is contracted if its function comes to a type abstraction. -/
theorem Term.normalize_tyApp {context : Context} {function : Term} {argument : Ty} {depth : Nat}
    (span : Span) (inScope : ∀ {normal}, function.normalize .unlimited depth context = .ok normal →
      normal.InScope context) :
    (Term.tyApp span function argument).normalize .unlimited (depth + 1) context = (do
      let function ← function.normalize .unlimited depth context
      match function with
      | .tyLam _ body => (body.bodyAtType argument).normalize .unlimited depth context
      | function => return .tyApp span function argument) := by
  simp only [Term.normalize]
  cases functionNormalized : function.normalize .unlimited depth context with
  | error error => rfl
  | ok normalFunction =>
      cases normalFunction with
      | var | lam | app | tyApp => rfl
      | tyLam lamSpan body =>
          have bodyInScope : body.InScope context.pushType := inScope functionNormalized
          have instantiated :=
            (bodyInScope.instantiateType_computes .unlimited argument).ofUnlimited
          simp only [bind, Except.bind, instantiated, mapError_ok]

/-- Normalisation follows an embedding, to every recursion depth. -/
theorem Term.normalize_rename {mapping : Renaming} {source target : Context} {term : Term}
    (embeds : mapping.Embeds source target) (closed : source.Scoped)
    (inScope : term.InScope source) (depth : Nat) :
    (term.rename mapping).normalize .unlimited depth target =
      (term.normalize .unlimited depth source).map (Term.rename mapping) := by
  induction depth generalizing mapping source target term with
  | zero => rfl
  | succ depth depthIH =>
      cases term with
      | var span index =>
          obtain ⟨ty, recorded⟩ := Option.isSome_iff_exists.mp inScope
          have bound := Option.isSome_iff_exists.mpr ⟨_, embeds.terms recorded⟩
          rw [Term.rename, Term.normalize_var span inScope, Term.normalize_var span bound]
          cases unfolds : source.unfolding? index with
          | none =>
              rw [embeds.assumed inScope unfolds]
              rfl
          | some definition =>
              rw [embeds.unfoldings unfolds]
              exact depthIH embeds closed (closed.unfolding? unfolds)
      | lam span paramType body =>
          simp only [Term.rename, Term.normalize, depthIH (embeds.underTermBinder paramType)
            (closed.pushTerm inScope.1) inScope.2]
          cases body.normalize .unlimited depth (source.pushTerm paramType) <;> rfl
      | app span function argument =>
          have functionIH := depthIH embeds closed inScope.1
          have argumentIH := depthIH embeds closed inScope.2
          have functionInScope {normal : Term}
              (normalized : function.normalize .unlimited depth source = .ok normal) :
              normal.InScope source :=
            Term.normalize_inScope closed inScope.1 normalized
          have renamedInScope {normal : Term}
              (normalized : (function.rename mapping).normalize .unlimited depth target =
                .ok normal) : normal.InScope target := by
            rw [functionIH] at normalized
            obtain ⟨below, belowNormalized, rfl⟩ := map_eq_ok_iff.mp normalized
            exact (functionInScope belowNormalized).rename embeds.toCarries
          rw [Term.rename, Term.normalize_app span functionInScope,
            Term.normalize_app span renamedInScope,
            functionIH, argumentIH]
          cases functionNormalized : function.normalize .unlimited depth source with
          | error error => rfl
          | ok normalFunction =>
              cases argumentNormalized : argument.normalize .unlimited depth source with
              | error error => rfl
              | ok normalArgument =>
                  cases normalFunction with
                  | var | app | tyLam | tyApp => rfl
                  | lam lamSpan paramType body =>
                      have argumentInScope :=
                        Term.normalize_inScope closed inScope.2 argumentNormalized
                      have contractedIH := depthIH embeds closed
                        ((functionInScope functionNormalized).2.bodyAt argumentInScope)
                      rw [Term.bodyAt_rename] at contractedIH
                      exact contractedIH
      | tyLam span body =>
          have pushed : source.pushType.Scoped := closed
          simp only [Term.rename, Term.normalize, depthIH embeds.underTypeBinder pushed inScope]
          cases body.normalize .unlimited depth source.pushType <;> rfl
      | tyApp span function argument =>
          have functionIH := depthIH embeds closed inScope.1
          have functionInScope {normal : Term}
              (normalized : function.normalize .unlimited depth source = .ok normal) :
              normal.InScope source :=
            Term.normalize_inScope closed inScope.1 normalized
          have renamedInScope {normal : Term}
              (normalized : (function.rename mapping).normalize .unlimited depth target =
                .ok normal) : normal.InScope target := by
            rw [functionIH] at normalized
            obtain ⟨below, belowNormalized, rfl⟩ := map_eq_ok_iff.mp normalized
            exact (functionInScope belowNormalized).rename embeds.toCarries
          rw [Term.rename, Term.normalize_tyApp span functionInScope,
            Term.normalize_tyApp span renamedInScope,
            functionIH]
          cases functionNormalized : function.normalize .unlimited depth source with
          | error error => rfl
          | ok normalFunction =>
              cases normalFunction with
              | var | lam | app | tyApp => rfl
              | tyLam lamSpan body =>
                  have bodyInScope : body.InScope source.pushType :=
                    functionInScope functionNormalized
                  have contractedIH := depthIH embeds closed (bodyInScope.bodyAtType inScope.2)
                  rw [Term.bodyAtType_rename] at contractedIH
                  exact contractedIH

/-! ## Inserting a binder -/

/-- Shifts what a binder records. -/
def Binding.shift (range : IndexRange) (cutoff : Nat) (delta : Int) :
    Binding → Except IndexFault Binding
  | .type name => .ok (.type name)
  | .term ⟨name, ty, none⟩ => do
    return .term ⟨name, ← ty.shift range cutoff delta, none⟩
  | .term ⟨name, ty, some definition⟩ => do
    let ty ← ty.shift range cutoff delta
    let definition ← definition.shift range cutoff delta
    return .term ⟨name, ty, some definition⟩

/-- Shifts what the binders of an upper part of a context record, each beyond the
binders of the upper part that stand below it. -/
def Context.shiftUpper (range : IndexRange) (delta : Int) : Context → Except IndexFault Context
  | [] => .ok []
  | binding :: below => do
    let shifted ← shiftUpper range delta below
    let binding ← Binding.shift range below.length delta binding
    return binding :: shifted

/-- The upper part of a context, above one more binder. -/
def Context.raised : Context → Context
  | [] => []
  | binding :: below => Binding.rename (.shift below.length 1) binding :: raised below

/-- In an unlimited range a binding is shifted by renaming it. -/
theorem Binding.shift_eq_rename (cutoff : Nat) (binding : Binding) :
    Binding.shift .unlimited cutoff 1 binding = .ok (Binding.rename (.shift cutoff 1) binding) := by
  have bounded : 0 ≤ (cutoff : Int) + 1 := by omega
  have typeShifts (ty : Ty) := (Ty.shift_computes .unlimited bounded ty).ofUnlimited
  have termShifts (term : Term) := (Term.shift_computes .unlimited bounded term).ofUnlimited
  match binding with
  | .type name => rfl
  | .term ⟨name, ty, none⟩ =>
      simp only [Binding.shift, typeShifts]
      rfl
  | .term ⟨name, ty, some definition⟩ =>
      simp only [Binding.shift, typeShifts, termShifts]
      rfl

/-- In an unlimited range the bindings above a new one are raised past it. -/
theorem Context.shiftUpper_eq_raised (upper : Context) :
    Context.shiftUpper .unlimited 1 upper = .ok (Context.raised upper) := by
  induction upper with
  | nil => rfl
  | cons binding below belowIH =>
      simp only [Context.shiftUpper, belowIH, Binding.shift_eq_rename]
      rfl

/-- A binder between two parts of a context leaves room for the indices of both. -/
theorem Renaming.Embeds.insert (upper lower : Context) (binding : Binding) :
    (Renaming.shift upper.length 1).Embeds (upper ++ lower)
      (Context.raised upper ++ binding :: lower) := by
  induction upper with
  | nil =>
      have shifts : Renaming.shift ([] : Context).length 1 = .up 1 := Renaming.shift_zero 1
      rw [shifts]
      exact .up lower binding
  | cons newest below belowIH =>
      rw [List.length_cons, ← Renaming.under_shift (by omega)]
      exact belowIH.under newest

/-- A binder may be inserted anywhere into a context, whatever it records. A term
that has moved past it has a type exactly if it had one, and then the same one, moved
likewise; and to every recursion depth its normal form is the one it had, moved
likewise, or it has none there as before. -/
theorem types_and_normal_forms_weaken {upper lower : Context} {term : Term}
    (closed : Context.Scoped (upper ++ lower)) (inScope : term.InScope (upper ++ lower))
    (binding : Binding) :
    ∃ raised moved,
      Context.shiftUpper .unlimited 1 upper = .ok raised ∧
      term.shift .unlimited upper.length 1 = .ok moved ∧
      (moved.deduce .unlimited (raised ++ binding :: lower)).toOption = (do
        let ty ← (term.deduce .unlimited (upper ++ lower)).toOption
        (ty.shift .unlimited upper.length 1).toOption) ∧
      ∀ depth, moved.normalize .unlimited depth (raised ++ binding :: lower) = (do
        let normal ← term.normalize .unlimited depth (upper ++ lower)
        (normal.shift .unlimited upper.length 1).mapError .indexFault) := by
  have bounded : 0 ≤ (upper.length : Int) + 1 := by omega
  have typeShifts (ty : Ty) := (Ty.shift_computes .unlimited bounded ty).ofUnlimited
  have termShifts (term : Term) := (Term.shift_computes .unlimited bounded term).ofUnlimited
  have embeds := Renaming.Embeds.insert upper lower binding
  refine ⟨_, _, Context.shiftUpper_eq_raised upper, termShifts term, ?_, ?_⟩
  · have mirrors := Term.deduce_mirrors embeds closed inScope
    rw [Mirrors] at mirrors
    rw [mirrors]
    simp only [typeShifts]
    cases (term.deduce .unlimited (upper ++ lower)).toOption <;> rfl
  · intro depth
    rw [Term.normalize_rename embeds closed inScope]
    simp only [termShifts, mapError_ok]
    cases term.normalize .unlimited depth (upper ++ lower) <;> rfl

/-- A defined element of a type and the function that is constant with this value,
above the type and an assumed element. -/
def constantUpper : Context :=
  [.term ⟨(), .arrow ⟨12, 18⟩ (.var ⟨12, 13⟩ 2) (.var ⟨17, 18⟩ 2),
      some (.lam ⟨21, 33⟩ (.var ⟨28, 29⟩ 2) (.var ⟨32, 33⟩ 1))⟩,
    .term ⟨(), .var ⟨7, 8⟩ 1, some (.var ⟨11, 12⟩ 0)⟩]

/-- A type and an assumed element of it. -/
def elementLower : Context :=
  [.term ⟨(), .var ⟨9, 10⟩ 0, none⟩, .type ()]

/-- The constant function, applied to the assumed element. -/
def constantApplied : Term :=
  .app ⟨0, 3⟩ (.var ⟨0, 1⟩ 0) (.var ⟨2, 3⟩ 2)

/-- Both definitions that are unfolded stand above the new binder, and what they come
to below it. -/
theorem types_and_normal_forms_weaken_constant :
    Context.Scoped (constantUpper ++ elementLower) ∧
      constantApplied.InScope (constantUpper ++ elementLower) ∧
      ∃ raised moved,
        Context.shiftUpper .unlimited 1 constantUpper = .ok raised ∧
        constantApplied.shift .unlimited 2 1 = .ok moved ∧
        (moved.deduce .unlimited (raised ++ .type () :: elementLower)).toOption =
          some (.var ⟨17, 18⟩ 4) ∧
        moved.normalize .unlimited 5 (raised ++ .type () :: elementLower) =
          .ok (.var ⟨11, 12⟩ 3) := by
  have wellFormed : Context.WellFormed .unlimited (constantUpper ++ elementLower) := by decide
  have closed := wellFormed.wellTyped.closed
  have deduced : constantApplied.deduce .unlimited (constantUpper ++ elementLower) =
      .ok (.var ⟨17, 18⟩ 3) := rfl
  have inScope := (Term.deduce_typed closed deduced).inScope
  obtain ⟨raised, moved, raises, moves, types, normals⟩ :=
    types_and_normal_forms_weaken closed inScope (.type ())
  exact ⟨closed, inScope, raised, moved, raises, moves, types, normals 5⟩

end Indexed
end PolyLambda
