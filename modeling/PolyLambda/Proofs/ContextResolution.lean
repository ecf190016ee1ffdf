import PolyLambda.Proofs.NameBridge

/-!
# Resolving a context, entry by entry

Each entry of a context is resolved against the entries below it and against nothing else,
so what becomes of an entry depends on its position only, and what stands below a position
is resolved as a context of its own. Entries are resolved from the oldest one up, and the
first that fails decides the failure of the whole.
-/

namespace PolyLambda.Named

/-! ## Single entries -/

section

variable {scope : Scope} {entry : TermEntry String Ty Term} {unbound : Unbound}

/-- What is recorded about a term resolves: its type, and its definition if it has one. -/
def EntryResolves (scope : Scope) (entry : TermEntry String Ty Term) : Prop :=
  (∃ ty, entry.ty.resolve scope = .ok ty) ∧
    ∀ written ∈ entry.definition, ∃ definition, written.resolve scope = .ok definition

/-- What is recorded about a term does not resolve: its type fails, or else its definition. -/
def EntryFails (scope : Scope) (entry : TermEntry String Ty Term) (unbound : Unbound) : Prop :=
  entry.ty.resolve scope = .error unbound ∨
    (∃ ty, entry.ty.resolve scope = .ok ty) ∧
      ∃ written ∈ entry.definition, written.resolve scope = .error unbound

/-- A definition resolves where it is present, and there is none where it is not. -/
theorem resolveDefinition_eq_ok_iff_rel {written : Option Term} {definition : Option Indexed.Term} :
    resolveDefinition scope written = .ok definition ↔
      Option.Rel (fun written term => written.resolve scope = .ok term) written definition := by
  rw [resolveDefinition_eq_ok_iff]
  constructor
  · rintro (⟨rfl, rfl⟩ | ⟨_, _, rfl, resolves, rfl⟩)
    · exact .none
    · exact .some resolves
  · rintro (resolves | _)
    · exact .inr ⟨_, _, rfl, resolves, rfl⟩
    · exact .inl ⟨rfl, rfl⟩

/-- Only a definition that is present fails to resolve. -/
theorem resolveDefinition_eq_error_iff {written : Option Term} :
    resolveDefinition scope written = .error unbound ↔
      ∃ definition ∈ written, definition.resolve scope = .error unbound := by
  cases written with
  | none => simp [resolveDefinition]
  | some definition => simp [resolveDefinition, bind_eq_error_iff, pure, Except.pure]

/-- The entry of a term resolves exactly if its type and its definition do. -/
theorem Binding.resolve_term_eq_ok_iff {resolved : Indexed.Binding} :
    Binding.resolve scope (.term entry) = .ok resolved ↔
      ∃ ty definition, resolved = .term ⟨(), ty, definition⟩ ∧ entry.ty.resolve scope = .ok ty ∧
        Option.Rel (fun written term => written.resolve scope = .ok term)
          entry.definition definition := by
  simp only [Binding.resolve, bind_eq_ok_iff, resolveDefinition_eq_ok_iff_rel]
  constructor
  · rintro ⟨ty, typeResolves, definition, definitionResolves, result⟩
    cases result
    exact ⟨ty, definition, rfl, typeResolves, definitionResolves⟩
  · rintro ⟨ty, definition, rfl, typeResolves, definitionResolves⟩
    exact ⟨ty, typeResolves, definition, definitionResolves, rfl⟩

/-- The entry of a term fails with what its type, or else its definition, fails with. -/
theorem Binding.resolve_term_eq_error_iff :
    Binding.resolve scope (.term entry) = .error unbound ↔ EntryFails scope entry unbound := by
  simp only [Binding.resolve, bind_eq_error_iff, resolveDefinition_eq_error_iff, EntryFails]
  constructor
  · rintro (typeFails | ⟨ty, typeResolves, definitionFails | ⟨_, _, ⟨⟩⟩⟩)
    · exact .inl typeFails
    · exact .inr ⟨⟨ty, typeResolves⟩, definitionFails⟩
  · rintro (typeFails | ⟨⟨ty, typeResolves⟩, definitionFails⟩)
    · exact .inl typeFails
    · exact .inr ⟨ty, typeResolves, .inl definitionFails⟩

/-- The entry of a term resolves exactly if nothing in it fails. -/
theorem Binding.exists_resolve_term_iff :
    (∃ resolved, Binding.resolve scope (.term entry) = .ok resolved) ↔
      EntryResolves scope entry := by
  constructor
  · rintro ⟨_, success⟩
    obtain ⟨ty, definition, _, typeResolves, related⟩ := Binding.resolve_term_eq_ok_iff.mp success
    refine ⟨⟨ty, typeResolves⟩, ?_⟩
    rintro written isWritten
    rw [isWritten] at related
    cases related with
    | some resolves => exact ⟨_, resolves⟩
  · rintro ⟨⟨ty, typeResolves⟩, definitionResolves⟩
    -- Neither the type nor the definition fails, so the entry does not.
    cases result : Binding.resolve scope (.term entry) with
    | ok resolved => exact ⟨resolved, rfl⟩
    | error unbound =>
        rcases Binding.resolve_term_eq_error_iff.mp result with
          typeFails | ⟨_, written, isWritten, definitionFails⟩
        · rw [typeResolves] at typeFails
          cases typeFails
        · obtain ⟨definition, resolves⟩ := definitionResolves written isWritten
          rw [resolves] at definitionFails
          cases definitionFails

end

/-! ## Positions -/

namespace Context

variable {context : Context} {indexed : Indexed.Context} {unbound : Unbound}

/-- The scope of what stands below a position. -/
def scopeBelow (context : Context) (index : Nat) : Scope :=
  Context.scope (context.drop (index + 1))

/-- The entries of a context, each with the context below it, from the newest one down. -/
def withTails : Context → List (Binding × Context)
  | [] => []
  | binding :: rest => (binding, rest) :: withTails rest

/-- A context is resolved by going through its entries from the oldest one up and pushing what
each resolves to. -/
theorem resolve_eq_foldlM (context : Context) :
    Context.resolve context = (withTails context).reverse.foldlM
      (fun resolved entry => do
        let binding ← Binding.resolve (Context.scope entry.2) entry.1
        return binding :: resolved) [] := by
  induction context with
  | nil => rfl
  | cons binding rest restIH =>
      rw [withTails, List.reverse_cons, List.foldlM_append, ← restIH, Context.resolve]
      simp only [List.foldlM_cons, List.foldlM_nil, bind_pure]

/-- A context resolves from its newest binding exactly if this one and the rest do. -/
theorem resolve_cons_eq_ok_iff {binding : Binding} {rest : Context} :
    Context.resolve (binding :: rest) = .ok indexed ↔
      ∃ resolved below, Binding.resolve (Context.scope rest) binding = .ok resolved ∧
        Context.resolve rest = .ok below ∧ indexed = resolved :: below := by
  simp only [Context.resolve, bind_eq_ok_iff]
  constructor
  · rintro ⟨below, restResolves, resolved, resolves, result⟩
    cases result
    exact ⟨resolved, below, resolves, restResolves, rfl⟩
  · rintro ⟨resolved, below, resolves, restResolves, rfl⟩
    exact ⟨below, restResolves, resolved, resolves, rfl⟩

/-- A context resolves exactly if each binding does against those below it. -/
theorem exists_resolve_iff :
    (∃ indexed, Context.resolve context = .ok indexed) ↔
      ∀ index binding, context[index]? = some binding →
        ∃ resolved, Binding.resolve (context.scopeBelow index) binding = .ok resolved := by
  induction context with
  | nil => simp [Context.resolve]
  | cons newest rest restIH =>
      simp only [resolve_cons_eq_ok_iff]
      constructor
      · rintro ⟨_, resolved, below, resolves, restResolves, _⟩ index binding found
        cases index with
        | zero =>
            cases found
            exact ⟨resolved, resolves⟩
        | succ index => exact restIH.mp ⟨below, restResolves⟩ index binding found
      · intro eachResolves
        obtain ⟨resolved, resolves⟩ := eachResolves 0 newest rfl
        obtain ⟨below, restResolves⟩ := restIH.mpr fun index binding found =>
          eachResolves (index + 1) binding found
        exact ⟨_, resolved, below, resolves, restResolves, rfl⟩

/-- What becomes of an entry stands at its position. -/
theorem resolve_getElem? (success : Context.resolve context = .ok indexed) {index : Nat}
    {binding : Binding} (found : context[index]? = some binding) :
    ∃ resolved, indexed[index]? = some resolved ∧
      Binding.resolve (context.scopeBelow index) binding = .ok resolved := by
  induction context generalizing index indexed with
  | nil => cases found
  | cons newest rest restIH =>
      obtain ⟨resolved, below, resolves, restResolves, rfl⟩ := resolve_cons_eq_ok_iff.mp success
      cases index with
      | zero =>
          cases found
          exact ⟨resolved, rfl, resolves⟩
      | succ index => exact restIH restResolves found

/-- What stands below a position is resolved by itself. -/
theorem resolve_drop (success : Context.resolve context = .ok indexed) (count : Nat) :
    Context.resolve (context.drop count) = .ok (indexed.drop count) := by
  induction count generalizing context indexed with
  | zero => exact success
  | succ count countIH =>
      cases context with
      | nil =>
          cases success
          rfl
      | cons newest rest =>
          obtain ⟨_, below, _, restResolves, rfl⟩ := resolve_cons_eq_ok_iff.mp success
          exact countIH restResolves

/-- The oldest entry that fails decides how the context fails. -/
theorem resolve_eq_error_iff :
    Context.resolve context = .error unbound ↔
      ∃ index binding, context[index]? = some binding ∧
        (∃ below, Context.resolve (context.drop (index + 1)) = .ok below) ∧
        Binding.resolve (context.scopeBelow index) binding = .error unbound := by
  induction context with
  | nil => simp [Context.resolve]
  | cons newest rest restIH =>
      simp only [Context.resolve, bind_eq_error_iff]
      constructor
      · rintro (restFails | ⟨below, restResolves, newestFails | ⟨_, _, ⟨⟩⟩⟩)
        · obtain ⟨index, binding, found, belowResolves, fails⟩ := restIH.mp restFails
          exact ⟨index + 1, binding, found, belowResolves, fails⟩
        · exact ⟨0, newest, rfl, ⟨below, restResolves⟩, newestFails⟩
      · rintro ⟨index, binding, found, ⟨below, belowResolves⟩, fails⟩
        cases index with
        | zero =>
            cases found
            exact .inr ⟨below, belowResolves, .inl fails⟩
        | succ index =>
            exact .inl (restIH.mpr ⟨index, binding, found, ⟨below, belowResolves⟩, fails⟩)

/-- The lower part of a context resolves exactly if each of its entries does. -/
theorem exists_resolve_drop_iff (count : Nat) :
    (∃ below, Context.resolve (context.drop count) = .ok below) ↔
      ∀ index entry, count ≤ index → context[index]? = some (.term entry) →
        EntryResolves (context.scopeBelow index) entry := by
  have scopeBelow_drop : ∀ index,
      scopeBelow (context.drop count) index = context.scopeBelow (count + index) := by
    intro index
    rw [scopeBelow, scopeBelow, List.drop_drop, Nat.add_assoc]
  simp only [exists_resolve_iff, scopeBelow_drop, List.getElem?_drop]
  constructor
  · intro eachResolves index entry atLeast found
    obtain ⟨above, rfl⟩ := Nat.exists_eq_add_of_le atLeast
    exact Binding.exists_resolve_term_iff.mp (eachResolves above _ found)
  · intro eachResolves index binding found
    cases binding with
    | type name => exact ⟨.type (), rfl⟩
    | term entry =>
        have resolves := eachResolves (count + index) entry (Nat.le_add_right count index) found
        exact Binding.exists_resolve_term_iff.mpr resolves

/-- A context resolves if and only if each of its entries resolves against what stands below
it. Then positions and kinds stay as they are, each entry carries what its type and its
definition resolve to, and what stands below a position is resolved by itself. Otherwise the
oldest entry that does not resolve is to blame, for its type before its definition. -/
theorem resolved_by_position (context : Context) :
    ((∃ indexed, Context.resolve context = .ok indexed) ↔
      ∀ index entry, context[index]? = some (.term entry) →
        EntryResolves (context.scopeBelow index) entry) ∧
    (∀ indexed, Context.resolve context = .ok indexed →
      indexed.length = context.length ∧
      indexed.map PolyLambda.Binding.kind = context.map PolyLambda.Binding.kind ∧
      (∀ (index : Nat) entry, context[index]? = some (.term entry) →
        ∃ ty definition, indexed[index]? = some (.term ⟨(), ty, definition⟩) ∧
          entry.ty.resolve (context.scopeBelow index) = .ok ty ∧
          Option.Rel (fun written term => written.resolve (context.scopeBelow index) = .ok term)
            entry.definition definition) ∧
      ∀ count, Context.resolve (context.drop count) = .ok (indexed.drop count)) ∧
    ∀ unbound, Context.resolve context = .error unbound ↔
      ∃ index entry, context[index]? = some (.term entry) ∧
        (∀ older olderEntry, index < older → context[older]? = some (.term olderEntry) →
          EntryResolves (context.scopeBelow older) olderEntry) ∧
        EntryFails (context.scopeBelow index) entry unbound := by
  refine ⟨?succeeds, ?positions, ?fails⟩
  case succeeds =>
    have wholeContext := @exists_resolve_drop_iff context 0
    simpa only [List.drop_zero, Nat.zero_le, forall_const] using wholeContext
  case positions =>
    intro indexed success
    have kinds : indexed.map PolyLambda.Binding.kind = context.map PolyLambda.Binding.kind := by
      rw [← resolve_describes success, PolyLambda.Context.scope, List.map_map]
      rfl
    refine ⟨by simpa using congrArg List.length kinds, kinds, ?_, resolve_drop success⟩
    intro index entry found
    obtain ⟨resolved, atIndex, resolves⟩ := resolve_getElem? success found
    obtain ⟨ty, definition, rfl, typeResolves, definitionResolves⟩ :=
      Binding.resolve_term_eq_ok_iff.mp resolves
    exact ⟨ty, definition, atIndex, typeResolves, definitionResolves⟩
  case fails =>
    intro unbound
    simp only [resolve_eq_error_iff, exists_resolve_drop_iff, Nat.succ_le_iff]
    constructor
    · rintro ⟨index, binding, found, olderResolve, fails⟩
      cases binding with
      | type name => cases fails
      | term entry =>
          have entryFails := Binding.resolve_term_eq_error_iff.mp fails
          exact ⟨index, entry, found, fun older olderEntry => olderResolve older olderEntry,
            entryFails⟩
    · rintro ⟨index, entry, found, olderResolve, entryFails⟩
      exact ⟨index, .term entry, found, fun older olderEntry => olderResolve older olderEntry,
        Binding.resolve_term_eq_error_iff.mpr entryFails⟩

/-- The name `A` of the type of `y` is that of a newer type than the name `A` of the type
of `x`, and `y` stands for `x`. -/
def renewed : Context :=
  [.term ⟨"y", .var ⟨10, 11⟩ "A", some (.var ⟨14, 15⟩ "x")⟩, .type "A",
    .term ⟨"x", .var ⟨9, 10⟩ "A", none⟩, .type "A"]

/-- The type and the definition of `x` name nothing, and neither does the type of `y`. -/
def forlorn : Context :=
  [.term ⟨"y", .var ⟨10, 11⟩ "C", none⟩,
    .term ⟨"x", .var ⟨9, 10⟩ "B", some (.var ⟨13, 14⟩ "z")⟩, .type "A"]

/-- A renewed name is resolved to the newer binder, and the oldest entry that
fails is reported. -/
theorem resolved_by_position_renewed :
    ((Ty.var ⟨10, 11⟩ "A").resolve (renewed.scopeBelow 0) = .ok (.var ⟨10, 11⟩ 0) ∧
      (Term.var ⟨14, 15⟩ "x").resolve (renewed.scopeBelow 0) = .ok (.var ⟨14, 15⟩ 1) ∧
      Context.resolve (renewed.drop 2) = .ok [.term ⟨(), .var ⟨9, 10⟩ 0, none⟩, .type ()]) ∧
    ∃ index entry, forlorn[index]? = some (.term entry) ∧
      (∀ older olderEntry, index < older → forlorn[older]? = some (.term olderEntry) →
        EntryResolves (forlorn.scopeBelow older) olderEntry) ∧
      EntryFails (forlorn.scopeBelow index) entry ⟨.type, "B", ⟨9, 10⟩⟩ := by
  obtain ⟨_, positions, _⟩ := renewed.resolved_by_position
  obtain ⟨_, _, entries, tails⟩ := positions _ rfl
  obtain ⟨ty, definition, atIndex, typeResolves, definitionResolves⟩ := entries 0 _ rfl
  cases atIndex
  cases definitionResolves with
  | some resolves =>
      obtain ⟨_, _, fails⟩ := forlorn.resolved_by_position
      exact ⟨⟨typeResolves, resolves, tails 2⟩, (fails _).mp rfl⟩

end Context

end PolyLambda.Named
