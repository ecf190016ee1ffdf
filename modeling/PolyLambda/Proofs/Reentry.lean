import PolyLambda.Proofs.Declarations
import PolyLambda.Proofs.IndexOverflow

/-!
# Entering printed definitions again

A definition was checked in the context below its name. Where no name is used twice,
later bindings hide nothing that it refers to, so that it may be announced again in
the whole context with the type that is recorded for it.
-/

namespace PolyLambda

namespace Named.Context

/-- What is recorded with a definition may be read in the whole context, where the
definition has the recorded type. -/
theorem recorded_typed {context : Context} {indexed : Indexed.Context}
    (resolved : Context.resolve context = .ok indexed) (wellTyped : indexed.WellTyped)
    (distinct : (Context.scope context).Nodup) {name : String} {ty : Ty} {definition : Term}
    (member : .term ⟨name, ty, some definition⟩ ∈ context) :
    ∃ resolvedType term, ty.resolve (Context.scope context) = .ok resolvedType ∧
      definition.resolve (Context.scope context) = .ok term ∧
      Indexed.Typed indexed term resolvedType := by
  induction context generalizing indexed with
  | nil => cases member
  | cons binding rest restIH =>
      rw [scope_cons, List.nodup_cons] at distinct
      have moves := Scope.Moves.push distinct.1
      have below : ∃ restIndexed entry, indexed = entry :: restIndexed ∧
          ∃ resolvedType term, ty.resolve (Context.scope rest) = .ok resolvedType ∧
            definition.resolve (Context.scope rest) = .ok term ∧
            Indexed.Typed restIndexed term resolvedType := by
        cases member with
        | head =>
            obtain ⟨restIndexed, resolvedType, _, _, typeResolved, definitionResolved, rfl⟩ :=
              resolve_term_eq_ok_iff.mp resolved
            obtain ⟨⟨⟩, _⟩ | ⟨_, term, ⟨⟩, termResolved, rfl⟩ :=
              resolveDefinition_eq_ok_iff.mp definitionResolved
            exact ⟨restIndexed, _, rfl, resolvedType, term, typeResolved, termResolved,
              wellTyped.2.1 term rfl⟩
        | tail _ member =>
            cases binding with
            | type other =>
                obtain ⟨restIndexed, restResolved, rfl⟩ := resolve_type_eq_ok_iff.mp resolved
                exact ⟨restIndexed, _, rfl, restIH restResolved wellTyped.tail distinct.2 member⟩
            | term entry =>
                obtain ⟨restIndexed, _, _, restResolved, _, _, rfl⟩ :=
                  resolve_term_eq_ok_iff.mp resolved
                exact ⟨restIndexed, _, rfl, restIH restResolved wellTyped.tail distinct.2 member⟩
      obtain ⟨restIndexed, entry, rfl, resolvedType, term, typeResolved, termResolved, typed⟩ :=
        below
      exact ⟨_, _, Ty.resolve_moved typeResolved moves, Term.resolve_moved termResolved moves,
        typed.lift entry⟩

/-- An entry that is found is in the context. -/
theorem mem_of_entry? {context : Context} {name : String} {entry : TermEntry String Ty Term}
    (found : context.entry? name = some entry) : .term entry ∈ context := by
  obtain ⟨binding, member, found⟩ := List.exists_of_findSome?_eq_some found
  cases binding with
  | type other => cases found
  | term other =>
      simp only [Option.ite_none_right_eq_some, Option.some.injEq] at found
      rw [← found.2]
      exact member

end Named.Context

namespace Session

variable {limits : Limits} {context : Named.Context}

/-- Printing a name shows the entry that is found for it. -/
theorem exec_print_eq_ok_iff {span : Span} {ident : Named.Ident} {outcome : Outcome} :
    (exec limits context ⟨span, .print ident⟩).2 = .ok outcome ↔
      ∃ entry, context.entry? ident.name = some entry ∧
        outcome = .printed ident.name entry.ty entry.definition := by
  simp only [exec, effect]
  cases context.entry? ident.name <;> simp [eq_comm]

/-- What is printed for a defined name can be entered again: where no two bindings of
a kind share a name, announcing the printed definition with the printed type, under
whatever name, succeeds and records that type, unless the definition is too high for
the range of indices. -/
theorem printed_definition_reenters (reachable : Reachable limits context)
    (distinct : context.scope.Nodup) {printSpan : Span} {printed : Named.Ident} {name : String}
    {ty : Named.Ty} {definition : Named.Term}
    (shown : (exec limits context ⟨printSpan, .print printed⟩).2 =
      .ok (.printed name ty (some definition)))
    (span : Span) (ident : Named.Ident) :
    exec limits context ⟨span, .define ident (some ty) definition⟩ =
        (.term ⟨ident.name, ty, some definition⟩ :: context, .ok (.defined ident.name ty)) ∨
      Outgrows limits context ⟨span, .define ident (some ty) definition⟩ := by
  obtain ⟨⟨_, _, _⟩, found, ⟨⟩⟩ := exec_print_eq_ok_iff.mp shown
  obtain ⟨indexed, sound⟩ := reachable.recorded.sound
  have wellTyped := (sound.wellFormed (Scope.names_nodup distinct .type)).wellTyped
  obtain ⟨resolvedType, term, typeResolved, termResolved, typed⟩ :=
    Named.Context.recorded_typed sound.resolved wellTyped distinct
      (Named.Context.mem_of_entry? found)
  obtain ⟨actual, deduced, same⟩ := typed.deduce
  refine (exec_eq_or_outgrows reachable.recorded _).imp_left ?_
  intro equal
  rw [equal]
  simp only [exec, effect, Limits.unbounded,
    define_announced sound.resolved typeResolved termResolved deduced same]

/-- The polymorphic identity is defined, and all names that its definition and its type
bind are bound again later. -/
def rebindingStatements : List Named.Statement :=
  [⟨⟨0, 10⟩, .assumeType ⟨⟨9, 10⟩, "A"⟩⟩,
    ⟨⟨12, 43⟩, .define ⟨⟨19, 21⟩, "id"⟩ none
      (.tyLam ⟨24, 43⟩ ⟨⟨29, 30⟩, "X"⟩
        (.lam ⟨32, 43⟩ ⟨⟨36, 37⟩, "x"⟩ (.var ⟨39, 40⟩ "X") (.var ⟨42, 43⟩ "x")))⟩,
    ⟨⟨45, 55⟩, .assumeType ⟨⟨54, 55⟩, "B"⟩⟩,
    ⟨⟨57, 67⟩, .assumeType ⟨⟨66, 67⟩, "X"⟩⟩,
    ⟨⟨69, 84⟩, .assumeTerm ⟨⟨75, 76⟩, "x"⟩
      (.arrow ⟨78, 84⟩ (.var ⟨78, 79⟩ "B") (.var ⟨83, 84⟩ "A"))⟩]

/-- The context that `rebindingStatements` lead to. -/
def rebindingSession : Named.Context :=
  (execAll .standard [] rebindingStatements).1

/-- What the context resolves to. -/
def rebindingContext : Indexed.Context :=
  [.term ⟨(), .arrow ⟨78, 84⟩ (.var ⟨78, 79⟩ 1) (.var ⟨83, 84⟩ 3), none⟩,
    .type (),
    .type (),
    .term ⟨(), .all ⟨24, 43⟩ (.arrow ⟨32, 43⟩ (.var ⟨39, 40⟩ 0) (.var ⟨39, 40⟩ 0)),
      some (.tyLam ⟨24, 43⟩ (.lam ⟨32, 43⟩ (.var ⟨39, 40⟩ 0) (.var ⟨42, 43⟩ 0)))⟩,
    .type ()]

/-- A printed definition is entered again under another name, after its names
were bound anew. -/
theorem printed_definition_reenters_rebound :
    rebindingSession.scope.Nodup ∧
      ∃ ty definition,
        (exec .standard rebindingSession ⟨⟨0, 8⟩, .print ⟨⟨6, 8⟩, "id"⟩⟩).2 =
          .ok (.printed "id" ty (some definition)) ∧
        exec .standard rebindingSession
            ⟨⟨0, 50⟩, .define ⟨⟨7, 12⟩, "again"⟩ (some ty) definition⟩ =
          (.term ⟨"again", ty, some definition⟩ :: rebindingSession,
            .ok (.defined "again" ty)) := by
  have reachable : Reachable .standard rebindingSession := ⟨rebindingStatements, rfl⟩
  have distinct : rebindingSession.scope.Nodup := by decide +kernel
  have resolved : Named.Context.resolve rebindingSession = .ok rebindingContext := by
    decide +kernel
  have shown : (exec .standard rebindingSession ⟨⟨0, 8⟩, .print ⟨⟨6, 8⟩, "id"⟩⟩).2 =
      .ok (.printed "id"
        (.all ⟨24, 43⟩ ⟨⟨24, 43⟩, "B"⟩
          (.arrow ⟨32, 43⟩ (.var ⟨39, 40⟩ "B") (.var ⟨39, 40⟩ "B")))
        (some (.tyLam ⟨24, 43⟩ ⟨⟨29, 30⟩, "X"⟩
          (.lam ⟨32, 43⟩ ⟨⟨36, 37⟩, "x"⟩ (.var ⟨39, 40⟩ "X") (.var ⟨42, 43⟩ "x"))))) := by
    decide +kernel
  refine ⟨distinct, _, _, shown, ?_⟩
  refine (printed_definition_reenters reachable distinct shown _ _).resolve_right ?_
  refine Within.not_outgrows ?_ resolved
  unfold Within
  decide +kernel

end Session

end PolyLambda
