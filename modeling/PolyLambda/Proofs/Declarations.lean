import PolyLambda.Proofs.NameStability
import PolyLambda.Proofs.SessionRecords
import PolyLambda.Proofs.Weakening

/-!
# Declarations

The statements that introduce a name. What such a statement records is determined by
what its names resolve to, and it moves with the binders that they resolve to.
-/

namespace PolyLambda

open Indexed (Renaming)
open Scope (Moves)

namespace Named.Command

/-- The name that a command introduces, if it introduces one. -/
def binder? : Command → Option Binder
  | .assumeType name => some ⟨.type, name.name⟩
  | .assumeTerm name _ => some ⟨.term, name.name⟩
  | .define name _ _ => some ⟨.term, name.name⟩
  | .reduce _ | .print _ | .clear => none

/-- The names that a command refers to without binding them. -/
def freeNames : Command → List Binder
  | .assumeTerm _ ty => ty.freeNames
  | .define _ none term => term.freeNames
  | .define _ (some ty) term => ty.freeNames ++ term.freeNames
  | .reduce term => term.freeNames
  | .print name => [⟨.term, name.name⟩]
  | .assumeType _ | .clear => []

/-- A command introduces a name, and this is what its record resolves to. There is no
limit to indices. -/
inductive Declares (scope : Scope) (context : Indexed.Context) :
    Command → Indexed.Binding → Prop
  | type (name : Ident) : Declares scope context (.assumeType name) (.type ())
  | assumed {name ty resolved} (typeResolved : Ty.resolve scope ty = .ok resolved) :
      Declares scope context (.assumeTerm name ty) (.term ⟨(), resolved, none⟩)
  | inferred {name named term actual} (termResolved : Term.resolve scope named = .ok term)
      (deduced : term.deduce .unlimited context = .ok actual) :
      Declares scope context (.define name none named) (.term ⟨(), actual, some term⟩)
  | announced {name ty named resolved term actual}
      (typeResolved : Ty.resolve scope ty = .ok resolved)
      (termResolved : Term.resolve scope named = .ok term)
      (deduced : term.deduce .unlimited context = .ok actual) (same : actual.Same resolved) :
      Declares scope context (.define name (some ty) named) (.term ⟨(), resolved, some term⟩)

namespace Declares

variable {scope other : Scope} {source target : Indexed.Context} {command : Command}
variable {mapping : Renaming}

/-- What is declared in one context is declared in every context that it embeds into. -/
theorem moved {entry : Indexed.Binding} (declares : command.Declares scope source entry)
    (describes : scope.Describes source) (closed : source.Scoped)
    (moves : Moves mapping scope other) (embeds : mapping.Embeds source target) :
    command.Declares other target (entry.rename mapping) := by
  cases declares with
  | type name => exact .type name
  | assumed typeResolved => exact .assumed (Ty.resolve_moved typeResolved moves)
  | inferred termResolved deduced =>
      have mirrors := Indexed.Term.deduce_mirrors embeds closed
        (Term.resolve_inScope termResolved describes)
      exact .inferred (Term.resolve_moved termResolved moves) (mirrors.eq_ok deduced)
  | announced typeResolved termResolved deduced same =>
      have mirrors := Indexed.Term.deduce_mirrors embeds closed
        (Term.resolve_inScope termResolved describes)
      exact .announced (Ty.resolve_moved typeResolved moves)
        (Term.resolve_moved termResolved moves) (mirrors.eq_ok deduced)
        ((Indexed.Ty.same_rename_iff embeds.injective).mpr same)

/-- A declaration whose names are bound before the move was possible before it. -/
theorem of_moved {entry : Indexed.Binding} (declares : command.Declares other target entry)
    (describes : scope.Describes source) (closed : source.Scoped)
    (moves : Moves mapping scope other) (embeds : mapping.Embeds source target)
    (bound : command.freeNames ⊆ scope) :
    ∃ below, command.Declares scope source below ∧ entry = below.rename mapping := by
  cases declares with
  | type name => exact ⟨_, .type name, rfl⟩
  | assumed typeResolved =>
      obtain ⟨ty, resolved⟩ := Ty.exists_resolve_iff.mpr bound
      cases typeResolved.symm.trans (Ty.resolve_moved resolved moves)
      exact ⟨_, .assumed resolved, rfl⟩
  | inferred termResolved deduced =>
      obtain ⟨term, resolved⟩ := Term.exists_resolve_iff.mpr bound
      cases termResolved.symm.trans (Term.resolve_moved resolved moves)
      obtain ⟨actual, deducedBelow, rfl⟩ := (Indexed.Term.deduce_mirrors embeds closed
        (Term.resolve_inScope resolved describes)).exists_ok deduced
      exact ⟨_, .inferred resolved deducedBelow, rfl⟩
  | announced typeResolved termResolved deduced same =>
      obtain ⟨typeBound, termBound⟩ := List.append_subset.mp bound
      obtain ⟨ty, tyResolved⟩ := Ty.exists_resolve_iff.mpr typeBound
      obtain ⟨term, resolved⟩ := Term.exists_resolve_iff.mpr termBound
      cases typeResolved.symm.trans (Ty.resolve_moved tyResolved moves)
      cases termResolved.symm.trans (Term.resolve_moved resolved moves)
      obtain ⟨actual, deducedBelow, rfl⟩ := (Indexed.Term.deduce_mirrors embeds closed
        (Term.resolve_inScope resolved describes)).exists_ok deduced
      exact ⟨_, .announced tyResolved resolved deducedBelow
        ((Indexed.Ty.same_rename_iff embeds.injective).mp same), rfl⟩

/-- The names that a declaration refers to are bound. -/
theorem bound {entry : Indexed.Binding} (declares : command.Declares scope source entry) :
    command.freeNames ⊆ scope := by
  cases declares with
  | type name => exact List.nil_subset _
  | assumed typeResolved => exact Ty.exists_resolve_iff.mp ⟨_, typeResolved⟩
  | inferred termResolved => exact Term.exists_resolve_iff.mp ⟨_, termResolved⟩
  | announced typeResolved termResolved =>
      exact List.append_subset.mpr ⟨Ty.exists_resolve_iff.mp ⟨_, typeResolved⟩,
        Term.exists_resolve_iff.mp ⟨_, termResolved⟩⟩

end Declares

end Named.Command

namespace Named.Context

/-- The scope of a context begins with the kind and name of the newest binding. -/
theorem scope_cons (binding : Binding) (rest : Context) :
    Context.scope (binding :: rest) = ⟨binding.kind, binding.name⟩ :: Context.scope rest :=
  rfl

/-- Where no name is used twice, the name of a type resolves to the type. -/
theorem nameType_resolve_of_nodup {context : Context} {ty : Indexed.Ty} {named : Ty}
    (distinct : context.scope.Nodup) (naming : context.nameType ty = .ok named) :
    named.resolve context.scope = .ok ty := by
  rw [nameType_resolve naming, funext (Scope.newest_eq_self distinct), Indexed.Ty.rename_id]

end Named.Context

namespace Session

variable {context : Named.Context} {indexed : Indexed.Context} {depth : Nat}

/-- A definition that has its announced type is recorded with that type. -/
theorem define_announced {ty : Named.Ty} {named : Named.Term} {resolvedType actual : Indexed.Ty}
    {term : Indexed.Term} (resolved : Named.Context.resolve context = .ok indexed)
    (typeResolved : ty.resolve context.scope = .ok resolvedType)
    (termResolved : named.resolve context.scope = .ok term)
    (deduced : term.deduce .unlimited indexed = .ok actual) (same : actual.Same resolvedType)
    (name : String) :
    define ⟨.unlimited, depth⟩ context name (some ty) named =
      .ok (.term ⟨name, ty, some named⟩ :: context, .defined name ty) := by
  have announced : resolveAnnounced context (some ty) = .ok (some (ty, resolvedType)) := by
    simp only [resolveAnnounced, typeResolved, mapError_ok]
    rfl
  have checked : checkTerm ⟨.unlimited, depth⟩ context named = .ok (term, indexed, actual) :=
    checkTerm_eq_ok_iff.mpr ⟨termResolved, resolved, deduced⟩
  simp only [define, announced, checked, recordedType, bind, Except.bind, if_pos same]
  rfl

/-- A definition without an announced type is recorded with the name of its type. -/
theorem define_inferred {ty : Named.Ty} {named : Named.Term} {actual : Indexed.Ty}
    {term : Indexed.Term} (resolved : Named.Context.resolve context = .ok indexed)
    (termResolved : named.resolve context.scope = .ok term)
    (deduced : term.deduce .unlimited indexed = .ok actual)
    (naming : context.nameType actual = .ok ty) (name : String) :
    define ⟨.unlimited, depth⟩ context name none named =
      .ok (.term ⟨name, ty, some named⟩ :: context, .defined name ty) := by
  have checked : checkTerm ⟨.unlimited, depth⟩ context named = .ok (term, indexed, actual) :=
    checkTerm_eq_ok_iff.mpr ⟨termResolved, resolved, deduced⟩
  simp only [define, resolveAnnounced, checked, recordedType, nameType, naming, mapError_ok, bind,
    Except.bind]
  rfl

/-- A statement that declares a name succeeds and adds a binder of that name, whose
record resolves to what was declared. -/
theorem effect_of_declares {statement : Named.Statement} {entry : Indexed.Binding}
    (resolved : Named.Context.resolve context = .ok indexed) (distinct : context.scope.Nodup)
    (declares : statement.command.Declares context.scope indexed entry) (depth : Nat) :
    ∃ binding outcome,
      effect ⟨.unlimited, depth⟩ context statement = .ok (binding :: context, outcome) ∧
        statement.command.binder? = some ⟨binding.kind, binding.name⟩ ∧
        Named.Context.resolve (binding :: context) = .ok (entry :: indexed) := by
  obtain ⟨span, command⟩ := statement
  cases declares with
  | type name => exact ⟨_, _, rfl, rfl, Named.Context.resolve_type_eq_ok_iff.mpr ⟨_, resolved, rfl⟩⟩
  | @assumed name ty _ typeResolved =>
      refine ⟨.term ⟨name.name, ty, none⟩, .termAssumed name.name ty, ?_, rfl, ?_⟩
      · simp only [effect, typeResolved, mapError_ok]
        rfl
      · exact Named.Context.resolve_term_eq_ok_iff.mpr
          ⟨_, _, _, resolved, typeResolved, rfl, rfl⟩
  | @inferred name named _ _ termResolved deduced =>
      have closed := Named.Context.resolve_scoped resolved
      obtain ⟨ty, naming⟩ := Named.Context.nameType_of_inScope
        (Named.Context.resolve_describes resolved)
        ((Indexed.Term.deduce_typed closed deduced).ty_inScope closed)
      refine ⟨_, _, define_inferred resolved termResolved deduced naming name.name, rfl, ?_⟩
      exact Named.Context.resolve_term_eq_ok_iff.mpr ⟨_, _, _, resolved,
        Named.Context.nameType_resolve_of_nodup distinct naming,
        Named.resolveDefinition_eq_ok_iff.mpr (.inr ⟨_, _, rfl, termResolved, rfl⟩), rfl⟩
  | @announced name _ _ _ _ _ typeResolved termResolved deduced same =>
      refine ⟨_, _, define_announced resolved typeResolved termResolved deduced same name.name,
        rfl, ?_⟩
      exact Named.Context.resolve_term_eq_ok_iff.mpr ⟨_, _, _, resolved, typeResolved,
        Named.resolveDefinition_eq_ok_iff.mpr (.inr ⟨_, _, rfl, termResolved, rfl⟩), rfl⟩

/-- A statement that introduces a name and succeeds declares it. -/
theorem declares_of_effect {statement : Named.Statement} {binder : Binder} {effects : Effect}
    (resolved : Named.Context.resolve context = .ok indexed)
    (binds : statement.command.binder? = some binder)
    (success : effect ⟨.unlimited, depth⟩ context statement = .ok effects) :
    ∃ entry, statement.command.Declares context.scope indexed entry := by
  obtain ⟨span, command⟩ := statement
  cases command with
  | assumeType name => exact ⟨_, .type name⟩
  | assumeTerm name ty =>
      simp only [effect, bind_eq_ok_iff, mapError_eq_ok_iff] at success
      obtain ⟨_, typeResolved, _⟩ := success
      exact ⟨_, .assumed typeResolved⟩
  | define name expected named =>
      simp only [effect, define, bind_eq_ok_iff] at success
      obtain ⟨announced, announcedResolved, ⟨term, found, actual⟩, checked, ty, recorded, _⟩ :=
        success
      obtain ⟨termResolved, foundResolved, deduced⟩ := checkTerm_eq_ok_iff.mp checked
      cases resolved.symm.trans foundResolved
      cases expected with
      | none => exact ⟨_, .inferred termResolved deduced⟩
      | some expected =>
          simp only [resolveAnnounced, bind_eq_ok_iff, mapError_eq_ok_iff] at announcedResolved
          obtain ⟨resolvedType, typeResolved, ⟨⟩⟩ := announcedResolved
          rw [recordedType] at recorded
          split at recorded
          · rename_i same
            exact ⟨_, .announced typeResolved termResolved deduced same⟩
          · obtain ⟨_, _, ⟨⟩⟩ := bind_eq_ok_iff.mp recorded
  | reduce | print | clear => cases binds

end Session

end PolyLambda
