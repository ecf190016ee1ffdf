import Mathlib.Logic.Relation
import PolyLambda.Proofs.AlphaEquivalence

/-!
# Changing bound variables

A bound variable may be given any name that does not occur in its scope. Such a change
does not show in the indices, and any two trees with the same indices are a series of
such changes apart. So this is alpha-equivalence once more, as the closure of what can
be done to one binder.
-/

namespace PolyLambda.Named

open Relation (EqvGen)

/-! ## One change -/

/-- The names that occur in a type, as variables or at binders. -/
def Ty.names : Ty → List Binder
  | .var _ name => [⟨.type, name⟩]
  | .arrow _ domain codomain => domain.names ++ codomain.names
  | .all _ param body => ⟨.type, param.name⟩ :: body.names

/-- The names that occur in a term, as variables or at binders. -/
def Term.names : Term → List Binder
  | .var _ name => [⟨.term, name⟩]
  | .lam _ param paramType body => ⟨.term, param.name⟩ :: (paramType.names ++ body.names)
  | .app _ function argument => function.names ++ argument.names
  | .tyLam _ param body => ⟨.type, param.name⟩ :: body.names
  | .tyApp _ function argument => function.names ++ argument.names

/-- Gives another name to the free occurrences of a variable. -/
def Ty.renameFree (old : Binder) (new : String) : Ty → Ty
  | .var span name => .var span (if old = ⟨.type, name⟩ then new else name)
  | .arrow span domain codomain =>
    .arrow span (domain.renameFree old new) (codomain.renameFree old new)
  | .all span param body =>
    .all span param (if old = ⟨.type, param.name⟩ then body else body.renameFree old new)

@[inherit_doc Ty.renameFree]
def Term.renameFree (old : Binder) (new : String) : Term → Term
  | .var span name => .var span (if old = ⟨.term, name⟩ then new else name)
  | .lam span param paramType body =>
    .lam span param (paramType.renameFree old new)
      (if old = ⟨.term, param.name⟩ then body else body.renameFree old new)
  | .app span function argument =>
    .app span (function.renameFree old new) (argument.renameFree old new)
  | .tyLam span param body =>
    .tyLam span param (if old = ⟨.type, param.name⟩ then body else body.renameFree old new)
  | .tyApp span function argument =>
    .tyApp span (function.renameFree old new) (argument.renameFree old new)

/-- One bound variable is given a name that does not occur in its scope. -/
inductive Ty.ChangesBound : Ty → Ty → Prop
  | param {span param newParam body} (fresh : ⟨.type, newParam.name⟩ ∉ body.names) :
      ChangesBound (.all span param body)
        (.all span newParam (body.renameFree ⟨.type, param.name⟩ newParam.name))
  | domain {span domain next codomain} (change : ChangesBound domain next) :
      ChangesBound (.arrow span domain codomain) (.arrow span next codomain)
  | codomain {span domain codomain next} (change : ChangesBound codomain next) :
      ChangesBound (.arrow span domain codomain) (.arrow span domain next)
  | body {span param body next} (change : ChangesBound body next) :
      ChangesBound (.all span param body) (.all span param next)

@[inherit_doc Ty.ChangesBound]
inductive Term.ChangesBound : Term → Term → Prop
  | param {span param newParam paramType body} (fresh : ⟨.term, newParam.name⟩ ∉ body.names) :
      ChangesBound (.lam span param paramType body)
        (.lam span newParam paramType (body.renameFree ⟨.term, param.name⟩ newParam.name))
  | tyParam {span param newParam body} (fresh : ⟨.type, newParam.name⟩ ∉ body.names) :
      ChangesBound (.tyLam span param body)
        (.tyLam span newParam (body.renameFree ⟨.type, param.name⟩ newParam.name))
  | paramType {span param paramType next body} (change : paramType.ChangesBound next) :
      ChangesBound (.lam span param paramType body) (.lam span param next body)
  | body {span param paramType body next} (change : ChangesBound body next) :
      ChangesBound (.lam span param paramType body) (.lam span param paramType next)
  | function {span function next argument} (change : ChangesBound function next) :
      ChangesBound (.app span function argument) (.app span next argument)
  | argument {span function argument next} (change : ChangesBound argument next) :
      ChangesBound (.app span function argument) (.app span function next)
  | tyBody {span param body next} (change : ChangesBound body next) :
      ChangesBound (.tyLam span param body) (.tyLam span param next)
  | tyFunction {span function next argument} (change : ChangesBound function next) :
      ChangesBound (.tyApp span function argument) (.tyApp span next argument)
  | tyArgument {span function argument next} (change : argument.ChangesBound next) :
      ChangesBound (.tyApp span function argument) (.tyApp span function next)

end PolyLambda.Named

/-! ## A change does not show in the indices -/

namespace PolyLambda.Scope

/-- Some names resolve alike in two scopes. -/
def AgreeOn (names : List Binder) (scope other : Scope) : Prop :=
  ∀ name ∈ names, scope.indexOf? name.kind name.name = other.indexOf? name.kind name.name

/-- One variable is called `old` in one scope and `new` in another, and the other ones
among some names resolve alike. -/
structure Renames (old : Binder) (new : String) (names : List Binder) (scope other : Scope) :
    Prop where
  renamed : ∃ index, scope.indexOf? old.kind old.name = some index ∧
    other.indexOf? old.kind new = some index
  fresh : ⟨old.kind, new⟩ ∉ names
  others : ∀ name ∈ names, name ≠ old →
    scope.indexOf? name.kind name.name = other.indexOf? name.kind name.name

variable {old binder name : Binder} {new : String} {names part : List Binder} {scope other : Scope}

/-- A name that resolves alike in two scopes does so under a binder. -/
theorem indexOf?_cons_congr
    (agree : scope.indexOf? name.kind name.name = other.indexOf? name.kind name.name) :
    Scope.indexOf? (binder :: scope) name.kind name.name =
      Scope.indexOf? (binder :: other) name.kind name.name := by
  by_cases same : binder = name
  · rw [same, indexOf?_cons_self, indexOf?_cons_self]
  · rw [indexOf?_cons_of_ne same, indexOf?_cons_of_ne same, agree]

/-- Scopes that agree on names agree on fewer. -/
theorem AgreeOn.mono (agree : AgreeOn names scope other) (subset : part ⊆ names) :
    AgreeOn part scope other :=
  fun name member => agree name (subset member)

/-- Scopes that agree on names agree on them under a binder. -/
theorem AgreeOn.under (agree : AgreeOn names scope other) (binder : Binder) :
    AgreeOn names (binder :: scope) (binder :: other) :=
  fun name member => indexOf?_cons_congr (agree name member)

namespace Renames

/-- A variable is renamed among fewer names too. -/
theorem mono (renames : Renames old new names scope other) (subset : part ⊆ names) :
    Renames old new part scope other where
  renamed := renames.renamed
  fresh member := renames.fresh (subset member)
  others name member := renames.others name (subset member)

/-- A variable resolves alike under its old and under its new name. -/
theorem resolve_eq {kind : Kind} {name : String}
    (renames : Renames old new [⟨kind, name⟩] scope other) (span : Span) :
    other.resolve kind (if old = ⟨kind, name⟩ then new else name) span =
      scope.resolve kind name span := by
  by_cases same : old = ⟨kind, name⟩
  · subst same
    obtain ⟨index, found, otherFound⟩ := renames.renamed
    simp only [if_true, Scope.resolve, found, otherFound]
  · have agree := renames.others _ (List.mem_singleton_self _) (Ne.symm same)
    simp only [if_neg same, Scope.resolve, agree]

/-- Inside a binder of its own name the variable does not occur. -/
theorem hidden (renames : Renames old new names scope other) :
    AgreeOn names (old :: scope) (old :: other) := by
  intro name member
  by_cases same : name = old
  · rw [same, indexOf?_cons_self, indexOf?_cons_self]
  · exact indexOf?_cons_congr (renames.others name member same)

/-- A variable is renamed under a binder of another name. -/
theorem under (renames : Renames old new (binder :: names) scope other) (differ : binder ≠ old) :
    Renames old new names (binder :: scope) (binder :: other) where
  renamed := by
    obtain ⟨index, found, otherFound⟩ := renames.renamed
    have notNew : binder ≠ ⟨old.kind, new⟩ := by
      rintro rfl
      exact renames.fresh List.mem_cons_self
    refine ⟨index + 1, ?_, ?_⟩
    · rw [indexOf?_cons_of_ne differ, found, Option.map_some]
    · rw [indexOf?_cons_of_ne notNew, otherFound, Option.map_some]
  fresh member := renames.fresh (List.mem_cons_of_mem _ member)
  others name member differs :=
    indexOf?_cons_congr (renames.others name (List.mem_cons_of_mem _ member) differs)

/-- Inside its own binder a variable may be renamed at will. -/
theorem head (old : Binder) (scope : Scope) (fresh : ⟨old.kind, new⟩ ∉ names) :
    Renames old new names (old :: scope) (⟨old.kind, new⟩ :: scope) where
  renamed := ⟨0, indexOf?_cons_self, indexOf?_cons_self⟩
  fresh := fresh
  others name member differs := by
    have notNew : (⟨old.kind, new⟩ : Binder) ≠ name := by
      rintro rfl
      exact fresh member
    rw [indexOf?_cons_of_ne (Ne.symm differs), indexOf?_cons_of_ne notNew]

end Renames

end PolyLambda.Scope

namespace PolyLambda.Named

open Relation (EqvGen)
open Scope (AgreeOn Renames)

/-- Resolution depends on the names that occur only. -/
theorem Ty.resolve_congr {ty : Ty} {scope other : Scope} (agree : AgreeOn ty.names scope other) :
    ty.resolve scope = ty.resolve other := by
  induction ty generalizing scope other with
  | var span name =>
      have found := agree _ (List.mem_singleton_self _)
      simp only [Ty.resolve, Scope.resolve, found]
  | arrow span domain codomain domainIH codomainIH =>
      have domainAgree := domainIH (agree.mono (List.subset_append_left _ _))
      have codomainAgree := codomainIH (agree.mono (List.subset_append_right _ _))
      simp only [Ty.resolve, domainAgree, codomainAgree]
  | all span param body bodyIH =>
      have bodyAgree := bodyIH ((agree.mono (List.subset_cons_self _ _)).under ⟨.type, param.name⟩)
      simp only [Ty.resolve, bodyAgree]

@[inherit_doc Ty.resolve_congr]
theorem Term.resolve_congr {term : Term} {scope other : Scope}
    (agree : AgreeOn term.names scope other) : term.resolve scope = term.resolve other := by
  induction term generalizing scope other with
  | var span name =>
      have found := agree _ (List.mem_singleton_self _)
      simp only [Term.resolve, Scope.resolve, found]
  | lam span param paramType body bodyIH =>
      have inside := agree.mono (List.subset_cons_self _ _)
      have typeAgree := Ty.resolve_congr (inside.mono (List.subset_append_left _ _))
      have bodyAgree := bodyIH
        ((inside.mono (List.subset_append_right _ _)).under ⟨.term, param.name⟩)
      simp only [Term.resolve, typeAgree, bodyAgree]
  | app span function argument functionIH argumentIH =>
      have functionAgree := functionIH (agree.mono (List.subset_append_left _ _))
      have argumentAgree := argumentIH (agree.mono (List.subset_append_right _ _))
      simp only [Term.resolve, functionAgree, argumentAgree]
  | tyLam span param body bodyIH =>
      have bodyAgree := bodyIH ((agree.mono (List.subset_cons_self _ _)).under ⟨.type, param.name⟩)
      simp only [Term.resolve, bodyAgree]
  | tyApp span function argument functionIH =>
      have functionAgree := functionIH (agree.mono (List.subset_append_left _ _))
      have argumentAgree := Ty.resolve_congr (agree.mono (List.subset_append_right _ _))
      simp only [Term.resolve, functionAgree, argumentAgree]

/-- A type in which a variable is renamed resolves as before, where the variable is. -/
theorem Ty.renameFree_resolve {ty : Ty} {old : Binder} {new : String} {scope other : Scope}
    (renames : Renames old new ty.names scope other) :
    (ty.renameFree old new).resolve other = ty.resolve scope := by
  induction ty generalizing scope other with
  | var span name => simp only [Ty.renameFree, Ty.resolve, renames.resolve_eq span]
  | arrow span domain codomain domainIH codomainIH =>
      have domainRenamed := domainIH (renames.mono (List.subset_append_left _ _))
      have codomainRenamed := codomainIH (renames.mono (List.subset_append_right _ _))
      simp only [Ty.renameFree, Ty.resolve, domainRenamed, codomainRenamed]
  | all span param body bodyIH =>
      by_cases own : old = ⟨.type, param.name⟩
      · subst own
        have bodyAgree := Ty.resolve_congr (renames.mono (List.subset_cons_self _ _)).hidden
        simp only [Ty.renameFree, if_true, Ty.resolve, bodyAgree]
      · have bodyRenamed := bodyIH (renames.under (Ne.symm own))
        simp only [Ty.renameFree, if_neg own, Ty.resolve, bodyRenamed]

@[inherit_doc Ty.renameFree_resolve]
theorem Term.renameFree_resolve {term : Term} {old : Binder} {new : String} {scope other : Scope}
    (renames : Renames old new term.names scope other) :
    (term.renameFree old new).resolve other = term.resolve scope := by
  induction term generalizing scope other with
  | var span name => simp only [Term.renameFree, Term.resolve, renames.resolve_eq span]
  | lam span param paramType body bodyIH =>
      have inside := renames.mono (List.subset_cons_self _ _)
      have typeRenamed := Ty.renameFree_resolve (inside.mono (List.subset_append_left _ _))
      by_cases own : old = ⟨.term, param.name⟩
      · subst own
        have bodyAgree := Term.resolve_congr (inside.mono (List.subset_append_right _ _)).hidden
        simp only [Term.renameFree, if_true, Term.resolve, typeRenamed, bodyAgree]
      · have bodySubset : ⟨.term, param.name⟩ :: body.names ⊆
            ⟨.term, param.name⟩ :: (paramType.names ++ body.names) :=
          List.cons_subset_cons _ (List.subset_append_right _ _)
        have bodyRenamed := bodyIH ((renames.mono bodySubset).under (Ne.symm own))
        simp only [Term.renameFree, if_neg own, Term.resolve, typeRenamed, bodyRenamed]
  | app span function argument functionIH argumentIH =>
      have functionRenamed := functionIH (renames.mono (List.subset_append_left _ _))
      have argumentRenamed := argumentIH (renames.mono (List.subset_append_right _ _))
      simp only [Term.renameFree, Term.resolve, functionRenamed, argumentRenamed]
  | tyLam span param body bodyIH =>
      by_cases own : old = ⟨.type, param.name⟩
      · subst own
        have bodyAgree := Term.resolve_congr (renames.mono (List.subset_cons_self _ _)).hidden
        simp only [Term.renameFree, if_true, Term.resolve, bodyAgree]
      · have bodyRenamed := bodyIH (renames.under (Ne.symm own))
        simp only [Term.renameFree, if_neg own, Term.resolve, bodyRenamed]
  | tyApp span function argument functionIH =>
      have functionRenamed := functionIH (renames.mono (List.subset_append_left _ _))
      have argumentRenamed := Ty.renameFree_resolve (renames.mono (List.subset_append_right _ _))
      simp only [Term.renameFree, Term.resolve, functionRenamed, argumentRenamed]

/-- A change of a bound name does not show in the indices of a type. -/
theorem Ty.ChangesBound.resolve_eq {ty next : Ty} (change : ty.ChangesBound next) (scope : Scope) :
    next.resolve scope = ty.resolve scope := by
  induction change generalizing scope with
  | @param _ param _ _ fresh =>
      have bodyRenamed := Ty.renameFree_resolve (.head ⟨.type, param.name⟩ scope fresh)
      simp only [Ty.resolve, bodyRenamed]
  | domain _ changeIH | codomain _ changeIH | body _ changeIH => simp only [Ty.resolve, changeIH]

/-- A change of a bound name does not show in the indices of a term. -/
theorem Term.ChangesBound.resolve_eq {term next : Term} (change : term.ChangesBound next)
    (scope : Scope) : next.resolve scope = term.resolve scope := by
  induction change generalizing scope with
  | @param _ param _ _ _ fresh =>
      have bodyRenamed := Term.renameFree_resolve (.head ⟨.term, param.name⟩ scope fresh)
      simp only [Term.resolve, bodyRenamed]
  | @tyParam _ param _ _ fresh =>
      have bodyRenamed := Term.renameFree_resolve (.head ⟨.type, param.name⟩ scope fresh)
      simp only [Term.resolve, bodyRenamed]
  | paramType change => simp only [Term.resolve, change.resolve_eq]
  | tyArgument change => simp only [Term.resolve, change.resolve_eq]
  | body _ changeIH | function _ changeIH | argument _ changeIH | tyBody _ changeIH
    | tyFunction _ changeIH => simp only [Term.resolve, changeIH]

/-! ## Trees with the same indices are changes apart -/

/-- What maps changes to changes maps any series of them. -/
theorem eqvGen_map {α β : Type} {change : α → α → Prop} {imageChange : β → β → Prop}
    {left right : α} (image : α → β)
    (maps : ∀ {first second}, change first second → imageChange (image first) (image second))
    (series : EqvGen change left right) : EqvGen imageChange (image left) (image right) := by
  induction series with
  | rel _ _ changed => exact .rel _ _ (maps changed)
  | refl => exact .refl _
  | symm _ _ _ seriesIH => exact .symm _ _ seriesIH
  | trans _ _ _ _ _ firstIH secondIH => exact .trans _ _ _ firstIH secondIH

/-- What one change keeps, any series of changes keeps. -/
theorem eqvGen_keeps {α β : Type} {change : α → α → Prop} {left right : α} (view : α → β)
    (keeps : ∀ {first second}, change first second → view second = view first)
    (series : EqvGen change left right) : view right = view left := by
  induction series with
  | rel _ _ changed => exact keeps changed
  | refl => rfl
  | symm _ _ _ seriesIH => exact seriesIH.symm
  | trans _ _ _ _ _ firstIH secondIH => exact secondIH.trans firstIH

/-- There is a name of each kind that does not occur among finitely many. -/
theorem exists_fresh (kind : Kind) (names : List Binder) : ∃ name, ⟨kind, name⟩ ∉ names := by
  obtain ⟨id, _, fresh⟩ := Naming.exists_not_taken (Scope.names names kind) kind 0
  exact ⟨_, fun member => fresh (Scope.mem_names_iff.mpr member)⟩

/-- Two binders of one kind can be given a common name that is new to both bodies. -/
theorem Ty.ResolvesTo.commonName {scope : Scope} {kind : Kind} {name otherName : String}
    {left right : Ty} {ty : Indexed.Ty} (resolves : left.ResolvesTo (⟨kind, name⟩ :: scope) ty)
    (otherResolves : right.ResolvesTo (⟨kind, otherName⟩ :: scope) ty) :
    ∃ common, ⟨kind, common⟩ ∉ left.names ∧ ⟨kind, common⟩ ∉ right.names ∧
      (left.renameFree ⟨kind, name⟩ common).ResolvesTo (⟨kind, common⟩ :: scope) ty ∧
      (right.renameFree ⟨kind, otherName⟩ common).ResolvesTo (⟨kind, common⟩ :: scope) ty := by
  obtain ⟨common, fresh⟩ := exists_fresh kind (left.names ++ right.names)
  rw [List.mem_append, not_or] at fresh
  have renamed := Ty.renameFree_resolve (.head ⟨kind, name⟩ scope fresh.1)
  have otherRenamed := Ty.renameFree_resolve (.head ⟨kind, otherName⟩ scope fresh.2)
  rw [Ty.resolve_eq_ok_iff.mpr resolves] at renamed
  rw [Ty.resolve_eq_ok_iff.mpr otherResolves] at otherRenamed
  exact ⟨common, fresh.1, fresh.2, Ty.resolve_eq_ok_iff.mp renamed,
    Ty.resolve_eq_ok_iff.mp otherRenamed⟩

@[inherit_doc Ty.ResolvesTo.commonName]
theorem Term.ResolvesTo.commonName {scope : Scope} {kind : Kind} {name otherName : String}
    {left right : Term} {term : Indexed.Term}
    (resolves : left.ResolvesTo (⟨kind, name⟩ :: scope) term)
    (otherResolves : right.ResolvesTo (⟨kind, otherName⟩ :: scope) term) :
    ∃ common, ⟨kind, common⟩ ∉ left.names ∧ ⟨kind, common⟩ ∉ right.names ∧
      (left.renameFree ⟨kind, name⟩ common).ResolvesTo (⟨kind, common⟩ :: scope) term ∧
      (right.renameFree ⟨kind, otherName⟩ common).ResolvesTo (⟨kind, common⟩ :: scope) term := by
  obtain ⟨common, fresh⟩ := exists_fresh kind (left.names ++ right.names)
  rw [List.mem_append, not_or] at fresh
  have renamed := Term.renameFree_resolve (.head ⟨kind, name⟩ scope fresh.1)
  have otherRenamed := Term.renameFree_resolve (.head ⟨kind, otherName⟩ scope fresh.2)
  rw [Term.resolve_eq_ok_iff.mpr resolves] at renamed
  rw [Term.resolve_eq_ok_iff.mpr otherResolves] at otherRenamed
  exact ⟨common, fresh.1, fresh.2, Term.resolve_eq_ok_iff.mp renamed,
    Term.resolve_eq_ok_iff.mp otherRenamed⟩

/-- Types that resolve to one type differ by changes of bound names. -/
theorem Ty.ResolvesTo.changes {scope : Scope} {left right : Ty} {ty : Indexed.Ty}
    (resolves : left.ResolvesTo scope ty) (otherResolves : right.ResolvesTo scope ty) :
    EqvGen Ty.ChangesBound left right := by
  -- Renaming a binder keeps the indices, so the induction is on the indexed tree.
  induction ty generalizing scope left right with
  | var span index =>
      cases resolves with
      | var found =>
          cases otherResolves with
          | var otherFound =>
              rw [(Scope.indexOf?_eq_iff found otherFound).mp rfl]
              exact .refl _
  | arrow span domain codomain domainIH codomainIH =>
      cases resolves with
      | @arrow _ _ _ leftCodomain _ _ domainResolves codomainResolves =>
          cases otherResolves with
          | @arrow _ _ rightDomain _ _ _ otherDomain otherCodomain =>
              have domains := domainIH domainResolves otherDomain
              have codomains := codomainIH codomainResolves otherCodomain
              exact .trans _ _ _ (eqvGen_map (Ty.arrow span · leftCodomain) .domain domains)
                (eqvGen_map (Ty.arrow span rightDomain ·) .codomain codomains)
  | all span body bodyIH =>
      cases resolves with
      | all bodyResolves =>
          cases otherResolves with
          | all otherBody =>
              obtain ⟨common, fresh, otherFresh, renamed, otherRenamed⟩ :=
                bodyResolves.commonName otherBody
              have bodies := eqvGen_map (Ty.all span ⟨default, common⟩) Ty.ChangesBound.body
                (bodyIH renamed otherRenamed)
              exact .trans _ _ _ (.rel _ _ (.param fresh))
                (.trans _ _ _ bodies (.symm _ _ (.rel _ _ (.param otherFresh))))

/-- Terms that resolve to one term differ by changes of bound names. -/
theorem Term.ResolvesTo.changes {scope : Scope} {left right : Term} {term : Indexed.Term}
    (resolves : left.ResolvesTo scope term) (otherResolves : right.ResolvesTo scope term) :
    EqvGen Term.ChangesBound left right := by
  induction term generalizing scope left right with
  | var span index =>
      cases resolves with
      | var found =>
          cases otherResolves with
          | var otherFound =>
              rw [(Scope.indexOf?_eq_iff found otherFound).mp rfl]
              exact .refl _
  | lam span paramType body bodyIH =>
      cases resolves with
      | @lam _ _ param leftType leftBody _ _ typeResolves bodyResolves =>
          cases otherResolves with
          | @lam _ _ _ rightType _ _ _ otherType otherBody =>
              have types := eqvGen_map (Term.lam span param · leftBody) Term.ChangesBound.paramType
                (typeResolves.changes otherType)
              obtain ⟨common, fresh, otherFresh, renamed, otherRenamed⟩ :=
                bodyResolves.commonName otherBody
              have bodies := eqvGen_map (Term.lam span ⟨default, common⟩ rightType)
                Term.ChangesBound.body (bodyIH renamed otherRenamed)
              exact .trans _ _ _ types (.trans _ _ _ (.rel _ _ (.param fresh))
                (.trans _ _ _ bodies (.symm _ _ (.rel _ _ (.param otherFresh)))))
  | app span function argument functionIH argumentIH =>
      cases resolves with
      | @app _ _ _ leftArgument _ _ functionResolves argumentResolves =>
          cases otherResolves with
          | @app _ _ rightFunction _ _ _ otherFunction otherArgument =>
              have functions := functionIH functionResolves otherFunction
              have arguments := argumentIH argumentResolves otherArgument
              exact .trans _ _ _ (eqvGen_map (Term.app span · leftArgument) .function functions)
                (eqvGen_map (Term.app span rightFunction ·) .argument arguments)
  | tyLam span body bodyIH =>
      cases resolves with
      | tyLam bodyResolves =>
          cases otherResolves with
          | tyLam otherBody =>
              obtain ⟨common, fresh, otherFresh, renamed, otherRenamed⟩ :=
                bodyResolves.commonName otherBody
              have bodies := eqvGen_map (Term.tyLam span ⟨default, common⟩) Term.ChangesBound.tyBody
                (bodyIH renamed otherRenamed)
              exact .trans _ _ _ (.rel _ _ (.tyParam fresh))
                (.trans _ _ _ bodies (.symm _ _ (.rel _ _ (.tyParam otherFresh))))
  | tyApp span function argument functionIH =>
      cases resolves with
      | @tyApp _ _ _ leftArgument _ _ functionResolves argumentResolves =>
          cases otherResolves with
          | @tyApp _ _ rightFunction _ _ _ otherFunction otherArgument =>
              have functions := functionIH functionResolves otherFunction
              have arguments := argumentResolves.changes otherArgument
              exact .trans _ _ _ (eqvGen_map (Term.tyApp span · leftArgument) .tyFunction functions)
                (eqvGen_map (Term.tyApp span rightFunction ·) .tyArgument arguments)

/-! ## Alpha-equivalence -/

/-- Spans have no part in what a type resolves to. -/
theorem Ty.ResolvesTo.bare {scope : Scope} {named : Ty} {ty : Indexed.Ty}
    (resolves : named.ResolvesTo scope ty) : named.bare.ResolvesTo scope ty.bare := by
  induction resolves with
  | var found => exact .var found
  | arrow _ _ domainIH codomainIH => exact .arrow domainIH codomainIH
  | all _ bodyIH => exact .all bodyIH

/-- Spans have no part in what a term resolves to. -/
theorem Term.ResolvesTo.bare {scope : Scope} {named : Term} {term : Indexed.Term}
    (resolves : named.ResolvesTo scope term) : named.bare.ResolvesTo scope term.bare := by
  induction resolves with
  | var found => exact .var found
  | lam typeResolves _ bodyIH => exact .lam typeResolves.bare bodyIH
  | app _ _ functionIH argumentIH => exact .app functionIH argumentIH
  | tyLam _ bodyIH => exact .tyLam bodyIH
  | tyApp _ argumentResolves functionIH => exact .tyApp functionIH argumentResolves.bare

/-- Types resolve to the same type, spans aside, exactly if they differ by changes
of bound names. -/
theorem Ty.ResolvesTo.same_iff_changes {scope : Scope} {left right : Ty} {ty otherTy : Indexed.Ty}
    (resolves : left.ResolvesTo scope ty) (otherResolves : right.ResolvesTo scope otherTy) :
    ty.Same otherTy ↔ EqvGen Ty.ChangesBound left.bare right.bare := by
  have resolved := Ty.resolve_eq_ok_iff.mpr resolves.bare
  have otherResolved := Ty.resolve_eq_ok_iff.mpr otherResolves.bare
  constructor
  · intro same
    rw [← same] at otherResolved
    exact resolves.bare.changes (Ty.resolve_eq_ok_iff.mp otherResolved)
  · intro series
    have kept := eqvGen_keeps (Ty.resolve scope) (fun change => change.resolve_eq scope) series
    rw [resolved, otherResolved] at kept
    exact (Except.ok.inj kept).symm

/-- Terms resolve to the same term, spans aside, exactly if they differ by changes
of bound names. -/
theorem Term.ResolvesTo.same_iff_changes {scope : Scope} {left right : Term}
    {term otherTerm : Indexed.Term} (resolves : left.ResolvesTo scope term)
    (otherResolves : right.ResolvesTo scope otherTerm) :
    term.Same otherTerm ↔ EqvGen Term.ChangesBound left.bare right.bare := by
  have resolved := Term.resolve_eq_ok_iff.mpr resolves.bare
  have otherResolved := Term.resolve_eq_ok_iff.mpr otherResolves.bare
  constructor
  · intro same
    rw [← same] at otherResolved
    exact resolves.bare.changes (Term.resolve_eq_ok_iff.mp otherResolved)
  · intro series
    have kept := eqvGen_keeps (Term.resolve scope) (fun change => change.resolve_eq scope) series
    rw [resolved, otherResolved] at kept
    exact (Except.ok.inj kept).symm

/-- Equal indices are alpha-equivalence. Two terms, or two types, that resolve in a
context have the same indices, source positions aside, exactly when they are
alpha-equivalent, and then a series of changes of bound variables leads from one to the
other. -/
theorem Context.same_indices_iff_alpha (context : Context) :
    (∀ (left right : Term) term otherTerm, left.resolve context.scope = .ok term →
      right.resolve context.scope = .ok otherTerm →
      (term.Same otherTerm ↔ left.Alpha right) ∧
      (term.Same otherTerm ↔ EqvGen Term.ChangesBound left.bare right.bare)) ∧
    (∀ (left right : Ty) ty otherTy, left.resolve context.scope = .ok ty →
      right.resolve context.scope = .ok otherTy →
      (ty.Same otherTy ↔ left.Alpha right) ∧
      (ty.Same otherTy ↔ EqvGen Ty.ChangesBound left.bare right.bare)) := by
  constructor
  · intro left right term otherTerm resolved otherResolved
    rw [Term.resolve_eq_ok_iff] at resolved otherResolved
    exact ⟨resolved.same_iff_alphaInside otherResolved .outer,
      resolved.same_iff_changes otherResolved⟩
  · intro left right ty otherTy resolved otherResolved
    rw [Ty.resolve_eq_ok_iff] at resolved otherResolved
    exact ⟨resolved.same_iff_alphaInside otherResolved .outer,
      resolved.same_iff_changes otherResolved⟩

/-- A function of a type and of two arguments of this type that gives one of them back.
The arguments may share their name with each other and with the type. -/
def choosing (type first second chosen : String) : Term :=
  .tyLam default ⟨default, type⟩
    (.lam default ⟨default, first⟩ (.var default type)
      (.lam default ⟨default, second⟩ (.var default type) (.var default chosen)))

/-- Under a name that hides both the first argument and a variable of the context, the
second argument is chosen, and it may have a name of its own. -/
theorem Context.same_indices_iff_alpha_choosing :
    (choosing "a" "a" "a" "a").Alpha (choosing "A" "b" "c" "c") ∧
    EqvGen Term.ChangesBound (choosing "a" "a" "a" "a").bare (choosing "A" "b" "c" "c").bare ∧
    ¬(choosing "a" "a" "a" "a").Alpha (choosing "A" "b" "c" "b") ∧
    ¬(choosing "a" "a" "a" "a").Alpha (choosing "A" "b" "c" "a") := by
  let context : Context := [.type "A", .term ⟨"a", .var default "A", none⟩]
  have hidden : (choosing "a" "a" "a" "a").resolve context.scope =
      .ok (.tyLam default (.lam default (.var default 0)
        (.lam default (.var default 1) (.var default 0)))) := by decide +kernel
  have second : (choosing "A" "b" "c" "c").resolve context.scope =
      .ok (.tyLam default (.lam default (.var default 0)
        (.lam default (.var default 1) (.var default 0)))) := by decide +kernel
  have first : (choosing "A" "b" "c" "b").resolve context.scope =
      .ok (.tyLam default (.lam default (.var default 0)
        (.lam default (.var default 1) (.var default 1)))) := by decide +kernel
  have outside : (choosing "A" "b" "c" "a").resolve context.scope =
      .ok (.tyLam default (.lam default (.var default 0)
        (.lam default (.var default 1) (.var default 4)))) := by decide +kernel
  obtain ⟨terms, _⟩ := Context.same_indices_iff_alpha context
  have toSecond := terms _ _ _ _ hidden second
  refine ⟨toSecond.1.mp rfl, toSecond.2.mp rfl, ?_, ?_⟩
  · rw [← (terms _ _ _ _ hidden first).1]
    decide +kernel
  · rw [← (terms _ _ _ _ hidden outside).1]
    decide +kernel

end PolyLambda.Named
