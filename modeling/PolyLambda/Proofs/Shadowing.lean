import PolyLambda.Named.Printer
import PolyLambda.Proofs.NameBridge
import PolyLambda.Proofs.Typing

/-!
# Type variables of one name

Names cannot tell apart type binders of the same name. Moving each of them to the
oldest one of its name forgets the difference and nothing else: names stay as they
are, and a context stays a context. The oldest binder of a name, unlike the newest
one, is not hidden by binders that are added later, so that what has been collapsed
once stays collapsed in every larger context.
-/

namespace PolyLambda

open Indexed (Renaming)

/-! ## The oldest binder of a name -/

namespace Scope

variable {scope rest : Scope} {name : String} {binder : Binder} {index other : Nat}

/-- The index of the oldest type binder with the name of the one at an index. Term
binders keep their indices. -/
def oldest : Scope → Renaming
  | [], index => index
  | ⟨.type, name⟩ :: rest, 0 =>
    match indexOf? rest .type name with
    | some index => oldest rest index + 1
    | none => 0
  | ⟨.term, _⟩ :: _, 0 => 0
  | _ :: rest, index + 1 => oldest rest index + 1

@[simp] theorem oldest_succ : oldest (binder :: rest) (index + 1) = rest.oldest index + 1 := by
  obtain ⟨kind, name⟩ := binder
  cases kind <;> rfl

/-- A type binder that shadows another one leads to the oldest of the name. -/
theorem oldest_zero_of_indexOf? (found : rest.indexOf? .type name = some index) :
    oldest (⟨.type, name⟩ :: rest) 0 = rest.oldest index + 1 := by
  simp [oldest, found]

/-- A type binder of a new name is the oldest of its name. -/
theorem oldest_zero_of_none (absent : rest.indexOf? .type name = none) :
    oldest (⟨.type, name⟩ :: rest) 0 = 0 := by
  simp [oldest, absent]

/-- A binder that is the oldest of its name is entered as any other one. -/
theorem oldest_under (head : oldest (binder :: rest) 0 = 0) :
    oldest (binder :: rest) = rest.oldest.under := by
  ext index
  cases index with
  | zero => exact head
  | succ index => exact oldest_succ

/-- A term binder is entered as any other one. -/
theorem oldest_term : oldest (⟨.term, name⟩ :: rest) = rest.oldest.under :=
  oldest_under rfl

/-- The oldest binder of a name has that name. -/
@[simp] theorem getElem?_oldest (scope : Scope) (index : Nat) :
    scope[scope.oldest index]? = scope[index]? := by
  induction scope generalizing index with
  | nil => rfl
  | cons binder rest restIH =>
      cases index with
      | succ index => simp [restIH]
      | zero =>
          obtain ⟨kind, name⟩ := binder
          cases kind with
          | term => rfl
          | type =>
              cases found : indexOf? rest .type name with
              | none => rw [oldest_zero_of_none found]
              | some index =>
                  rw [oldest_zero_of_indexOf? found, List.getElem?_cons_succ, restIH,
                    getElem?_of_indexOf? found]
                  rfl

/-- Type binders of one name have one oldest binder. -/
theorem oldest_eq (found : scope[index]? = some ⟨.type, name⟩)
    (otherFound : scope[other]? = some ⟨.type, name⟩) :
    scope.oldest index = scope.oldest other := by
  induction scope generalizing index other with
  | nil => cases found
  | cons binder rest restIH =>
      -- An older binder has the oldest one of what the newest one resolves to below.
      have below : ∀ {older}, rest[older]? = some ⟨.type, name⟩ → binder = ⟨.type, name⟩ →
          oldest (binder :: rest) 0 = oldest rest older + 1 := by
        rintro older olderFound rfl
        have resolved := indexOf?_newest olderFound
        rw [oldest_zero_of_indexOf? resolved,
          restIH (getElem?_of_indexOf? resolved) olderFound]
      cases index with
      | zero =>
          cases other with
          | zero => rfl
          | succ other => rw [below otherFound (Option.some.inj found), oldest_succ]
      | succ index =>
          cases other with
          | zero => rw [below found (Option.some.inj otherFound), oldest_succ]
          | succ other => rw [oldest_succ, oldest_succ, restIH found otherFound]

/-- The oldest binder is the same from the newest one of the name. -/
theorem oldest_newest (found : scope[index]? = some ⟨.type, name⟩) :
    scope.oldest (scope.newest index) = scope.oldest index :=
  oldest_eq ((getElem?_newest scope index).trans found) found

/-- The newest binder is the same from the oldest one of the name. -/
theorem newest_oldest (found : scope[index]? = some binder) :
    scope.newest (scope.oldest index) = scope.newest index := by
  have oldestFound : scope[scope.oldest index]? = some binder :=
    (getElem?_oldest scope index).trans found
  have same := (indexOf?_newest oldestFound).symm.trans (indexOf?_newest found)
  exact Option.some.inj same

/-- Where no type name is used twice, there is nothing to move. -/
theorem oldest_eq_self (distinct : (scope.names .type).Nodup) (index : Nat) :
    scope.oldest index = index := by
  induction scope generalizing index with
  | nil => rfl
  | cons binder rest restIH =>
      obtain ⟨kind, name⟩ := binder
      have restDistinct : (names rest .type).Nodup := by
        cases kind with
        | term => exact distinct
        | type => exact (List.nodup_cons.mp distinct).2
      cases index with
      | succ index => rw [oldest_succ, restIH restDistinct]
      | zero =>
          cases kind with
          | term => rfl
          | type =>
              apply oldest_zero_of_none
              by_contra present
              obtain ⟨index, found⟩ := Option.ne_none_iff_exists'.mp present
              have member := List.mem_of_getElem? (getElem?_of_indexOf? found)
              exact (List.nodup_cons.mp distinct).1 (mem_names_iff.mpr member)

end Scope

/-- A scope describes a context exactly if the newest kinds agree and the rest
describes the rest. -/
theorem Scope.describes_cons_iff {scope : Scope} {context : Indexed.Context} {binder : Binder}
    {binding : Indexed.Binding} :
    Describes (binder :: scope) (binding :: context) ↔
      binder.kind = binding.kind ∧ scope.Describes context := by
  simp [Describes]

namespace Indexed

/-! ## Collapsed contexts -/

/-- The context with the type variables of one name made one, each entry as far as
the scope below it goes. -/
def Context.collapse : Scope → Context → Context
  | _ :: scope, .type name :: rest => .type name :: collapse scope rest
  | _ :: scope, .term entry :: rest =>
    let mapping := Scope.oldest scope
    .term ⟨(), entry.ty.rename mapping, entry.definition.map (Term.rename mapping)⟩ ::
      collapse scope rest
  | _, _ => []

/-- Moving indices to the oldest binders carries a context into the collapsed one. -/
theorem Context.collapse_carries {scope : Scope} {context : Context}
    (describes : scope.Describes context) :
    scope.oldest.Carries context (context.collapse scope) := by
  induction context generalizing scope with
  | nil =>
      cases scope with
      | nil => exact ⟨nofun, nofun, nofun⟩
      | cons => cases describes
  | cons binding rest restIH =>
      cases scope with
      | nil => cases describes
      | cons binder scope =>
          obtain ⟨kinds, restDescribes⟩ := Scope.describes_cons_iff.mp describes
          have carries := restIH restDescribes
          obtain ⟨kind, name⟩ := binder
          cases binding with
          | term entry =>
              cases kinds
              rw [Scope.oldest_term]
              exact carries.underEntry entry.ty entry.definition
          | type =>
              cases kinds
              apply carries.extendType _ (fun _ => Scope.oldest_succ)
              cases found : Scope.indexOf? scope .type name with
              | none =>
                  rw [Scope.oldest_zero_of_none found]
                  rfl
              | some older =>
                  rw [Scope.oldest_zero_of_indexOf? found]
                  have olderFound := Scope.getElem?_of_indexOf? found
                  exact carries.types (restDescribes.bindsType_iff.mpr ⟨name, olderFound⟩)

/-! ## Collapsed types -/

/-- Resolving the names of a type again changes it, but not once it is collapsed. -/
theorem Ty.InScope.rename_newest_oldest {scope : Scope} {context : Context} {ty : Ty}
    (inScope : ty.InScope context) (describes : scope.Describes context) :
    (ty.rename scope.newest).rename scope.oldest = ty.rename scope.oldest := by
  rw [Ty.rename_rename]
  apply inScope.rename_congr
  intro index bound
  obtain ⟨name, found⟩ := describes.bindsType_iff.mp bound
  exact Scope.oldest_newest found

/-- A type in scope has the same newest binders after moving to the oldest ones. -/
theorem Ty.InScope.rename_oldest_newest {scope : Scope} {context : Context} {ty : Ty}
    (inScope : ty.InScope context) (describes : scope.Describes context) :
    (ty.rename scope.oldest).rename scope.newest = ty.rename scope.newest := by
  rw [Ty.rename_rename]
  apply inScope.rename_congr
  intro index bound
  obtain ⟨name, found⟩ := describes.bindsType_iff.mp bound
  exact Scope.newest_oldest found

/-- Types that only collapsing makes the same differ in an index that a newer binder
of the same name hides. -/
theorem Ty.same_of_newest {scope : Scope} {context : Context} {left right : Ty}
    (describes : scope.Describes context)
    (leftInScope : left.InScope context) (rightInScope : right.InScope context)
    (collapsed : (left.rename scope.oldest).Same (right.rename scope.oldest))
    (leftNewest : ∀ index ∈ left.freeIndices, scope.newest index = index)
    (rightNewest : ∀ index ∈ right.freeIndices, scope.newest index = index) :
    left.Same right := by
  have resolved := collapsed.rename scope.newest
  rw [leftInScope.rename_oldest_newest describes,
    rightInScope.rename_oldest_newest describes] at resolved
  have leftFixed : left.rename scope.newest = left :=
    (Ty.rename_congr leftNewest).trans left.rename_id
  have rightFixed : right.rename scope.newest = right :=
    (Ty.rename_congr rightNewest).trans right.rename_id
  rwa [leftFixed, rightFixed] at resolved

/-- Where no type name is used twice moving to the oldest binders moves nothing. -/
theorem Ty.rename_oldest_of_distinct {scope : Scope} (distinct : (scope.names .type).Nodup)
    (ty : Ty) : ty.rename scope.oldest = ty := by
  have unmoved : scope.oldest = fun index => index := funext (Scope.oldest_eq_self distinct)
  rw [unmoved, Ty.rename_id]

/-! ## Names of collapsed types -/

/-- Names do not change when indices move to binders of the same name. -/
theorem Ty.NamedBy.rename {binders : Naming.Binders} {supply drawn : Naming.Supply} {ty : Ty}
    {named : Named.Ty} {mapping : Renaming} (naming : ty.NamedBy binders supply named drawn)
    (keeps : ∀ index, binders.scope[mapping index]? = binders.scope[index]?) :
    (ty.rename mapping).NamedBy binders supply named drawn := by
  induction naming generalizing mapping with
  | var found => exact .var ((keeps _).trans found)
  | arrow _ _ domainIH codomainIH => exact .arrow (domainIH keeps) (codomainIH keeps)
  | all entered _ bodyIH =>
      apply NamedBy.all entered
      apply bodyIH
      intro index
      rw [Naming.Binders.enter_scope entered]
      cases index with
      | zero => rfl
      | succ index => exact keeps index

/-- Types that are the same up to spans are given the same names. -/
theorem Ty.NamedBy.bare_eq {binders : Naming.Binders} {supply drawn otherDrawn : Naming.Supply}
    {ty other : Ty} {named otherNamed : Named.Ty} (naming : ty.NamedBy binders supply named drawn)
    (otherNaming : other.NamedBy binders supply otherNamed otherDrawn) (same : ty.Same other) :
    named.bare = otherNamed.bare ∧ drawn = otherDrawn := by
  induction naming generalizing other otherNamed otherDrawn with
  | var found =>
      cases otherNaming with
      | var otherFound =>
          obtain ⟨_, rfl⟩ := Ty.var.inj same
          obtain ⟨_, rfl⟩ := Binder.mk.inj (Option.some.inj (found.symm.trans otherFound))
          exact ⟨rfl, rfl⟩
      | arrow | all => cases same
  | arrow _ _ domainIH codomainIH =>
      cases otherNaming with
      | arrow otherDomain otherCodomain =>
          obtain ⟨_, domains, codomains⟩ := Ty.arrow.inj same
          obtain ⟨domainBare, rfl⟩ := domainIH otherDomain domains
          obtain ⟨codomainBare, rfl⟩ := codomainIH otherCodomain codomains
          exact ⟨congrArg₂ (Named.Ty.arrow default) domainBare codomainBare, rfl⟩
      | var | all => cases same
  | all entered _ bodyIH =>
      cases otherNaming with
      | all otherEntered otherBody =>
          obtain ⟨_, bodies⟩ := Ty.all.inj same
          cases entered.symm.trans otherEntered
          obtain ⟨bodyBare, rfl⟩ := bodyIH otherBody bodies
          exact ⟨congrArg (Named.Ty.all default _) bodyBare, rfl⟩
      | var | arrow => cases same

end Indexed

namespace Named

/-- Spans have no part in the text of a type. -/
theorem Ty.text_bare (ty : Ty) : ty.bare.text = ty.text := by
  induction ty with
  | var => rfl
  | arrow span domain codomain domainIH codomainIH =>
      have isAtom : domain.bare.isAtom = domain.isAtom := by cases domain <;> rfl
      simp only [Ty.bare, Ty.text, domainIH, codomainIH, isAtom]
  | all span param body bodyIH => simp only [Ty.bare, Ty.text, bodyIH, Ident.bare]

/-- Types that collapsing makes the same read the same. -/
theorem Context.text_eq_of_collapsed {context : Context} {ty other : Indexed.Ty}
    {named otherNamed : Ty} (naming : context.nameType ty = .ok named)
    (otherNaming : context.nameType other = .ok otherNamed)
    (collapsed : (ty.rename context.scope.oldest).Same (other.rename context.scope.oldest)) :
    named.text = otherNamed.text := by
  obtain ⟨_, namedBy⟩ := nameType_eq_ok_iff.mp naming
  obtain ⟨_, otherNamedBy⟩ := nameType_eq_ok_iff.mp otherNaming
  have keeps := Scope.getElem?_oldest context.scope
  have bare := ((namedBy.rename keeps).bare_eq (otherNamedBy.rename keeps) collapsed).1
  rw [← Ty.text_bare named, bare, Ty.text_bare]

end Named

end PolyLambda
