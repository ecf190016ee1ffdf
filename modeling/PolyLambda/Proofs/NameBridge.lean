import PolyLambda.Naming.Readback
import PolyLambda.Naming.Resolution
import PolyLambda.Proofs.GeneratedNames
import PolyLambda.Proofs.Scope

/-!
# From indices to names and back

Naming a tree and resolving its names again changes nothing but which of several
binders of one name the free indices point to: each moves to the newest one. Inside
the tree no name is hidden, since every binder draws a name that neither the context
nor a binder around it has.

Resolved trees are in the scope of every indexed context whose binders have the
kinds that the names were resolved against.
-/

namespace PolyLambda

open Indexed (Renaming)

/-! ## Names in a scope -/

namespace Scope

variable {scope : Scope} {kind : Kind} {name : String} {index : Nat} {binder : Binder}

/-- An index has a name of a kind exactly if a binder of this kind and name stands there. -/
theorem nameAt_eq_ok_iff :
    scope.nameAt kind index = .ok name ↔ scope[index]? = some ⟨kind, name⟩ := by
  unfold nameAt
  cases scope[index]? with
  | none => simp
  | some found =>
      obtain ⟨foundKind, foundName⟩ := found
      by_cases sameKind : foundKind = kind <;> simp [sameKind]

/-- The names of a kind in a scope are those that its binders of the kind have. -/
theorem mem_names_iff : name ∈ scope.names kind ↔ ⟨kind, name⟩ ∈ scope := by
  simp only [names, List.mem_map, List.mem_filter, beq_iff_eq]
  constructor
  · rintro ⟨found, ⟨member, rfl⟩, rfl⟩
    exact member
  · intro member
    exact ⟨_, ⟨member, rfl⟩, rfl⟩

/-- What a name resolves to is a binder of that name. -/
theorem getElem?_of_indexOf? (found : scope.indexOf? kind name = some index) :
    scope[index]? = some ⟨kind, name⟩ := by
  obtain ⟨inside, matching, _⟩ := List.findIdx?_eq_some_iff_getElem.mp found
  rw [List.getElem?_eq_getElem inside, beq_iff_eq.mp matching]

/-- The newest binder is found first. -/
theorem indexOf?_cons_self : indexOf? (binder :: scope) binder.kind binder.name = some 0 := by
  simp [indexOf?, List.findIdx?_cons]

/-- A newest binder of another name or kind is passed over. -/
theorem indexOf?_cons_of_ne (differ : binder ≠ ⟨kind, name⟩) :
    indexOf? (binder :: scope) kind name = (scope.indexOf? kind name).map (· + 1) := by
  simp [indexOf?, List.findIdx?_cons, differ]

/-- The index of the newest binder with the kind and the name of the one at an index. -/
def newest (scope : Scope) : Renaming := fun index =>
  match scope[index]? with
  | some binder => (scope.indexOf? binder.kind binder.name).getD index
  | none => index

/-- The name at an index resolves to the newest binder of that name. -/
theorem indexOf?_newest (found : scope[index]? = some ⟨kind, name⟩) :
    scope.indexOf? kind name = some (scope.newest index) := by
  cases resolved : scope.indexOf? kind name with
  | none =>
      have member := List.mem_of_getElem? found
      have absent := List.findIdx?_eq_none_iff.mp resolved _ member
      simp at absent
  | some position => simp [newest, found, resolved]

/-- The newest index for an index has the binder that the index itself has. -/
theorem getElem?_newest (scope : Scope) (index : Nat) :
    scope[scope.newest index]? = scope[index]? := by
  cases found : scope[index]? with
  | none => simp [newest, found]
  | some binder => exact getElem?_of_indexOf? (indexOf?_newest found)

/-- A binder that hides nothing moves all indices by one. -/
theorem newest_cons (fresh : binder ∉ scope) :
    newest (binder :: scope) = scope.newest.under := by
  ext index
  cases index with
  | zero => simp [newest, indexOf?_cons_self]
  | succ index =>
      cases found : scope[index]? with
      | none => simp [newest, found]
      | some other =>
          have differ : binder ≠ other := by
            rintro rfl
            exact fresh (List.mem_of_getElem? found)
          have resolved : scope.indexOf? other.kind other.name = some (scope.newest index) :=
            indexOf?_newest found
          have unfolded : newest (binder :: scope) (index + 1) =
              (indexOf? (binder :: scope) other.kind other.name).getD (index + 1) := by
            simp [newest, found]
          rw [unfolded, indexOf?_cons_of_ne differ, resolved]
          rfl

end Scope

/-! ## Entering binders -/

namespace Naming

/-- No name that is still to be drawn belongs to the scope. -/
def Supply.Avoids (supply : Supply) (scope : Scope) : Prop :=
  ∀ kind id, supply.next kind ≤ id → ⟨kind, generatedName kind id⟩ ∉ scope

/-- A supply that has gone on still avoids the names of a scope. -/
theorem Supply.Avoids.later {supply later : Supply} {scope : Scope}
    (avoids : supply.Avoids scope) (before : supply ≤ later) : later.Avoids scope := by
  intro kind id enough
  exact avoids kind id (Nat.le_trans (before kind) enough)

namespace Binders

variable {binders inside : Binders} {supply drawn : Supply} {kind : Kind} {name : String}

/-- All binders, those of the tree before those of the context. -/
def scope (binders : Binders) : Scope :=
  binders.inner ++ binders.ambient

/-- An index has a name among named binders exactly if it has it in their scope. -/
theorem nameAt_eq_ok_iff {index : Nat} :
    binders.nameAt kind index = .ok name ↔ binders.scope[index]? = some ⟨kind, name⟩ := by
  unfold nameAt scope
  by_cases isInner : index < binders.inner.length
  · rw [if_pos isInner, List.getElem?_append_left isInner]
    exact Scope.nameAt_eq_ok_iff
  · rw [if_neg isInner, List.getElem?_append_right (Nat.le_of_not_lt isInner)]
    exact Scope.nameAt_eq_ok_iff

/-- Entering a binder draws its name and puts it inside all others. -/
theorem enter_eq_iff :
    binders.enter supply kind = (name, inside, drawn) ↔
      supply.draw kind (binders.ambient.names kind) = (name, drawn) ∧
        inside = ⟨binders.ambient, ⟨kind, name⟩ :: binders.inner⟩ := by
  unfold enter
  cases supply.draw kind (binders.ambient.names kind)
  simp only [Prod.mk.injEq]
  constructor
  · rintro ⟨rfl, rfl, rfl⟩
    exact ⟨⟨rfl, rfl⟩, rfl⟩
  · rintro ⟨⟨rfl, rfl⟩, rfl⟩
    exact ⟨rfl, rfl, rfl⟩

/-- Entering a binder puts its name on top of the scope. -/
theorem enter_scope (entered : binders.enter supply kind = (name, inside, drawn)) :
    inside.scope = ⟨kind, name⟩ :: binders.scope := by
  obtain ⟨_, rfl⟩ := enter_eq_iff.mp entered
  rfl

/-- Entering a binder draws names and gives none back. -/
theorem enter_le (entered : binders.enter supply kind = (name, inside, drawn)) :
    supply ≤ drawn := by
  obtain ⟨draw, _⟩ := enter_eq_iff.mp entered
  obtain ⟨_, _, _, _, _, before⟩ := Supply.draw_spec draw
  exact before

/-- The name of a binder is new to the context and to the tree around it. -/
theorem enter_fresh (entered : binders.enter supply kind = (name, inside, drawn))
    (avoids : supply.Avoids binders.inner) : ⟨kind, name⟩ ∉ binders.scope := by
  obtain ⟨draw, _⟩ := enter_eq_iff.mp entered
  obtain ⟨id, rfl, notTaken, start, _, _⟩ := Supply.draw_spec draw
  rw [scope, List.mem_append]
  rintro (inner | ambient)
  · exact avoids kind id start inner
  · exact notTaken (Scope.mem_names_iff.mpr ambient)

/-- What has been drawn is not drawn again. -/
theorem enter_avoids (entered : binders.enter supply kind = (name, inside, drawn))
    (avoids : supply.Avoids binders.inner) : drawn.Avoids inside.inner := by
  obtain ⟨draw, rfl⟩ := enter_eq_iff.mp entered
  obtain ⟨id, rfl, _, _, passed, before⟩ := Supply.draw_spec draw
  intro other later enough member
  rcases List.mem_cons.mp member with same | older
  · obtain ⟨rfl, sameName⟩ := Binder.mk.inj same
    have sameId := generatedName_injective other sameName
    omega
  · exact avoids.later before other later enough older

end Binders

end Naming

/-! ## What naming does -/

namespace Indexed

open Naming

/-- A type is named, and the names of its binders are drawn, from left to right. -/
inductive Ty.NamedBy : Binders → Supply → Ty → Named.Ty → Supply → Prop
  | var {binders supply span index name} (found : binders.scope[index]? = some ⟨.type, name⟩) :
      NamedBy binders supply (.var span index) (.var span name) supply
  | arrow {binders supply span domain codomain namedDomain namedCodomain middle drawn}
      (domainNamed : NamedBy binders supply domain namedDomain middle)
      (codomainNamed : NamedBy binders middle codomain namedCodomain drawn) :
      NamedBy binders supply (.arrow span domain codomain)
        (.arrow span namedDomain namedCodomain) drawn
  | all {binders inside supply span body name namedBody after drawn}
      (entered : binders.enter supply .type = (name, inside, after))
      (bodyNamed : NamedBy inside after body namedBody drawn) :
      NamedBy binders supply (.all span body) (.all span ⟨span, name⟩ namedBody) drawn

@[inherit_doc Ty.NamedBy]
inductive Term.NamedBy : Binders → Supply → Term → Named.Term → Supply → Prop
  | var {binders supply span index name} (found : binders.scope[index]? = some ⟨.term, name⟩) :
      NamedBy binders supply (.var span index) (.var span name) supply
  | lam {binders inside supply span paramType body name namedType namedBody middle after drawn}
      (typeNamed : Ty.NamedBy binders supply paramType namedType middle)
      (entered : binders.enter middle .term = (name, inside, after))
      (bodyNamed : NamedBy inside after body namedBody drawn) :
      NamedBy binders supply (.lam span paramType body)
        (.lam span ⟨span, name⟩ namedType namedBody) drawn
  | app {binders supply span function argument namedFunction namedArgument middle drawn}
      (functionNamed : NamedBy binders supply function namedFunction middle)
      (argumentNamed : NamedBy binders middle argument namedArgument drawn) :
      NamedBy binders supply (.app span function argument)
        (.app span namedFunction namedArgument) drawn
  | tyLam {binders inside supply span body name namedBody after drawn}
      (entered : binders.enter supply .type = (name, inside, after))
      (bodyNamed : NamedBy inside after body namedBody drawn) :
      NamedBy binders supply (.tyLam span body) (.tyLam span ⟨span, name⟩ namedBody) drawn
  | tyApp {binders supply span function argument namedFunction namedArgument middle drawn}
      (functionNamed : NamedBy binders supply function namedFunction middle)
      (argumentNamed : Ty.NamedBy binders middle argument namedArgument drawn) :
      NamedBy binders supply (.tyApp span function argument)
        (.tyApp span namedFunction namedArgument) drawn

/-- Giving names to a type is what the rules of naming say. -/
theorem Ty.withNames_eq_ok_iff {binders : Binders} {supply drawn : Supply} {ty : Ty}
    {named : Named.Ty} :
    ty.withNames binders supply = .ok (named, drawn) ↔ ty.NamedBy binders supply named drawn := by
  constructor
  · intro naming
    induction ty generalizing binders supply drawn named with
    | var span index =>
        simp only [Ty.withNames, bind_eq_ok_iff] at naming
        obtain ⟨name, found, result⟩ := naming
        cases result
        exact .var (Binders.nameAt_eq_ok_iff.mp found)
    | arrow span domain codomain domainIH codomainIH =>
        simp only [Ty.withNames, bind_eq_ok_iff] at naming
        obtain ⟨⟨namedDomain, middle⟩, domainNaming, ⟨namedCodomain, after⟩, codomainNaming,
          result⟩ := naming
        cases result
        exact .arrow (domainIH domainNaming) (codomainIH codomainNaming)
    | all span body bodyIH =>
        rcases entered : binders.enter supply .type with ⟨name, inside, after⟩
        simp only [Ty.withNames, entered, bind_eq_ok_iff] at naming
        obtain ⟨⟨namedBody, after⟩, bodyNaming, result⟩ := naming
        cases result
        exact .all entered (bodyIH bodyNaming)
  · intro named
    induction named with
    | var found =>
        simp only [Ty.withNames, bind_eq_ok_iff]
        exact ⟨_, Binders.nameAt_eq_ok_iff.mpr found, rfl⟩
    | arrow _ _ domainIH codomainIH =>
        simp only [Ty.withNames, bind_eq_ok_iff]
        exact ⟨_, domainIH, _, codomainIH, rfl⟩
    | all entered _ bodyIH =>
        simp only [Ty.withNames, entered, bind_eq_ok_iff]
        exact ⟨_, bodyIH, rfl⟩

/-- Giving names to a term is what the rules of naming say. -/
theorem Term.withNames_eq_ok_iff {binders : Binders} {supply drawn : Supply} {term : Term}
    {named : Named.Term} :
    term.withNames binders supply = .ok (named, drawn) ↔
      term.NamedBy binders supply named drawn := by
  constructor
  · intro naming
    induction term generalizing binders supply drawn named with
    | var span index =>
        simp only [Term.withNames, bind_eq_ok_iff] at naming
        obtain ⟨name, found, result⟩ := naming
        cases result
        exact .var (Binders.nameAt_eq_ok_iff.mp found)
    | lam span paramType body bodyIH =>
        simp only [Term.withNames, bind_eq_ok_iff] at naming
        obtain ⟨⟨namedType, middle⟩, typeNaming, rest⟩ := naming
        rcases entered : binders.enter middle .term with ⟨name, inside, after⟩
        simp only [entered] at rest
        obtain ⟨⟨namedBody, after⟩, bodyNaming, result⟩ := rest
        cases result
        exact .lam (Ty.withNames_eq_ok_iff.mp typeNaming) entered (bodyIH bodyNaming)
    | app span function argument functionIH argumentIH =>
        simp only [Term.withNames, bind_eq_ok_iff] at naming
        obtain ⟨⟨namedFunction, middle⟩, functionNaming, ⟨namedArgument, after⟩, argumentNaming,
          result⟩ := naming
        cases result
        exact .app (functionIH functionNaming) (argumentIH argumentNaming)
    | tyLam span body bodyIH =>
        rcases entered : binders.enter supply .type with ⟨name, inside, after⟩
        simp only [Term.withNames, entered, bind_eq_ok_iff] at naming
        obtain ⟨⟨namedBody, after⟩, bodyNaming, result⟩ := naming
        cases result
        exact .tyLam entered (bodyIH bodyNaming)
    | tyApp span function argument functionIH =>
        simp only [Term.withNames, bind_eq_ok_iff] at naming
        obtain ⟨⟨namedFunction, middle⟩, functionNaming, ⟨namedArgument, after⟩, argumentNaming,
          result⟩ := naming
        cases result
        exact .tyApp (functionIH functionNaming) (Ty.withNames_eq_ok_iff.mp argumentNaming)
  · intro named
    induction named with
    | var found =>
        simp only [Term.withNames, bind_eq_ok_iff]
        exact ⟨_, Binders.nameAt_eq_ok_iff.mpr found, rfl⟩
    | lam typeNamed entered _ bodyIH =>
        simp only [Term.withNames, bind_eq_ok_iff]
        refine ⟨_, Ty.withNames_eq_ok_iff.mpr typeNamed, ?_⟩
        simp only [entered]
        exact ⟨_, bodyIH, rfl⟩
    | app _ _ functionIH argumentIH =>
        simp only [Term.withNames, bind_eq_ok_iff]
        exact ⟨_, functionIH, _, argumentIH, rfl⟩
    | tyLam entered _ bodyIH =>
        simp only [Term.withNames, entered, bind_eq_ok_iff]
        exact ⟨_, bodyIH, rfl⟩
    | tyApp _ argumentNamed functionIH =>
        simp only [Term.withNames, bind_eq_ok_iff]
        exact ⟨_, functionIH, _, Ty.withNames_eq_ok_iff.mpr argumentNamed, rfl⟩

/-- Naming a type draws names and gives none back. -/
theorem Ty.NamedBy.le {binders : Binders} {supply drawn : Supply} {ty : Ty} {named : Named.Ty}
    (naming : ty.NamedBy binders supply named drawn) : supply ≤ drawn := by
  induction naming with
  | var => exact Supply.le_refl _
  | arrow _ _ domainIH codomainIH => exact Supply.le_trans domainIH codomainIH
  | all entered _ bodyIH => exact Supply.le_trans (Binders.enter_le entered) bodyIH

/-- Naming a term draws names and gives none back. -/
theorem Term.NamedBy.le {binders : Binders} {supply drawn : Supply} {term : Term}
    {named : Named.Term} (naming : term.NamedBy binders supply named drawn) : supply ≤ drawn := by
  induction naming with
  | var => exact Supply.le_refl _
  | lam typeNamed entered _ bodyIH =>
      have upToName := Supply.le_trans typeNamed.le (Binders.enter_le entered)
      exact Supply.le_trans upToName bodyIH
  | app _ _ functionIH argumentIH => exact Supply.le_trans functionIH argumentIH
  | tyLam entered _ bodyIH => exact Supply.le_trans (Binders.enter_le entered) bodyIH
  | tyApp _ argumentNamed functionIH => exact Supply.le_trans functionIH argumentNamed.le

end Indexed

/-! ## What resolution does -/

/-- An occurrence resolves to the index at which its name is found. -/
theorem Scope.resolve_eq_ok_iff {scope : Scope} {kind : Kind} {name : String} {span : Span}
    {index : Nat} : scope.resolve kind name span = .ok index ↔
      scope.indexOf? kind name = some index := by
  unfold Scope.resolve
  cases scope.indexOf? kind name <;> simp

namespace Named

/-- The names of a type resolve, each to the newest binder around it that has the name. -/
inductive Ty.ResolvesTo : Scope → Ty → Indexed.Ty → Prop
  | var {scope span name index} (found : scope.indexOf? .type name = some index) :
      ResolvesTo scope (.var span name) (.var span index)
  | arrow {scope span domain codomain indexedDomain indexedCodomain}
      (domainResolves : ResolvesTo scope domain indexedDomain)
      (codomainResolves : ResolvesTo scope codomain indexedCodomain) :
      ResolvesTo scope (.arrow span domain codomain) (.arrow span indexedDomain indexedCodomain)
  | all {scope span param body indexedBody}
      (bodyResolves : ResolvesTo (⟨.type, param.name⟩ :: scope) body indexedBody) :
      ResolvesTo scope (.all span param body) (.all span indexedBody)

@[inherit_doc Ty.ResolvesTo]
inductive Term.ResolvesTo : Scope → Term → Indexed.Term → Prop
  | var {scope span name index} (found : scope.indexOf? .term name = some index) :
      ResolvesTo scope (.var span name) (.var span index)
  | lam {scope span param paramType body indexedType indexedBody}
      (typeResolves : paramType.ResolvesTo scope indexedType)
      (bodyResolves : ResolvesTo (⟨.term, param.name⟩ :: scope) body indexedBody) :
      ResolvesTo scope (.lam span param paramType body) (.lam span indexedType indexedBody)
  | app {scope span function argument indexedFunction indexedArgument}
      (functionResolves : ResolvesTo scope function indexedFunction)
      (argumentResolves : ResolvesTo scope argument indexedArgument) :
      ResolvesTo scope (.app span function argument) (.app span indexedFunction indexedArgument)
  | tyLam {scope span param body indexedBody}
      (bodyResolves : ResolvesTo (⟨.type, param.name⟩ :: scope) body indexedBody) :
      ResolvesTo scope (.tyLam span param body) (.tyLam span indexedBody)
  | tyApp {scope span function argument indexedFunction indexedArgument}
      (functionResolves : ResolvesTo scope function indexedFunction)
      (argumentResolves : argument.ResolvesTo scope indexedArgument) :
      ResolvesTo scope (.tyApp span function argument) (.tyApp span indexedFunction indexedArgument)

/-- Resolving a type is what the rules of resolution say. -/
theorem Ty.resolve_eq_ok_iff {scope : Scope} {named : Ty} {ty : Indexed.Ty} :
    named.resolve scope = .ok ty ↔ named.ResolvesTo scope ty := by
  constructor
  · intro resolved
    induction named generalizing scope ty with
    | var span name =>
        simp only [Ty.resolve, bind_eq_ok_iff] at resolved
        obtain ⟨index, found, result⟩ := resolved
        cases result
        exact .var (Scope.resolve_eq_ok_iff.mp found)
    | arrow span domain codomain domainIH codomainIH =>
        simp only [Ty.resolve, bind_eq_ok_iff] at resolved
        obtain ⟨_, domainResolved, _, codomainResolved, result⟩ := resolved
        cases result
        exact .arrow (domainIH domainResolved) (codomainIH codomainResolved)
    | all span param body bodyIH =>
        simp only [Ty.resolve, bind_eq_ok_iff] at resolved
        obtain ⟨_, bodyResolved, result⟩ := resolved
        cases result
        exact .all (bodyIH bodyResolved)
  · intro resolves
    induction resolves with
    | var found =>
        simp only [Ty.resolve, bind_eq_ok_iff]
        exact ⟨_, Scope.resolve_eq_ok_iff.mpr found, rfl⟩
    | arrow _ _ domainIH codomainIH =>
        simp only [Ty.resolve, bind_eq_ok_iff]
        exact ⟨_, domainIH, _, codomainIH, rfl⟩
    | all _ bodyIH =>
        simp only [Ty.resolve, bind_eq_ok_iff]
        exact ⟨_, bodyIH, rfl⟩

/-- Resolving a term is what the rules of resolution say. -/
theorem Term.resolve_eq_ok_iff {scope : Scope} {named : Term} {term : Indexed.Term} :
    named.resolve scope = .ok term ↔ named.ResolvesTo scope term := by
  constructor
  · intro resolved
    induction named generalizing scope term with
    | var span name =>
        simp only [Term.resolve, bind_eq_ok_iff] at resolved
        obtain ⟨index, found, result⟩ := resolved
        cases result
        exact .var (Scope.resolve_eq_ok_iff.mp found)
    | lam span param paramType body bodyIH =>
        simp only [Term.resolve, bind_eq_ok_iff] at resolved
        obtain ⟨_, typeResolved, _, bodyResolved, result⟩ := resolved
        cases result
        exact .lam (Ty.resolve_eq_ok_iff.mp typeResolved) (bodyIH bodyResolved)
    | app span function argument functionIH argumentIH =>
        simp only [Term.resolve, bind_eq_ok_iff] at resolved
        obtain ⟨_, functionResolved, _, argumentResolved, result⟩ := resolved
        cases result
        exact .app (functionIH functionResolved) (argumentIH argumentResolved)
    | tyLam span param body bodyIH =>
        simp only [Term.resolve, bind_eq_ok_iff] at resolved
        obtain ⟨_, bodyResolved, result⟩ := resolved
        cases result
        exact .tyLam (bodyIH bodyResolved)
    | tyApp span function argument functionIH =>
        simp only [Term.resolve, bind_eq_ok_iff] at resolved
        obtain ⟨_, functionResolved, _, argumentResolved, result⟩ := resolved
        cases result
        exact .tyApp (functionIH functionResolved) (Ty.resolve_eq_ok_iff.mp argumentResolved)
  · intro resolves
    induction resolves with
    | var found =>
        simp only [Term.resolve, bind_eq_ok_iff]
        exact ⟨_, Scope.resolve_eq_ok_iff.mpr found, rfl⟩
    | lam typeResolves _ bodyIH =>
        simp only [Term.resolve, bind_eq_ok_iff]
        exact ⟨_, Ty.resolve_eq_ok_iff.mpr typeResolves, _, bodyIH, rfl⟩
    | app _ _ functionIH argumentIH =>
        simp only [Term.resolve, bind_eq_ok_iff]
        exact ⟨_, functionIH, _, argumentIH, rfl⟩
    | tyLam _ bodyIH =>
        simp only [Term.resolve, bind_eq_ok_iff]
        exact ⟨_, bodyIH, rfl⟩
    | tyApp _ argumentResolves functionIH =>
        simp only [Term.resolve, bind_eq_ok_iff]
        exact ⟨_, functionIH, _, Ty.resolve_eq_ok_iff.mpr argumentResolves, rfl⟩

end Named

/-! ## Resolving named trees again -/

namespace Indexed

open Naming

/-- A named type resolves to the type it comes from, with each free index moved to
the newest binder of its name. -/
theorem Ty.NamedBy.resolvesTo {binders : Binders} {supply drawn : Supply} {ty : Ty}
    {named : Named.Ty} (naming : ty.NamedBy binders supply named drawn)
    (avoids : supply.Avoids binders.inner) :
    named.ResolvesTo binders.scope (ty.rename binders.scope.newest) := by
  induction naming with
  | var found => exact .var (Scope.indexOf?_newest found)
  | arrow domainNamed _ domainIH codomainIH =>
      exact .arrow (domainIH avoids) (codomainIH (avoids.later domainNamed.le))
  | all entered _ bodyIH =>
      have bodyResolves := bodyIH (Binders.enter_avoids entered avoids)
      rw [Binders.enter_scope entered,
        Scope.newest_cons (Binders.enter_fresh entered avoids)] at bodyResolves
      exact .all bodyResolves

/-- A named term resolves to the term it comes from, with each free index moved to
the newest binder of its name. -/
theorem Term.NamedBy.resolvesTo {binders : Binders} {supply drawn : Supply} {term : Term}
    {named : Named.Term} (naming : term.NamedBy binders supply named drawn)
    (avoids : supply.Avoids binders.inner) :
    named.ResolvesTo binders.scope (term.rename binders.scope.newest) := by
  induction naming with
  | var found => exact .var (Scope.indexOf?_newest found)
  | lam typeNamed entered _ bodyIH =>
      have avoidsMiddle := avoids.later typeNamed.le
      have bodyResolves := bodyIH (Binders.enter_avoids entered avoidsMiddle)
      rw [Binders.enter_scope entered,
        Scope.newest_cons (Binders.enter_fresh entered avoidsMiddle)] at bodyResolves
      exact .lam (typeNamed.resolvesTo avoids) bodyResolves
  | app functionNamed _ functionIH argumentIH =>
      exact .app (functionIH avoids) (argumentIH (avoids.later functionNamed.le))
  | tyLam entered _ bodyIH =>
      have bodyResolves := bodyIH (Binders.enter_avoids entered avoids)
      rw [Binders.enter_scope entered,
        Scope.newest_cons (Binders.enter_fresh entered avoids)] at bodyResolves
      exact .tyLam bodyResolves
  | tyApp functionNamed argumentNamed functionIH =>
      exact .tyApp (functionIH avoids) (argumentNamed.resolvesTo (avoids.later functionNamed.le))

end Indexed

namespace Named.Context

/-- A type binder of a context has the name that stands at its index. -/
theorem typeAt_eq_ok_iff {context : Context} {index : Nat} {name : String} :
    context.typeAt index = .ok name ↔ context.scope[index]? = some ⟨.type, name⟩ := by
  unfold PolyLambda.Context.typeAt PolyLambda.Context.scope
  rw [List.getElem?_map]
  cases context[index]? with
  | none => simp
  | some binding => cases binding <;> simp [PolyLambda.Binding.kind, PolyLambda.Binding.name]

/-- A type is named in a context by the rules of naming, from a fresh supply. -/
theorem nameType_eq_ok_iff {context : Context} {ty : Indexed.Ty} {named : Ty} :
    context.nameType ty = .ok named ↔
      ∃ drawn, ty.NamedBy ⟨context.scope, []⟩ .initial named drawn := by
  simp only [nameType, bind_eq_ok_iff]
  constructor
  · rintro ⟨⟨found, drawn⟩, naming, result⟩
    cases result
    exact ⟨drawn, Indexed.Ty.withNames_eq_ok_iff.mp naming⟩
  · rintro ⟨drawn, naming⟩
    exact ⟨_, Indexed.Ty.withNames_eq_ok_iff.mpr naming, rfl⟩

/-- The name of a type resolves to the type, except that shadowed binders are replaced by the
newest of their names. -/
theorem nameType_resolve {context : Context} {ty : Indexed.Ty} {named : Ty}
    (naming : context.nameType ty = .ok named) :
    named.resolve context.scope = .ok (ty.rename context.scope.newest) := by
  obtain ⟨drawn, named⟩ := nameType_eq_ok_iff.mp naming
  exact Ty.resolve_eq_ok_iff.mpr (named.resolvesTo fun _ _ _ => List.not_mem_nil)

/-- A term is named in a context by the rules of naming, from a fresh supply. -/
theorem nameTerm_eq_ok_iff {context : Context} {term : Indexed.Term} {named : Term} :
    context.nameTerm term = .ok named ↔
      ∃ drawn, term.NamedBy ⟨context.scope, []⟩ .initial named drawn := by
  simp only [nameTerm, bind_eq_ok_iff]
  constructor
  · rintro ⟨⟨found, drawn⟩, naming, result⟩
    cases result
    exact ⟨drawn, Indexed.Term.withNames_eq_ok_iff.mp naming⟩
  · rintro ⟨drawn, naming⟩
    exact ⟨_, Indexed.Term.withNames_eq_ok_iff.mpr naming, rfl⟩

/-- The name of a term resolves to the term, except that shadowed binders are replaced by the
newest of their names. -/
theorem nameTerm_resolve {context : Context} {term : Indexed.Term} {named : Term}
    (naming : context.nameTerm term = .ok named) :
    named.resolve context.scope = .ok (term.rename context.scope.newest) := by
  obtain ⟨drawn, named⟩ := nameTerm_eq_ok_iff.mp naming
  exact Term.resolve_eq_ok_iff.mpr (named.resolvesTo fun _ _ _ => List.not_mem_nil)

end Named.Context

/-! ## The scope of resolved trees -/

/-- The binders of a scope and of a context are of the same kinds. -/
def Scope.Describes (scope : Scope) (context : Indexed.Context) : Prop :=
  scope.map Binder.kind = context.map Binding.kind

namespace Scope.Describes

variable {scope : Scope} {context : Indexed.Context} {index : Nat}

/-- A scope and the context that it describes have binders of the same kinds. -/
theorem kindAt (describes : scope.Describes context) (index : Nat) :
    scope[index]?.map Binder.kind = context[index]?.map Binding.kind := by
  rw [← List.getElem?_map, describes, List.getElem?_map]

/-- An index denotes a type binder exactly if the scope has a name of a type there. -/
theorem bindsType_iff (describes : scope.Describes context) :
    context.BindsType index ↔ ∃ name, scope[index]? = some ⟨.type, name⟩ := by
  have kinds := describes.kindAt index
  constructor
  · intro bound
    rw [bound] at kinds
    obtain ⟨⟨kind, name⟩, found, rfl⟩ := Option.map_eq_some_iff.mp kinds
    exact ⟨name, found⟩
  · rintro ⟨name, found⟩
    rw [found] at kinds
    obtain ⟨binding, bound, isType⟩ := Option.map_eq_some_iff.mp kinds.symm
    cases binding with
    | type => exact bound
    | term => cases isType

/-- Where the scope has the name of a term the context records its type. -/
theorem termType?_isSome (describes : scope.Describes context) {name : String}
    (found : scope[index]? = some ⟨.term, name⟩) : (context.termType? index).isSome := by
  have kinds := describes.kindAt index
  rw [found] at kinds
  obtain ⟨binding, bound, isTerm⟩ := Option.map_eq_some_iff.mp kinds.symm
  cases binding with
  | type => cases isTerm
  | term => simp [Indexed.Context.termType?, bound]

/-- A type binder added to both keeps a scope describing a context. -/
theorem pushType (describes : scope.Describes context) (name : String) :
    Describes (⟨.type, name⟩ :: scope) context.pushType :=
  congrArg (Kind.type :: ·) describes

/-- A term binder added to both keeps a scope describing a context. -/
theorem pushTerm (describes : scope.Describes context) (name : String) (ty : Indexed.Ty) :
    Describes (⟨.term, name⟩ :: scope) (context.pushTerm ty) :=
  congrArg (Kind.term :: ·) describes

end Scope.Describes

namespace Named

/-- What a type resolves to by the rules is in scope. -/
theorem Ty.ResolvesTo.inScope {scope : Scope} {context : Indexed.Context} {named : Ty}
    {ty : Indexed.Ty} (resolves : named.ResolvesTo scope ty) (describes : scope.Describes context) :
    ty.InScope context := by
  induction resolves generalizing context with
  | var found => exact describes.bindsType_iff.mpr ⟨_, Scope.getElem?_of_indexOf? found⟩
  | arrow _ _ domainIH codomainIH => exact ⟨domainIH describes, codomainIH describes⟩
  | all _ bodyIH =>
      have bodyInScope := bodyIH (describes.pushType _)
      exact bodyInScope

/-- What a term resolves to by the rules is in scope. -/
theorem Term.ResolvesTo.inScope {scope : Scope} {context : Indexed.Context} {named : Term}
    {term : Indexed.Term} (resolves : named.ResolvesTo scope term)
    (describes : scope.Describes context) : term.InScope context := by
  induction resolves generalizing context with
  | var found => exact describes.termType?_isSome (Scope.getElem?_of_indexOf? found)
  | lam typeResolves _ bodyIH =>
      exact ⟨typeResolves.inScope describes, bodyIH (describes.pushTerm _ _)⟩
  | app _ _ functionIH argumentIH => exact ⟨functionIH describes, argumentIH describes⟩
  | tyLam _ bodyIH =>
      have bodyInScope := bodyIH (describes.pushType _)
      exact bodyInScope
  | tyApp _ argumentResolves functionIH =>
      exact ⟨functionIH describes, argumentResolves.inScope describes⟩

/-- What a type resolves to is in scope. -/
theorem Ty.resolve_inScope {scope : Scope} {context : Indexed.Context} {named : Ty}
    {ty : Indexed.Ty} (resolved : named.resolve scope = .ok ty)
    (describes : scope.Describes context) : ty.InScope context :=
  (Ty.resolve_eq_ok_iff.mp resolved).inScope describes

/-- What a term resolves to is in scope. -/
theorem Term.resolve_inScope {scope : Scope} {context : Indexed.Context} {named : Term}
    {term : Indexed.Term} (resolved : named.resolve scope = .ok term)
    (describes : scope.Describes context) : term.InScope context :=
  (Term.resolve_eq_ok_iff.mp resolved).inScope describes

/-! ## Resolved contexts -/

/-- A definition resolves if there is none or if the one that there is does. -/
theorem resolveDefinition_eq_ok_iff {scope : Scope} {named : Option Term}
    {definition : Option Indexed.Term} :
    resolveDefinition scope named = .ok definition ↔
      named = none ∧ definition = none ∨
        ∃ term resolved, named = some term ∧ term.resolve scope = .ok resolved ∧
          definition = some resolved := by
  cases named with
  | none => simp [resolveDefinition, eq_comm]
  | some term =>
      simp only [resolveDefinition, bind_eq_ok_iff]
      constructor
      · rintro ⟨resolved, resolves, result⟩
        cases result
        exact .inr ⟨term, resolved, rfl, resolves, rfl⟩
      · rintro (⟨impossible, _⟩ | ⟨_, resolved, ⟨⟩, resolves, rfl⟩)
        · cases impossible
        · exact ⟨resolved, resolves, rfl⟩

namespace Context

/-- A context with a newest type resolves exactly if the rest does. -/
theorem resolve_type_eq_ok_iff {name : String} {rest : Context} {indexed : Indexed.Context} :
    Context.resolve (.type name :: rest) = .ok indexed ↔
      ∃ below, Context.resolve rest = .ok below ∧ indexed = .type () :: below := by
  simp only [Context.resolve, bind_eq_ok_iff]
  constructor
  · rintro ⟨below, resolved, binding, typeBinding, result⟩
    cases typeBinding
    cases result
    exact ⟨below, resolved, rfl⟩
  · rintro ⟨below, resolved, rfl⟩
    exact ⟨below, resolved, _, rfl, rfl⟩

/-- A context with a newest term resolves exactly if the rest does, and what is recorded of the
term does against the rest. -/
theorem resolve_term_eq_ok_iff {entry : TermEntry String Ty Term} {rest : Context}
    {indexed : Indexed.Context} :
    Context.resolve (.term entry :: rest) = .ok indexed ↔
      ∃ below ty definition, Context.resolve rest = .ok below ∧
        entry.ty.resolve (Context.scope rest) = .ok ty ∧
        resolveDefinition (Context.scope rest) entry.definition = .ok definition ∧
        indexed = .term ⟨(), ty, definition⟩ :: below := by
  simp only [Context.resolve, Binding.resolve, bind_eq_ok_iff]
  constructor
  · rintro ⟨below, resolved, binding, ⟨ty, typeResolved, definition, definitionResolved, result⟩,
      final⟩
    cases result
    cases final
    exact ⟨below, ty, definition, resolved, typeResolved, definitionResolved, rfl⟩
  · rintro ⟨below, ty, definition, resolved, typeResolved, definitionResolved, rfl⟩
    exact ⟨below, resolved, _, ⟨ty, typeResolved, definition, definitionResolved, rfl⟩, rfl⟩

/-- The scope of a context describes what the context resolves to. -/
theorem resolve_describes {context : Context} {indexed : Indexed.Context}
    (resolved : Context.resolve context = .ok indexed) :
    (Context.scope context).Describes indexed := by
  induction context generalizing indexed with
  | nil =>
      cases resolved
      rfl
  | cons binding rest restIH =>
      cases binding with
      | type name =>
          obtain ⟨below, belowResolved, rfl⟩ := resolve_type_eq_ok_iff.mp resolved
          exact (restIH belowResolved).pushType name
      | term entry =>
          obtain ⟨below, ty, _, belowResolved, _, _, rfl⟩ := resolve_term_eq_ok_iff.mp resolved
          exact (restIH belowResolved).pushTerm entry.name ty

/-- What a resolved context records is in the scope of what stands below it. -/
theorem resolve_scoped {context : Context} {indexed : Indexed.Context}
    (resolved : Context.resolve context = .ok indexed) : indexed.Scoped := by
  induction context generalizing indexed with
  | nil =>
      cases resolved
      trivial
  | cons binding rest restIH =>
      cases binding with
      | type name =>
          obtain ⟨below, belowResolved, rfl⟩ := resolve_type_eq_ok_iff.mp resolved
          have belowScoped := restIH belowResolved
          exact belowScoped
      | term entry =>
          obtain ⟨below, ty, definition, belowResolved, typeResolved, definitionResolved, rfl⟩ :=
            resolve_term_eq_ok_iff.mp resolved
          have describes := resolve_describes belowResolved
          refine ⟨Ty.resolve_inScope typeResolved describes, ?_, restIH belowResolved⟩
          rcases resolveDefinition_eq_ok_iff.mp definitionResolved with
            ⟨_, rfl⟩ | ⟨term, found, _, termResolved, rfl⟩
          · nofun
          · rintro _ ⟨⟩
            exact Term.resolve_inScope termResolved describes

end Context

end Named

end PolyLambda
