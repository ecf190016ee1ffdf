import PolyLambda.Proofs.NameStability

/-!
# Hygiene of naming

Every binder of a tree draws its name from one supply, wherever in the tree it stands, and
what has been drawn is never drawn again. Hence no two binders of one kind share a name,
in neighbouring parts of the tree either, and none has a name of the context. Naming keeps
everything else of the tree, and it fails only where an index denotes no binder of its kind.
-/

namespace PolyLambda

/-- Some binders have names of their own: of one kind, their names differ from each other
and from those of the scope. -/
def Scope.Hygienic (scope binders : Scope) : Prop :=
  ∀ kind, (binders.names kind).Nodup ∧ ∀ name ∈ binders.names kind, name ∉ scope.names kind

/-! ## Drawing names -/

namespace Naming

/-- Binders draw their names one after another, whatever their kinds, and pass over the
names of a scope. The supply is left past all that was drawn. -/
structure Supply.Draws (supply : Supply) (taken binders : Scope) (drawn : Supply) : Prop where
  before : supply ≤ drawn
  distinct : binders.Nodup
  fresh : ∀ binder ∈ binders, binder ∉ taken
  passed : ∀ binder ∈ binders, ∃ id, binder.name = generatedName binder.kind id ∧
    supply.next binder.kind ≤ id ∧ id < drawn.next binder.kind

namespace Supply.Draws

variable {supply middle drawn : Supply} {taken binders others : Scope}

/-- Nothing is drawn for no binders. -/
theorem nil (supply : Supply) (taken : Scope) : supply.Draws taken [] supply where
  before := supply.le_refl
  distinct := List.nodup_nil
  fresh := List.forall_mem_nil _
  passed := List.forall_mem_nil _

/-- Entering a binder draws its name. -/
theorem single {around inside : Binders} {kind : Kind} {name : String}
    (entered : around.enter supply kind = (name, inside, drawn)) :
    supply.Draws around.ambient [⟨kind, name⟩] drawn := by
  obtain ⟨draw, _⟩ := Binders.enter_eq_iff.mp entered
  obtain ⟨id, rfl, notTaken, start, passed, before⟩ := Supply.draw_spec draw
  refine ⟨before, List.nodup_singleton _, ?_, ?_⟩
  · rw [List.forall_mem_singleton]
    intro member
    exact notTaken (Scope.mem_names_iff.mpr member)
  · rw [List.forall_mem_singleton]
    exact ⟨id, rfl, start, passed ▸ Nat.lt_succ_self id⟩

/-- What is drawn later differs from what was drawn before. -/
theorem append (first : supply.Draws taken binders middle)
    (second : middle.Draws taken others drawn) : supply.Draws taken (binders ++ others) drawn where
  before := Supply.le_trans first.before second.before
  distinct := by
    refine List.nodup_append.mpr ⟨first.distinct, second.distinct, ?_⟩
    rintro binder early _ late rfl
    obtain ⟨id, named, _, passed⟩ := first.passed binder early
    obtain ⟨later, sameNamed, start, _⟩ := second.passed binder late
    have sameId : id = later := generatedName_injective binder.kind (named.symm.trans sameNamed)
    omega
  fresh := List.forall_mem_append.mpr ⟨first.fresh, second.fresh⟩
  passed := by
    refine List.forall_mem_append.mpr ⟨?_, ?_⟩
    · intro binder member
      obtain ⟨id, named, start, passed⟩ := first.passed binder member
      exact ⟨id, named, start, Nat.lt_of_lt_of_le passed (second.before binder.kind)⟩
    · intro binder member
      obtain ⟨id, named, start, passed⟩ := second.passed binder member
      exact ⟨id, named, Nat.le_trans (first.before binder.kind) start, passed⟩

/-- Names that are drawn differ from each other and from those that were taken. -/
theorem hygienic (draws : supply.Draws taken binders drawn) : taken.Hygienic binders := by
  intro kind
  refine ⟨Scope.names_nodup draws.distinct kind, ?_⟩
  intro name member takenToo
  exact draws.fresh _ (Scope.mem_names_iff.mp member) (Scope.mem_names_iff.mp takenToo)

end Supply.Draws

end Naming

/-! ## The binders of a named tree -/

namespace Named

/-- The binders of a type, from left to right. -/
def Ty.binders : Ty → Scope
  | .var _ _ => []
  | .arrow _ domain codomain => domain.binders ++ codomain.binders
  | .all _ param body => ⟨.type, param.name⟩ :: body.binders

/-- The binders of a term, those of a parameter's type in front of the parameter. -/
def Term.binders : Term → Scope
  | .var _ _ => []
  | .lam _ param paramType body => paramType.binders ++ ⟨.term, param.name⟩ :: body.binders
  | .app _ function argument => function.binders ++ argument.binders
  | .tyLam _ param body => ⟨.type, param.name⟩ :: body.binders
  | .tyApp _ function argument => function.binders ++ argument.binders

end Named

namespace Indexed

open Naming

/-- The binders of a named type are drawn from the supply. -/
theorem Ty.NamedBy.draws {around : Binders} {supply drawn : Supply} {ty : Ty} {named : Named.Ty}
    (naming : ty.NamedBy around supply named drawn) :
    supply.Draws around.ambient named.binders drawn := by
  induction naming with
  | var => exact .nil _ _
  | arrow _ _ domainIH codomainIH => exact domainIH.append codomainIH
  | all entered _ bodyIH =>
      have own := Supply.Draws.single entered
      obtain ⟨_, rfl⟩ := Binders.enter_eq_iff.mp entered
      exact own.append bodyIH

/-- The binders of a named term are drawn from the supply. -/
theorem Term.NamedBy.draws {around : Binders} {supply drawn : Supply} {term : Term}
    {named : Named.Term} (naming : term.NamedBy around supply named drawn) :
    supply.Draws around.ambient named.binders drawn := by
  induction naming with
  | var => exact .nil _ _
  | lam typeNamed entered _ bodyIH =>
      have own := Supply.Draws.single entered
      obtain ⟨_, rfl⟩ := Binders.enter_eq_iff.mp entered
      exact typeNamed.draws.append (own.append bodyIH)
  | app _ _ functionIH argumentIH => exact functionIH.append argumentIH
  | tyLam entered _ bodyIH =>
      have own := Supply.Draws.single entered
      obtain ⟨_, rfl⟩ := Binders.enter_eq_iff.mp entered
      exact own.append bodyIH
  | tyApp _ argumentNamed functionIH => exact functionIH.append argumentNamed.draws

/-! ## What naming keeps -/

/-- A named type has the shape and the spans of an indexed one, parameters the spans of
their binders, and each variable has the name of the binder that its index denotes. -/
inductive Ty.SpelledIn : Scope → Ty → Named.Ty → Prop
  | var {scope span index name} (found : scope[index]? = some ⟨.type, name⟩) :
      SpelledIn scope (.var span index) (.var span name)
  | arrow {scope span domain codomain namedDomain namedCodomain}
      (domainSpelled : SpelledIn scope domain namedDomain)
      (codomainSpelled : SpelledIn scope codomain namedCodomain) :
      SpelledIn scope (.arrow span domain codomain) (.arrow span namedDomain namedCodomain)
  | all {scope span body name namedBody}
      (bodySpelled : SpelledIn (⟨.type, name⟩ :: scope) body namedBody) :
      SpelledIn scope (.all span body) (.all span ⟨span, name⟩ namedBody)

/-- A named term has the shape and the spans of an indexed one, parameters the spans of
their binders, and each variable has the name of the binder that its index denotes. -/
inductive Term.SpelledIn : Scope → Term → Named.Term → Prop
  | var {scope span index name} (found : scope[index]? = some ⟨.term, name⟩) :
      SpelledIn scope (.var span index) (.var span name)
  | lam {scope span paramType body name namedType namedBody}
      (typeSpelled : paramType.SpelledIn scope namedType)
      (bodySpelled : SpelledIn (⟨.term, name⟩ :: scope) body namedBody) :
      SpelledIn scope (.lam span paramType body) (.lam span ⟨span, name⟩ namedType namedBody)
  | app {scope span function argument namedFunction namedArgument}
      (functionSpelled : SpelledIn scope function namedFunction)
      (argumentSpelled : SpelledIn scope argument namedArgument) :
      SpelledIn scope (.app span function argument) (.app span namedFunction namedArgument)
  | tyLam {scope span body name namedBody}
      (bodySpelled : SpelledIn (⟨.type, name⟩ :: scope) body namedBody) :
      SpelledIn scope (.tyLam span body) (.tyLam span ⟨span, name⟩ namedBody)
  | tyApp {scope span function argument namedFunction namedArgument}
      (functionSpelled : SpelledIn scope function namedFunction)
      (argumentSpelled : argument.SpelledIn scope namedArgument) :
      SpelledIn scope (.tyApp span function argument) (.tyApp span namedFunction namedArgument)

/-- A named type is spelled in the scope. -/
theorem Ty.NamedBy.spelled {around : Binders} {supply drawn : Supply} {ty : Ty} {named : Named.Ty}
    (naming : ty.NamedBy around supply named drawn) : ty.SpelledIn around.scope named := by
  induction naming with
  | var found => exact .var found
  | arrow _ _ domainIH codomainIH => exact .arrow domainIH codomainIH
  | all entered _ bodyIH =>
      rw [Binders.enter_scope entered] at bodyIH
      exact .all bodyIH

/-- A named term is spelled in the scope. -/
theorem Term.NamedBy.spelled {around : Binders} {supply drawn : Supply} {term : Term}
    {named : Named.Term} (naming : term.NamedBy around supply named drawn) :
    term.SpelledIn around.scope named := by
  induction naming with
  | var found => exact .var found
  | lam typeNamed entered _ bodyIH =>
      rw [Binders.enter_scope entered] at bodyIH
      exact .lam typeNamed.spelled bodyIH
  | app _ _ functionIH argumentIH => exact .app functionIH argumentIH
  | tyLam entered _ bodyIH =>
      rw [Binders.enter_scope entered] at bodyIH
      exact .tyLam bodyIH
  | tyApp _ argumentNamed functionIH => exact .tyApp functionIH argumentNamed.spelled

/-! ## What naming asks for -/

/-- Every index of a type denotes a type binder, by its position among the binders around
it, whose kinds are given, the innermost one first. -/
def Ty.Denotes (kinds : List Kind) : Ty → Prop
  | .var _ index => kinds[index]? = some .type
  | .arrow _ domain codomain => domain.Denotes kinds ∧ codomain.Denotes kinds
  | .all _ body => body.Denotes (.type :: kinds)

/-- Every index of a term denotes a binder of its own kind, by its position among the
binders around it, whose kinds are given, the innermost one first. -/
def Term.Denotes (kinds : List Kind) : Term → Prop
  | .var _ index => kinds[index]? = some .term
  | .lam _ paramType body => paramType.Denotes kinds ∧ body.Denotes (.term :: kinds)
  | .app _ function argument => function.Denotes kinds ∧ argument.Denotes kinds
  | .tyLam _ body => body.Denotes (.type :: kinds)
  | .tyApp _ function argument => function.Denotes kinds ∧ argument.Denotes kinds

/-- Only a type whose indices denote types is spelled. -/
theorem Ty.SpelledIn.denotes {scope : Scope} {ty : Ty} {named : Named.Ty}
    (spelled : ty.SpelledIn scope named) : ty.Denotes (scope.map Binder.kind) := by
  induction spelled with
  | var found => simp [Ty.Denotes, found]
  | arrow _ _ domainIH codomainIH => exact ⟨domainIH, codomainIH⟩
  | all _ bodyIH => exact bodyIH

/-- Only a term whose indices denote binders of their kinds is spelled. -/
theorem Term.SpelledIn.denotes {scope : Scope} {term : Term} {named : Named.Term}
    (spelled : term.SpelledIn scope named) : term.Denotes (scope.map Binder.kind) := by
  induction spelled with
  | var found => simp [Term.Denotes, found]
  | lam typeSpelled _ bodyIH => exact ⟨typeSpelled.denotes, bodyIH⟩
  | app _ _ functionIH argumentIH => exact ⟨functionIH, argumentIH⟩
  | tyLam _ bodyIH => exact bodyIH
  | tyApp _ argumentSpelled functionIH => exact ⟨functionIH, argumentSpelled.denotes⟩

/-- Only the kinds of the binders decide what is in scope. -/
theorem Ty.Denotes.inScope {context : Context} {ty : Ty}
    (denotes : ty.Denotes (context.map Binding.kind)) : ty.InScope context := by
  induction ty generalizing context with
  | var span index =>
      rw [Ty.Denotes, List.getElem?_map, Option.map_eq_some_iff] at denotes
      obtain ⟨binding, found, isType⟩ := denotes
      cases binding with
      | type => exact found
      | term => cases isType
  | arrow span domain codomain domainIH codomainIH =>
      exact ⟨domainIH denotes.1, codomainIH denotes.2⟩
  | all span body bodyIH =>
      have bodyInScope : body.InScope context.pushType := bodyIH denotes
      exact bodyInScope

@[inherit_doc Ty.Denotes.inScope]
theorem Term.Denotes.inScope {context : Context} {term : Term}
    (denotes : term.Denotes (context.map Binding.kind)) : term.InScope context := by
  induction term generalizing context with
  | var span index =>
      rw [Term.Denotes, List.getElem?_map, Option.map_eq_some_iff] at denotes
      obtain ⟨binding, found, isTerm⟩ := denotes
      cases binding with
      | type => cases isTerm
      | term entry =>
          have lookup : context.lookupTerm span index = .ok entry :=
            Context.lookupTerm_eq_ok_iff.mpr found
          exact (context.termType?_isSome_iff span index).mpr ⟨entry, lookup⟩
  | lam span paramType body bodyIH =>
      have bodyInScope : body.InScope (context.pushTerm paramType) := bodyIH denotes.2
      exact ⟨denotes.1.inScope, bodyInScope⟩
  | app span function argument functionIH argumentIH =>
      exact ⟨functionIH denotes.1, argumentIH denotes.2⟩
  | tyLam span body bodyIH =>
      have bodyInScope : body.InScope context.pushType := bodyIH denotes
      exact bodyInScope
  | tyApp span function argument functionIH => exact ⟨functionIH denotes.1, denotes.2.inScope⟩

end Indexed

/-! ## Naming in a context -/

namespace Named.Context

variable {context : Context}

/-- The scope of a context has the kinds of its bindings. -/
theorem kinds_scope (context : Context) :
    context.scope.map Binder.kind = context.map PolyLambda.Binding.kind := by
  rw [PolyLambda.Context.scope, List.map_map]
  rfl

/-- A type has names exactly if its indices denote types. -/
theorem exists_nameType_iff {ty : Indexed.Ty} :
    (∃ named, context.nameType ty = .ok named) ↔
      ty.Denotes (context.map PolyLambda.Binding.kind) := by
  rw [← kinds_scope]
  constructor
  · rintro ⟨named, naming⟩
    obtain ⟨_, namedBy⟩ := nameType_eq_ok_iff.mp naming
    exact namedBy.spelled.denotes
  · intro denotes
    obtain ⟨indexed, describes⟩ := context.scope.exists_describes
    rw [describes] at denotes
    exact nameType_of_inScope describes denotes.inScope

/-- A term has names exactly if its indices denote binders of their kinds. -/
theorem exists_nameTerm_iff {term : Indexed.Term} :
    (∃ named, context.nameTerm term = .ok named) ↔
      term.Denotes (context.map PolyLambda.Binding.kind) := by
  rw [← kinds_scope]
  constructor
  · rintro ⟨named, naming⟩
    obtain ⟨_, namedBy⟩ := nameTerm_eq_ok_iff.mp naming
    exact namedBy.spelled.denotes
  · intro denotes
    obtain ⟨indexed, describes⟩ := context.scope.exists_describes
    rw [describes] at denotes
    exact nameTerm_of_inScope describes denotes.inScope

/-- A tree is named exactly if each of its indices denotes a binder of its own kind, and
then its binders have names of their own, all over the tree, while its shape and its spans
stay as they are. -/
theorem naming_total_and_hygienic (context : Context) :
    (∀ ty : Indexed.Ty,
      ((∃ named, context.nameType ty = .ok named) ↔
        ty.Denotes (context.map PolyLambda.Binding.kind)) ∧
      ∀ named, context.nameType ty = .ok named →
        context.scope.Hygienic named.binders ∧ ty.SpelledIn context.scope named) ∧
    ∀ term : Indexed.Term,
      ((∃ named, context.nameTerm term = .ok named) ↔
        term.Denotes (context.map PolyLambda.Binding.kind)) ∧
      ∀ named, context.nameTerm term = .ok named →
        context.scope.Hygienic named.binders ∧ term.SpelledIn context.scope named := by
  constructor
  · intro ty
    refine ⟨exists_nameType_iff, ?_⟩
    intro named naming
    obtain ⟨_, namedBy⟩ := nameType_eq_ok_iff.mp naming
    exact ⟨namedBy.draws.hygienic, namedBy.spelled⟩
  · intro term
    refine ⟨exists_nameTerm_iff, ?_⟩
    intro named naming
    obtain ⟨_, namedBy⟩ := nameTerm_eq_ok_iff.mp naming
    exact ⟨namedBy.draws.hygienic, namedBy.spelled⟩

/-- A function on a quantified type next to a type abstraction that holds another such
function. -/
def neighbours : Indexed.Term :=
  .app ⟨0, 40⟩
    (.lam ⟨1, 15⟩ (.all ⟨4, 8⟩ (.var ⟨6, 7⟩ 3)) (.var ⟨10, 11⟩ 0))
    (.tyLam ⟨20, 39⟩ (.lam ⟨25, 38⟩ (.all ⟨28, 32⟩ (.var ⟨30, 31⟩ 1)) (.var ⟨34, 35⟩ 3)))

/-- The names `A` and `a` are taken, and no name is used twice. A term that uses a type
binder as a term has no name. -/
theorem naming_total_and_hygienic_neighbours :
    (∃ named, hidingContext.nameTerm neighbours = .ok named ∧
      named.binders = [⟨.type, "B"⟩, ⟨.term, "b"⟩, ⟨.type, "C"⟩, ⟨.type, "D"⟩, ⟨.term, "c"⟩] ∧
      hidingContext.scope.Hygienic named.binders ∧ neighbours.SpelledIn hidingContext.scope named) ∧
    ¬ ∃ named, hidingContext.nameTerm (.tyLam ⟨0, 9⟩ (.var ⟨8, 9⟩ 0)) = .ok named := by
  obtain ⟨_, terms⟩ := naming_total_and_hygienic hidingContext
  have binders : (hidingContext.nameTerm neighbours).toOption.map Term.binders =
      some [⟨.type, "B"⟩, ⟨.term, "b"⟩, ⟨.type, "C"⟩, ⟨.type, "D"⟩, ⟨.term, "c"⟩] := by
    decide +kernel
  constructor
  · obtain ⟨named, naming⟩ := (terms neighbours).1.mpr ⟨⟨rfl, rfl⟩, ⟨rfl, rfl⟩⟩
    rw [naming] at binders
    exact ⟨named, naming, Option.some.inj binders, (terms neighbours).2 named naming⟩
  · rw [(terms _).1]
    intro denotes
    cases denotes

end Named.Context

end PolyLambda
