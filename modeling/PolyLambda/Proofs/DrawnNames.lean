import Mathlib.Data.Nat.Count
import PolyLambda.Proofs.BoundRenaming
import PolyLambda.Proofs.Lexing

/-!
# Which generated names are drawn

Naming a tree draws the free generated names one after another, and passes over none.
Those of types can all be read back as names, while one of term parameters is spelled
`fun`, like a keyword. So the names of a tree can be read back exactly as long as its
parameters do not use up the free names in front of that one.
-/

namespace PolyLambda

namespace Naming

open Grammar

/-! ## The spelling of generated names -/

/-- The letters of generated names. -/
def alphabet (kind : Kind) : List Char :=
  (List.range 26).map (letter kind)

/-- Generated names of a kind are made of the letters of the kind. -/
theorem generatedName_subset (kind : Kind) (id : Nat) :
    (generatedName kind id).toList ⊆ alphabet kind := by
  intro char member
  rw [generatedName, String.toList_ofList, List.mem_map] at member
  obtain ⟨digit, isDigit, rfl⟩ := member
  exact List.mem_map_of_mem (List.mem_range.mpr (numeral_lt isDigit))

/-- The letters of generated names can stand anywhere in a name. -/
theorem alphabet_letters {kind : Kind} {char : Char} (member : char ∈ alphabet kind) :
    isNameStart char = true ∧ isNameRest char = true := by
  have letters : (alphabet kind).all (fun char => isNameStart char && isNameRest char) = true := by
    cases kind <;> decide
  rw [← Bool.and_eq_true]
  exact List.all_eq_true.mp letters char member

/-- A numeral has a digit. -/
theorem numeral_ne_nil (id : Nat) : numeral id ≠ [] := by
  rw [numeral]
  split <;> simp

/-- A generated name is a word. -/
theorem isWord_generatedName (kind : Kind) (id : Nat) : IsWord (generatedName kind id) := by
  have letters : ∀ char ∈ (generatedName kind id).toList,
      isNameStart char = true ∧ isNameRest char = true :=
    fun char member => alphabet_letters (generatedName_subset kind id member)
  cases chars : (generatedName kind id).toList with
  | nil =>
      rw [generatedName, String.toList_ofList, List.map_eq_nil_iff] at chars
      exact absurd chars (numeral_ne_nil id)
  | cons first more =>
      rw [chars, List.forall_mem_cons] at letters
      unfold IsWord
      rw [chars]
      refine ⟨by simpa using letters.1.1, ?_⟩
      simp only [List.tail_cons, List.all_eq_true]
      exact fun char member => (letters.2 char member).2

/-- No symbol is spelled in capital letters. -/
theorem not_capital_symbol :
    ∀ fixed ∈ Symbol.all, ¬ fixed.text.toList ⊆ alphabet .type := by
  decide +kernel

/-- Two keywords are spelled in small letters. -/
theorem small_symbol :
    ∀ fixed ∈ Symbol.all, fixed.text.toList ⊆ alphabet .term →
      fixed = .funWord ∨ fixed = .forallWord := by
  decide +kernel

/-- A generated name of a type is no keyword. -/
theorem isName_generatedName_type (id : Nat) : IsName (generatedName .type id) := by
  refine ⟨isWord_generatedName .type id, ?_⟩
  intro fixed member spelled
  apply not_capital_symbol fixed member
  rw [spelled]
  exact generatedName_subset .type id

/-- The number whose generated name of a term parameter is the keyword `fun`. -/
def funId : Nat := 4615

/-- One generated name of a term parameter is a keyword. -/
theorem generatedName_funId : generatedName .term funId = "fun" := by
  have digits : numeral funId = [5, 20, 13] := by
    simp [funId, numeral]
  rw [generatedName, digits]
  decide

/-- The generated names of term parameters in front of `fun` are no keywords. -/
theorem isName_generatedName_term {id : Nat} (below : id < funId) :
    IsName (generatedName .term id) := by
  refine ⟨isWord_generatedName .term id, ?_⟩
  intro fixed member spelled
  have value := congrArg (nameValue .term) spelled
  rw [nameValue_generatedName] at value
  have small : fixed.text.toList ⊆ alphabet .term := by
    rw [spelled]
    exact generatedName_subset .term id
  unfold funId at below
  rcases small_symbol fixed member small with rfl | rfl
  · have known : nameValue .term Symbol.funWord.text = 4616 := by decide +kernel
    omega
  · have known : 4616 ≤ nameValue .term Symbol.forallWord.text := by decide +kernel
    omega

/-! ## Counting free names -/

/-- How many generated names of term parameters in front of a number are not taken. -/
def freeBelow (taken : List String) (id : Nat) : Nat :=
  Nat.count (fun id => generatedName .term id ∉ taken) id

/-- A name that is free counts. -/
theorem freeBelow_succ {taken : List String} {id : Nat} (free : generatedName .term id ∉ taken) :
    freeBelow taken (id + 1) = freeBelow taken id + 1 := by
  rw [freeBelow, Nat.count_succ, if_pos free]
  rfl

/-- The count of free names grows. -/
theorem freeBelow_mono (taken : List String) {first second : Nat} (le : first ≤ second) :
    freeBelow taken first ≤ freeBelow taken second :=
  Nat.count_monotone _ le

/-- Names that are taken do not count. -/
theorem freeBelow_eq_of_taken {taken : List String} {start stop : Nat} (le : start ≤ stop)
    (allTaken : ∀ id, start ≤ id → id < stop → generatedName .term id ∈ taken) :
    freeBelow taken stop = freeBelow taken start := by
  induction stop, le using Nat.le_induction with
  | base => rfl
  | succ stop le stopIH =>
      have last := allTaken stop le (Nat.lt_succ_self stop)
      rw [← stopIH fun id enough below => allTaken id enough (Nat.lt_succ_of_lt below)]
      rw [freeBelow, Nat.count_succ, if_neg (not_not_intro last), Nat.add_zero]
      rfl

/-- A term parameter draws the first free name, and the names in front of it are taken. -/
theorem Binders.enter_term {binders inside : Binders} {supply drawn : Supply} {name : String}
    (entered : binders.enter supply .term = (name, inside, drawn)) :
    ∃ id, name = generatedName .term id ∧ supply.next .term ≤ id ∧ drawn.next .term = id + 1 ∧
      generatedName .term id ∉ binders.ambient.names .term ∧
      ∀ earlier, supply.next .term ≤ earlier → earlier < id →
        generatedName .term earlier ∈ binders.ambient.names .term := by
  obtain ⟨draw, _⟩ := Binders.enter_eq_iff.mp entered
  have drawnName := supply.draw_name .term (binders.ambient.names .term)
  have drawnNext := supply.draw_next .term (binders.ambient.names .term)
  rw [draw] at drawnName drawnNext
  obtain ⟨start, notTaken⟩ := freshId_spec (binders.ambient.names .term) .term (supply.next .term)
  exact ⟨_, drawnName, start, drawnNext, notTaken, fun _ => freshId_least⟩

/-- Entering a type binder draws a name of types and leaves the names of terms to be drawn. -/
theorem Binders.enter_type {binders inside : Binders} {supply drawn : Supply} {name : String}
    (entered : binders.enter supply .type = (name, inside, drawn)) :
    (∃ id, name = generatedName .type id) ∧ drawn.next .term = supply.next .term := by
  obtain ⟨draw, _⟩ := Binders.enter_eq_iff.mp entered
  have drawnName := supply.draw_name .type (binders.ambient.names .type)
  have unchanged := supply.draw_next_of_ne (binders.ambient.names .type)
    (show Kind.term ≠ Kind.type by decide)
  rw [draw] at drawnName unchanged
  exact ⟨⟨_, drawnName⟩, unchanged⟩

/-- What is in scope inside of a binder is the binder or was in scope before. -/
theorem Binders.mem_enter_scope {binders inside : Binders} {supply drawn : Supply} {kind : Kind}
    {name : String} (entered : binders.enter supply kind = (name, inside, drawn)) {binder : Binder}
    (member : binder ∈ inside.scope) : binder = ⟨kind, name⟩ ∨ binder ∈ binders.scope := by
  rw [Binders.enter_scope entered] at member
  exact List.mem_cons.mp member

/-- Entering a binder leaves the scope around the tree as it is. -/
theorem Binders.enter_ambient {binders inside : Binders} {supply drawn : Supply} {kind : Kind}
    {name : String} (entered : binders.enter supply kind = (name, inside, drawn)) :
    inside.ambient = binders.ambient := by
  obtain ⟨_, rfl⟩ := Binders.enter_eq_iff.mp entered
  rfl

end Naming

/-! ## The names of a tree -/

/-- How many parameters the abstractions of a term have. Type parameters do not count. -/
def Named.Term.paramCount : Named.Term → Nat
  | .var _ _ => 0
  | .lam _ _ _ body => body.paramCount + 1
  | .app _ function argument => function.paramCount + argument.paramCount
  | .tyLam _ _ body => body.paramCount
  | .tyApp _ function _ => function.paramCount

@[inherit_doc Named.Term.paramCount]
def Indexed.Term.paramCount : Indexed.Term → Nat
  | .var _ _ => 0
  | .lam _ _ body => body.paramCount + 1
  | .app _ function argument => function.paramCount + argument.paramCount
  | .tyLam _ body => body.paramCount
  | .tyApp _ function _ => function.paramCount

namespace Indexed

open Naming

variable {binders : Binders} {supply drawn : Supply}

/-- Naming a type draws no names of terms. -/
theorem Ty.NamedBy.next_term {ty : Ty} {named : Named.Ty}
    (naming : ty.NamedBy binders supply named drawn) : drawn.next .term = supply.next .term := by
  induction naming with
  | var => rfl
  | arrow _ _ domainIH codomainIH => exact codomainIH.trans domainIH
  | all entered _ bodyIH => exact bodyIH.trans (Binders.enter_type entered).2

/-- The names of a named type are names of binders around it or generated. -/
theorem Ty.NamedBy.names {ty : Ty} {named : Named.Ty}
    (naming : ty.NamedBy binders supply named drawn) {name : Binder} (member : name ∈ named.names) :
    name ∈ binders.scope ∨ ∃ id, name = ⟨.type, generatedName .type id⟩ := by
  induction naming with
  | var found =>
      rw [List.mem_singleton.mp member]
      exact .inl (List.mem_of_getElem? found)
  | arrow _ _ domainIH codomainIH =>
      rcases List.mem_append.mp member with inDomain | inCodomain
      · exact domainIH inDomain
      · exact codomainIH inCodomain
  | all entered _ bodyIH =>
      obtain ⟨⟨id, rfl⟩, _⟩ := Binders.enter_type entered
      rcases List.mem_cons.mp member with rfl | inBody
      · exact .inr ⟨id, rfl⟩
      · rcases bodyIH inBody with inScope | generated
        · rcases Binders.mem_enter_scope entered inScope with rfl | outside
          · exact .inr ⟨id, rfl⟩
          · exact .inl outside
        · exact .inr generated

/-- Naming a term keeps the number of its parameters. -/
theorem Term.NamedBy.paramCount {term : Term} {named : Named.Term}
    (naming : term.NamedBy binders supply named drawn) : named.paramCount = term.paramCount := by
  induction naming with
  | var => rfl
  | lam _ _ _ bodyIH => exact congrArg (· + 1) bodyIH
  | app _ _ functionIH argumentIH =>
      rw [Named.Term.paramCount, Term.paramCount, functionIH, argumentIH]
  | tyLam _ _ bodyIH => exact bodyIH
  | tyApp _ _ functionIH => exact functionIH

/-- Every parameter takes one free name. -/
theorem Term.NamedBy.freeBelow {term : Term} {named : Named.Term}
    (naming : term.NamedBy binders supply named drawn) :
    Naming.freeBelow (binders.ambient.names .term) (drawn.next .term) =
      Naming.freeBelow (binders.ambient.names .term) (supply.next .term) + named.paramCount := by
  induction naming with
  | var => rfl
  | lam typeNamed entered _ bodyIH =>
      obtain ⟨id, _, start, passed, free, least⟩ := Binders.enter_term entered
      rw [Binders.enter_ambient entered, passed, freeBelow_succ free,
        freeBelow_eq_of_taken start least, typeNamed.next_term] at bodyIH
      rw [bodyIH, Named.Term.paramCount]
      omega
  | app _ _ functionIH argumentIH =>
      rw [argumentIH, functionIH, Named.Term.paramCount]
      omega
  | tyLam entered _ bodyIH =>
      rw [Binders.enter_ambient entered, (Binders.enter_type entered).2] at bodyIH
      exact bodyIH
  | tyApp _ argumentNamed functionIH =>
      rw [argumentNamed.next_term]
      exact functionIH

/-- No free name is passed over. -/
theorem Term.NamedBy.mem_names {term : Term} {named : Named.Term}
    (naming : term.NamedBy binders supply named drawn) {id : Nat}
    (enough : supply.next .term ≤ id) (passed : id < drawn.next .term)
    (free : generatedName .term id ∉ binders.ambient.names .term) :
    ⟨.term, generatedName .term id⟩ ∈ named.names := by
  induction naming with
  | var => omega
  | lam typeNamed entered _ bodyIH =>
      obtain ⟨own, rfl, _, ownPassed, _, least⟩ := Binders.enter_term entered
      rw [← typeNamed.next_term] at enough
      rw [Binders.enter_ambient entered, ownPassed] at bodyIH
      rcases Nat.lt_trichotomy id own with earlier | rfl | later
      · exact absurd (least id enough earlier) free
      · exact List.mem_cons_self
      · exact List.mem_cons_of_mem _ (List.mem_append_right _ (bodyIH later passed free))
  | @app _ _ _ _ _ _ _ middle _ _ _ functionIH argumentIH =>
      by_cases inFunction : id < middle.next .term
      · exact List.mem_append_left _ (functionIH enough inFunction free)
      · exact List.mem_append_right _ (argumentIH (Nat.le_of_not_lt inFunction) passed free)
  | tyLam entered _ bodyIH =>
      rw [Binders.enter_ambient entered, (Binders.enter_type entered).2] at bodyIH
      exact List.mem_cons_of_mem _ (bodyIH enough passed free)
  | tyApp _ argumentNamed functionIH =>
      rw [argumentNamed.next_term] at passed
      exact List.mem_append_left _ (functionIH enough passed free)

/-- The names of a named term are names of binders around it, or generated, and those of
its parameters have been passed. -/
theorem Term.NamedBy.names {term : Term} {named : Named.Term}
    (naming : term.NamedBy binders supply named drawn) {name : Binder}
    (member : name ∈ named.names) :
    name ∈ binders.scope ∨ (∃ id, name = ⟨.type, generatedName .type id⟩) ∨
      ∃ id < drawn.next .term, name = ⟨.term, generatedName .term id⟩ := by
  induction naming with
  | var found =>
      rw [List.mem_singleton.mp member]
      exact .inl (List.mem_of_getElem? found)
  | lam typeNamed entered bodyNamed bodyIH =>
      obtain ⟨id, rfl, _, passed, _, _⟩ := Binders.enter_term entered
      have below := bodyNamed.le .term
      rw [passed] at below
      rcases List.mem_cons.mp member with rfl | inner
      · exact .inr (.inr ⟨id, below, rfl⟩)
      · rcases List.mem_append.mp inner with inType | inBody
        · rcases typeNamed.names inType with inScope | generated
          · exact .inl inScope
          · exact .inr (.inl generated)
        · rcases bodyIH inBody with inScope | generated
          · rcases Binders.mem_enter_scope entered inScope with rfl | outside
            · exact .inr (.inr ⟨id, below, rfl⟩)
            · exact .inl outside
          · exact .inr generated
  | app _ argumentNamed functionIH argumentIH =>
      rcases List.mem_append.mp member with inFunction | inArgument
      · rcases functionIH inFunction with inScope | generated | ⟨id, passed, rfl⟩
        · exact .inl inScope
        · exact .inr (.inl generated)
        · exact .inr (.inr ⟨id, Nat.lt_of_lt_of_le passed (argumentNamed.le .term), rfl⟩)
      · exact argumentIH inArgument
  | tyLam entered _ bodyIH =>
      obtain ⟨⟨id, rfl⟩, _⟩ := Binders.enter_type entered
      rcases List.mem_cons.mp member with rfl | inBody
      · exact .inr (.inl ⟨id, rfl⟩)
      · rcases bodyIH inBody with inScope | generated
        · rcases Binders.mem_enter_scope entered inScope with rfl | outside
          · exact .inr (.inl ⟨id, rfl⟩)
          · exact .inl outside
        · exact .inr generated
  | tyApp _ argumentNamed functionIH =>
      rw [argumentNamed.next_term]
      rcases List.mem_append.mp member with inFunction | inArgument
      · exact functionIH inFunction
      · rcases argumentNamed.names inArgument with inScope | generated
        · exact .inl inScope
        · exact .inr (.inl generated)

end Indexed

/-! ## Names that can be read back -/

namespace Named.Context

open Grammar Naming

variable {context : Context}

/-- The names of a named type can always be read back. -/
theorem allNames_of_nameType (readable : AllNames context.scope) {ty : Indexed.Ty} {named : Ty}
    (naming : context.nameType ty = .ok named) : AllNames named.names := by
  obtain ⟨drawn, namedBy⟩ := nameType_eq_ok_iff.mp naming
  intro name member
  rcases namedBy.names member with inScope | ⟨id, rfl⟩
  · exact readable name inScope
  · exact isName_generatedName_type id

/-- The names of a named term can be read back as long as its parameters find free names
in front of `fun`. -/
theorem allNames_iff_of_nameTerm (readable : AllNames context.scope) {term : Indexed.Term}
    {named : Term} (naming : context.nameTerm term = .ok named) :
    AllNames named.names ↔
      named.paramCount ≤ freeBelow (context.scope.names .term) funId := by
  obtain ⟨drawn, namedBy⟩ := nameTerm_eq_ok_iff.mp naming
  have count : freeBelow (context.scope.names .term) (drawn.next .term) = named.paramCount := by
    simpa [Naming.freeBelow, Supply.initial, Supply.next] using namedBy.freeBelow
  have notName : ¬ IsName "fun" := by decide +kernel
  rw [← count]
  by_cases early : drawn.next .term ≤ funId
  · refine iff_of_true ?_ (freeBelow_mono _ early)
    intro name member
    rcases namedBy.names member with inScope | ⟨id, rfl⟩ | ⟨id, passed, rfl⟩
    · exact readable name inScope
    · exact isName_generatedName_type id
    · exact isName_generatedName_term (Nat.lt_of_lt_of_le passed early)
  · -- The name `fun` is free, since no binder can have it, and has been drawn.
    have passed : funId < drawn.next .term := Nat.lt_of_not_le early
    have free : generatedName .term funId ∉ context.scope.names .term := by
      rw [generatedName_funId, Scope.mem_names_iff]
      intro member
      exact notName (readable _ member)
    refine iff_of_false ?_ ?_
    · intro named
      have drawnFun := named _ (namedBy.mem_names (Nat.zero_le _) passed free)
      rw [generatedName_funId] at drawnFun
      exact notName drawnFun
    · have more := freeBelow_mono (context.scope.names .term) (Nat.succ_le_of_lt passed)
      rw [freeBelow_succ free] at more
      omega

end Named.Context

end PolyLambda
