import PolyLambda.Proofs.DrawnNames
import PolyLambda.Proofs.Exchange
import PolyLambda.Proofs.ParsedNames

/-!
# Reading reported results back

The names of a context come from source texts, so they can be read back. Hence every type
that a session reports is read back from its written form. A reported term is, as long as
its parameters do not need the name `fun`, which is free but a keyword.
-/

namespace PolyLambda

open Grammar (AllNames parseType parseTerm)

/-- Which names of a definition or of a normal form can be read back where the terms
`taken` have names. -/
def Outcome.Readable (taken : List String) : Outcome → Prop
  | .defined _ ty => AllNames ty.names
  | .reduced term ty =>
      AllNames ty.names ∧
        (AllNames term.names ↔ term.paramCount ≤ Naming.freeBelow taken Naming.funId)
  | _ => True

namespace Session

variable {limits : Limits} {context : Named.Context}

/-! ## Names in one step -/

/-- The type that a definition is reported with is the announced one, or a name for the
deduced one. -/
theorem define_reports {name : String} {expected : Option Named.Ty} {term : Named.Term}
    {next : Named.Context} {outcome : Outcome}
    (defined : define limits context name expected term = .ok (next, outcome)) :
    ∃ ty, next = .term ⟨name, ty, some term⟩ :: context ∧ outcome = .defined name ty ∧
      (expected = some ty ∨ ∃ actual, context.nameType actual = .ok ty) := by
  simp only [define, bind_eq_ok_iff] at defined
  obtain ⟨announced, resolves, ⟨_, _, actual⟩, _, recorded, records, result⟩ := defined
  cases result
  refine ⟨recorded, rfl, rfl, ?_⟩
  cases expected with
  | none =>
      cases resolves
      simp only [recordedType, nameType, mapError_eq_ok_iff] at records
      exact .inr ⟨actual, records⟩
  | some written =>
      simp only [resolveAnnounced, bind_eq_ok_iff] at resolves
      obtain ⟨resolved, _, result⟩ := resolves
      cases result
      simp only [recordedType] at records
      split at records
      · cases records
        exact .inl rfl
      · simp only [bind_eq_ok_iff] at records
        obtain ⟨_, _, impossible⟩ := records
        cases impossible

/-- A statement whose names can be read back leaves such names behind and reports such
names, as far as they are not drawn for parameters. -/
theorem effect_readable {statement : Named.Statement} {next : Named.Context} {outcome : Outcome}
    (readable : AllNames context.scope) (named : AllNames statement.command.names)
    (success : effect limits context statement = .ok (next, outcome)) :
    AllNames next.scope ∧ outcome.Readable (context.scope.names .term) := by
  obtain ⟨span, command⟩ := statement
  cases command with
  | assumeType name =>
      cases success
      exact ⟨List.forall_mem_cons.mpr ⟨named _ List.mem_cons_self, readable⟩, trivial⟩
  | assumeTerm name ty =>
      simp only [effect, bind_eq_ok_iff] at success
      obtain ⟨_, _, result⟩ := success
      cases result
      exact ⟨List.forall_mem_cons.mpr ⟨named _ List.mem_cons_self, readable⟩, trivial⟩
  | define name expected term =>
      obtain ⟨ty, rfl, rfl, typeNames⟩ := define_reports success
      refine ⟨List.forall_mem_cons.mpr ⟨named _ List.mem_cons_self, readable⟩, ?_⟩
      rcases typeNames with rfl | ⟨actual, naming⟩
      · intro binder member
        apply named binder
        simp [Named.Command.names, member]
      · exact Named.Context.allNames_of_nameType readable naming
  | reduce term =>
      obtain ⟨_, _, _, _, _, _, _, _, _, _, _, normalNamed, tyNamed, rfl, rfl⟩ :=
        reduce_eq_ok_iff.mp success
      exact ⟨readable, Named.Context.allNames_of_nameType readable tyNamed,
        Named.Context.allNames_iff_of_nameTerm readable normalNamed⟩
  | print name =>
      simp only [effect] at success
      split at success
      · cases success
        exact ⟨readable, trivial⟩
      · cases success
  | clear =>
      cases success
      exact ⟨List.forall_mem_nil _, trivial⟩

/-! ## Names in sessions -/

/-- Executing a statement with readable names keeps the names of a context readable. -/
theorem allNames_exec {statement : Named.Statement} (readable : AllNames context.scope)
    (named : AllNames statement.command.names) :
    AllNames (exec limits context statement).1.scope := by
  unfold exec
  split
  · next success => exact (effect_readable readable named success).1
  · exact readable

/-- Executing statements with readable names keeps the names of a context readable. -/
theorem allNames_execAll {statements : List Named.Statement} (readable : AllNames context.scope)
    (named : ∀ statement ∈ statements, AllNames statement.command.names) :
    AllNames (execAll limits context statements).1.scope := by
  induction statements generalizing context with
  | nil => exact readable
  | cons statement rest restIH =>
      rw [List.forall_mem_cons] at named
      exact restIH (allNames_exec readable named.1) named.2

/-- The statements of a source have readable names. -/
theorem allNames_statementsOf (source : String) :
    ∀ statement ∈ statementsOf source, AllNames statement.command.names := by
  unfold statementsOf
  split
  · next parsed => exact Grammar.parseProgram_allNames parsed
  · exact List.forall_mem_nil _

namespace Moment

/-- Whatever source texts have been run, the names of the context can be read back. -/
theorem allNames_context (limits : Limits) (moment : Moment) :
    AllNames (moment.context limits).scope := by
  rw [moment.context_eq]
  have empty : AllNames (Context.scope ([] : Named.Context)) := List.forall_mem_nil _
  apply allNames_execAll empty
  intro statement member
  rcases List.mem_append.mp member with inEarlier | inBefore
  · obtain ⟨source, _, inSource⟩ := List.mem_flatMap.mp inEarlier
    exact allNames_statementsOf source statement inSource
  · exact Grammar.parseProgram_allNames moment.parsed statement (List.mem_append_left _ inBefore)

/-- A moment has an outcome exactly if its statement has it in the context of the moment. -/
theorem result?_eq_ok_iff {moment : Moment} {outcome : Outcome} :
    moment.result? limits = some (.ok outcome) ↔
      ∃ next, effect limits (moment.context limits) moment.statement = .ok (next, outcome) := by
  rw [moment.result?_eq, Option.some.injEq]
  constructor
  · intro succeeded
    exact ⟨_, exec_eq_ok_iff.mp (Prod.ext rfl succeeded)⟩
  · rintro ⟨next, success⟩
    rw [exec_eq_ok_iff.mpr success]

/-- The outcome of a moment is readable. -/
theorem readable {moment : Moment} {outcome : Outcome}
    (reported : moment.result? limits = some (.ok outcome)) :
    outcome.Readable ((moment.context limits).scope.names .term) := by
  obtain ⟨next, success⟩ := result?_eq_ok_iff.mp reported
  have named : AllNames moment.statement.command.names :=
    Grammar.parseProgram_allNames moment.parsed _ (List.mem_append_right _ List.mem_cons_self)
  exact (effect_readable (moment.allNames_context limits) named success).2

end Moment

/-- The written form of a type that a session reports reads back as that type. The
written form of a normal form reads back exactly if its parameters find free names in
front of `fun`. -/
theorem reported_results_read_back (limits : Limits) (moment : Moment) :
    (∀ name ty, moment.result? limits = some (.ok (.defined name ty)) →
      ∃ parsed, parseType ty.text = .ok parsed ∧ parsed.bare = ty.bare) ∧
    ∀ term ty, moment.result? limits = some (.ok (.reduced term ty)) →
      (∃ parsed, parseType ty.text = .ok parsed ∧ parsed.bare = ty.bare) ∧
      ((∃ parsed, parseTerm term.text = .ok parsed ∧ parsed.bare = term.bare) ↔
        term.paramCount ≤
          Naming.freeBelow ((moment.context limits).scope.names .term) Naming.funId) := by
  constructor
  · intro name ty reported
    exact Named.Ty.exists_parse_text (Moment.readable reported)
  · intro term ty reported
    obtain ⟨tyNames, termNames⟩ := Moment.readable reported
    exact ⟨Named.Ty.exists_parse_text tyNames, term.exists_parse_text_iff.trans termNames⟩

/-- Statements whose results need generated names of both kinds. -/
def polymorphicSource : String :=
  "Variable A;Reduce(fun2 X.fun x:X.x)[A->A];Define i=fun2 X.fun x:X.x"

def assumedType : Named.Statement :=
  ⟨⟨0, 10⟩, .assumeType ⟨⟨9, 10⟩, "A"⟩⟩

def appliedIdentity : Named.Statement :=
  ⟨⟨11, 41⟩, .reduce
    (.tyApp ⟨17, 41⟩
      (.tyLam ⟨18, 34⟩ ⟨⟨23, 24⟩, "X"⟩
        (.lam ⟨25, 34⟩ ⟨⟨29, 30⟩, "x"⟩ (.var ⟨31, 32⟩ "X") (.var ⟨33, 34⟩ "x")))
      (.arrow ⟨36, 40⟩ (.var ⟨36, 37⟩ "A") (.var ⟨39, 40⟩ "A")))⟩

def definedIdentity : Named.Statement :=
  ⟨⟨42, 67⟩, .define ⟨⟨49, 50⟩, "i"⟩ none
    (.tyLam ⟨51, 67⟩ ⟨⟨56, 57⟩, "X"⟩
      (.lam ⟨58, 67⟩ ⟨⟨62, 63⟩, "x"⟩ (.var ⟨64, 65⟩ "X") (.var ⟨66, 67⟩ "x")))⟩

/-- The polymorphic source parses to its three statements. -/
theorem parseProgram_polymorphicSource :
    Grammar.parseProgram polymorphicSource =
      .ok [assumedType, appliedIdentity, definedIdentity] := by
  decide +kernel

def polymorphicReduction : Moment :=
  ⟨[], polymorphicSource, [assumedType], appliedIdentity, [definedIdentity],
    parseProgram_polymorphicSource⟩

def polymorphicDefinition : Moment :=
  ⟨[], polymorphicSource, [assumedType, appliedIdentity], definedIdentity, [],
    parseProgram_polymorphicSource⟩

/-- The types and the term that the polymorphic source reports are read back
from their texts. -/
theorem reported_results_read_back_polymorphic :
    ∃ definedTy term ty,
      polymorphicDefinition.result? .standard = some (.ok (.defined "i" definedTy)) ∧
      definedTy.text = "forall B. B -> B" ∧
      (∃ parsed, parseType definedTy.text = .ok parsed ∧ parsed.bare = definedTy.bare) ∧
      polymorphicReduction.result? .standard = some (.ok (.reduced term ty)) ∧
      (∃ parsed, parseType ty.text = .ok parsed ∧ parsed.bare = ty.bare) ∧
      term.text = "fun a: A -> A. a" ∧
      ∃ parsed, parseTerm term.text = .ok parsed ∧ parsed.bare = term.bare := by
  obtain ⟨definedTy, defined, definedText⟩ : ∃ ty,
      polymorphicDefinition.result? .standard = some (.ok (.defined "i" ty)) ∧
        ty.text = "forall B. B -> B" :=
    ⟨_, (polymorphicDefinition.result?_eq .standard).trans rfl, by decide +kernel⟩
  obtain ⟨term, ty, reduced, termText, single⟩ : ∃ term ty,
      polymorphicReduction.result? .standard = some (.ok (.reduced term ty)) ∧
        term.text = "fun a: A -> A. a" ∧ term.paramCount = 1 :=
    ⟨_, _, (polymorphicReduction.result?_eq .standard).trans rfl, by decide +kernel, rfl⟩
  have definedBack := (reported_results_read_back .standard polymorphicDefinition).1 _ _ defined
  obtain ⟨tyBack, termBack⟩ :=
    (reported_results_read_back .standard polymorphicReduction).2 term ty reduced
  have noTerms : (polymorphicReduction.context .standard).scope.names .term = [] := rfl
  refine ⟨definedTy, term, ty, defined, definedText, definedBack, reduced, tyBack, termText,
    termBack.mpr ?_⟩
  rw [single, noTerms]
  simp [Naming.freeBelow, Naming.funId]

/-! ## Normal forms with many parameters -/

/-- The number of parameters of the normal form, and whether it has the type of the term. -/
def normalParams (limits : Limits) (context : Named.Context) (named : Named.Term) :
    Except Failure (Nat × Bool) := do
  let (term, indexed, expected) ← checkTerm limits context named
  let normal ← (term.normalize limits.range limits.depth indexed).mapError .reduction
  let found ← (normal.deduce limits.range indexed).mapError fun error =>
    .typing (error.inContext context)
  return (normal.paramCount, found.Same expected)

/-- A normal form that has the type of the term is reported, with all its parameters. -/
theorem reduce_of_normalParams (reachable : Reachable limits context) {named : Named.Term}
    {count : Nat} (counted : normalParams limits context named = .ok (count, true)) (span : Span) :
    ∃ term ty, reduce limits context span named = .ok (context, .reduced term ty) ∧
      term.paramCount = count := by
  simp only [normalParams, bind_eq_ok_iff, mapError_eq_ok_iff] at counted
  obtain ⟨⟨term, indexed, expected⟩, checked, normal, normalized, found, deduced, result⟩ := counted
  obtain ⟨rfl, same⟩ := Prod.mk.inj (Except.ok.inj result)
  obtain ⟨_, sound⟩ := reachable.recorded.sound
  obtain ⟨rfl, _, expectedDeduced⟩ := sound.checked checked
  obtain ⟨normalName, normalNamed⟩ := Named.Context.nameTerm_of_inScope sound.describes
    (Indexed.Term.deduce_typed sound.closed deduced).inScope
  obtain ⟨ty, tyNamed⟩ :=
    Named.Context.nameType_of_inScope sound.describes (sound.inScope expectedDeduced)
  obtain ⟨_, namedBy⟩ := Named.Context.nameTerm_eq_ok_iff.mp normalNamed
  refine ⟨normalName, ty, reduce_eq_ok_iff.mpr ?_, namedBy.paramCount⟩
  exact ⟨term, indexed, expected, normal, found, normalName, ty, checked, normalized, deduced,
    of_decide_eq_true same, normalNamed, tyNamed, rfl, rfl⟩

/-- Defines `d` with five parameters. -/
def fiveParameters : String :=
  "Variable A;Axiom p:A->A->A;Axiom q:(A->A->A->A->A->A)->A;Define d=q(fun x:A,x:A,x:A,x:A,x:A.x)"

/-- Four copies of what `d` was before. -/
def fourCopies : String :=
  "Define d=p(p d d)(p d d)"

/-- The normal form has more parameters than there are names in front of `fun`. -/
def manyParameters : Moment where
  earlier := fiveParameters :: List.replicate 5 fourCopies
  source := "Reduce d"
  before := []
  statement := ⟨⟨0, 8⟩, .reduce (.var ⟨7, 8⟩ "d")⟩
  after := []
  parsed := by decide +kernel

/-- Not every reported term reads back, since a parameter can be given the name `fun`. -/
theorem reported_term_not_read_back :
    ¬ ∀ (moment : Moment) (term : Named.Term) (ty : Named.Ty),
      moment.result? .standard = some (.ok (.reduced term ty)) →
        ∃ parsed, parseTerm term.text = .ok parsed ∧ parsed.bare = term.bare := by
  intro readsBack
  have counted : normalParams .standard (manyParameters.context .standard) (.var ⟨7, 8⟩ "d") =
      .ok (5120, true) := by decide +kernel
  obtain ⟨term, ty, reduced, count⟩ :=
    reduce_of_normalParams (manyParameters.reachable .standard) counted ⟨0, 8⟩
  have reported : manyParameters.result? .standard = some (.ok (.reduced term ty)) :=
    Moment.result?_eq_ok_iff.mpr ⟨_, reduced⟩
  have names := term.exists_parse_text_iff.mp (readsBack manyParameters term ty reported)
  have enough := (Moment.readable reported).2.mp names
  have free : Naming.freeBelow ((manyParameters.context .standard).scope.names .term)
      Naming.funId ≤ 4615 := Nat.count_le _
  omega

end Session

end PolyLambda
