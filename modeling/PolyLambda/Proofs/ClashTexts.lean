import PolyLambda.Proofs.NamingTotality
import PolyLambda.Proofs.ReportedResults
import PolyLambda.Proofs.SelfCheck
import PolyLambda.Proofs.SpanErasure

/-!
# The two types of a clash

A clash sets a found type against an expected one, and it is of use only if the two read
differently. The types are named apart from each other, but inside the same binders, which
draw the same names each time; where no type name of the context is used twice, these names
resolve to the binders they were given for. So types that read the same are the same, and
the types of a clash are not.
-/

namespace PolyLambda

open Grammar (AllNames IsName)

/-! ## Texts of types -/

namespace Named

/-- Only types have names in a type. -/
theorem Ty.kind_of_mem_names {ty : Ty} {binder : Binder} (member : binder ∈ ty.names) :
    binder.kind = .type := by
  induction ty with
  | var span name =>
      rw [List.mem_singleton.mp member]
  | arrow span domain codomain domainIH codomainIH =>
      exact (List.mem_append.mp member).elim domainIH codomainIH
  | all span param body bodyIH =>
      rcases List.mem_cons.mp member with rfl | inBody
      · rfl
      · exact bodyIH inBody

/-- A text can be read in one way only. -/
theorem Ty.bare_eq_of_text_eq {left right : Ty} (leftNames : AllNames left.names)
    (rightNames : AllNames right.names) (texts : left.text = right.text) :
    left.bare = right.bare := by
  obtain ⟨parsed, success, leftBare⟩ := Ty.exists_parse_text leftNames
  obtain ⟨again, sameSuccess, rightBare⟩ := Ty.exists_parse_text rightNames
  rw [texts, sameSuccess] at success
  cases success
  exact leftBare.symm.trans rightBare

/-- Types that differ have different texts, whatever names they have in one scope. -/
theorem Ty.ResolvesTo.text_ne {scope : Scope} {left right : Ty} {ty other : Indexed.Ty}
    (leftResolves : left.ResolvesTo scope ty) (rightResolves : right.ResolvesTo scope other)
    (leftNames : AllNames left.names) (rightNames : AllNames right.names)
    (differ : ¬ ty.Same other) : left.text ≠ right.text := by
  intro texts
  have resolved := left.resolve_bare scope
  rw [Ty.bare_eq_of_text_eq leftNames rightNames texts, right.resolve_bare,
    Ty.resolve_eq_ok_iff.mpr leftResolves, Ty.resolve_eq_ok_iff.mpr rightResolves] at resolved
  exact differ (Except.ok.inj resolved).symm

end Named

/-! ## Names that tell types apart -/

/-- Names of type binders are used once and can be read back, and no name that is still to
be drawn is in use. -/
structure Naming.Binders.TellApart (binders : Binders) (supply : Supply) : Prop where
  distinct : (binders.scope.names .type).Nodup
  readable : ∀ name ∈ binders.scope.names .type, IsName name
  avoids : supply.Avoids binders.inner

namespace Naming.Binders.TellApart

variable {binders inside : Binders} {supply drawn : Supply}

/-- A context with readable names and no two types of one name tells its types apart. -/
theorem ofContext {context : Named.Context} (readable : AllNames context.scope)
    (distinct : (context.scope.names .type).Nodup) : TellApart ⟨context.scope, []⟩ .initial where
  distinct := distinct
  readable name member := readable ⟨.type, name⟩ (Scope.mem_names_iff.mp member)
  avoids _ _ _ := List.not_mem_nil

/-- Entering a binder keeps types apart, for its name is drawn fresh. -/
theorem enter (apart : binders.TellApart supply) {kind : Kind} {name : String}
    (entered : binders.enter supply kind = (name, inside, drawn)) : inside.TellApart drawn where
  distinct := by
    rw [enter_scope entered]
    cases kind with
    | term => exact apart.distinct
    | type =>
        have fresh := enter_fresh entered apart.avoids
        exact List.nodup_cons.mpr
          ⟨fun member => fresh (Scope.mem_names_iff.mp member), apart.distinct⟩
  readable := by
    rw [enter_scope entered]
    cases kind with
    | term => exact apart.readable
    | type =>
        obtain ⟨⟨id, rfl⟩, _⟩ := enter_type entered
        exact List.forall_mem_cons.mpr ⟨isName_generatedName_type id, apart.readable⟩
  avoids := enter_avoids entered apart.avoids

/-- Entering any number of binders keeps types apart. -/
theorem enterAll (apart : binders.TellApart supply) (kinds : List Kind) :
    (binders.enterAll supply kinds).1.TellApart (binders.enterAll supply kinds).2 := by
  induction kinds with
  | nil => exact apart
  | cons kind kinds kindsIH => exact kindsIH.enter rfl

end Naming.Binders.TellApart

namespace Indexed

open Naming

variable {binders : Binders} {supply drawn : Supply} {ty : Ty} {named : Named.Ty}

/-- A type gets readable names only. -/
theorem Ty.NamedBy.allNames (naming : ty.NamedBy binders supply named drawn)
    (apart : binders.TellApart supply) : AllNames named.names := by
  rintro ⟨kind, name⟩ member
  obtain rfl : kind = .type := Named.Ty.kind_of_mem_names member
  rcases naming.names member with inScope | ⟨id, generated⟩
  · exact apart.readable name (Scope.mem_names_iff.mpr inScope)
  · obtain ⟨_, rfl⟩ := Binder.mk.inj generated
    exact isName_generatedName_type id

/-- The names of a type resolve to the binders that they were given for. -/
theorem Ty.NamedBy.resolvesTo_self (naming : ty.NamedBy binders supply named drawn)
    (apart : binders.TellApart supply) {context : Context}
    (describes : binders.scope.Describes context) (inScope : ty.InScope context) :
    named.ResolvesTo binders.scope ty := by
  have collapsed := inScope.rename_newest_oldest describes
  rw [Ty.rename_oldest_of_distinct apart.distinct,
    Ty.rename_oldest_of_distinct apart.distinct] at collapsed
  rw [← collapsed]
  exact naming.resolvesTo apart.avoids

end Indexed

/-- Types that differ are named differently inside the same binders. -/
theorem Named.Context.nameTypeIn_text_ne {context : Named.Context}
    {indexed inner : Indexed.Context}
    (apart : Naming.Binders.TellApart ⟨context.scope, []⟩ .initial)
    (describes : context.scope.Describes indexed) {ty other : Indexed.Ty} {named otherNamed : Ty}
    (inScope : ty.InScope (inner ++ indexed)) (otherInScope : other.InScope (inner ++ indexed))
    (naming : context.nameTypeIn (inner ++ indexed) ty = .ok named)
    (otherNaming : context.nameTypeIn (inner ++ indexed) other = .ok otherNamed)
    (differ : ¬ ty.Same other) : named.text ≠ otherNamed.text := by
  have insideApart := apart.enterAll (inner.map Binding.kind)
  have insideDescribes := inside_describes describes inner
  obtain ⟨_, namedBy⟩ := (nameTypeIn_eq_ok_iff describes inner).mp naming
  obtain ⟨_, otherNamedBy⟩ := (nameTypeIn_eq_ok_iff describes inner).mp otherNaming
  exact (namedBy.resolvesTo_self insideApart insideDescribes inScope).text_ne
    (otherNamedBy.resolvesTo_self insideApart insideDescribes otherInScope)
    (namedBy.allNames insideApart) (otherNamedBy.allNames insideApart) differ

/-- A type that differs from a written one has a text of its own. -/
theorem Named.Context.nameType_text_ne {context : Named.Context} {indexed : Indexed.Context}
    (apart : Naming.Binders.TellApart ⟨context.scope, []⟩ .initial)
    (describes : context.scope.Describes indexed) {ty other : Indexed.Ty} {written named : Ty}
    (resolves : written.resolve context.scope = .ok other) (writtenNames : AllNames written.names)
    (inScope : ty.InScope indexed) (naming : context.nameType ty = .ok named)
    (differ : ¬ ty.Same other) : written.text ≠ named.text := by
  obtain ⟨_, namedBy⟩ := nameType_eq_ok_iff.mp naming
  exact (Ty.resolve_eq_ok_iff.mp resolves).text_ne (namedBy.resolvesTo_self apart describes inScope)
    writtenNames (namedBy.allNames apart) fun same => differ same.symm

/-! ## Clashes of two types -/

/-- The expected and the found type of a clash that has both. -/
def Mismatch.sides? : Mismatch → Option (Named.Ty × Named.Ty)
  | .argument _ expected found => some (expected, found)
  | .definition _ expected found => some (expected, found)
  | .notFunction _ _ _ _ => none
  | .notUniversal _ _ => none

/-- The text of a clash sets its two types against each other. -/
theorem Mismatch.text_of_sides? {clash : Mismatch} {expected found : Named.Ty}
    (sides : clash.sides? = some (expected, found)) :
    clash.text = contrast expected.text found.text := by
  cases clash with
  | argument | definition =>
      cases sides
      rfl
  | notFunction | notUniversal => cases sides

/-- A type error with two sides is about an argument, and the sides are names of its types. -/
theorem Indexed.TypeError.sides_of_inContext {context : Named.Context} {error : TypeError}
    {clash : Mismatch} {expectedName foundName : Named.Ty}
    (reported : error.inContext context = .mismatch clash)
    (sides : clash.sides? = some (expectedName, foundName)) :
    ∃ span expected found scope, error = .argumentMismatch span expected found scope ∧
      context.nameTypeIn scope expected = .ok expectedName ∧
      context.nameTypeIn scope found = .ok foundName := by
  have named := TypeError.mismatch_of_inContext reported
  cases error with
  | illegal | indexFault => cases named
  | notFunction =>
      simp only [TypeError.mismatch, bind_eq_ok_iff] at named
      obtain ⟨_, _, _, _, result⟩ := named
      cases result
      cases sides
  | argumentMismatch span expected found scope =>
      simp only [TypeError.mismatch, bind_eq_ok_iff] at named
      obtain ⟨_, expectedNamed, _, foundNamed, result⟩ := named
      cases result
      cases sides
      exact ⟨_, _, _, _, rfl, expectedNamed, foundNamed⟩
  | notUniversal =>
      simp only [TypeError.mismatch, bind_eq_ok_iff] at named
      obtain ⟨_, _, result⟩ := named
      cases result
      cases sides

/-- Arguments are found fault with only where the two types differ. -/
theorem Indexed.Term.argument_differs {range : IndexRange} {context scope : Context} {term : Term}
    {span : Span} {expected found : Ty}
    (untyped : term.deduce range context = .error (.argumentMismatch span expected found scope)) :
    ¬ expected.Same found := by
  obtain ⟨_, _, _, fails⟩ := Term.deduce_error untyped
  cases fails with
  | argumentMismatch _ _ differ => exact differ

namespace Session

open Indexed (IndexRange)
open Naming (Binders)

/-- A command fails because two types differ, all its names being bound: the type of an
argument and the domain of its function, under whatever binders of the term, or the type of
a definition and the announced one. -/
inductive Clashes (range : IndexRange) (scope : Scope) (indexed : Indexed.Context) :
    Named.Command → Prop
  | inDefinition {name announced named term span domain found inner}
      (announces : ∀ written ∈ announced, ∃ ty, written.resolve scope = .ok ty)
      (resolves : named.resolve scope = .ok term)
      (untyped : term.deduce range indexed = .error (.argumentMismatch span domain found inner)) :
      Clashes range scope indexed (.define name announced named)
  | inReduction {named term span domain found inner}
      (resolves : named.resolve scope = .ok term)
      (untyped : term.deduce range indexed = .error (.argumentMismatch span domain found inner)) :
      Clashes range scope indexed (.reduce named)
  | withAnnounced {name written named announced term actual}
      (announces : written.resolve scope = .ok announced)
      (resolves : named.resolve scope = .ok term)
      (deduced : term.deduce range indexed = .ok actual) (differ : ¬ actual.Same announced) :
      Clashes range scope indexed (.define name (some written) named)

section

variable {limits : Limits} {context : Named.Context} {indexed : Indexed.Context}
  {clash : Mismatch} {expected found : Named.Ty}

/-- An announced type resolves if there is none or if the one that there is does. -/
theorem exists_resolveAnnounced_iff {announced : Option Named.Ty} :
    (∃ resolved, resolveAnnounced context announced = .ok resolved) ↔
      ∀ written ∈ announced, ∃ ty, written.resolve context.scope = .ok ty := by
  cases announced with
  | none => simp [resolveAnnounced]
  | some written =>
      simp only [resolveAnnounced, bind_eq_ok_iff, mapError_eq_ok_iff, Option.mem_some_iff,
        forall_eq']
      constructor
      · rintro ⟨_, ty, resolves, _⟩
        exact ⟨ty, resolves⟩
      · rintro ⟨ty, resolves⟩
        exact ⟨_, ty, resolves, rfl⟩

/-! ### What a reported clash says -/

/-- Where checking a term reports a clash, an argument differs from the domain of its function,
and the two types have different texts. -/
theorem Sound.checkTerm_clash (sound : Sound limits context indexed)
    (apart : Binders.TellApart ⟨context.scope, []⟩ .initial) {named : Named.Term}
    (failed : checkTerm limits context named = .error (.typing (.mismatch clash)))
    (sides : clash.sides? = some (expected, found)) :
    (∃ term span domain argument inner, named.resolve context.scope = .ok term ∧
      term.deduce limits.range indexed = .error (.argumentMismatch span domain argument inner)) ∧
    expected.text ≠ found.text := by
  simp only [checkTerm, sound.resolved, bind_eq_error_iff, mapError_eq_error_iff,
    mapError_eq_ok_iff] at failed
  rcases failed with ⟨_, _, ⟨⟩⟩ | ⟨term, resolves, failed⟩
  rcases failed with ⟨_, ⟨⟩, _⟩ | ⟨_, ⟨⟩, failed⟩
  rcases failed with ⟨error, untyped, result⟩ | ⟨_, _, ⟨⟩⟩
  have reported : error.inContext context = .mismatch clash := Failure.typing.inj result
  obtain ⟨span, domain, argument, scope, rfl, expectedNamed, foundNamed⟩ :=
    Indexed.TypeError.sides_of_inContext reported sides
  have inScope := Named.Term.resolve_inScope resolves sound.describes
  obtain ⟨⟨inner, rfl⟩, domainInScope, argumentInScope⟩ := inScope.deduce_error sound.closed untyped
  refine ⟨⟨term, span, domain, argument, _, resolves, untyped⟩, ?_⟩
  exact Named.Context.nameTypeIn_text_ne apart sound.describes domainInScope argumentInScope
    expectedNamed foundNamed (Indexed.Term.argument_differs untyped)

/-- Where a definition reports a clash, two types differ, and they have different texts. -/
theorem Sound.define_clash (sound : Sound limits context indexed)
    (apart : Binders.TellApart ⟨context.scope, []⟩ .initial) {name : Named.Ident}
    {announced : Option Named.Ty} {term : Named.Term}
    (announcedNames : ∀ written ∈ announced, AllNames written.names)
    (failed : define limits context name.name announced term = .error (.typing (.mismatch clash)))
    (sides : clash.sides? = some (expected, found)) :
    Clashes limits.range context.scope indexed (.define name announced term) ∧
      expected.text ≠ found.text := by
  simp only [define, bind_eq_error_iff] at failed
  rcases failed with unannounced | ⟨resolved, announces, failed⟩
  · cases announced with
    | none => cases unannounced
    | some written =>
        simp only [resolveAnnounced, bind_eq_error_iff, mapError_eq_error_iff] at unannounced
        rcases unannounced with ⟨_, _, ⟨⟩⟩ | ⟨_, _, ⟨⟩⟩
  rcases failed with unchecked | ⟨⟨_, _, actual⟩, checked, failed⟩
  · obtain ⟨⟨_, _, _, _, _, resolves, untyped⟩, textsDiffer⟩ :=
      sound.checkTerm_clash apart unchecked sides
    have announcedResolve := exists_resolveAnnounced_iff.mp ⟨_, announces⟩
    exact ⟨.inDefinition announcedResolve resolves untyped, textsDiffer⟩
  obtain ⟨rfl, resolves, deduced⟩ := sound.checked checked
  have actualInScope := sound.inScope deduced
  rcases failed with unrecorded | ⟨_, _, ⟨⟩⟩
  cases announced with
  | none =>
      cases announces
      exact absurd unrecorded (sound.nameType_ne_error actualInScope)
  | some written =>
      simp only [resolveAnnounced, bind_eq_ok_iff, mapError_eq_ok_iff] at announces
      obtain ⟨_, writtenResolves, result⟩ := announces
      cases result
      simp only [recordedType] at unrecorded
      split at unrecorded
      · cases unrecorded
      · next differ =>
          simp only [bind_eq_error_iff] at unrecorded
          rcases unrecorded with unnamed | ⟨_, naming, ⟨⟩⟩
          · exact absurd unnamed (sound.nameType_ne_error actualInScope)
          · cases sides
            simp only [nameType, mapError_eq_ok_iff] at naming
            refine ⟨.withAnnounced writtenResolves resolves deduced differ, ?_⟩
            exact Named.Context.nameType_text_ne apart sound.describes writtenResolves
              (announcedNames _ rfl) actualInScope naming differ

/-- Where a reduction reports a clash, two types differ, and they have different texts. -/
theorem Sound.reduce_clash (sound : Sound limits context indexed)
    (apart : Binders.TellApart ⟨context.scope, []⟩ .initial) {span : Span} {named : Named.Term}
    (failed : reduce limits context span named = .error (.typing (.mismatch clash)))
    (sides : clash.sides? = some (expected, found)) :
    Clashes limits.range context.scope indexed (.reduce named) ∧ expected.text ≠ found.text := by
  simp only [reduce, bind_eq_error_iff, mapError_eq_error_iff, mapError_eq_ok_iff] at failed
  rcases failed with unchecked | ⟨⟨_, _, ty⟩, checked, failed⟩
  · obtain ⟨⟨_, _, _, _, _, resolves, untyped⟩, textsDiffer⟩ :=
      sound.checkTerm_clash apart unchecked sides
    exact ⟨.inReduction resolves untyped, textsDiffer⟩
  obtain ⟨rfl, _, deduced⟩ := sound.checked checked
  rcases failed with ⟨_, _, ⟨⟩⟩ | ⟨normal, normalized, failed⟩
  rcases failed with ⟨error, untyped, result⟩ | ⟨_, _, failed⟩
  -- Where no type name is used twice, a normal form is no source of clashes.
  · rcases sound.normal_deduce_error deduced normalized untyped with ⟨fault, rfl⟩ | vanishes
    · cases result
    · exact absurd vanishes (not_vanishesUnder_of_distinct apart.distinct error)
  -- What cannot be named is an illegal index, and no clash.
  split at failed
  · simp only [bind_eq_error_iff, nameTerm, nameType, mapError_eq_error_iff] at failed
    rcases failed with ⟨_, _, ⟨⟩⟩ | ⟨_, _, ⟨_, _, ⟨⟩⟩ | ⟨_, _, ⟨⟩⟩⟩
  · simp only [bind_eq_error_iff, nameType, mapError_eq_error_iff] at failed
    rcases failed with ⟨_, _, ⟨⟩⟩ | ⟨_, _, ⟨_, _, ⟨⟩⟩ | ⟨_, _, ⟨⟩⟩⟩

/-- Where a statement reports a clash, two types differ, and they have different texts. -/
theorem Sound.effect_clash (sound : Sound limits context indexed)
    (apart : Binders.TellApart ⟨context.scope, []⟩ .initial) {statement : Named.Statement}
    (named : AllNames statement.command.names)
    (failed : effect limits context statement = .error (.typing (.mismatch clash)))
    (sides : clash.sides? = some (expected, found)) :
    Clashes limits.range context.scope indexed statement.command ∧ expected.text ≠ found.text := by
  obtain ⟨span, command⟩ := statement
  cases command with
  | assumeType | clear => cases failed
  | assumeTerm name ty =>
      simp only [effect, bind_eq_error_iff, mapError_eq_error_iff] at failed
      rcases failed with ⟨_, _, result⟩ | ⟨_, _, result⟩
      all_goals cases result
  | define name announced term =>
      refine sound.define_clash apart ?_ failed sides
      rintro written ⟨⟩ binder member
      apply named binder
      simp [Named.Command.names, member]
  | reduce term => exact sound.reduce_clash apart failed sides
  | print name =>
      simp only [effect] at failed
      split at failed <;> cases failed

/-! ### Which clashes are reported -/

/-- A term with an argument of another type than the domain of its function is
reported as a clash. -/
theorem Sound.checkTerm_argumentMismatch (sound : Sound limits context indexed)
    {named : Named.Term} {term : Indexed.Term} {span : Span} {domain argument : Indexed.Ty}
    {scope : Indexed.Context} (resolves : named.resolve context.scope = .ok term)
    (untyped : term.deduce limits.range indexed =
      .error (.argumentMismatch span domain argument scope)) :
    ∃ clash expected found, checkTerm limits context named = .error (.typing (.mismatch clash)) ∧
      clash.sides? = some (expected, found) := by
  have inScope := Named.Term.resolve_inScope resolves sound.describes
  obtain ⟨⟨inner, rfl⟩, domainInScope, argumentInScope⟩ := inScope.deduce_error sound.closed untyped
  obtain ⟨expected, expectedNamed⟩ :=
    Named.Context.nameTypeIn_of_inScope sound.describes inner domainInScope
  obtain ⟨found, foundNamed⟩ :=
    Named.Context.nameTypeIn_of_inScope sound.describes inner argumentInScope
  refine ⟨.argument span expected found, expected, found, ?_, rfl⟩
  have reported := @Indexed.TypeError.argumentMismatch_inContext context span domain argument
    (inner ++ indexed) expected found expectedNamed foundNamed
  simp only [checkTerm, resolves, sound.resolved, untyped, mapError_ok, mapError_error, bind,
    Except.bind, reported]

/-- Every clash is reported with its two sides. -/
theorem Clashes.effect (sound : Sound limits context indexed) {command : Named.Command}
    (clashes : Clashes limits.range context.scope indexed command) (span : Span) :
    ∃ clash expected found,
      effect limits context ⟨span, command⟩ = .error (.typing (.mismatch clash)) ∧
      clash.sides? = some (expected, found) := by
  cases clashes with
  | inDefinition announces resolves untyped =>
      obtain ⟨_, announced⟩ := exists_resolveAnnounced_iff.mpr announces
      obtain ⟨clash, expected, found, unchecked, sides⟩ :=
        sound.checkTerm_argumentMismatch resolves untyped
      refine ⟨clash, expected, found, ?_, sides⟩
      simp only [Session.effect, define, announced, unchecked, bind, Except.bind]
  | inReduction resolves untyped =>
      obtain ⟨clash, expected, found, unchecked, sides⟩ :=
        sound.checkTerm_argumentMismatch resolves untyped
      refine ⟨clash, expected, found, ?_, sides⟩
      simp only [Session.effect, reduce, unchecked, bind, Except.bind]
  | @withAnnounced _ written named announced _ _ announces resolves deduced differ =>
      have checked := checkTerm_eq_ok_iff.mpr ⟨resolves, sound.resolved, deduced⟩
      obtain ⟨found, naming⟩ :=
        Named.Context.nameType_of_inScope sound.describes (sound.inScope deduced)
      refine ⟨.definition named.span written found, written, found, ?_, rfl⟩
      simp only [Session.effect, define, resolveAnnounced, announces, checked, recordedType,
        nameType, naming, if_neg differ, mapError_ok, bind, Except.bind, pure, Except.pure]

end

/-! ## Sessions over source texts -/

/-- The statement stands in some source text. -/
def Written (statement : Named.Statement) : Prop :=
  ∃ source, statement ∈ statementsOf source

/-- Statements of source texts lead from the empty context to this one. -/
def ReachedByText (limits : Limits) (context : Named.Context) : Prop :=
  ∃ statements, (∀ statement ∈ statements, Written statement) ∧
    (execAll limits [] statements).1 = context

variable {limits : Limits} {context : Named.Context}

/-- The statements of a source that parses are written. -/
theorem Written.ofParsed {source : String} {statements : List Named.Statement}
    (parsed : Grammar.parseProgram source = .ok statements) {statement : Named.Statement}
    (member : statement ∈ statements) : Written statement := by
  refine ⟨source, ?_⟩
  simpa only [statementsOf, parsed] using member

/-- A written statement has readable names only. -/
theorem Written.allNames {statement : Named.Statement} (written : Written statement) :
    AllNames statement.command.names := by
  obtain ⟨source, member⟩ := written
  exact allNames_statementsOf source statement member

/-- What texts have declared has readable names only. -/
theorem ReachedByText.allNames (reached : ReachedByText limits context) :
    AllNames context.scope := by
  obtain ⟨statements, written, rfl⟩ := reached
  have empty : AllNames (Context.scope ([] : Named.Context)) := List.forall_mem_nil _
  exact allNames_execAll empty fun statement member => (written statement member).allNames

/-- A session that texts have reached is sound. -/
theorem ReachedByText.sound (reached : ReachedByText limits context) :
    ∃ indexed, Sound limits context indexed := by
  obtain ⟨statements, _, ran⟩ := reached
  have reachable : Reachable limits context := ⟨statements, ran⟩
  exact reachable.recorded.sound

/-- Running sources one after the other leads to a session that texts have reached. -/
theorem reachedByText_runAll (limits : Limits) (sources : List String) :
    ReachedByText limits (runAll limits [] sources) := by
  refine ⟨sources.flatMap statementsOf, ?_, (runAll_eq_execAll [] sources).symm⟩
  intro statement member
  obtain ⟨source, _, inSource⟩ := List.mem_flatMap.mp member
  exact ⟨source, inSource⟩

/-- Where no type name is used twice, a statement in a source text fails with an expected
and a found type exactly if there are two such types and they differ, and then their texts,
which are set against each other, differ as well. -/
theorem clashes_show_different_types (reached : ReachedByText limits context)
    (distinct : (context.scope.names .type).Nodup) {statement : Named.Statement}
    (written : Written statement) :
    ∃ indexed, Named.Context.resolve context = .ok indexed ∧
      (Clashes limits.range context.scope indexed statement.command ↔
        ∃ clash expected found,
          (exec limits context statement).2 = .error (.typing (.mismatch clash)) ∧
          clash.sides? = some (expected, found)) ∧
      ∀ clash expected found,
        (exec limits context statement).2 = .error (.typing (.mismatch clash)) →
        clash.sides? = some (expected, found) →
        clash.text = contrast expected.text found.text ∧ expected.text ≠ found.text := by
  obtain ⟨indexed, sound⟩ := reached.sound
  have apart := Binders.TellApart.ofContext reached.allNames distinct
  simp only [exec_eq_error_iff]
  refine ⟨indexed, sound.resolved, ⟨?_, ?_⟩, ?_⟩
  · intro clashes
    exact clashes.effect sound statement.span
  · rintro ⟨clash, expected, found, failed, sides⟩
    exact (sound.effect_clash apart written.allNames failed sides).1
  · intro clash expected found failed sides
    exact ⟨Mismatch.text_of_sides? sides,
      (sound.effect_clash apart written.allNames failed sides).2⟩

/-- A function under two binders gets an argument of another type, and a theorem announces
another type than its own. -/
def clashingSource : String :=
  "Reduce fun2 X.fun f:(forall Y.Y->X)->X.f(fun2 Y.fun x:Y.x);" ++
    "Theorem t:forall X.X->A=fun2 X.fun x:X.x"

def wrongArgument : Named.Statement :=
  ⟨⟨0, 58⟩, .reduce
    (.tyLam ⟨7, 58⟩ ⟨⟨12, 13⟩, "X"⟩
      (.lam ⟨14, 58⟩ ⟨⟨18, 19⟩, "f"⟩
        (.arrow ⟨20, 38⟩
          (.all ⟨21, 34⟩ ⟨⟨28, 29⟩, "Y"⟩
            (.arrow ⟨30, 34⟩ (.var ⟨30, 31⟩ "Y") (.var ⟨33, 34⟩ "X")))
          (.var ⟨37, 38⟩ "X"))
        (.app ⟨39, 58⟩ (.var ⟨39, 40⟩ "f")
          (.tyLam ⟨41, 57⟩ ⟨⟨46, 47⟩, "Y"⟩
            (.lam ⟨48, 57⟩ ⟨⟨52, 53⟩, "x"⟩ (.var ⟨54, 55⟩ "Y") (.var ⟨56, 57⟩ "x"))))))⟩

def wrongTheorem : Named.Statement :=
  ⟨⟨59, 99⟩, .define ⟨⟨67, 68⟩, "t"⟩
    (some (.all ⟨69, 82⟩ ⟨⟨76, 77⟩, "X"⟩
      (.arrow ⟨78, 82⟩ (.var ⟨78, 79⟩ "X") (.var ⟨81, 82⟩ "A"))))
    (.tyLam ⟨83, 99⟩ ⟨⟨88, 89⟩, "X"⟩
      (.lam ⟨90, 99⟩ ⟨⟨94, 95⟩, "x"⟩ (.var ⟨96, 97⟩ "X") (.var ⟨98, 99⟩ "x")))⟩

/-- A source with two clashes parses to the two statements. -/
theorem parseProgram_clashingSource :
    Grammar.parseProgram clashingSource = .ok [wrongArgument, wrongTheorem] := by
  decide +kernel

/-- Running a declaration of a type leaves this type declared. -/
theorem runAll_assumedType : runAll .standard [] ["Variable A"] = [.type "A"] := by
  have parsed : Grammar.parseProgram "Variable A" = .ok [assumedType] := by decide +kernel
  simp only [runAll, run, parsed]
  rfl

/-- The names of the argument's types are those of the binders around the application,
and the theorem is shown as it was written. -/
theorem clashes_show_different_types_neighbours :
    ReachedByText .standard [.type "A"] ∧ Written wrongArgument ∧ Written wrongTheorem ∧
    (∃ clash expected found,
      (exec .standard [.type "A"] wrongArgument).2 = .error (.typing (.mismatch clash)) ∧
      clash.sides? = some (expected, found) ∧ expected.text = "forall C. C -> B" ∧
      found.text = "forall C. C -> C" ∧ expected.text ≠ found.text) ∧
    ∃ clash expected found,
      (exec .standard [.type "A"] wrongTheorem).2 = .error (.typing (.mismatch clash)) ∧
      clash.sides? = some (expected, found) ∧ expected.text = "forall X. X -> A" ∧
      found.text = "forall B. B -> B" ∧ expected.text ≠ found.text := by
  have reached : ReachedByText .standard [.type "A"] :=
    runAll_assumedType ▸ reachedByText_runAll .standard ["Variable A"]
  have writtenArgument : Written wrongArgument :=
    .ofParsed parseProgram_clashingSource List.mem_cons_self
  have writtenTheorem : Written wrongTheorem :=
    .ofParsed parseProgram_clashingSource (List.mem_cons_of_mem _ List.mem_cons_self)
  have distinct : (Scope.names [⟨.type, "A"⟩] .type).Nodup := List.nodup_singleton _
  obtain ⟨_, _, _, argumentsDiffer⟩ := clashes_show_different_types reached distinct writtenArgument
  obtain ⟨_, _, _, theoremsDiffer⟩ := clashes_show_different_types reached distinct writtenTheorem
  refine ⟨reached, writtenArgument, writtenTheorem, ?_, ?_⟩
  · refine ⟨_, _, _, rfl, rfl, ?_, ?_, (argumentsDiffer _ _ _ rfl rfl).2⟩
    · decide +kernel
    · decide +kernel
  · refine ⟨_, _, _, rfl, rfl, ?_, ?_, (theoremsDiffer _ _ _ rfl rfl).2⟩
    · decide +kernel
    · decide +kernel

end Session

end PolyLambda
