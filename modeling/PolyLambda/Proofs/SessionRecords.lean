import PolyLambda.Proofs.Reduction
import PolyLambda.Proofs.Shadowing
import PolyLambda.Session.Execution

/-!
# What a session records

Every binder of a session's context was admitted by the context below it: a type
assumed for a term resolves there, and a definition was checked there before its
type was recorded. The context that a run of statements leaves behind is therefore
well typed once type variables of one name are made one, and well formed where no
type name is used twice.
-/

namespace PolyLambda

namespace Session

variable {limits : Limits} {context : Named.Context}

/-! ## Checking and recording -/

/-- A term checks exactly if it resolves, the context does and a type is deduced. -/
theorem checkTerm_eq_ok_iff {named : Named.Term} {term : Indexed.Term}
    {indexed : Indexed.Context} {ty : Indexed.Ty} :
    checkTerm limits context named = .ok (term, indexed, ty) ↔
      named.resolve context.scope = .ok term ∧ Named.Context.resolve context = .ok indexed ∧
        term.deduce limits.range indexed = .ok ty := by
  simp only [checkTerm, bind_eq_ok_iff, mapError_eq_ok_iff]
  constructor
  · rintro ⟨_, resolved, _, contextResolved, _, deduced, result⟩
    cases result
    exact ⟨resolved, contextResolved, deduced⟩
  · rintro ⟨resolved, contextResolved, deduced⟩
    exact ⟨_, resolved, _, contextResolved, _, deduced, rfl⟩

/-- A named type is what a definition is recorded with if its deduced type is this
one: either the deduced type was named, or the announced type resolves to it. -/
def Records (context : Named.Context) (actual : Indexed.Ty) (ty : Named.Ty) : Prop :=
  context.nameType actual = .ok ty ∨
    ∃ resolved, ty.resolve context.scope = .ok resolved ∧ actual.Same resolved

/-- A definition that succeeds records the term with its own or its announced type. -/
theorem define_records {name : String} {expected : Option Named.Ty} {term : Named.Term}
    {next : Named.Context} {outcome : Outcome}
    (defined : define limits context name expected term = .ok (next, outcome)) :
    ∃ definition indexed actual ty,
      checkTerm limits context term = .ok (definition, indexed, actual) ∧
        Records context actual ty ∧ next = .term ⟨name, ty, some term⟩ :: context := by
  simp only [define, bind_eq_ok_iff] at defined
  obtain ⟨announced, announcedResolved, ⟨definition, indexed, actual⟩, checked, ty, recorded,
    result⟩ := defined
  cases result
  refine ⟨definition, indexed, actual, ty, checked, ?_, rfl⟩
  cases expected with
  | none =>
      cases announcedResolved
      simp only [recordedType, nameType, mapError_eq_ok_iff] at recorded
      exact .inl recorded
  | some written =>
      simp only [resolveAnnounced, bind_eq_ok_iff, mapError_eq_ok_iff] at announcedResolved
      obtain ⟨resolved, writtenResolved, result⟩ := announcedResolved
      cases result
      simp only [recordedType] at recorded
      split at recorded
      · next same =>
          cases recorded
          exact .inr ⟨resolved, writtenResolved, same⟩
      · simp only [bind_eq_ok_iff] at recorded
        obtain ⟨_, _, impossible⟩ := recorded
        cases impossible

/-- A reduction yields a normal form and leaves the context alone. -/
theorem reduce_yields {span : Span} {term : Named.Term} {next : Named.Context} {outcome : Outcome}
    (reduced : reduce limits context span term = .ok (next, outcome)) :
    next = context ∧ ∃ normal ty, outcome = .reduced normal ty := by
  simp only [reduce, bind_eq_ok_iff] at reduced
  obtain ⟨_, _, _, _, _, _, rest⟩ := reduced
  split at rest
  · simp only [bind_eq_ok_iff] at rest
    obtain ⟨normal, _, ty, _, result⟩ := rest
    cases result
    exact ⟨rfl, normal, ty, rfl⟩
  · simp only [bind_eq_ok_iff] at rest
    obtain ⟨_, _, _, _, impossible⟩ := rest
    cases impossible

/-- What a statement can add to a context. -/
inductive Admits (limits : Limits) (context : Named.Context) : Named.Binding → Prop
  | type (name : String) : Admits limits context (.type name)
  | assumed {name ty resolved} (resolves : ty.resolve context.scope = .ok resolved) :
      Admits limits context (.term ⟨name, ty, none⟩)
  | defined {name ty term definition indexed actual}
      (checked : checkTerm limits context term = .ok (definition, indexed, actual))
      (records : Records context actual ty) :
      Admits limits context (.term ⟨name, ty, some term⟩)

/-- A statement leaves the context as it is, empties it or adds one binding that is admitted. -/
theorem effect_cases {statement : Named.Statement} {next : Named.Context} {outcome : Outcome}
    (success : effect limits context statement = .ok (next, outcome)) :
    next = context ∨ next = [] ∨
      ∃ binding, Admits limits context binding ∧ next = binding :: context := by
  obtain ⟨span, command⟩ := statement
  cases command with
  | assumeType name =>
      cases success
      exact .inr (.inr ⟨_, .type name.name, rfl⟩)
  | assumeTerm name ty =>
      simp only [effect, bind_eq_ok_iff, mapError_eq_ok_iff] at success
      obtain ⟨resolved, resolves, result⟩ := success
      cases result
      exact .inr (.inr ⟨_, .assumed resolves, rfl⟩)
  | define name expected term =>
      obtain ⟨_, _, _, _, checked, records, rfl⟩ := define_records success
      exact .inr (.inr ⟨_, .defined checked records, rfl⟩)
  | reduce term => exact .inl (reduce_yields success).1
  | print name =>
      simp only [effect] at success
      split at success
      · cases success
        exact .inl rfl
      · cases success
  | clear =>
      cases success
      exact .inr (.inl rfl)

/-! ## Runs -/

/-- A statement is executed with an outcome exactly if this is its effect. -/
theorem exec_eq_ok_iff {statement : Named.Statement} {next : Named.Context} {outcome : Outcome} :
    exec limits context statement = (next, .ok outcome) ↔
      effect limits context statement = .ok (next, outcome) := by
  unfold exec
  cases effect limits context statement <;> simp [Prod.ext_iff]

/-- A statement is executed with a failure exactly if its effect fails so. -/
theorem exec_eq_error_iff {statement : Named.Statement} {failure : Failure} :
    (exec limits context statement).2 = .error failure ↔
      effect limits context statement = .error failure := by
  unfold exec
  cases effect limits context statement <;> simp

/-- Every binder was admitted by the context below it. -/
def Recorded (limits : Limits) : Named.Context → Prop
  | [] => True
  | binding :: rest => Admits limits rest binding ∧ Recorded limits rest

/-- Executing a statement keeps a context one of records. -/
theorem Recorded.exec (recorded : Recorded limits context) (statement : Named.Statement) :
    Recorded limits (exec limits context statement).1 := by
  unfold Session.exec
  cases success : effect limits context statement with
  | error failure => exact recorded
  | ok result =>
      obtain ⟨next, outcome⟩ := result
      rcases effect_cases success with rfl | rfl | ⟨binding, admitted, rfl⟩
      · exact recorded
      · trivial
      · exact ⟨admitted, recorded⟩

/-- Executing statements keeps a context one of records. -/
theorem Recorded.execAll (recorded : Recorded limits context) (statements : List Named.Statement) :
    Recorded limits (execAll limits context statements).1 := by
  induction statements generalizing context with
  | nil => exact recorded
  | cons statement rest restIH => exact restIH (recorded.exec statement)

/-- Some statements lead from the empty context to this one. -/
def Reachable (limits : Limits) (context : Named.Context) : Prop :=
  ∃ statements, (execAll limits [] statements).1 = context

/-- A reachable context is one of records. -/
theorem Reachable.recorded (reachable : Reachable limits context) : Recorded limits context := by
  obtain ⟨statements, rfl⟩ := reachable
  have start : Recorded limits [] := trivial
  exact start.execAll statements

/-! ## What recorded contexts resolve to -/

/-- What is recorded with a definition resolves, and collapsing makes it the deduced
type. -/
theorem Records.resolve {actual : Indexed.Ty} {ty : Named.Ty} (records : Records context actual ty)
    {indexed : Indexed.Context} (describes : context.scope.Describes indexed)
    (inScope : actual.InScope indexed) :
    ∃ recorded, ty.resolve context.scope = .ok recorded ∧
      (recorded.rename context.scope.oldest).Same (actual.rename context.scope.oldest) := by
  rcases records with named | ⟨resolved, writtenResolved, same⟩
  · refine ⟨_, Named.Context.nameType_resolve named, ?_⟩
    rw [inScope.rename_newest_oldest describes]
    exact .refl _
  · exact ⟨resolved, writtenResolved, same.symm.rename _⟩

/-- A context resolves, collapsing makes the result well typed, and it is well formed
where no type name is used twice. -/
structure Sound (limits : Limits) (context : Named.Context) (indexed : Indexed.Context) : Prop where
  resolved : Named.Context.resolve context = .ok indexed
  collapsed : (indexed.collapse context.scope).WellTyped
  wellFormed : (context.scope.names .type).Nodup → indexed.WellFormed limits.range

namespace Sound

variable {indexed : Indexed.Context}

/-- The scope of a sound context describes what it resolves to. -/
theorem describes (sound : Sound limits context indexed) : context.scope.Describes indexed :=
  Named.Context.resolve_describes sound.resolved

/-- What a sound context resolves to refers to nothing outside of itself. -/
theorem closed (sound : Sound limits context indexed) : indexed.Scoped :=
  Named.Context.resolve_scoped sound.resolved

/-- A sound context is carried into the one in which shadowing is collapsed. -/
theorem carries (sound : Sound limits context indexed) :
    context.scope.oldest.Carries indexed (indexed.collapse context.scope) :=
  Indexed.Context.collapse_carries sound.describes

/-- Deduced types are in the scope of the context. -/
theorem inScope (sound : Sound limits context indexed) {range : Indexed.IndexRange}
    {term : Indexed.Term} {ty : Indexed.Ty} (deduced : term.deduce range indexed = .ok ty) :
    ty.InScope indexed :=
  (Indexed.Term.deduce_typed sound.closed deduced).ty_inScope sound.closed

/-- Terms are checked in what the context resolves to. -/
theorem checked (sound : Sound limits context indexed) {named : Named.Term} {term : Indexed.Term}
    {found : Indexed.Context} {ty : Indexed.Ty}
    (success : checkTerm limits context named = .ok (term, found, ty)) :
    found = indexed ∧ named.resolve context.scope = .ok term ∧
      term.deduce limits.range indexed = .ok ty := by
  obtain ⟨termResolves, contextResolves, deduced⟩ := checkTerm_eq_ok_iff.mp success
  obtain rfl : found = indexed := Except.ok.inj (contextResolves.symm.trans sound.resolved)
  exact ⟨rfl, termResolves, deduced⟩

/-- Assuming a term of a type that resolves keeps a context sound. -/
theorem assumed (sound : Sound limits context indexed) (name : String) {ty : Named.Ty}
    {resolved : Indexed.Ty} (resolves : ty.resolve context.scope = .ok resolved) :
    Sound limits (.term ⟨name, ty, none⟩ :: context) (.term ⟨(), resolved, none⟩ :: indexed) where
  resolved := Named.Context.resolve_term_eq_ok_iff.mpr
    ⟨indexed, resolved, none, sound.resolved, resolves, rfl, rfl⟩
  collapsed := by
    have inScope := Named.Ty.resolve_inScope resolves sound.describes
    exact ⟨inScope.rename sound.carries, nofun, sound.collapsed⟩
  wellFormed distinct := by
    have inScope := Named.Ty.resolve_inScope resolves sound.describes
    exact ⟨(Indexed.Ty.checkScope_eq_ok_iff indexed 0 resolved).mpr inScope, nofun,
      sound.wellFormed distinct⟩

/-- Defining a term of a recorded type that is the same after collapsing keeps a
context sound. -/
theorem defined (sound : Sound limits context indexed) (name : String) {ty : Named.Ty}
    {term : Named.Term} {definition : Indexed.Term} {actual recorded : Indexed.Ty}
    (termResolves : term.resolve context.scope = .ok definition)
    (deduced : definition.deduce limits.range indexed = .ok actual)
    (resolves : ty.resolve context.scope = .ok recorded)
    (same : (recorded.rename context.scope.oldest).Same (actual.rename context.scope.oldest)) :
    Sound limits (.term ⟨name, ty, some term⟩ :: context)
      (.term ⟨(), recorded, some definition⟩ :: indexed) where
  resolved := by
    have definitionResolves : Named.resolveDefinition context.scope (some term) =
        .ok (some definition) :=
      Named.resolveDefinition_eq_ok_iff.mpr (.inr ⟨term, definition, rfl, termResolves, rfl⟩)
    exact Named.Context.resolve_term_eq_ok_iff.mpr
      ⟨indexed, recorded, some definition, sound.resolved, resolves, definitionResolves, rfl⟩
  collapsed := by
    have inScope := Named.Ty.resolve_inScope resolves sound.describes
    refine ⟨inScope.rename sound.carries, ?_, sound.collapsed⟩
    rintro _ ⟨⟩
    have typed := Indexed.Term.deduce_typed sound.closed deduced
    exact (typed.rename sound.carries).same same.symm
  wellFormed distinct := by
    have inScope := Named.Ty.resolve_inScope resolves sound.describes
    refine ⟨(Indexed.Ty.checkScope_eq_ok_iff indexed 0 recorded).mpr inScope, ?_,
      sound.wellFormed distinct⟩
    rintro _ ⟨⟩
    have belowDistinct : (context.scope.names .type).Nodup := distinct
    simp only [Indexed.Ty.rename_oldest_of_distinct belowDistinct] at same
    exact ⟨actual, deduced, same.symm⟩

end Sound

/-- What a sound context admits leaves it sound. -/
theorem Admits.sound {binding : Named.Binding} {indexed : Indexed.Context}
    (admitted : Admits limits context binding) (sound : Sound limits context indexed) :
    ∃ entry, Sound limits (binding :: context) (entry :: indexed) := by
  cases admitted with
  | type name =>
      refine ⟨.type (), ?_, sound.collapsed, ?_⟩
      · exact Named.Context.resolve_type_eq_ok_iff.mpr ⟨indexed, sound.resolved, rfl⟩
      · intro distinct
        exact sound.wellFormed (List.nodup_cons.mp distinct).2
  | assumed resolves => exact ⟨_, sound.assumed _ resolves⟩
  | defined checked records =>
      obtain ⟨rfl, termResolves, deduced⟩ := sound.checked checked
      obtain ⟨recorded, resolves, same⟩ := records.resolve sound.describes (sound.inScope deduced)
      exact ⟨_, sound.defined _ termResolves deduced resolves same⟩

/-- A context of records is sound. -/
theorem Recorded.sound (recorded : Recorded limits context) :
    ∃ indexed, Sound limits context indexed := by
  induction context with
  | nil => exact ⟨[], rfl, trivial, fun _ => trivial⟩
  | cons binding rest restIH =>
      obtain ⟨indexed, sound⟩ := restIH recorded.2
      obtain ⟨entry, soundEntry⟩ := recorded.1.sound sound
      exact ⟨entry :: indexed, soundEntry⟩

end Session

end PolyLambda
