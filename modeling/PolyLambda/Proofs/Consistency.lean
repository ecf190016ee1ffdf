import Mathlib.Data.List.Induction
import PolyLambda.Proofs.AlphaEquivalence
import PolyLambda.Proofs.SessionRuns
import PolyLambda.Proofs.TypeMeaning

/-!
# Consistency

Read as a proposition about all propositions, the type of a term follows from the types
of the terms that it refers to. Where every term of a context has a definition these are
true, so no term has the type `forall X. X`, which is false. A session is in such a
context as long as no term has been assumed since the last new start, whatever types it
has assumed and however often it has used a name.
-/

namespace PolyLambda

namespace Indexed

/-! ## Types as propositions -/

/-- Arrows are implications, and quantifiers range over all propositions. -/
def truth : Reading Prop where
  arrow domain codomain := domain → codomain
  all body := ∀ proposition, body proposition

/-- The type is true when its free indices stand for the given propositions. -/
def Ty.Holds (assignment : Assignment Prop) (ty : Ty) : Prop :=
  ty.read truth assignment

/-- The types of all terms of the context are true. -/
def Context.Holds (assignment : Assignment Prop) (context : Context) : Prop :=
  ∀ index ty, context.termType? index = some ty → ty.Holds assignment

namespace Context.Holds

variable {assignment : Assignment Prop} {context : Context}

/-- A binder that is true itself, if it is one for a term, keeps all others true. -/
theorem cons {binding : Binding} {proposition : Prop} (holds : context.Holds assignment)
    (here : ∀ entry, binding = .term entry → entry.ty.Holds assignment) :
    Context.Holds (assignment.cons proposition) (binding :: context) := by
  intro index ty recorded
  cases index with
  | zero =>
      cases binding with
      | type => cases recorded
      | term entry =>
          cases recorded
          rw [Ty.Holds, Ty.read_lift_cons]
          exact here entry rfl
  | succ index =>
      rw [Context.termType?_cons_succ, Option.map_eq_some_iff] at recorded
      obtain ⟨below, recorded, rfl⟩ := recorded
      rw [Ty.Holds, Ty.read_lift_cons]
      exact holds index below recorded

/-- A context that holds does under a parameter whose type holds. -/
theorem pushTerm {paramType : Ty} (holds : context.Holds assignment)
    (paramHolds : paramType.Holds assignment) (proposition : Prop) :
    (context.pushTerm paramType).Holds (assignment.cons proposition) := by
  apply holds.cons
  rintro entry ⟨⟩
  exact paramHolds

/-- A context that holds does under a type binder, whatever is assigned to it. -/
theorem pushType (holds : context.Holds assignment) (proposition : Prop) :
    context.pushType.Holds (assignment.cons proposition) :=
  holds.cons nofun

end Context.Holds

/-- A term proves its type from the types of the terms it refers to. -/
theorem Typed.holds {context : Context} {term : Term} {ty : Ty} (typed : Typed context term ty)
    {assignment : Assignment Prop} (holds : context.Holds assignment) : ty.Holds assignment := by
  induction typed generalizing assignment with
  | var recorded => exact holds _ _ recorded
  | @lam _ _ _ paramType _ codomain _ _ bodyIH =>
      intro (paramHolds : paramType.Holds assignment)
      have bodyHolds := bodyIH (holds.pushTerm paramHolds True)
      rwa [Ty.Holds, Ty.read_lift_cons] at bodyHolds
  | app _ _ functionIH argumentIH => exact functionIH holds (argumentIH holds)
  | tyLam _ bodyIH => exact fun proposition => bodyIH (holds.pushType proposition)
  | tyApp _ _ functionIH =>
      rw [Ty.Holds, Ty.read_bodyAt]
      exact functionIH holds _
  | same _ same inductionHypothesis =>
      rw [Ty.Holds, ← same.read truth assignment]
      exact inductionHypothesis holds

end Indexed

/-! ## Contexts of definitions -/

/-- Every term of the context has a definition. -/
def Context.Defined {ν τ δ : Type} (context : Context ν τ δ) : Prop :=
  ∀ entry, .term entry ∈ context → entry.definition.isSome

/-- The empty context assumes no terms. -/
theorem Context.defined_nil {ν τ δ : Type} : Context.Defined ([] : Context ν τ δ) :=
  nofun

/-- A context assumes no terms exactly if neither its newest binding nor the rest does. -/
theorem Context.defined_cons_iff {ν τ δ : Type} {binding : Binding ν τ δ} {rest : Context ν τ δ} :
    Context.Defined (binding :: rest) ↔
      (∀ entry, binding = .term entry → entry.definition.isSome) ∧ Context.Defined rest := by
  constructor
  · intro defined
    refine ⟨?_, fun entry member => defined entry (List.mem_cons_of_mem _ member)⟩
    rintro entry rfl
    exact defined entry List.mem_cons_self
  · rintro ⟨here, below⟩ entry member
    rcases List.mem_cons.mp member with same | older
    · exact here entry same.symm
    · exact below entry older

/-- A context that assumes no terms does not when a type is added. -/
theorem Context.Defined.type {ν τ δ : Type} {rest : Context ν τ δ} (defined : rest.Defined)
    (name : ν) : Context.Defined (.type name :: rest) :=
  Context.defined_cons_iff.mpr ⟨nofun, defined⟩

/-- A context of definitions resolves to one. -/
theorem Named.Context.resolve_defined {context : Named.Context} {indexed : Indexed.Context}
    (resolved : Named.Context.resolve context = .ok indexed) (defined : context.Defined) :
    indexed.Defined := by
  induction context generalizing indexed with
  | nil =>
      cases resolved
      exact Context.defined_nil
  | cons binding rest restIH =>
      obtain ⟨here, below⟩ := Context.defined_cons_iff.mp defined
      cases binding with
      | type name =>
          obtain ⟨_, belowResolved, rfl⟩ := resolve_type_eq_ok_iff.mp resolved
          exact (restIH belowResolved below).type _
      | term entry =>
          obtain ⟨_, ty, definition, belowResolved, _, definitionResolved, rfl⟩ :=
            resolve_term_eq_ok_iff.mp resolved
          refine Context.defined_cons_iff.mpr ⟨?_, restIH belowResolved below⟩
          rintro _ ⟨⟩
          have entryDefined := here entry rfl
          rcases resolveDefinition_eq_ok_iff.mp definitionResolved with
            ⟨missing, _⟩ | ⟨_, _, _, _, rfl⟩
          · rw [missing] at entryDefined
            cases entryDefined
          · rfl

namespace Indexed

/-- A context that assumes no terms does not after collapsing. -/
theorem Context.collapse_defined {scope : Scope} {context : Context} (defined : context.Defined) :
    (context.collapse scope).Defined := by
  induction context generalizing scope with
  | nil => cases scope <;> exact Context.defined_nil
  | cons binding rest restIH =>
      cases scope with
      | nil => exact Context.defined_nil
      | cons binder scope =>
          obtain ⟨here, below⟩ := Context.defined_cons_iff.mp defined
          cases binding with
          | type name => exact (restIH below).type _
          | term entry =>
              refine Context.defined_cons_iff.mpr ⟨?_, restIH below⟩
              rintro _ ⟨⟩
              simpa using here entry rfl

/-- What a context of definitions records is true, whatever its type variables stand for. -/
theorem Context.WellTyped.holds {context : Context} (wellTyped : context.WellTyped)
    (defined : context.Defined) (assignment : Assignment Prop) : context.Holds assignment := by
  induction context generalizing assignment with
  | nil => nofun
  | cons binding rest restIH =>
      obtain ⟨here, below⟩ := Context.defined_cons_iff.mp defined
      have restHolds := restIH wellTyped.tail below fun index => assignment (index + 1)
      have split : assignment =
          Assignment.cons (assignment 0) fun index => assignment (index + 1) := by
        ext index
        cases index <;> rfl
      rw [split]
      apply restHolds.cons
      rintro entry rfl
      obtain ⟨definition, stored⟩ := Option.isSome_iff_exists.mp (here entry rfl)
      exact (wellTyped.2.1 definition stored).holds restHolds

/-- The type `forall X. X`, in indices. -/
def Ty.falsum (span varSpan : Span) : Ty :=
  .all span (.var varSpan 0)

/-- In a context of definitions no term proves everything. -/
theorem Typed.not_falsum {context : Context} (wellTyped : context.WellTyped)
    (defined : context.Defined) {term : Term} {span varSpan : Span} :
    ¬ Typed context term (.falsum span varSpan) := by
  intro typed
  have everything : ∀ proposition : Prop, proposition :=
    typed.holds (wellTyped.holds defined fun _ => True)
  exact everything False

end Indexed

/-! ## The type that everything follows from -/

namespace Named

/-- The type `forall X. X`. -/
def Ty.falsum : Ty :=
  .all default ⟨default, "X"⟩ (.var default "X")

/-- What differs from `forall X. X` in the name of the variable only resolves to the same
type, whatever names are in scope. -/
theorem Ty.Alpha.resolve_falsum {ty : Ty} (alpha : ty.Alpha .falsum) (scope : Scope) :
    ∃ span varSpan, ty.resolve scope = .ok (.falsum span varSpan) := by
  cases ty with
  | var | arrow => exact alpha.elim
  | all span param body =>
      cases body with
      | arrow | all => exact alpha.elim
      | var varSpan name =>
          rcases alpha with ⟨rfl, _⟩ | ⟨_, differs, _⟩
          · refine ⟨span, varSpan, ?_⟩
            have found : Scope.indexOf? (⟨.type, param.name⟩ :: scope) .type param.name = some 0 :=
              Scope.indexOf?_cons_self
            simp only [Ty.resolve, bind_eq_ok_iff]
            exact ⟨_, ⟨0, Scope.resolve_eq_ok_iff.mpr found, rfl⟩, rfl⟩
          · exact absurd rfl differs

end Named

/-! ## Sessions without assumed terms -/

namespace Session

variable {limits : Limits} {context : Named.Context}

/-- A statement that has run, with its result. -/
abbrev Event := Named.Statement × Result

/-- What happens when statements run one after another. -/
def events (limits : Limits) (context : Named.Context) (statements : List Named.Statement) :
    List Event :=
  statements.zip (execAll limits context statements).2

/-- The event is the successful assumption of a term. -/
def Event.assumesTerm : Event → Bool
  | (⟨_, .assumeTerm _ _⟩, .ok _) => true
  | _ => false

/-- The events since the last new start, the newest one first. -/
def sinceClear (events : List Event) : List Event :=
  events.reverse.takeWhile fun event => event.1.command ≠ .clear

/-- The events of statements end with the one of the last statement. -/
theorem events_concat (statements : List Named.Statement) (statement : Named.Statement) :
    events limits context (statements ++ [statement]) = events limits context statements ++
      [(statement, (exec limits (execAll limits context statements).1 statement).2)] := by
  unfold events
  rw [execAll_append, List.zip_append (length_execAll context statements).symm]
  rfl

/-- An event other than a new start is one since the last new start. -/
theorem sinceClear_concat {statement : Named.Statement} (result : Result) (events : List Event)
    (notClear : statement.command ≠ .clear) :
    sinceClear (events ++ [(statement, result)]) = (statement, result) :: sinceClear events := by
  simp [sinceClear, notClear]

/-- A statement that assumes no term leaves a context of definitions. -/
theorem exec_defined (defined : context.Defined) (statement : Named.Statement)
    (unassumed : ¬ Event.assumesTerm (statement, (exec limits context statement).2)) :
    (exec limits context statement).1.Defined := by
  cases success : effect limits context statement with
  | error failure => simpa [exec, success] using defined
  | ok result =>
      obtain ⟨next, outcome⟩ := result
      rw [exec_eq_ok_iff.mpr success] at unassumed ⊢
      obtain ⟨span, command⟩ := statement
      cases command with
      | assumeType name =>
          cases success
          exact defined.type _
      | assumeTerm name ty => exact absurd rfl unassumed
      | define name expected term =>
          obtain ⟨_, _, _, _, _, _, rfl⟩ := define_records success
          refine Context.defined_cons_iff.mpr ⟨?_, defined⟩
          rintro _ ⟨⟩
          rfl
      | reduce term =>
          obtain ⟨rfl, _⟩ := reduce_yields success
          exact defined
      | print name =>
          simp only [effect] at success
          split at success
          · cases success
            exact defined
          · cases success
      | clear =>
          cases success
          exact Context.defined_nil

/-- As long as no term has been assumed since the last new start, every term has a
definition. -/
theorem execAll_defined (statements : List Named.Statement)
    (unassumed : ∀ event ∈ sinceClear (events limits [] statements), ¬ event.assumesTerm) :
    (execAll limits [] statements).1.Defined := by
  induction statements using List.reverseRecOn with
  | nil => exact Context.defined_nil
  | append_singleton statements statement inductionHypothesis =>
      have ran : (execAll limits [] (statements ++ [statement])).1 =
          (exec limits (execAll limits [] statements).1 statement).1 := by
        rw [execAll_append]
        rfl
      rw [ran]
      by_cases clears : statement.command = .clear
      · -- A new start leaves nothing behind, whatever was assumed before it.
        have cleared : (exec limits (execAll limits [] statements).1 statement).1 = [] := by
          simp [exec, effect, clears]
        rw [cleared]
        exact Context.defined_nil
      · rw [events_concat, sinceClear_concat _ _ clears] at unassumed
        obtain ⟨here, before⟩ := List.forall_mem_cons.mp unassumed
        exact exec_defined (inductionHypothesis before) statement here

/-- What a definition is announced with is what it is recorded with. -/
theorem effect_defined {statement : Named.Statement} {next : Named.Context} {name : String}
    {ty : Named.Ty} (success : effect limits context statement = .ok (next, .defined name ty)) :
    ∃ term definition indexed actual,
      checkTerm limits context term = .ok (definition, indexed, actual) ∧
        Records context actual ty := by
  obtain ⟨span, command⟩ := statement
  cases command with
  | assumeType | clear => cases success
  | assumeTerm name ty =>
      simp only [effect, bind_eq_ok_iff] at success
      obtain ⟨_, _, impossible⟩ := success
      cases impossible
  | define identifier expected term =>
      obtain ⟨definition, indexed, actual, recorded, checked, records, recordedNext⟩ :=
        define_records success
      simp only [effect, define, bind_eq_ok_iff] at success
      obtain ⟨_, _, _, _, announced, _, result⟩ := success
      cases result
      cases recordedNext
      exact ⟨term, definition, indexed, actual, checked, records⟩
  | reduce term =>
      obtain ⟨_, _, _, impossible⟩ := reduce_yields success
      cases impossible
  | print name =>
      simp only [effect] at success
      split at success <;> cases success

/-- Where every term has a definition, nothing is recorded as a proof of everything. -/
theorem Sound.records_ne_falsum {indexed : Indexed.Context} (sound : Sound limits context indexed)
    (defined : context.Defined) {term : Indexed.Term} {actual : Indexed.Ty} {ty : Named.Ty}
    (deduced : term.deduce limits.range indexed = .ok actual) (records : Records context actual ty)
    {span varSpan : Span} : ty.resolve context.scope ≠ .ok (.falsum span varSpan) := by
  intro resolvesFalsum
  obtain ⟨recorded, resolves, same⟩ := records.resolve sound.describes (sound.inScope deduced)
  obtain rfl : recorded = .falsum span varSpan :=
    Except.ok.inj (resolves.symm.trans resolvesFalsum)
  -- Collapsing leaves a closed type alone, so the collapsed term proves everything.
  have typed := (Indexed.Term.deduce_typed sound.closed deduced).rename sound.carries
  have collapsedDefined : (indexed.collapse context.scope).Defined :=
    Indexed.Context.collapse_defined (Named.Context.resolve_defined sound.resolved defined)
  exact Indexed.Typed.not_falsum sound.collapsed collapsedDefined (typed.same same.symm)

/-- As long as no term has been assumed since the last new start, no statement of any
source text defines a term with the type `forall X. X`, under whatever name for `X`. -/
theorem falsum_never_defined (limits : Limits) (moment : Moment)
    (unassumed : ∀ event ∈ sinceClear (events limits [] moment.history), ¬ event.assumesTerm)
    {name : String} {ty : Named.Ty}
    (accepted : moment.result? limits = some (.ok (.defined name ty))) : ¬ ty.Alpha .falsum := by
  intro alpha
  have defined : (moment.context limits).Defined := by
    rw [moment.context_eq]
    exact execAll_defined moment.history unassumed
  obtain ⟨indexed, sound⟩ := (moment.reachable limits).recorded.sound
  have succeeded : (exec limits (moment.context limits) moment.statement).2 =
      .ok (.defined name ty) := Option.some.inj ((moment.result?_eq limits).symm.trans accepted)
  have effective := exec_eq_ok_iff.mp (Prod.ext rfl succeeded)
  obtain ⟨term, definition, found, actual, checked, records⟩ := effect_defined effective
  obtain ⟨rfl, _, deduced⟩ := sound.checked checked
  obtain ⟨span, varSpan, resolves⟩ := alpha.resolve_falsum (moment.context limits).scope
  exact sound.records_ne_falsum defined deduced records resolves

/-- After a new start, an assumption that fails, and a name used twice: the identity. -/
def provenIdentity : Moment where
  earlier := ["Axiom all: forall X. X; Define any = all; Clear"]
  source :=
    "Variable A; Axiom wrong: B; Variable A; Theorem id: forall X. X -> X = fun2 X. fun x: X. x"
  before :=
    [⟨⟨0, 10⟩, .assumeType ⟨⟨9, 10⟩, "A"⟩⟩,
      ⟨⟨12, 26⟩, .assumeTerm ⟨⟨18, 23⟩, "wrong"⟩ (.var ⟨25, 26⟩ "B")⟩,
      ⟨⟨28, 38⟩, .assumeType ⟨⟨37, 38⟩, "A"⟩⟩]
  statement :=
    ⟨⟨40, 90⟩, .define ⟨⟨48, 50⟩, "id"⟩
      (some (.all ⟨52, 68⟩ ⟨⟨59, 60⟩, "X"⟩
        (.arrow ⟨62, 68⟩ (.var ⟨62, 63⟩ "X") (.var ⟨67, 68⟩ "X"))))
      (.tyLam ⟨71, 90⟩ ⟨⟨76, 77⟩, "X"⟩
        (.lam ⟨79, 90⟩ ⟨⟨83, 84⟩, "x"⟩ (.var ⟨86, 87⟩ "X") (.var ⟨89, 90⟩ "x")))⟩
  after := []
  parsed := by decide +kernel

/-- The proven identity meets the conditions, and its type is not the false one. -/
theorem falsum_never_defined_identity :
    provenIdentity.history.length = 6 ∧
      (∀ event ∈ sinceClear (events .standard [] provenIdentity.history), ¬ event.assumesTerm) ∧
      ∃ ty : Named.Ty, provenIdentity.result? .standard = some (.ok (.defined "id" ty)) ∧
        ¬ ty.Alpha .falsum := by
  have unassumed : ∀ event ∈ sinceClear (events .standard [] provenIdentity.history),
      ¬ event.assumesTerm := by decide +kernel
  have accepted : provenIdentity.result? .standard = some (.ok (.defined "id"
      (.all ⟨52, 68⟩ ⟨⟨59, 60⟩, "X"⟩
        (.arrow ⟨62, 68⟩ (.var ⟨62, 63⟩ "X") (.var ⟨67, 68⟩ "X"))))) :=
    (provenIdentity.result?_eq .standard).trans rfl
  exact ⟨by decide +kernel, unassumed, _, accepted,
    falsum_never_defined .standard provenIdentity unassumed accepted⟩

end Session

end PolyLambda
