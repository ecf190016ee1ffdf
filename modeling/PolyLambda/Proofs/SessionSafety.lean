import PolyLambda.Proofs.NamingTotality
import PolyLambda.Proofs.SessionRuns
import PolyLambda.Proofs.TreeHeights

/-!
# What can be wrong with a statement

Whatever source texts a session has run, its context resolves, and all indices of the
trees that a statement makes it build denote binders of their kinds. A statement can
therefore fail for reasons of its own only: it names something unbound, types clash,
its normal form is out of reach, or normalising changed its type. Index arithmetic
fails only where a tree is too high for the range of indices.
-/

namespace PolyLambda

/-! ## Names that occur -/

/-- A name that does not resolve is reported with its kind and place. -/
theorem Scope.resolve_error {scope : Scope} {kind : Kind} {name : String} {span : Span}
    {occurrence : Unbound} (failed : scope.resolve kind name span = .error occurrence) :
    occurrence = ⟨kind, name, span⟩ := by
  unfold Scope.resolve at failed
  split at failed
  · cases failed
  · exact (Except.error.inj failed).symm

namespace Named

/-- The occurrences of variables in a type, from left to right. -/
def Ty.occurrences : Ty → List Unbound
  | .var span name => [⟨.type, name, span⟩]
  | .arrow _ domain codomain => domain.occurrences ++ codomain.occurrences
  | .all _ _ body => body.occurrences

/-- The occurrences of variables in a term, from left to right. -/
def Term.occurrences : Term → List Unbound
  | .var span name => [⟨.term, name, span⟩]
  | .lam _ _ paramType body => paramType.occurrences ++ body.occurrences
  | .app _ function argument => function.occurrences ++ argument.occurrences
  | .tyLam _ _ body => body.occurrences
  | .tyApp _ function argument => function.occurrences ++ argument.occurrences

/-- The occurrences of names that a command refers to. -/
def Command.occurrences : Command → List Unbound
  | .assumeType _ => []
  | .assumeTerm _ ty => ty.occurrences
  | .define _ expected term => (expected.map Ty.occurrences).getD [] ++ term.occurrences
  | .reduce term => term.occurrences
  | .print name => [⟨.term, name.name, name.span⟩]
  | .clear => []

/-- A type that does not resolve has the reported name in it. -/
theorem Ty.resolve_error {scope : Scope} {named : Ty} {occurrence : Unbound}
    (failed : named.resolve scope = .error occurrence) : occurrence ∈ named.occurrences := by
  induction named generalizing scope with
  | var span name =>
      simp only [Ty.resolve, bind_eq_error_iff] at failed
      rcases failed with unresolved | ⟨_, _, ⟨⟩⟩
      rw [Scope.resolve_error unresolved]
      exact List.mem_singleton_self _
  | arrow span domain codomain domainIH codomainIH =>
      simp only [Ty.resolve, bind_eq_error_iff] at failed
      rcases failed with domainFailed | ⟨_, _, codomainFailed | ⟨_, _, ⟨⟩⟩⟩
      · exact List.mem_append_left _ (domainIH domainFailed)
      · exact List.mem_append_right _ (codomainIH codomainFailed)
  | all span param body bodyIH =>
      simp only [Ty.resolve, bind_eq_error_iff] at failed
      rcases failed with bodyFailed | ⟨_, _, ⟨⟩⟩
      exact bodyIH bodyFailed

/-- A term that does not resolve has the reported name in it. -/
theorem Term.resolve_error {scope : Scope} {named : Term} {occurrence : Unbound}
    (failed : named.resolve scope = .error occurrence) : occurrence ∈ named.occurrences := by
  induction named generalizing scope with
  | var span name =>
      simp only [Term.resolve, bind_eq_error_iff] at failed
      rcases failed with unresolved | ⟨_, _, ⟨⟩⟩
      rw [Scope.resolve_error unresolved]
      exact List.mem_singleton_self _
  | lam span param paramType body bodyIH =>
      simp only [Term.resolve, bind_eq_error_iff] at failed
      rcases failed with typeFailed | ⟨_, _, bodyFailed | ⟨_, _, ⟨⟩⟩⟩
      · exact List.mem_append_left _ (Ty.resolve_error typeFailed)
      · exact List.mem_append_right _ (bodyIH bodyFailed)
  | app span function argument functionIH argumentIH =>
      simp only [Term.resolve, bind_eq_error_iff] at failed
      rcases failed with functionFailed | ⟨_, _, argumentFailed | ⟨_, _, ⟨⟩⟩⟩
      · exact List.mem_append_left _ (functionIH functionFailed)
      · exact List.mem_append_right _ (argumentIH argumentFailed)
  | tyLam span param body bodyIH =>
      simp only [Term.resolve, bind_eq_error_iff] at failed
      rcases failed with bodyFailed | ⟨_, _, ⟨⟩⟩
      exact bodyIH bodyFailed
  | tyApp span function argument functionIH =>
      simp only [Term.resolve, bind_eq_error_iff] at failed
      rcases failed with functionFailed | ⟨_, _, argumentFailed | ⟨_, _, ⟨⟩⟩⟩
      · exact List.mem_append_left _ (functionIH functionFailed)
      · exact List.mem_append_right _ (Ty.resolve_error argumentFailed)

end Named

/-! ## Trees that are too high -/

namespace Indexed

/-- Deduction leaves the range of indices only at a tree that is too high for it. -/
theorem Term.InScope.not_deducesWithin {range : IndexRange} {context : Context} {term : Term}
    {fault : IndexFault} (inScope : term.InScope context) (closed : context.Scoped)
    (failed : term.deduce range context = .error (.indexFault fault)) :
    ¬ term.DeducesWithin range context := by
  intro within
  rw [Term.deduce_eq_unlimited closed inScope within] at failed
  obtain ⟨_, _, _, fails⟩ := Term.deduce_error failed
  cases fails with
  | indexFault limited => exact limited rfl

/-- Normalisation leaves the range of indices only at a term that is too high for it. -/
theorem Term.InScope.not_normalizesWithin {range : IndexRange} {depth : Nat} {context : Context}
    {term : Term} {fault : IndexFault} (inScope : term.InScope context) (closed : context.Scoped)
    (failed : term.normalize range depth context = .error (.indexFault fault)) :
    ¬ term.NormalizesWithin range depth context := by
  intro within
  rw [Term.normalize_eq_unlimited closed inScope within] at failed
  rcases inScope.normalize_error closed failed with impossible | ⟨limited, _⟩
  · cases impossible
  · exact limited rfl

end Indexed

/-- The heights of all trees met by executing a command, in a context given by its
scope and its indexed form. -/
def Named.Command.heights (depth : Nat) (scope : Scope) (context : Indexed.Context) :
    Named.Command → List Nat
  | .define _ _ term =>
    match term.resolve scope with
    | .ok term => term.deductionHeights context
    | .error _ => []
  | .reduce term =>
    match term.resolve scope with
    | .ok term => term.reductionHeights depth context
    | .error _ => []
  | _ => []

namespace Session

variable {limits : Limits} {context : Named.Context} {indexed : Indexed.Context}

/-- The range of indices has room for all trees that a command makes the session meet. -/
def Within (limits : Limits) (scope : Scope) (indexed : Indexed.Context)
    (command : Named.Command) : Prop :=
  ∀ height ∈ command.heights limits.depth scope indexed, limits.range.AdmitsDistance height

/-- Room for a definition is room for the deduction of its type. -/
theorem Within.define {name : Named.Ident} {expected : Option Named.Ty} {named : Named.Term}
    {term : Indexed.Term}
    (within : Within limits context.scope indexed (.define name expected named))
    (resolved : named.resolve context.scope = .ok term) :
    term.DeducesWithin limits.range indexed := by
  simp only [Within, Named.Command.heights, resolved] at within
  exact within

/-- Room for a reduction is room for the reduction of its term. -/
theorem Within.reduce {named : Named.Term} {term : Indexed.Term}
    (within : Within limits context.scope indexed (.reduce named))
    (resolved : named.resolve context.scope = .ok term) :
    term.ReducesWithin limits.range limits.depth indexed := by
  simp only [Within, Named.Command.heights, resolved] at within
  exact within

/-! ## Reasons to fail -/

/-- What can be wrong with a command. Illegal indices are not among it. -/
inductive Complaint (limits : Limits) (scope : Scope) (indexed : Indexed.Context)
    (command : Named.Command) : Failure → Prop
  /-- A name that occurs in the command is not bound. -/
  | unbound {occurrence} (occurs : occurrence ∈ command.occurrences) :
      Complaint limits scope indexed command (.unbound occurrence)
  /-- Types clash. -/
  | mismatch {clash} : Complaint limits scope indexed command (.typing (.mismatch clash))
  /-- The normal form is out of reach. -/
  | exhausted : Complaint limits scope indexed command (.reduction .exhausted)
  /-- Normalising changed the type. -/
  | unsound {change} : Complaint limits scope indexed command (.unsound change)
  /-- Checking meets a tree that is too high. -/
  | typingFault {fault} (high : ¬ Within limits scope indexed command) :
      Complaint limits scope indexed command (.typing (.indexFault fault))
  /-- Normalising meets a term that is too high. -/
  | reductionFault {fault} (high : ¬ Within limits scope indexed command) :
      Complaint limits scope indexed command (.reduction (.indexFault fault))

/-- Putting a type error in terms of names makes it a clash, unless it is a fault. -/
theorem Sound.typing_complaint (sound : Sound limits context indexed) {command : Named.Command}
    {term : Indexed.Term} (inScope : term.InScope indexed) {error : Indexed.TypeError}
    (failed : term.deduce limits.range indexed = .error error)
    (room : Within limits context.scope indexed command → term.DeducesWithin limits.range indexed) :
    Complaint limits context.scope indexed command (.typing (error.inContext context)) := by
  have errorInScope := inScope.deduce_error sound.closed failed
  rcases errorInScope.inContext sound.describes with ⟨fault, rfl, fails⟩ | ⟨clash, fails⟩
  · rw [fails]
    have high := inScope.not_deducesWithin sound.closed failed
    exact .typingFault (fun within => high (room within))
  · rw [fails]
    exact .mismatch

/-- Checking a term in a sound context fails with a complaint only. -/
theorem Sound.checkTerm_complaint (sound : Sound limits context indexed) {command : Named.Command}
    {named : Named.Term} {failure : Failure}
    (failed : checkTerm limits context named = .error failure)
    (occurs : ∀ occurrence ∈ named.occurrences, occurrence ∈ command.occurrences)
    (room : ∀ term, named.resolve context.scope = .ok term →
      Within limits context.scope indexed command → term.DeducesWithin limits.range indexed) :
    Complaint limits context.scope indexed command failure := by
  simp only [checkTerm, sound.resolved, bind_eq_error_iff, mapError_eq_error_iff,
    mapError_eq_ok_iff] at failed
  rcases failed with ⟨occurrence, unresolved, rfl⟩ | ⟨term, resolved, failed⟩
  · exact .unbound (occurs occurrence (Named.Term.resolve_error unresolved))
  rcases failed with ⟨_, ⟨⟩, _⟩ | ⟨_, ⟨⟩, failed⟩
  rcases failed with ⟨error, untyped, rfl⟩ | ⟨_, _, ⟨⟩⟩
  have inScope := Named.Term.resolve_inScope resolved sound.describes
  exact sound.typing_complaint inScope untyped (room term resolved)

/-- Types in scope can be named. -/
theorem Sound.nameType_ne_error (sound : Sound limits context indexed) {ty : Indexed.Ty}
    (inScope : ty.InScope indexed) {failure : Failure} :
    nameType context ty ≠ .error failure := by
  intro failed
  obtain ⟨named, naming⟩ := Named.Context.nameType_of_inScope sound.describes inScope
  simp [nameType, naming] at failed

/-- Every term in the scope of a sound context has names. -/
theorem Sound.nameTerm_ne_error (sound : Sound limits context indexed) {term : Indexed.Term}
    (inScope : term.InScope indexed) {failure : Failure} :
    nameTerm context term ≠ .error failure := by
  intro failed
  obtain ⟨named, naming⟩ := Named.Context.nameTerm_of_inScope sound.describes inScope
  simp [nameTerm, naming] at failed

/-- Defining a name in a sound context fails with a complaint only. -/
theorem Sound.define_complaint (sound : Sound limits context indexed) {name : Named.Ident}
    {expected : Option Named.Ty} {term : Named.Term} {failure : Failure}
    (failed : define limits context name.name expected term = .error failure) :
    Complaint limits context.scope indexed (.define name expected term) failure := by
  simp only [define, bind_eq_error_iff] at failed
  rcases failed with unannounced | ⟨announced, _, failed⟩
  · cases expected with
    | none => cases unannounced
    | some written =>
        simp only [resolveAnnounced, bind_eq_error_iff, mapError_eq_error_iff] at unannounced
        rcases unannounced with ⟨occurrence, unresolved, rfl⟩ | ⟨_, _, ⟨⟩⟩
        exact .unbound (List.mem_append_left _ (Named.Ty.resolve_error unresolved))
  rcases failed with unchecked | ⟨⟨definition, found, actual⟩, checked, failed⟩
  · apply sound.checkTerm_complaint unchecked
    · exact fun occurrence occurs => List.mem_append_right _ occurs
    · exact fun definition resolved within => within.define resolved
  obtain ⟨rfl, _, deduced⟩ := sound.checked checked
  have actualInScope := sound.inScope deduced
  rcases failed with unrecorded | ⟨_, _, ⟨⟩⟩
  cases announced with
  | none => exact absurd unrecorded (sound.nameType_ne_error actualInScope)
  | some announced =>
      simp only [recordedType] at unrecorded
      split at unrecorded
      · cases unrecorded
      · simp only [bind_eq_error_iff] at unrecorded
        rcases unrecorded with unnamed | ⟨_, _, ⟨⟩⟩
        · exact absurd unnamed (sound.nameType_ne_error actualInScope)
        · exact .mismatch

/-- Reducing a term in a sound context fails with a complaint only. -/
theorem Sound.reduce_complaint (sound : Sound limits context indexed) {span : Span}
    {named : Named.Term} {failure : Failure}
    (failed : reduce limits context span named = .error failure) :
    Complaint limits context.scope indexed (.reduce named) failure := by
  simp only [reduce, bind_eq_error_iff, mapError_eq_error_iff, mapError_eq_ok_iff] at failed
  rcases failed with unchecked | ⟨⟨term, found, expected⟩, checked, failed⟩
  · apply sound.checkTerm_complaint unchecked
    · exact fun occurrence occurs => occurs
    · exact fun term resolved within => (within.reduce resolved).deduces
  obtain ⟨rfl, resolved, deduced⟩ := sound.checked checked
  have typed := Indexed.Term.deduce_typed sound.closed deduced
  obtain ⟨_, unlimitedDeduced, _⟩ := typed.deduce
  rcases failed with ⟨error, unnormalized, rfl⟩ | ⟨normal, normalized, failed⟩
  · rcases typed.inScope.normalize_error sound.closed unnormalized with
      rfl | ⟨_, fault, rfl⟩
    · exact .exhausted
    · have high := typed.inScope.not_normalizesWithin sound.closed unnormalized
      exact .reductionFault fun within =>
        high ((within.reduce resolved).normalizes unlimitedDeduced)
  have normalInScope := Indexed.Term.normalize_inScope sound.closed typed.inScope normalized
  rcases failed with ⟨error, untyped, rfl⟩ | ⟨foundType, normalDeduced, failed⟩
  · apply sound.typing_complaint normalInScope untyped
    intro within
    have room := within.reduce resolved
    have unlimited := Indexed.Term.normalize_eq_unlimited sound.closed typed.inScope
      (room.normalizes unlimitedDeduced)
    rw [normalized] at unlimited
    exact room.normalForm unlimitedDeduced unlimited.symm
  have expectedInScope := sound.inScope deduced
  have foundInScope := sound.inScope normalDeduced
  split at failed
  · simp only [bind_eq_error_iff] at failed
    rcases failed with unnamed | ⟨_, _, unnamed | ⟨_, _, ⟨⟩⟩⟩
    · exact absurd unnamed (sound.nameTerm_ne_error normalInScope)
    · exact absurd unnamed (sound.nameType_ne_error expectedInScope)
  · simp only [bind_eq_error_iff] at failed
    rcases failed with unnamed | ⟨_, _, unnamed | ⟨_, _, ⟨⟩⟩⟩
    · exact absurd unnamed (sound.nameType_ne_error expectedInScope)
    · exact absurd unnamed (sound.nameType_ne_error foundInScope)
    · exact .unsound

/-- All that can keep a statement from having an effect in a sound context. -/
theorem Sound.effect_complaint (sound : Sound limits context indexed)
    {statement : Named.Statement} {failure : Failure}
    (failed : effect limits context statement = .error failure) :
    Complaint limits context.scope indexed statement.command failure := by
  obtain ⟨span, command⟩ := statement
  cases command with
  | assumeType | clear => cases failed
  | assumeTerm name ty =>
      simp only [effect, bind_eq_error_iff, mapError_eq_error_iff] at failed
      rcases failed with ⟨occurrence, unresolved, rfl⟩ | ⟨_, _, ⟨⟩⟩
      exact .unbound (Named.Ty.resolve_error unresolved)
  | define name expected term => exact sound.define_complaint failed
  | reduce term => exact sound.reduce_complaint failed
  | print name =>
      simp only [effect] at failed
      split at failed
      · cases failed
      · cases failed
        exact .unbound (List.mem_singleton_self _)

/-! ## Statements of source texts -/

/-- Whatever source texts have been run, the context resolves, and a failing statement
blames no illegal index and no name that does not occur in it. If no tree that it meets
has as many as `2 ^ 63` binders around one of its places, index arithmetic does not fail. -/
theorem source_indices_legal (depth : Nat) (moment : Moment) :
    ∃ indexed, Named.Context.resolve (moment.context ⟨.standard, depth⟩) = .ok indexed ∧
      ∀ failure, moment.result? ⟨.standard, depth⟩ = some (.error failure) →
        (∀ index, failure ≠ .typing (.illegal index) ∧ failure ≠ .reduction (.illegal index)) ∧
        (∀ occurrence, failure = .unbound occurrence →
          occurrence ∈ moment.statement.command.occurrences) ∧
        ((∀ height ∈ moment.statement.command.heights depth
            (moment.context ⟨.standard, depth⟩).scope indexed, height < Nat.pow 2 63) →
          ∀ fault, failure ≠ .typing (.indexFault fault) ∧
            failure ≠ .reduction (.indexFault fault)) := by
  obtain ⟨indexed, sound⟩ := (moment.reachable ⟨.standard, depth⟩).recorded.sound
  refine ⟨indexed, sound.resolved, ?_⟩
  intro failure reported
  have failed := exec_eq_error_iff.mp (Option.some.inj ((moment.result?_eq _).symm.trans reported))
  have complaint := sound.effect_complaint failed
  refine ⟨?_, ?_, ?_⟩
  · intro index
    constructor
    · rintro rfl
      cases complaint
    · rintro rfl
      cases complaint
  · rintro occurrence rfl
    cases complaint with
    | unbound occurs => exact occurs
  · intro low fault
    have within : Within ⟨.standard, depth⟩ (moment.context ⟨.standard, depth⟩).scope indexed
        moment.statement.command := low
    constructor
    · rintro rfl
      cases complaint with
      | typingFault high => exact high within
    · rintro rfl
      cases complaint with
      | reductionFault high => exact high within

/-- Reducing a term in whose context a type variable is hidden by another of its name. -/
def hiddenReduction : Moment where
  earlier := ["Variable A; Axiom f: A -> A"]
  source := "Variable A; Define d = f; Axiom a: A; Reduce d a"
  before :=
    [⟨⟨0, 10⟩, .assumeType ⟨⟨9, 10⟩, "A"⟩⟩,
      ⟨⟨12, 24⟩, .define ⟨⟨19, 20⟩, "d"⟩ none (.var ⟨23, 24⟩ "f")⟩,
      ⟨⟨26, 36⟩, .assumeTerm ⟨⟨32, 33⟩, "a"⟩ (.var ⟨35, 36⟩ "A")⟩]
  statement :=
    ⟨⟨38, 48⟩, .reduce (.app ⟨45, 48⟩ (.var ⟨45, 46⟩ "d") (.var ⟨47, 48⟩ "a"))⟩
  after := []
  parsed := by decide +kernel

/-- What the context of the reduction resolves to. -/
def hiddenContext : Indexed.Context :=
  [.term ⟨(), .var ⟨35, 36⟩ 1, none⟩,
    .term ⟨(), .arrow ⟨21, 27⟩ (.var ⟨21, 22⟩ 0) (.var ⟨26, 27⟩ 0), some (.var ⟨23, 24⟩ 1)⟩,
    .type (),
    .term ⟨(), .arrow ⟨21, 27⟩ (.var ⟨21, 22⟩ 0) (.var ⟨26, 27⟩ 0), none⟩,
    .type ()]

/-- The reduction fails, though not for a fault of its indices: the trees that it meets
are five binders high. -/
theorem source_indices_legal_hidden :
    Named.Context.resolve (hiddenReduction.context .standard) = .ok hiddenContext ∧
      (∀ height ∈ hiddenReduction.statement.command.heights 100000
        (hiddenReduction.context .standard).scope hiddenContext, height = 5) ∧
      ∃ failure, hiddenReduction.result? .standard = some (.error failure) ∧
        ∀ fault, failure ≠ .typing (.indexFault fault) ∧
          failure ≠ .reduction (.indexFault fault) := by
  obtain ⟨indexed, resolved, legal⟩ := source_indices_legal 100000 hiddenReduction
  have known : Named.Context.resolve (hiddenReduction.context .standard) = .ok hiddenContext := rfl
  obtain rfl : hiddenContext = indexed := Except.ok.inj (known.symm.trans resolved)
  have heights : ∀ height ∈ hiddenReduction.statement.command.heights 100000
      (hiddenReduction.context .standard).scope hiddenContext, height = 5 := by decide +kernel
  have failed : hiddenReduction.result? .standard =
      some (.error (.typing (.mismatch (.argument ⟨47, 48⟩ (.var ⟨21, 22⟩ "A")
        (.var ⟨35, 36⟩ "A"))))) := (hiddenReduction.result?_eq .standard).trans rfl
  obtain ⟨_, _, faultless⟩ := legal _ failed
  refine ⟨known, heights, _, failed, faultless ?_⟩
  intro height member
  rw [heights height member]
  decide

end Session

end PolyLambda
