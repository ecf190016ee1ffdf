import PolyLambda.Diagnostic.Layout
import PolyLambda.Session.Failure
import PolyLambda.Session.Outcome

/-!
# Executing statements

A statement runs in a named context and leaves a context behind; one that fails
leaves the context as it was. A session runs source texts one after another.
-/

namespace PolyLambda

open Indexed (IndexRange)
open Named (Statement)

/-- The limits within which statements run. -/
structure Limits where
  /-- The range of indices. -/
  range : IndexRange
  /-- The recursion depth allowed to normalisation. -/
  depth : Nat
deriving DecidableEq

/-- The limits that the program runs with. -/
def Limits.standard : Limits where
  range := .standard
  depth := 100000

/-- What becomes of a statement. -/
abbrev Result := Except Failure Outcome

/-- How a result is announced: an outcome by its text, a failure by its report on
the source that goes by the name `origin`. -/
def Result.text (result : Result) (source origin : String) : String :=
  match result with
  | .ok outcome => outcome.text
  | .error failure => (failure.report source).text source origin

namespace Session

/-- What a successful statement leaves behind and yields. -/
abbrev Effect := Named.Context × Outcome

/-- The names of the free indices of some types that a newer type binder of the
same name hides. -/
def shadowedNames (context : Named.Context) (types : List Indexed.Ty) : List String :=
  let indices := (types.map Indexed.Ty.freeIndices).flatten
  let names := indices.filterMap fun index =>
    match context.typeAt index with
    | .ok name => if context.typeIndex? name = some index then none else some name
    | .error _ => none
  names.eraseDups

/-- Resolves a term and deduces its type. -/
def checkTerm (limits : Limits) (context : Named.Context) (term : Named.Term) :
    Except Failure (Indexed.Term × Indexed.Context × Indexed.Ty) := do
  let term ← (term.resolve context.scope).mapError .unbound
  let indexed ← (Named.Context.resolve context).mapError .unbound
  let ty ← (term.deduce limits.range indexed).mapError fun error =>
    .typing (error.inContext context)
  return (term, indexed, ty)

/-- Names a type, or reports why it cannot be named. -/
def nameType (context : Named.Context) (ty : Indexed.Ty) : Except Failure Named.Ty :=
  (context.nameType ty).mapError .ofLookup

/-- Names a term, or reports why it cannot be named. -/
def nameTerm (context : Named.Context) (term : Indexed.Term) : Except Failure Named.Term :=
  (context.nameTerm term).mapError .ofLookup

/-- Resolves the type that was announced for a definition, if there is one. -/
def resolveAnnounced (context : Named.Context) :
    Option Named.Ty → Except Failure (Option (Named.Ty × Indexed.Ty))
  | none => .ok none
  | some ty => do
    let resolved ← (ty.resolve context.scope).mapError .unbound
    return some (ty, resolved)

/-- The type that a definition is recorded with: the announced one, which has to be
the deduced one, or else the deduced one. -/
def recordedType (context : Named.Context) (span : Span) (actual : Indexed.Ty) :
    Option (Named.Ty × Indexed.Ty) → Except Failure Named.Ty
  | none => nameType context actual
  | some (announced, resolved) =>
    if actual.Same resolved then
      .ok announced
    else do
      let found ← nameType context actual
      .error (.typing (.mismatch (.definition span announced found)))

/-- Records a definition. -/
def define (limits : Limits) (context : Named.Context) (name : String)
    (expected : Option Named.Ty) (term : Named.Term) : Except Failure Effect := do
  let announced ← resolveAnnounced context expected
  let (_, _, actual) ← checkTerm limits context term
  let ty ← recordedType context term.span actual announced
  return (.term ⟨name, ty, some term⟩ :: context, .defined name ty)

/-- Normalises a term and checks that the normal form has the type of the term. -/
def reduce (limits : Limits) (context : Named.Context) (span : Span) (term : Named.Term) :
    Except Failure Effect := do
  let (term, indexed, expected) ← checkTerm limits context term
  let normal ← (term.normalize limits.range limits.depth indexed).mapError .reduction
  let found ← (normal.deduce limits.range indexed).mapError fun error =>
    .typing (error.inContext context)
  if found.Same expected then do
    let normal ← nameTerm context normal
    let ty ← nameType context expected
    return (context, .reduced normal ty)
  else do
    let expectedName ← nameType context expected
    let foundName ← nameType context found
    .error (.unsound {
      expected := expectedName
      found := foundName
      shadowed := shadowedNames context [expected, found]
      span := span })

/-- What a statement leaves behind and yields. -/
def effect (limits : Limits) (context : Named.Context) (statement : Statement) :
    Except Failure Effect :=
  match statement.command with
  | .assumeType name => .ok (.type name.name :: context, .typeAssumed name.name)
  | .assumeTerm name ty => do
    let _ ← (ty.resolve context.scope).mapError .unbound
    return (.term ⟨name.name, ty, none⟩ :: context, .termAssumed name.name ty)
  | .define name expected term => define limits context name.name expected term
  | .reduce term => reduce limits context statement.span term
  | .print name =>
    match context.entry? name.name with
    | some entry => .ok (context, .printed name.name entry.ty entry.definition)
    | none => .error (.unbound ⟨.term, name.name, name.span⟩)
  | .clear => .ok ([], .cleared)

/-- Runs a statement. One that fails leaves the context as it was. -/
def exec (limits : Limits) (context : Named.Context) (statement : Statement) :
    Named.Context × Result :=
  match effect limits context statement with
  | .ok (next, outcome) => (next, .ok outcome)
  | .error failure => (context, .error failure)

/-- Runs statements one after another, each in the context that the one before it
left behind. -/
def execAll (limits : Limits) (context : Named.Context) :
    List Statement → Named.Context × List Result
  | [] => (context, [])
  | statement :: rest =>
    let (next, result) := exec limits context statement
    let (final, results) := execAll limits next rest
    (final, result :: results)

/-- Runs a source text. One that does not parse runs nothing, and its only result
is the failure to parse. -/
def run (limits : Limits) (context : Named.Context) (source : String) :
    Named.Context × List Result :=
  match Grammar.parseProgram source with
  | .ok statements => execAll limits context statements
  | .error error => (context, [.error (.parse error)])

end Session

end PolyLambda
