import PolyLambda.Proofs.SessionRecords

/-!
# Statements in the course of a session

A session runs source texts one after another from the empty context. The statements
of these texts run as one list, whichever texts they stand in; a text that does not
parse has none. A `Moment` is a statement of some text at the point where it runs,
so what holds at every moment holds of every statement that any sequence of texts
executes.
-/

namespace PolyLambda.Session

open Named (Statement)

variable {limits : Limits}

/-! ## Lists of statements -/

/-- Executing two lists of statements is executing the second from where the first leads. -/
theorem execAll_append (context : Named.Context) (first second : List Statement) :
    execAll limits context (first ++ second) =
      ((execAll limits (execAll limits context first).1 second).1,
        (execAll limits context first).2 ++
          (execAll limits (execAll limits context first).1 second).2) := by
  induction first generalizing context with
  | nil => rfl
  | cons statement rest restIH => simp only [List.cons_append, execAll, restIH]

/-- Each statement has one result. -/
theorem length_execAll (context : Named.Context) (statements : List Statement) :
    (execAll limits context statements).2.length = statements.length := by
  induction statements generalizing context with
  | nil => rfl
  | cons statement rest restIH => simp only [execAll, List.length_cons, restIH]

/-! ## Lists of source texts -/

/-- The statements of a source text. -/
def statementsOf (source : String) : List Statement :=
  match Grammar.parseProgram source with
  | .ok statements => statements
  | .error _ => []

/-- Running a source leads to where its statements do. -/
theorem run_fst (context : Named.Context) (source : String) :
    (run limits context source).1 = (execAll limits context (statementsOf source)).1 := by
  unfold run statementsOf
  cases Grammar.parseProgram source <;> rfl

/-- The context that source texts lead to, run one after another. -/
def runAll (limits : Limits) (context : Named.Context) : List String → Named.Context
  | [] => context
  | source :: rest => runAll limits (run limits context source).1 rest

/-- Running sources is executing all their statements in order. -/
theorem runAll_eq_execAll (context : Named.Context) (sources : List String) :
    runAll limits context sources = (execAll limits context (sources.flatMap statementsOf)).1 := by
  induction sources generalizing context with
  | nil => rfl
  | cons source rest restIH =>
      rw [runAll, restIH, run_fst, List.flatMap_cons, execAll_append]

/-! ## Moments -/

/-- A statement of a source text about to run, after earlier texts and after the
statements before it in its own text. -/
structure Moment where
  earlier : List String
  source : String
  before : List Statement
  statement : Statement
  after : List Statement
  parsed : Grammar.parseProgram source = .ok (before ++ statement :: after)

namespace Moment

/-- All statements that run before the moment. -/
def history (moment : Moment) : List Statement :=
  moment.earlier.flatMap statementsOf ++ moment.before

/-- The context in which the statement runs. -/
def context (limits : Limits) (moment : Moment) : Named.Context :=
  (execAll limits (runAll limits [] moment.earlier) moment.before).1

/-- What running the source text reports for the statement. -/
def result? (limits : Limits) (moment : Moment) : Option Result :=
  (run limits (runAll limits [] moment.earlier) moment.source).2[moment.before.length]?

/-- The context of a moment is where the statements before it lead from the beginning. -/
theorem context_eq (limits : Limits) (moment : Moment) :
    moment.context limits = (execAll limits [] moment.history).1 := by
  rw [context, history, runAll_eq_execAll, execAll_append]

/-- The context of a moment is reachable. -/
theorem reachable (limits : Limits) (moment : Moment) :
    Reachable limits (moment.context limits) :=
  ⟨moment.history, (moment.context_eq limits).symm⟩

/-- The result of a moment is that of its statement in its context. -/
theorem result?_eq (limits : Limits) (moment : Moment) :
    moment.result? limits = some (exec limits (moment.context limits) moment.statement).2 := by
  have ran : run limits (runAll limits [] moment.earlier) moment.source =
      execAll limits (runAll limits [] moment.earlier)
        (moment.before ++ moment.statement :: moment.after) := by
    simp only [run, moment.parsed]
  rw [result?, ran, execAll_append, List.getElem?_append_right (Nat.le_of_eq (length_execAll _ _)),
    length_execAll, Nat.sub_self]
  rfl

end Moment

end PolyLambda.Session
