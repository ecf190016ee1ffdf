import PolyLambda.Diagnostic.Report
import PolyLambda.Grammar.Parser
import PolyLambda.Naming.Resolution
import PolyLambda.Reduction.Normalization
import PolyLambda.Typing.Mismatch

/-!
# Failures

Everything that can keep a source text or a statement from having an outcome, and
the report that each failure gives rise to.
-/

namespace PolyLambda

open Diagnostic Grammar Indexed

/-- A normal form whose type is not the type of the term it comes from. -/
structure UnsoundReduction where
  expected : Named.Ty
  found : Named.Ty
  /-- The names in either type that a newer binder hides. -/
  shadowed : List String
  span : Span
deriving DecidableEq

/-- Why there is no outcome. -/
inductive Failure
  /-- The text is not in the language. -/
  | parse (error : SyntaxError)
  /-- A name is not bound. -/
  | unbound (occurrence : Unbound)
  /-- A term has no type, or not the announced one. -/
  | typing (failure : TypeFailure)
  /-- A term could not be normalised. -/
  | reduction (error : ReductionError)
  /-- Normalising a term changed its type. -/
  | unsound (change : UnsoundReduction)
deriving DecidableEq

/-- A name that could not be given is a fault in the indices. -/
def Failure.ofLookup (error : LookupError) : Failure :=
  .typing (.illegal error.illegal)

/-- The report of a text that is not in the language. -/
def Grammar.SyntaxError.report (error : SyntaxError) (source : String) : Report where
  title := "parse error: " ++ error.message
  elements :=
    let expected := error.expected.map Terminal.description
    let help :=
      if expected.isEmpty then
        []
      else
        [.message .help ("expected one of: " ++ ", ".intercalate expected)]
    snippet source error.span none [] ++ help

/-- The report of an unbound name. -/
def Unbound.report (unbound : Unbound) (source : String) : Report where
  title := unbound.message
  elements := snippet source unbound.span none []

/-- The report of an index that denotes no binder of its kind. -/
def Indexed.IllegalIndex.report (index : IllegalIndex) (source : String) : Report where
  title := "illegal error (bug)"
  elements :=
    let place := match index.span with
      | some span => snippet source span none []
      | none => []
    [.origin] ++ place ++ [.message .error index.error.message]

/-- The report of a fault in index arithmetic. -/
def Indexed.IndexFault.report (fault : IndexFault) : Report where
  title := fault.message
  elements := []

/-- The report of a clash of types. -/
def Mismatch.report (mismatch : Mismatch) (source : String) : Report where
  title := mismatch.title
  elements :=
    snippet source mismatch.span mismatch.label? mismatch.related ++
      [.message .error mismatch.text]

/-- The report of a term without a type. -/
def TypeFailure.report (failure : TypeFailure) (source : String) : Report :=
  match failure with
  | .illegal index => index.report source
  | .indexFault fault => fault.report
  | .mismatch clash => clash.report source

/-- The report of a term that could not be normalised. -/
def Indexed.ReductionError.report (error : ReductionError) (source : String) : Report :=
  match error with
  | .illegal index => index.report source
  | .indexFault fault => fault.report
  | .exhausted => ⟨"reduction went too deep", []⟩

/-- The report of a change of type. -/
def UnsoundReduction.report (reduction : UnsoundReduction) (source : String) : Report where
  title := "illegal error (bug): reduction changed the type"
  elements :=
    let notes := reduction.shadowed.map fun name =>
      .message .note ("`" ++ name ++ "` here names a type variable shadowed by a later `" ++ name ++
        "`; types stored before the shadowing now refer to the newer one")
    snippet source reduction.span none [] ++
      [.message .error (contrast reduction.expected.text reduction.found.text)] ++ notes

/-- The report of a failure in a source text. -/
def Failure.report (failure : Failure) (source : String) : Report :=
  match failure with
  | .parse error => error.report source
  | .unbound occurrence => occurrence.report source
  | .typing failure => failure.report source
  | .reduction error => error.report source
  | .unsound change => change.report source

end PolyLambda
