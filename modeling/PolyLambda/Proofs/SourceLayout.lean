import PolyLambda.Proofs.CommentMasking
import PolyLambda.Proofs.ReadingErasure
import PolyLambda.Proofs.Shadowing

/-!
# Layout carries no meaning

Two source texts with the same tokens, one by one, run alike, whatever blanks and
comments stand between the tokens: they yield the same results up to spans, put into the
same words, and leave contexts behind that are the same up to spans.
-/

namespace PolyLambda

/-! ## Wording -/

/-- Spans have no part in the text of a term. -/
theorem Named.Term.text_bare (term : Term) : term.bare.text = term.text := by
  induction term with
  | var => rfl
  | lam span param paramType body bodyIH =>
      simp only [Term.bare, Term.text, Ty.text_bare, bodyIH, Ident.bare]
  | app span function argument functionIH argumentIH =>
      have isApplication : function.bare.isApplication = function.isApplication := by
        cases function <;> rfl
      have isAtom : argument.bare.isAtom = argument.isAtom := by cases argument <;> rfl
      simp only [Term.bare, Term.text, functionIH, argumentIH, isApplication, isAtom]
  | tyLam span param body bodyIH => simp only [Term.bare, Term.text, bodyIH, Ident.bare]
  | tyApp span function argument functionIH =>
      have isApplication : function.bare.isApplication = function.isApplication := by
        cases function <;> rfl
      simp only [Term.bare, Term.text, functionIH, isApplication, Ty.text_bare]

/-- Spans have no part in the text of an outcome. -/
theorem Outcome.text_bare (outcome : Outcome) : outcome.bare.text = outcome.text := by
  cases outcome with
  | typeAssumed | cleared => rfl
  | termAssumed name ty | defined name ty => simp only [Outcome.bare, Outcome.text, ty.text_bare]
  | reduced term ty => simp only [Outcome.bare, Outcome.text, term.text_bare, ty.text_bare]
  | printed name ty definition =>
      cases definition with
      | none => simp only [Outcome.bare, Outcome.text, ty.text_bare, Option.map_none]
      | some definition =>
          simp only [Outcome.bare, Outcome.text, ty.text_bare, Option.map_some,
            definition.text_bare]

open Diagnostic

/-- The terminals that a failure says could have stood in its place. -/
def Failure.expected : Failure → List Grammar.Terminal
  | .parse error => error.expected
  | _ => []

/-- The types that a failure speaks of, as they are written. -/
def Failure.typeTexts : Failure → List String
  | .typing (.mismatch (.notFunction _ found _ argumentType)) => [found.text, argumentType.text]
  | .typing (.mismatch (.argument _ expected found)) => [expected.text, found.text]
  | .typing (.mismatch (.notUniversal _ found)) => [found.text]
  | .typing (.mismatch (.definition _ expected found)) => [expected.text, found.text]
  | .unsound change => [change.expected.text, change.found.text]
  | _ => []

/-- What is said about a result, apart from the places that are marked. -/
inductive Wording
  | outcome (text : String)
  | failure (title : String) (messages : List (Level × String))
      (expected : List Grammar.Terminal) (types : List String)
deriving DecidableEq

/-- What is said about a result of running a source text. -/
def Result.wording (source : String) : Result → Wording
  | .ok outcome => .outcome outcome.text
  | .error failure =>
    .failure (failure.report source).title (failure.report source).messages failure.expected
      failure.typeTexts

section Messages

variable (title source : String)

/-- The messages of a report are those of its elements in their order. -/
theorem messages_append (first second : List Element) :
    Report.messages ⟨title, first ++ second⟩ =
      Report.messages ⟨title, first⟩ ++ Report.messages ⟨title, second⟩ :=
  List.filterMap_append

/-- A snippet holds no message. -/
theorem messages_snippet (primary : Span) (label : Option String)
    (related : List (Span × String)) :
    Report.messages ⟨title, snippet source primary label related⟩ = [] := by
  unfold snippet
  split <;> rfl

/-- An illegal index is reported with one message. -/
theorem Indexed.IllegalIndex.messages_report (index : IllegalIndex) :
    (index.report source).messages = [(.error, index.error.message)] := by
  obtain ⟨error, _ | span⟩ := index
  · rfl
  · simp only [IllegalIndex.report, messages_append, messages_snippet]
    rfl

end Messages

namespace Mismatch

/-- Spans have no part in the title of a mismatch. -/
theorem title_bare (mismatch : Mismatch) : mismatch.bare.title = mismatch.title := by
  cases mismatch with
  | notFunction | notUniversal => rfl
  | argument _ expected | definition _ expected =>
      exact congrArg (fun text => "type mismatch: expected `" ++ text ++ "`") expected.text_bare

/-- Spans have no part in the text of a mismatch. -/
theorem text_bare (mismatch : Mismatch) : mismatch.bare.text = mismatch.text := by
  cases mismatch <;> simp only [Mismatch.bare, text, Named.Ty.text_bare]

end Mismatch

/-- Spans have no part in the message of a syntax error. -/
theorem Grammar.SyntaxError.message_bare (error : SyntaxError) :
    error.bare.message = error.message := by
  cases error <;> rfl

/-- Spans have no part in what a syntax error expects. -/
theorem Grammar.SyntaxError.expected_bare (error : SyntaxError) :
    error.bare.expected = error.expected := by
  cases error <;> rfl

/-- Spans have no part in the texts of the types that a failure shows. -/
theorem Failure.typeTexts_bare (failure : Failure) :
    failure.bare.typeTexts = failure.typeTexts := by
  cases failure with
  | parse | unbound | reduction => rfl
  | typing failure =>
      cases failure with
      | illegal | indexFault => rfl
      | mismatch clash =>
          cases clash <;>
            simp only [Failure.bare, TypeFailure.bare, Mismatch.bare, Failure.typeTexts,
              Named.Ty.text_bare]
  | unsound change => simp only [Failure.bare, Failure.typeTexts, Named.Ty.text_bare]

/-- The headline and the messages of a report depend neither on spans nor on the source. -/
theorem Failure.report_bare (failure : Failure) (source other : String) :
    (failure.bare.report other).title = (failure.report source).title ∧
      (failure.bare.report other).messages = (failure.report source).messages := by
  cases failure with
  | parse error =>
      simp only [Failure.bare, Failure.report, Grammar.SyntaxError.report, messages_append,
        messages_snippet, error.message_bare, error.expected_bare, and_self]
  | unbound occurrence =>
      simp only [Failure.bare, Failure.report, Unbound.report, messages_snippet, and_true]
      rfl
  | typing failure =>
      cases failure with
      | illegal index =>
          exact ⟨rfl, (index.bare.messages_report other).trans (index.messages_report source).symm⟩
      | indexFault fault => exact ⟨rfl, rfl⟩
      | mismatch clash =>
          simp only [Failure.bare, Failure.report, TypeFailure.bare, TypeFailure.report,
            Mismatch.report, messages_append, messages_snippet, clash.title_bare, clash.text_bare,
            and_self]
  | reduction error =>
      cases error with
      | illegal index =>
          exact ⟨rfl, (index.bare.messages_report other).trans (index.messages_report source).symm⟩
      | indexFault fault => exact ⟨rfl, rfl⟩
      | exhausted => exact ⟨rfl, rfl⟩
  | unsound change =>
      simp only [Failure.bare, Failure.report, UnsoundReduction.report, messages_append,
        messages_snippet, Named.Ty.text_bare, and_self]

/-- What is said about a result depends neither on its spans nor on the source. -/
theorem Result.wording_bare (result : Result) (source other : String) :
    result.bare.wording other = result.wording source := by
  cases result with
  | ok outcome => exact congrArg Wording.outcome outcome.text_bare
  | error failure =>
      have expected : failure.bare.expected = failure.expected := by
        cases failure with
        | parse error => exact error.expected_bare
        | unbound | typing | reduction | unsound => rfl
      have ⟨title, messages⟩ := failure.report_bare source other
      simp only [Result.bare, mapBoth, Result.wording, title, messages, expected,
        failure.typeTexts_bare]

/-! ## Texts that differ in layout -/

namespace Grammar

open Source (MaskedText)

/-- The tokens of a source text, comments aside. -/
def streamOf (source : String) : TokenStream :=
  TokenStream.ofChars (MaskedText.ofSource source).chars

/-- Two source texts differ in layout only: they can be split into tokens to their ends,
into the same ones, and neither leaves a comment open, or both do. -/
structure LayoutOnly (source other : String) : Prop where
  comments : (MaskedText.ofSource source).unclosed.isSome =
    (MaskedText.ofSource other).unclosed.isSome
  splits : (streamOf source).invalid = none
  otherSplits : (streamOf other).invalid = none
  texts : (streamOf source).tokens.map (fun token => token.lexeme.text) =
    (streamOf other).tokens.map (fun token => token.lexeme.text)

/-- A token is known from its text. -/
theorem bare_eq_ofTexts (source : String) :
    (streamOf source).tokens.map Token.bare =
      ((streamOf source).tokens.map (fun token => token.lexeme.text)).map
        (fun text => ⟨Lexeme.ofWord text, default⟩) := by
  obtain ⟨_, _, lexes, _⟩ := TokenStream.exists_lexes 0 (MaskedText.ofSource source).chars
  rw [List.map_map]
  apply List.map_congr_left
  intro token member
  simp only [Function.comp_apply, Lexeme.ofWord_eq (lexes.proper token member), Token.bare]

/-- Texts that differ in layout only are parsed alike. -/
theorem LayoutOnly.parseProgram {source other : String} (layout : LayoutOnly source other) :
    mapBoth SyntaxError.bare (List.map Named.Statement.bare) (parseProgram source) =
      mapBoth SyntaxError.bare (List.map Named.Statement.bare) (parseProgram other) := by
  have tokens :
      (streamOf source).tokens.map Token.bare = (streamOf other).tokens.map Token.bare := by
    rw [bare_eq_ofTexts, bare_eq_ofTexts, layout.texts]
  have comments := layout.comments
  simp only [Grammar.parseProgram, EntryPoint.parse]
  cases unclosed : (MaskedText.ofSource source).unclosed with
  | some opened =>
      rw [unclosed] at comments
      obtain ⟨otherOpened, otherUnclosed⟩ := Option.isSome_iff_exists.mp comments.symm
      simp only [otherUnclosed]
      rfl
  | none =>
      rw [unclosed] at comments
      have otherUnclosed := Option.isSome_eq_false_iff.mp comments.symm
      rw [Option.isNone_iff_eq_none] at otherUnclosed
      have read := programEntry_ignoresSpans.readFrom programEntry.start 0
      simp only [otherUnclosed, EntryPoint.read]
      change mapBoth _ _ (programEntry.readFrom (streamOf source).invalid _ 0 _) =
        mapBoth _ _ (programEntry.readFrom (streamOf other).invalid _ 0 _)
      rw [layout.splits, layout.otherSplits, ← read, ← read]
      exact congrArg (programEntry.readFrom none _ 0) tokens

end Grammar

namespace Session

open Grammar (LayoutOnly)

/-- Sources that differ in layout only, run in contexts that differ in spans only, leave such
contexts and results. -/
theorem run_bare (limits : Limits) {context other : Named.Context} {source otherSource : String}
    (contexts : context.bare = other.bare) (layout : LayoutOnly source otherSource) :
    (run limits context source).1.bare = (run limits other otherSource).1.bare ∧
      (run limits context source).2.map Result.bare =
        (run limits other otherSource).2.map Result.bare := by
  have parsed := layout.parseProgram
  simp only [run]
  cases first : Grammar.parseProgram source with
  | error error =>
      cases second : Grammar.parseProgram otherSource with
      | error otherError =>
          simp only [first, second, mapBoth, Except.error.injEq] at parsed
          simp only [List.map_cons, List.map_nil, Result.bare, mapBoth, Failure.bare, parsed]
          exact ⟨contexts, trivial⟩
      | ok otherStatements =>
          rw [first, second] at parsed
          cases parsed
  | ok statements =>
      cases second : Grammar.parseProgram otherSource with
      | error otherError =>
          rw [first, second] at parsed
          cases parsed
      | ok otherStatements =>
          simp only [first, second, mapBoth, Except.ok.injEq] at parsed
          exact execAll_alike limits contexts parsed

/-- Layout never changes meaning. Two source texts that differ in layout only, run in
contexts that are equal up to spans, yield as many results, pairwise equal up to spans and
put into the same words, and leave contexts behind that are equal up to spans. -/
theorem layout_never_changes_meaning (limits : Limits) {context other : Named.Context}
    {source otherSource : String} (contexts : context.bare = other.bare)
    (layout : LayoutOnly source otherSource) :
    (run limits context source).2.map Result.bare =
        (run limits other otherSource).2.map Result.bare ∧
      (run limits context source).2.map (Result.wording source) =
        (run limits other otherSource).2.map (Result.wording otherSource) ∧
      (run limits context source).1.bare = (run limits other otherSource).1.bare := by
  obtain ⟨finals, results⟩ := run_bare limits contexts layout
  -- The wording is that of the results without spans, which are the same.
  have worded : ∀ (source : String) (results : List Result),
      results.map (Result.wording source) = (results.map Result.bare).map (Result.wording "") := by
    intro source results
    rw [List.map_map]
    exact List.map_congr_left fun result _ => (result.wording_bare source "").symm
  refine ⟨results, ?_, finals⟩
  rw [worded source, worded otherSource, results]

/-- A type and an assumed element of it, declared at some place. -/
def elementDeclaredAt (place : Span) : Named.Context :=
  [.term ⟨"a", .var place "A", none⟩, .type "A"]

/-- An application and a failing one, close together. -/
def denseSource : String :=
  "Reduce(fun x:A.x)a;Reduce a a"

/-- The same statements with comments and a line break. -/
def airySource : String :=
  "Reduce (* (**) *) (fun x: A. x) a ;\nReduce a a"

/-- The results are found at other places, yet they are the same and read the same. -/
theorem layout_never_changes_meaning_airy :
    (elementDeclaredAt ⟨9, 10⟩).bare = (elementDeclaredAt ⟨23, 24⟩).bare ∧
    LayoutOnly denseSource airySource ∧
    (run .standard (elementDeclaredAt ⟨9, 10⟩) denseSource).2 ≠
      (run .standard (elementDeclaredAt ⟨23, 24⟩) airySource).2 ∧
    (run .standard (elementDeclaredAt ⟨9, 10⟩) denseSource).2.map Result.bare =
      (run .standard (elementDeclaredAt ⟨23, 24⟩) airySource).2.map Result.bare ∧
    (run .standard (elementDeclaredAt ⟨23, 24⟩) airySource).2.map (Result.wording airySource) =
      [.outcome "a\n: A",
        .failure "type mismatch: expected a function"
          [(.error, "expected: `? -> ?`\nfound:    `A`")] [] ["A", "A"]] := by
  have layout : LayoutOnly denseSource airySource := by
    constructor <;> decide +kernel
  have contexts : (elementDeclaredAt ⟨9, 10⟩).bare = (elementDeclaredAt ⟨23, 24⟩).bare := rfl
  obtain ⟨results, words, _⟩ := layout_never_changes_meaning .standard contexts layout
  refine ⟨contexts, layout, by decide +kernel, results, ?_⟩
  rw [← words]
  decide +kernel

end Session

end PolyLambda
