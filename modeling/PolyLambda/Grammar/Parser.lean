import PolyLambda.Grammar.Lexer
import PolyLambda.Grammar.StatementReading
import PolyLambda.Source.Comment

/-!
# Parsing source text

The four entry points of the grammar: types, terms, statements and programs. A
text that is not in the language is reported at the first token that cannot be
part of it, with the terminals that could stand there.
-/

namespace PolyLambda.Grammar

open PolyLambda.Named
open PolyLambda.Source (MaskedText)

/-- Why a text is not in the language. -/
inductive SyntaxError
  /-- A comment is not closed; the span runs from it to the end of the text. -/
  | unclosedComment (span : Span)
  /-- No token starts at this character. -/
  | invalidToken (span : Span)
  /-- A token that cannot stand where it does. -/
  | unexpectedToken (text : String) (span : Span) (expected : List Terminal)
  /-- The text ends after byte `offset`, where it has to go on. -/
  | unexpectedEnd (offset : Nat) (expected : List Terminal)
deriving DecidableEq

namespace SyntaxError

/-- Where the fault lies. -/
def span : SyntaxError → Span
  | unclosedComment span => span
  | invalidToken span => span
  | unexpectedToken _ span _ => span
  | unexpectedEnd offset _ => ⟨offset, offset⟩

/-- The terminals that could stand at the place of the fault. -/
def expected : SyntaxError → List Terminal
  | unclosedComment _ => []
  | invalidToken _ => []
  | unexpectedToken _ _ expected => expected
  | unexpectedEnd _ expected => expected

/-- The wording of the fault. -/
def message : SyntaxError → String
  | unclosedComment _ => "unterminated comment"
  | invalidToken _ => "invalid token"
  | unexpectedToken text _ _ => "unexpected token `" ++ text ++ "`"
  | unexpectedEnd _ _ => "unexpected end of input"

end SyntaxError

/-- What may come after a finished phrase somewhere in a sentence; `none` is the
end of the input. -/
structure Followers where
  type : List (Option Terminal)
  term : List (Option Terminal)

/-- A way to read a whole text: a reading of type `ρ` that yields an `α`.

A finished type or term is settled, and no longer extensible, as soon as the next
token is one that can follow such a phrase somewhere in a sentence. -/
structure EntryPoint (ρ α : Type) where
  start : ρ
  step? : ρ → Token → Option ρ
  finish? : ρ → Option α
  settleType : ρ → ρ
  settleTerm : ρ → ρ
  followers : Followers

namespace EntryPoint

variable {ρ α : Type}

/-- The reading once it has seen that `next` follows. -/
def settle (entry : EntryPoint ρ α) (next : Option Terminal) (reading : ρ) : ρ :=
  let reading := if entry.followers.type.contains next then entry.settleType reading else reading
  if entry.followers.term.contains next then entry.settleTerm reading else reading

/-- Whether a token of the given terminal can be read next. -/
def accepts (entry : EntryPoint ρ α) (reading : ρ) (terminal : Terminal) : Bool :=
  (entry.step? reading ⟨terminal.sample, default⟩).isSome

/-- The terminals that could have stood in place of `next`. -/
def expected (entry : EntryPoint ρ α) (reading : ρ) (next : Option Terminal) : List Terminal :=
  Terminal.all.filter (entry.accepts (entry.settle next reading))

/-- Reads the remaining tokens of a stream; `offset` is where the last token ended. -/
def readFrom (entry : EntryPoint ρ α) (invalid : Option Span) (reading : ρ) (offset : Nat) :
    List Token → Except SyntaxError α
  | [] =>
    match invalid with
    | some span => .error (.invalidToken span)
    | none =>
      match entry.finish? reading with
      | some value => .ok value
      | none => .error (.unexpectedEnd offset (entry.expected reading none))
  | token :: rest =>
    match entry.step? reading token with
    | some reading => entry.readFrom invalid reading token.span.stop rest
    | none =>
      .error (.unexpectedToken token.lexeme.text token.span
        (entry.expected reading (some token.lexeme.terminal)))

/-- Reads a whole stream of tokens. -/
def read (entry : EntryPoint ρ α) (stream : TokenStream) : Except SyntaxError α :=
  entry.readFrom stream.invalid entry.start 0 stream.tokens

/-- Reads a source text. Its comments have to be closed. -/
def parse (entry : EntryPoint ρ α) (source : String) : Except SyntaxError α :=
  let masked := MaskedText.ofSource source
  match masked.unclosed with
  | some opened => .error (.unclosedComment ⟨opened, source.utf8ByteSize⟩)
  | none => entry.read (TokenStream.ofChars masked.chars)

end EntryPoint

/-- A step that may not leave tokens to any surroundings. -/
def Step.next? {ρ α : Type} : Step ρ α → Option ρ
  | .next reading => some reading
  | .finished _ => none
  | .refused => none

/-- The entry point for a type. -/
def typeEntry : EntryPoint TypeReading Ty where
  start := .type []
  step? reading token := (reading.step token).next?
  finish? reading := reading.finish?.map Phrase.value
  settleType := TypeReading.settle
  settleTerm := id
  followers := {
    type := [none, some (.symbol .closeParen)]
    term := [] }

/-- The entry point for a term. -/
def termEntry : EntryPoint TermReading Term where
  start := .term []
  step? reading token := (reading.step token).next?
  finish? reading := reading.finish?.map Phrase.value
  settleType := TermReading.settleType
  settleTerm := TermReading.settleTerm
  followers := {
    type := [some (.symbol .comma), some (.symbol .dot), some (.symbol .closeBracket),
      some (.symbol .closeParen)]
    term := [none, some (.symbol .closeParen)] }

/-- The entry point for a single statement. -/
def statementEntry : EntryPoint StatementReading Statement where
  start := .statement
  step? reading token := (reading.step token).next?
  finish? := StatementReading.finish?
  settleType := StatementReading.settleType
  settleTerm := StatementReading.settleTerm
  followers := {
    type := [none, some (.symbol .equals), some (.symbol .comma), some (.symbol .dot),
      some (.symbol .closeBracket), some (.symbol .closeParen)]
    term := [none, some (.symbol .closeParen)] }

/-- The entry point for a program. -/
def programEntry : EntryPoint ProgramReading (List Statement) where
  start := ⟨[], .statement⟩
  step? := ProgramReading.step?
  finish? := ProgramReading.finish?
  settleType reading := { reading with current := reading.current.settleType }
  settleTerm reading := { reading with current := reading.current.settleTerm }
  followers := {
    type := [none, some (.symbol .semicolon), some (.symbol .equals), some (.symbol .comma),
      some (.symbol .dot), some (.symbol .closeBracket), some (.symbol .closeParen)]
    term := [none, some (.symbol .semicolon), some (.symbol .closeParen)] }

/-- Parses a type. -/
def parseType (source : String) : Except SyntaxError Ty :=
  typeEntry.parse source

/-- Parses a term. -/
def parseTerm (source : String) : Except SyntaxError Term :=
  termEntry.parse source

/-- Parses a single statement. -/
def parseStatement (source : String) : Except SyntaxError Statement :=
  statementEntry.parse source

/-- Parses a sequence of statements separated by semicolons. -/
def parseProgram (source : String) : Except SyntaxError (List Statement) :=
  programEntry.parse source

end PolyLambda.Grammar
