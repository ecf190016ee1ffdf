import PolyLambda.Grammar.TermReading
import PolyLambda.Named.Statement

/-!
# Reading statements and programs

```text
Program   = (Statement? ";")* Statement?
Statement = "Variable" Name
          | ("Axiom" | "Hypothesis") Name ":" Type
          | ("Theorem" | "Lemma" | "Corollary") Name ":" Type "=" Term
          | "Define" Name "=" Term
          | "Reduce" Term
          | "Print" Name
          | "Clear"
```
-/

namespace PolyLambda.Grammar

open PolyLambda.Named

/-- The statements that begin with a keyword and a name. -/
inductive NamedForm
  | assumeType | assumeTerm | announce | define | print
deriving DecidableEq

/-- The statements that end with a term. -/
inductive TermForm
  | define (name : Ident) (expected : Option Ty)
  | reduce
deriving DecidableEq

/-- The command that a form and its term make up. -/
def TermForm.command (form : TermForm) (term : Term) : Command :=
  match form with
  | define name expected => .define name expected term
  | reduce => .reduce term

/-- A partly read statement whose keyword stands at `start`. -/
inductive StatementReading
  /-- Nothing has been read. -/
  | statement
  /-- The name after the keyword has to follow. -/
  | name (start : Nat) (form : NamedForm)
  /-- The colon before the type of an assumption, or of an announced definition,
  has to follow. -/
  | colon (start : Nat) (name : Ident) (announced : Bool)
  /-- The type of an assumption, or of an announced definition, is being read. -/
  | type (start : Nat) (name : Ident) (announced : Bool) (reading : TypeReading)
  /-- The equals sign of a definition without a type has to follow. -/
  | equals (start : Nat) (name : Ident)
  /-- The final term is being read. -/
  | term (start : Nat) (form : TermForm) (reading : TermReading)
  /-- The statement is complete. -/
  | ended (statement : Statement)
deriving DecidableEq

namespace StatementReading

/-- Reads the keyword of a statement. -/
def begin? (token : Token) : Option StatementReading :=
  let start := token.span.start
  match token.lexeme with
  | .symbol .variableWord => some (name start .assumeType)
  | .symbol .axiomWord | .symbol .hypothesisWord => some (name start .assumeTerm)
  | .symbol .theoremWord | .symbol .lemmaWord | .symbol .corollaryWord =>
    some (name start .announce)
  | .symbol .defineWord => some (name start .define)
  | .symbol .reduceWord => some (term start .reduce (.term []))
  | .symbol .printWord => some (name start .print)
  | .symbol .clearWord => some (ended ⟨token.span, .clear⟩)
  | _ => none

/-- Reads the name after the keyword of a statement. -/
def afterName (start : Nat) (form : NamedForm) (ident : Ident) : StatementReading :=
  match form with
  | .assumeType => ended ⟨⟨start, ident.span.stop⟩, .assumeType ident⟩
  | .assumeTerm => colon start ident false
  | .announce => colon start ident true
  | .define => equals start ident
  | .print => ended ⟨⟨start, ident.span.stop⟩, .print ident⟩

/-- Reads one more token. -/
def step (reading : StatementReading) (token : Token) : Step StatementReading Statement :=
  match reading with
  | statement =>
    match begin? token with
    | some reading => .next reading
    | none => .refused
  | name start form =>
    match token.lexeme with
    | .name text => .next (afterName start form ⟨token.span, text⟩)
    | _ => .refused
  | colon start ident announced =>
    match token.lexeme with
    | .symbol .colon => .next (type start ident announced (.type []))
    | _ => .refused
  | type start ident announced reading =>
    match reading.step token with
    | .next reading => .next (type start ident announced reading)
    | .finished ty =>
      if announced then
        match token.lexeme with
        | .symbol .equals => .next (term start (.define ident (some ty.value)) (.term []))
        | _ => .refused
      else
        .finished ⟨⟨start, ty.extent.stop⟩, .assumeTerm ident ty.value⟩
    | .refused => .refused
  | equals start ident =>
    match token.lexeme with
    | .symbol .equals => .next (term start (.define ident none) (.term []))
    | _ => .refused
  | term start form reading =>
    match reading.step token with
    | .next reading => .next (term start form reading)
    | .finished body => .finished ⟨⟨start, body.extent.stop⟩, form.command body.value⟩
    | .refused => .refused
  | ended whole => .finished whole

/-- The statement, if it is complete at the end of the input. -/
def finish? : StatementReading → Option Statement
  | type start ident false reading =>
    reading.finish?.map fun ty => ⟨⟨start, ty.extent.stop⟩, .assumeTerm ident ty.value⟩
  | term start form reading =>
    reading.finish?.map fun body => ⟨⟨start, body.extent.stop⟩, form.command body.value⟩
  | ended whole => some whole
  | _ => none

/-- Gives up the chance to extend a term that has ended. -/
def settleTerm : StatementReading → StatementReading
  | term start form reading => term start form reading.settleTerm
  | reading => reading

/-- Gives up the chance to extend a type that has ended. -/
def settleType : StatementReading → StatementReading
  | type start ident announced reading => type start ident announced reading.settle
  | term start form reading => term start form reading.settleType
  | reading => reading

end StatementReading

/-- A partly read program: the statements that are complete, and the current one. -/
structure ProgramReading where
  statements : List Statement
  current : StatementReading
deriving DecidableEq

namespace ProgramReading

/-- Reads one more token. A semicolon ends the current statement, if there is one. -/
def step? (reading : ProgramReading) (token : Token) : Option ProgramReading :=
  if reading.current = .statement ∧ token.lexeme = .symbol .semicolon then
    some reading
  else
    match reading.current.step token with
    | .next current => some ⟨reading.statements, current⟩
    | .finished statement =>
      if token.lexeme = .symbol .semicolon then
        some ⟨reading.statements ++ [statement], .statement⟩
      else
        none
    | .refused => none

/-- The statements, if the program is complete at the end of the input. -/
def finish? (reading : ProgramReading) : Option (List Statement) :=
  if reading.current = .statement then
    some reading.statements
  else
    reading.current.finish?.map fun statement => reading.statements ++ [statement]

end ProgramReading

end PolyLambda.Grammar
