import PolyLambda.Grammar.TypeReading

/-!
# Reading terms

```text
Term        = ("fun" | "λ") Param ("," Param)* "." Term
            | ("fun2" | "Λ") Name ("," Name)* "." Term
            | Application
Param       = Name ":" Type
Application = Application Atom | Application "[" Type "]" | Atom
Atom        = Name | "(" Term ")"
```
-/

namespace PolyLambda.Grammar

open PolyLambda.Named

/-- What surrounds the term that is being read, up to the next larger term. -/
inductive TermFrame
  /-- `fun params .`, where the abstraction begins at `start`. -/
  | lam (start : Nat) (params : List (Ident × Ty))
  /-- `fun2 params .`, where the abstraction begins at `start`. -/
  | tyLam (start : Nat) (params : List Ident)
  /-- `(` at `start`, opening the head of an application. -/
  | group (start : Nat)
  /-- `function (`, opening an argument. -/
  | argument (function : Phrase Term)
deriving DecidableEq

/-- A partly read term. The frames around the current position are listed from
the inside out. -/
inductive TermReading
  /-- A term has to begin. -/
  | term (frames : List TermFrame)
  /-- The name of a parameter has to follow. -/
  | param (start : Nat) (params : List (Ident × Ty)) (frames : List TermFrame)
  /-- The colon after a parameter's name has to follow. -/
  | paramColon (start : Nat) (params : List (Ident × Ty)) (name : Ident)
      (frames : List TermFrame)
  /-- The type of a parameter is being read. -/
  | paramType (start : Nat) (params : List (Ident × Ty)) (name : Ident) (reading : TypeReading)
      (frames : List TermFrame)
  /-- The name of a type parameter has to follow. -/
  | tyParam (start : Nat) (params : List Ident) (frames : List TermFrame)
  /-- The list of type parameters may go on or end. -/
  | tyParams (start : Nat) (params : List Ident) (frames : List TermFrame)
  /-- A term has ended. It may still be applied to something if `extensible` holds. -/
  | ended (phrase : Phrase Term) (extensible : Bool) (frames : List TermFrame)
  /-- The type that `function` is applied to is being read. -/
  | tyArgument (function : Phrase Term) (reading : TypeReading) (frames : List TermFrame)
deriving DecidableEq

/-- The application of a function to an argument whose tokens end at `stop`. -/
def applyPhrase (function : Phrase Term) (argument : Term) (stop : Nat) : Phrase Term :=
  let span := ⟨function.extent.start, stop⟩
  ⟨.app span function.value argument, span⟩

/-- The application of a function to a type whose closing bracket ends at `stop`. -/
def tyApplyPhrase (function : Phrase Term) (argument : Ty) (stop : Nat) : Phrase Term :=
  let span := ⟨function.extent.start, stop⟩
  ⟨.tyApp span function.value argument, span⟩

/-- What an open parenthesis will become once it is closed. -/
inductive TermGroup
  /-- The head of an application, its parenthesis standing at `start`. -/
  | head (start : Nat)
  /-- The argument of `function`. -/
  | argument (function : Phrase Term)
deriving DecidableEq

/-- The term that a closing parenthesis ending at `stop` completes. -/
def TermGroup.close (group : TermGroup) (content : Term) (stop : Nat) : Phrase Term :=
  match group with
  | head start => ⟨content, ⟨start, stop⟩⟩
  | argument function => applyPhrase function content stop

/-- Completes a term with the abstractions that it ends, up to the innermost open
parenthesis; that parenthesis is returned with the frames around it. -/
def closeTerm (phrase : Phrase Term) :
    List TermFrame → Phrase Term × Option (TermGroup × List TermFrame)
  | [] => (phrase, none)
  | .group start :: frames => (phrase, some (.head start, frames))
  | .argument function :: frames => (phrase, some (.argument function, frames))
  | .lam start params :: frames =>
    let span := ⟨start, phrase.extent.stop⟩
    closeTerm ⟨Term.lamMany span params phrase.value, span⟩ frames
  | .tyLam start params :: frames =>
    let span := ⟨start, phrase.extent.stop⟩
    closeTerm ⟨Term.tyLamMany span params phrase.value, span⟩ frames

namespace TermReading

/-- Reads a token after a term that it does not extend: the token closes the
innermost parenthesis, or else the whole term is finished. -/
def leave (phrase : Phrase Term) (frames : List TermFrame) (token : Token) :
    Step TermReading (Phrase Term) :=
  match closeTerm phrase frames with
  | (whole, none) => .finished whole
  | (inner, some (group, outer)) =>
    if token.lexeme = .symbol .closeParen then
      .next (ended (group.close inner.value token.span.stop) true outer)
    else
      .refused

/-- Reads a token after a term that it may extend to an application. -/
def extend (phrase : Phrase Term) (frames : List TermFrame) (token : Token) :
    Step TermReading (Phrase Term) :=
  match token.lexeme with
  | .name name =>
    .next (ended (applyPhrase phrase (.var token.span name) token.span.stop) true frames)
  | .symbol .openParen => .next (term (.argument phrase :: frames))
  | .symbol .openBracket => .next (tyArgument phrase (.type []) frames)
  | _ => leave phrase frames token

/-- Reads one more token. -/
def step (reading : TermReading) (token : Token) : Step TermReading (Phrase Term) :=
  match reading with
  | term frames =>
    match token.lexeme with
    | .name name => .next (ended ⟨.var token.span name, token.span⟩ true frames)
    | .symbol .openParen => .next (term (.group token.span.start :: frames))
    | .symbol .funWord | .symbol .lambdaSign => .next (param token.span.start [] frames)
    | .symbol .fun2Word | .symbol .bigLambdaSign => .next (tyParam token.span.start [] frames)
    | _ => .refused
  | param start params frames =>
    match token.lexeme with
    | .name name => .next (paramColon start params ⟨token.span, name⟩ frames)
    | _ => .refused
  | paramColon start params name frames =>
    match token.lexeme with
    | .symbol .colon => .next (paramType start params name (.type []) frames)
    | _ => .refused
  | paramType start params name reading frames =>
    match reading.step token with
    | .next reading => .next (paramType start params name reading frames)
    | .finished ty =>
      match token.lexeme with
      | .symbol .comma => .next (param start (params ++ [(name, ty.value)]) frames)
      | .symbol .dot => .next (term (.lam start (params ++ [(name, ty.value)]) :: frames))
      | _ => .refused
    | .refused => .refused
  | tyParam start params frames =>
    match token.lexeme with
    | .name name => .next (tyParams start (params ++ [⟨token.span, name⟩]) frames)
    | _ => .refused
  | tyParams start params frames =>
    match token.lexeme with
    | .symbol .comma => .next (tyParam start params frames)
    | .symbol .dot => .next (term (.tyLam start params :: frames))
    | _ => .refused
  | ended phrase extensible frames =>
    if extensible then extend phrase frames token else leave phrase frames token
  | tyArgument function reading frames =>
    match reading.step token with
    | .next reading => .next (tyArgument function reading frames)
    | .finished ty =>
      match token.lexeme with
      | .symbol .closeBracket =>
        .next (ended (tyApplyPhrase function ty.value token.span.stop) true frames)
      | _ => .refused
    | .refused => .refused

/-- The term, if it is complete at the end of the input. -/
def finish? : TermReading → Option (Phrase Term)
  | ended phrase _ frames =>
    match closeTerm phrase frames with
    | (whole, none) => some whole
    | (_, some _) => none
  | _ => none

/-- Gives up the chance to extend a term that has ended. -/
def settleTerm : TermReading → TermReading
  | ended phrase _ frames => ended phrase false frames
  | reading => reading

/-- Gives up the chance to extend a type that has ended. -/
def settleType : TermReading → TermReading
  | paramType start params name reading frames =>
    paramType start params name reading.settle frames
  | tyArgument function reading frames => tyArgument function reading.settle frames
  | reading => reading

end TermReading

end PolyLambda.Grammar
