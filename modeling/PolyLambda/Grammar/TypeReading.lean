import PolyLambda.Grammar.Phrase
import PolyLambda.Named.Basic

/-!
# Reading types

```text
Type = ("forall" | "∀") Name ("," Name)* "." Type
     | Atom ("->" | "→") Type
     | Atom
Atom = Name | "(" Type ")"
```
-/

namespace PolyLambda.Grammar

open PolyLambda.Named

/-- What surrounds the type that is being read, up to the next larger type. -/
inductive TypeFrame
  /-- `domain ->`, where the domain's tokens begin at `start`. -/
  | arrow (start : Nat) (domain : Ty)
  /-- `forall params .`, where the quantifier stands at `start`. -/
  | quantifier (start : Nat) (params : List Ident)
  /-- `(` at `start`. -/
  | group (start : Nat)
deriving DecidableEq

/-- A partly read type. The frames around the current position are listed from
the inside out. -/
inductive TypeReading
  /-- A type has to begin. -/
  | type (frames : List TypeFrame)
  /-- The name of a quantified variable has to follow. -/
  | binder (start : Nat) (params : List Ident) (frames : List TypeFrame)
  /-- The list of quantified variables may go on or end. -/
  | binders (start : Nat) (params : List Ident) (frames : List TypeFrame)
  /-- A type has ended. It may still be extended by an arrow if `extensible` holds. -/
  | ended (phrase : Phrase Ty) (extensible : Bool) (frames : List TypeFrame)
deriving DecidableEq

/-- Completes a type with the arrows and quantifiers that it ends, up to the
innermost open parenthesis; that parenthesis is returned with the frames around it. -/
def closeType (phrase : Phrase Ty) : List TypeFrame → Phrase Ty × Option (Nat × List TypeFrame)
  | [] => (phrase, none)
  | .group start :: frames => (phrase, some (start, frames))
  | .arrow start domain :: frames =>
    let span := ⟨start, phrase.extent.stop⟩
    closeType ⟨.arrow span domain phrase.value, span⟩ frames
  | .quantifier start params :: frames =>
    let span := ⟨start, phrase.extent.stop⟩
    closeType ⟨Ty.allMany span params phrase.value, span⟩ frames

namespace TypeReading

/-- Reads a token after a type that it does not extend: the token closes the
innermost parenthesis, or else the whole type is finished. -/
def leave (phrase : Phrase Ty) (frames : List TypeFrame) (token : Token) :
    Step TypeReading (Phrase Ty) :=
  match closeType phrase frames with
  | (whole, none) => .finished whole
  | (inner, some (start, outer)) =>
    if token.lexeme = .symbol .closeParen then
      .next (ended ⟨inner.value, ⟨start, token.span.stop⟩⟩ true outer)
    else
      .refused

/-- Reads one more token. -/
def step (reading : TypeReading) (token : Token) : Step TypeReading (Phrase Ty) :=
  match reading with
  | type frames =>
    match token.lexeme with
    | .name name => .next (ended ⟨.var token.span name, token.span⟩ true frames)
    | .symbol .openParen => .next (type (.group token.span.start :: frames))
    | .symbol .forallWord | .symbol .forallSign => .next (binder token.span.start [] frames)
    | _ => .refused
  | binder start params frames =>
    match token.lexeme with
    | .name name => .next (binders start (params ++ [⟨token.span, name⟩]) frames)
    | _ => .refused
  | binders start params frames =>
    match token.lexeme with
    | .symbol .comma => .next (binder start params frames)
    | .symbol .dot => .next (type (.quantifier start params :: frames))
    | _ => .refused
  | ended phrase extensible frames =>
    if extensible && token.lexeme.isArrow then
      .next (type (.arrow phrase.extent.start phrase.value :: frames))
    else
      leave phrase frames token

/-- The type, if it is complete at the end of the input. -/
def finish? : TypeReading → Option (Phrase Ty)
  | ended phrase _ frames =>
    match closeType phrase frames with
    | (whole, none) => some whole
    | (_, some _) => none
  | _ => none

/-- Gives up the chance to extend a type that has ended. -/
def settle : TypeReading → TypeReading
  | ended phrase _ frames => ended phrase false frames
  | reading => reading

end TypeReading

end PolyLambda.Grammar
