import PolyLambda.Named.Basic

/-!
# Statements

What a program asks for, one statement at a time.
-/

namespace PolyLambda.Named

/-- The content of a statement. -/
inductive Command
  /-- Assumes a type variable. -/
  | assumeType (name : Ident)
  /-- Assumes a term of a given type. -/
  | assumeTerm (name : Ident) (ty : Ty)
  /-- Defines a term, against an expected type if one is given. -/
  | define (name : Ident) (expected : Option Ty) (term : Term)
  /-- Asks for the normal form of a term. -/
  | reduce (term : Term)
  /-- Asks for what is recorded under a name. -/
  | print (name : Ident)
  /-- Forgets everything. -/
  | clear
deriving DecidableEq

/-- A command with the span of its text. -/
structure Statement where
  span : Span
  command : Command
deriving DecidableEq

/-- The word that introduces a command. -/
def Command.keyword : Command → String
  | assumeType _ => "Variable"
  | assumeTerm _ _ => "Axiom"
  | define _ (some _) _ => "Theorem"
  | define _ none _ => "Define"
  | reduce _ => "Reduce"
  | print _ => "Print"
  | clear => "Clear"

/-- The command without spans. -/
def Command.bare : Command → Command
  | assumeType name => assumeType name.bare
  | assumeTerm name ty => assumeTerm name.bare ty.bare
  | define name expected term => define name.bare (expected.map Ty.bare) term.bare
  | reduce term => reduce term.bare
  | print name => print name.bare
  | clear => clear

end PolyLambda.Named
