import PolyLambda.Named.Printer

/-!
# Outcomes

What a statement yields when it succeeds.
-/

namespace PolyLambda

open Named (Ty Term)

/-- What a statement yields. -/
inductive Outcome
  /-- A type variable has been assumed. -/
  | typeAssumed (name : String)
  /-- A term has been assumed. -/
  | termAssumed (name : String) (ty : Ty)
  /-- A term has been defined. -/
  | defined (name : String) (ty : Ty)
  /-- A term has this normal form. -/
  | reduced (term : Term) (ty : Ty)
  /-- This is recorded under a name. -/
  | printed (name : String) (ty : Ty) (definition : Option Term)
  /-- Everything has been forgotten. -/
  | cleared
deriving DecidableEq

/-- How an outcome is announced. -/
def Outcome.text : Outcome → String
  | typeAssumed name => name ++ " is assumed."
  | termAssumed name ty => name ++ ": " ++ ty.text ++ " is assumed."
  | defined name ty => name ++ ": " ++ ty.text ++ " is defined."
  | reduced term ty => term.text ++ "\n: " ++ ty.text
  | printed name ty (some definition) => name ++ ": " ++ ty.text ++ "\n= " ++ definition.text
  | printed name ty none => name ++ ": " ++ ty.text ++ "\n= (assumed)"
  | cleared => "context cleared."

end PolyLambda
