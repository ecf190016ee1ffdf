import PolyLambda.Naming.Readback
import PolyLambda.Typing.Deduction

/-!
# Type mismatches in words

A type error speaks of indexed types. To report it, its types are named against
the context in which the term was checked.
-/

namespace PolyLambda

open Named (Ty)

/-- A clash of types, in terms of names. -/
inductive Mismatch
  /-- What stands at `span` is applied to an argument and is no function. -/
  | notFunction (span : Span) (found : Ty) (argumentSpan : Span) (argumentType : Ty)
  /-- The argument at `span` has another type than the function expects. -/
  | argument (span : Span) (expected found : Ty)
  /-- What stands at `span` is applied to a type and is not polymorphic. -/
  | notUniversal (span : Span) (found : Ty)
  /-- The term at `span` has another type than the one it was announced with. -/
  | definition (span : Span) (expected found : Ty)
deriving DecidableEq

/-- The two lines that set a found type against an expected one. -/
def contrast (expected found : String) : String :=
  "expected: `" ++ expected ++ "`\nfound:    `" ++ found ++ "`"

namespace Mismatch

/-- The headline of a mismatch. -/
def title : Mismatch → String
  | notFunction _ _ _ _ => "type mismatch: expected a function"
  | argument _ expected _ => "type mismatch: expected `" ++ expected.text ++ "`"
  | notUniversal _ _ => "type mismatch: expected a polymorphic term"
  | definition _ expected _ => "type mismatch: expected `" ++ expected.text ++ "`"

/-- The explanation of a mismatch. -/
def text : Mismatch → String
  | notFunction _ found _ _ => contrast "? -> ?" found.text
  | argument _ expected found => contrast expected.text found.text
  | notUniversal _ found => contrast "forall ?. ?" found.text
  | definition _ expected found => contrast expected.text found.text

/-- Where the clash is. -/
def span : Mismatch → Span
  | notFunction span _ _ _ => span
  | argument span _ _ => span
  | notUniversal span _ => span
  | definition span _ _ => span

/-- What is said about the place of the clash. -/
def label? : Mismatch → Option String
  | notFunction _ _ _ _ => some "applied to an argument here"
  | argument _ _ _ => none
  | notUniversal _ _ => some "applied to a type here"
  | definition _ _ _ => some "defined type does not match"

/-- Other places that have to do with the clash, and what is said about them. -/
def related : Mismatch → List (Span × String)
  | notFunction _ _ argumentSpan argumentType =>
    [(argumentSpan, "argument of type `" ++ argumentType.text ++ "`")]
  | argument _ _ _ => []
  | notUniversal _ _ => []
  | definition _ expected _ => [(expected.span, "expected due to this")]

end Mismatch

/-- Why a term has no type, in terms of names. -/
inductive TypeFailure
  /-- A variable, of the term or of a type to be named, denotes no binder of its kind. -/
  | illegal (index : Indexed.IllegalIndex)
  /-- Index arithmetic left the representable range. -/
  | indexFault (fault : Indexed.IndexFault)
  /-- Types clash. -/
  | mismatch (mismatch : Mismatch)
deriving DecidableEq

/-- A lookup error without a place. -/
def LookupError.illegal (error : LookupError) : Indexed.IllegalIndex :=
  ⟨error, none⟩

/-- Names the types of a clash. -/
def Indexed.TypeError.mismatch (context : Named.Context) (error : Indexed.TypeError) :
    Except LookupError TypeFailure :=
  match error with
  | .illegal index => .ok (.illegal index)
  | .indexFault fault => .ok (.indexFault fault)
  | .notFunction span found argumentSpan argumentType scope => do
    let found ← context.nameTypeIn scope found
    let argumentType ← context.nameTypeIn scope argumentType
    return .mismatch (.notFunction span found argumentSpan argumentType)
  | .argumentMismatch span expected found scope => do
    let expected ← context.nameTypeIn scope expected
    let found ← context.nameTypeIn scope found
    return .mismatch (.argument span expected found)
  | .notUniversal span found scope => do
    return .mismatch (.notUniversal span (← context.nameTypeIn scope found))

/-- Puts a type error in terms of the names of a context. -/
def Indexed.TypeError.inContext (context : Named.Context) (error : Indexed.TypeError) :
    TypeFailure :=
  match error.mismatch context with
  | .ok failure => failure
  | .error lookup => .illegal lookup.illegal

end PolyLambda
