import PolyLambda.Source.Span

/-!
# Reports

A report is what a diagnostic says, before it is laid out: a headline, places in
the source, and messages.
-/

namespace PolyLambda.Diagnostic

/-- How grave a message is. -/
inductive Level
  | error | help | note
deriving DecidableEq

/-- The word for a level. -/
def Level.text : Level → String
  | error => "error"
  | help => "help"
  | note => "note"

/-- What a marked place has to do with a report. -/
inductive Role
  /-- The place that the report is about. -/
  | primary
  /-- A place that explains it. -/
  | context
deriving DecidableEq

/-- A marked place in the source. -/
structure Highlight where
  role : Role
  span : Span
  label : Option String
deriving DecidableEq

/-- A part of a report. -/
inductive Element
  /-- Marked places in the source, the primary one first. -/
  | snippet (highlights : List Highlight)
  /-- A remark. -/
  | message (level : Level) (text : String)
  /-- The place in the program that noticed the fault. -/
  | origin
deriving DecidableEq

/-- A headline and what supports it. -/
structure Report where
  title : String
  elements : List Element
deriving DecidableEq

/-- The snippet around a primary place, if that place lies within the source.
Other places that do not are left out. -/
def snippet (source : String) (primary : Span) (label : Option String)
    (related : List (Span × String)) : List Element :=
  if primary.within source then
    let others := related.filter fun (span, _) => span.within source
    let context := others.map fun (span, text) => ⟨.context, span, some text⟩
    [.snippet (⟨.primary, primary, label⟩ :: context)]
  else
    []

end PolyLambda.Diagnostic
