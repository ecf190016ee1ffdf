import PolyLambda.Grammar.Token

/-!
# Phrases and readings

Syntax is read one token at a time. A *reading* holds what has been read of a
phrase so far; `Step` says what the next token does to it.
-/

namespace PolyLambda.Grammar

/-- A finished piece of syntax and the extent of its tokens. The extent includes
parentheses around the whole; the span inside `value` does not. -/
structure Phrase (α : Type) where
  value : α
  extent : Span
deriving DecidableEq

/-- What the next token does to a reading of type `ρ` that is to yield an `α`. -/
inductive Step (ρ α : Type)
  /-- The token belongs to the phrase. -/
  | next (reading : ρ)
  /-- The phrase was complete before the token, which is left to the surroundings. -/
  | finished (value : α)
  /-- The token can stand neither in the phrase nor after it. -/
  | refused

end PolyLambda.Grammar
