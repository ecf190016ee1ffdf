/-!
# Spans

A span is a half-open range of byte offsets into a UTF-8 text. This module fixes
which part of a text a span denotes; a span that cuts a character, runs
backwards or runs past the end denotes nothing.
-/

namespace PolyLambda

/-- A half-open range of byte offsets. -/
structure Span where
  start : Nat
  stop : Nat
deriving DecidableEq, Inhabited

namespace Source

/-- Splits a text after `count` bytes. There is no such split when `count`
exceeds the text or falls inside a character. -/
def splitBytes : Nat → List Char → Option (List Char × List Char)
  | 0, chars => some ([], chars)
  | _ + 1, [] => none
  | count + 1, char :: rest =>
    if char.utf8Size ≤ count + 1 then
      (splitBytes (count + 1 - char.utf8Size) rest).map fun (front, back) => (char :: front, back)
    else
      none

/-- The number of bytes a text occupies in UTF-8. -/
def byteLength : List Char → Nat
  | [] => 0
  | char :: rest => char.utf8Size + byteLength rest

end Source

namespace Span

/-- The part of `source` that a span denotes. -/
def slice? (span : Span) (source : String) : Option String :=
  if span.start ≤ span.stop then do
    let (_, rest) ← Source.splitBytes span.start source.toList
    let (part, _) ← Source.splitBytes (span.stop - span.start) rest
    some (String.ofList part)
  else
    none

/-- A span lies within a text when it denotes a part of it. -/
def within (span : Span) (source : String) : Bool :=
  (span.slice? source).isSome

/-- One span contains another when it starts no later and stops no earlier. -/
def Contains (outer inner : Span) : Prop :=
  outer.start ≤ inner.start ∧ inner.stop ≤ outer.stop

instance (outer inner : Span) : Decidable (outer.Contains inner) :=
  inferInstanceAs (Decidable (_ ∧ _))

/-- The written form of a span, for instance `3..7`. -/
def text (span : Span) : String :=
  toString span.start ++ ".." ++ toString span.stop

end Span

end PolyLambda
