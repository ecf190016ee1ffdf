import PolyLambda.Source.Span

/-!
# Comments

Comments are nested pairs of `(*` and `*)`. Masking overwrites every comment with
blanks and leaves all other text at its byte offset, so that positions in the
masked text are positions in the source.
-/

namespace PolyLambda.Source

/-- Where a scan for comments stands. -/
inductive CommentDepth
  | outside
  /-- Inside a comment that opened at byte `opened`, with `nested` further
  comments open inside it. -/
  | inside (opened nested : Nat)
deriving DecidableEq

/-- A text whose comments have been overwritten by blanks. -/
structure MaskedText where
  chars : List Char
  /-- The offset of the outermost comment that is never closed. -/
  unclosed : Option Nat
deriving DecidableEq

namespace MaskedText

/-- Puts masked characters in front of an already masked rest. -/
def prepend (front : List Char) (rest : MaskedText) : MaskedText :=
  { rest with chars := front ++ rest.chars }

/-- Masks a text that begins at byte `offset`. Each delimiter consumes both of
its characters, and a closing delimiter outside every comment is ordinary text. -/
def scan : CommentDepth → Nat → List Char → MaskedText
  | .outside, _, [] => ⟨[], none⟩
  | .inside opened _, _, [] => ⟨[], some opened⟩
  | .outside, offset, '(' :: '*' :: rest =>
    prepend [' ', ' '] (scan (.inside offset 0) (offset + 2) rest)
  | .inside opened nested, offset, '(' :: '*' :: rest =>
    prepend [' ', ' '] (scan (.inside opened (nested + 1)) (offset + 2) rest)
  | .inside _ 0, offset, '*' :: ')' :: rest =>
    prepend [' ', ' '] (scan .outside (offset + 2) rest)
  | .inside opened (nested + 1), offset, '*' :: ')' :: rest =>
    prepend [' ', ' '] (scan (.inside opened nested) (offset + 2) rest)
  | .outside, offset, char :: rest =>
    prepend [char] (scan .outside (offset + char.utf8Size) rest)
  | .inside opened nested, offset, char :: rest =>
    prepend (List.replicate char.utf8Size ' ')
      (scan (.inside opened nested) (offset + char.utf8Size) rest)

/-- Masks the comments of a source text. -/
def ofSource (source : String) : MaskedText :=
  scan .outside 0 source.toList

end MaskedText

/-- Whether a text holds a `;` outside its comments, closed or not. -/
def hasTerminator (source : String) : Bool :=
  (MaskedText.ofSource source).chars.contains ';'

end PolyLambda.Source
