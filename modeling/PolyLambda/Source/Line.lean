import PolyLambda.Source.Span

/-!
# Lines of a text

A newline ends a line, and a carriage return before it belongs to the end. The end of
a text opens no line of its own, except in the empty text.
-/

namespace PolyLambda.Source

/-- A line of a text: its characters without the line end, the offset of its first
byte, and its bytes together with the line end. -/
structure Line where
  text : List Char
  start : Nat
  size : Nat

/-- Cuts a text behind every newline. -/
def pieces : List Char → List (List Char)
  | [] => []
  | char :: rest =>
    if char = '\n' then
      [char] :: pieces rest
    else
      match pieces rest with
      | [] => [[char]]
      | first :: others => (char :: first) :: others

/-- A piece without the line end that closes it. -/
def withoutLineEnd (piece : List Char) : List Char :=
  match piece.reverse with
  | '\n' :: '\r' :: rest => rest.reverse
  | '\n' :: rest => rest.reverse
  | _ => piece

/-- The lines that some pieces form from an offset on. -/
def linesFrom : Nat → List (List Char) → List Line
  | _, [] => []
  | start, piece :: rest =>
    ⟨withoutLineEnd piece, start, byteLength piece⟩ :: linesFrom (start + byteLength piece) rest

/-- The lines of a text. -/
def lines (chars : List Char) : List Line :=
  match linesFrom 0 (pieces chars) with
  | [] => [⟨[], 0, 0⟩]
  | all => all

namespace Line

/-- Whether an offset lies on a line, the line end included. -/
def holds (line : Line) (offset : Nat) : Bool :=
  line.start ≤ offset && offset < line.start + line.size

/-- The characters of a line before an offset. -/
def before (line : Line) (offset : Nat) : List Char :=
  match splitBytes (offset - line.start) line.text with
  | some (front, _) => front
  | none => line.text

/-- The number of characters before an offset. Within a line end that is one more than
the line has. -/
def column (line : Line) (offset : Nat) : Nat :=
  if line.start + byteLength line.text < offset then
    line.text.length + 1
  else
    (line.before offset).length

end Line

/-- The number of the line that an offset lies on, counted from zero. What lies behind
the text belongs to its last line. -/
def lineOf (lines : List Line) (offset : Nat) : Nat :=
  (lines.findIdx? (·.holds offset)).getD (lines.length - 1)

/-- The line of a number. -/
def lineAt (lines : List Line) (number : Nat) : Line :=
  lines.getD number ⟨[], 0, 0⟩

end PolyLambda.Source
