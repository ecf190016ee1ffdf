import PolyLambda.Text.Width

/-!
# Drawing characters

How a character of the source is drawn on a line, and how many columns the drawing
takes.
-/

namespace PolyLambda.Text

/-- The inclusive ranges of code points that change the direction of a text. -/
def directionRanges : List (Nat × Nat) :=
  [(0x202A, 0x202E), (0x2066, 0x2069)]

/-- Whether a character is a control of ASCII. -/
def isControl (char : Char) : Bool :=
  inRanges [(0x0, 0x1F), (0x7F, 0x7F)] char

/-- The picture that a control of ASCII is drawn as. -/
def controlPicture (char : Char) : Char :=
  if char.toNat = 0x7F then Char.ofNat 0x2421 else Char.ofNat (0x2400 + char.toNat)

/-- How a character is drawn. A tab becomes four blanks, other controls become
pictures, changes of direction show as unknown, and joiners do not show. -/
def drawnChar (char : Char) : List Char :=
  if char = '\t' then [' ', ' ', ' ', ' ']
  else if isControl char then [controlPicture char]
  else if inRanges directionRanges char then [Char.ofNat 0xFFFD]
  else if char.toNat = 0x200D then []
  else [char]

/-- The columns that a character takes once it is drawn. -/
def charWidth (char : Char) : Nat :=
  if char = '\t' then 4
  else if inRanges directionRanges char then 1
  else columns char

/-- The columns that a text takes once it is drawn. -/
def textWidth : List Char → Nat
  | [] => 0
  | char :: rest => charWidth char + textWidth rest

/-- A text as it is drawn. -/
def drawn (chars : List Char) : List Char :=
  (chars.map drawnChar).flatten

/-- Leaves out characters from the front of a text until they take the given number of
columns, and tells how many they take. A wide character that lies across the edge is
left out. -/
def dropColumns : Nat → List Char → Nat × List Char
  | 0, chars => (0, chars)
  | _ + 1, [] => (0, [])
  | count + 1, char :: rest =>
    let (dropped, back) := dropColumns (count + 1 - charWidth char) rest
    (charWidth char + dropped, back)

/-- The characters at the front of a text that fit into the given number of columns. -/
def takeColumns : Nat → List Char → List Char
  | _, [] => []
  | count, char :: rest =>
    if charWidth char ≤ count then
      char :: takeColumns (count - charWidth char) rest
    else
      []

end PolyLambda.Text
