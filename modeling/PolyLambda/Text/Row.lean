/-!
# Rows of cells

A row is drawn by writing texts into it at given columns. Every character has a cell
of its own.
-/

namespace PolyLambda.Text

/-- A row of cells. -/
structure Row where
  cells : List Char
deriving DecidableEq

namespace Row

/-- The row without cells. -/
def empty : Row :=
  ⟨[]⟩

/-- Writes a text over the cells from a column on. Cells that are missing before it
become blank; an empty text changes nothing. -/
def put (row : Row) (column : Nat) (text : List Char) : Row :=
  if text.isEmpty then
    row
  else
    let before := row.cells.take column ++ List.replicate (column - row.cells.length) ' '
    ⟨before ++ text ++ row.cells.drop (column + text.length)⟩

/-- Replaces the cells from one column up to another by a text. A row that does not
reach that far is kept. -/
def replace (row : Row) (first last : Nat) (text : List Char) : Row :=
  if last ≤ row.cells.length then
    ⟨row.cells.take first ++ text ++ row.cells.drop last⟩
  else
    row

/-- What a row reads. -/
def text (row : Row) : String :=
  String.ofList row.cells

end Row

end PolyLambda.Text
