import PolyLambda.Diagnostic.Report
import PolyLambda.Source.Line
import PolyLambda.Text.Drawing

/-!
# Marks

A highlight is shown as a mark below its line. The label of a mark stands beside it
where there is room, and hangs below it otherwise.
-/

namespace PolyLambda.Diagnostic

open PolyLambda.Text

/-- A highlight on a line: the characters before it, the column it starts at and the
column behind it. -/
structure Mark where
  line : Nat
  column : Nat
  start : Nat
  stop : Nat
  role : Role
  label : Option String

namespace Mark

/-- Lays out a highlight on the lines of a text. One that reaches into further lines is
drawn to the end of its first line, and every highlight takes at least one column. -/
def ofHighlight (lines : List Source.Line) (highlight : Highlight) : Mark :=
  let number := Source.lineOf lines highlight.span.start
  let line := Source.lineAt lines number
  let start := textWidth (line.before highlight.span.start)
  let stop :=
    if Source.lineOf lines highlight.span.stop = number then
      textWidth (line.before highlight.span.stop)
    else
      textWidth line.text
  { line := number
    column := line.column highlight.span.start
    start
    stop := max (start + 1) stop
    role := highlight.role
    label := highlight.label }

/-- The columns of a mark. -/
def width (mark : Mark) : Nat :=
  mark.stop - mark.start

/-- The columns that a label takes together with the blank before it. -/
def labelWidth (mark : Mark) : Nat :=
  match mark.label with
  | some label => label.length + 1
  | none => 0

/-- Whether marks on one line share a column, when the first is taken to reach `more`
columns further. -/
def overlaps (mark : Mark) (more : Nat) (other : Mark) : Bool :=
  (other.start ≤ mark.start && mark.start < other.stop) ||
    (mark.start ≤ other.start && other.start < mark.stop + more)

/-- Whether a mark stands in the way of the label of another one to its left: the label
would run into it, or leave no blank before it. -/
def blocks (mark : Mark) (depth : Nat) (left : Mark) : Bool :=
  left.label.isSome && left.overlaps (left.labelWidth + 1) mark &&
    (mark.label.isSome || (depth == 0 && left.stop ≤ mark.stop))

/-- How deep the labels of marks hang, the marks being given from right to left. At
depth zero a label stands beside its mark. The label of a mark that shares columns with
one to its left has to hang, and a label that is blocked hangs deeper than the label of
the mark that blocks it. -/
def depths : Nat → List Mark → List (Nat × Mark)
  | _, [] => []
  | depth, mark :: rest =>
    let crossed := mark.label.isSome && rest.any fun left => left.overlaps 0 mark
    let own := if depth == 0 && crossed then 1 else depth
    let next := if rest.any (mark.blocks own) then own + 1 else own
    (own, mark) :: depths next rest

/-- Puts marks in order from right to left. -/
def fromRight (marks : List Mark) : List Mark :=
  marks.mergeSort fun first second =>
    second.start < first.start || (second.start == first.start && second.column ≤ first.column)

/-- Puts marks in the order in which their signs are drawn: long ones before short ones,
and of two that are as long, the primary one last. -/
def inDrawingOrder (marks : List Mark) : List Mark :=
  marks.mergeSort fun first second =>
    second.width < first.width ||
      (second.width == first.width && (first.role != .primary || second.role == .primary))

end Mark

/-- The sign that a place is marked with. -/
def Role.sign : Role → Char
  | .primary => '^'
  | .context => '-'

end PolyLambda.Diagnostic
