import PolyLambda.Diagnostic.Window
import PolyLambda.Text.Row

/-!
# Plain layout of reports

A report is drawn without colours: the headline, the place of the fault, the marked
lines of the source with rows of marks and labels below each, and the messages.
-/

namespace PolyLambda.Diagnostic

open PolyLambda.Text

/-- Blanks. -/
def blanks (count : Nat) : String :=
  "".pushn ' ' count

/-- What shows that something is left out. -/
def ellipsis : List Char :=
  ['.', '.', '.']

/-- How the lines of a snippet are placed: the columns for line numbers, and the part of
the lines that is shown. -/
structure Frame where
  digits : Nat
  window : Window

namespace Frame

/-- The columns before the text of a line. -/
def gutter (digits : Nat) : Nat :=
  digits + 3

/-- Draws the bar between the line numbers and the text. -/
def bar (frame : Frame) (row : Row) : Row :=
  row.put (frame.digits + 1) ['|']

/-- Draws the number of a line, counted from zero, aligned to the right. -/
def number (frame : Frame) (row : Row) (line : Nat) : Row :=
  let digits := (toString (line + 1)).toList
  row.put 0 (List.replicate (frame.digits - digits.length) ' ' ++ digits)

/-- A line of the source behind its number, and the columns of it that are left out on
the left. The ellipsis on the left takes the place of whole characters; the one on the
right takes the place of the last characters shown. -/
def lineRow (frame : Frame) (line : Nat) (chars : List Char) : Row × Nat :=
  let text := drawn chars
  let width := textWidth text
  let left := min frame.window.left width
  let right := frame.window.rightOf width
  let (skipped, back) := dropColumns left text
  let shown := takeColumns (right - left) back
  let column := gutter frame.digits
  let (row, covered, rest) :=
    if frame.window.left = 0 then
      (Row.empty, 0, shown)
    else
      let (covered, rest) := dropColumns ellipsis.length shown
      (Row.empty.put column ellipsis, covered, rest)
  let row := row.put (column + covered) rest
  let row :=
    if right < width then
      let last := shown.length - (dropColumns ellipsis.length shown.reverse).2.length
      row.put (column + covered + rest.length - last) ellipsis
    else
      row
  (frame.bar (frame.number row line), skipped)

/-- Draws the stroke that leads down from a mark to its label, on a row that the label
hangs below. -/
def stroke (frame : Frame) (left depth : Nat) (row : Row) (placed : Nat × Mark) : Row :=
  let (own, mark) := placed
  if 0 < own && depth ≤ own && mark.label.isSome then
    row.put (gutter frame.digits + mark.start - left) ['|']
  else
    row

/-- Draws the label of a mark, on the row that it belongs to: beside the mark with a blank
between them, or below its first sign. -/
def label (frame : Frame) (left depth : Nat) (row : Row) (placed : Nat × Mark) : Row :=
  let (own, mark) := placed
  let text := (mark.label.getD "").toList
  if own = 0 then
    if depth = 0 then row.put (gutter frame.digits + (mark.stop + 1 - left)) text else row
  else if depth = own + 1 then
    row.put (gutter frame.digits + (mark.start - left)) text
  else
    row

/-- Draws the signs of a mark. -/
def signs (frame : Frame) (left : Nat) (row : Row) (mark : Mark) : Row :=
  (List.range mark.width).foldl
    (fun row more => row.put (gutter frame.digits + mark.start + more - left) [mark.role.sign]) row

/-- A row below a line, the one with the signs being at depth zero. -/
def markRow (frame : Frame) (left : Nat) (placed : List (Nat × Mark)) (depth : Nat) : Row :=
  let row := placed.foldl (frame.stroke left depth) (frame.bar .empty)
  let row := placed.foldl (frame.label left depth) row
  if depth = 0 then
    (Mark.inDrawingOrder (placed.map Prod.snd)).foldl (frame.signs left) row
  else
    row

/-- Shortens a row around the middle of a mark that takes more than twice the room. -/
def shorten (frame : Frame) (left : Nat) (row : Row) (mark : Mark) : Row :=
  let room := frame.window.room
  if 2 * room < mark.width && 10 < mark.width then
    let kept := max (room / 3) 5
    let first := gutter frame.digits + mark.start + kept - left
    let last := gutter frame.digits + mark.stop - kept - left
    row.replace first last ellipsis
  else
    row

/-- A line with its marks, and the rows below it. -/
def markedRows (frame : Frame) (line : Nat) (chars : List Char) (marks : List Mark) : List Row :=
  let placed := Mark.depths 0 (Mark.fromRight marks)
  let deepest := (placed.map Prod.fst).foldl max 0
  let long := Mark.inDrawingOrder (placed.map Prod.snd)
  let (text, left) := frame.lineRow line chars
  let below := if deepest = 0 then [] else List.range' 1 (deepest + 1)
  let shortened := long.foldl (frame.shorten left)
  shortened text :: shortened (frame.markRow left placed 0) ::
    below.map (frame.markRow left placed)

/-- What stands between two marked lines: nothing if they are neighbours, the line
between them if there is one, and an ellipsis if there are more. -/
def gapRows (frame : Frame) (lines : List Source.Line) (previous next : Nat) : List Row :=
  if next ≤ previous + 1 then
    []
  else if next = previous + 2 then
    [(frame.lineRow (previous + 1) (Source.lineAt lines (previous + 1)).text).1]
  else
    [⟨ellipsis⟩]

/-- The marked lines, in order, with what stands between them. -/
def snippetRows (frame : Frame) (lines : List Source.Line) :
    Option Nat → List (Nat × List Mark) → List Row
  | _, [] => []
  | previous, (line, marks) :: rest =>
    let gap := match previous with
      | some previous => frame.gapRows lines previous line
      | none => []
    gap ++ frame.markedRows line (Source.lineAt lines line).text marks ++
      frame.snippetRows lines (some line) rest

end Frame

/-- Marks by line, the lines in order. -/
def groupByLine (marks : List Mark) : List (Nat × List Mark) :=
  let lines := (marks.map Mark.line).eraseDups.mergeSort (· ≤ ·)
  lines.map fun line => (line, marks.filter fun mark => mark.line = line)

/-- The columns for line numbers: the digits of the number of lines up to the end of the
last highlight. -/
def numberWidth (chars : List Char) (highlights : List Highlight) : Nat :=
  let stop := (highlights.map (·.span.stop)).foldl max 0
  let front := match Source.splitBytes stop chars with
    | some (front, _) => front
    | none => chars
  (toString (max 1 (Source.pieces front).length)).length

/-- The frame that the marks of a snippet are drawn in. -/
def Frame.around (digits : Nat) (lines : List Source.Line) (marks : List Mark) : Frame :=
  let marked := (groupByLine marks).map fun (line, _) => (Source.lineAt lines line).text
  let proportions := Proportions.standard
  let room := proportions.screen - Frame.gutter digits
  ⟨digits, .choose proportions room (.of marked marks)⟩

/-- The rows of a message: its first line behind the level, further lines aligned
with it. -/
def messageRows (width : Nat) (level : Level) (text : String) : List String :=
  let lead := blanks width ++ " = " ++ level.text ++ ": "
  match text.splitOn "\n" with
  | [] => []
  | first :: rest => (lead ++ first) :: rest.map fun line => blanks lead.length ++ line

/-- The highlights of the snippets of a report. -/
def Report.highlights (report : Report) : List Highlight :=
  (report.elements.map fun
    | .snippet highlights => highlights
    | _ => []).flatten

/-- The messages of a report. -/
def Report.messages (report : Report) : List (Level × String) :=
  report.elements.filterMap fun
    | .message level text => some (level, text)
    | _ => none

/-- The rows of a report about a source text that goes by the name `origin`. -/
def Report.rows (report : Report) (source origin : String) : List String :=
  let chars := source.toList
  let lines := Source.lines chars
  let highlights := report.highlights
  let marks := highlights.map (Mark.ofHighlight lines)
  let digits := if highlights.isEmpty then 0 else numberWidth chars highlights
  let place := match marks with
    | [] => []
    | primary :: _ =>
      [blanks digits ++ "--> " ++ origin ++ ":" ++ toString (primary.line + 1) ++ ":" ++
          toString (primary.column + 1),
        blanks digits ++ " |"]
  let snippet := (Frame.around digits lines marks).snippetRows lines none (groupByLine marks)
  let messages := report.messages
  let divider := if messages.isEmpty then [] else [blanks digits ++ " |"]
  let remarks := (messages.map fun (level, text) => messageRows digits level text).flatten
  ["error: " ++ report.title] ++ place ++ snippet.map Row.text ++ divider ++ remarks

/-- A report about a source text that goes by the name `origin`, laid out. -/
def Report.text (report : Report) (source origin : String) : String :=
  "\n".intercalate (report.rows source origin)

end PolyLambda.Diagnostic
