import PolyLambda.Diagnostic.Mark
import PolyLambda.Text.Blank

/-!
# The visible part of marked lines

Lines that are too wide for the screen, or that stand far to the right, are cut. The
same columns of all lines of a snippet are shown, chosen such that the marks can be
seen, and if possible their labels.
-/

namespace PolyLambda.Diagnostic

open PolyLambda.Text

/-- The proportions of a snippet. -/
structure Proportions where
  /-- The columns of the screen. -/
  screen : Nat
  /-- The columns kept free around what has to be seen. -/
  margin : Nat
  /-- The columns of common blanks before the lines above which they are shortened. -/
  longBlank : Nat
  /-- The columns that shortened blanks keep. -/
  shortBlank : Nat

/-- The proportions that snippets are drawn with. -/
def Proportions.standard : Proportions :=
  ⟨140, 6, 20, 16⟩

/-- What there is to be seen of marked lines, in columns. -/
structure Extent where
  /-- The blanks that all lines start with. -/
  blank : Nat
  /-- The first column of a mark. -/
  start : Nat
  /-- The column behind all marks. -/
  stop : Nat
  /-- The column behind all labels, were they beside their marks. -/
  labelStop : Nat
  /-- The columns of the widest line. -/
  width : Nat

/-- The columns of the blanks that a line starts with: four for a tab and one for any
other. -/
def blankWidth : List Char → Nat
  | [] => 0
  | char :: rest =>
    if isBlank char then
      (if char = '\t' then 4 else 1) + blankWidth rest
    else
      0

/-- The least of some numbers, and zero if there are none. -/
def least : List Nat → Nat
  | [] => 0
  | first :: rest => rest.foldl min first

/-- The extent of lines with marks. Lines that are blank all over have no say in the
blanks that they start with. -/
def Extent.of (lines : List (List Char)) (marks : List Mark) : Extent where
  blank := least ((lines.filter fun line => !line.all isBlank).map blankWidth)
  start := least (marks.map Mark.start)
  stop := (marks.map Mark.stop).foldl max 0
  labelStop := (marks.map fun mark => mark.stop + mark.labelWidth).foldl max 0
  width := (lines.map textWidth).foldl max 0

/-- The columns that are shown: from `left` up to `right`, where `room` columns are at
hand. -/
structure Window where
  left : Nat
  right : Nat
  room : Nat

namespace Window

/-- Chooses a window for an extent. Long blanks are shortened. If the lines are still too
wide, the window starts with the text of the lines if the labels can be seen then;
otherwise it is moved to the marks with their labels, or else to the marks alone; and
if there is no room for the marks, it holds them nonetheless. -/
def choose (proportions : Proportions) (room : Nat) (extent : Extent) : Window :=
  let blank := extent.blank - proportions.margin
  let start := extent.start - proportions.margin
  let stop := extent.stop + proportions.margin
  let labelStop := extent.labelStop + proportions.margin
  let left := if proportions.longBlank < blank then blank - proportions.shortBlank else 0
  let right := max extent.width left
  if right - left ≤ room then
    ⟨left, right, room⟩
  else if blank ≤ labelStop ∧ labelStop - blank ≤ room then
    ⟨blank, blank + room, room⟩
  else if labelStop - start ≤ room then
    let left := start - (room - (labelStop - start)) / 2
    ⟨left, left + room, room⟩
  else if stop - start ≤ room then
    let left := start - (room - (stop - start)) / 5 * 2
    ⟨left, left + room, room⟩
  else
    ⟨start, stop, room⟩

/-- The last column that is shown of a line of the given width. A line that fits is
shown to its end. -/
def rightOf (window : Window) (width : Nat) : Nat :=
  if width - window.left ≤ window.room then width else min width window.right

end Window

end PolyLambda.Diagnostic
