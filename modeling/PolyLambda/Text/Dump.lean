/-!
# Dumps

A dump shows how a value is built from named parts. It has two layouts: `inline`
puts it on one line, `block` gives every part lines of its own, indented by four
blanks and followed by a comma.
-/

namespace PolyLambda.Text

/-- A value laid out for inspection, on one line and on lines of its own. -/
structure Dump where
  inline : String
  block : List String

/-- Indents the lines of a part and puts a comma after it. -/
def partLines : List String → List String
  | [] => []
  | [line] => ["    " ++ line ++ ","]
  | line :: rest => ("    " ++ line) :: partLines rest

/-- Writes a label in front of a part. -/
def labelled (label : String) : List String → List String
  | [] => []
  | line :: rest => (label ++ line) :: rest

namespace Dump

/-- A value without parts. -/
def atom (text : String) : Dump where
  inline := text
  block := [text]

/-- A value with one part that has no label. -/
def wrapped (name : String) (part : Dump) : Dump where
  inline := name ++ "(" ++ part.inline ++ ")"
  block := [name ++ "("] ++ partLines part.block ++ [")"]

/-- A value with labelled parts. -/
def record (name : String) (parts : List (String × Dump)) : Dump where
  inline :=
    let fields := parts.map fun (label, part) => label ++ ": " ++ part.inline
    name ++ " \x7b " ++ ", ".intercalate fields ++ " \x7d"
  block :=
    let fields := parts.map fun (label, part) => partLines (labelled (label ++ ": ") part.block)
    [name ++ " \x7b"] ++ fields.flatten ++ ["\x7d"]

/-- A sequence of values. -/
def list : List Dump → Dump
  | [] => atom "[]"
  | items => {
      inline := "[" ++ ", ".intercalate (items.map Dump.inline) ++ "]"
      block := ["["] ++ (items.map fun item => partLines item.block).flatten ++ ["]"] }

/-- A value that may be missing. -/
def option : Option Dump → Dump
  | none => atom "None"
  | some part => wrapped "Some" part

/-- The block layout as one text. -/
def blockText (dump : Dump) : String :=
  "\n".intercalate dump.block

end Dump

end PolyLambda.Text
