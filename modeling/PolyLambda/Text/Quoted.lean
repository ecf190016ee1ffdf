import PolyLambda.Text.Visible

/-!
# Quoted text

A quoted text stands between double quotes. Quotes, backslashes and line controls
are written with a backslash, and characters that do not show on their own by
their code point.
-/

namespace PolyLambda.Text

/-- A code point in braces, in lower case hexadecimal. -/
def codePoint (char : Char) : String :=
  "\\u\x7b" ++ String.ofList (Nat.toDigits 16 char.toNat) ++ "\x7d"

/-- How a character is written between quotes. -/
def escaped (char : Char) : String :=
  match char with
  | '\x00' => "\\0"
  | '\t' => "\\t"
  | '\r' => "\\r"
  | '\n' => "\\n"
  | '\\' => "\\\\"
  | '"' => "\\\""
  | _ => if isVisible char then char.toString else codePoint char

/-- A text between quotes. -/
def quoted (text : String) : String :=
  "\"" ++ String.join (text.toList.map escaped) ++ "\""

end PolyLambda.Text
