import PolyLambda.Grammar.Token
import PolyLambda.Text.Blank

/-!
# Splitting a text into tokens

A token is the longest text that can stand at its position; blanks between tokens
are skipped. Reading stops at the first character where no token starts.
-/

namespace PolyLambda.Grammar

/-- The symbols that are a single character other than a letter. -/
def signOf? : Char → Option Symbol
  | '(' => some .openParen
  | ')' => some .closeParen
  | ',' => some .comma
  | '.' => some .dot
  | ':' => some .colon
  | ';' => some .semicolon
  | '=' => some .equals
  | '[' => some .openBracket
  | ']' => some .closeBracket
  | 'Λ' => some .bigLambdaSign
  | 'λ' => some .lambdaSign
  | '→' => some .arrowSign
  | '∀' => some .forallSign
  | _ => none

/-- The longest lexeme at the beginning of a text. -/
def leadingLexeme? : List Char → Option Lexeme
  | [] => none
  | '-' :: '>' :: _ => some (.symbol .arrow)
  | char :: rest =>
    if isNameStart char then
      some (Lexeme.ofWord (String.ofList (char :: rest.takeWhile isNameRest)))
    else
      (signOf? char).map .symbol

/-- The tokens of a text, and the character that stopped the reading, if any. -/
structure TokenStream where
  tokens : List Token
  /-- The span of the first character where no token starts. -/
  invalid : Option Span
deriving DecidableEq

namespace TokenStream

/-- Reads a text that begins at byte `offset` and whose first `pending` characters
belong to a token that has been read already. -/
def scan : Nat → Nat → List Char → TokenStream
  | _, _, [] => ⟨[], none⟩
  | pending + 1, offset, char :: rest => scan pending (offset + char.utf8Size) rest
  | 0, offset, char :: rest =>
    if Text.isBlank char then
      scan 0 (offset + char.utf8Size) rest
    else
      match leadingLexeme? (char :: rest) with
      | none => ⟨[], some ⟨offset, offset + char.utf8Size⟩⟩
      | some lexeme =>
        let length := lexeme.text.length
        let following := scan (length - 1) (offset + char.utf8Size) rest
        let token := ⟨lexeme, ⟨offset, offset + lexeme.text.utf8ByteSize⟩⟩
        { following with tokens := token :: following.tokens }

/-- Reads a text whose comments have been masked. -/
def ofChars (chars : List Char) : TokenStream :=
  scan 0 0 chars

end TokenStream

end PolyLambda.Grammar
