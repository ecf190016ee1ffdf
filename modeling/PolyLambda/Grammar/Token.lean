import PolyLambda.Source.Span

/-!
# Tokens

The terminals of the language: fixed symbols and keywords, and names. The order in
which the symbols are declared is the order in which a diagnostic lists them.
-/

namespace PolyLambda.Grammar

/-- The symbols and keywords with a fixed spelling. -/
inductive Symbol
  | openParen | closeParen | comma | arrow | dot | colon | semicolon | equals
  | axiomWord | clearWord | corollaryWord | defineWord | hypothesisWord | lemmaWord
  | printWord | reduceWord | theoremWord | variableWord
  | openBracket | closeBracket
  | forallWord | funWord | fun2Word | bigLambdaSign | lambdaSign | arrowSign | forallSign
deriving DecidableEq

namespace Symbol

/-- Every symbol, in listing order. -/
def all : List Symbol :=
  [openParen, closeParen, comma, arrow, dot, colon, semicolon, equals,
    axiomWord, clearWord, corollaryWord, defineWord, hypothesisWord, lemmaWord,
    printWord, reduceWord, theoremWord, variableWord,
    openBracket, closeBracket,
    forallWord, funWord, fun2Word, bigLambdaSign, lambdaSign, arrowSign, forallSign]

/-- How a symbol is spelled. -/
def text : Symbol → String
  | openParen => "("
  | closeParen => ")"
  | comma => ","
  | arrow => "->"
  | dot => "."
  | colon => ":"
  | semicolon => ";"
  | equals => "="
  | axiomWord => "Axiom"
  | clearWord => "Clear"
  | corollaryWord => "Corollary"
  | defineWord => "Define"
  | hypothesisWord => "Hypothesis"
  | lemmaWord => "Lemma"
  | printWord => "Print"
  | reduceWord => "Reduce"
  | theoremWord => "Theorem"
  | variableWord => "Variable"
  | openBracket => "["
  | closeBracket => "]"
  | forallWord => "forall"
  | funWord => "fun"
  | fun2Word => "fun2"
  | bigLambdaSign => "Λ"
  | lambdaSign => "λ"
  | arrowSign => "→"
  | forallSign => "∀"

end Symbol

/-- The first character of a name is an ASCII letter. -/
def isNameStart (char : Char) : Bool :=
  char.isAlpha

/-- A name continues with ASCII letters, digits, `_` and `'`. -/
def isNameRest (char : Char) : Bool :=
  char.isAlphanum || char == '_' || char == '\''

/-- What a token says, apart from where it stands. -/
inductive Lexeme
  | symbol (fixed : Symbol)
  | name (text : String)
deriving DecidableEq

/-- What the grammar distinguishes: all names are one terminal. -/
inductive Terminal
  | symbol (fixed : Symbol)
  | name
deriving DecidableEq

/-- A word that is spelled like a symbol is that symbol, any other is a name. -/
def Lexeme.ofWord (word : String) : Lexeme :=
  match Symbol.all.find? fun fixed => fixed.text == word with
  | some fixed => .symbol fixed
  | none => .name word

/-- The text that a lexeme is written as. -/
def Lexeme.text : Lexeme → String
  | .symbol fixed => fixed.text
  | .name text => text

/-- The terminal that a lexeme is an instance of. -/
def Lexeme.terminal : Lexeme → Terminal
  | .symbol fixed => .symbol fixed
  | .name _ => .name

/-- Whether a lexeme is one of the two arrows. -/
def Lexeme.isArrow : Lexeme → Bool
  | .symbol .arrow | .symbol .arrowSign => true
  | _ => false

namespace Terminal

/-- Every terminal, in listing order: the symbols, then names. -/
def all : List Terminal :=
  Symbol.all.map .symbol ++ [.name]

/-- How a diagnostic lists a terminal: a symbol in quotes, a name as the raw
pattern that it matches. -/
def description : Terminal → String
  | .symbol fixed => "\"" ++ fixed.text ++ "\""
  | .name => "r#\"[a-zA-Z][a-zA-Z0-9_']*\"#"

/-- A lexeme of a given terminal. -/
def sample : Terminal → Lexeme
  | .symbol fixed => .symbol fixed
  | .name => .name "x"

end Terminal

/-- A lexeme with the span it occupies. -/
structure Token where
  lexeme : Lexeme
  span : Span
deriving DecidableEq

end PolyLambda.Grammar
