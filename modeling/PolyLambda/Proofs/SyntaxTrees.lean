import PolyLambda.Grammar.Parser

/-!
# Syntax trees

A syntax tree is a derivation of the grammar of types, terms, statements or programs. It
holds the place of every token, so that it determines the tokens that it derives, and what
it denotes with all its spans.
-/

namespace PolyLambda

/-- The token that a name is read from. -/
def Named.Ident.token (ident : Named.Ident) : Grammar.Token :=
  ⟨.name ident.name, ident.span⟩

namespace Grammar

open PolyLambda.Named

/-- A symbol in its place. -/
def Symbol.token (fixed : Symbol) (span : Span) : Token :=
  ⟨.symbol fixed, span⟩

/-- Tokens with a given first lexeme, which may stand anywhere. -/
theorem map_lexeme_eq_cons_iff {tokens : List Token} {lexeme : Lexeme} {lexemes : List Lexeme} :
    tokens.map Token.lexeme = lexeme :: lexemes ↔
      ∃ span rest, tokens = ⟨lexeme, span⟩ :: rest ∧ rest.map Token.lexeme = lexemes := by
  rw [List.map_eq_cons_iff]
  constructor
  · rintro ⟨⟨_, span⟩, rest, rfl, rfl, restLexemes⟩
    exact ⟨span, rest, rfl, restLexemes⟩
  · rintro ⟨span, rest, rfl, restLexemes⟩
    exact ⟨_, rest, rfl, rfl, restLexemes⟩

/-! ## Symbols with two spellings -/

/-- Some symbols are spelled in ASCII characters or as a sign of their own. -/
inductive Spelling
  | ascii | sign
deriving DecidableEq

namespace Spelling

def quantifier : Spelling → Symbol
  | ascii => .forallWord
  | sign => .forallSign

def arrow : Spelling → Symbol
  | ascii => .arrow
  | sign => .arrowSign

def lambda : Spelling → Symbol
  | ascii => .funWord
  | sign => .lambdaSign

def bigLambda : Spelling → Symbol
  | ascii => .fun2Word
  | sign => .bigLambdaSign

end Spelling

/-! ## Lists with commas -/

/-- One item or more, with commas between them. -/
inductive CommaList (α : Type)
  | single (item : α)
  | cons (item : α) (comma : Span) (rest : CommaList α)

namespace CommaList

variable {α : Type}

def items : CommaList α → List α
  | single item => [item]
  | cons item _ rest => item :: rest.items

def tokens (itemTokens : α → List Token) : CommaList α → List Token
  | single item => itemTokens item
  | cons item comma rest => itemTokens item ++ [Symbol.comma.token comma] ++ rest.tokens itemTokens

end CommaList

/-! ## Types -/

/-- The nonterminals of the grammar of types. -/
inductive TypeLevel
  | type | atom

/-- Derivations of types. -/
inductive TypeTree : TypeLevel → Type
  | quantifier (spelling : Spelling) (keyword : Span) (params : CommaList Ident) (dot : Span)
      (body : TypeTree .type) : TypeTree .type
  | arrow (domain : TypeTree .atom) (spelling : Spelling) (sign : Span)
      (codomain : TypeTree .type) : TypeTree .type
  | atom (inner : TypeTree .atom) : TypeTree .type
  | name (ident : Ident) : TypeTree .atom
  | group (openParen : Span) (inner : TypeTree .type) (closeParen : Span) : TypeTree .atom

namespace TypeTree

/-- The tokens that a type is derived from. -/
def tokens {level : TypeLevel} : TypeTree level → List Token
  | .quantifier spelling keyword params dot body =>
    spelling.quantifier.token keyword ::
      (params.tokens (fun param => [param.token]) ++ [Symbol.dot.token dot] ++ body.tokens)
  | .arrow domain spelling sign codomain =>
    domain.tokens ++ spelling.arrow.token sign :: codomain.tokens
  | .atom inner => inner.tokens
  | .name ident => [ident.token]
  | .group openParen inner closeParen =>
    Symbol.openParen.token openParen :: (inner.tokens ++ [Symbol.closeParen.token closeParen])

/-- The type that is derived, with the extent of its tokens. -/
def phrase {level : TypeLevel} : TypeTree level → Phrase Ty
  | .quantifier _ keyword params _ body =>
    let span := ⟨keyword.start, body.phrase.extent.stop⟩
    ⟨Ty.allMany span params.items body.phrase.value, span⟩
  | .arrow domain _ _ codomain =>
    let span := ⟨domain.phrase.extent.start, codomain.phrase.extent.stop⟩
    ⟨.arrow span domain.phrase.value codomain.phrase.value, span⟩
  | .atom inner => inner.phrase
  | .name ident => ⟨.var ident.span ident.name, ident.span⟩
  | .group openParen inner closeParen =>
    ⟨inner.phrase.value, ⟨openParen.start, closeParen.stop⟩⟩

end TypeTree

/-! ## Terms -/

/-- A derivation of a parameter with its type. -/
structure ParamTree where
  ident : Ident
  colon : Span
  type : TypeTree .type

namespace ParamTree

def tokens (param : ParamTree) : List Token :=
  param.ident.token :: Symbol.colon.token param.colon :: param.type.tokens

/-- The parameter that is derived. -/
def value (param : ParamTree) : Ident × Ty :=
  (param.ident, param.type.phrase.value)

end ParamTree

/-- The nonterminals of the grammar of terms. -/
inductive TermLevel
  | term | application | atom

/-- Derivations of terms. -/
inductive TermTree : TermLevel → Type
  | lam (spelling : Spelling) (keyword : Span) (params : CommaList ParamTree) (dot : Span)
      (body : TermTree .term) : TermTree .term
  | tyLam (spelling : Spelling) (keyword : Span) (params : CommaList Ident) (dot : Span)
      (body : TermTree .term) : TermTree .term
  | application (inner : TermTree .application) : TermTree .term
  | app (function : TermTree .application) (argument : TermTree .atom) : TermTree .application
  | tyApp (function : TermTree .application) (openBracket : Span) (argument : TypeTree .type)
      (closeBracket : Span) : TermTree .application
  | atom (inner : TermTree .atom) : TermTree .application
  | name (ident : Ident) : TermTree .atom
  | group (openParen : Span) (inner : TermTree .term) (closeParen : Span) : TermTree .atom

namespace TermTree

/-- The tokens that a term is derived from. -/
def tokens {level : TermLevel} : TermTree level → List Token
  | .lam spelling keyword params dot body =>
    spelling.lambda.token keyword ::
      (params.tokens ParamTree.tokens ++ [Symbol.dot.token dot] ++ body.tokens)
  | .tyLam spelling keyword params dot body =>
    spelling.bigLambda.token keyword ::
      (params.tokens (fun param => [param.token]) ++ [Symbol.dot.token dot] ++ body.tokens)
  | .application inner => inner.tokens
  | .app function argument => function.tokens ++ argument.tokens
  | .tyApp function openBracket argument closeBracket =>
    function.tokens ++ Symbol.openBracket.token openBracket ::
      (argument.tokens ++ [Symbol.closeBracket.token closeBracket])
  | .atom inner => inner.tokens
  | .name ident => [ident.token]
  | .group openParen inner closeParen =>
    Symbol.openParen.token openParen :: (inner.tokens ++ [Symbol.closeParen.token closeParen])

/-- The term that is derived, with the extent of its tokens. -/
def phrase {level : TermLevel} : TermTree level → Phrase Term
  | .lam _ keyword params _ body =>
    let span := ⟨keyword.start, body.phrase.extent.stop⟩
    ⟨Term.lamMany span (params.items.map ParamTree.value) body.phrase.value, span⟩
  | .tyLam _ keyword params _ body =>
    let span := ⟨keyword.start, body.phrase.extent.stop⟩
    ⟨Term.tyLamMany span params.items body.phrase.value, span⟩
  | .application inner => inner.phrase
  | .app function argument =>
    let span := ⟨function.phrase.extent.start, argument.phrase.extent.stop⟩
    ⟨.app span function.phrase.value argument.phrase.value, span⟩
  | .tyApp function _ argument closeBracket =>
    let span := ⟨function.phrase.extent.start, closeBracket.stop⟩
    ⟨.tyApp span function.phrase.value argument.phrase.value, span⟩
  | .atom inner => inner.phrase
  | .name ident => ⟨.var ident.span ident.name, ident.span⟩
  | .group openParen inner closeParen =>
    ⟨inner.phrase.value, ⟨openParen.start, closeParen.stop⟩⟩

end TermTree

/-! ## Statements and programs -/

/-- The keywords of an assumption. -/
inductive AssumptionWord
  | axiomWord | hypothesisWord

def AssumptionWord.symbol : AssumptionWord → Symbol
  | axiomWord => .axiomWord
  | hypothesisWord => .hypothesisWord

/-- The keywords of a definition with a type. -/
inductive TheoremWord
  | theoremWord | lemmaWord | corollaryWord

def TheoremWord.symbol : TheoremWord → Symbol
  | theoremWord => .theoremWord
  | lemmaWord => .lemmaWord
  | corollaryWord => .corollaryWord

/-- Derivations of statements. -/
inductive StatementTree
  | assumeType (keyword : Span) (name : Ident)
  | assumeTerm (word : AssumptionWord) (keyword : Span) (name : Ident) (colon : Span)
      (type : TypeTree .type)
  | announce (word : TheoremWord) (keyword : Span) (name : Ident) (colon : Span)
      (type : TypeTree .type) (equals : Span) (term : TermTree .term)
  | define (keyword : Span) (name : Ident) (equals : Span) (term : TermTree .term)
  | reduce (keyword : Span) (term : TermTree .term)
  | print (keyword : Span) (name : Ident)
  | clear (keyword : Span)

namespace StatementTree

/-- The tokens that a statement is derived from. -/
def tokens : StatementTree → List Token
  | assumeType keyword name => [Symbol.variableWord.token keyword, name.token]
  | assumeTerm word keyword name colon type =>
    word.symbol.token keyword :: name.token :: Symbol.colon.token colon :: type.tokens
  | announce word keyword name colon type equals term =>
    word.symbol.token keyword :: name.token :: Symbol.colon.token colon ::
      (type.tokens ++ Symbol.equals.token equals :: term.tokens)
  | define keyword name equals term =>
    Symbol.defineWord.token keyword :: name.token :: Symbol.equals.token equals :: term.tokens
  | reduce keyword term => Symbol.reduceWord.token keyword :: term.tokens
  | print keyword name => [Symbol.printWord.token keyword, name.token]
  | clear keyword => [Symbol.clearWord.token keyword]

/-- The statement that is derived. -/
def value : StatementTree → Statement
  | assumeType keyword name => ⟨⟨keyword.start, name.span.stop⟩, .assumeType name⟩
  | assumeTerm _ keyword name _ type =>
    ⟨⟨keyword.start, type.phrase.extent.stop⟩, .assumeTerm name type.phrase.value⟩
  | announce _ keyword name _ type _ term =>
    ⟨⟨keyword.start, term.phrase.extent.stop⟩,
      .define name (some type.phrase.value) term.phrase.value⟩
  | define keyword name _ term =>
    ⟨⟨keyword.start, term.phrase.extent.stop⟩, .define name none term.phrase.value⟩
  | reduce keyword term => ⟨⟨keyword.start, term.phrase.extent.stop⟩, .reduce term.phrase.value⟩
  | print keyword name => ⟨⟨keyword.start, name.span.stop⟩, .print name⟩
  | clear keyword => ⟨⟨keyword.start, keyword.stop⟩, .clear⟩

end StatementTree

/-- Derivations of programs: statements, each of which may be missing, with semicolons
between them. -/
inductive ProgramTree
  | last (statement : Option StatementTree)
  | cons (statement : Option StatementTree) (semicolon : Span) (rest : ProgramTree)

namespace ProgramTree

/-- The tokens that a program is derived from. -/
def tokens : ProgramTree → List Token
  | last statement => statement.elim [] StatementTree.tokens
  | cons statement semicolon rest =>
    statement.elim [] StatementTree.tokens ++ Symbol.semicolon.token semicolon :: rest.tokens

/-- The statements that are derived. -/
def value : ProgramTree → List Statement
  | last statement => (statement.map StatementTree.value).toList
  | cons statement _ rest => (statement.map StatementTree.value).toList ++ rest.value

end ProgramTree

end Grammar

end PolyLambda
