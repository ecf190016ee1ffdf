import PolyLambda.Proofs.Acceptance

/-!
# Sentences

The grammar sees the terminal of a token, and neither its text nor its place. So tokens
with the terminals of a syntax tree have a syntax tree of their own, and it makes sense to
speak of the sentences of a nonterminal, which are lists of terminals.
-/

namespace PolyLambda.Grammar

open PolyLambda.Named

/-- The terminal that a token is an instance of. -/
def Token.terminal (token : Token) : Terminal :=
  token.lexeme.terminal

/-- Tokens whose first terminal is a symbol begin with this symbol. -/
theorem map_terminal_eq_symbol_cons {tokens : List Token} {fixed : Symbol}
    {terminals : List Terminal} (same : tokens.map Token.terminal = .symbol fixed :: terminals) :
    ∃ span rest, tokens = fixed.token span :: rest ∧ rest.map Token.terminal = terminals := by
  obtain ⟨⟨lexeme, span⟩, rest, rfl, isSymbol, restTerminals⟩ := List.map_eq_cons_iff.mp same
  cases lexeme with
  | symbol =>
      cases isSymbol
      exact ⟨span, rest, rfl, restTerminals⟩
  | name => cases isSymbol

/-- Tokens whose first terminal is a name begin with a name. -/
theorem map_terminal_eq_name_cons {tokens : List Token} {terminals : List Terminal}
    (same : tokens.map Token.terminal = .name :: terminals) :
    ∃ (ident : Ident) (rest : List Token), tokens = ident.token :: rest ∧
      rest.map Token.terminal = terminals := by
  obtain ⟨⟨lexeme, span⟩, rest, rfl, isName, restTerminals⟩ := List.map_eq_cons_iff.mp same
  cases lexeme with
  | symbol => cases isName
  | name text => exact ⟨⟨span, text⟩, rest, rfl, restTerminals⟩

/-! ## Trees of the same terminals -/

/-- Any tokens with the terminals of a tree have a tree of the same kind. -/
def SeesTerminals {α : Type} (tokensOf : α → List Token) (tree : α) : Prop :=
  ∀ tokens : List Token, tokens.map Token.terminal = (tokensOf tree).map Token.terminal →
    ∃ other : α, tokensOf other = tokens

/-- A name can be exchanged for any other one. -/
theorem seesTerminals_ident (ident : Ident) :
    SeesTerminals (fun param : Ident => [param.token]) ident := by
  intro tokens same
  obtain ⟨other, rest, rfl, restTerminals⟩ := map_terminal_eq_name_cons same
  cases List.map_eq_nil_iff.mp restTerminals
  exact ⟨other, rfl⟩

/-- A list can be read from any tokens of its terminals if its items can. -/
theorem CommaList.seesTerminals {α : Type} {itemTokens : α → List Token}
    (items : ∀ item, SeesTerminals itemTokens item) (list : CommaList α) :
    SeesTerminals (CommaList.tokens itemTokens) list := by
  induction list with
  | single item =>
      intro tokens same
      obtain ⟨other, rfl⟩ := items item tokens same
      exact ⟨.single other, rfl⟩
  | cons item comma rest restIH =>
      intro tokens same
      simp only [CommaList.tokens, List.append_assoc, List.map_append] at same
      obtain ⟨itemPart, _, rfl, itemTerminals, fromComma⟩ := List.map_eq_append_iff.mp same
      obtain ⟨comma, restPart, rfl, restTerminals⟩ := map_terminal_eq_symbol_cons fromComma
      obtain ⟨other, rfl⟩ := items item itemPart itemTerminals
      obtain ⟨others, rfl⟩ := restIH restPart restTerminals
      exact ⟨.cons other comma others, by simp [CommaList.tokens]⟩

/-- A type can be read from any tokens of its terminals. -/
theorem TypeTree.seesTerminals {level : TypeLevel} (tree : TypeTree level) :
    SeesTerminals TypeTree.tokens tree := by
  induction tree with
  | quantifier spelling keyword params dot body bodyIH =>
      intro tokens same
      simp only [TypeTree.tokens, List.append_assoc, List.map_cons, List.map_append] at same
      obtain ⟨keyword, _, rfl, fromParams⟩ := map_terminal_eq_symbol_cons same
      obtain ⟨paramPart, _, rfl, paramTerminals, fromDot⟩ := List.map_eq_append_iff.mp fromParams
      obtain ⟨dot, bodyPart, rfl, bodyTerminals⟩ := map_terminal_eq_symbol_cons fromDot
      obtain ⟨params, rfl⟩ := params.seesTerminals seesTerminals_ident paramPart paramTerminals
      obtain ⟨body, rfl⟩ := bodyIH bodyPart bodyTerminals
      exact ⟨.quantifier spelling keyword params dot body, by simp [TypeTree.tokens]⟩
  | arrow domain spelling sign codomain domainIH codomainIH =>
      intro tokens same
      simp only [TypeTree.tokens, List.map_cons, List.map_append] at same
      obtain ⟨domainPart, _, rfl, domainTerminals, fromSign⟩ := List.map_eq_append_iff.mp same
      obtain ⟨sign, codomainPart, rfl, codomainTerminals⟩ := map_terminal_eq_symbol_cons fromSign
      obtain ⟨domain, rfl⟩ := domainIH domainPart domainTerminals
      obtain ⟨codomain, rfl⟩ := codomainIH codomainPart codomainTerminals
      exact ⟨.arrow domain spelling sign codomain, rfl⟩
  | atom inner innerIH =>
      intro tokens same
      obtain ⟨other, rfl⟩ := innerIH tokens same
      exact ⟨.atom other, rfl⟩
  | name ident =>
      intro tokens same
      obtain ⟨other, rfl⟩ := seesTerminals_ident ident tokens same
      exact ⟨.name other, rfl⟩
  | group openParen inner closeParen innerIH =>
      intro tokens same
      simp only [TypeTree.tokens, List.map_cons, List.map_append] at same
      obtain ⟨openParen, _, rfl, fromInner⟩ := map_terminal_eq_symbol_cons same
      obtain ⟨innerPart, _, rfl, innerTerminals, fromClose⟩ := List.map_eq_append_iff.mp fromInner
      obtain ⟨closeParen, _, rfl, none⟩ := map_terminal_eq_symbol_cons fromClose
      cases List.map_eq_nil_iff.mp none
      obtain ⟨inner, rfl⟩ := innerIH innerPart innerTerminals
      exact ⟨.group openParen inner closeParen, rfl⟩

/-- A parameter can be read from any tokens of its terminals. -/
theorem ParamTree.seesTerminals (param : ParamTree) : SeesTerminals ParamTree.tokens param := by
  intro tokens same
  simp only [ParamTree.tokens, List.map_cons] at same
  obtain ⟨ident, _, rfl, fromColon⟩ := map_terminal_eq_name_cons same
  obtain ⟨colon, typePart, rfl, typeTerminals⟩ := map_terminal_eq_symbol_cons fromColon
  obtain ⟨type, rfl⟩ := param.type.seesTerminals typePart typeTerminals
  exact ⟨⟨ident, colon, type⟩, rfl⟩

/-- A term can be read from any tokens of its terminals. -/
theorem TermTree.seesTerminals {level : TermLevel} (tree : TermTree level) :
    SeesTerminals TermTree.tokens tree := by
  induction tree with
  | lam spelling keyword params dot body bodyIH =>
      intro tokens same
      simp only [TermTree.tokens, List.append_assoc, List.map_cons, List.map_append] at same
      obtain ⟨keyword, _, rfl, fromParams⟩ := map_terminal_eq_symbol_cons same
      obtain ⟨paramPart, _, rfl, paramTerminals, fromDot⟩ := List.map_eq_append_iff.mp fromParams
      obtain ⟨dot, bodyPart, rfl, bodyTerminals⟩ := map_terminal_eq_symbol_cons fromDot
      obtain ⟨params, rfl⟩ :=
        params.seesTerminals ParamTree.seesTerminals paramPart paramTerminals
      obtain ⟨body, rfl⟩ := bodyIH bodyPart bodyTerminals
      exact ⟨.lam spelling keyword params dot body, by simp [TermTree.tokens]⟩
  | tyLam spelling keyword params dot body bodyIH =>
      intro tokens same
      simp only [TermTree.tokens, List.append_assoc, List.map_cons, List.map_append] at same
      obtain ⟨keyword, _, rfl, fromParams⟩ := map_terminal_eq_symbol_cons same
      obtain ⟨paramPart, _, rfl, paramTerminals, fromDot⟩ := List.map_eq_append_iff.mp fromParams
      obtain ⟨dot, bodyPart, rfl, bodyTerminals⟩ := map_terminal_eq_symbol_cons fromDot
      obtain ⟨params, rfl⟩ := params.seesTerminals seesTerminals_ident paramPart paramTerminals
      obtain ⟨body, rfl⟩ := bodyIH bodyPart bodyTerminals
      exact ⟨.tyLam spelling keyword params dot body, by simp [TermTree.tokens]⟩
  | application inner innerIH =>
      intro tokens same
      obtain ⟨other, rfl⟩ := innerIH tokens same
      exact ⟨.application other, rfl⟩
  | app function argument functionIH argumentIH =>
      intro tokens same
      simp only [TermTree.tokens, List.map_append] at same
      obtain ⟨functionPart, argumentPart, rfl, functionTerminals, argumentTerminals⟩ :=
        List.map_eq_append_iff.mp same
      obtain ⟨function, rfl⟩ := functionIH functionPart functionTerminals
      obtain ⟨argument, rfl⟩ := argumentIH argumentPart argumentTerminals
      exact ⟨.app function argument, rfl⟩
  | tyApp function openBracket argument closeBracket functionIH =>
      intro tokens same
      simp only [TermTree.tokens, List.map_cons, List.map_append] at same
      obtain ⟨functionPart, _, rfl, functionTerminals, fromOpen⟩ := List.map_eq_append_iff.mp same
      obtain ⟨openBracket, _, rfl, fromArgument⟩ := map_terminal_eq_symbol_cons fromOpen
      obtain ⟨argumentPart, _, rfl, argumentTerminals, fromClose⟩ :=
        List.map_eq_append_iff.mp fromArgument
      obtain ⟨closeBracket, _, rfl, none⟩ := map_terminal_eq_symbol_cons fromClose
      cases List.map_eq_nil_iff.mp none
      obtain ⟨function, rfl⟩ := functionIH functionPart functionTerminals
      obtain ⟨argument, rfl⟩ := argument.seesTerminals argumentPart argumentTerminals
      exact ⟨.tyApp function openBracket argument closeBracket, rfl⟩
  | atom inner innerIH =>
      intro tokens same
      obtain ⟨other, rfl⟩ := innerIH tokens same
      exact ⟨.atom other, rfl⟩
  | name ident =>
      intro tokens same
      obtain ⟨other, rfl⟩ := seesTerminals_ident ident tokens same
      exact ⟨.name other, rfl⟩
  | group openParen inner closeParen innerIH =>
      intro tokens same
      simp only [TermTree.tokens, List.map_cons, List.map_append] at same
      obtain ⟨openParen, _, rfl, fromInner⟩ := map_terminal_eq_symbol_cons same
      obtain ⟨innerPart, _, rfl, innerTerminals, fromClose⟩ := List.map_eq_append_iff.mp fromInner
      obtain ⟨closeParen, _, rfl, none⟩ := map_terminal_eq_symbol_cons fromClose
      cases List.map_eq_nil_iff.mp none
      obtain ⟨inner, rfl⟩ := innerIH innerPart innerTerminals
      exact ⟨.group openParen inner closeParen, rfl⟩

/-- A statement can be read from any tokens of its terminals. -/
theorem StatementTree.seesTerminals (tree : StatementTree) :
    SeesTerminals StatementTree.tokens tree := by
  intro tokens same
  cases tree with
  | assumeType keyword name =>
      obtain ⟨keyword, _, rfl, fromName⟩ := map_terminal_eq_symbol_cons same
      obtain ⟨name, rfl⟩ := seesTerminals_ident name _ fromName
      exact ⟨.assumeType keyword name, rfl⟩
  | assumeTerm word keyword name colon type =>
      obtain ⟨keyword, _, rfl, fromName⟩ := map_terminal_eq_symbol_cons same
      obtain ⟨name, _, rfl, fromColon⟩ := map_terminal_eq_name_cons fromName
      obtain ⟨colon, typePart, rfl, typeTerminals⟩ := map_terminal_eq_symbol_cons fromColon
      obtain ⟨type, rfl⟩ := type.seesTerminals typePart typeTerminals
      exact ⟨.assumeTerm word keyword name colon type, rfl⟩
  | announce word keyword name colon type equals term =>
      simp only [StatementTree.tokens, List.map_cons, List.map_append] at same
      obtain ⟨keyword, _, rfl, fromName⟩ := map_terminal_eq_symbol_cons same
      obtain ⟨name, _, rfl, fromColon⟩ := map_terminal_eq_name_cons fromName
      obtain ⟨colon, _, rfl, fromType⟩ := map_terminal_eq_symbol_cons fromColon
      obtain ⟨typePart, _, rfl, typeTerminals, fromEquals⟩ := List.map_eq_append_iff.mp fromType
      obtain ⟨equals, termPart, rfl, termTerminals⟩ := map_terminal_eq_symbol_cons fromEquals
      obtain ⟨type, rfl⟩ := type.seesTerminals typePart typeTerminals
      obtain ⟨term, rfl⟩ := term.seesTerminals termPart termTerminals
      exact ⟨.announce word keyword name colon type equals term, rfl⟩
  | define keyword name equals term =>
      obtain ⟨keyword, _, rfl, fromName⟩ := map_terminal_eq_symbol_cons same
      obtain ⟨name, _, rfl, fromEquals⟩ := map_terminal_eq_name_cons fromName
      obtain ⟨equals, termPart, rfl, termTerminals⟩ := map_terminal_eq_symbol_cons fromEquals
      obtain ⟨term, rfl⟩ := term.seesTerminals termPart termTerminals
      exact ⟨.define keyword name equals term, rfl⟩
  | reduce keyword term =>
      obtain ⟨keyword, termPart, rfl, termTerminals⟩ := map_terminal_eq_symbol_cons same
      obtain ⟨term, rfl⟩ := term.seesTerminals termPart termTerminals
      exact ⟨.reduce keyword term, rfl⟩
  | print keyword name =>
      obtain ⟨keyword, _, rfl, fromName⟩ := map_terminal_eq_symbol_cons same
      obtain ⟨name, rfl⟩ := seesTerminals_ident name _ fromName
      exact ⟨.print keyword name, rfl⟩
  | clear keyword =>
      obtain ⟨keyword, _, rfl, none⟩ := map_terminal_eq_symbol_cons same
      cases List.map_eq_nil_iff.mp none
      exact ⟨.clear keyword, rfl⟩

/-- An optional statement can be read from any tokens of its terminals. -/
theorem seesTerminals_option (statement : Option StatementTree) :
    SeesTerminals (fun statement : Option StatementTree =>
      statement.elim [] StatementTree.tokens) statement := by
  intro tokens same
  cases statement with
  | none =>
      cases List.map_eq_nil_iff.mp same
      exact ⟨none, rfl⟩
  | some tree =>
      obtain ⟨other, rfl⟩ := tree.seesTerminals tokens same
      exact ⟨some other, rfl⟩

/-- A program can be read from any tokens of its terminals. -/
theorem ProgramTree.seesTerminals (tree : ProgramTree) :
    SeesTerminals ProgramTree.tokens tree := by
  induction tree with
  | last statement =>
      intro tokens same
      obtain ⟨other, rfl⟩ := seesTerminals_option statement tokens same
      exact ⟨.last other, rfl⟩
  | cons statement semicolon rest restIH =>
      intro tokens same
      simp only [ProgramTree.tokens, List.map_cons, List.map_append] at same
      obtain ⟨statementPart, _, rfl, statementTerminals, fromSemicolon⟩ :=
        List.map_eq_append_iff.mp same
      obtain ⟨semicolon, restPart, rfl, restTerminals⟩ := map_terminal_eq_symbol_cons fromSemicolon
      obtain ⟨other, rfl⟩ := seesTerminals_option statement statementPart statementTerminals
      obtain ⟨others, rfl⟩ := restIH restPart restTerminals
      exact ⟨.cons other semicolon others, rfl⟩

/-! ## Sentences -/

namespace Nonterminal

variable {α : Type}

/-- The terminals of a derivation. -/
def IsSentence (nonterminal : Nonterminal α) (terminals : List Terminal) : Prop :=
  ∃ tree, (nonterminal.tokens tree).map Token.terminal = terminals

/-- The beginning of a sentence. -/
def IsViable (nonterminal : Nonterminal α) (terminals : List Terminal) : Prop :=
  ∃ rest, nonterminal.IsSentence (terminals ++ rest)

end Nonterminal

end PolyLambda.Grammar
