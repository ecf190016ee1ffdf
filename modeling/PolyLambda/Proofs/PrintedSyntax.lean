import PolyLambda.Named.Printer
import PolyLambda.Proofs.BoundRenaming
import PolyLambda.Proofs.Lexing
import PolyLambda.Proofs.ReadingTrees

/-!
# Parsing what was written

The written form of a type or term is split into the lexemes of the tree, with parentheses
around the parts that are not written alone. Tokens with these lexemes have a syntax tree,
whatever their places, and its value differs from the tree that was written in spans only.
So parsing undoes writing.
-/

namespace PolyLambda.Named

open PolyLambda.Grammar
open PolyLambda.Text (enclosed)

/-! ## The lexemes of a written tree -/

/-- Puts lexemes in parentheses unless they can stand alone. -/
def enclosedLexemes (alone : Bool) (lexemes : List Lexeme) : List Lexeme :=
  if alone then lexemes else .symbol .openParen :: (lexemes ++ [.symbol .closeParen])

/-- The lexemes of the written form of a type. -/
def Ty.lexemes : Ty → List Lexeme
  | .var _ name => [.name name]
  | .arrow _ domain codomain =>
    enclosedLexemes domain.isAtom domain.lexemes ++ .symbol .arrow :: codomain.lexemes
  | .all _ param body =>
    .symbol .forallWord :: .name param.name :: .symbol .dot :: body.lexemes

/-- The lexemes of the written form of a term. -/
def Term.lexemes : Term → List Lexeme
  | .var _ name => [.name name]
  | .lam _ param paramType body =>
    .symbol .funWord :: .name param.name :: .symbol .colon ::
      (paramType.lexemes ++ .symbol .dot :: body.lexemes)
  | .app _ function argument =>
    enclosedLexemes function.isApplication function.lexemes ++
      enclosedLexemes argument.isAtom argument.lexemes
  | .tyLam _ param body => .symbol .fun2Word :: .name param.name :: .symbol .dot :: body.lexemes
  | .tyApp _ function argument =>
    enclosedLexemes function.isApplication function.lexemes ++
      .symbol .openBracket :: (argument.lexemes ++ [.symbol .closeBracket])

/-! ## Splitting the written form -/

/-- In front of a rest where a word may end, a text is split into some lexemes. -/
def Writes (text : String) (lexemes : List Lexeme) : Prop :=
  ∀ ⦃rest restLexemes⦄, EndsWord rest → Spells rest restLexemes →
    Spells (text.toList ++ rest) (lexemes ++ restLexemes)

/-- What is written is written in parentheses too, with the lexemes of the parentheses. -/
theorem Writes.enclosed {text : String} {lexemes : List Lexeme} (writes : Writes text lexemes)
    (alone : Bool) : Writes (enclosed alone text) (enclosedLexemes alone lexemes) := by
  intro rest restLexemes ends spells
  cases alone with
  | true => exact writes ends spells
  | false =>
      have closed : Spells (')' :: rest) (.symbol .closeParen :: restLexemes) := .sign rfl spells
      have opened := Spells.sign (rfl : signOf? '(' = _) (writes (endsWord_cons rfl _) closed)
      simpa [Text.enclosed, enclosedLexemes] using opened

/-- The text of a type is split into the lexemes of the type. -/
theorem Ty.writes {ty : Ty} (named : ∀ name ∈ ty.names, IsName name.name) :
    Writes ty.text ty.lexemes := by
  -- In each case the pieces of the text are put in front of the rest, the last piece first.
  induction ty with
  | var span name =>
      intro rest restLexemes ends spells
      exact .name (named ⟨.type, name⟩ List.mem_cons_self) ends spells
  | arrow span domain codomain domainIH codomainIH =>
      intro rest restLexemes ends spells
      rw [Ty.names, List.forall_mem_append] at named
      have fromCodomain := codomainIH named.2 ends spells
      have fromArrow := Spells.space (.arrow (.space fromCodomain))
      have fromDomain := (domainIH named.1).enclosed domain.isAtom (endsWord_cons rfl _) fromArrow
      simpa [Ty.text, Ty.lexemes] using fromDomain
  | all span param body bodyIH =>
      intro rest restLexemes ends spells
      rw [Ty.names, List.forall_mem_cons] at named
      have fromBody := bodyIH named.2 ends spells
      have fromParam := Spells.nameSign named.1 (rfl : signOf? '.' = _) fromBody
      have fromKeyword := Spells.keyword (by decide : IsWord Symbol.forallWord.text) fromParam
      simpa [Ty.text, Ty.lexemes, Symbol.text] using fromKeyword

/-- The text of a term is split into the lexemes of the term. -/
theorem Term.writes {term : Term} (named : ∀ name ∈ term.names, IsName name.name) :
    Writes term.text term.lexemes := by
  induction term with
  | var span name =>
      intro rest restLexemes ends spells
      exact .name (named ⟨.term, name⟩ List.mem_cons_self) ends spells
  | lam span param paramType body bodyIH =>
      intro rest restLexemes ends spells
      rw [Term.names, List.forall_mem_cons, List.forall_mem_append] at named
      have fromBody := bodyIH named.2.2 ends spells
      have fromDot := Spells.sign (rfl : signOf? '.' = _) (.space fromBody)
      have fromType := Ty.writes named.2.1 (endsWord_cons rfl _) fromDot
      have fromParam := Spells.nameSign named.1 (rfl : signOf? ':' = _) fromType
      have fromKeyword := Spells.keyword (by decide : IsWord Symbol.funWord.text) fromParam
      simpa [Term.text, Term.lexemes, Symbol.text] using fromKeyword
  | app span function argument functionIH argumentIH =>
      intro rest restLexemes ends spells
      rw [Term.names, List.forall_mem_append] at named
      have fromArgument := (argumentIH named.2).enclosed argument.isAtom ends spells
      have fromFunction := (functionIH named.1).enclosed function.isApplication
        (endsWord_cons rfl _) (.space fromArgument)
      simpa [Term.text, Term.lexemes] using fromFunction
  | tyLam span param body bodyIH =>
      intro rest restLexemes ends spells
      rw [Term.names, List.forall_mem_cons] at named
      have fromBody := bodyIH named.2 ends spells
      have fromParam := Spells.nameSign named.1 (rfl : signOf? '.' = _) fromBody
      have fromKeyword := Spells.keyword (by decide : IsWord Symbol.fun2Word.text) fromParam
      simpa [Term.text, Term.lexemes, Symbol.text] using fromKeyword
  | tyApp span function argument functionIH =>
      intro rest restLexemes ends spells
      rw [Term.names, List.forall_mem_append] at named
      have fromClose := Spells.sign (rfl : signOf? ']' = _) spells
      have fromArgument := Ty.writes named.2 (endsWord_cons rfl _) fromClose
      have fromOpen := Spells.space (.sign (rfl : signOf? '[' = _) fromArgument)
      have fromFunction := (functionIH named.1).enclosed function.isApplication
        (endsWord_cons rfl _) fromOpen
      simpa [Term.text, Term.lexemes] using fromFunction

/-! ## Syntax trees of the written form -/

/-- Tokens with lexemes in parentheses are tokens with these lexemes between two that are
parentheses. -/
theorem exists_enclosed_tokens {tokens : List Token} {lexemes : List Lexeme}
    (enclosedBy : tokens.map Token.lexeme = enclosedLexemes false lexemes) :
    ∃ openParen inner closeParen,
      tokens = Symbol.openParen.token openParen ::
        (inner ++ [Symbol.closeParen.token closeParen]) ∧
      inner.map Token.lexeme = lexemes := by
  obtain ⟨openParen, rest, rfl, restLexemes⟩ := map_lexeme_eq_cons_iff.mp enclosedBy
  obtain ⟨inner, close, rfl, innerLexemes, closeLexemes⟩ := List.map_eq_append_iff.mp restLexemes
  obtain ⟨closeParen, _, rfl, none⟩ := map_lexeme_eq_cons_iff.mp closeLexemes
  cases List.map_eq_nil_iff.mp none
  exact ⟨openParen, inner, closeParen, rfl, innerLexemes⟩

/-- Any tokens with some lexemes have a syntax tree of a type, spans aside. -/
def Ty.DerivedFrom (ty : Ty) (level : TypeLevel) (lexemes : List Lexeme) : Prop :=
  ∀ tokens : List Token, tokens.map Token.lexeme = lexemes →
    ∃ tree : TypeTree level, tree.tokens = tokens ∧ tree.phrase.value.bare = ty.bare

/-- Any tokens with some lexemes have a syntax tree of a term, spans aside. -/
def Term.DerivedFrom (term : Term) (level : TermLevel) (lexemes : List Lexeme) : Prop :=
  ∀ tokens : List Token, tokens.map Token.lexeme = lexemes →
    ∃ tree : TermTree level, tree.tokens = tokens ∧ tree.phrase.value.bare = term.bare

/-- A name is derived as the type variable of this name. -/
theorem Ty.derivedFrom_name (span : Span) (name : String) :
    (Ty.var span name).DerivedFrom .atom [.name name] := by
  intro tokens lexemes
  obtain ⟨span, rest, rfl, restLexemes⟩ := map_lexeme_eq_cons_iff.mp lexemes
  cases List.map_eq_nil_iff.mp restLexemes
  exact ⟨.name ⟨span, name⟩, rfl, rfl⟩

/-- In parentheses, a type is derived as an atom. -/
theorem Ty.DerivedFrom.enclosed {ty : Ty} {lexemes : List Lexeme}
    (derived : ty.DerivedFrom .type lexemes) :
    ty.DerivedFrom .atom (enclosedLexemes false lexemes) := by
  intro tokens enclosedBy
  obtain ⟨openParen, inner, closeParen, rfl, innerLexemes⟩ := exists_enclosed_tokens enclosedBy
  obtain ⟨tree, rfl, value⟩ := derived inner innerLexemes
  exact ⟨.group openParen tree closeParen, rfl, value⟩

/-- Left of an arrow, a type is derived as an atom. -/
theorem Ty.DerivedFrom.domain {ty : Ty} (derived : ty.DerivedFrom .type ty.lexemes) :
    ty.DerivedFrom .atom (enclosedLexemes ty.isAtom ty.lexemes) := by
  cases ty with
  | var span name => exact Ty.derivedFrom_name span name
  | arrow | all => exact derived.enclosed

/-- The lexemes of a type are derived as this type. -/
theorem Ty.derivedFrom_lexemes (ty : Ty) : ty.DerivedFrom .type ty.lexemes := by
  induction ty with
  | var span name =>
      intro tokens lexemes
      obtain ⟨atom, rfl, value⟩ := Ty.derivedFrom_name span name tokens lexemes
      exact ⟨.atom atom, rfl, value⟩
  | arrow span domain codomain domainIH codomainIH =>
      intro tokens lexemes
      obtain ⟨left, right, rfl, leftLexemes, rightLexemes⟩ := List.map_eq_append_iff.mp lexemes
      obtain ⟨sign, rest, rfl, restLexemes⟩ := map_lexeme_eq_cons_iff.mp rightLexemes
      obtain ⟨domainTree, rfl, domainValue⟩ := domainIH.domain left leftLexemes
      obtain ⟨codomainTree, rfl, codomainValue⟩ := codomainIH rest restLexemes
      refine ⟨.arrow domainTree .ascii sign codomainTree, rfl, ?_⟩
      simp [TypeTree.phrase, Ty.bare, domainValue, codomainValue]
  | all span param body bodyIH =>
      intro tokens lexemes
      obtain ⟨keyword, _, rfl, fromParam⟩ := map_lexeme_eq_cons_iff.mp lexemes
      obtain ⟨paramSpan, _, rfl, fromDot⟩ := map_lexeme_eq_cons_iff.mp fromParam
      obtain ⟨dot, rest, rfl, fromBody⟩ := map_lexeme_eq_cons_iff.mp fromDot
      obtain ⟨bodyTree, rfl, bodyValue⟩ := bodyIH rest fromBody
      refine ⟨.quantifier .ascii keyword (.single ⟨paramSpan, param.name⟩) dot bodyTree, rfl, ?_⟩
      simp [TypeTree.phrase, CommaList.items, Ty.allMany, Ty.bare, Ident.bare, bodyValue]

/-- A name is derived as the variable of this name. -/
theorem Term.derivedFrom_name (span : Span) (name : String) :
    (Term.var span name).DerivedFrom .atom [.name name] := by
  intro tokens lexemes
  obtain ⟨span, rest, rfl, restLexemes⟩ := map_lexeme_eq_cons_iff.mp lexemes
  cases List.map_eq_nil_iff.mp restLexemes
  exact ⟨.name ⟨span, name⟩, rfl, rfl⟩

namespace Term.DerivedFrom

variable {term : Term} {lexemes : List Lexeme}

/-- In parentheses, a term is derived as an atom. -/
theorem enclosed (derived : term.DerivedFrom .term lexemes) :
    term.DerivedFrom .atom (enclosedLexemes false lexemes) := by
  intro tokens enclosedBy
  obtain ⟨openParen, inner, closeParen, rfl, innerLexemes⟩ := exists_enclosed_tokens enclosedBy
  obtain ⟨tree, rfl, value⟩ := derived inner innerLexemes
  exact ⟨.group openParen tree closeParen, rfl, value⟩

/-- What is derived as an atom is derived as an application. -/
theorem ofAtom (derived : term.DerivedFrom .atom lexemes) :
    term.DerivedFrom .application lexemes := by
  intro tokens fromTokens
  obtain ⟨atom, rfl, value⟩ := derived tokens fromTokens
  exact ⟨.atom atom, rfl, value⟩

/-- What is derived as an application is derived as a term. -/
theorem ofApplication (derived : term.DerivedFrom .application lexemes) :
    term.DerivedFrom .term lexemes := by
  intro tokens fromTokens
  obtain ⟨application, rfl, value⟩ := derived tokens fromTokens
  exact ⟨.application application, rfl, value⟩

/-- As an argument, a term is derived as an atom. -/
theorem argument (derived : term.DerivedFrom .term term.lexemes) :
    term.DerivedFrom .atom (enclosedLexemes term.isAtom term.lexemes) := by
  cases term with
  | var span name => exact Term.derivedFrom_name span name
  | lam | app | tyLam | tyApp => exact derived.enclosed

end Term.DerivedFrom

/-- A written term is derived as a term, and as an application where a function has to
stand. -/
theorem Term.derivedFrom_lexemes (term : Term) :
    term.DerivedFrom .application (enclosedLexemes term.isApplication term.lexemes) ∧
      term.DerivedFrom .term term.lexemes := by
  -- The two parts differ at abstractions only, which take parentheses as functions.
  induction term with
  | var span name =>
      have derived := (Term.derivedFrom_name span name).ofAtom
      exact ⟨derived, derived.ofApplication⟩
  | lam span param paramType body bodyIH =>
      suffices derived : Term.DerivedFrom (.lam span param paramType body) .term _ from
        ⟨derived.enclosed.ofAtom, derived⟩
      intro tokens lexemes
      obtain ⟨keyword, _, rfl, fromParam⟩ := map_lexeme_eq_cons_iff.mp lexemes
      obtain ⟨paramSpan, _, rfl, fromColon⟩ := map_lexeme_eq_cons_iff.mp fromParam
      obtain ⟨colon, _, rfl, fromType⟩ := map_lexeme_eq_cons_iff.mp fromColon
      obtain ⟨typeTokens, _, rfl, typeLexemes, fromDot⟩ := List.map_eq_append_iff.mp fromType
      obtain ⟨dot, rest, rfl, fromBody⟩ := map_lexeme_eq_cons_iff.mp fromDot
      obtain ⟨typeTree, rfl, typeValue⟩ := paramType.derivedFrom_lexemes typeTokens typeLexemes
      obtain ⟨bodyTree, rfl, bodyValue⟩ := bodyIH.2 rest fromBody
      refine ⟨.lam .ascii keyword (.single ⟨⟨paramSpan, param.name⟩, colon, typeTree⟩) dot
        bodyTree, ?_, ?_⟩
      · simp [TermTree.tokens, CommaList.tokens, ParamTree.tokens, Ident.token, Symbol.token,
          Spelling.lambda]
      · simp [TermTree.phrase, CommaList.items, ParamTree.value, Term.lamMany, Term.bare,
          Ident.bare, typeValue, bodyValue]
  | app span function argument functionIH argumentIH =>
      suffices derived : Term.DerivedFrom (.app span function argument) .application _ from
        ⟨derived, derived.ofApplication⟩
      intro tokens lexemes
      obtain ⟨left, right, rfl, leftLexemes, rightLexemes⟩ := List.map_eq_append_iff.mp lexemes
      obtain ⟨functionTree, rfl, functionValue⟩ := functionIH.1 left leftLexemes
      obtain ⟨argumentTree, rfl, argumentValue⟩ := argumentIH.2.argument right rightLexemes
      refine ⟨.app functionTree argumentTree, rfl, ?_⟩
      simp [TermTree.phrase, Term.bare, functionValue, argumentValue]
  | tyLam span param body bodyIH =>
      suffices derived : Term.DerivedFrom (.tyLam span param body) .term _ from
        ⟨derived.enclosed.ofAtom, derived⟩
      intro tokens lexemes
      obtain ⟨keyword, _, rfl, fromParam⟩ := map_lexeme_eq_cons_iff.mp lexemes
      obtain ⟨paramSpan, _, rfl, fromDot⟩ := map_lexeme_eq_cons_iff.mp fromParam
      obtain ⟨dot, rest, rfl, fromBody⟩ := map_lexeme_eq_cons_iff.mp fromDot
      obtain ⟨bodyTree, rfl, bodyValue⟩ := bodyIH.2 rest fromBody
      refine ⟨.tyLam .ascii keyword (.single ⟨paramSpan, param.name⟩) dot bodyTree, rfl, ?_⟩
      simp [TermTree.phrase, CommaList.items, Term.tyLamMany, Term.bare, Ident.bare, bodyValue]
  | tyApp span function argument functionIH =>
      suffices derived : Term.DerivedFrom (.tyApp span function argument) .application _ from
        ⟨derived, derived.ofApplication⟩
      intro tokens lexemes
      obtain ⟨left, _, rfl, leftLexemes, fromOpen⟩ := List.map_eq_append_iff.mp lexemes
      obtain ⟨openBracket, _, rfl, fromType⟩ := map_lexeme_eq_cons_iff.mp fromOpen
      obtain ⟨typeTokens, _, rfl, typeLexemes, fromClose⟩ := List.map_eq_append_iff.mp fromType
      obtain ⟨closeBracket, _, rfl, none⟩ := map_lexeme_eq_cons_iff.mp fromClose
      cases List.map_eq_nil_iff.mp none
      obtain ⟨functionTree, rfl, functionValue⟩ := functionIH.1 left leftLexemes
      obtain ⟨typeTree, rfl, typeValue⟩ := argument.derivedFrom_lexemes typeTokens typeLexemes
      refine ⟨.tyApp functionTree openBracket typeTree closeBracket, rfl, ?_⟩
      simp [TermTree.phrase, Term.bare, functionValue, typeValue]

/-! ## Parsing the written form -/

/-- A name has no asterisk. -/
theorem noAsterisk_of_isName {name : String} (isName : IsName name) : '*' ∉ name.toList := by
  obtain ⟨first, more, chars, start, wordChars⟩ := isName.1.chars
  rw [chars, List.mem_cons, not_or]
  constructor
  · rintro rfl
    exact absurd start (by decide)
  · intro member
    exact absurd (wordChars '*' member) (by decide)

/-- Parentheses add no asterisk. -/
theorem noAsterisk_enclosed {text : String} (noAsterisk : '*' ∉ text.toList) (alone : Bool) :
    '*' ∉ (enclosed alone text).toList := by
  cases alone <;> simp [enclosed, noAsterisk]

/-- The text of a type has no asterisk. -/
theorem Ty.noAsterisk_text {ty : Ty} (named : ∀ name ∈ ty.names, IsName name.name) :
    '*' ∉ ty.text.toList := by
  induction ty with
  | var span name => exact noAsterisk_of_isName (named ⟨.type, name⟩ List.mem_cons_self)
  | arrow span domain codomain domainIH codomainIH =>
      rw [Ty.names, List.forall_mem_append] at named
      simp [Ty.text, noAsterisk_enclosed (domainIH named.1), codomainIH named.2]
  | all span param body bodyIH =>
      rw [Ty.names, List.forall_mem_cons] at named
      simp [Ty.text, noAsterisk_of_isName named.1, bodyIH named.2]

/-- The text of a term has no asterisk. -/
theorem Term.noAsterisk_text {term : Term} (named : ∀ name ∈ term.names, IsName name.name) :
    '*' ∉ term.text.toList := by
  induction term with
  | var span name => exact noAsterisk_of_isName (named ⟨.term, name⟩ List.mem_cons_self)
  | lam span param paramType body bodyIH =>
      rw [Term.names, List.forall_mem_cons, List.forall_mem_append] at named
      simp [Term.text, noAsterisk_of_isName named.1, Ty.noAsterisk_text named.2.1,
        bodyIH named.2.2]
  | app span function argument functionIH argumentIH =>
      rw [Term.names, List.forall_mem_append] at named
      simp [Term.text, noAsterisk_enclosed (functionIH named.1),
        noAsterisk_enclosed (argumentIH named.2)]
  | tyLam span param body bodyIH =>
      rw [Term.names, List.forall_mem_cons] at named
      simp [Term.text, noAsterisk_of_isName named.1, bodyIH named.2]
  | tyApp span function argument functionIH =>
      rw [Term.names, List.forall_mem_append] at named
      simp [Term.text, noAsterisk_enclosed (functionIH named.1), Ty.noAsterisk_text named.2]

/-- A text without comments is parsed by reading tokens with its lexemes. -/
theorem exists_parse_eq {ρ α : Type} (entry : EntryPoint ρ α) {text : String}
    {lexemes : List Lexeme} (noAsterisk : '*' ∉ text.toList) (writes : Writes text lexemes) :
    ∃ tokens : List Token, tokens.map Token.lexeme = lexemes ∧
      entry.parse text = entry.readFrom none entry.start 0 tokens := by
  obtain ⟨valid, scanned⟩ := writes endsWord_nil .nil 0
  simp only [List.append_nil] at valid scanned
  refine ⟨_, scanned, ?_⟩
  simp [EntryPoint.parse, Source.MaskedText.ofSource, Source.MaskedText.scan_outside noAsterisk,
    EntryPoint.read, TokenStream.ofChars, valid]

/-- Parsing undoes writing. When the names of a type, or of a term, are words and no
keywords, its written form is parsed to the same tree, with spans of its own. -/
theorem parse_undoes_text :
    (∀ ty : Ty, (∀ name ∈ ty.names, IsName name.name) →
      ∃ parsed, parseType ty.text = .ok parsed ∧ parsed.bare = ty.bare) ∧
    (∀ term : Term, (∀ name ∈ term.names, IsName name.name) →
      ∃ parsed, parseTerm term.text = .ok parsed ∧ parsed.bare = term.bare) := by
  constructor
  · intro ty named
    obtain ⟨tokens, lexemes, parsed⟩ :=
      exists_parse_eq typeEntry (Ty.noAsterisk_text named) (Ty.writes named)
    obtain ⟨tree, rfl, value⟩ := ty.derivedFrom_lexemes tokens lexemes
    exact ⟨tree.phrase.value, parsed.trans (tree.readFrom 0), value⟩
  · intro term named
    obtain ⟨tokens, lexemes, parsed⟩ :=
      exists_parse_eq termEntry (Term.noAsterisk_text named) (Term.writes named)
    obtain ⟨tree, rfl, value⟩ := term.derivedFrom_lexemes.2 tokens lexemes
    exact ⟨tree.phrase.value, parsed.trans (tree.readFrom 0), value⟩

/-- A function whose parameter has a quantified type, and which applies its parameter to a
type and to an abstraction. One of its names begins like a keyword. -/
def selecting : Term :=
  .lam default ⟨default, "x"⟩
    (.all default ⟨default, "A"⟩ (.arrow default (.var default "A") (.var default "A")))
    (.app default
      (.tyApp default (.var default "x")
        (.arrow default (.arrow default (.var default "B") (.var default "B"))
          (.var default "B")))
      (.lam default ⟨default, "fun3'"⟩ (.var default "B") (.var default "fun3'")))

/-- A function with an application to a function type is parsed back from its text. -/
theorem parse_undoes_text_selecting :
    selecting.text = "fun x: forall A. A -> A. x [(B -> B) -> B] (fun fun3': B. fun3')" ∧
    ∃ parsed, parseTerm selecting.text = .ok parsed ∧ parsed.bare = selecting.bare :=
  ⟨by decide +kernel, parse_undoes_text.2 selecting (by decide +kernel)⟩

end PolyLambda.Named
