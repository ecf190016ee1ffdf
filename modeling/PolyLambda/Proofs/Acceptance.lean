import PolyLambda.Proofs.LongestMatch
import PolyLambda.Proofs.PartialPrograms
import PolyLambda.Proofs.Unambiguity

/-!
# What the parser accepts

The parser accepts a text exactly when the text is split into the tokens of a syntax tree,
and it returns what that tree denotes. There is only one such tree. Reading the tokens of a
tree yields what the tree denotes; conversely what has been read stands for partial trees,
and for a whole tree at the end.
-/

namespace PolyLambda.Grammar

open PolyLambda.Named
open PolyLambda.Source (MaskedText)

/-- A nonterminal of the grammar: its derivations, the tokens that each of them derives, and
the value that each of them denotes. -/
structure Nonterminal (α : Type) where
  Tree : Type
  tokens : Tree → List Token
  value : Tree → α

namespace Nonterminal

def type : Nonterminal Ty where
  Tree := TypeTree .type
  tokens := TypeTree.tokens
  value tree := tree.phrase.value

def term : Nonterminal Term where
  Tree := TermTree .term
  tokens := TermTree.tokens
  value tree := tree.phrase.value

def statement : Nonterminal Statement where
  Tree := StatementTree
  tokens := StatementTree.tokens
  value := StatementTree.value

def program : Nonterminal (List Statement) where
  Tree := ProgramTree
  tokens := ProgramTree.tokens
  value := ProgramTree.value

end Nonterminal

namespace EntryPoint

variable {ρ α : Type} {entry : EntryPoint ρ α} {nonterminal : Nonterminal α}

/-- What each token keeps holds after all of them. -/
theorem after?_invariant (represents : ρ → List Token → Prop)
    (step : ∀ {reading tokens token next}, represents reading tokens →
      entry.step? reading token = some next → represents next (tokens ++ [token]))
    {reading final : ρ} {before tokens : List Token} (start : represents reading before)
    (read : entry.after? reading tokens = some final) : represents final (before ++ tokens) := by
  induction tokens generalizing reading before with
  | nil =>
      cases read
      simpa using start
  | cons token tokens tokensIH =>
      rw [after?_cons] at read
      obtain ⟨next, stepped, readRest⟩ := Option.bind_eq_some_iff.mp read
      simpa using tokensIH (step start stepped) readRest

/-- An entry point follows the grammar of a nonterminal. -/
structure Follows (entry : EntryPoint ρ α) (nonterminal : Nonterminal α) : Prop where
  /-- The tokens of every tree are read to what the tree denotes. -/
  complete : ∀ tree, ∃ final, entry.after? entry.start (nonterminal.tokens tree) = some final ∧
    entry.finish? final = some (nonterminal.value tree)
  /-- What is read to its end is what a tree of its tokens denotes. -/
  sound : ∀ {tokens final value}, entry.after? entry.start tokens = some final →
    entry.finish? final = some value →
    ∃ tree, nonterminal.tokens tree = tokens ∧ nonterminal.value tree = value
  /-- What is read is the beginning of the tokens of a tree. -/
  viable : ∀ {tokens reading}, entry.after? entry.start tokens = some reading →
    ∃ tree rest, nonterminal.tokens tree = tokens ++ rest
  /-- Tokens have one tree at most. -/
  unambiguous : Function.Injective nonterminal.tokens

/-- With its comments closed, a text is read by reading its tokens. -/
theorem parse_of_closed (entry : EntryPoint ρ α) {source : String}
    (closed : (MaskedText.ofSource source).unclosed = none) :
    entry.parse source = entry.read (TokenStream.ofChars (MaskedText.ofSource source).chars) := by
  simp [parse, closed]

/-- A text that is not split to its end is not read. -/
theorem readFrom_some_ne_ok {invalid : Span} {reading : ρ} {offset : Nat} {tokens : List Token}
    {value : α} : entry.readFrom (some invalid) reading offset tokens ≠ .ok value := by
  induction tokens generalizing reading offset with
  | nil => simp [readFrom]
  | cons token tokens tokensIH =>
      rw [readFrom]
      cases entry.step? reading token with
      | none => simp
      | some next => exact tokensIH

/-- A text whose comments are closed is parsed to what a tree of its tokens denotes. -/
theorem Follows.parse_eq_ok_iff (follows : entry.Follows nonterminal) {source : String}
    (closed : (MaskedText.ofSource source).unclosed = none) {value : α} :
    entry.parse source = .ok value ↔
      ∃ tree, Tokenizes (MaskedText.ofSource source).chars (nonterminal.tokens tree) ∧
        nonterminal.value tree = value := by
  rw [parse_of_closed entry closed]
  constructor
  · intro read
    cases scanned : TokenStream.ofChars (MaskedText.ofSource source).chars with
    | mk tokens invalid =>
        rw [scanned] at read
        cases invalid with
        | some span => exact absurd read readFrom_some_ne_ok
        | none =>
            obtain ⟨final, readAll, finished⟩ := readFrom_eq_ok_iff.mp read
            obtain ⟨tree, rfl, value⟩ := follows.sound readAll finished
            exact ⟨tree, TokenStream.ofChars_eq_iff.mp scanned, value⟩
  · rintro ⟨tree, tokenizes, rfl⟩
    rw [TokenStream.ofChars_eq_iff.mpr tokenizes]
    exact readFrom_eq_ok_iff.mpr (follows.complete tree)

end EntryPoint

/-! ## The four entry points -/

/-- The invariant of a reading whose steps may not leave tokens to any surroundings. -/
theorem Step.Yields.onward {ρ α : Type} {step : Step ρ α} {onward : ρ → Prop}
    {complete : α → Prop} (yields : step.Yields onward complete) {next : ρ}
    (stepped : step.next? = some next) : onward next := by
  rw [Step.next?_eq_some_iff.mp stepped] at yields
  exact yields

/-- The reading of a type represents the tokens that it has read. -/
theorem typeEntry_represents {tokens : List Token} {reading : TypeReading}
    (read : typeEntry.after? typeEntry.start tokens = some reading) : reading.Represents tokens :=
  typeEntry.after?_invariant TypeReading.Represents
    (fun represents stepped => (represents.step _).onward stepped) (.type .outermost) read

/-- The reading of a type follows the grammar of types. -/
theorem typeEntry_follows : typeEntry.Follows .type where
  complete tree := by
    obtain ⟨reading, readTree, ends⟩ := tree.read []
    exact ⟨reading, readTree, by simp [typeEntry, ends.finish?, Nonterminal.type]⟩
  sound read finished := by
    obtain ⟨phrase, ended, rfl⟩ := Option.map_eq_some_iff.mp finished
    obtain ⟨tree, rfl, treeTokens⟩ := (typeEntry_represents read).finish? ended
    exact ⟨tree, treeTokens, rfl⟩
  viable read := (typeEntry_represents read).complete
  unambiguous := TypeTree.tokens_injective

/-- The reading of a term represents the tokens that it has read. -/
theorem termEntry_represents {tokens : List Token} {reading : TermReading}
    (read : termEntry.after? termEntry.start tokens = some reading) : reading.Represents tokens :=
  termEntry.after?_invariant TermReading.Represents
    (fun represents stepped => (represents.step _).onward stepped) (.term .outermost) read

/-- The reading of a term follows the grammar of terms. -/
theorem termEntry_follows : termEntry.Follows .term where
  complete tree := by
    obtain ⟨reading, readTree, ends⟩ := tree.read []
    exact ⟨reading, readTree, by simp [termEntry, ends.finish?, Nonterminal.term]⟩
  sound read finished := by
    obtain ⟨phrase, ended, rfl⟩ := Option.map_eq_some_iff.mp finished
    obtain ⟨tree, rfl, treeTokens⟩ := (termEntry_represents read).finish? ended
    exact ⟨tree, treeTokens, rfl⟩
  viable read := (termEntry_represents read).complete
  unambiguous := TermTree.tokens_injective

/-- The reading of a statement represents the tokens that it has read. -/
theorem statementEntry_represents {tokens : List Token} {reading : StatementReading}
    (read : statementEntry.after? statementEntry.start tokens = some reading) :
    reading.Represents tokens :=
  statementEntry.after?_invariant StatementReading.Represents
    (fun represents stepped => (represents.step _).onward stepped) .statement read

/-- The reading of a statement follows the grammar of statements. -/
theorem statementEntry_follows : statementEntry.Follows .statement where
  complete tree := by
    obtain ⟨reading, readTree, ends⟩ := tree.read
    exact ⟨reading, readTree, ends.finish?⟩
  sound read finished := by
    obtain ⟨tree, value, treeTokens⟩ := (statementEntry_represents read).finish? finished
    exact ⟨tree, treeTokens, value⟩
  viable read := (statementEntry_represents read).complete
  unambiguous := StatementTree.tokens_injective

/-- The reading of a program represents the tokens that it has read. -/
theorem programEntry_represents {tokens : List Token} {reading : ProgramReading}
    (read : programEntry.after? programEntry.start tokens = some reading) :
    reading.Represents tokens :=
  programEntry.after?_invariant ProgramReading.Represents
    (fun represents stepped => represents.step? stepped) (.mk [] .statement) read

/-- The reading of a program follows the grammar of programs. -/
theorem programEntry_follows : programEntry.Follows .program where
  complete := ProgramTree.read
  sound read finished := by
    obtain ⟨tree, value, treeTokens⟩ := (programEntry_represents read).finish? finished
    exact ⟨tree, treeTokens, value⟩
  viable read := (programEntry_represents read).complete
  unambiguous := ProgramTree.tokens_injective

/-! ## Acceptance -/

/-- A parser accepts a text exactly when it is split into the tokens of a derivation, and
what it returns is denoted by the only derivation that the text has. -/
structure ParsesExactly {α : Type} (result : Except SyntaxError α) (nonterminal : Nonterminal α)
    (chars : List Char) : Prop where
  accepts : (∃ value, result = .ok value) ↔ ∃ tree, Tokenizes chars (nonterminal.tokens tree)
  value : ∀ value, result = .ok value →
    ∃ tree, (∀ other, Tokenizes chars (nonterminal.tokens other) ↔ other = tree) ∧
      nonterminal.value tree = value
  unambiguous : ∀ tree other, nonterminal.tokens tree = nonterminal.tokens other → tree = other

/-- A reading that follows a grammar parses exactly the texts of the grammar. -/
theorem EntryPoint.Follows.parsesExactly {ρ α : Type} {entry : EntryPoint ρ α}
    {nonterminal : Nonterminal α} (follows : entry.Follows nonterminal) {source : String}
    (closed : (MaskedText.ofSource source).unclosed = none) :
    ParsesExactly (entry.parse source) nonterminal (MaskedText.ofSource source).chars := by
  refine ⟨?accepts, ?value, fun _ _ => (follows.unambiguous ·)⟩
  case accepts =>
    constructor
    · rintro ⟨value, parsed⟩
      obtain ⟨tree, tokenizes, -⟩ := (follows.parse_eq_ok_iff closed).mp parsed
      exact ⟨tree, tokenizes⟩
    · rintro ⟨tree, tokenizes⟩
      exact ⟨nonterminal.value tree, (follows.parse_eq_ok_iff closed).mpr ⟨tree, tokenizes, rfl⟩⟩
  case value =>
    intro value parsed
    obtain ⟨tree, tokenizes, denotes⟩ := (follows.parse_eq_ok_iff closed).mp parsed
    refine ⟨tree, fun other => ⟨fun tokenizesOther => ?_, ?_⟩, denotes⟩
    · exact follows.unambiguous (Lexes.unique tokenizesOther tokenizes)
    · rintro rfl
      exact tokenizes

/-- The parser accepts exactly its grammar, and the grammar is unambiguous. -/
theorem parser_accepts_exactly_grammar {source : String}
    (closed : (MaskedText.ofSource source).unclosed = none) :
    ParsesExactly (parseType source) .type (MaskedText.ofSource source).chars ∧
    ParsesExactly (parseTerm source) .term (MaskedText.ofSource source).chars ∧
    ParsesExactly (parseStatement source) .statement (MaskedText.ofSource source).chars ∧
    ParsesExactly (parseProgram source) .program (MaskedText.ofSource source).chars :=
  ⟨typeEntry_follows.parsesExactly closed, termEntry_follows.parsesExactly closed,
    statementEntry_follows.parsesExactly closed, programEntry_follows.parsesExactly closed⟩

/-- A term with nested comments, two parameters and an argument in parentheses. -/
def commented : String :=
  "fun x: A (* (* the *) head *), y: B. x [A → A] (y)"

/-- The commented term is accepted, as the grammar says of the text without its comments. -/
theorem parser_accepts_exactly_grammar_commented :
    (MaskedText.ofSource commented).unclosed = none ∧
    (parseTerm commented).isOk = true ∧
    ParsesExactly (parseTerm commented) .term (MaskedText.ofSource commented).chars :=
  ⟨by decide +kernel, by decide +kernel, (parser_accepts_exactly_grammar (by decide +kernel)).2.1⟩

end PolyLambda.Grammar
