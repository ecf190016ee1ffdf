import PolyLambda.Proofs.LineTokens

/-!
# Cutting a program at its line ends

A program that is cut at a line end is cut into two programs if no comment is open there
and the last token before it is a semicolon. What is asked of the lines after the cut can
then be asked of them by themselves.
-/

namespace PolyLambda.Grammar

open PolyLambda.Named
open PolyLambda.Source
open MaskedText (Passes)

/-- Statements that end with a semicolon do not depend on what follows it. -/
theorem ProgramTree.cut {tree : ProgramTree} {before after : List Token} {span : Span}
    (tokens : tree.tokens = before ++ Symbol.semicolon.token span :: after) :
    ∃ first second : ProgramTree, first.tokens = before ++ [Symbol.semicolon.token span] ∧
      second.tokens = after ∧ tree.value = first.value ++ second.value := by
  induction tree generalizing before with
  | last statement =>
      have clear := NoSemicolon.option statement
      rw [show statement.elim [] StatementTree.tokens = _ from tokens] at clear
      simp at clear
  | cons statement semicolon rest restIH =>
      obtain ⟨rfl, rfl, rfl⟩ | ⟨more, rfl, restTokens⟩ :=
        (NoSemicolon.option statement).split tokens
      · refine ⟨.cons statement span (.last none), rest, rfl, rfl, ?_⟩
        simp [ProgramTree.value]
      · obtain ⟨first, second, firstTokens, secondTokens, values⟩ := restIH restTokens
        refine ⟨.cons statement semicolon first, second, ?_, secondTokens, ?_⟩
        · simp [ProgramTree.tokens, firstTokens]
        · simp [ProgramTree.value, values]

namespace ProgramTree

/-- A program further on in the text. -/
def moved (distance : Nat) : ProgramTree → ProgramTree
  | last statement => last (statement.map (StatementTree.moved distance))
  | cons statement semicolon rest =>
    cons (statement.map (StatementTree.moved distance)) (semicolon.moved distance)
      (rest.moved distance)

/-- The tokens of a moved program are the tokens of the program, moved. -/
theorem tokens_moved (distance : Nat) (tree : ProgramTree) :
    (tree.moved distance).tokens = tree.tokens.map (Token.moved distance) := by
  induction tree with
  | last statement =>
      cases statement with
      | none => rfl
      | some statement => exact statement.tokens_moved distance
  | cons statement semicolon rest restIH =>
      cases statement with
      | none => simp [moved, tokens, restIH]; rfl
      | some statement => simp [moved, tokens, restIH, statement.tokens_moved]; rfl

/-- The statements of a moved program are the statements of the program, moved. -/
theorem value_moved (distance : Nat) (tree : ProgramTree) :
    (tree.moved distance).value = tree.value.map (Statement.moved distance) := by
  induction tree with
  | last statement => cases statement <;> simp [moved, value, StatementTree.value_moved]
  | cons statement semicolon rest restIH =>
      cases statement <;> simp [moved, value, restIH, StatementTree.value_moved]

end ProgramTree

/-- A program can be moved in the text. -/
theorem movable_program :
    Nonterminal.program.Movable fun distance => List.map (Statement.moved distance) where
  seesTerminals := ProgramTree.seesTerminals
  exists_moved distance tree :=
    ⟨tree.moved distance, tree.tokens_moved distance, tree.value_moved distance⟩

/-! ## Texts -/

/-- The tokens of a text. -/
def tokensOf (text : String) : List Token :=
  (TokenStream.ofChars (MaskedText.ofSource text).chars).tokens

/-- One of the tokens is a semicolon. -/
def HoldsSemicolon (tokens : List Token) : Prop :=
  ∃ token ∈ tokens, token.lexeme = .symbol .semicolon

/-- The last token, if there is one, is a semicolon. -/
def EndsInSemicolon (tokens : List Token) : Prop :=
  ∀ token ∈ tokens.getLast?, token.lexeme = .symbol .semicolon

instance (tokens : List Token) : Decidable (HoldsSemicolon tokens) :=
  inferInstanceAs (Decidable (∃ token ∈ tokens, token.lexeme = .symbol .semicolon))

instance (tokens : List Token) : Decidable (EndsInSemicolon tokens) :=
  inferInstanceAs (Decidable (∀ token ∈ tokens.getLast?, token.lexeme = .symbol .semicolon))

/-- The tokens of a text that begin in the segment of it after some front. -/
def tokensWithin (text front segment : String) : List Token :=
  (tokensOf text).filter fun token =>
    front.utf8ByteSize ≤ token.span.start && token.span.start < (front ++ segment).utf8ByteSize

/-- Tokens hold a semicolon exactly if they are not without one. -/
theorem holdsSemicolon_iff {tokens : List Token} :
    HoldsSemicolon tokens ↔ ¬ NoSemicolon tokens := by
  simp [HoldsSemicolon, NoSemicolon]

/-- What is not empty and ends in a semicolon has a semicolon for its last token. -/
theorem EndsInSemicolon.exists_eq {tokens : List Token} (ends : EndsInSemicolon tokens)
    (nonempty : tokens ≠ []) : ∃ before span, tokens = before ++ [Symbol.semicolon.token span] := by
  obtain ⟨⟨lexeme, span⟩, isLast⟩ := Option.isSome_iff_exists.mp (List.getLast?_isSome.mpr nonempty)
  obtain rfl : lexeme = .symbol .semicolon := ends _ isLast
  obtain ⟨before, rfl⟩ := List.getLast?_eq_some_iff.mp isLast
  exact ⟨before, span, rfl⟩

/-- Moving tokens does not change whether they hold a semicolon. -/
theorem holdsSemicolon_moved {distance : Nat} {tokens : List Token} :
    HoldsSemicolon (tokens.map (Token.moved distance)) ↔ HoldsSemicolon tokens := by
  simp only [HoldsSemicolon, List.mem_map]
  constructor
  · rintro ⟨_, ⟨token, member, rfl⟩, isSemicolon⟩
    exact ⟨token, member, isSemicolon⟩
  · rintro ⟨token, member, isSemicolon⟩
    exact ⟨_, ⟨token, member, rfl⟩, isSemicolon⟩

/-- Moving tokens does not change whether they end in a semicolon. -/
theorem endsInSemicolon_moved {distance : Nat} {tokens : List Token} :
    EndsInSemicolon (tokens.map (Token.moved distance)) ↔ EndsInSemicolon tokens := by
  simp only [EndsInSemicolon, List.getLast?_map]
  cases tokens.getLast? <;> simp [Token.moved]

/-- What holds a semicolon is not empty. -/
theorem HoldsSemicolon.ne_nil {tokens : List Token} (holds : HoldsSemicolon tokens) :
    tokens ≠ [] := by
  obtain ⟨token, member, -⟩ := holds
  exact List.ne_nil_of_mem member

/-- Where the whole ends in a semicolon every final part does. -/
theorem EndsInSemicolon.of_append {front tokens : List Token}
    (ends : EndsInSemicolon (front ++ tokens)) : EndsInSemicolon tokens := by
  intro token isLast
  exact ends token (by rw [List.getLast?_append, isLast]; rfl)

/-- A semicolon in a text is one of its tokens. -/
theorem Lexes.holdsSemicolon_iff {offset stop : Nat} {chars : List Char} {tokens : List Token}
    (lexes : Lexes offset chars tokens stop []) : HoldsSemicolon tokens ↔ ';' ∈ chars := by
  constructor
  · intro holds
    exact Decidable.byContradiction fun absent =>
      Grammar.holdsSemicolon_iff.mp holds (lexes.noSemicolon absent)
  · intro member
    obtain ⟨front, back, rfl, first⟩ := List.eq_append_cons_of_mem member
    obtain ⟨before, span, after, rfl, -, -⟩ := lexes.exists_semicolon first
    exact ⟨_, List.mem_append_right _ List.mem_cons_self, rfl⟩

/-- The comments of a text that is parsed are closed. -/
theorem EntryPoint.closed_of_parse {ρ α : Type} {entry : EntryPoint ρ α} {source : String}
    {value : α} (parsed : entry.parse source = .ok value) :
    (MaskedText.ofSource source).unclosed = none := by
  cases opened : (MaskedText.ofSource source).unclosed with
  | none => rfl
  | some start => simp [parse, opened] at parsed

/-- A text that parses as a program is written with the tokens of a program with these
statements. -/
theorem exists_programTree {text : String} {statements : List Statement}
    (parsed : parseProgram text = .ok statements) :
    ∃ tree : ProgramTree, Tokenizes (MaskedText.ofSource text).chars tree.tokens ∧
      tree.value = statements :=
  (programEntry_follows.parse_eq_ok_iff (EntryPoint.closed_of_parse parsed)).mp parsed

/-- A program without a semicolon outside comments that ends in one is empty. -/
theorem eq_nil_of_not_hasTerminator {text : String} {statements : List Statement}
    (parsed : parseProgram text = .ok statements) (clear : hasTerminator text = false)
    (ends : EndsInSemicolon (tokensOf text)) : statements = [] := by
  obtain ⟨tree, tokenizes, rfl⟩ := exists_programTree parsed
  rw [tokensOf, TokenStream.ofChars_eq_iff.mpr tokenizes] at ends
  have holds_iff : HoldsSemicolon tree.tokens ↔ hasTerminator text = true := by
    rw [Lexes.holdsSemicolon_iff tokenizes, hasTerminator, List.contains_iff_mem]
  have empty : tree.tokens = [] := by
    refine Decidable.byContradiction fun nonempty => ?_
    obtain ⟨before, span, tokens⟩ :
        ∃ before span, tree.tokens = before ++ [Symbol.semicolon.token span] :=
      ends.exists_eq nonempty
    have holds : HoldsSemicolon tree.tokens := by
      rw [tokens]
      exact ⟨_, List.mem_append_right _ List.mem_cons_self, rfl⟩
    exact absurd (holds_iff.mp holds) (by simp [clear])
  obtain rfl : tree = .last none := ProgramTree.tokens_injective empty
  rfl

/-- A program, cut at two line ends: how deep in comments each of them is, and the tokens
of each part. -/
structure Cut (front segment rest : String) (statements : List Statement) where
  (within next : CommentDepth)
  (maskedFront maskedSegment maskedRest : List Char)
  (frontTokens segmentTokens restTokens : List Token)
  tree : ProgramTree
  stop : Nat
  passesFront : Passes .outside 0 front.toList maskedFront within
  passes : Passes .outside 0 (front ++ segment).toList (maskedFront ++ maskedSegment) next
  scanRest : MaskedText.scan next (front ++ segment).utf8ByteSize rest.toList = ⟨maskedRest, none⟩
  tokenizes : Tokenizes (maskedFront ++ maskedSegment ++ maskedRest) tree.tokens
  lexes : Lexes 0 (maskedFront ++ maskedSegment) (frontTokens ++ segmentTokens)
    (front ++ segment).utf8ByteSize []
  lexesFront : Lexes 0 maskedFront frontTokens front.utf8ByteSize []
  lexesSegment : Lexes front.utf8ByteSize maskedSegment segmentTokens
    (front ++ segment).utf8ByteSize []
  lexesRest : Lexes (front ++ segment).utf8ByteSize maskedRest restTokens stop []
  tokens_eq : tree.tokens = frontTokens ++ segmentTokens ++ restTokens
  value_eq : tree.value = statements

namespace Cut

variable {front segment rest : String} {statements : List Statement}

/-- A program that parses can be cut at the ends of two lines. -/
theorem nonempty (frontEnds : EndsLine front.toList) (segmentEnds : EndsLine segment.toList)
    (parsed : parseProgram (front ++ segment ++ rest) = .ok statements) :
    Nonempty (Cut front segment rest statements) := by
  obtain ⟨maskedFront, within, passesFront⟩ := MaskedText.exists_passes .outside 0 frontEnds
  obtain ⟨maskedSegment, next, passesSegment⟩ :=
    MaskedText.exists_passes within (0 + byteLength front.toList) segmentEnds
  have passes := passesFront.append passesSegment
  rw [← String.toList_append] at passes
  have scanned : MaskedText.ofSource (front ++ segment ++ rest) =
      MaskedText.prepend (maskedFront ++ maskedSegment)
        (MaskedText.scan next (front ++ segment).utf8ByteSize rest.toList) := by
    rw [MaskedText.ofSource, String.toList_append, passes.scan_append, byteLength_toList,
      Nat.zero_add]
  have closed := EntryPoint.closed_of_parse parsed
  obtain ⟨tree, tokenizes, value_eq⟩ := exists_programTree parsed
  cases scanRest : MaskedText.scan next (front ++ segment).utf8ByteSize rest.toList with
  | mk maskedRest unclosed =>
      rw [scanRest] at scanned
      rw [scanned] at closed tokenizes
      obtain rfl : unclosed = none := closed
      obtain ⟨_, restTokens, tokens_eq, lexes, lexesRest⟩ := Lexes.cut tokenizes passes.endsBlank
      obtain ⟨frontTokens, segmentTokens, rfl, lexesFront, lexesSegment⟩ :=
        lexes.cut passesFront.endsBlank
      simp only [passesFront.byteLength_eq, passes.byteLength_eq, byteLength_toList,
        Nat.zero_add] at lexes lexesFront lexesSegment lexesRest
      exact ⟨⟨_, _, _, _, _, _, _, _, tree, _, passesFront, passes, scanRest, tokenizes,
        lexes, lexesFront, lexesSegment, lexesRest, tokens_eq, value_eq⟩⟩

variable (cut : Cut front segment rest statements)

include cut

/-- The masked text of a cut program is put together from the masked pieces. -/
theorem ofSource_eq : MaskedText.ofSource (front ++ segment ++ rest) =
    ⟨cut.maskedFront ++ cut.maskedSegment ++ cut.maskedRest, none⟩ := by
  rw [MaskedText.ofSource, String.toList_append, cut.passes.scan_append, byteLength_toList,
    Nat.zero_add, cut.scanRest, MaskedText.prepend]

/-- The tokens of a cut program are those of its pieces. -/
theorem tokensOf_eq : tokensOf (front ++ segment ++ rest) =
    cut.frontTokens ++ cut.segmentTokens ++ cut.restTokens := by
  rw [tokensOf, cut.ofSource_eq, TokenStream.ofChars_eq_iff.mpr cut.tokenizes, cut.tokens_eq]

/-- The tokens of the program within the segment are the tokens of the cut's segment. -/
theorem tokensWithin_eq :
    tokensWithin (front ++ segment ++ rest) front segment = cut.segmentTokens := by
  rw [tokensWithin, cut.tokensOf_eq, List.filter_append, List.filter_append,
    List.filter_eq_nil_iff.mpr, List.filter_eq_self.mpr, List.filter_eq_nil_iff.mpr]
  · rw [List.nil_append, List.append_nil]
  · intro token member
    have beyond := (cut.lexesRest.start_mem member).1
    simp only [Bool.and_eq_true, decide_eq_true_eq]
    omega
  · intro token member
    simpa only [Bool.and_eq_true, decide_eq_true_eq] using cut.lexesSegment.start_mem member
  · intro token member
    have before := (cut.lexesFront.start_mem member).2
    simp only [Bool.and_eq_true, decide_eq_true_eq]
    omega

/-- The text up to a cut has a terminator exactly if the front has one or the segment holds a
semicolon. -/
theorem hasTerminator_iff : hasTerminator (front ++ segment) = true ↔
    hasTerminator front = true ∨ HoldsSemicolon cut.segmentTokens := by
  rw [cut.lexesSegment.holdsSemicolon_iff, hasTerminator, hasTerminator, MaskedText.ofSource,
    MaskedText.ofSource, cut.passes.scan_eq, cut.passesFront.scan_eq, List.contains_iff_mem,
    List.contains_iff_mem, List.mem_append]

/-- The text up to a cut leaves no comment open exactly if the cut is outside of comments. -/
theorem unclosed_eq_none_iff :
    (MaskedText.ofSource (front ++ segment)).unclosed = none ↔ cut.next = .outside := by
  rw [MaskedText.ofSource, cut.passes.scan_eq]
  cases cut.next <;> simp [CommentDepth.opened?]

section Outside

variable (outside : cut.next = .outside)

include outside

/-- The text up to a cut is masked as it is within the program. -/
theorem masks : Masks (front ++ segment).toList (cut.maskedFront ++ cut.maskedSegment) := by
  rw [← MaskedText.ofSource_eq_iff, MaskedText.ofSource, cut.passes.scan_eq, outside]
  rfl

/-- The text after a cut is masked as it is within the program. -/
theorem masksRest : Masks rest.toList cut.maskedRest := by
  have scanned := cut.scanRest
  rw [outside] at scanned
  exact MaskedText.scan_outside_eq_iff.mp scanned

/-- Cut after a semicolon outside the comments, a program is two programs. -/
theorem exists_parse (nonempty : cut.segmentTokens ≠ [])
    (ends : EndsInSemicolon cut.segmentTokens) :
    ∃ first second, parseProgram (front ++ segment) = .ok first ∧ parseProgram rest = .ok second ∧
      statements = first ++ second.map (Statement.moved (front ++ segment).utf8ByteSize) := by
  obtain ⟨before, span, segmentTokens⟩ := ends.exists_eq nonempty
  have split : cut.tree.tokens =
      (cut.frontTokens ++ before) ++ Symbol.semicolon.token span :: cut.restTokens := by
    rw [cut.tokens_eq, segmentTokens]
    simp
  obtain ⟨firstTree, secondTree, firstTokens, secondTokens, values⟩ := ProgramTree.cut split
  have lexes := cut.lexes
  rw [segmentTokens, ← List.append_assoc, ← firstTokens] at lexes
  have lexesRest := cut.lexesRest
  rw [← secondTokens] at lexesRest
  obtain ⟨second, parsedRest, moved⟩ :=
    programEntry_follows.exists_parse_of_lexes movable_program (cut.masksRest outside) lexesRest
  have parsed : parseProgram (front ++ segment) = .ok firstTree.value :=
    (programEntry_follows.parse_eq_ok_iff_of_masks (cut.masks outside)).mpr
      ⟨firstTree, lexes.tokenizes, rfl⟩
  refine ⟨firstTree.value, second, parsed, parsedRest, ?_⟩
  rw [← cut.value_eq, values, moved]
  rfl

/-- The tokens after a cut are those of the rest alone, moved to their place. -/
theorem restTokens_eq :
    cut.restTokens = (tokensOf rest).map (Token.moved (front ++ segment).utf8ByteSize) := by
  have lexesRest := cut.lexesRest
  rw [← Nat.zero_add (front ++ segment).utf8ByteSize] at lexesRest
  obtain ⟨tokens, _, moved, lexes⟩ := lexesRest.exists_unmoved
  rw [moved, tokensOf, MaskedText.ofSource_eq_iff.mpr (cut.masksRest outside),
    TokenStream.ofChars_eq_iff.mpr lexes.tokenizes]

/-- The tokens of a line after a cut are those of the line in the rest alone, moved to their
place. -/
theorem tokensWithin_rest (before line : String) :
    tokensWithin (front ++ segment ++ rest) (front ++ segment ++ before) line =
      (tokensWithin rest before line).map (Token.moved (front ++ segment).utf8ByteSize) := by
  rw [tokensWithin, cut.tokensOf_eq, cut.restTokens_eq outside, List.filter_append,
    List.filter_eq_nil_iff.mpr, List.nil_append, List.filter_map, tokensWithin]
  · congr 2
    funext token
    simp only [Function.comp, Token.moved, Span.moved, String.utf8ByteSize_append]
    congr 2
    · grind
    · grind
  · intro token member
    have before := (cut.lexes.start_mem member).2
    simp only [String.utf8ByteSize_append, Bool.and_eq_true, decide_eq_true_eq] at before ⊢
    omega

/-- A text that goes on after a cut leaves a comment open exactly if what goes on does alone. -/
theorem unclosed_rest (more : String) :
    (MaskedText.ofSource (front ++ segment ++ more)).unclosed = none ↔
      (MaskedText.ofSource more).unclosed = none := by
  rw [MaskedText.ofSource, String.toList_append, cut.passes.scan_append, outside]
  exact MaskedText.unclosed_eq_none_iff.trans MaskedText.unclosed_eq_none_iff.symm

end Outside

end Cut

end PolyLambda.Grammar
