import PolyLambda.Proofs.Relocation
import PolyLambda.Proofs.TokenPlaces

/-!
# Programs piece by piece

A semicolon belongs to no other token and to no statement. So the semicolons of a text,
outside its comments, cut it into pieces, and the text is a program when each piece is
blank or a statement by itself.
-/

namespace PolyLambda.Grammar

open PolyLambda.Named
open PolyLambda.Source (Masks MaskedText byteLength byteLength_append)

/-! ## Semicolons in a text -/

/-- The only token with a semicolon in it is the semicolon. -/
theorem IsTokenText.eq_semicolon {text : String} (isText : IsTokenText text)
    (member : ';' ∈ text.toList) : text = ";" := by
  obtain inWord | rfl | rfl := isText.mem member
  · exact absurd inWord (by decide)
  · exact absurd member (by decide)
  · rfl

/-- The only proper lexeme with a semicolon in it is the semicolon. -/
theorem Lexeme.IsProper.eq_semicolon {lexeme : Lexeme} (proper : lexeme.IsProper)
    (member : ';' ∈ lexeme.text.toList) : lexeme = .symbol .semicolon := by
  have text := (Lexeme.isTokenText proper).eq_semicolon member
  rw [← Lexeme.ofWord_eq proper, text]
  exact Lexeme.ofWord_text .semicolon

/-- A semicolon is a token whatever follows. -/
theorem leads_semicolon (rest : List Char) : (Lexeme.symbol .semicolon).Leads rest := by
  have isSign : signOf? ';' = some .semicolon := rfl
  exact ⟨trivial, fun _ isText front => isText.length_le_sign isSign front⟩

/-- A semicolon makes no match before it longer. -/
theorem Lexeme.Leads.append_semicolon {lexeme : Lexeme} {chars : List Char}
    (leads : lexeme.Leads chars) (rest : List Char) : lexeme.Leads (chars ++ ';' :: rest) := by
  refine ⟨leads.proper, fun text isText front => ?_⟩
  obtain ⟨tail, whole⟩ := front
  rw [← List.append_assoc] at whole
  obtain ⟨back, within, -⟩ | ⟨back, split, remains⟩ := List.append_eq_append_iff.mp whole
  · exact leads.longest text isText ⟨back, within.symm⟩
  · cases back with
    | nil => exact leads.longest text isText (by simp [split])
    | cons char back =>
        cases remains
        have isSemicolon : text = ";" := by
          refine isText.eq_semicolon ?_
          rw [split]
          exact List.mem_append_right _ List.mem_cons_self
        obtain ⟨first, more, textChars, -⟩ := (Lexeme.isTokenText leads.proper).exists_first
        have size : lexeme.text.length = more.length + 1 := by
          rw [← String.length_toList, textChars, List.length_cons]
        rw [isSemicolon, size]
        exact Nat.le_add_left 1 more.length

namespace Lexes

variable {offset stop : Nat} {front rest : List Char} {tokens : List Token}

/-- A text in front of a semicolon is split as it is by itself. -/
theorem append_semicolon (lexes : Lexes offset front tokens stop []) (rest : List Char) :
    Lexes offset (front ++ ';' :: rest) tokens stop (';' :: rest) := by
  generalize ended : ([] : List Char) = final at lexes
  induction lexes with
  | done =>
      cases ended
      exact .done
  | blank isBlank _ moreIH => exact .blank isBlank (moreIH ended)
  | token leads _ moreIH =>
      rw [List.append_assoc]
      exact .token (leads.append_semicolon rest) (moreIH ended)

/-- Without a semicolon in the text, no token is one. -/
theorem noSemicolon (lexes : Lexes offset front tokens stop rest) (none : ';' ∉ front) :
    NoSemicolon tokens := by
  induction lexes with
  | done => exact .nil
  | blank _ _ moreIH => exact moreIH fun member => none (List.mem_cons_of_mem _ member)
  | @token offset stop lexeme chars rest tokens leads _ moreIH =>
      rw [List.mem_append, not_or] at none
      intro token member
      obtain rfl | later := List.mem_cons.mp member
      · rintro rfl
        exact none.1 (by decide)
      · exact moreIH none.2 token later

/-- The first semicolon of a text is a token between those before it and those after it. -/
theorem exists_semicolon (lexes : Lexes offset (front ++ ';' :: rest) tokens stop [])
    (first : ';' ∉ front) :
    ∃ before span after, tokens = before ++ Symbol.semicolon.token span :: after ∧
      Lexes offset front before (offset + byteLength front) [] ∧
      Lexes (offset + byteLength front + 1) rest after stop [] := by
  generalize whole : front ++ ';' :: rest = chars at lexes
  generalize ended : ([] : List Char) = final at lexes
  induction lexes generalizing front with
  | done =>
      rw [← ended] at whole
      simp at whole
  | @blank offset stop char chars final tokens isBlank more moreIH =>
      cases front with
      | nil =>
          cases whole
          exact absurd isBlank (by decide)
      | cons head front =>
          cases whole
          obtain ⟨before, span, after, rfl, lexesFront, lexesRest⟩ :=
            moreIH (fun member => first (List.mem_cons_of_mem _ member)) rfl ended
          rw [Nat.add_assoc offset] at lexesFront lexesRest
          exact ⟨before, span, after, rfl, .blank isBlank lexesFront, lexesRest⟩
  | @token offset stop lexeme chars final tokens leads more moreIH =>
      by_cases isSemicolon : ';' ∈ lexeme.text.toList
      · obtain rfl := leads.proper.eq_semicolon isSemicolon
        have text : (Lexeme.symbol .semicolon).text.toList = [';'] := rfl
        rw [text, List.singleton_append] at whole
        cases front with
        | nil =>
            cases whole
            cases ended
            exact ⟨[], _, tokens, rfl, .done, more⟩
        | cons head front =>
            cases whole
            exact absurd List.mem_cons_self first
      · -- The token ends before the semicolon.
        obtain ⟨back, rfl, rfl⟩ :
            ∃ back, front = lexeme.text.toList ++ back ∧ chars = back ++ ';' :: rest := by
          obtain ⟨inner, split, remains⟩ | ⟨back, split, remains⟩ :=
            List.append_eq_append_iff.mp whole
          · cases inner with
            | nil => exact ⟨[], by simpa using split.symm, remains.symm⟩
            | cons char inner =>
                cases remains
                exact absurd (by simp [split]) isSemicolon
          · exact ⟨back, split, remains⟩
        rw [List.mem_append, not_or] at first
        obtain ⟨before, span, after, rfl, lexesFront, lexesRest⟩ := moreIH first.2 rfl ended
        rw [Nat.add_assoc offset, ← Source.byteLength_toList, ← byteLength_append]
          at lexesFront lexesRest
        rw [Source.byteLength_toList] at lexesFront
        exact ⟨_, span, after, rfl, .token leads.of_append lexesFront, lexesRest⟩

end Lexes

/-! ## Pieces -/

/-- A piece of a text, and the offset of its first byte. -/
structure Piece where
  offset : Nat
  chars : List Char

namespace Piece

/-- Nothing but blanks, and so no tokens. -/
def isBlank (piece : Piece) : Bool :=
  piece.chars.all Text.isBlank

def text (piece : Piece) : String :=
  String.ofList piece.chars

/-- The statement that a piece is by itself, where it stands in the text. -/
def statement (piece : Piece) : Except SyntaxError Statement :=
  (parseStatement piece.text).map (Statement.moved piece.offset)

end Piece

/-- Consecutive pieces with one byte between them, from a given offset on. -/
def piecesFrom (offset : Nat) : List (List Char) → List Piece
  | [] => []
  | chars :: rest => ⟨offset, chars⟩ :: piecesFrom (offset + byteLength chars + 1) rest

/-- The pieces of a text between its semicolons. -/
def pieces (chars : List Char) : List Piece :=
  piecesFrom 0 (chars.splitOn ';')

/-- A text without tokens consists of blanks. -/
theorem Lexes.isBlank {offset stop : Nat} {chars : List Char}
    (lexes : Lexes offset chars [] stop []) : chars.all Text.isBlank = true := by
  generalize noTokens : ([] : List Token) = tokens at lexes
  generalize ended : ([] : List Char) = final at lexes
  induction lexes with
  | done =>
      cases ended
      rfl
  | blank isBlank _ moreIH => rw [List.all_cons, isBlank, moreIH noTokens ended, Bool.and_self]
  | token => cases noTokens

/-- Blanks are split into no tokens. -/
theorem Lexes.of_isBlank {chars : List Char} (isBlank : chars.all Text.isBlank = true)
    (offset : Nat) : Lexes offset chars [] (offset + byteLength chars) [] := by
  induction chars generalizing offset with
  | nil => exact .done
  | cons char chars charsIH =>
      rw [List.all_cons, Bool.and_eq_true] at isBlank
      have more := charsIH isBlank.2 (offset + char.utf8Size)
      rw [Nat.add_assoc] at more
      exact .blank isBlank.1 more

/-- The statements of some pieces: each piece that is not blank is one. -/
def PiecesAre (parts : List Piece) (statements : List Statement) : Prop :=
  (parts.filter fun piece => !piece.isBlank).map Piece.statement = statements.map .ok

namespace PiecesAre

variable {offset : Nat} {chars : List Char} {statements : List Statement}

/-- No pieces have no statements. -/
theorem nil_iff : PiecesAre [] statements ↔ statements = [] := by
  rw [PiecesAre, List.filter_nil, List.map_nil, eq_comm, List.map_eq_nil_iff]

/-- The statements of pieces are those of the first and those of the others. -/
theorem cons_iff {piece : Piece} {parts : List Piece} :
    PiecesAre (piece :: parts) statements ↔
      ∃ first rest,
        statements = first ++ rest ∧ PiecesAre [piece] first ∧ PiecesAre parts rest := by
  have split : (piece :: parts).filter (fun piece => !piece.isBlank) =
      [piece].filter (fun piece => !piece.isBlank) ++ parts.filter fun piece => !piece.isBlank := by
    rw [← List.filter_append, List.singleton_append]
  rw [PiecesAre, split, List.map_append, eq_comm, List.map_eq_append_iff]
  simp only [PiecesAre, eq_comm]

/-- A blank piece has no statements. -/
theorem blank_iff {piece : Piece} (isBlank : piece.isBlank = true) :
    PiecesAre [piece] statements ↔ statements = [] := by
  have none : [piece].filter (fun piece => !piece.isBlank) = [] := by simp [isBlank]
  rw [PiecesAre, none, List.map_nil, eq_comm, List.map_eq_nil_iff]

/-- A piece that is not blank has the one statement that it parses to, moved to its place. -/
theorem statement_iff {piece : Piece} (notBlank : piece.isBlank = false) :
    PiecesAre [piece] statements ↔
      ∃ statement, parseStatement piece.text = .ok statement ∧
        statements = [statement.moved piece.offset] := by
  have one : [piece].filter (fun piece => !piece.isBlank) = [piece] := by simp [notBlank]
  rw [PiecesAre, one, List.map_singleton, Piece.statement, eq_comm, List.map_eq_singleton_iff]
  cases parsed : parseStatement piece.text with
  | error => simp [Except.map]
  | ok statement =>
      simp only [Except.map, Except.ok.injEq, exists_eq_left']
      exact ⟨fun ⟨_, only, isMoved⟩ => isMoved ▸ only, fun only => ⟨_, only, rfl⟩⟩

/-- A piece is blank or a statement when it has the tokens of one, or none, where it stands. -/
theorem lexes_iff (noOpening : ¬ ['(', '*'] <:+: chars) :
    PiecesAre [⟨offset, chars⟩] statements ↔
      ∃ statement : Option StatementTree,
        Lexes offset chars (statement.elim [] StatementTree.tokens) (offset + byteLength chars) [] ∧
        (statement.map StatementTree.value).toList = statements := by
  have masks : Masks (Piece.text ⟨offset, chars⟩).toList chars := by
    rw [Piece.text, String.toList_ofList]
    exact .refl noOpening
  cases isBlank : Piece.isBlank ⟨offset, chars⟩ with
  | true =>
      rw [blank_iff isBlank]
      have noTokens := Lexes.of_isBlank isBlank offset
      constructor
      · rintro rfl
        exact ⟨none, noTokens, rfl⟩
      · rintro ⟨statement, lexes, rfl⟩
        have tokens := lexes.unique noTokens
        cases statement with
        | none => rfl
        | some tree => exact absurd tokens tree.tokens_ne_nil
  | false =>
      rw [statement_iff isBlank]
      constructor
      · rintro ⟨statement, parsed, rfl⟩
        obtain ⟨tree, lexes, value⟩ :=
          statementEntry_follows.exists_tree_of_parse movable_statement masks offset parsed
        exact ⟨some tree, lexes, congrArg (fun statement => [statement]) value⟩
      · rintro ⟨statement, lexes, rfl⟩
        cases statement with
        | none =>
            rw [Piece.isBlank, lexes.isBlank] at isBlank
            cases isBlank
        | some tree =>
            obtain ⟨statement, parsed, moved⟩ :=
              statementEntry_follows.exists_parse_of_lexes movable_statement masks lexes
            exact ⟨statement, parsed, congrArg (fun statement => [statement]) moved.symm⟩

end PiecesAre

/-- A semicolon is split off wherever it stands. -/
theorem Lexes.semicolon {offset stop : Nat} {chars : List Char} {tokens : List Token}
    (lexes : Lexes (offset + 1) chars tokens stop []) :
    Lexes offset (';' :: chars) (Symbol.semicolon.token ⟨offset, offset + 1⟩ :: tokens) stop [] :=
  .token (leads_semicolon chars) lexes

/-- A text has the tokens of a program when its pieces are blank or statements. -/
theorem exists_programTree_iff {offset : Nat} {chars : List Char} {statements : List Statement}
    (noOpening : ¬ ['(', '*'] <:+: chars) :
    (∃ tree : ProgramTree, Lexes offset chars tree.tokens (offset + byteLength chars) [] ∧
      tree.value = statements) ↔
    PiecesAre (piecesFrom offset (chars.splitOn ';')) statements := by
  -- The pieces are taken off one by one, so the induction is on the length.
  induction size : chars.length using Nat.strongRecOn generalizing offset chars statements with
  | ind count countIH =>
      by_cases cut : ';' ∈ chars
      · obtain ⟨front, rest, rfl, first⟩ := List.eq_append_cons_of_mem cut
        have shorter : rest.length < count := by
          rw [← size, List.length_append, List.length_cons]
          omega
        have restNoOpening : ¬ ['(', '*'] <:+: rest := fun opens =>
          noOpening (opens.trans ((List.suffix_cons ';' rest).trans
            (List.suffix_append front _)).isInfix)
        have frontNoOpening : ¬ ['(', '*'] <:+: front := fun opens =>
          noOpening (opens.trans (List.prefix_append front _).isInfix)
        have total : offset + byteLength (front ++ ';' :: rest) =
            offset + byteLength front + 1 + byteLength rest := by
          rw [byteLength_append, byteLength, (by decide : ';'.utf8Size = 1)]
          omega
        rw [List.splitOn_append_cons_self_of_not_mem first, piecesFrom, PiecesAre.cons_iff, total]
        simp only [PiecesAre.lexes_iff frontNoOpening,
          ← countIH rest.length shorter restNoOpening rfl]
        constructor
        · rintro ⟨tree, lexes, rfl⟩
          obtain ⟨before, span, after, tokens, lexesFront, lexesRest⟩ :=
            lexes.exists_semicolon first
          cases tree with
          | last statement =>
              have clear := NoSemicolon.option statement
              rw [show statement.elim [] StatementTree.tokens = _ from tokens] at clear
              simp at clear
          | cons statement semicolon rest =>
              obtain ⟨rfl, -, rfl⟩ :=
                NoSemicolon.cut (.option statement) (lexesFront.noSemicolon first) tokens
              exact ⟨_, _, rfl, ⟨statement, lexesFront, rfl⟩, rest, lexesRest, rfl⟩
        · rintro ⟨_, _, rfl, ⟨statement, lexesFront, rfl⟩, tree, lexesRest, rfl⟩
          exact ⟨.cons statement _ tree,
            (lexesFront.append_semicolon rest).append lexesRest.semicolon, rfl⟩
      · rw [List.splitOn_eq_singleton cut, piecesFrom, piecesFrom, PiecesAre.lexes_iff noOpening]
        constructor
        · rintro ⟨tree, lexes, rfl⟩
          cases tree with
          | last statement => exact ⟨statement, lexes, rfl⟩
          | cons statement semicolon rest =>
              have clear := lexes.noSemicolon cut
              simp [ProgramTree.tokens] at clear
        · rintro ⟨statement, lexes, rfl⟩
          exact ⟨.last statement, lexes, rfl⟩

/-! ## Programs -/

/-- Pieces have statements exactly if each one is blank or parses as a statement. -/
theorem exists_piecesAre_iff {parts : List Piece} :
    (∃ statements, PiecesAre parts statements) ↔
      ∀ piece ∈ parts, piece.isBlank = true ∨
        ∃ statement, parseStatement piece.text = .ok statement := by
  induction parts with
  | nil => simp [PiecesAre.nil_iff]
  | cons piece parts partsIH =>
      rw [List.forall_mem_cons, ← partsIH]
      constructor
      · rintro ⟨_, are⟩
        obtain ⟨first, rest, rfl, isFirst, areRest⟩ := PiecesAre.cons_iff.mp are
        refine ⟨?_, rest, areRest⟩
        cases isBlank : piece.isBlank with
        | true => exact .inl rfl
        | false =>
            obtain ⟨statement, parsed, -⟩ := (PiecesAre.statement_iff isBlank).mp isFirst
            exact .inr ⟨statement, parsed⟩
      · rintro ⟨isPiece, rest, areRest⟩
        cases isBlank : piece.isBlank with
        | true =>
            exact ⟨rest, PiecesAre.cons_iff.mpr
              ⟨[], rest, rfl, (PiecesAre.blank_iff isBlank).mpr rfl, areRest⟩⟩
        | false =>
            obtain ⟨statement, parsed⟩ := isPiece.resolve_left (by simp [isBlank])
            have arePiece := (PiecesAre.statement_iff isBlank).mpr ⟨statement, parsed, rfl⟩
            exact ⟨_, PiecesAre.cons_iff.mpr ⟨_, rest, rfl, arePiece, areRest⟩⟩

/-- A program is parsed piece by piece. A text is a program when each of its pieces
between semicolons is blank or a statement by itself, and its statements are those of the
pieces that are not blank, in their places. -/
theorem program_parsed_by_pieces {source : String}
    (closed : (MaskedText.ofSource source).unclosed = none) :
    ((∃ statements, parseProgram source = .ok statements) ↔
      ∀ piece ∈ pieces (MaskedText.ofSource source).chars, piece.isBlank = true ∨
        ∃ statement, parseStatement piece.text = .ok statement) ∧
    ∀ statements, parseProgram source = .ok statements ↔
      PiecesAre (pieces (MaskedText.ofSource source).chars) statements := by
  have masks := MaskedText.masks_of_closed closed
  have parsed : ∀ statements, parseProgram source = .ok statements ↔
      PiecesAre (pieces (MaskedText.ofSource source).chars) statements := by
    intro statements
    rw [parseProgram, programEntry_follows.parse_eq_ok_iff closed, pieces,
      ← exists_programTree_iff masks.noOpening, Nat.zero_add]
    rfl
  refine ⟨?_, parsed⟩
  rw [← exists_piecesAre_iff]
  exact exists_congr parsed

/-- Two statements with a blank piece between them, in which a comment hides a semicolon. -/
def separated : String :=
  "Variable A; (* ; *) ; Axiom a: A"

/-- A program of three pieces, the second of them blank, is parsed piece by piece. -/
theorem program_parsed_by_pieces_separated :
    (MaskedText.ofSource separated).unclosed = none ∧
    (pieces (MaskedText.ofSource separated).chars).map Piece.offset = [0, 11, 21] ∧
    ∃ statements, parseProgram separated = .ok statements ∧
      PiecesAre (pieces (MaskedText.ofSource separated).chars) statements := by
  have closed : (MaskedText.ofSource separated).unclosed = none := by decide +kernel
  have accepted : (parseProgram separated).isOk = true := by decide +kernel
  refine ⟨closed, by decide +kernel, ?_⟩
  cases parsed : parseProgram separated with
  | error => simp [parsed, Except.isOk, Except.toBool] at accepted
  | ok statements =>
      exact ⟨statements, rfl, ((program_parsed_by_pieces closed).2 statements).mp parsed⟩

end PolyLambda.Grammar
