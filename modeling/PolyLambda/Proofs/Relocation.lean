import PolyLambda.Proofs.CommentMasking
import PolyLambda.Proofs.Terminals

/-!
# The same syntax in another place

A text that is part of a larger one has the tokens there that it has by itself, with all
spans moved. Syntax trees and what they denote move along with their tokens, so what a part
of a text is parsed to is known from the derivation of the whole.
-/

namespace PolyLambda

/-! ## Moving spans -/

/-- The span after a text of `distance` bytes has been put in front. -/
def Span.moved (distance : Nat) (span : Span) : Span :=
  ⟨span.start + distance, span.stop + distance⟩

namespace Named

def Ident.moved (distance : Nat) (ident : Ident) : Ident :=
  ⟨ident.span.moved distance, ident.name⟩

def Ty.moved (distance : Nat) : Ty → Ty
  | var span name => var (span.moved distance) name
  | arrow span domain codomain =>
    arrow (span.moved distance) (domain.moved distance) (codomain.moved distance)
  | all span param body => all (span.moved distance) (param.moved distance) (body.moved distance)

def Term.moved (distance : Nat) : Term → Term
  | var span name => var (span.moved distance) name
  | lam span param paramType body =>
    lam (span.moved distance) (param.moved distance) (paramType.moved distance)
      (body.moved distance)
  | app span function argument =>
    app (span.moved distance) (function.moved distance) (argument.moved distance)
  | tyLam span param body =>
    tyLam (span.moved distance) (param.moved distance) (body.moved distance)
  | tyApp span function argument =>
    tyApp (span.moved distance) (function.moved distance) (argument.moved distance)

def Command.moved (distance : Nat) : Command → Command
  | assumeType name => assumeType (name.moved distance)
  | assumeTerm name ty => assumeTerm (name.moved distance) (ty.moved distance)
  | define name expected term =>
    define (name.moved distance) (expected.map (Ty.moved distance)) (term.moved distance)
  | reduce term => reduce (term.moved distance)
  | print name => print (name.moved distance)
  | clear => clear

def Statement.moved (distance : Nat) (statement : Statement) : Statement :=
  ⟨statement.span.moved distance, statement.command.moved distance⟩

/-- Nested quantifiers move with each binder and the body. -/
theorem Ty.allMany_moved (distance : Nat) (span : Span) (params : List Ident) (body : Ty) :
    (Ty.allMany span params body).moved distance =
      Ty.allMany (span.moved distance) (params.map (Ident.moved distance))
        (body.moved distance) := by
  induction params with
  | nil => rfl
  | cons param params paramsIH => exact congrArg (Ty.all _ _) paramsIH

/-- Nested functions move with each parameter and the body. -/
theorem Term.lamMany_moved (distance : Nat) (span : Span) (params : List (Ident × Ty))
    (body : Term) :
    (Term.lamMany span params body).moved distance =
      Term.lamMany (span.moved distance)
        (params.map fun (param, paramType) => (param.moved distance, paramType.moved distance))
        (body.moved distance) := by
  induction params with
  | nil => rfl
  | cons param params paramsIH => exact congrArg (Term.lam _ _ _) paramsIH

/-- Nested polymorphic functions move with each binder and the body. -/
theorem Term.tyLamMany_moved (distance : Nat) (span : Span) (params : List Ident) (body : Term) :
    (Term.tyLamMany span params body).moved distance =
      Term.tyLamMany (span.moved distance) (params.map (Ident.moved distance))
        (body.moved distance) := by
  induction params with
  | nil => rfl
  | cons param params paramsIH => exact congrArg (Term.tyLam _ _) paramsIH

end Named

namespace Grammar

open PolyLambda.Named
open PolyLambda.Source (Masks MaskedText byteLength)

def Token.moved (distance : Nat) (token : Token) : Token :=
  ⟨token.lexeme, token.span.moved distance⟩

def Phrase.moved {α : Type} (move : α → α) (distance : Nat) (phrase : Phrase α) : Phrase α :=
  ⟨move phrase.value, phrase.extent.moved distance⟩

/-! ## Moving syntax trees -/

namespace CommaList

variable {α : Type}

/-- A list whose items and commas have been moved. -/
def moved (distance : Nat) (move : α → α) : CommaList α → CommaList α
  | single item => single (move item)
  | cons item comma rest => cons (move item) (comma.moved distance) (rest.moved distance move)

/-- The items of a moved list are the items of the list, moved. -/
theorem items_moved (distance : Nat) (move : α → α) (list : CommaList α) :
    (list.moved distance move).items = list.items.map move := by
  induction list with
  | single => rfl
  | cons item comma rest restIH => exact congrArg (List.cons _) restIH

/-- The tokens of a moved list are the tokens of the list, moved. -/
theorem tokens_moved {distance : Nat} {move : α → α} (itemTokens : α → List Token)
    (items : ∀ item, itemTokens (move item) = (itemTokens item).map (Token.moved distance))
    (list : CommaList α) :
    (list.moved distance move).tokens itemTokens =
      (list.tokens itemTokens).map (Token.moved distance) := by
  induction list with
  | single item => exact items item
  | cons item comma rest restIH =>
      simp only [moved, tokens, items, restIH, List.map_append, List.map_singleton]
      rfl

/-- The tokens of moved binders are the tokens of the binders, moved. -/
theorem identTokens_moved (distance : Nat) (params : CommaList Ident) :
    (params.moved distance (Ident.moved distance)).tokens (fun param => [param.token]) =
      (params.tokens fun param => [param.token]).map (Token.moved distance) :=
  params.tokens_moved (fun param => [param.token]) fun _ => rfl

end CommaList

namespace TypeTree

def moved (distance : Nat) {level : TypeLevel} : TypeTree level → TypeTree level
  | .quantifier spelling keyword params dot body =>
    .quantifier spelling (keyword.moved distance) (params.moved distance (Ident.moved distance))
      (dot.moved distance) (body.moved distance)
  | .arrow domain spelling sign codomain =>
    .arrow (domain.moved distance) spelling (sign.moved distance) (codomain.moved distance)
  | .atom inner => .atom (inner.moved distance)
  | .name ident => .name (ident.moved distance)
  | .group openParen inner closeParen =>
    .group (openParen.moved distance) (inner.moved distance) (closeParen.moved distance)

/-- The tokens of a moved type are the tokens of the type, moved. -/
theorem tokens_moved (distance : Nat) {level : TypeLevel} (tree : TypeTree level) :
    (tree.moved distance).tokens = tree.tokens.map (Token.moved distance) := by
  induction tree with
  | quantifier spelling keyword params dot body bodyIH =>
      simp only [moved, tokens, params.identTokens_moved, bodyIH, List.map_cons, List.map_append,
        List.map_nil]
      rfl
  | arrow domain spelling sign codomain domainIH codomainIH =>
      simp only [moved, tokens, domainIH, codomainIH, List.map_cons, List.map_append]
      rfl
  | atom inner innerIH => exact innerIH
  | name ident => rfl
  | group openParen inner closeParen innerIH =>
      simp only [moved, tokens, innerIH, List.map_cons, List.map_append, List.map_nil]
      rfl

/-- The phrase of a moved type is the phrase of the type, moved. -/
theorem phrase_moved (distance : Nat) {level : TypeLevel} (tree : TypeTree level) :
    (tree.moved distance).phrase = tree.phrase.moved (Ty.moved distance) distance := by
  induction tree with
  | quantifier spelling keyword params dot body bodyIH =>
      simp only [moved, phrase, bodyIH, params.items_moved, Phrase.moved, Ty.allMany_moved]
      rfl
  | arrow domain spelling sign codomain domainIH codomainIH =>
      simp only [moved, phrase, domainIH, codomainIH, Phrase.moved, Ty.moved]
      rfl
  | atom inner innerIH => exact innerIH
  | name ident => rfl
  | group openParen inner closeParen innerIH =>
      simp only [moved, phrase, innerIH, Phrase.moved]
      rfl

end TypeTree

namespace ParamTree

def moved (distance : Nat) (param : ParamTree) : ParamTree :=
  ⟨param.ident.moved distance, param.colon.moved distance, param.type.moved distance⟩

/-- The tokens of a moved parameter are the tokens of the parameter, moved. -/
theorem tokens_moved (distance : Nat) (param : ParamTree) :
    (param.moved distance).tokens = param.tokens.map (Token.moved distance) := by
  simp only [moved, tokens, TypeTree.tokens_moved, List.map_cons]
  rfl

/-- The value of a moved parameter is the value of the parameter, moved. -/
theorem value_moved (distance : Nat) (param : ParamTree) :
    (param.moved distance).value =
      (param.value.1.moved distance, param.value.2.moved distance) := by
  simp only [moved, value, TypeTree.phrase_moved, Phrase.moved]

end ParamTree

namespace TermTree

def moved (distance : Nat) {level : TermLevel} : TermTree level → TermTree level
  | .lam spelling keyword params dot body =>
    .lam spelling (keyword.moved distance) (params.moved distance (ParamTree.moved distance))
      (dot.moved distance) (body.moved distance)
  | .tyLam spelling keyword params dot body =>
    .tyLam spelling (keyword.moved distance) (params.moved distance (Ident.moved distance))
      (dot.moved distance) (body.moved distance)
  | .application inner => .application (inner.moved distance)
  | .app function argument => .app (function.moved distance) (argument.moved distance)
  | .tyApp function openBracket argument closeBracket =>
    .tyApp (function.moved distance) (openBracket.moved distance) (argument.moved distance)
      (closeBracket.moved distance)
  | .atom inner => .atom (inner.moved distance)
  | .name ident => .name (ident.moved distance)
  | .group openParen inner closeParen =>
    .group (openParen.moved distance) (inner.moved distance) (closeParen.moved distance)

/-- The tokens of a moved term are the tokens of the term, moved. -/
theorem tokens_moved (distance : Nat) {level : TermLevel} (tree : TermTree level) :
    (tree.moved distance).tokens = tree.tokens.map (Token.moved distance) := by
  induction tree with
  | lam spelling keyword params dot body bodyIH =>
      have paramTokens := params.tokens_moved ParamTree.tokens (ParamTree.tokens_moved distance)
      simp only [moved, tokens, paramTokens, bodyIH, List.map_cons, List.map_append, List.map_nil]
      rfl
  | tyLam spelling keyword params dot body bodyIH =>
      simp only [moved, tokens, params.identTokens_moved, bodyIH, List.map_cons, List.map_append,
        List.map_nil]
      rfl
  | application inner innerIH => exact innerIH
  | app function argument functionIH argumentIH =>
      simp only [moved, tokens, functionIH, argumentIH, List.map_append]
  | tyApp function openBracket argument closeBracket functionIH =>
      simp only [moved, tokens, functionIH, TypeTree.tokens_moved, List.map_cons, List.map_append,
        List.map_nil]
      rfl
  | atom inner innerIH => exact innerIH
  | name ident => rfl
  | group openParen inner closeParen innerIH =>
      simp only [moved, tokens, innerIH, List.map_cons, List.map_append, List.map_nil]
      rfl

/-- The phrase of a moved term is the phrase of the term, moved. -/
theorem phrase_moved (distance : Nat) {level : TermLevel} (tree : TermTree level) :
    (tree.moved distance).phrase = tree.phrase.moved (Term.moved distance) distance := by
  induction tree with
  | lam spelling keyword params dot body bodyIH =>
      have values : (params.items.map (ParamTree.moved distance)).map ParamTree.value =
          (params.items.map ParamTree.value).map fun (param, paramType) =>
            (param.moved distance, paramType.moved distance) := by
        simp [ParamTree.value_moved]
      simp only [moved, phrase, bodyIH, params.items_moved, values, Phrase.moved,
        Term.lamMany_moved]
      rfl
  | tyLam spelling keyword params dot body bodyIH =>
      simp only [moved, phrase, bodyIH, params.items_moved, Phrase.moved, Term.tyLamMany_moved]
      rfl
  | application inner innerIH => exact innerIH
  | app function argument functionIH argumentIH =>
      simp only [moved, phrase, functionIH, argumentIH, Phrase.moved, Term.moved]
      rfl
  | tyApp function openBracket argument closeBracket functionIH =>
      simp only [moved, phrase, functionIH, TypeTree.phrase_moved, Phrase.moved, Term.moved]
      rfl
  | atom inner innerIH => exact innerIH
  | name ident => rfl
  | group openParen inner closeParen innerIH =>
      simp only [moved, phrase, innerIH, Phrase.moved]
      rfl

end TermTree

namespace StatementTree

def moved (distance : Nat) : StatementTree → StatementTree
  | assumeType keyword name => assumeType (keyword.moved distance) (name.moved distance)
  | assumeTerm word keyword name colon type =>
    assumeTerm word (keyword.moved distance) (name.moved distance) (colon.moved distance)
      (type.moved distance)
  | announce word keyword name colon type equals term =>
    announce word (keyword.moved distance) (name.moved distance) (colon.moved distance)
      (type.moved distance) (equals.moved distance) (term.moved distance)
  | define keyword name equals term =>
    define (keyword.moved distance) (name.moved distance) (equals.moved distance)
      (term.moved distance)
  | reduce keyword term => reduce (keyword.moved distance) (term.moved distance)
  | print keyword name => print (keyword.moved distance) (name.moved distance)
  | clear keyword => clear (keyword.moved distance)

/-- The tokens of a moved statement are the tokens of the statement, moved. -/
theorem tokens_moved (distance : Nat) (tree : StatementTree) :
    (tree.moved distance).tokens = tree.tokens.map (Token.moved distance) := by
  cases tree with
  | assumeType | print | clear => rfl
  | assumeTerm | announce | define | reduce =>
      simp only [moved, tokens, TypeTree.tokens_moved, TermTree.tokens_moved, List.map_cons,
        List.map_append]
      rfl

/-- The value of a moved statement is the value of the statement, moved. -/
theorem value_moved (distance : Nat) (tree : StatementTree) :
    (tree.moved distance).value = tree.value.moved distance := by
  cases tree with
  | assumeType | print | clear => rfl
  | assumeTerm | announce | define | reduce =>
      simp only [moved, value, TypeTree.phrase_moved, TermTree.phrase_moved, Phrase.moved]
      rfl

end StatementTree

/-! ## Moving texts -/

namespace Lexes

variable {offset stop : Nat} {chars rest : List Char} {tokens : List Token}

/-- A text that begins further on is split into the same tokens, moved. -/
theorem moved (lexes : Lexes offset chars tokens stop rest) (distance : Nat) :
    Lexes (offset + distance) chars (tokens.map (Token.moved distance)) (stop + distance) rest := by
  induction lexes with
  | done => exact .done
  | blank isBlank _ moreIH =>
      refine .blank isBlank ?_
      rwa [Nat.add_right_comm] at moreIH
  | token leads _ moreIH =>
      rw [List.map_cons, Token.moved, Span.moved, Nat.add_right_comm]
      refine .token leads ?_
      rwa [Nat.add_right_comm] at moreIH

/-- A text that begins further on has the tokens that it has at the beginning, moved. -/
theorem exists_unmoved {distance : Nat} (lexes : Lexes (offset + distance) chars tokens stop rest) :
    ∃ tokens' stop', tokens = tokens'.map (Token.moved distance) ∧
      Lexes offset chars tokens' stop' rest := by
  generalize start : offset + distance = offset' at lexes
  induction lexes generalizing offset with
  | done => exact ⟨[], offset, rfl, .done⟩
  | @blank offset' _ char _ _ _ isBlank _ moreIH =>
      have started : offset + char.utf8Size + distance = offset' + char.utf8Size := by
        rw [← start, Nat.add_right_comm]
      obtain ⟨tokens', stop', rfl, more⟩ := moreIH started
      exact ⟨tokens', stop', rfl, .blank isBlank more⟩
  | @token offset' _ lexeme _ _ _ leads _ moreIH =>
      have started : offset + lexeme.text.utf8ByteSize + distance =
          offset' + lexeme.text.utf8ByteSize := by
        rw [← start, Nat.add_right_comm]
      obtain ⟨tokens', stop', rfl, more⟩ := moreIH started
      refine ⟨⟨lexeme, ⟨offset, offset + lexeme.text.utf8ByteSize⟩⟩ :: tokens', stop', ?_,
        .token leads more⟩
      rw [List.map_cons, Token.moved, Span.moved, started, start]

end Lexes

/-! ## Parsing a part of a text -/

/-- The derivations of a nonterminal can be moved, and what they denote moves along. -/
structure Nonterminal.Movable {α : Type} (nonterminal : Nonterminal α) (move : Nat → α → α) :
    Prop where
  seesTerminals : ∀ tree, SeesTerminals nonterminal.tokens tree
  exists_moved : ∀ distance tree, ∃ other,
    nonterminal.tokens other = (nonterminal.tokens tree).map (Token.moved distance) ∧
      nonterminal.value other = move distance (nonterminal.value tree)

/-- A type can be moved in the text. -/
theorem movable_type : Nonterminal.type.Movable Ty.moved where
  seesTerminals := TypeTree.seesTerminals
  exists_moved distance tree := by
    have phraseMoved := TypeTree.phrase_moved distance tree
    exact ⟨tree.moved distance, tree.tokens_moved distance, congrArg Phrase.value phraseMoved⟩

/-- A term can be moved in the text. -/
theorem movable_term : Nonterminal.term.Movable Term.moved where
  seesTerminals := TermTree.seesTerminals
  exists_moved distance tree := by
    have phraseMoved := TermTree.phrase_moved distance tree
    exact ⟨tree.moved distance, tree.tokens_moved distance, congrArg Phrase.value phraseMoved⟩

/-- A statement can be moved in the text. -/
theorem movable_statement : Nonterminal.statement.Movable Statement.moved where
  seesTerminals := StatementTree.seesTerminals
  exists_moved distance tree :=
    ⟨tree.moved distance, tree.tokens_moved distance, tree.value_moved distance⟩

namespace EntryPoint.Follows

variable {ρ α : Type} {entry : EntryPoint ρ α} {nonterminal : Nonterminal α} {move : Nat → α → α}
  {part : String} {masked : List Char}

/-- A text parses to a value exactly if its masked text is written with the tokens of a tree
of this value. -/
theorem parse_eq_ok_iff_of_masks (follows : entry.Follows nonterminal)
    (masks : Masks part.toList masked) {value : α} :
    entry.parse part = .ok value ↔
      ∃ tree, Tokenizes masked (nonterminal.tokens tree) ∧ nonterminal.value tree = value := by
  have isMasked := MaskedText.ofSource_eq_iff.mpr masks
  have closed : (MaskedText.ofSource part).unclosed = none := by rw [isMasked]
  rw [follows.parse_eq_ok_iff closed, isMasked]

/-- A part of a text that has the tokens of a derivation, where it stands, is parsed by
itself to what the derivation denotes, up to its place. -/
theorem exists_parse_of_lexes (follows : entry.Follows nonterminal)
    (movable : nonterminal.Movable move) (masks : Masks part.toList masked) {start stop : Nat}
    {tree : nonterminal.Tree} (lexes : Lexes start masked (nonterminal.tokens tree) stop []) :
    ∃ value, entry.parse part = .ok value ∧ move start value = nonterminal.value tree := by
  rw [← Nat.zero_add start] at lexes
  obtain ⟨tokens, stop, moved, lexesPart⟩ := lexes.exists_unmoved
  -- The tokens of the part have a tree of their own, which is the given one once it is moved,
  -- since no other tree has the same tokens.
  have sameTerminals : tokens.map Token.terminal =
      (nonterminal.tokens tree).map Token.terminal := by
    rw [moved, List.map_map]
    rfl
  obtain ⟨other, rfl⟩ := movable.seesTerminals tree tokens sameTerminals
  obtain ⟨movedOther, movedTokens, movedValue⟩ := movable.exists_moved start other
  cases follows.unambiguous (movedTokens.trans moved.symm)
  exact ⟨nonterminal.value other,
    (follows.parse_eq_ok_iff_of_masks masks).mpr ⟨other, lexesPart.tokenizes, rfl⟩,
    movedValue.symm⟩

/-- What a part of a text is parsed to by itself is denoted by a derivation of its tokens,
where it stands. -/
theorem exists_tree_of_parse (follows : entry.Follows nonterminal)
    (movable : nonterminal.Movable move) (masks : Masks part.toList masked) (start : Nat)
    {value : α} (parsed : entry.parse part = .ok value) :
    ∃ tree, Lexes start masked (nonterminal.tokens tree) (start + byteLength masked) [] ∧
      nonterminal.value tree = move start value := by
  obtain ⟨tree, tokenizes, rfl⟩ := (follows.parse_eq_ok_iff_of_masks masks).mp parsed
  obtain ⟨movedTree, movedTokens, movedValue⟩ := movable.exists_moved start tree
  refine ⟨movedTree, ?_, movedValue⟩
  have lexes := Lexes.moved tokenizes start
  rwa [Nat.zero_add, Nat.add_comm (byteLength masked), ← movedTokens] at lexes

end EntryPoint.Follows

end Grammar

end PolyLambda
