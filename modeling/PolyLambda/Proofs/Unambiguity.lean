import PolyLambda.Proofs.SyntaxTrees

/-!
# The grammar is unambiguous

Tokens have at most one syntax tree. A tree inside a larger one is followed by other
tokens, so what is shown is that a tree and what follows it are determined by the tokens
of both, as long as what follows does not extend the tree: no arrow stands after a type,
and no argument after a term.
-/

namespace PolyLambda.Grammar

open PolyLambda.Named

/-! ## Trees in front of other tokens -/

/-- A tree and what follows it are determined by the tokens of both, where `ends` holds of
what follows. -/
def Determined {α : Type} (tokensOf : α → List Token) (ends : List Token → Prop) (tree : α) :
    Prop :=
  ∀ ⦃other rest rest'⦄, ends rest → ends rest' → tokensOf tree ++ rest = tokensOf other ++ rest' →
    tree = other ∧ rest = rest'

/-- No arrow stands at the beginning. -/
def EndsType (rest : List Token) : Prop :=
  ∀ token ∈ rest.head?, token.lexeme.isArrow = false

/-- The lexemes that an argument begins with. -/
def Lexeme.beginsArgument : Lexeme → Bool
  | .name _ | .symbol .openParen | .symbol .openBracket => true
  | _ => false

/-- No argument stands at the beginning. -/
def EndsTerm (rest : List Token) : Prop :=
  ∀ token ∈ rest.head?, token.lexeme.beginsArgument = false

/-- A type ends in front of a token that is no arrow. -/
theorem endsType_cons {token : Token} (noArrow : token.lexeme.isArrow = false)
    (rest : List Token) : EndsType (token :: rest) := by
  simpa [EndsType] using noArrow

/-- A type ends at the end of the text. -/
theorem endsType_nil : EndsType [] := by
  simp [EndsType]

/-- A term ends in front of a token that begins no argument. -/
theorem endsTerm_cons {token : Token} (noArgument : token.lexeme.beginsArgument = false)
    (rest : List Token) : EndsTerm (token :: rest) := by
  simpa [EndsTerm] using noArgument

/-- A term ends at the end of the text. -/
theorem endsTerm_nil : EndsTerm [] := by
  simp [EndsTerm]

@[simp]
theorem Symbol.token_inj {fixed fixed' : Symbol} {span span' : Span} :
    fixed.token span = fixed'.token span' ↔ fixed = fixed' ∧ span = span' := by
  simp [Symbol.token]

@[simp]
theorem ident_token_inj {ident ident' : Ident} : ident.token = ident'.token ↔ ident = ident' := by
  obtain ⟨span, name⟩ := ident
  obtain ⟨span', name'⟩ := ident'
  simp [Ident.token, and_comm]

@[simp]
theorem ident_token_ne_symbol_token {ident : Ident} {fixed : Symbol} {span : Span} :
    ident.token ≠ fixed.token span := by
  simp [Ident.token, Symbol.token]

namespace Spelling

variable {spelling spelling' : Spelling}

@[simp]
theorem quantifier_inj : spelling.quantifier = spelling'.quantifier ↔ spelling = spelling' := by
  cases spelling <;> cases spelling' <;> decide

@[simp]
theorem arrow_inj : spelling.arrow = spelling'.arrow ↔ spelling = spelling' := by
  cases spelling <;> cases spelling' <;> decide

@[simp]
theorem lambda_inj : spelling.lambda = spelling'.lambda ↔ spelling = spelling' := by
  cases spelling <;> cases spelling' <;> decide

@[simp]
theorem bigLambda_inj : spelling.bigLambda = spelling'.bigLambda ↔ spelling = spelling' := by
  cases spelling <;> cases spelling' <;> decide

end Spelling

/-! ## Lists with commas -/

/-- A list and what follows the token that ends it are determined. -/
theorem CommaList.determined {α : Type} {itemTokens : α → List Token} {ends : List Token → Prop}
    {stop : Symbol} (noComma : stop ≠ .comma)
    (endsComma : ∀ span rest, ends (Symbol.comma.token span :: rest))
    (endsStop : ∀ span rest, ends (stop.token span :: rest)) {list : CommaList α}
    (items : ∀ item, Determined itemTokens ends item) {other : CommaList α} {span span' : Span}
    {rest rest' : List Token}
    (same : list.tokens itemTokens ++ stop.token span :: rest =
      other.tokens itemTokens ++ stop.token span' :: rest') :
    list = other ∧ span = span' ∧ rest = rest' := by
  induction list generalizing other with
  | single item =>
      cases other with
      | single item' =>
          obtain ⟨rfl, sameRest⟩ := items item (endsStop _ _) (endsStop _ _) same
          simpa using sameRest
      | cons item' comma' others =>
          rw [CommaList.tokens, CommaList.tokens, List.append_assoc, List.append_assoc] at same
          obtain ⟨-, sameRest⟩ := items item (endsStop _ _) (endsComma _ _) same
          simp [noComma] at sameRest
  | cons item comma list listIH =>
      cases other with
      | single item' =>
          rw [CommaList.tokens, CommaList.tokens, List.append_assoc, List.append_assoc] at same
          obtain ⟨-, sameRest⟩ := items item (endsComma _ _) (endsStop _ _) same
          simp [noComma.symm] at sameRest
      | cons item' comma' others =>
          rw [CommaList.tokens, CommaList.tokens, List.append_assoc, List.append_assoc,
            List.append_assoc, List.append_assoc] at same
          obtain ⟨rfl, sameRest⟩ := items item (endsComma _ _) (endsComma _ _) same
          obtain ⟨rfl, sameLists⟩ : comma = comma' ∧ list.tokens itemTokens ++ _ = _ := by
            simpa using sameRest
          obtain ⟨rfl, restSame⟩ := listIH sameLists
          exact ⟨rfl, restSame⟩

/-- A name is determined by its token, whatever follows. -/
theorem determined_ident (ident : Ident) :
    Determined (fun param : Ident => [param.token]) (fun _ => True) ident := by
  intro other rest rest' _ _ same
  simpa using same

/-! ## Types -/

namespace TypeTree

/-- No quantifier begins an atom. -/
theorem quantifier_ne_atom (spelling : Spelling) (span : Span) (inner : TypeTree .atom)
    (rest rest' : List Token) :
    spelling.quantifier.token span :: rest ≠ inner.tokens ++ rest' := by
  cases inner <;> cases spelling <;>
    simp [TypeTree.tokens, Symbol.token, Ident.token, Spelling.quantifier]

/-- A type goes on in front of an arrow. -/
theorem not_endsType_arrow (spelling : Spelling) (sign : Span) (rest : List Token) :
    ¬ EndsType (spelling.arrow.token sign :: rest) := by
  cases spelling <;> simp [EndsType, Spelling.arrow, Symbol.token, Lexeme.isArrow]

/-- What has to follow a tree for it to be determined. Atoms are determined anywhere. -/
def Ends : TypeLevel → List Token → Prop
  | .type => EndsType
  | .atom => fun _ => True

/-- A type is determined by its tokens where no more of it can follow. -/
theorem determined {level : TypeLevel} (tree : TypeTree level) :
    Determined TypeTree.tokens (Ends level) tree := by
  induction tree with
  | quantifier spelling keyword params dot body bodyIH =>
      intro other rest rest' ends ends' same
      cases other with
      | quantifier spelling' keyword' params' dot' body' =>
          simp only [TypeTree.tokens, List.cons_append, List.append_assoc, List.nil_append,
            List.cons.injEq, Symbol.token_inj, Spelling.quantifier_inj] at same
          obtain ⟨⟨rfl, rfl⟩, fromParams⟩ := same
          obtain ⟨rfl, rfl, fromBody⟩ := CommaList.determined (by decide) (fun _ _ => trivial)
            (fun _ _ => trivial) determined_ident fromParams
          obtain ⟨rfl, sameRest⟩ := bodyIH ends ends' fromBody
          exact ⟨rfl, sameRest⟩
      | arrow domain spelling' sign codomain =>
          simp only [TypeTree.tokens, List.cons_append, List.append_assoc] at same
          exact absurd same (quantifier_ne_atom spelling keyword domain _ _)
      | atom inner => exact absurd same (quantifier_ne_atom spelling keyword inner _ _)
  | arrow domain spelling sign codomain domainIH codomainIH =>
      intro other rest rest' ends ends' same
      rw [TypeTree.tokens, List.append_assoc] at same
      cases other with
      | quantifier spelling' keyword params dot body =>
          exact absurd same.symm (quantifier_ne_atom spelling' keyword domain _ _)
      | arrow domain' spelling' sign' codomain' =>
          rw [TypeTree.tokens, List.append_assoc] at same
          obtain ⟨rfl, fromArrow⟩ := domainIH trivial trivial same
          simp only [List.cons_append, List.cons.injEq, Symbol.token_inj,
            Spelling.arrow_inj] at fromArrow
          obtain ⟨⟨rfl, rfl⟩, fromCodomain⟩ := fromArrow
          obtain ⟨rfl, sameRest⟩ := codomainIH ends ends' fromCodomain
          exact ⟨rfl, sameRest⟩
      | atom inner =>
          obtain ⟨-, fromArrow⟩ := domainIH trivial trivial same
          exact absurd (fromArrow ▸ ends') (not_endsType_arrow spelling sign _)
  | atom inner innerIH =>
      intro other rest rest' ends ends' same
      cases other with
      | quantifier spelling keyword params dot body =>
          exact absurd same.symm (quantifier_ne_atom spelling keyword inner _ _)
      | arrow domain spelling sign codomain =>
          rw [TypeTree.tokens, TypeTree.tokens, List.append_assoc] at same
          obtain ⟨-, fromArrow⟩ := innerIH trivial trivial same
          exact absurd (fromArrow ▸ ends) (not_endsType_arrow spelling sign _)
      | atom inner' =>
          obtain ⟨rfl, sameRest⟩ := innerIH trivial trivial same
          exact ⟨rfl, sameRest⟩
  | name ident =>
      intro other rest rest' _ _ same
      cases other with
      | name ident' => simpa [TypeTree.tokens] using same
      | group openParen inner closeParen => simp [TypeTree.tokens] at same
  | group openParen inner closeParen innerIH =>
      intro other rest rest' _ _ same
      cases other with
      | name ident => exact absurd same.symm (by simp [TypeTree.tokens])
      | group openParen' inner' closeParen' =>
          simp only [TypeTree.tokens, List.cons_append, List.append_assoc, List.nil_append,
            List.cons.injEq, Symbol.token_inj, true_and] at same
          obtain ⟨rfl, fromInner⟩ := same
          obtain ⟨rfl, fromClose⟩ := innerIH (endsType_cons rfl _) (endsType_cons rfl _) fromInner
          simpa using fromClose

/-- Different types are written with different tokens. -/
theorem tokens_injective : Function.Injective (@TypeTree.tokens .type) := by
  intro left right same
  exact (left.determined endsType_nil endsType_nil (congrArg (· ++ []) same)).1

end TypeTree

/-! ## Terms -/

/-- A parameter is determined by its tokens where its type ends. -/
theorem ParamTree.determined (param : ParamTree) :
    Determined ParamTree.tokens EndsType param := by
  intro other rest rest' ends ends' same
  obtain ⟨ident, colon, type⟩ := param
  obtain ⟨ident', colon', type'⟩ := other
  simp only [ParamTree.tokens, List.cons_append, List.cons.injEq, ident_token_inj,
    Symbol.token_inj, true_and] at same
  obtain ⟨rfl, rfl, fromType⟩ := same
  obtain ⟨rfl, sameRest⟩ := type.determined ends ends' fromType
  exact ⟨rfl, sameRest⟩

/-- What a function is applied to. -/
inductive ArgumentTree
  | term (inner : TermTree .atom)
  | type (openBracket : Span) (inner : TypeTree .type) (closeBracket : Span)

namespace ArgumentTree

def tokens : ArgumentTree → List Token
  | term inner => inner.tokens
  | type openBracket inner closeBracket =>
    Symbol.openBracket.token openBracket ::
      (inner.tokens ++ [Symbol.closeBracket.token closeBracket])

/-- An argument begins with a token that can only begin an argument. -/
theorem exists_first (argument : ArgumentTree) :
    ∃ first more, argument.tokens = first :: more ∧ first.lexeme.beginsArgument = true := by
  cases argument with
  | term inner =>
      cases inner with
      | name ident => exact ⟨_, _, rfl, rfl⟩
      | group openParen inner closeParen => exact ⟨_, _, rfl, rfl⟩
  | type openBracket inner closeBracket => exact ⟨_, _, rfl, rfl⟩

/-- A term goes on in front of an argument. -/
theorem not_endsTerm (argument : ArgumentTree) (rest : List Token) :
    ¬ EndsTerm (argument.tokens ++ rest) := by
  obtain ⟨first, more, tokens, begins⟩ := argument.exists_first
  simp [tokens, EndsTerm, begins]

/-- Arguments in a row and what follows them are determined. -/
theorem determined_list {arguments : List ArgumentTree}
    (each : ∀ argument ∈ arguments, Determined tokens (fun _ => True) argument) :
    Determined (·.flatMap tokens) EndsTerm arguments := by
  induction arguments with
  | nil =>
      intro others rest rest' ends _ same
      cases others with
      | nil => exact ⟨rfl, same⟩
      | cons argument others =>
          have sameTokens : rest = argument.tokens ++ (others.flatMap tokens ++ rest') := by
            simpa using same
          exact absurd (sameTokens ▸ ends) (argument.not_endsTerm _)
  | cons argument arguments argumentsIH =>
      rw [List.forall_mem_cons] at each
      intro others rest rest' ends ends' same
      simp only [List.flatMap_cons, List.append_assoc] at same
      cases others with
      | nil =>
          have sameTokens : argument.tokens ++ (arguments.flatMap tokens ++ rest) = rest' := same
          exact absurd (sameTokens ▸ ends') (argument.not_endsTerm _)
      | cons argument' others =>
          simp only [List.flatMap_cons, List.append_assoc] at same
          obtain ⟨rfl, fromOthers⟩ := each.1 trivial trivial same
          obtain ⟨rfl, sameRest⟩ := argumentsIH each.2 ends ends' fromOthers
          exact ⟨rfl, sameRest⟩

/-- An argument is determined if the atom in it is. -/
theorem determined_term {inner : TermTree .atom}
    (innerDetermined : Determined TermTree.tokens (fun _ => True) inner) :
    Determined tokens (fun _ => True) (term inner) := by
  intro other rest rest' _ _ same
  cases other with
  | term inner' =>
      obtain ⟨rfl, sameRest⟩ := innerDetermined trivial trivial same
      exact ⟨rfl, sameRest⟩
  | type openBracket type closeBracket =>
      cases inner <;> simp [tokens, TermTree.tokens] at same

/-- A type in brackets is determined by its tokens, whatever follows. -/
theorem determined_type (openBracket : Span) (inner : TypeTree .type) (closeBracket : Span) :
    Determined tokens (fun _ => True) (type openBracket inner closeBracket) := by
  intro other rest rest' _ _ same
  cases other with
  | term inner' =>
      cases inner' with
      | name ident => exact absurd same.symm (by simp [tokens, TermTree.tokens])
      | group openParen term closeParen => simp [tokens, TermTree.tokens] at same
  | type openBracket' inner' closeBracket' =>
      simp only [tokens, List.cons_append, List.append_assoc, List.nil_append, List.cons.injEq,
        Symbol.token_inj, true_and] at same
      obtain ⟨rfl, fromInner⟩ := same
      obtain ⟨rfl, fromClose⟩ :=
        inner.determined (endsType_cons rfl _) (endsType_cons rfl _) fromInner
      simpa using fromClose

end ArgumentTree

namespace TermTree

/-- The application of a function to one more argument. -/
def apply (function : TermTree .application) : ArgumentTree → TermTree .application
  | .term inner => .app function inner
  | .type openBracket inner closeBracket => .tyApp function openBracket inner closeBracket

/-- Every application is an atom with arguments in a row. -/
theorem exists_spine : (tree : TermTree .application) →
    ∃ (head : TermTree .atom) (arguments : List ArgumentTree),
      tree = arguments.foldl apply (.atom head) ∧
      tree.tokens = head.tokens ++ arguments.flatMap ArgumentTree.tokens
  | .app function argument => by
      obtain ⟨head, arguments, spine, functionTokens⟩ := exists_spine function
      refine ⟨head, arguments ++ [.term argument], ?_, ?_⟩
      · simp [← spine, apply]
      · simp [TermTree.tokens, functionTokens, ArgumentTree.tokens]
  | .tyApp function openBracket argument closeBracket => by
      obtain ⟨head, arguments, spine, functionTokens⟩ := exists_spine function
      refine ⟨head, arguments ++ [.type openBracket argument closeBracket], ?_, ?_⟩
      · simp [← spine, apply]
      · simp [TermTree.tokens, functionTokens, ArgumentTree.tokens]
  | .atom inner => ⟨inner, [], rfl, by simp [TermTree.tokens]⟩

/-- No abstraction begins an application. -/
theorem lambda_ne_application (spelling : Spelling) (span : Span)
    (inner : TermTree .application) (rest rest' : List Token) :
    spelling.lambda.token span :: rest ≠ inner.tokens ++ rest' := by
  obtain ⟨head, arguments, -, tokens⟩ := inner.exists_spine
  rw [tokens]
  cases head <;> cases spelling <;>
    simp [TermTree.tokens, Symbol.token, Ident.token, Spelling.lambda]

/-- What begins with the keyword of a polymorphic function is no application. -/
theorem bigLambda_ne_application (spelling : Spelling) (span : Span)
    (inner : TermTree .application) (rest rest' : List Token) :
    spelling.bigLambda.token span :: rest ≠ inner.tokens ++ rest' := by
  obtain ⟨head, arguments, -, tokens⟩ := inner.exists_spine
  rw [tokens]
  cases head <;> cases spelling <;>
    simp [TermTree.tokens, Symbol.token, Ident.token, Spelling.bigLambda]

/-- The two kinds of functions have different keywords. -/
theorem lambda_ne_bigLambda (spelling spelling' : Spelling) (span span' : Span) :
    spelling.lambda.token span ≠ spelling'.bigLambda.token span' := by
  cases spelling <;> cases spelling' <;>
    simp [Symbol.token, Spelling.lambda, Spelling.bigLambda]

/-- How a term is determined. An application may be the beginning of a longer one, so it is
determined together with the arguments that follow it. -/
def IsDetermined : {level : TermLevel} → TermTree level → Prop
  | .atom, tree => Determined TermTree.tokens (fun _ => True) tree
  | .application, tree => ∀ ⦃arguments : List ArgumentTree⦄,
    (∀ argument ∈ arguments, Determined ArgumentTree.tokens (fun _ => True) argument) →
    ∀ ⦃head : TermTree .atom⦄ ⦃others : List ArgumentTree⦄ ⦃rest rest' : List Token⦄,
      EndsTerm rest → EndsTerm rest' →
      tree.tokens ++ (arguments.flatMap ArgumentTree.tokens ++ rest) =
        head.tokens ++ (others.flatMap ArgumentTree.tokens ++ rest') →
      arguments.foldl apply tree = others.foldl apply (.atom head) ∧ rest = rest'
  | .term, tree => Determined TermTree.tokens EndsTerm tree

/-- An application alone is determined, whatever it is compared with. -/
theorem IsDetermined.alone {tree : TermTree .application} (determined : tree.IsDetermined) :
    Determined TermTree.tokens EndsTerm tree := by
  intro other rest rest' ends ends' same
  obtain ⟨head, others, spine, otherTokens⟩ := other.exists_spine
  rw [otherTokens, List.append_assoc] at same
  rw [spine]
  exact @determined [] (by simp) head others rest rest' ends ends' same

/-- A term is determined by its tokens where no more of it can follow. -/
theorem isDetermined {level : TermLevel} (tree : TermTree level) : tree.IsDetermined := by
  induction tree with
  | lam spelling keyword params dot body bodyIH =>
      intro other rest rest' ends ends' same
      cases other with
      | lam spelling' keyword' params' dot' body' =>
          simp only [TermTree.tokens, List.cons_append, List.append_assoc, List.nil_append,
            List.cons.injEq, Symbol.token_inj, Spelling.lambda_inj] at same
          obtain ⟨⟨rfl, rfl⟩, fromParams⟩ := same
          obtain ⟨rfl, rfl, fromBody⟩ := CommaList.determined (by decide)
            (fun _ _ => endsType_cons rfl _) (fun _ _ => endsType_cons rfl _)
            ParamTree.determined fromParams
          obtain ⟨rfl, sameRest⟩ := bodyIH ends ends' fromBody
          exact ⟨rfl, sameRest⟩
      | tyLam spelling' keyword' params' dot' body' =>
          simp only [TermTree.tokens, List.cons_append, List.cons.injEq] at same
          exact absurd same.1 (lambda_ne_bigLambda _ _ _ _)
      | application inner =>
          exact absurd same (lambda_ne_application spelling keyword inner _ _)
  | tyLam spelling keyword params dot body bodyIH =>
      intro other rest rest' ends ends' same
      cases other with
      | lam spelling' keyword' params' dot' body' =>
          simp only [TermTree.tokens, List.cons_append, List.cons.injEq] at same
          exact absurd same.1.symm (lambda_ne_bigLambda _ _ _ _)
      | tyLam spelling' keyword' params' dot' body' =>
          simp only [TermTree.tokens, List.cons_append, List.append_assoc, List.nil_append,
            List.cons.injEq, Symbol.token_inj, Spelling.bigLambda_inj] at same
          obtain ⟨⟨rfl, rfl⟩, fromParams⟩ := same
          obtain ⟨rfl, rfl, fromBody⟩ := CommaList.determined (by decide) (fun _ _ => trivial)
            (fun _ _ => trivial) determined_ident fromParams
          obtain ⟨rfl, sameRest⟩ := bodyIH ends ends' fromBody
          exact ⟨rfl, sameRest⟩
      | application inner =>
          exact absurd same (bigLambda_ne_application spelling keyword inner _ _)
  | application inner innerIH =>
      intro other rest rest' ends ends' same
      cases other with
      | lam spelling keyword params dot body =>
          exact absurd same.symm (lambda_ne_application spelling keyword inner _ _)
      | tyLam spelling keyword params dot body =>
          exact absurd same.symm (bigLambda_ne_application spelling keyword inner _ _)
      | application inner' =>
          obtain ⟨rfl, sameRest⟩ := innerIH.alone ends ends' same
          exact ⟨rfl, sameRest⟩
  | app function argument functionIH argumentIH =>
      intro arguments each head others rest rest' ends ends' same
      rw [TermTree.tokens, List.append_assoc] at same
      refine @functionIH (.term argument :: arguments) ?_ head others rest rest' ends ends' ?_
      · exact List.forall_mem_cons.mpr ⟨ArgumentTree.determined_term argumentIH, each⟩
      · simpa [ArgumentTree.tokens] using same
  | tyApp function openBracket argument closeBracket functionIH =>
      intro arguments each head others rest rest' ends ends' same
      rw [TermTree.tokens, List.append_assoc] at same
      refine @functionIH (.type openBracket argument closeBracket :: arguments) ?_ head others rest
        rest' ends ends' ?_
      · exact List.forall_mem_cons.mpr ⟨ArgumentTree.determined_type .., each⟩
      · simpa [ArgumentTree.tokens] using same
  | atom inner innerIH =>
      intro arguments each head others rest rest' ends ends' same
      obtain ⟨rfl, fromArguments⟩ := innerIH trivial trivial same
      obtain ⟨rfl, sameRest⟩ := ArgumentTree.determined_list each ends ends' fromArguments
      exact ⟨rfl, sameRest⟩
  | name ident =>
      intro other rest rest' _ _ same
      cases other with
      | name ident' => simpa [TermTree.tokens] using same
      | group openParen inner closeParen => simp [TermTree.tokens] at same
  | group openParen inner closeParen innerIH =>
      intro other rest rest' _ _ same
      cases other with
      | name ident => exact absurd same.symm (by simp [TermTree.tokens])
      | group openParen' inner' closeParen' =>
          simp only [TermTree.tokens, List.cons_append, List.append_assoc, List.nil_append,
            List.cons.injEq, Symbol.token_inj, true_and] at same
          obtain ⟨rfl, fromInner⟩ := same
          obtain ⟨rfl, fromClose⟩ := innerIH (endsTerm_cons rfl _) (endsTerm_cons rfl _) fromInner
          simpa using fromClose

/-- Different terms are written with different tokens. -/
theorem tokens_injective : Function.Injective (@TermTree.tokens .term) := by
  intro left right same
  exact (left.isDetermined endsTerm_nil endsTerm_nil (congrArg (· ++ []) same)).1

end TermTree

/-! ## Statements and programs -/

/-- Different words for an assumption are different symbols. -/
theorem AssumptionWord.symbol_injective : Function.Injective AssumptionWord.symbol := by
  intro word word' same
  cases word <;> cases word' <;> simp [AssumptionWord.symbol] at same ⊢

/-- Different words for a theorem are different symbols. -/
theorem TheoremWord.symbol_injective : Function.Injective TheoremWord.symbol := by
  intro word word' same
  cases word <;> cases word' <;> simp [TheoremWord.symbol] at same ⊢

namespace StatementTree

/-- What is left to read after the keyword, which tells the form of the statement. -/
def begun : StatementTree → StatementReading
  | assumeType keyword _ => .name keyword.start .assumeType
  | assumeTerm _ keyword _ _ _ => .name keyword.start .assumeTerm
  | announce _ keyword _ _ _ _ _ => .name keyword.start .announce
  | define keyword _ _ _ => .name keyword.start .define
  | reduce keyword _ => .term keyword.start .reduce (.term [])
  | print keyword _ => .name keyword.start .print
  | clear keyword => .ended ⟨keyword, .clear⟩

/-- The first token of a statement tells its kind. -/
theorem bind_begin?_head (tree : StatementTree) :
    tree.tokens.head?.bind StatementReading.begin? = some tree.begun := by
  cases tree with
  | assumeTerm word => cases word <;> rfl
  | announce word => cases word <;> rfl
  | assumeType | define | reduce | print | clear => rfl

/-- Different statements are written with different tokens. -/
theorem tokens_injective : Function.Injective StatementTree.tokens := by
  intro left right same
  have sameForm : left.begun = right.begun := by
    have sameBegin := congrArg (·.head?.bind StatementReading.begin?) same
    simpa [bind_begin?_head] using sameBegin
  cases left with
  | assumeType keyword name =>
      cases right with
      | assumeType keyword' name' => simpa [tokens] using same
      | _ => simp [begun] at sameForm
  | assumeTerm word keyword name colon type =>
      cases right with
      | assumeTerm word' keyword' name' colon' type' =>
          simp only [tokens, List.cons.injEq, Symbol.token_inj, ident_token_inj, true_and] at same
          obtain ⟨⟨sameWord, rfl⟩, rfl, rfl, sameType⟩ := same
          rw [AssumptionWord.symbol_injective sameWord, TypeTree.tokens_injective sameType]
      | _ => simp [begun] at sameForm
  | announce word keyword name colon type equals term =>
      cases right with
      | announce word' keyword' name' colon' type' equals' term' =>
          simp only [tokens, List.cons.injEq, Symbol.token_inj, ident_token_inj, true_and] at same
          obtain ⟨⟨sameWord, rfl⟩, rfl, rfl, fromType⟩ := same
          obtain ⟨rfl, fromEquals⟩ :=
            type.determined (endsType_cons rfl _) (endsType_cons rfl _) fromType
          simp only [List.cons.injEq, Symbol.token_inj, true_and] at fromEquals
          obtain ⟨rfl, sameTerm⟩ := fromEquals
          rw [TheoremWord.symbol_injective sameWord, TermTree.tokens_injective sameTerm]
      | _ => simp [begun] at sameForm
  | define keyword name equals term =>
      cases right with
      | define keyword' name' equals' term' =>
          simp only [tokens, List.cons.injEq, Symbol.token_inj, ident_token_inj, true_and] at same
          obtain ⟨rfl, rfl, rfl, sameTerm⟩ := same
          rw [TermTree.tokens_injective sameTerm]
      | _ => simp [begun] at sameForm
  | reduce keyword term =>
      cases right with
      | reduce keyword' term' =>
          simp only [tokens, List.cons.injEq, Symbol.token_inj, true_and] at same
          obtain ⟨rfl, sameTerm⟩ := same
          rw [TermTree.tokens_injective sameTerm]
      | _ => simp [begun] at sameForm
  | print keyword name =>
      cases right with
      | print keyword' name' => simpa [tokens] using same
      | _ => simp [begun] at sameForm
  | clear keyword =>
      cases right with
      | clear keyword' => simpa [tokens] using same
      | _ => simp [begun] at sameForm

/-- No statement is written with nothing. -/
theorem tokens_ne_nil (tree : StatementTree) : tree.tokens ≠ [] := by
  cases tree <;> simp [tokens]

end StatementTree

/-! ## Programs -/

/-- None of the tokens is a semicolon. -/
def NoSemicolon (tokens : List Token) : Prop :=
  ∀ token ∈ tokens, token.lexeme ≠ .symbol .semicolon

namespace NoSemicolon

@[simp]
theorem nil : NoSemicolon [] := by
  simp [NoSemicolon]

@[simp]
theorem append_iff {front rest : List Token} :
    NoSemicolon (front ++ rest) ↔ NoSemicolon front ∧ NoSemicolon rest := by
  simp [NoSemicolon, or_imp, forall_and]

@[simp]
theorem symbol_cons_iff {fixed : Symbol} {span : Span} {rest : List Token} :
    NoSemicolon (fixed.token span :: rest) ↔ fixed ≠ .semicolon ∧ NoSemicolon rest := by
  simp [NoSemicolon, Symbol.token]

@[simp]
theorem ident_cons_iff {ident : Ident} {rest : List Token} :
    NoSemicolon (ident.token :: rest) ↔ NoSemicolon rest := by
  simp [NoSemicolon, Ident.token]

/-- A list has no semicolon if its items have none. -/
theorem commaList {α : Type} (itemTokens : α → List Token)
    (items : ∀ item, NoSemicolon (itemTokens item)) (list : CommaList α) :
    NoSemicolon (list.tokens itemTokens) := by
  induction list with
  | single item => exact items item
  | cons item comma rest restIH => simp [CommaList.tokens, items item, restIH]

/-- A type has no semicolon. -/
theorem type {level : TypeLevel} (tree : TypeTree level) : NoSemicolon tree.tokens := by
  induction tree with
  | quantifier spelling keyword params dot body bodyIH =>
      have noParam := commaList (fun param => [Ident.token param]) (by simp) params
      cases spelling <;> simp [TypeTree.tokens, Spelling.quantifier, noParam, bodyIH]
  | arrow domain spelling sign codomain domainIH codomainIH =>
      cases spelling <;> simp [TypeTree.tokens, Spelling.arrow, domainIH, codomainIH]
  | atom inner innerIH => exact innerIH
  | name ident => simp [TypeTree.tokens]
  | group openParen inner closeParen innerIH => simp [TypeTree.tokens, innerIH]

/-- A term has no semicolon. -/
theorem term {level : TermLevel} (tree : TermTree level) : NoSemicolon tree.tokens := by
  induction tree with
  | lam spelling keyword params dot body bodyIH =>
      have noParam :=
        commaList ParamTree.tokens (fun param => by simp [ParamTree.tokens, type]) params
      cases spelling <;> simp [TermTree.tokens, Spelling.lambda, noParam, bodyIH]
  | tyLam spelling keyword params dot body bodyIH =>
      have noParam := commaList (fun param => [Ident.token param]) (by simp) params
      cases spelling <;> simp [TermTree.tokens, Spelling.bigLambda, noParam, bodyIH]
  | application inner innerIH => exact innerIH
  | app function argument functionIH argumentIH =>
      simp [TermTree.tokens, functionIH, argumentIH]
  | tyApp function openBracket argument closeBracket functionIH =>
      simp [TermTree.tokens, functionIH, type]
  | atom inner innerIH => exact innerIH
  | name ident => simp [TermTree.tokens]
  | group openParen inner closeParen innerIH => simp [TermTree.tokens, innerIH]

/-- A statement has no semicolon. -/
theorem statement (tree : StatementTree) : NoSemicolon tree.tokens := by
  cases tree with
  | assumeTerm word =>
      cases word <;> simp [StatementTree.tokens, AssumptionWord.symbol, type]
  | announce word =>
      cases word <;> simp [StatementTree.tokens, TheoremWord.symbol, type, term]
  | assumeType | define | reduce | print | clear => simp [StatementTree.tokens, term]

/-- An optional statement has no semicolon. -/
theorem option (statement : Option StatementTree) :
    NoSemicolon (statement.elim [] StatementTree.tokens) := by
  cases statement with
  | none => exact nil
  | some tree => exact NoSemicolon.statement tree

/-- Where tokens go on with a semicolon, another one is the same or comes after it. -/
theorem split {front rest before after : List Token} {span other : Span}
    (clear : NoSemicolon front)
    (same : front ++ Symbol.semicolon.token span :: rest =
      before ++ Symbol.semicolon.token other :: after) :
    (before = front ∧ other = span ∧ after = rest) ∨
      ∃ more, before = front ++ Symbol.semicolon.token span :: more ∧
        rest = more ++ Symbol.semicolon.token other :: after := by
  induction front generalizing before with
  | nil =>
      cases before with
      | nil =>
          obtain ⟨rfl, rfl⟩ : span = other ∧ rest = after := by simpa using same
          exact .inl ⟨rfl, rfl, rfl⟩
      | cons head more =>
          obtain ⟨rfl, restTokens⟩ := List.cons.inj same
          exact .inr ⟨more, rfl, restTokens⟩
  | cons token front frontIH =>
      have frontClear : NoSemicolon front := fun _ member =>
        clear _ (List.mem_cons_of_mem _ member)
      cases before with
      | nil =>
          obtain ⟨rfl, -⟩ := List.cons.inj same
          exact absurd rfl (clear _ List.mem_cons_self)
      | cons head before =>
          obtain ⟨rfl, tokens⟩ := List.cons.inj same
          obtain ⟨rfl, ended⟩ | ⟨more, rfl, restTokens⟩ := frontIH frontClear tokens
          · exact .inl ⟨rfl, ended⟩
          · exact .inr ⟨more, rfl, restTokens⟩

/-- The tokens before the first semicolon, its place and the tokens after it are
determined. -/
theorem cut {front front' rest rest' : List Token} {span span' : Span}
    (clear : NoSemicolon front) (clear' : NoSemicolon front')
    (same : front ++ Symbol.semicolon.token span :: rest =
      front' ++ Symbol.semicolon.token span' :: rest') :
    front = front' ∧ span = span' ∧ rest = rest' := by
  obtain ⟨rfl, rfl, rfl⟩ | ⟨more, rfl, -⟩ := clear.split same
  · exact ⟨rfl, rfl, rfl⟩
  · exact absurd rfl (clear' _ (List.mem_append_right _ List.mem_cons_self))

end NoSemicolon

/-- Statements that may be missing are told apart by their tokens. -/
theorem optionTokens_injective :
    Function.Injective fun statement : Option StatementTree =>
      statement.elim [] StatementTree.tokens := by
  intro left right same
  cases left with
  | none =>
      cases right with
      | none => rfl
      | some right => exact absurd same.symm right.tokens_ne_nil
  | some left =>
      cases right with
      | none => exact absurd same left.tokens_ne_nil
      | some right => exact congrArg some (StatementTree.tokens_injective same)

/-- Different programs are written with different tokens. -/
theorem ProgramTree.tokens_injective : Function.Injective ProgramTree.tokens := by
  intro left
  induction left with
  | last statement =>
      intro right same
      cases right with
      | last statement' => exact congrArg ProgramTree.last (optionTokens_injective same)
      | cons statement' semicolon rest =>
          have clear : NoSemicolon (ProgramTree.cons statement' semicolon rest).tokens :=
            same ▸ NoSemicolon.option statement
          simp [ProgramTree.tokens] at clear
  | cons statement semicolon rest restIH =>
      intro right same
      cases right with
      | last statement' =>
          have clear : NoSemicolon (ProgramTree.cons statement semicolon rest).tokens :=
            same ▸ NoSemicolon.option statement'
          simp [ProgramTree.tokens] at clear
      | cons statement' semicolon' rest' =>
          obtain ⟨sameStatement, rfl, sameRest⟩ :=
            NoSemicolon.cut (.option statement) (.option statement') same
          rw [optionTokens_injective sameStatement, restIH sameRest]

end PolyLambda.Grammar
