import PolyLambda.Proofs.PrintedSyntax
import PolyLambda.Proofs.SourceSpans

/-!
# The names of what is parsed

The names of a parsed tree are tokens of the source, so they are words and no keywords.
Together with the way trees are written this says which trees can be read back: those whose
names are such words.
-/

namespace PolyLambda

namespace Named

/-! ## Names of trees -/

/-- Spans have no part in the names of a type. -/
theorem Ty.names_bare (ty : Ty) : ty.bare.names = ty.names := by
  induction ty with
  | var => rfl
  | arrow _ _ _ domainIH codomainIH => simp only [Ty.bare, Ty.names, domainIH, codomainIH]
  | all _ _ _ bodyIH => simp only [Ty.bare, Ty.names, bodyIH, Ident.bare]

/-- Spans have no part in the names of a term. -/
theorem Term.names_bare (term : Term) : term.bare.names = term.names := by
  induction term with
  | var => rfl
  | lam _ _ _ _ bodyIH => simp only [Term.bare, Term.names, Ty.names_bare, bodyIH, Ident.bare]
  | app _ _ _ functionIH argumentIH => simp only [Term.bare, Term.names, functionIH, argumentIH]
  | tyLam _ _ _ bodyIH => simp only [Term.bare, Term.names, bodyIH, Ident.bare]
  | tyApp _ _ _ functionIH => simp only [Term.bare, Term.names, functionIH, Ty.names_bare]

/-- The names of nested quantifiers are those of the binders and of the body. -/
theorem Ty.names_allMany (span : Span) (params : List Ident) (body : Ty) :
    (Ty.allMany span params body).names =
      params.map (fun param => ⟨.type, param.name⟩) ++ body.names := by
  induction params with
  | nil => rfl
  | cons param rest restIH =>
      rw [Ty.allMany, List.foldr_cons, Ty.names]
      exact congrArg _ restIH

/-- The names of nested polymorphic functions are those of the binders and of the body. -/
theorem Term.names_tyLamMany (span : Span) (params : List Ident) (body : Term) :
    (Term.tyLamMany span params body).names =
      params.map (fun param => ⟨.type, param.name⟩) ++ body.names := by
  induction params with
  | nil => rfl
  | cons param rest restIH =>
      rw [Term.tyLamMany, List.foldr_cons, Term.names]
      exact congrArg _ restIH

/-- The names of a parameter and its type. -/
def paramNames (param : Ident × Ty) : List Binder :=
  ⟨.term, param.1.name⟩ :: param.2.names

/-- The names of nested functions are those of the parameters and of the body. -/
theorem Term.names_lamMany (span : Span) (params : List (Ident × Ty)) (body : Term) :
    (Term.lamMany span params body).names = params.flatMap paramNames ++ body.names := by
  induction params with
  | nil => rfl
  | cons param rest restIH =>
      rw [List.flatMap_cons, List.append_assoc, ← restIH]
      rfl

/-- The names that occur in a command. -/
def Command.names : Command → List Binder
  | assumeType name => [⟨.type, name.name⟩]
  | assumeTerm name ty => ⟨.term, name.name⟩ :: ty.names
  | define name expected term => ⟨.term, name.name⟩ :: (expected.elim [] Ty.names ++ term.names)
  | reduce term => term.names
  | print name => [⟨.term, name.name⟩]
  | clear => []

end Named

/-! ## Names of syntax trees -/

namespace Grammar

open PolyLambda.Named

/-- Some tokens are proper ones. -/
def AllProper (tokens : List Token) : Prop :=
  ∀ token ∈ tokens, token.lexeme.IsProper

/-- The items of a list of proper tokens have proper tokens. -/
theorem CommaList.proper_item {α : Type} {itemTokens : α → List Token} {list : CommaList α}
    (proper : AllProper (list.tokens itemTokens)) :
    ∀ item ∈ list.items, AllProper (itemTokens item) := by
  induction list with
  | single item => simpa [CommaList.items, CommaList.tokens] using proper
  | cons item comma rest restIH =>
      simp only [AllProper, CommaList.tokens, List.forall_mem_append] at proper
      exact List.forall_mem_cons.mpr ⟨proper.1.1, restIH proper.2⟩

/-- Binders with proper tokens have readable names. -/
theorem allNames_idents {list : CommaList Ident} {kind : Kind}
    (proper : AllProper (list.tokens fun ident => [ident.token])) :
    AllNames (list.items.map fun ident => ⟨kind, ident.name⟩) := by
  intro name member
  obtain ⟨ident, inItems, rfl⟩ := List.mem_map.mp member
  exact CommaList.proper_item proper ident inItems ident.token List.mem_cons_self

/-- A type with proper tokens has readable names. -/
theorem TypeTree.allNames {level : TypeLevel} (tree : TypeTree level)
    (proper : AllProper tree.tokens) : AllNames tree.phrase.value.names := by
  induction tree with
  | quantifier spelling keyword params dot body bodyIH =>
      simp only [AllProper, TypeTree.tokens, List.forall_mem_cons, List.forall_mem_append] at proper
      rw [TypeTree.phrase, Ty.names_allMany]
      exact List.forall_mem_append.mpr ⟨allNames_idents proper.2.1.1, bodyIH proper.2.2⟩
  | arrow domain spelling sign codomain domainIH codomainIH =>
      simp only [AllProper, TypeTree.tokens, List.forall_mem_cons, List.forall_mem_append] at proper
      exact List.forall_mem_append.mpr ⟨domainIH proper.1, codomainIH proper.2.2⟩
  | atom inner innerIH => exact innerIH proper
  | name ident => exact List.forall_mem_singleton.mpr (proper ident.token List.mem_cons_self)
  | group openParen inner closeParen innerIH =>
      simp only [AllProper, TypeTree.tokens, List.forall_mem_cons, List.forall_mem_append] at proper
      exact innerIH proper.2.1

/-- A parameter with proper tokens has readable names. -/
theorem ParamTree.allNames (param : ParamTree) (proper : AllProper param.tokens) :
    AllNames (paramNames param.value) := by
  simp only [AllProper, ParamTree.tokens, List.forall_mem_cons] at proper
  exact List.forall_mem_cons.mpr ⟨proper.1, param.type.allNames proper.2.2⟩

/-- A term with proper tokens has readable names. -/
theorem TermTree.allNames {level : TermLevel} (tree : TermTree level)
    (proper : AllProper tree.tokens) : AllNames tree.phrase.value.names := by
  induction tree with
  | lam spelling keyword params dot body bodyIH =>
      simp only [AllProper, TermTree.tokens, List.forall_mem_cons, List.forall_mem_append] at proper
      rw [TermTree.phrase, Term.names_lamMany]
      refine List.forall_mem_append.mpr ⟨?_, bodyIH proper.2.2⟩
      intro name member
      obtain ⟨param, inParams, inNames⟩ := List.mem_flatMap.mp member
      obtain ⟨tree, inItems, rfl⟩ := List.mem_map.mp inParams
      exact tree.allNames (CommaList.proper_item proper.2.1.1 tree inItems) name inNames
  | tyLam spelling keyword params dot body bodyIH =>
      simp only [AllProper, TermTree.tokens, List.forall_mem_cons, List.forall_mem_append] at proper
      rw [TermTree.phrase, Term.names_tyLamMany]
      exact List.forall_mem_append.mpr ⟨allNames_idents proper.2.1.1, bodyIH proper.2.2⟩
  | application inner innerIH => exact innerIH proper
  | app function argument functionIH argumentIH =>
      simp only [AllProper, TermTree.tokens, List.forall_mem_append] at proper
      exact List.forall_mem_append.mpr ⟨functionIH proper.1, argumentIH proper.2⟩
  | tyApp function openBracket argument closeBracket functionIH =>
      simp only [AllProper, TermTree.tokens, List.forall_mem_cons, List.forall_mem_append] at proper
      exact List.forall_mem_append.mpr ⟨functionIH proper.1, argument.allNames proper.2.2.1⟩
  | atom inner innerIH => exact innerIH proper
  | name ident => exact List.forall_mem_singleton.mpr (proper ident.token List.mem_cons_self)
  | group openParen inner closeParen innerIH =>
      simp only [AllProper, TermTree.tokens, List.forall_mem_cons, List.forall_mem_append] at proper
      exact innerIH proper.2.1

/-- A statement with proper tokens has readable names. -/
theorem StatementTree.allNames (tree : StatementTree) (proper : AllProper tree.tokens) :
    AllNames tree.value.command.names := by
  cases tree with
  | assumeType keyword name | print keyword name =>
      exact List.forall_mem_singleton.mpr (proper name.token (by simp [StatementTree.tokens]))
  | assumeTerm word keyword name colon type =>
      simp only [AllProper, StatementTree.tokens, List.forall_mem_cons] at proper
      exact List.forall_mem_cons.mpr ⟨proper.2.1, type.allNames proper.2.2.2⟩
  | announce word keyword name colon type equals term =>
      simp only [AllProper, StatementTree.tokens, List.forall_mem_cons,
        List.forall_mem_append] at proper
      obtain ⟨_, nameProper, _, typeProper, _, termProper⟩ := proper
      exact List.forall_mem_cons.mpr ⟨nameProper,
        List.forall_mem_append.mpr ⟨type.allNames typeProper, term.allNames termProper⟩⟩
  | define keyword name equals term =>
      simp only [AllProper, StatementTree.tokens, List.forall_mem_cons] at proper
      exact List.forall_mem_cons.mpr ⟨proper.2.1, term.allNames proper.2.2.2⟩
  | reduce keyword term =>
      simp only [AllProper, StatementTree.tokens, List.forall_mem_cons] at proper
      exact term.allNames proper.2
  | clear keyword => exact List.forall_mem_nil _

/-! ## Names of parsed texts -/

/-- A parsed term has readable names. -/
theorem parseTerm_allNames {source : String} {term : Term} (parsed : parseTerm source = .ok term) :
    AllNames term.names := by
  obtain ⟨_, tree, _, tokenizes, rfl⟩ := termEntry_follows.exists_tree parsed
  exact TermTree.allNames tree (Lexes.proper tokenizes)

/-- Parsed statements have readable names. -/
theorem parseProgram_allNames {source : String} {statements : List Statement}
    (parsed : parseProgram source = .ok statements) :
    ∀ statement ∈ statements, AllNames statement.command.names := by
  obtain ⟨_, tree, _, tokenizes, rfl⟩ := programEntry_follows.exists_tree parsed
  intro statement member
  obtain ⟨inner, rfl, inside⟩ := ProgramTree.exists_statement tree member
  exact inner.allNames fun token inTokens => Lexes.proper tokenizes token (inside.subset inTokens)

end Grammar

/-! ## Reading back -/

namespace Named

open Grammar

/-- A type is read back from its written form if its names are words and no keywords. -/
theorem Ty.exists_parse_text {ty : Ty} (named : AllNames ty.names) :
    ∃ parsed, parseType ty.text = .ok parsed ∧ parsed.bare = ty.bare := by
  obtain ⟨tokens, lexemes, parsed⟩ :=
    exists_parse_eq typeEntry (Ty.noAsterisk_text named) (Ty.writes named)
  obtain ⟨tree, rfl, value⟩ := ty.derivedFrom_lexemes tokens lexemes
  exact ⟨tree.phrase.value, parsed.trans (tree.readFrom 0), value⟩

/-- A term is read back from its written form exactly if its names are words and no
keywords. -/
theorem Term.exists_parse_text_iff (term : Term) :
    (∃ parsed, parseTerm term.text = .ok parsed ∧ parsed.bare = term.bare) ↔
      AllNames term.names := by
  constructor
  · rintro ⟨parsed, success, bare⟩
    have named := parseTerm_allNames success
    rwa [← parsed.names_bare, bare, term.names_bare] at named
  · intro named
    obtain ⟨tokens, lexemes, parsed⟩ :=
      exists_parse_eq termEntry (Term.noAsterisk_text named) (Term.writes named)
    obtain ⟨tree, rfl, value⟩ := term.derivedFrom_lexemes.2 tokens lexemes
    exact ⟨tree.phrase.value, parsed.trans (tree.readFrom 0), value⟩

end Named

end PolyLambda
