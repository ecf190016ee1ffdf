import PolyLambda.Proofs.PartialTrees

/-!
# Partial statements and programs

Readings of statements and programs are tied to the tokens they were made from, in the
same way as readings of types and terms: every part has a syntax tree, and whatever has
been read can be completed.
-/

namespace PolyLambda.Grammar

open PolyLambda.Named

/-! ## Statements -/

/-- The keywords of the statements that begin with a keyword and a name. -/
inductive NamedForm.Word : NamedForm → Symbol → Prop
  | assumeType : Word .assumeType .variableWord
  | assumeTerm (word : AssumptionWord) : Word .assumeTerm word.symbol
  | announce (word : TheoremWord) : Word .announce word.symbol
  | define : Word .define .defineWord
  | print : Word .print .printWord

/-- The form of a statement that goes on with a type. -/
def NamedForm.typed : Bool → NamedForm
  | false => .assumeTerm
  | true => .announce

/-- The tokens of a statement before its final term, the keyword first. -/
inductive TermForm.Opened : TermForm → Span → List Token → Prop
  | announce (word : TheoremWord) (keyword : Span) (name : Ident) (colon : Span)
      (type : TypeTree .type) (equals : Span) :
      Opened (.define name (some type.phrase.value)) keyword
        (word.symbol.token keyword :: name.token :: Symbol.colon.token colon ::
          (type.tokens ++ [Symbol.equals.token equals]))
  | define (keyword : Span) (name : Ident) (equals : Span) :
      Opened (.define name none) keyword
        [Symbol.defineWord.token keyword, name.token, Symbol.equals.token equals]
  | reduce (keyword : Span) : Opened .reduce keyword [Symbol.reduceWord.token keyword]

/-- An opened statement and its term make a whole statement. -/
theorem TermForm.Opened.exists_tree {form : TermForm} {keyword : Span} {before : List Token}
    (opened : form.Opened keyword before) (term : TermTree .term) :
    ∃ tree : StatementTree, tree.tokens = before ++ term.tokens ∧
      tree.value = ⟨⟨keyword.start, term.phrase.extent.stop⟩, form.command term.phrase.value⟩ := by
  cases opened with
  | announce word _ name colon type equals =>
      exact ⟨.announce word keyword name colon type equals term,
        by simp [StatementTree.tokens], rfl⟩
  | define _ name equals => exact ⟨.define keyword name equals term, rfl, rfl⟩
  | reduce => exact ⟨.reduce keyword term, rfl, rfl⟩

/-- A reading of a statement, and the tokens that it was made from. -/
inductive StatementReading.Represents : StatementReading → List Token → Prop
  | statement : Represents .statement []
  | name {form : NamedForm} {symbol : Symbol} (word : form.Word symbol) (keyword : Span) :
      Represents (.name keyword.start form) [symbol.token keyword]
  | colon (announced : Bool) {symbol : Symbol} (word : (NamedForm.typed announced).Word symbol)
      (keyword : Span) (name : Ident) :
      Represents (.colon keyword.start name announced) [symbol.token keyword, name.token]
  | type (announced : Bool) {symbol : Symbol} {type : TypeReading} {typeTokens : List Token}
      (word : (NamedForm.typed announced).Word symbol) (keyword : Span) (name : Ident)
      (colon : Span) (represents : type.Represents typeTokens) :
      Represents (.type keyword.start name announced type)
        (symbol.token keyword :: name.token :: Symbol.colon.token colon :: typeTokens)
  | equals (keyword : Span) (name : Ident) :
      Represents (.equals keyword.start name) [Symbol.defineWord.token keyword, name.token]
  | term {form : TermForm} {keyword : Span} {before : List Token} {term : TermReading}
      {termTokens : List Token} (opened : form.Opened keyword before)
      (represents : term.Represents termTokens) :
      Represents (.term keyword.start form term) (before ++ termTokens)
  | ended (tree : StatementTree) : Represents (.ended tree.value) tree.tokens

namespace StatementReading.Represents

variable {reading : StatementReading} {tokens : List Token}

/-- The first token of a statement is represented by what it begins. -/
theorem begin? (token : Token) : ∀ reading ∈ begin? token, reading.Represents [token] := by
  intro reading begun
  obtain ⟨lexeme, span⟩ := token
  unfold StatementReading.begin? at begun
  dsimp only at begun
  split at begun
  case h_1 => cases begun; exact .name .assumeType span
  case h_2 => cases begun; exact .name (.assumeTerm .axiomWord) span
  case h_3 => cases begun; exact .name (.assumeTerm .hypothesisWord) span
  case h_4 => cases begun; exact .name (.announce .theoremWord) span
  case h_5 => cases begun; exact .name (.announce .lemmaWord) span
  case h_6 => cases begun; exact .name (.announce .corollaryWord) span
  case h_7 => cases begun; exact .name .define span
  case h_8 => cases begun; exact .term (.reduce span) (.term .outermost)
  case h_9 => cases begun; exact .name .print span
  case h_10 => cases begun; exact .ended (.clear span)
  case h_11 => cases begun

/-- A keyword and a name are represented by what follows the name. -/
theorem afterName {form : NamedForm} {symbol : Symbol} (word : form.Word symbol) (keyword : Span)
    (name : Ident) :
    (afterName keyword.start form name).Represents [symbol.token keyword, name.token] := by
  cases word with
  | assumeType => exact .ended (.assumeType keyword name)
  | assumeTerm word => exact .colon false (.assumeTerm word) keyword name
  | announce word => exact .colon true (.announce word) keyword name
  | define => exact .equals keyword name
  | print => exact .ended (.print keyword name)

/-- The type of an assumption completes it, and the type of an announced definition is
followed by an equals sign. -/
theorem afterType {announced : Bool} {symbol : Symbol}
    (word : (NamedForm.typed announced).Word symbol) (keyword : Span) (name : Ident)
    (colon : Span) (type : TypeTree .type) :
    (announced = false ∧ ∃ tree : StatementTree,
      tree.tokens = symbol.token keyword :: name.token :: Symbol.colon.token colon :: type.tokens ∧
      tree.value = ⟨⟨keyword.start, type.phrase.extent.stop⟩, .assumeTerm name type.phrase.value⟩) ∨
    (announced = true ∧ ∀ equals, (TermForm.define name (some type.phrase.value)).Opened keyword
      (symbol.token keyword :: name.token :: Symbol.colon.token colon ::
        (type.tokens ++ [Symbol.equals.token equals]))) := by
  cases announced with
  | false =>
      cases word with
      | assumeTerm word => exact .inl ⟨rfl, .assumeTerm word keyword name colon type, rfl, rfl⟩
  | true =>
      cases word with
      | announce word => exact .inr ⟨rfl, .announce word keyword name colon type⟩

/-- A step of a statement goes on with what the tokens represent, or ends the
whole statement. -/
theorem step (represents : reading.Represents tokens) (token : Token) :
    (reading.step token).Yields (·.Represents (tokens ++ [token]))
      fun statement => ∃ tree : StatementTree, tree.value = statement ∧ tree.tokens = tokens := by
  cases represents with
  | statement =>
      unfold StatementReading.step
      cases begun : StatementReading.begin? token with
      | some reading => exact begin? token reading begun
      | none => trivial
  | name word keyword =>
      unfold StatementReading.step
      obtain ⟨lexeme, span⟩ := token
      dsimp only
      split
      case h_1 text => exact afterName word keyword ⟨span, text⟩
      case h_2 => trivial
  | colon announced word keyword name =>
      unfold StatementReading.step
      obtain ⟨lexeme, span⟩ := token
      dsimp only
      split
      case h_1 => exact .type announced word keyword name span (.type .outermost)
      case h_2 => trivial
  | @type announced symbol type typeTokens word keyword name colon typeRepresents =>
      have typeStep := typeRepresents.step token
      unfold StatementReading.step
      dsimp only
      cases stepped : type.step token with
      | next type =>
          rw [stepped] at typeStep
          exact .type announced word keyword name colon typeStep
      | finished phrase =>
          rw [stepped] at typeStep
          obtain ⟨tree, rfl, rfl⟩ := typeStep
          obtain ⟨lexeme, span⟩ := token
          obtain ⟨rfl, statement, statementTokens, value⟩ | ⟨rfl, opened⟩ :=
            afterType word keyword name colon tree
          · exact ⟨statement, value, statementTokens⟩
          · dsimp only
            rw [if_pos rfl]
            split
            case h_1 =>
              have begun := Represents.term (opened span) (.term .outermost)
              simpa [Step.Yields, Symbol.token] using begun
            case h_2 => trivial
      | refused => trivial
  | equals keyword name =>
      unfold StatementReading.step
      obtain ⟨lexeme, span⟩ := token
      dsimp only
      split
      case h_1 =>
        have begun := Represents.term (.define keyword name span) (.term .outermost)
        simpa [Step.Yields, Symbol.token] using begun
      case h_2 => trivial
  | @term form keyword before term termTokens opened termRepresents =>
      have termStep := termRepresents.step token
      unfold StatementReading.step
      dsimp only
      cases stepped : term.step token with
      | next term =>
          rw [stepped] at termStep
          simpa [Step.Yields] using Represents.term opened termStep
      | finished phrase =>
          rw [stepped] at termStep
          obtain ⟨body, rfl, rfl⟩ := termStep
          obtain ⟨tree, treeTokens, value⟩ := opened.exists_tree body
          exact ⟨tree, value, treeTokens⟩
      | refused => trivial
  | ended tree => exact ⟨tree, rfl, rfl⟩

/-- A statement that is complete at the end of the input has a syntax tree. -/
theorem finish? (represents : reading.Represents tokens) {statement : Statement}
    (finished : reading.finish? = some statement) :
    ∃ tree : StatementTree, tree.value = statement ∧ tree.tokens = tokens := by
  cases represents with
  | statement | name | colon | equals => cases finished
  | @type announced symbol type typeTokens word keyword name colon typeRepresents =>
      cases announced with
      | false =>
          obtain ⟨phrase, typeFinished, rfl⟩ := Option.map_eq_some_iff.mp finished
          obtain ⟨tree, rfl, rfl⟩ := typeRepresents.finish? typeFinished
          obtain ⟨-, statement, statementTokens, value⟩ | ⟨impossible, -⟩ :=
            afterType word keyword name colon tree
          · exact ⟨statement, value, statementTokens⟩
          · cases impossible
      | true => cases finished
  | term opened termRepresents =>
      obtain ⟨phrase, termFinished, rfl⟩ := Option.map_eq_some_iff.mp finished
      obtain ⟨body, rfl, rfl⟩ := termRepresents.finish? termFinished
      obtain ⟨tree, treeTokens, value⟩ := opened.exists_tree body
      exact ⟨tree, value, treeTokens⟩
  | ended tree =>
      cases finished
      exact ⟨tree, rfl, rfl⟩

/-- A statement with its type can be completed. -/
theorem complete_type {announced : Bool} {symbol : Symbol}
    (word : (NamedForm.typed announced).Word symbol) (keyword : Span) (name : Ident)
    (colon : Span) (type : TypeTree .type) :
    ∃ (tree : StatementTree) (rest : List Token),
      tree.tokens = symbol.token keyword :: name.token :: Symbol.colon.token colon ::
        (type.tokens ++ rest) := by
  obtain ⟨-, tree, treeTokens, -⟩ | ⟨-, opened⟩ := afterType word keyword name colon type
  · exact ⟨tree, [], by simpa using treeTokens⟩
  · obtain ⟨tree, treeTokens, -⟩ :=
      (opened default).exists_tree (.application (.atom (.name ⟨default, "x"⟩)))
    exact ⟨tree, _, by simpa using treeTokens⟩

/-- Whatever has been read of a statement can be completed to a whole statement. -/
theorem complete (represents : reading.Represents tokens) :
    ∃ (tree : StatementTree) (rest : List Token), tree.tokens = tokens ++ rest := by
  let type : TypeTree .type := .atom (.name ⟨default, "A"⟩)
  let body : TermTree .term := .application (.atom (.name ⟨default, "x"⟩))
  cases represents with
  | statement => exact ⟨.clear default, _, rfl⟩
  | name word keyword =>
      cases word with
      | assumeType => exact ⟨.assumeType keyword ⟨default, "A"⟩, _, rfl⟩
      | assumeTerm word => exact ⟨.assumeTerm word keyword ⟨default, "x"⟩ default type, _, rfl⟩
      | announce word =>
          exact ⟨.announce word keyword ⟨default, "x"⟩ default type default body, _, rfl⟩
      | define => exact ⟨.define keyword ⟨default, "x"⟩ default body, _, rfl⟩
      | print => exact ⟨.print keyword ⟨default, "x"⟩, _, rfl⟩
  | colon announced word keyword name =>
      obtain ⟨tree, rest, treeTokens⟩ := complete_type word keyword name default type
      exact ⟨tree, _, treeTokens⟩
  | type announced word keyword name colon typeRepresents =>
      obtain ⟨type, typeRest, typeTokens⟩ := typeRepresents.complete
      obtain ⟨tree, rest, treeTokens⟩ := complete_type word keyword name colon type
      exact ⟨tree, typeRest ++ rest, by simpa [typeTokens] using treeTokens⟩
  | equals keyword name => exact ⟨.define keyword name default body, _, rfl⟩
  | term opened termRepresents =>
      obtain ⟨body, rest, bodyTokens⟩ := termRepresents.complete
      obtain ⟨tree, treeTokens, -⟩ := opened.exists_tree body
      exact ⟨tree, rest, by simpa [bodyTokens] using treeTokens⟩
  | ended tree => exact ⟨tree, [], by simp⟩

end StatementReading.Represents

/-! ## Programs -/

namespace ProgramTree

/-- The program of some statements, each of which may be missing, with the semicolons after
them, and a last statement. -/
def ofTerminated (terminated : List (Option StatementTree × Span))
    (final : Option StatementTree) : ProgramTree :=
  terminated.foldr (fun (statement, semicolon) rest => cons statement semicolon rest) (last final)

/-- The tokens of some statements with the semicolons after them. -/
def terminatedTokens (terminated : List (Option StatementTree × Span)) : List Token :=
  terminated.flatMap fun (statement, semicolon) =>
    statement.elim [] StatementTree.tokens ++ [Symbol.semicolon.token semicolon]

/-- The statements that are not missing. -/
def terminatedValue (terminated : List (Option StatementTree × Span)) : List Statement :=
  terminated.flatMap fun (statement, _) => (statement.map StatementTree.value).toList

/-- The tokens of a program are those of its terminated statements and of the final one. -/
theorem tokens_ofTerminated (terminated : List (Option StatementTree × Span))
    (final : Option StatementTree) :
    (ofTerminated terminated final).tokens =
      terminatedTokens terminated ++ final.elim [] StatementTree.tokens := by
  induction terminated with
  | nil => rfl
  | cons first rest restIH =>
      rw [terminatedTokens, List.flatMap_cons, List.append_assoc, ← terminatedTokens, ← restIH,
        List.append_assoc]
      rfl

/-- The statements of a program are its terminated ones and the final one. -/
theorem value_ofTerminated (terminated : List (Option StatementTree × Span))
    (final : Option StatementTree) :
    (ofTerminated terminated final).value =
      terminatedValue terminated ++ (final.map StatementTree.value).toList := by
  induction terminated with
  | nil => rfl
  | cons first rest restIH =>
      rw [terminatedValue, List.flatMap_cons, List.append_assoc, ← terminatedValue, ← restIH]
      rfl

end ProgramTree

/-- A reading of a program, and the tokens that it was made from: those of the statements
that are complete, and those of the current one. -/
inductive ProgramReading.Represents : ProgramReading → List Token → Prop
  | mk (terminated : List (Option StatementTree × Span)) {current : StatementReading}
      {currentTokens : List Token} (represents : current.Represents currentTokens) :
      Represents ⟨ProgramTree.terminatedValue terminated, current⟩
        (ProgramTree.terminatedTokens terminated ++ currentTokens)

namespace ProgramReading.Represents

variable {reading : ProgramReading} {tokens : List Token}

/-- A semicolon ends the current statement, if there is one. -/
theorem terminate (terminated : List (Option StatementTree × Span))
    (statement : Option StatementTree) (semicolon : Span) :
    Represents
      ⟨ProgramTree.terminatedValue terminated ++ (statement.map StatementTree.value).toList,
        .statement⟩
      (ProgramTree.terminatedTokens terminated ++
        (statement.elim [] StatementTree.tokens ++ [Symbol.semicolon.token semicolon])) := by
  have represents := Represents.mk (terminated ++ [(statement, semicolon)]) .statement
  simpa [ProgramTree.terminatedValue, ProgramTree.terminatedTokens] using represents

/-- A step of a program goes on with what the tokens represent. -/
theorem step? (represents : reading.Represents tokens) {token : Token} {next : ProgramReading}
    (stepped : reading.step? token = some next) : next.Represents (tokens ++ [token]) := by
  obtain @⟨terminated, current, currentTokens, represents⟩ := represents
  have currentStep := represents.step token
  unfold ProgramReading.step? at stepped
  split at stepped
  case isTrue isMissing =>
    obtain ⟨isStatement, isSemicolon⟩ := isMissing
    obtain ⟨_, span⟩ := token
    cases isSemicolon
    cases stepped
    cases isStatement
    cases represents
    simpa [Symbol.token] using terminate terminated none span
  case isFalse =>
    dsimp only at stepped
    cases result : current.step token with
    | next reading =>
        rw [result] at stepped currentStep
        cases stepped
        simpa using Represents.mk terminated currentStep
    | finished statement =>
        rw [result] at stepped currentStep
        obtain ⟨tree, rfl, rfl⟩ := currentStep
        dsimp only at stepped
        split at stepped
        case isTrue isSemicolon =>
          obtain ⟨_, span⟩ := token
          cases isSemicolon
          cases stepped
          simpa [Symbol.token] using terminate terminated (some tree) span
        case isFalse => cases stepped
    | refused =>
        rw [result] at stepped
        cases stepped

/-- A program that is complete at the end of the input has a syntax tree. -/
theorem finish? (represents : reading.Represents tokens) {statements : List Statement}
    (finished : reading.finish? = some statements) :
    ∃ tree : ProgramTree, tree.value = statements ∧ tree.tokens = tokens := by
  obtain @⟨terminated, current, currentTokens, represents⟩ := represents
  unfold ProgramReading.finish? at finished
  split at finished
  case isTrue isStatement =>
    cases finished
    cases isStatement
    cases represents
    refine ⟨.ofTerminated terminated none, ?_, ?_⟩
    · simp [ProgramTree.value_ofTerminated]
    · simp [ProgramTree.tokens_ofTerminated]
  case isFalse =>
    obtain ⟨statement, currentFinished, rfl⟩ := Option.map_eq_some_iff.mp finished
    obtain ⟨tree, rfl, rfl⟩ := represents.finish? currentFinished
    refine ⟨.ofTerminated terminated (some tree), ?_, ?_⟩
    · simp [ProgramTree.value_ofTerminated]
    · simp [ProgramTree.tokens_ofTerminated]

/-- Whatever has been read of a program can be completed to a whole program. -/
theorem complete (represents : reading.Represents tokens) :
    ∃ (tree : ProgramTree) (rest : List Token), tree.tokens = tokens ++ rest := by
  obtain ⟨terminated, represents⟩ := represents
  obtain ⟨tree, rest, treeTokens⟩ := represents.complete
  refine ⟨.ofTerminated terminated (some tree), rest, ?_⟩
  simp [ProgramTree.tokens_ofTerminated, treeTokens]

end ProgramReading.Represents

end PolyLambda.Grammar
