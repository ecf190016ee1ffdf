import PolyLambda.Proofs.SyntaxTrees

/-!
# Reading the tokens of a syntax tree

The readings of the grammar go through the tokens of any syntax tree without a refusal and
end with the phrase that the tree derives. A type or term that has been read to its last
token still waits inside the arrows, quantifiers and abstractions that it ends; what counts
is the phrase that these close to.
-/

namespace PolyLambda.Grammar

open PolyLambda.Named

/-! ## Reading several tokens -/

namespace EntryPoint

variable {ρ σ α β : Type} {entry : EntryPoint ρ α} {outer : EntryPoint σ β}

/-- The reading after some more tokens. -/
def after? (entry : EntryPoint ρ α) (reading : ρ) (tokens : List Token) : Option ρ :=
  tokens.foldlM entry.step? reading

@[simp]
theorem after?_nil (reading : ρ) : entry.after? reading [] = some reading :=
  rfl

/-- Reading a token and more is one step and then reading the others. -/
theorem after?_cons (reading : ρ) (token : Token) (tokens : List Token) :
    entry.after? reading (token :: tokens) =
      (entry.step? reading token).bind (entry.after? · tokens) :=
  List.foldlM_cons

/-- Reading two pieces is reading the second from where the first leads. -/
theorem after?_append (reading : ρ) (front tokens : List Token) :
    entry.after? reading (front ++ tokens) =
      (entry.after? reading front).bind (entry.after? · tokens) :=
  List.foldlM_append

/-- After a step that is possible the other tokens are read from where it leads. -/
theorem after?_cons_of_some {reading next : ρ} {token : Token}
    (stepped : entry.step? reading token = some next) (tokens : List Token) :
    entry.after? reading (token :: tokens) = entry.after? next tokens := by
  rw [after?_cons, stepped, Option.bind_some]

/-- After a piece that is read the other tokens are read from where it leads. -/
theorem after?_append_of_some {reading next : ρ} {front : List Token}
    (read : entry.after? reading front = some next) (tokens : List Token) :
    entry.after? reading (front ++ tokens) = entry.after? next tokens := by
  rw [after?_append, read, Option.bind_some]

/-- A text is read when all its tokens are, and the reading is complete at its end. -/
theorem readFrom_eq_ok_iff {reading : ρ} {offset : Nat} {tokens : List Token} {value : α} :
    entry.readFrom none reading offset tokens = .ok value ↔
      ∃ final, entry.after? reading tokens = some final ∧ entry.finish? final = some value := by
  induction tokens generalizing reading offset with
  | nil =>
      rw [readFrom]
      cases finished : entry.finish? reading <;> simp [finished]
  | cons token tokens tokensIH =>
      rw [readFrom, after?_cons]
      cases entry.step? reading token with
      | none => simp
      | some next => simpa using tokensIH

/-- What is read inside a larger reading goes on in the same way there. -/
theorem after?_embed (embed : ρ → σ)
    (steps : ∀ {reading token next}, entry.step? reading token = some next →
      outer.step? (embed reading) token = some (embed next))
    {reading final : ρ} {tokens : List Token} (read : entry.after? reading tokens = some final) :
    outer.after? (embed reading) tokens = some (embed final) := by
  induction tokens generalizing reading with
  | nil =>
      cases read
      rfl
  | cons token tokens tokensIH =>
      rw [after?_cons] at read ⊢
      obtain ⟨next, stepped, readRest⟩ := Option.bind_eq_some_iff.mp read
      rw [steps stepped]
      exact tokensIH readRest

/-- A list with commas and a token that ends it are read item by item. -/
theorem after?_commaList {ι κ : Type} {itemTokens : ι → List Token} (itemValue : ι → κ)
    (before next : List κ → ρ) {stop : Token}
    (comma : ∀ previous item span,
      entry.after? (before previous) (itemTokens item ++ [Symbol.comma.token span]) =
        some (before (previous ++ [itemValue item])))
    (last : ∀ previous item, entry.after? (before previous) (itemTokens item ++ [stop]) =
      some (next (previous ++ [itemValue item])))
    (list : CommaList ι) :
    entry.after? (before []) (list.tokens itemTokens ++ [stop]) =
      some (next (list.items.map itemValue)) := by
  -- The items that have been read are part of the reading.
  suffices fromPrevious : ∀ previous,
      entry.after? (before previous) (list.tokens itemTokens ++ [stop]) =
        some (next (previous ++ list.items.map itemValue)) from fromPrevious []
  induction list with
  | single item => exact fun previous => last previous item
  | cons item span rest restIH =>
      intro previous
      rw [CommaList.tokens, List.append_assoc, after?_append_of_some (comma previous item span),
        restIH, List.append_assoc]
      rfl

end EntryPoint

/-- A step leads to a reading exactly if it goes on with this reading. -/
theorem Step.next?_eq_some_iff {ρ α : Type} {step : Step ρ α} {reading : ρ} :
    step.next? = some reading ↔ step = .next reading := by
  cases step <;> simp [Step.next?]

/-! ## Types -/

/-- All of a type has been read inside some frames: its last atom has ended, inside frames
that close to the same phrase. -/
def TypeReading.Ends (reading : TypeReading) (phrase : Phrase Ty) (frames : List TypeFrame) :
    Prop :=
  ∃ last inner, reading = .ended last true inner ∧ closeType last inner = closeType phrase frames

namespace TypeReading.Ends

variable {reading : TypeReading} {phrase : Phrase Ty} {frames : List TypeFrame}

/-- A reading that has ended in a phrase ends in this phrase. -/
theorem ofEnded (phrase : Phrase Ty) (frames : List TypeFrame) :
    (TypeReading.ended phrase true frames).Ends phrase frames :=
  ⟨phrase, frames, rfl, rfl⟩

/-- A type that ends outside of every frame is what the reading has. -/
theorem finish? (ends : reading.Ends phrase []) : reading.finish? = some phrase := by
  obtain ⟨last, inner, rfl, closes⟩ := ends
  simp [TypeReading.finish?, closes, closeType]

/-- A closing parenthesis makes an atom of the type. -/
theorem step_closeParen {start : Nat} (ends : reading.Ends phrase (.group start :: frames))
    (span : Span) :
    typeEntry.step? reading (Symbol.closeParen.token span) =
      some (.ended ⟨phrase.value, ⟨start, span.stop⟩⟩ true frames) := by
  obtain ⟨last, inner, rfl, closes⟩ := ends
  simp [typeEntry, step, leave, closes, closeType, Symbol.token, Lexeme.isArrow, Step.next?]

/-- A token other than an arrow is left to what surrounds the type. -/
theorem step_finished {token : Token} (ends : reading.Ends phrase [])
    (noArrow : token.lexeme.isArrow = false) : reading.step token = .finished phrase := by
  obtain ⟨last, inner, rfl, closes⟩ := ends
  simp [step, leave, closes, closeType, noArrow]

end TypeReading.Ends

/-- How the tokens of a type are read: those of an atom up to its end, those of a whole type
up to the end of its last atom. -/
def TypeTree.Read : {level : TypeLevel} → TypeTree level → Prop
  | .atom, tree => ∀ frames,
    typeEntry.after? (.type frames) tree.tokens = some (.ended tree.phrase true frames)
  | .type, tree => ∀ frames, ∃ reading,
    typeEntry.after? (.type frames) tree.tokens = some reading ∧ reading.Ends tree.phrase frames

/-- In front of a type a quantifier begins a list of binders. -/
theorem typeEntry_step?_quantifier (frames : List TypeFrame) (spelling : Spelling) (span : Span) :
    typeEntry.step? (.type frames) (spelling.quantifier.token span) =
      some (.binder span.start [] frames) := by
  cases spelling <;> rfl

/-- After a type an arrow begins the type that it leads to. -/
theorem typeEntry_step?_arrow (phrase : Phrase Ty) (frames : List TypeFrame) (spelling : Spelling)
    (span : Span) :
    typeEntry.step? (.ended phrase true frames) (spelling.arrow.token span) =
      some (.type (.arrow phrase.extent.start phrase.value :: frames)) := by
  cases spelling <;> rfl

/-- The names of a quantifier are read with the dot that ends them. -/
theorem typeEntry_after?_params (start : Nat) (frames : List TypeFrame) (params : CommaList Ident)
    (dot : Span) :
    typeEntry.after? (.binder start [] frames)
        (params.tokens (fun param => [param.token]) ++ [Symbol.dot.token dot]) =
      some (.type (.quantifier start params.items :: frames)) := by
  have readItems := typeEntry.after?_commaList id (.binder start · frames)
    (fun params => .type (.quantifier start params :: frames))
    (fun _ (param : Ident) span => (rfl : typeEntry.after? _ ([param.token] ++ [_]) = _))
    (fun _ param => (rfl : typeEntry.after? _ ([param.token] ++ [Symbol.dot.token dot]) = _)) params
  rwa [List.map_id] at readItems

/-- The tokens of a type are read to their end, at every level of the grammar. -/
theorem TypeTree.read {level : TypeLevel} (tree : TypeTree level) : tree.Read := by
  -- A quantifier and an arrow become a frame around the type that ends them, and this frame
  -- is what `closeType` completes; so what is known of that type is what has to be shown.
  induction tree with
  | quantifier spelling keyword params dot body bodyIH =>
      intro frames
      obtain ⟨reading, readBody, ends⟩ :=
        bodyIH (.quantifier keyword.start params.items :: frames)
      refine ⟨reading, ?_, ends⟩
      rw [TypeTree.tokens,
        EntryPoint.after?_cons_of_some (typeEntry_step?_quantifier frames spelling keyword),
        EntryPoint.after?_append_of_some
          (typeEntry_after?_params keyword.start frames params dot)]
      exact readBody
  | arrow domain spelling sign codomain domainIH codomainIH =>
      intro frames
      obtain ⟨reading, readCodomain, ends⟩ :=
        codomainIH (.arrow domain.phrase.extent.start domain.phrase.value :: frames)
      refine ⟨reading, ?_, ends⟩
      rw [TypeTree.tokens, EntryPoint.after?_append_of_some (domainIH frames),
        EntryPoint.after?_cons_of_some (typeEntry_step?_arrow domain.phrase frames spelling sign)]
      exact readCodomain
  | atom inner innerIH => exact fun frames => ⟨_, innerIH frames, .ofEnded _ _⟩
  | name ident => exact fun frames => rfl
  | group openParen inner closeParen innerIH =>
      intro frames
      obtain ⟨reading, readInner, ends⟩ := innerIH (.group openParen.start :: frames)
      have opened : typeEntry.step? (.type frames) (Symbol.openParen.token openParen) =
          some (.type (.group openParen.start :: frames)) := rfl
      rw [TypeTree.tokens, EntryPoint.after?_cons_of_some opened,
        EntryPoint.after?_append_of_some readInner,
        EntryPoint.after?_cons_of_some (ends.step_closeParen closeParen)]
      rfl

/-! ## Terms -/

/-- All of a term has been read inside some frames: its last application has ended, inside
frames that close to the same phrase. -/
def TermReading.Ends (reading : TermReading) (phrase : Phrase Term) (frames : List TermFrame) :
    Prop :=
  ∃ last inner, reading = .ended last true inner ∧ closeTerm last inner = closeTerm phrase frames

namespace TermReading.Ends

variable {reading : TermReading} {phrase : Phrase Term} {frames : List TermFrame}

/-- A reading that has ended in a phrase ends in this phrase. -/
theorem ofEnded (phrase : Phrase Term) (frames : List TermFrame) :
    (TermReading.ended phrase true frames).Ends phrase frames :=
  ⟨phrase, frames, rfl, rfl⟩

/-- A term that ends outside of every frame is what the reading has. -/
theorem finish? (ends : reading.Ends phrase []) : reading.finish? = some phrase := by
  obtain ⟨last, inner, rfl, closes⟩ := ends
  simp [TermReading.finish?, closes, closeTerm]

/-- A closing parenthesis makes of the term what its opening parenthesis began. -/
theorem step_closeParen {frame : TermFrame} {group : TermGroup}
    (ends : reading.Ends phrase (frame :: frames))
    (opens : closeTerm phrase (frame :: frames) = (phrase, some (group, frames))) (span : Span) :
    termEntry.step? reading (Symbol.closeParen.token span) =
      some (.ended (group.close phrase.value span.stop) true frames) := by
  obtain ⟨last, inner, rfl, closes⟩ := ends
  simp [termEntry, step, extend, leave, closes, opens, Symbol.token, Step.next?]

end TermReading.Ends

/-- In front of a term a λ begins a list of parameters. -/
theorem termEntry_step?_lambda (frames : List TermFrame) (spelling : Spelling) (span : Span) :
    termEntry.step? (.term frames) (spelling.lambda.token span) =
      some (.param span.start [] frames) := by
  cases spelling <;> rfl

/-- In front of a term a Λ begins a list of type parameters. -/
theorem termEntry_step?_bigLambda (frames : List TermFrame) (spelling : Spelling) (span : Span) :
    termEntry.step? (.term frames) (spelling.bigLambda.token span) =
      some (.tyParam span.start [] frames) := by
  cases spelling <;> rfl

/-- The names of a type abstraction are read with the dot that ends them. -/
theorem termEntry_after?_tyParams (start : Nat) (frames : List TermFrame)
    (params : CommaList Ident) (dot : Span) :
    termEntry.after? (.tyParam start [] frames)
        (params.tokens (fun param => [param.token]) ++ [Symbol.dot.token dot]) =
      some (.term (.tyLam start params.items :: frames)) := by
  have readItems := termEntry.after?_commaList id (.tyParam start · frames)
    (fun params => .term (.tyLam start params :: frames))
    (fun _ (param : Ident) span => (rfl : termEntry.after? _ ([param.token] ++ [_]) = _))
    (fun _ param => (rfl : termEntry.after? _ ([param.token] ++ [Symbol.dot.token dot]) = _)) params
  rwa [List.map_id] at readItems

/-- A step of a type is a step of the parameter with this type. -/
theorem termEntry_step?_paramType (start : Nat) (previous : List (Ident × Ty)) (ident : Ident)
    (frames : List TermFrame) {reading next : TypeReading} {token : Token}
    (stepped : typeEntry.step? reading token = some next) :
    termEntry.step? (.paramType start previous ident reading frames) token =
      some (.paramType start previous ident next frames) := by
  have stepsNext : reading.step token = .next next := Step.next?_eq_some_iff.mp stepped
  simp [termEntry, TermReading.step, stepsNext, Step.next?]

/-- A step of a type is a step of the application to this type. -/
theorem termEntry_step?_tyArgument (function : Phrase Term) (frames : List TermFrame)
    {reading next : TypeReading} {token : Token}
    (stepped : typeEntry.step? reading token = some next) :
    termEntry.step? (.tyArgument function reading frames) token =
      some (.tyArgument function next frames) := by
  have stepsNext : reading.step token = .next next := Step.next?_eq_some_iff.mp stepped
  simp [termEntry, TermReading.step, stepsNext, Step.next?]

/-- A parameter is read up to the end of its type. -/
theorem termEntry_after?_param (start : Nat) (previous : List (Ident × Ty))
    (frames : List TermFrame) (param : ParamTree) :
    ∃ reading, reading.Ends param.type.phrase [] ∧
      termEntry.after? (.param start previous frames) param.tokens =
        some (.paramType start previous param.ident reading frames) := by
  obtain ⟨reading, readType, ends⟩ := param.type.read []
  refine ⟨reading, ends, ?_⟩
  have named : termEntry.step? (.param start previous frames) param.ident.token =
      some (.paramColon start previous param.ident frames) := rfl
  have opened : termEntry.step? (.paramColon start previous param.ident frames)
      (Symbol.colon.token param.colon) =
        some (.paramType start previous param.ident (.type []) frames) := rfl
  rw [ParamTree.tokens, EntryPoint.after?_cons_of_some named,
    EntryPoint.after?_cons_of_some opened]
  exact EntryPoint.after?_embed (TermReading.paramType start previous param.ident · frames)
    (termEntry_step?_paramType start previous param.ident frames) readType

/-- The parameters of an abstraction are read with the dot that ends them. -/
theorem termEntry_after?_params (start : Nat) (frames : List TermFrame)
    (params : CommaList ParamTree) (dot : Span) :
    termEntry.after? (.param start [] frames)
        (params.tokens ParamTree.tokens ++ [Symbol.dot.token dot]) =
      some (.term (.lam start (params.items.map ParamTree.value) :: frames)) := by
  refine termEntry.after?_commaList ParamTree.value (.param start · frames)
    (fun params => .term (.lam start params :: frames)) ?comma ?last params
  case comma =>
    intro previous param span
    obtain ⟨reading, ends, readParam⟩ := termEntry_after?_param start previous frames param
    have finished : reading.step (Symbol.comma.token span) = .finished param.type.phrase :=
      ends.step_finished rfl
    rw [EntryPoint.after?_append_of_some readParam, EntryPoint.after?_cons]
    simp only [termEntry, TermReading.step, finished]
    rfl
  case last =>
    intro previous param
    obtain ⟨reading, ends, readParam⟩ := termEntry_after?_param start previous frames param
    have finished : reading.step (Symbol.dot.token dot) = .finished param.type.phrase :=
      ends.step_finished rfl
    rw [EntryPoint.after?_append_of_some readParam, EntryPoint.after?_cons]
    simp only [termEntry, TermReading.step, finished]
    rfl

/-- A function that has been read is applied to a type in brackets. -/
theorem termEntry_after?_tyArgument (function : Phrase Term) (frames : List TermFrame)
    (openBracket : Span) (argument : TypeTree .type) (closeBracket : Span) :
    termEntry.after? (.ended function true frames) (Symbol.openBracket.token openBracket ::
        (argument.tokens ++ [Symbol.closeBracket.token closeBracket])) =
      some (.ended (tyApplyPhrase function argument.phrase.value closeBracket.stop) true
        frames) := by
  obtain ⟨reading, readType, ends⟩ := argument.read []
  have opened : termEntry.step? (.ended function true frames)
      (Symbol.openBracket.token openBracket) = some (.tyArgument function (.type []) frames) := rfl
  have readArgument := EntryPoint.after?_embed (TermReading.tyArgument function · frames)
    (termEntry_step?_tyArgument function frames) readType
  have finished : reading.step (Symbol.closeBracket.token closeBracket) =
      .finished argument.phrase := ends.step_finished rfl
  rw [EntryPoint.after?_cons_of_some opened, EntryPoint.after?_append_of_some readArgument,
    EntryPoint.after?_cons]
  simp only [termEntry, TermReading.step, finished]
  rfl

/-- How the tokens of a term are read. Those of an atom are read as the head of an
application and also as its argument, those of an application up to its end, and those of a
whole term up to the end of its last application. -/
def TermTree.Read : {level : TermLevel} → TermTree level → Prop
  | .atom, tree =>
    (∀ frames, termEntry.after? (.term frames) tree.tokens =
      some (.ended tree.phrase true frames)) ∧
    ∀ function frames, termEntry.after? (.ended function true frames) tree.tokens =
      some (.ended (applyPhrase function tree.phrase.value tree.phrase.extent.stop) true frames)
  | .application, tree => ∀ frames,
    termEntry.after? (.term frames) tree.tokens = some (.ended tree.phrase true frames)
  | .term, tree => ∀ frames, ∃ reading,
    termEntry.after? (.term frames) tree.tokens = some reading ∧ reading.Ends tree.phrase frames

/-- The tokens of a term are read to their end, at every level of the grammar. -/
theorem TermTree.read {level : TermLevel} (tree : TermTree level) : tree.Read := by
  -- As for types, with the abstractions as frames. An application is read from the left, so
  -- its argument starts where its function has ended.
  induction tree with
  | lam spelling keyword params dot body bodyIH =>
      intro frames
      obtain ⟨reading, readBody, ends⟩ :=
        bodyIH (.lam keyword.start (params.items.map ParamTree.value) :: frames)
      refine ⟨reading, ?_, ends⟩
      rw [TermTree.tokens,
        EntryPoint.after?_cons_of_some (termEntry_step?_lambda frames spelling keyword),
        EntryPoint.after?_append_of_some (termEntry_after?_params keyword.start frames params dot)]
      exact readBody
  | tyLam spelling keyword params dot body bodyIH =>
      intro frames
      obtain ⟨reading, readBody, ends⟩ := bodyIH (.tyLam keyword.start params.items :: frames)
      refine ⟨reading, ?_, ends⟩
      rw [TermTree.tokens,
        EntryPoint.after?_cons_of_some (termEntry_step?_bigLambda frames spelling keyword),
        EntryPoint.after?_append_of_some
          (termEntry_after?_tyParams keyword.start frames params dot)]
      exact readBody
  | application inner innerIH => exact fun frames => ⟨_, innerIH frames, .ofEnded _ _⟩
  | app function argument functionIH argumentIH =>
      intro frames
      rw [TermTree.tokens, EntryPoint.after?_append_of_some (functionIH frames)]
      exact argumentIH.2 function.phrase frames
  | tyApp function openBracket argument closeBracket functionIH =>
      intro frames
      rw [TermTree.tokens, EntryPoint.after?_append_of_some (functionIH frames)]
      exact termEntry_after?_tyArgument function.phrase frames openBracket argument closeBracket
  | atom inner innerIH => exact innerIH.1
  | name ident => exact ⟨fun frames => rfl, fun function frames => rfl⟩
  | group openParen inner closeParen innerIH =>
      constructor
      · intro frames
        obtain ⟨reading, readInner, ends⟩ := innerIH (.group openParen.start :: frames)
        have opened : termEntry.step? (.term frames) (Symbol.openParen.token openParen) =
            some (.term (.group openParen.start :: frames)) := rfl
        rw [TermTree.tokens, EntryPoint.after?_cons_of_some opened,
          EntryPoint.after?_append_of_some readInner,
          EntryPoint.after?_cons_of_some (ends.step_closeParen rfl closeParen)]
        rfl
      · intro function frames
        obtain ⟨reading, readInner, ends⟩ := innerIH (.argument function :: frames)
        have opened : termEntry.step? (.ended function true frames)
            (Symbol.openParen.token openParen) = some (.term (.argument function :: frames)) := rfl
        rw [TermTree.tokens, EntryPoint.after?_cons_of_some opened,
          EntryPoint.after?_append_of_some readInner,
          EntryPoint.after?_cons_of_some (ends.step_closeParen rfl closeParen)]
        rfl

/-- After a whole term, a semicolon is left to what surrounds the term. -/
theorem TermReading.Ends.step_semicolon {reading : TermReading} {phrase : Phrase Term}
    (ends : reading.Ends phrase []) (span : Span) :
    reading.step (Symbol.semicolon.token span) = .finished phrase := by
  obtain ⟨last, inner, rfl, closes⟩ := ends
  simp [step, extend, leave, closes, closeTerm, Symbol.token]

/-! ## Statements -/

/-- All of a statement has been read: it is complete at the end of the input and in front of
a semicolon. -/
structure StatementReading.Ends (reading : StatementReading) (statement : Statement) : Prop where
  finish? : reading.finish? = some statement
  step_semicolon : ∀ span, reading.step (Symbol.semicolon.token span) = .finished statement

/-- A reading that ends in a statement has begun one. -/
theorem StatementReading.Ends.ne_statement {reading : StatementReading} {statement : Statement}
    (ends : reading.Ends statement) : reading ≠ .statement := by
  rintro rfl
  cases ends.finish?

/-- A step of a type is a step of the statement that ends in it. -/
theorem statementEntry_step?_type (start : Nat) (ident : Ident) (announced : Bool)
    {reading next : TypeReading} {token : Token}
    (stepped : typeEntry.step? reading token = some next) :
    statementEntry.step? (.type start ident announced reading) token =
      some (.type start ident announced next) := by
  have stepsNext : reading.step token = .next next := Step.next?_eq_some_iff.mp stepped
  simp [statementEntry, StatementReading.step, stepsNext, Step.next?]

/-- A step of a term is a step of the statement that ends in it. -/
theorem statementEntry_step?_term (start : Nat) (form : TermForm) {reading next : TermReading}
    {token : Token} (stepped : termEntry.step? reading token = some next) :
    statementEntry.step? (.term start form reading) token = some (.term start form next) := by
  have stepsNext : reading.step token = .next next := Step.next?_eq_some_iff.mp stepped
  simp [statementEntry, StatementReading.step, stepsNext, Step.next?]

/-- The type of a statement is read to its end. -/
theorem statementEntry_after?_type (start : Nat) (ident : Ident) (announced : Bool)
    (type : TypeTree .type) :
    ∃ reading, reading.Ends type.phrase [] ∧
      statementEntry.after? (.type start ident announced (.type [])) type.tokens =
        some (.type start ident announced reading) := by
  obtain ⟨reading, readType, ends⟩ := type.read []
  exact ⟨reading, ends, EntryPoint.after?_embed (StatementReading.type start ident announced)
    (statementEntry_step?_type start ident announced) readType⟩

/-- The final term of a statement is read to the end of the statement. -/
theorem statementEntry_after?_term (start : Nat) (form : TermForm) (term : TermTree .term) :
    ∃ reading, statementEntry.after? (.term start form (.term [])) term.tokens = some reading ∧
      reading.Ends ⟨⟨start, term.phrase.extent.stop⟩, form.command term.phrase.value⟩ := by
  obtain ⟨reading, readTerm, ends⟩ := term.read []
  refine ⟨.term start form reading, EntryPoint.after?_embed (StatementReading.term start form)
    (statementEntry_step?_term start form) readTerm, ?_, fun span => ?_⟩
  · simp [StatementReading.finish?, ends.finish?]
  · simp [StatementReading.step, ends.step_semicolon span]

/-- The tokens of a statement are read to a reading that ends in it. -/
theorem StatementTree.read (tree : StatementTree) :
    ∃ reading, statementEntry.after? .statement tree.tokens = some reading ∧
      reading.Ends tree.value := by
  cases tree with
  | assumeType keyword name => exact ⟨_, rfl, rfl, fun _ => rfl⟩
  | assumeTerm word keyword name colon type =>
      obtain ⟨reading, ends, readType⟩ :=
        statementEntry_after?_type keyword.start name false type
      refine ⟨.type keyword.start name false reading, ?_, ?_, fun span => ?_⟩
      · cases word <;> exact readType
      · simp [StatementReading.finish?, ends.finish?, StatementTree.value]
      · have finished : reading.step (Symbol.semicolon.token span) = .finished type.phrase :=
          ends.step_finished rfl
        simp [StatementReading.step, finished, StatementTree.value]
  | announce word keyword name colon type equals term =>
      obtain ⟨reading, ends, readType⟩ := statementEntry_after?_type keyword.start name true type
      obtain ⟨final, readTerm, ended⟩ :=
        statementEntry_after?_term keyword.start (.define name (some type.phrase.value)) term
      refine ⟨final, ?_, ended⟩
      have finished : reading.step (Symbol.equals.token equals) = .finished type.phrase :=
        ends.step_finished rfl
      have fromType : statementEntry.after? (.type keyword.start name true (.type []))
          (type.tokens ++ Symbol.equals.token equals :: term.tokens) = some final := by
        rw [EntryPoint.after?_append_of_some readType, EntryPoint.after?_cons]
        simp only [statementEntry, StatementReading.step, finished]
        exact readTerm
      cases word <;> exact fromType
  | define keyword name equals term =>
      exact statementEntry_after?_term keyword.start (.define name none) term
  | reduce keyword term => exact statementEntry_after?_term keyword.start .reduce term
  | print keyword name => exact ⟨_, rfl, rfl, fun _ => rfl⟩
  | clear keyword => exact ⟨_, rfl, rfl, fun _ => rfl⟩

/-! ## Programs -/

/-- A step of a statement is a step of the program around it. -/
theorem programEntry_step?_statement (previous : List Statement) {reading next : StatementReading}
    {token : Token} (stepped : statementEntry.step? reading token = some next) :
    programEntry.step? ⟨previous, reading⟩ token = some ⟨previous, next⟩ := by
  have stepsNext : reading.step token = .next next := Step.next?_eq_some_iff.mp stepped
  have begins : ¬ (reading = .statement ∧ token.lexeme = .symbol .semicolon) := by
    rintro ⟨rfl, isSemicolon⟩
    simp [StatementReading.step, StatementReading.begin?, isSemicolon] at stepsNext
  simp [programEntry, ProgramReading.step?, begins, stepsNext]

/-- A statement that may be missing is read with the semicolon after it. -/
theorem programEntry_after?_statement (previous : List Statement)
    (statement : Option StatementTree) (semicolon : Span) :
    programEntry.after? ⟨previous, .statement⟩
        (statement.elim [] StatementTree.tokens ++ [Symbol.semicolon.token semicolon]) =
      some ⟨previous ++ (statement.map StatementTree.value).toList, .statement⟩ := by
  cases statement with
  | none => simp [EntryPoint.after?_cons, programEntry, ProgramReading.step?, Symbol.token]
  | some tree =>
      obtain ⟨reading, readTree, ends⟩ := tree.read
      have readStatement := EntryPoint.after?_embed (ProgramReading.mk previous)
        (programEntry_step?_statement previous) readTree
      rw [Option.elim_some, EntryPoint.after?_append_of_some readStatement, EntryPoint.after?_cons]
      simp only [programEntry, ProgramReading.step?, ends.ne_statement, false_and, if_false,
        ends.step_semicolon]
      rfl

/-- The tokens of a program are read to a reading that has its statements. -/
theorem ProgramTree.read (tree : ProgramTree) :
    ∃ reading, programEntry.after? programEntry.start tree.tokens = some reading ∧
      programEntry.finish? reading = some tree.value := by
  -- The statements before the current one are part of the reading.
  suffices fromPrevious : ∀ previous, ∃ reading,
      programEntry.after? ⟨previous, .statement⟩ tree.tokens = some reading ∧
        programEntry.finish? reading = some (previous ++ tree.value) from fromPrevious []
  induction tree with
  | last statement =>
      intro previous
      cases statement with
      | none => exact ⟨_, rfl, by simp [programEntry, ProgramReading.finish?, ProgramTree.value]⟩
      | some tree =>
          obtain ⟨reading, readTree, ends⟩ := tree.read
          refine ⟨_, EntryPoint.after?_embed (ProgramReading.mk previous)
            (programEntry_step?_statement previous) readTree, ?_⟩
          simp [programEntry, ProgramReading.finish?, ends.ne_statement, ends.finish?,
            ProgramTree.value]
  | cons statement semicolon rest restIH =>
      intro previous
      obtain ⟨reading, readRest, finished⟩ :=
        restIH (previous ++ (statement.map StatementTree.value).toList)
      refine ⟨reading, ?_, by simpa [ProgramTree.value] using finished⟩
      have readPrevious := programEntry_after?_statement previous statement semicolon
      rw [ProgramTree.tokens, List.append_cons, EntryPoint.after?_append_of_some readPrevious]
      exact readRest

/-! ## Whole texts -/

/-- Reading the tokens of a type gives the type. -/
theorem TypeTree.readFrom (tree : TypeTree .type) (offset : Nat) :
    typeEntry.readFrom none typeEntry.start offset tree.tokens = .ok tree.phrase.value := by
  obtain ⟨reading, readTree, ends⟩ := tree.read []
  refine EntryPoint.readFrom_eq_ok_iff.mpr ⟨reading, readTree, ?_⟩
  simp [typeEntry, ends.finish?]

/-- Reading the tokens of a term gives the term. -/
theorem TermTree.readFrom (tree : TermTree .term) (offset : Nat) :
    termEntry.readFrom none termEntry.start offset tree.tokens = .ok tree.phrase.value := by
  obtain ⟨reading, readTree, ends⟩ := tree.read []
  refine EntryPoint.readFrom_eq_ok_iff.mpr ⟨reading, readTree, ?_⟩
  simp [termEntry, ends.finish?]

end PolyLambda.Grammar
