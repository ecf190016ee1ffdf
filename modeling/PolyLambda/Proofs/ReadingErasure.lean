import PolyLambda.Proofs.SpanErasure

/-!
# Reading without spans

Whether a token can be read, and what becomes of a reading, depends on lexemes only. A
reading of tokens without spans goes through the readings of the tokens themselves,
without spans, and ends in the same value or the same syntax error up to spans.
-/

namespace PolyLambda

namespace Named

/-- Forgetting the spans of nested quantifiers forgets them in each binder and in the body. -/
theorem Ty.bare_allMany (span : Span) (params : List Ident) (body : Ty) :
    (Ty.allMany span params body).bare =
      Ty.allMany default (params.map Ident.bare) body.bare := by
  induction params with
  | nil => rfl
  | cons param rest restIH =>
      simp only [Ty.allMany, List.foldr_cons, List.map_cons, Ty.bare] at restIH ⊢
      rw [restIH]

/-- A parameter with its type, without spans. -/
def bareParam (param : Ident × Ty) : Ident × Ty :=
  (param.1.bare, param.2.bare)

/-- Forgetting the spans of nested functions forgets them in each parameter and in the body. -/
theorem Term.bare_lamMany (span : Span) (params : List (Ident × Ty)) (body : Term) :
    (Term.lamMany span params body).bare =
      Term.lamMany default (params.map bareParam) body.bare := by
  induction params with
  | nil => rfl
  | cons param rest restIH =>
      simp only [Term.lamMany, List.foldr_cons, List.map_cons, Term.bare, bareParam] at restIH ⊢
      rw [restIH]

/-- Forgetting the spans of nested polymorphic functions forgets them in each binder and in the
body. -/
theorem Term.bare_tyLamMany (span : Span) (params : List Ident) (body : Term) :
    (Term.tyLamMany span params body).bare =
      Term.tyLamMany default (params.map Ident.bare) body.bare := by
  induction params with
  | nil => rfl
  | cons param rest restIH =>
      simp only [Term.tyLamMany, List.foldr_cons, List.map_cons, Term.bare] at restIH ⊢
      rw [restIH]

end Named

namespace Grammar

open PolyLambda.Named

/-- A token without its place. -/
def Token.bare (token : Token) : Token :=
  ⟨token.lexeme, default⟩

@[simp] theorem Token.lexeme_bare (token : Token) : token.bare.lexeme = token.lexeme := rfl

/-- A phrase without spans, given how its value loses them. -/
def Phrase.bare {α : Type} (bareValue : α → α) (phrase : Phrase α) : Phrase α :=
  ⟨bareValue phrase.value, default⟩

/-- A step with its reading and its value mapped. -/
def Step.map {ρ ρ' α α' : Type} (onReading : ρ → ρ') (onValue : α → α') : Step ρ α → Step ρ' α'
  | .next reading => .next (onReading reading)
  | .finished value => .finished (onValue value)
  | .refused => .refused

/-! ## Types -/

/-- A frame without spans. -/
def TypeFrame.bare : TypeFrame → TypeFrame
  | arrow _ domain => arrow 0 domain.bare
  | quantifier _ params => quantifier 0 (params.map Ident.bare)
  | group _ => group 0

/-- A reading without spans. -/
def TypeReading.bare : TypeReading → TypeReading
  | type frames => type (frames.map TypeFrame.bare)
  | binder _ params frames => binder 0 (params.map Ident.bare) (frames.map TypeFrame.bare)
  | binders _ params frames => binders 0 (params.map Ident.bare) (frames.map TypeFrame.bare)
  | ended phrase extensible frames =>
    ended (phrase.bare Ty.bare) extensible (frames.map TypeFrame.bare)

/-- Closing the arrows around a type does not depend on spans. -/
theorem closeType_bare (phrase : Phrase Ty) (frames : List TypeFrame) :
    closeType (phrase.bare Ty.bare) (frames.map TypeFrame.bare) =
      Prod.map (Phrase.bare Ty.bare)
        (Option.map (Prod.map (fun _ => 0) (List.map TypeFrame.bare)))
        (closeType phrase frames) := by
  induction frames generalizing phrase with
  | nil => rfl
  | cons frame frames framesIH =>
      cases frame with
      | group start => rfl
      | arrow start domain => exact framesIH ⟨.arrow _ domain phrase.value, _⟩
      | quantifier start params =>
          have closed := framesIH ⟨Ty.allMany ⟨start, phrase.extent.stop⟩ params phrase.value,
            ⟨start, phrase.extent.stop⟩⟩
          simp only [Phrase.bare, Ty.bare_allMany] at closed
          exact closed

namespace TypeReading

/-- Whether a token ends a type, and what is left then, does not depend on spans. -/
theorem leave_bare (phrase : Phrase Ty) (frames : List TypeFrame) (token : Token) :
    leave (phrase.bare Ty.bare) (frames.map TypeFrame.bare) token.bare =
      (leave phrase frames token).map bare (Phrase.bare Ty.bare) := by
  rw [leave, leave, closeType_bare]
  obtain ⟨inner, _ | ⟨start, outer⟩⟩ := closeType phrase frames
  · rfl
  · by_cases closes : token.lexeme = .symbol .closeParen
    · simp only [Prod.map_apply, Option.map_some, Token.lexeme_bare, closes, if_true]
      rfl
    · simp only [Prod.map_apply, Option.map_some, Token.lexeme_bare, closes, if_false]
      rfl

/-- Reading a token does not depend on spans. -/
theorem step_bare (reading : TypeReading) (token : Token) :
    reading.bare.step token.bare = (reading.step token).map bare (Phrase.bare Ty.bare) := by
  cases reading with
  | type frames =>
      simp only [bare, step, Token.bare]
      split <;> rfl
  | binder start params frames =>
      simp only [bare, step, Token.bare]
      split
      · simp only [Step.map, bare, List.map_append]
        rfl
      · rfl
  | binders start params frames =>
      simp only [bare, step, Token.bare]
      split <;> rfl
  | ended phrase extensible frames =>
      by_cases continues : (extensible && token.lexeme.isArrow) = true
      · simp only [bare, step, Token.lexeme_bare, continues, if_true]
        rfl
      · simp only [bare, step, Token.lexeme_bare, continues]
        exact leave_bare phrase frames token

/-- The type that a reading has at the end of the text does not depend on spans. -/
theorem finish?_bare (reading : TypeReading) :
    reading.bare.finish? = reading.finish?.map (Phrase.bare Ty.bare) := by
  cases reading with
  | type | binder | binders => rfl
  | ended phrase extensible frames =>
      simp only [bare, finish?, closeType_bare]
      obtain ⟨inner, _ | ⟨start, outer⟩⟩ := closeType phrase frames <;> rfl

/-- Settling the reading of a type does not depend on spans. -/
theorem settle_bare (reading : TypeReading) : reading.bare.settle = reading.settle.bare := by
  cases reading <;> rfl

end TypeReading

/-! ## Terms -/

/-- A frame without spans. -/
def TermFrame.bare : TermFrame → TermFrame
  | lam _ params => lam 0 (params.map bareParam)
  | tyLam _ params => tyLam 0 (params.map Ident.bare)
  | group _ => group 0
  | argument function => argument (function.bare Term.bare)

/-- An open parenthesis without spans. -/
def TermGroup.bare : TermGroup → TermGroup
  | head _ => head 0
  | argument function => argument (function.bare Term.bare)

/-- A reading without spans. -/
def TermReading.bare : TermReading → TermReading
  | term frames => term (frames.map TermFrame.bare)
  | param _ params frames => param 0 (params.map bareParam) (frames.map TermFrame.bare)
  | paramColon _ params name frames =>
    paramColon 0 (params.map bareParam) name.bare (frames.map TermFrame.bare)
  | paramType _ params name reading frames =>
    paramType 0 (params.map bareParam) name.bare reading.bare (frames.map TermFrame.bare)
  | tyParam _ params frames => tyParam 0 (params.map Ident.bare) (frames.map TermFrame.bare)
  | tyParams _ params frames => tyParams 0 (params.map Ident.bare) (frames.map TermFrame.bare)
  | ended phrase extensible frames =>
    ended (phrase.bare Term.bare) extensible (frames.map TermFrame.bare)
  | tyArgument function reading frames =>
    tyArgument (function.bare Term.bare) reading.bare (frames.map TermFrame.bare)

/-- Closing the functions around a term does not depend on spans. -/
theorem closeTerm_bare (phrase : Phrase Term) (frames : List TermFrame) :
    closeTerm (phrase.bare Term.bare) (frames.map TermFrame.bare) =
      Prod.map (Phrase.bare Term.bare)
        (Option.map (Prod.map TermGroup.bare (List.map TermFrame.bare)))
        (closeTerm phrase frames) := by
  induction frames generalizing phrase with
  | nil => rfl
  | cons frame frames framesIH =>
      cases frame with
      | group | argument => rfl
      | lam start params =>
          have closed := framesIH ⟨Term.lamMany ⟨start, phrase.extent.stop⟩ params phrase.value,
            ⟨start, phrase.extent.stop⟩⟩
          simp only [Phrase.bare, Term.bare_lamMany] at closed
          exact closed
      | tyLam start params =>
          have closed := framesIH ⟨Term.tyLamMany ⟨start, phrase.extent.stop⟩ params phrase.value,
            ⟨start, phrase.extent.stop⟩⟩
          simp only [Phrase.bare, Term.bare_tyLamMany] at closed
          exact closed

/-- Closing a pair of parentheses around a term does not depend on spans. -/
theorem TermGroup.close_bare (group : TermGroup) (content : Term) (stop : Nat) :
    group.bare.close content.bare 0 = (group.close content stop).bare Term.bare := by
  cases group <;> rfl

namespace TermReading

/-- Whether a token ends a term, and what is left then, does not depend on spans. -/
theorem leave_bare (phrase : Phrase Term) (frames : List TermFrame) (token : Token) :
    leave (phrase.bare Term.bare) (frames.map TermFrame.bare) token.bare =
      (leave phrase frames token).map bare (Phrase.bare Term.bare) := by
  rw [leave, leave, closeTerm_bare]
  obtain ⟨inner, _ | ⟨group, outer⟩⟩ := closeTerm phrase frames
  · rfl
  · have closes := group.close_bare inner.value token.span.stop
    by_cases ends : token.lexeme = .symbol .closeParen
    · simp only [Prod.map_apply, Option.map_some, Token.lexeme_bare, ends, if_true]
      exact congrArg (fun phrase => Step.next (ended phrase true _)) closes
    · simp only [Prod.map_apply, Option.map_some, Token.lexeme_bare, ends, if_false]
      rfl

/-- Whether a token goes on with an application does not depend on spans. -/
theorem extend_bare (phrase : Phrase Term) (frames : List TermFrame) (token : Token) :
    extend (phrase.bare Term.bare) (frames.map TermFrame.bare) token.bare =
      (extend phrase frames token).map bare (Phrase.bare Term.bare) := by
  have left := leave_bare phrase frames token
  simp only [extend, Token.bare] at left ⊢
  split <;> first | rfl | exact left

/-- Reading a token does not depend on spans. -/
theorem step_bare (reading : TermReading) (token : Token) :
    reading.bare.step token.bare = (reading.step token).map bare (Phrase.bare Term.bare) := by
  cases reading with
  | term frames =>
      simp only [bare, step, Token.bare]
      split <;> rfl
  | param start params frames | paramColon start params name frames
  | tyParams start params frames =>
      simp only [bare, step, Token.bare]
      split <;> rfl
  | tyParam start params frames =>
      simp only [bare, step, Token.bare]
      split
      · simp only [Step.map, bare, List.map_append]
        rfl
      · rfl
  | paramType start params name reading frames =>
      simp only [bare, step, reading.step_bare token]
      cases reading.step token with
      | next | refused => rfl
      | finished ty =>
          simp only [Step.map, Token.bare]
          split <;> simp [bare, TermFrame.bare, bareParam, Phrase.bare]
  | ended phrase extensible frames =>
      simp only [bare, step]
      split
      · exact extend_bare phrase frames token
      · exact leave_bare phrase frames token
  | tyArgument function reading frames =>
      simp only [bare, step, reading.step_bare token]
      cases reading.step token with
      | next | refused => rfl
      | finished ty =>
          simp only [Step.map, Token.bare]
          split <;> rfl

/-- The term that a reading has at the end of the text does not depend on spans. -/
theorem finish?_bare (reading : TermReading) :
    reading.bare.finish? = reading.finish?.map (Phrase.bare Term.bare) := by
  cases reading with
  | ended phrase extensible frames =>
      simp only [bare, finish?, closeTerm_bare]
      obtain ⟨inner, _ | ⟨group, outer⟩⟩ := closeTerm phrase frames <;> rfl
  | _ => rfl

/-- Settling a reading as a term does not depend on spans. -/
theorem settleTerm_bare (reading : TermReading) :
    reading.bare.settleTerm = reading.settleTerm.bare := by
  cases reading <;> rfl

/-- Settling a type inside the reading of a term does not depend on spans. -/
theorem settleType_bare (reading : TermReading) :
    reading.bare.settleType = reading.settleType.bare := by
  cases reading <;> simp [bare, settleType, TypeReading.settle_bare]

end TermReading

/-! ## Statements and programs -/

/-- A form without spans. -/
def TermForm.bare : TermForm → TermForm
  | define name expected => define name.bare (expected.map Ty.bare)
  | reduce => reduce

/-- A reading without spans. -/
def StatementReading.bare : StatementReading → StatementReading
  | statement => statement
  | name _ form => name 0 form
  | colon _ ident announced => colon 0 ident.bare announced
  | type _ ident announced reading => type 0 ident.bare announced reading.bare
  | equals _ ident => equals 0 ident.bare
  | term _ form reading => term 0 form.bare reading.bare
  | ended whole => ended whole.bare

/-- The command that is made from a term does not depend on spans. -/
theorem TermForm.command_bare (form : TermForm) (term : Term) :
    form.bare.command term.bare = (form.command term).bare := by
  cases form <;> rfl

namespace StatementReading

/-- Forgetting spans neither makes nor hides a statement that has not begun. -/
theorem bare_eq_statement_iff (reading : StatementReading) :
    reading.bare = statement ↔ reading = statement := by
  cases reading <;> simp [bare]

/-- The kind of statement that a token begins does not depend on spans. -/
theorem begin?_bare (token : Token) : begin? token.bare = (begin? token).map bare := by
  simp only [begin?, Token.bare]
  split <;> rfl

/-- What follows the name in a statement does not depend on spans. -/
theorem afterName_bare (start : Nat) (form : NamedForm) (ident : Ident) :
    afterName 0 form ident.bare = (afterName start form ident).bare := by
  cases form <;> rfl

/-- Reading a token does not depend on spans. -/
theorem step_bare (reading : StatementReading) (token : Token) :
    reading.bare.step token.bare = (reading.step token).map bare Statement.bare := by
  cases reading with
  | statement =>
      simp only [bare, step, begin?_bare]
      cases begin? token <;> rfl
  | name start form =>
      simp only [bare, step, Token.bare]
      split
      · next text _ => exact congrArg Step.next (afterName_bare start form ⟨token.span, text⟩)
      · rfl
  | colon start ident announced | equals start ident =>
      simp only [bare, step, Token.bare]
      split <;> rfl
  | type start ident announced reading =>
      simp only [bare, step, reading.step_bare token]
      cases reading.step token with
      | next | refused => rfl
      | finished ty =>
          simp only [Step.map, Token.bare]
          split
          · split <;> rfl
          · rfl
  | term start form reading =>
      simp only [bare, step, reading.step_bare token]
      cases reading.step token with
      | next | refused => rfl
      | finished body =>
          simp only [Step.map, Phrase.bare, TermForm.command_bare]
          rfl
  | ended whole => rfl

/-- The statement that a reading has at the end of the text does not depend on spans. -/
theorem finish?_bare (reading : StatementReading) :
    reading.bare.finish? = reading.finish?.map Statement.bare := by
  cases reading with
  | type start ident announced reading =>
      cases announced with
      | true => rfl
      | false =>
          simp only [bare, finish?, reading.finish?_bare]
          cases reading.finish? <;> rfl
  | term start form reading =>
      simp only [bare, finish?, reading.finish?_bare]
      cases reading.finish? with
      | none => rfl
      | some body =>
          simp only [Option.map_some, Phrase.bare, TermForm.command_bare]
          rfl
  | _ => rfl

/-- Settling a statement that ends in a term does not depend on spans. -/
theorem settleTerm_bare (reading : StatementReading) :
    reading.bare.settleTerm = reading.settleTerm.bare := by
  cases reading <;> simp [bare, settleTerm, TermReading.settleTerm_bare]

/-- Settling a statement that ends in a type does not depend on spans. -/
theorem settleType_bare (reading : StatementReading) :
    reading.bare.settleType = reading.settleType.bare := by
  cases reading <;>
    simp [bare, settleType, TypeReading.settle_bare, TermReading.settleType_bare]

end StatementReading

/-- A reading without spans. -/
def ProgramReading.bare (reading : ProgramReading) : ProgramReading :=
  ⟨reading.statements.map Statement.bare, reading.current.bare⟩

namespace ProgramReading

/-- Reading a token does not depend on spans. -/
theorem step?_bare (reading : ProgramReading) (token : Token) :
    reading.bare.step? token.bare = (reading.step? token).map bare := by
  obtain ⟨statements, current⟩ := reading
  simp only [bare, step?, current.bare_eq_statement_iff, current.step_bare token,
    Token.lexeme_bare]
  by_cases empty : current = .statement ∧ token.lexeme = .symbol .semicolon
  · simp only [empty, if_true]
    rfl
  · simp only [empty, if_false]
    cases current.step token with
    | next | refused => rfl
    | finished statement =>
        simp only [Step.map]
        by_cases ends : token.lexeme = .symbol .semicolon
        · simp [ends, bare, StatementReading.bare]
        · simp [ends]

/-- The statements that a reading has at the end of the text do not depend on spans. -/
theorem finish?_bare (reading : ProgramReading) :
    reading.bare.finish? = reading.finish?.map (List.map Statement.bare) := by
  obtain ⟨statements, current⟩ := reading
  simp only [bare, finish?, current.bare_eq_statement_iff, current.finish?_bare]
  split
  · rfl
  · cases current.finish? <;> simp

end ProgramReading

/-! ## Entry points -/

namespace EntryPoint

/-- An entry point does not look at spans: without them it goes through the same
readings, without theirs. -/
structure IgnoresSpans {ρ α : Type} (entry : EntryPoint ρ α) (bareReading : ρ → ρ)
    (bareValue : α → α) : Prop where
  step? : ∀ reading token,
    entry.step? (bareReading reading) token.bare = (entry.step? reading token).map bareReading
  finish? : ∀ reading, entry.finish? (bareReading reading) = (entry.finish? reading).map bareValue
  settleType : ∀ reading,
    entry.settleType (bareReading reading) = bareReading (entry.settleType reading)
  settleTerm : ∀ reading,
    entry.settleTerm (bareReading reading) = bareReading (entry.settleTerm reading)

namespace IgnoresSpans

variable {ρ α : Type} {entry : EntryPoint ρ α} {bareReading : ρ → ρ} {bareValue : α → α}

/-- Where the steps of an entry point ignore spans, settling in front of a token does. -/
theorem settle (ignores : entry.IgnoresSpans bareReading bareValue) (next : Option Terminal)
    (reading : ρ) :
    entry.settle next (bareReading reading) = bareReading (entry.settle next reading) := by
  simp only [EntryPoint.settle]
  split <;> split <;> simp only [ignores.settleType, ignores.settleTerm]

/-- Where the steps of an entry point ignore spans, what it accepts does. -/
theorem accepts (ignores : entry.IgnoresSpans bareReading bareValue) (reading : ρ)
    (terminal : Terminal) :
    entry.accepts (bareReading reading) terminal = entry.accepts reading terminal := by
  have stepped := ignores.step? reading ⟨terminal.sample, default⟩
  simp only [Token.bare] at stepped
  simp only [EntryPoint.accepts, stepped, Option.isSome_map]

/-- Where the steps of an entry point ignore spans, what it expects does. -/
theorem expected (ignores : entry.IgnoresSpans bareReading bareValue) (reading : ρ)
    (next : Option Terminal) :
    entry.expected (bareReading reading) next = entry.expected reading next := by
  simp only [EntryPoint.expected, ignores.settle]
  exact List.filter_congr fun terminal _ => ignores.accepts _ terminal

/-- Tokens without spans are read to the same value or the same syntax error, up to spans. -/
theorem readFrom (ignores : entry.IgnoresSpans bareReading bareValue) (reading : ρ)
    (offset : Nat) (tokens : List Token) :
    entry.readFrom none (bareReading reading) 0 (tokens.map Token.bare) =
      mapBoth SyntaxError.bare bareValue (entry.readFrom none reading offset tokens) := by
  induction tokens generalizing reading offset with
  | nil =>
      simp only [List.map_nil, EntryPoint.readFrom, ignores.finish?, ignores.expected]
      cases entry.finish? reading <;> rfl
  | cons token rest restIH =>
      simp only [List.map_cons, EntryPoint.readFrom, ignores.step?, ignores.expected]
      cases entry.step? reading token with
      | none => rfl
      | some stepped => exact restIH stepped token.span.stop

end IgnoresSpans

end EntryPoint

/-- Reading a program ignores spans. -/
theorem programEntry_ignoresSpans :
    programEntry.IgnoresSpans ProgramReading.bare (List.map Statement.bare) where
  step? := ProgramReading.step?_bare
  finish? := ProgramReading.finish?_bare
  settleType reading := by
    simp [programEntry, ProgramReading.bare, StatementReading.settleType_bare]
  settleTerm reading := by
    simp [programEntry, ProgramReading.bare, StatementReading.settleTerm_bare]

end Grammar

end PolyLambda
