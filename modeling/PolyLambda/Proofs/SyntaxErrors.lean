import PolyLambda.Proofs.Terminals
import PolyLambda.Proofs.TokenPlaces
import PolyLambda.Session.Failure

/-!
# Where syntax errors are reported

A text that is not in the language is reported at its first token that no sentence has
there, or at its end. What comes before is the beginning of a sentence, and so it is with
each expected terminal after it. Only a comment that is left open comes first.
-/

namespace PolyLambda.Grammar

open PolyLambda.Named
open PolyLambda.Diagnostic (Element)
open PolyLambda.Source (Masks MaskedText NeverCloses byteLength)

/-! ## Settled readings

A reading that has been settled accepts no more tokens than before, so that the terminals
that a diagnostic lists could really have been read. -/

namespace Step

variable {ρ α : Type}

/-- The step of a settled reading, beside the step that the reading would have made. -/
def SettledFrom (settled original : Step ρ α) : Prop :=
  settled = original ∨ ∃ next, original = .next next

/-- A token that is accepted after settling is accepted before it. -/
theorem SettledFrom.next? {settled original : Step ρ α} (settles : settled.SettledFrom original)
    (accepted : settled.next?.isSome = true) : original.next?.isSome = true := by
  obtain rfl | ⟨next, rfl⟩ := settles
  · exact accepted
  · rfl

end Step

/-- Settling a type leaves only steps that were possible before. -/
theorem TypeReading.settle_step (reading : TypeReading) (token : Token) :
    (reading.settle.step token).SettledFrom (reading.step token) := by
  cases reading with
  | ended phrase extensible frames =>
      by_cases isArrow : (extensible && token.lexeme.isArrow) = true
      · exact .inr ⟨_, if_pos isArrow⟩
      · exact .inl (if_neg isArrow).symm
  | type | binder | binders => exact .inl rfl

namespace TermReading

/-- What ends an application is a step that was possible before it was settled. -/
theorem leave_or_extend (phrase : Phrase Term) (frames : List TermFrame) (token : Token) :
    (leave phrase frames token).SettledFrom (extend phrase frames token) := by
  obtain ⟨lexeme, span⟩ := token
  cases lexeme with
  | name => exact .inr ⟨_, rfl⟩
  | symbol fixed =>
      cases fixed with
      | openParen | openBracket => exact .inr ⟨_, rfl⟩
      | _ => exact .inl rfl

/-- Settling a term leaves only steps that were possible before. -/
theorem settleTerm_step (reading : TermReading) (token : Token) :
    (reading.settleTerm.step token).SettledFrom (reading.step token) := by
  cases reading with
  | ended phrase extensible frames =>
      cases extensible with
      | false => exact .inl rfl
      | true => exact leave_or_extend phrase frames token
  | term | param | paramColon | paramType | tyParam | tyParams | tyArgument => exact .inl rfl

/-- Settling a type inside a term leaves only steps that were possible before. -/
theorem settleType_step (reading : TermReading) (token : Token) :
    (reading.settleType.step token).SettledFrom (reading.step token) := by
  cases reading with
  | paramType start params name reading frames =>
      obtain same | ⟨next, stepped⟩ := reading.settle_step token
      · exact .inl (by simp only [settleType, step, same])
      · exact .inr ⟨paramType start params name next frames, by simp only [step, stepped]⟩
  | tyArgument function reading frames =>
      obtain same | ⟨next, stepped⟩ := reading.settle_step token
      · exact .inl (by simp only [settleType, step, same])
      · exact .inr ⟨tyArgument function next frames, by simp only [step, stepped]⟩
  | term | param | paramColon | tyParam | tyParams | ended => exact .inl rfl

end TermReading

namespace StatementReading

/-- Settling a statement that ends in a term leaves only steps that were possible before. -/
theorem settleTerm_step (reading : StatementReading) (token : Token) :
    (reading.settleTerm.step token).SettledFrom (reading.step token) := by
  cases reading with
  | term start form reading =>
      obtain same | ⟨next, stepped⟩ := reading.settleTerm_step token
      · exact .inl (by simp only [settleTerm, step, same])
      · exact .inr ⟨term start form next, by simp only [step, stepped]⟩
  | statement | name | colon | type | equals | ended => exact .inl rfl

/-- Settling a statement that ends in a type leaves only steps that were possible before. -/
theorem settleType_step (reading : StatementReading) (token : Token) :
    (reading.settleType.step token).SettledFrom (reading.step token) := by
  cases reading with
  | type start ident announced reading =>
      obtain same | ⟨next, stepped⟩ := reading.settle_step token
      · exact .inl (by simp only [settleType, step, same])
      · exact .inr ⟨type start ident announced next, by simp only [step, stepped]⟩
  | term start form reading =>
      obtain same | ⟨next, stepped⟩ := reading.settleType_step token
      · exact .inl (by simp only [settleType, step, same])
      · exact .inr ⟨term start form next, by simp only [step, stepped]⟩
  | statement | name | colon | equals | ended => exact .inl rfl

/-- Settling a term neither makes nor hides a statement that has not begun. -/
theorem settleTerm_eq_statement_iff {reading : StatementReading} :
    reading.settleTerm = .statement ↔ reading = .statement := by
  cases reading <;> simp [settleTerm]

/-- Settling a type neither makes nor hides a statement that has not begun. -/
theorem settleType_eq_statement_iff {reading : StatementReading} :
    reading.settleType = .statement ↔ reading = .statement := by
  cases reading <;> simp [settleType]

end StatementReading

/-- A statement that is read within a program, where a semicolon may end it. -/
theorem ProgramReading.step?_of_settled {statements : List Statement}
    {settled current : StatementReading} {token : Token}
    (begun : settled = .statement ↔ current = .statement)
    (settles : (settled.step token).SettledFrom (current.step token))
    (accepted : (step? ⟨statements, settled⟩ token).isSome = true) :
    (step? ⟨statements, current⟩ token).isSome = true := by
  obtain same | ⟨next, stepped⟩ := settles
  · by_cases between : current = .statement ∧ token.lexeme = .symbol .semicolon
    · simp [step?, between]
    · have betweenSettled : ¬ (settled = .statement ∧ token.lexeme = .symbol .semicolon) := by
        rwa [begun]
      rw [step?, if_neg betweenSettled, same] at accepted
      rw [step?, if_neg between]
      cases stepped : current.step token with
      | next => simp
      | finished =>
          simp only [stepped] at accepted ⊢
          split at accepted <;> simp_all
      | refused => simp [stepped] at accepted
  · rw [step?]
    split
    · rfl
    · simp [stepped]

/-! ## The first error -/

/-- The sample token of a terminal is of this terminal. -/
theorem Terminal.terminal_sample (terminal : Terminal) : terminal.sample.terminal = terminal := by
  cases terminal <;> rfl

namespace EntryPoint

variable {ρ α : Type} {entry : EntryPoint ρ α} {nonterminal : Nonterminal α}

/-- Settling a reading opens no way to go on. -/
structure SettlesSoundly (entry : EntryPoint ρ α) : Prop where
  type : ∀ {reading token}, (entry.step? (entry.settleType reading) token).isSome = true →
    (entry.step? reading token).isSome = true
  term : ∀ {reading token}, (entry.step? (entry.settleTerm reading) token).isSome = true →
    (entry.step? reading token).isSome = true

/-- A token that is accepted after settling in front of a terminal is accepted before it. -/
theorem SettlesSoundly.settle (settles : entry.SettlesSoundly) {next : Option Terminal}
    {reading : ρ} {token : Token}
    (accepted : (entry.step? (entry.settle next reading) token).isSome = true) :
    (entry.step? reading token).isSome = true := by
  unfold EntryPoint.settle at accepted
  dsimp only at accepted
  have typeSettled : (entry.step? (if entry.followers.type.contains next then
      entry.settleType reading else reading) token).isSome = true := by
    split at accepted
    · exact settles.term accepted
    · exact accepted
  split at typeSettled
  · exact settles.type typeSettled
  · exact typeSettled

/-- What stopped the reading of some tokens, and where. -/
inductive Stops (entry : EntryPoint ρ α) (invalid : Option Span) (start : ρ) (offset : Nat)
    (tokens : List Token) : SyntaxError → Prop
  | invalidToken {span : Span} {reading : ρ} (read : entry.after? start tokens = some reading)
      (found : invalid = some span) : Stops entry invalid start offset tokens (.invalidToken span)
  | unexpectedToken (before after : List Token) {token : Token} {reading : ρ}
      (split : tokens = before ++ token :: after)
      (read : entry.after? start before = some reading)
      (refused : entry.step? reading token = none) :
      Stops entry invalid start offset tokens (.unexpectedToken token.lexeme.text token.span
        (entry.expected reading (some token.lexeme.terminal)))
  | unexpectedEnd {reading : ρ} (valid : invalid = none)
      (read : entry.after? start tokens = some reading)
      (unfinished : entry.finish? reading = none) :
      Stops entry invalid start offset tokens
        (.unexpectedEnd ((tokens.getLast?.map (·.span.stop)).getD offset)
          (entry.expected reading none))

/-- A reading that fails stops at a token, at invalid text or at the end. -/
theorem readFrom_stops {invalid : Option Span} {start : ρ} {offset : Nat} {tokens : List Token}
    {error : SyntaxError} (failed : entry.readFrom invalid start offset tokens = .error error) :
    entry.Stops invalid start offset tokens error := by
  induction tokens generalizing start offset with
  | nil =>
      unfold readFrom at failed
      split at failed
      · cases failed
        exact .invalidToken rfl rfl
      · split at failed
        · cases failed
        · next unfinished =>
            cases failed
            exact .unexpectedEnd rfl rfl unfinished
  | cons token tokens tokensIH =>
      rw [readFrom] at failed
      cases stepped : entry.step? start token with
      | none =>
          simp only [stepped] at failed
          cases failed
          exact .unexpectedToken [] tokens rfl rfl stepped
      | some next =>
          simp only [stepped] at failed
          have read := fun more => after?_cons_of_some stepped more
          cases tokensIH failed with
          | invalidToken readRest found => exact .invalidToken ((read _).trans readRest) found
          | unexpectedToken before after split readRest refused =>
              refine .unexpectedToken (token :: before) after ?_ ((read _).trans readRest) refused
              rw [split, List.cons_append]
          | unexpectedEnd valid readRest unfinished =>
              have ended : entry.Stops invalid start offset (token :: tokens) _ :=
                .unexpectedEnd valid ((read _).trans readRest) unfinished
              rw [List.getLast?_cons, Option.map_some, Option.getD_some] at ended
              -- The token just read is the last one if no others follow.
              cases last : tokens.getLast? with
              | none => simpa [last] using ended
              | some => simpa [last] using ended

namespace Follows

variable {tokens : List Token} {reading : ρ}

/-- What has been read is the beginning of a sentence. -/
theorem isViable (follows : entry.Follows nonterminal)
    (read : entry.after? entry.start tokens = some reading) :
    nonterminal.IsViable (tokens.map Token.terminal) := by
  obtain ⟨tree, rest, treeTokens⟩ := follows.viable read
  exact ⟨rest.map Token.terminal, tree, by rw [treeTokens, List.map_append]⟩

/-- With a token that is refused, it is not. -/
theorem not_isViable (follows : entry.Follows nonterminal)
    (sees : ∀ tree, SeesTerminals nonterminal.tokens tree)
    (read : entry.after? entry.start tokens = some reading) {token : Token}
    (refused : entry.step? reading token = none) :
    ¬ nonterminal.IsViable (tokens.map Token.terminal ++ [token.terminal]) := by
  rintro ⟨rest, tree, treeTerminals⟩
  -- The sentence has a tree whose first tokens are the ones that have been read.
  obtain ⟨other, otherTokens⟩ :=
    sees tree (tokens ++ token :: rest.map fun terminal => ⟨terminal.sample, default⟩) (by
      have samples : (rest.map fun terminal => (⟨terminal.sample, default⟩ : Token)).map
          Token.terminal = rest := by
        rw [List.map_map]
        exact (List.map_congr_left fun terminal _ => terminal.terminal_sample).trans rest.map_id
      simp [treeTerminals, samples])
  obtain ⟨final, readAll, -⟩ := follows.complete other
  rw [otherTokens, after?_append_of_some read, after?_cons, refused] at readAll
  cases readAll

/-- What cannot end here is no sentence. -/
theorem not_isSentence (follows : entry.Follows nonterminal)
    (sees : ∀ tree, SeesTerminals nonterminal.tokens tree)
    (read : entry.after? entry.start tokens = some reading)
    (unfinished : entry.finish? reading = none) :
    ¬ nonterminal.IsSentence (tokens.map Token.terminal) := by
  rintro ⟨tree, treeTerminals⟩
  obtain ⟨other, rfl⟩ := sees tree tokens treeTerminals.symm
  obtain ⟨final, readAll, finished⟩ := follows.complete other
  cases read.symm.trans readAll
  rw [unfinished] at finished
  cases finished

/-- With an expected terminal, what has been read is the beginning of a sentence. -/
theorem expected_isViable (follows : entry.Follows nonterminal) (settles : entry.SettlesSoundly)
    (read : entry.after? entry.start tokens = some reading) {next : Option Terminal}
    {terminal : Terminal} (member : terminal ∈ entry.expected reading next) :
    nonterminal.IsViable (tokens.map Token.terminal ++ [terminal]) := by
  have accepted := settles.settle (List.mem_filter.mp member).2
  obtain ⟨extended, stepped⟩ := Option.isSome_iff_exists.mp accepted
  have readOn : entry.after? entry.start (tokens ++ [⟨terminal.sample, default⟩]) =
      some extended := by
    rw [after?_append_of_some read, after?_cons_of_some stepped, after?_nil]
  have viable := follows.isViable readOn
  rwa [List.map_append, List.map_singleton, Token.terminal, terminal.terminal_sample] at viable

end Follows

end EntryPoint

/-! ## Located errors -/

/-- An error says where a text stops being the beginning of a sentence, and every terminal
that it lists would have gone on with it. -/
inductive Locates {α : Type} (nonterminal : Nonterminal α) (source : String) : SyntaxError → Prop
  /-- After a text whose comments are closed, a comment opens that nothing closes. -/
  | unclosedComment {before after masked : List Char}
      (text : source.toList = before ++ '(' :: '*' :: after) (closed : Masks before masked)
      (never : NeverCloses after) :
      Locates nonterminal source (.unclosedComment ⟨byteLength before, source.utf8ByteSize⟩)
  /-- After the beginning of a sentence, no token starts. -/
  | invalidToken {masked rest : List Char} {tokens : List Token} {stop : Nat} {char : Char}
      (closed : Masks source.toList masked) (lexes : Lexes 0 masked tokens stop (char :: rest))
      (noToken : NoTokenStarts (char :: rest))
      (viable : nonterminal.IsViable (tokens.map Token.terminal)) :
      Locates nonterminal source (.invalidToken ⟨stop, stop + char.utf8Size⟩)
  /-- After the beginning of a sentence, a token stands with which it is none. -/
  | unexpectedToken {masked rest : List Char} {before : List Token} {token : Token} {stop : Nat}
      {expected : List Terminal} (closed : Masks source.toList masked)
      (lexes : Lexes 0 masked (before ++ [token]) stop rest)
      (viable : nonterminal.IsViable (before.map Token.terminal))
      (notViable : ¬ nonterminal.IsViable (before.map Token.terminal ++ [token.terminal]))
      (expectedViable : ∀ terminal ∈ expected,
        nonterminal.IsViable (before.map Token.terminal ++ [terminal])) :
      Locates nonterminal source (.unexpectedToken token.lexeme.text token.span expected)
  /-- The text is the beginning of a sentence, and no sentence. -/
  | unexpectedEnd {masked : List Char} {tokens : List Token} {expected : List Terminal}
      (closed : Masks source.toList masked) (tokenizes : Tokenizes masked tokens)
      (viable : nonterminal.IsViable (tokens.map Token.terminal))
      (notSentence : ¬ nonterminal.IsSentence (tokens.map Token.terminal))
      (expectedViable : ∀ terminal ∈ expected,
        nonterminal.IsViable (tokens.map Token.terminal ++ [terminal])) :
      Locates nonterminal source (.unexpectedEnd (extent tokens).stop expected)

/-- A reading that follows a grammar and settles soundly locates every error that it reports. -/
theorem EntryPoint.Follows.locates {ρ α : Type} {entry : EntryPoint ρ α}
    {nonterminal : Nonterminal α} (follows : entry.Follows nonterminal)
    (sees : ∀ tree, SeesTerminals nonterminal.tokens tree) (settles : entry.SettlesSoundly)
    {source : String} {error : SyntaxError} (failed : entry.parse source = .error error) :
    Locates nonterminal source error := by
  obtain ⟨masked, masks⟩ | ⟨before, after, masked, text, masks, never, unclosed⟩ :=
    MaskedText.masks_or_unclosed source.toList 0
  · rw [EntryPoint.parse, MaskedText.ofSource_eq_iff.mpr masks] at failed
    obtain ⟨stop, rest, lexes, ending⟩ := TokenStream.exists_lexes 0 masked
    cases EntryPoint.readFrom_stops failed with
    | invalidToken read found =>
        obtain ⟨-, valid⟩ | ⟨char, more, rfl, noToken, invalid⟩ := ending
        · cases found.symm.trans valid
        · cases found.symm.trans invalid
          exact .invalidToken masks lexes noToken (follows.isViable read)
    | @unexpectedToken before after token _ split read refused =>
        have regrouped : before ++ token :: after = (before ++ [token]) ++ after := by simp
        have scanned : (TokenStream.scan 0 0 masked).tokens = (before ++ [token]) ++ after :=
          split.trans regrouped
        rw [scanned] at lexes
        obtain ⟨_, _, lexesToken, -⟩ := lexes.split
        exact .unexpectedToken masks lexesToken (follows.isViable read)
          (follows.not_isViable sees read refused)
          fun _ => follows.expected_isViable settles read
    | unexpectedEnd valid read unfinished =>
        obtain ⟨rfl, -⟩ | ⟨char, more, -, -, invalid⟩ := ending
        · exact .unexpectedEnd masks lexes.tokenizes (follows.isViable read)
            (follows.not_isSentence sees read unfinished)
            fun _ => follows.expected_isViable settles read
        · cases valid.symm.trans invalid
  · have opened : (MaskedText.ofSource source).unclosed = some (byteLength before) := by
      rw [MaskedText.ofSource, unclosed, Nat.zero_add]
    simp only [EntryPoint.parse, opened] at failed
    cases failed
    exact .unclosedComment text masks never

/-- A located error has its span within the source. -/
theorem Locates.within {α : Type} {nonterminal : Nonterminal α} {source : String}
    {error : SyntaxError} (locates : Locates nonterminal source error) :
    error.span.within source = true := by
  cases locates with
  | @unclosedComment before after masked text closed never =>
      have parts : source.toList = before ++ ('(' :: '*' :: after ++ []) := by simpa using text
      have size : source.utf8ByteSize = byteLength before + byteLength ('(' :: '*' :: after) := by
        rw [← Source.byteLength_toList, text, Source.byteLength_append]
      rw [SyntaxError.span, size]
      exact Span.within_of_parts parts
  | @invalidToken masked rest tokens stop char closed lexes noToken viable =>
      obtain ⟨front, rfl, rfl, -⟩ := lexes.exists_front
      have notBlank : char ≠ ' ' := by
        obtain ⟨_, _, isChar, notBlank, -⟩ := noToken
        cases isChar
        rintro rfl
        exact absurd notBlank (by decide)
      obtain ⟨before, after, text, masksBefore, masksAfter⟩ :=
        closed.split (.inr (by simpa using notBlank))
      obtain ⟨more, rfl⟩ := masksAfter.exists_rest notBlank
      have parts : source.toList = before ++ ([char] ++ more) := text
      rw [SyntaxError.span, Nat.zero_add, masksBefore.byteLength_eq]
      exact Span.within_of_parts parts
  | unexpectedToken closed lexes =>
      rw [SyntaxError.span, Span.within, slice?_token closed lexes]
      rfl
  | @unexpectedEnd masked tokens expected closed tokenizes =>
      obtain rfl | ⟨init, last, rfl⟩ := List.eq_nil_or_concat tokens
      · have parts : source.toList = [] ++ ([] ++ source.toList) := rfl
        exact Span.within_of_parts parts
      · rw [List.concat_eq_append] at tokenizes ⊢
        obtain ⟨front, back, text, span⟩ := exists_sourceText closed tokenizes
        have parts : source.toList = (front ++ last.lexeme.text.toList) ++ ([] ++ back) := by
          rw [text, List.nil_append, List.append_assoc]
        have stops : (extent (init ++ [last])).stop =
            byteLength (front ++ last.lexeme.text.toList) := by
          rw [extent, List.getLast?_concat, Source.byteLength_append, Option.map_some,
            Option.getD_some, span]
        rw [SyntaxError.span, stops]
        exact Span.within_of_parts parts

/-- A report of an error within the text shows the place. -/
theorem SyntaxError.report_elements {error : SyntaxError} {source : String}
    (within : error.span.within source = true) :
    ∃ more, (error.report source).elements =
      Element.snippet [⟨.primary, error.span, none⟩] :: more := by
  simp [SyntaxError.report, Diagnostic.snippet, within]

/-! ## The four entry points -/

/-- Reading a type settles soundly. -/
theorem typeEntry_settlesSoundly : typeEntry.SettlesSoundly where
  type := (TypeReading.settle_step _ _).next?
  term := id

/-- Reading a term settles soundly. -/
theorem termEntry_settlesSoundly : termEntry.SettlesSoundly where
  type := (TermReading.settleType_step _ _).next?
  term := (TermReading.settleTerm_step _ _).next?

/-- Reading a statement settles soundly. -/
theorem statementEntry_settlesSoundly : statementEntry.SettlesSoundly where
  type := (StatementReading.settleType_step _ _).next?
  term := (StatementReading.settleTerm_step _ _).next?

/-- Reading a program settles soundly. -/
theorem programEntry_settlesSoundly : programEntry.SettlesSoundly where
  type := ProgramReading.step?_of_settled StatementReading.settleType_eq_statement_iff
    (StatementReading.settleType_step _ _)
  term := ProgramReading.step?_of_settled StatementReading.settleTerm_eq_statement_iff
    (StatementReading.settleTerm_step _ _)

/-- An error that a parser gives is located, at a place within the text that its report
shows. -/
def LocatesErrors {α : Type} (result : Except SyntaxError α) (nonterminal : Nonterminal α)
    (source : String) : Prop :=
  ∀ error, result = .error error →
    Locates nonterminal source error ∧ error.span.within source = true ∧
      ∃ more, (error.report source).elements =
        Element.snippet [⟨.primary, error.span, none⟩] :: more

/-- A reading that follows a grammar and settles soundly locates the errors of every source. -/
theorem EntryPoint.Follows.locatesErrors {ρ α : Type} {entry : EntryPoint ρ α}
    {nonterminal : Nonterminal α} (follows : entry.Follows nonterminal)
    (sees : ∀ tree, SeesTerminals nonterminal.tokens tree) (settles : entry.SettlesSoundly)
    (source : String) : LocatesErrors (entry.parse source) nonterminal source := by
  intro error failed
  have located := follows.locates sees settles failed
  exact ⟨located, located.within, SyntaxError.report_elements located.within⟩

/-- Syntax errors are located exactly, and every report of one shows its place. -/
theorem syntax_errors_located (source : String) :
    LocatesErrors (parseType source) .type source ∧
    LocatesErrors (parseTerm source) .term source ∧
    LocatesErrors (parseStatement source) .statement source ∧
    LocatesErrors (parseProgram source) .program source :=
  ⟨typeEntry_follows.locatesErrors TypeTree.seesTerminals typeEntry_settlesSoundly source,
    termEntry_follows.locatesErrors TermTree.seesTerminals termEntry_settlesSoundly source,
    statementEntry_follows.locatesErrors StatementTree.seesTerminals statementEntry_settlesSoundly
      source,
    programEntry_follows.locatesErrors ProgramTree.seesTerminals programEntry_settlesSoundly source⟩

/-- A term with a bracket, after a comment, where the list of parameters goes on or ends. -/
def misplaced : String :=
  "fun x: A (* of *) ] x"

/-- A bracket in a list of parameters is located, with the two tokens expected in its
place. -/
theorem syntax_errors_located_misplaced :
    parseTerm misplaced =
      .error (.unexpectedToken "]" ⟨18, 19⟩ [.symbol .comma, .symbol .dot]) ∧
    Locates .term misplaced (.unexpectedToken "]" ⟨18, 19⟩ [.symbol .comma, .symbol .dot]) := by
  have reported : (match parseTerm misplaced with
      | .ok _ => none
      | .error error => some error) =
        some (.unexpectedToken "]" ⟨18, 19⟩ [.symbol .comma, .symbol .dot]) := by
    decide +kernel
  cases failed : parseTerm misplaced with
  | ok => simp [failed] at reported
  | error error =>
      obtain rfl : error = _ := by simpa [failed] using reported
      exact ⟨rfl, ((syntax_errors_located misplaced).2.1 _ failed).1⟩

end PolyLambda.Grammar
