import PolyLambda.Proofs.ReadingTrees

/-!
# Partial syntax trees

A reading holds what has been read of a type or term: finished parts, and frames around the
place where it stands. Here every reading is tied to the tokens it was made from: its
parts have syntax trees, and these make up the tokens. One more token keeps that tie, so
what is read to its end has a syntax tree of exactly its tokens. And whatever has been
read can be completed, so it is the beginning of a phrase.
-/

namespace PolyLambda.Grammar

open PolyLambda.Named

/-- What holds of the reading, or of the finished phrase, that a token leads to. -/
def Step.Yields {ρ α : Type} (step : Step ρ α) (onward : ρ → Prop) (complete : α → Prop) : Prop :=
  match step with
  | .next reading => onward reading
  | .finished value => complete value
  | .refused => True

/-! ## Unfinished lists -/

namespace CommaList

variable {α : Type}

/-- The list of some items, each with the comma after it, and a last item. -/
def ofPrevious (previous : List (α × Span)) (last : α) : CommaList α :=
  previous.foldr (fun (item, comma) rest => cons item comma rest) (single last)

/-- The tokens of some items, each with the comma after it. -/
def previousTokens (itemTokens : α → List Token) (previous : List (α × Span)) : List Token :=
  previous.flatMap fun (item, comma) => itemTokens item ++ [Symbol.comma.token comma]

@[simp]
theorem previousTokens_nil (itemTokens : α → List Token) : previousTokens itemTokens [] = [] :=
  rfl

/-- The items of a finished list are the previous ones and the last. -/
theorem items_ofPrevious (previous : List (α × Span)) (last : α) :
    (ofPrevious previous last).items = previous.map Prod.fst ++ [last] := by
  induction previous with
  | nil => rfl
  | cons first rest restIH => exact congrArg (first.1 :: ·) restIH

/-- The tokens of a finished list are those of the previous items and of the last. -/
theorem tokens_ofPrevious (itemTokens : α → List Token) (previous : List (α × Span)) (last : α) :
    (ofPrevious previous last).tokens itemTokens =
      previousTokens itemTokens previous ++ itemTokens last := by
  induction previous with
  | nil => rfl
  | cons first rest restIH =>
      rw [previousTokens, List.flatMap_cons, List.append_assoc, ← previousTokens, ← restIH]
      rfl

/-- An item and a comma are added at the end of the previous tokens. -/
theorem previousTokens_append (itemTokens : α → List Token) (previous : List (α × Span))
    (item : α) (comma : Span) :
    previousTokens itemTokens (previous ++ [(item, comma)]) =
      previousTokens itemTokens previous ++ (itemTokens item ++ [Symbol.comma.token comma]) := by
  simp [previousTokens]

end CommaList

/-! ## Types -/

/-- An arrow has one of its spellings. -/
theorem Lexeme.exists_arrow {lexeme : Lexeme} (isArrow : lexeme.isArrow = true) :
    ∃ spelling : Spelling, lexeme = .symbol spelling.arrow := by
  unfold Lexeme.isArrow at isArrow
  split at isArrow
  · exact ⟨.ascii, rfl⟩
  · exact ⟨.sign, rfl⟩
  · cases isArrow

/-- The frames around a type, and the tokens before it that they come from. -/
inductive TypeFrame.Around : List TypeFrame → List Token → Prop
  | outermost : Around [] []
  | arrow {frames : List TypeFrame} {before : List Token} (outer : Around frames before)
      (domain : TypeTree .atom) (spelling : Spelling) (sign : Span) :
      Around (.arrow domain.phrase.extent.start domain.phrase.value :: frames)
        (before ++ (domain.tokens ++ [spelling.arrow.token sign]))
  | quantifier {frames : List TypeFrame} {before : List Token} (outer : Around frames before)
      (spelling : Spelling) (keyword : Span) (params : CommaList Ident) (dot : Span) :
      Around (.quantifier keyword.start params.items :: frames)
        (before ++ (spelling.quantifier.token keyword ::
          (params.tokens (fun param => [param.token]) ++ [Symbol.dot.token dot])))
  | group {frames : List TypeFrame} {before : List Token} (outer : Around frames before)
      (openParen : Span) :
      Around (.group openParen.start :: frames) (before ++ [Symbol.openParen.token openParen])

/-- A reading of a type, and the tokens that it was made from. -/
inductive TypeReading.Represents : TypeReading → List Token → Prop
  | type {frames : List TypeFrame} {before : List Token}
      (around : TypeFrame.Around frames before) : Represents (.type frames) before
  | binder {frames : List TypeFrame} {before : List Token}
      (around : TypeFrame.Around frames before) (spelling : Spelling) (keyword : Span)
      (previous : List (Ident × Span)) :
      Represents (.binder keyword.start (previous.map Prod.fst) frames)
        (before ++ spelling.quantifier.token keyword ::
          CommaList.previousTokens (fun param => [param.token]) previous)
  | binders {frames : List TypeFrame} {before : List Token}
      (around : TypeFrame.Around frames before) (spelling : Spelling) (keyword : Span)
      (previous : List (Ident × Span)) (last : Ident) :
      Represents (.binders keyword.start (previous.map Prod.fst ++ [last]) frames)
        (before ++ spelling.quantifier.token keyword ::
          (CommaList.previousTokens (fun param => [param.token]) previous ++ [last.token]))
  | ended {frames : List TypeFrame} {before : List Token}
      (around : TypeFrame.Around frames before) (tree : TypeTree .atom) :
      Represents (.ended tree.phrase true frames) (before ++ tree.tokens)

namespace TypeFrame.Around

variable {frames : List TypeFrame} {before : List Token}

/-- What closing the frames around a type yields has a syntax tree: the whole type, or the
type inside the innermost open parenthesis. -/
theorem close (around : Around frames before) (tree : TypeTree .type) :
    (∃ whole : TypeTree .type, closeType tree.phrase frames = (whole.phrase, none) ∧
      whole.tokens = before ++ tree.tokens) ∨
    ∃ (inner : TypeTree .type) (openParen : Span) (outer : List TypeFrame)
      (outerBefore : List Token), Around outer outerBefore ∧
      closeType tree.phrase frames = (inner.phrase, some (openParen.start, outer)) ∧
      outerBefore ++ Symbol.openParen.token openParen :: inner.tokens = before ++ tree.tokens := by
  induction around generalizing tree with
  | outermost => exact .inl ⟨tree, rfl, rfl⟩
  | @arrow frames _ _ domain spelling sign outerIH =>
      have larger : closeType tree.phrase
          (.arrow domain.phrase.extent.start domain.phrase.value :: frames) =
            closeType (TypeTree.arrow domain spelling sign tree).phrase frames := rfl
      rw [larger]
      simpa [TypeTree.tokens] using outerIH (.arrow domain spelling sign tree)
  | @quantifier frames _ _ spelling keyword params dot outerIH =>
      have larger : closeType tree.phrase (.quantifier keyword.start params.items :: frames) =
          closeType (TypeTree.quantifier spelling keyword params dot tree).phrase frames := rfl
      rw [larger]
      simpa [TypeTree.tokens] using outerIH (.quantifier spelling keyword params dot tree)
  | @group frames before outer openParen _ =>
      exact .inr ⟨tree, openParen, frames, before, outer, rfl, by simp⟩

/-- A type inside some frames can be completed to a whole type. -/
theorem complete (around : Around frames before) (tree : TypeTree .type) :
    ∃ (whole : TypeTree .type) (rest : List Token),
      whole.tokens = before ++ tree.tokens ++ rest := by
  induction around generalizing tree with
  | outermost => exact ⟨tree, [], by simp⟩
  | arrow _ domain spelling sign outerIH =>
      simpa [TypeTree.tokens] using outerIH (.arrow domain spelling sign tree)
  | quantifier _ spelling keyword params dot outerIH =>
      simpa [TypeTree.tokens] using outerIH (.quantifier spelling keyword params dot tree)
  | group _ openParen outerIH =>
      obtain ⟨whole, rest, tokens⟩ := outerIH (.atom (.group openParen tree default))
      exact ⟨whole, Symbol.closeParen.token default :: rest,
        by simpa [TypeTree.tokens] using tokens⟩

end TypeFrame.Around

namespace TypeReading.Represents

variable {reading : TypeReading} {tokens : List Token}

/-- Whatever has been read of a type can be completed to a whole type. -/
theorem complete (represents : reading.Represents tokens) :
    ∃ (whole : TypeTree .type) (rest : List Token), whole.tokens = tokens ++ rest := by
  let body : TypeTree .type := .atom (.name ⟨default, "A"⟩)
  cases represents with
  | type around =>
      obtain ⟨whole, rest, wholeTokens⟩ := around.complete body
      exact ⟨whole, body.tokens ++ rest, by simpa using wholeTokens⟩
  | binder around spelling keyword previous =>
      obtain ⟨whole, rest, wholeTokens⟩ := around.complete
        (.quantifier spelling keyword (.ofPrevious previous ⟨default, "A"⟩) default body)
      rw [TypeTree.tokens, CommaList.tokens_ofPrevious] at wholeTokens
      exact ⟨whole, _, by simpa using wholeTokens⟩
  | binders around spelling keyword previous last =>
      obtain ⟨whole, rest, wholeTokens⟩ := around.complete
        (.quantifier spelling keyword (.ofPrevious previous last) default body)
      rw [TypeTree.tokens, CommaList.tokens_ofPrevious] at wholeTokens
      exact ⟨whole, _, by simpa using wholeTokens⟩
  | ended around tree => exact around.complete (.atom tree)

/-- A token after a type that it does not extend closes a parenthesis, or it is left with
the whole type read. -/
theorem leave {frames : List TypeFrame} {before : List Token}
    (around : TypeFrame.Around frames before) (tree : TypeTree .atom) (token : Token) :
    (leave tree.phrase frames token).Yields (·.Represents (before ++ tree.tokens ++ [token]))
      fun phrase => ∃ whole : TypeTree .type, whole.phrase = phrase ∧
        whole.tokens = before ++ tree.tokens := by
  obtain ⟨whole, closes, wholeTokens⟩ |
      ⟨inner, openParen, outer, outerBefore, outerAround, closes, innerTokens⟩ :=
    around.close (.atom tree)
  · have closed : closeType tree.phrase frames = (whole.phrase, none) := closes
    rw [TypeReading.leave, closed]
    exact ⟨whole, rfl, wholeTokens⟩
  · have closed : closeType tree.phrase frames = (inner.phrase, some (openParen.start, outer)) :=
      closes
    have beforeTree : before ++ tree.tokens =
        outerBefore ++ Symbol.openParen.token openParen :: inner.tokens := innerTokens.symm
    rw [TypeReading.leave, closed, beforeTree]
    by_cases isClose : token.lexeme = .symbol .closeParen
    · obtain ⟨_, closeParen⟩ := token
      cases isClose
      have ended := Represents.ended outerAround (.group openParen inner closeParen)
      simpa [Step.Yields, TypeTree.tokens, TypeTree.phrase, Symbol.token] using ended
    · simp [isClose, Step.Yields]

/-- A step of a type goes on with what the tokens represent, or ends the whole type. -/
theorem step (represents : reading.Represents tokens) (token : Token) :
    (reading.step token).Yields (·.Represents (tokens ++ [token]))
      fun phrase => ∃ whole : TypeTree .type, whole.phrase = phrase ∧ whole.tokens = tokens := by
  obtain ⟨lexeme, span⟩ := token
  cases represents with
  | type around =>
      unfold TypeReading.step
      dsimp only
      split
      case h_1 name => exact .ended around (.name ⟨span, name⟩)
      case h_2 => exact .type (around.group span)
      case h_3 => exact .binder around .ascii span []
      case h_4 => exact .binder around .sign span []
      case h_5 => trivial
  | binder around spelling keyword previous =>
      unfold TypeReading.step
      dsimp only
      split
      case h_1 name =>
        have named := Represents.binders around spelling keyword previous ⟨span, name⟩
        simpa [Step.Yields, Ident.token] using named
      case h_2 => trivial
  | binders around spelling keyword previous last =>
      unfold TypeReading.step
      dsimp only
      split
      case h_1 =>
        have listed := Represents.binder around spelling keyword (previous ++ [(last, span)])
        simpa [Step.Yields, CommaList.previousTokens_append, Symbol.token] using listed
      case h_2 =>
        have opened := Represents.type
          (around.quantifier spelling keyword (.ofPrevious previous last) span)
        rw [CommaList.items_ofPrevious, CommaList.tokens_ofPrevious] at opened
        simpa [Step.Yields, Symbol.token] using opened
      case h_3 => trivial
  | ended around tree =>
      unfold TypeReading.step
      dsimp only
      split
      case isTrue isArrow =>
        obtain ⟨spelling, rfl⟩ := Lexeme.exists_arrow (by simpa using isArrow)
        have opened := Represents.type (around.arrow tree spelling span)
        simpa [Step.Yields, Symbol.token] using opened
      case isFalse => exact leave around tree ⟨lexeme, span⟩

/-- A type that is complete at the end of the input has a syntax tree. -/
theorem finish? (represents : reading.Represents tokens) {phrase : Phrase Ty}
    (finished : reading.finish? = some phrase) :
    ∃ whole : TypeTree .type, whole.phrase = phrase ∧ whole.tokens = tokens := by
  cases represents with
  | type | binder | binders => cases finished
  | @ended frames _ around tree =>
      obtain ⟨whole, closes, wholeTokens⟩ | ⟨inner, openParen, outer, _, _, closes, _⟩ :=
        around.close (.atom tree)
      · have closed : closeType tree.phrase frames = (whole.phrase, none) := closes
        simp only [TypeReading.finish?, closed, Option.some.injEq] at finished
        exact ⟨whole, finished, wholeTokens⟩
      · have closed : closeType tree.phrase frames =
            (inner.phrase, some (openParen.start, outer)) := closes
        simp [TypeReading.finish?, closed] at finished

end TypeReading.Represents

/-! ## Terms -/

/-- The frames around a term, and the tokens before it that they come from. -/
inductive TermFrame.Around : List TermFrame → List Token → Prop
  | outermost : Around [] []
  | lam {frames : List TermFrame} {before : List Token} (outer : Around frames before)
      (spelling : Spelling) (keyword : Span) (params : CommaList ParamTree) (dot : Span) :
      Around (.lam keyword.start (params.items.map ParamTree.value) :: frames)
        (before ++ (spelling.lambda.token keyword ::
          (params.tokens ParamTree.tokens ++ [Symbol.dot.token dot])))
  | tyLam {frames : List TermFrame} {before : List Token} (outer : Around frames before)
      (spelling : Spelling) (keyword : Span) (params : CommaList Ident) (dot : Span) :
      Around (.tyLam keyword.start params.items :: frames)
        (before ++ (spelling.bigLambda.token keyword ::
          (params.tokens (fun param => [param.token]) ++ [Symbol.dot.token dot])))
  | group {frames : List TermFrame} {before : List Token} (outer : Around frames before)
      (openParen : Span) :
      Around (.group openParen.start :: frames) (before ++ [Symbol.openParen.token openParen])
  | argument {frames : List TermFrame} {before : List Token} (outer : Around frames before)
      (function : TermTree .application) (openParen : Span) :
      Around (.argument function.phrase :: frames)
        (before ++ (function.tokens ++ [Symbol.openParen.token openParen]))

/-- A reading of a term, and the tokens that it was made from. -/
inductive TermReading.Represents : TermReading → List Token → Prop
  | term {frames : List TermFrame} {before : List Token}
      (around : TermFrame.Around frames before) : Represents (.term frames) before
  | param {frames : List TermFrame} {before : List Token}
      (around : TermFrame.Around frames before) (spelling : Spelling) (keyword : Span)
      (previous : List (ParamTree × Span)) :
      Represents (.param keyword.start (previous.map (·.1.value)) frames)
        (before ++ spelling.lambda.token keyword ::
          CommaList.previousTokens ParamTree.tokens previous)
  | paramColon {frames : List TermFrame} {before : List Token}
      (around : TermFrame.Around frames before) (spelling : Spelling) (keyword : Span)
      (previous : List (ParamTree × Span)) (name : Ident) :
      Represents (.paramColon keyword.start (previous.map (·.1.value)) name frames)
        (before ++ spelling.lambda.token keyword ::
          (CommaList.previousTokens ParamTree.tokens previous ++ [name.token]))
  | paramType {frames : List TermFrame} {before typeTokens : List Token} {type : TypeReading}
      (around : TermFrame.Around frames before) (spelling : Spelling) (keyword : Span)
      (previous : List (ParamTree × Span)) (name : Ident) (colon : Span)
      (represents : type.Represents typeTokens) :
      Represents (.paramType keyword.start (previous.map (·.1.value)) name type frames)
        (before ++ spelling.lambda.token keyword ::
          (CommaList.previousTokens ParamTree.tokens previous ++
            name.token :: Symbol.colon.token colon :: typeTokens))
  | tyParam {frames : List TermFrame} {before : List Token}
      (around : TermFrame.Around frames before) (spelling : Spelling) (keyword : Span)
      (previous : List (Ident × Span)) :
      Represents (.tyParam keyword.start (previous.map Prod.fst) frames)
        (before ++ spelling.bigLambda.token keyword ::
          CommaList.previousTokens (fun param => [param.token]) previous)
  | tyParams {frames : List TermFrame} {before : List Token}
      (around : TermFrame.Around frames before) (spelling : Spelling) (keyword : Span)
      (previous : List (Ident × Span)) (last : Ident) :
      Represents (.tyParams keyword.start (previous.map Prod.fst ++ [last]) frames)
        (before ++ spelling.bigLambda.token keyword ::
          (CommaList.previousTokens (fun param => [param.token]) previous ++ [last.token]))
  | ended {frames : List TermFrame} {before : List Token}
      (around : TermFrame.Around frames before) (tree : TermTree .application) :
      Represents (.ended tree.phrase true frames) (before ++ tree.tokens)
  | tyArgument {frames : List TermFrame} {before typeTokens : List Token} {type : TypeReading}
      (around : TermFrame.Around frames before) (function : TermTree .application)
      (openBracket : Span) (represents : type.Represents typeTokens) :
      Represents (.tyArgument function.phrase type frames)
        (before ++ (function.tokens ++ Symbol.openBracket.token openBracket :: typeTokens))

namespace TermFrame.Around

variable {frames : List TermFrame} {before : List Token}

/-- What closing the frames around a term yields has a syntax tree: the whole term, or the
application that a parenthesis after the term completes. -/
theorem close (around : Around frames before) (tree : TermTree .term) :
    (∃ whole : TermTree .term, closeTerm tree.phrase frames = (whole.phrase, none) ∧
      whole.tokens = before ++ tree.tokens) ∨
    ∃ (inner : TermTree .term) (group : TermGroup) (outer : List TermFrame)
      (outerBefore : List Token), Around outer outerBefore ∧
      closeTerm tree.phrase frames = (inner.phrase, some (group, outer)) ∧
      ∀ closeParen : Span, ∃ application : TermTree .application,
        application.phrase = group.close inner.phrase.value closeParen.stop ∧
        outerBefore ++ application.tokens =
          before ++ tree.tokens ++ [Symbol.closeParen.token closeParen] := by
  induction around generalizing tree with
  | outermost => exact .inl ⟨tree, rfl, rfl⟩
  | @lam frames _ _ spelling keyword params dot outerIH =>
      have larger : closeTerm tree.phrase
          (.lam keyword.start (params.items.map ParamTree.value) :: frames) =
            closeTerm (TermTree.lam spelling keyword params dot tree).phrase frames := rfl
      rw [larger]
      simpa [TermTree.tokens] using outerIH (.lam spelling keyword params dot tree)
  | @tyLam frames _ _ spelling keyword params dot outerIH =>
      have larger : closeTerm tree.phrase (.tyLam keyword.start params.items :: frames) =
          closeTerm (TermTree.tyLam spelling keyword params dot tree).phrase frames := rfl
      rw [larger]
      simpa [TermTree.tokens] using outerIH (.tyLam spelling keyword params dot tree)
  | @group frames before outer openParen _ =>
      refine .inr ⟨tree, .head openParen.start, frames, before, outer, rfl, fun closeParen => ?_⟩
      exact ⟨.atom (.group openParen tree closeParen), rfl, by simp [TermTree.tokens]⟩
  | @argument frames before outer function openParen _ =>
      refine .inr ⟨tree, .argument function.phrase, frames, before, outer, rfl,
        fun closeParen => ?_⟩
      exact ⟨.app function (.group openParen tree closeParen), rfl, by simp [TermTree.tokens]⟩

/-- A term inside some frames can be completed to a whole term. -/
theorem complete (around : Around frames before) (tree : TermTree .term) :
    ∃ (whole : TermTree .term) (rest : List Token),
      whole.tokens = before ++ tree.tokens ++ rest := by
  induction around generalizing tree with
  | outermost => exact ⟨tree, [], by simp⟩
  | lam _ spelling keyword params dot outerIH =>
      simpa [TermTree.tokens] using outerIH (.lam spelling keyword params dot tree)
  | tyLam _ spelling keyword params dot outerIH =>
      simpa [TermTree.tokens] using outerIH (.tyLam spelling keyword params dot tree)
  | group _ openParen outerIH =>
      obtain ⟨whole, rest, tokens⟩ :=
        outerIH (.application (.atom (.group openParen tree default)))
      exact ⟨whole, Symbol.closeParen.token default :: rest,
        by simpa [TermTree.tokens] using tokens⟩
  | argument _ function openParen outerIH =>
      obtain ⟨whole, rest, tokens⟩ :=
        outerIH (.application (.app function (.group openParen tree default)))
      exact ⟨whole, Symbol.closeParen.token default :: rest,
        by simpa [TermTree.tokens] using tokens⟩

end TermFrame.Around

/-- The parameters of a finished list are the previous ones and the last. -/
theorem CommaList.map_value_ofPrevious (previous : List (ParamTree × Span)) (last : ParamTree) :
    (ofPrevious previous last).items.map ParamTree.value =
      previous.map (·.1.value) ++ [last.value] := by
  simp [items_ofPrevious]

namespace TermReading.Represents

variable {reading : TermReading} {tokens : List Token}

/-- Whatever has been read of a term can be completed to a whole term. -/
theorem complete (represents : reading.Represents tokens) :
    ∃ (whole : TermTree .term) (rest : List Token), whole.tokens = tokens ++ rest := by
  let type : TypeTree .type := .atom (.name ⟨default, "A"⟩)
  let body : TermTree .term := .application (.atom (.name ⟨default, "x"⟩))
  cases represents with
  | term around =>
      obtain ⟨whole, rest, wholeTokens⟩ := around.complete body
      exact ⟨whole, body.tokens ++ rest, by simpa using wholeTokens⟩
  | param around spelling keyword previous =>
      obtain ⟨whole, rest, wholeTokens⟩ := around.complete (.lam spelling keyword
        (.ofPrevious previous ⟨⟨default, "x"⟩, default, type⟩) default body)
      rw [TermTree.tokens, CommaList.tokens_ofPrevious] at wholeTokens
      exact ⟨whole, _, by simpa using wholeTokens⟩
  | paramColon around spelling keyword previous name =>
      obtain ⟨whole, rest, wholeTokens⟩ := around.complete (.lam spelling keyword
        (.ofPrevious previous ⟨name, default, type⟩) default body)
      rw [TermTree.tokens, CommaList.tokens_ofPrevious] at wholeTokens
      exact ⟨whole, _, by simpa [ParamTree.tokens] using wholeTokens⟩
  | paramType around spelling keyword previous name colon typeRepresents =>
      obtain ⟨paramType, typeRest, typeTokens⟩ := typeRepresents.complete
      obtain ⟨whole, rest, wholeTokens⟩ := around.complete (.lam spelling keyword
        (.ofPrevious previous ⟨name, colon, paramType⟩) default body)
      rw [TermTree.tokens, CommaList.tokens_ofPrevious] at wholeTokens
      exact ⟨whole, _, by simpa [ParamTree.tokens, typeTokens] using wholeTokens⟩
  | tyParam around spelling keyword previous =>
      obtain ⟨whole, rest, wholeTokens⟩ := around.complete
        (.tyLam spelling keyword (.ofPrevious previous ⟨default, "A"⟩) default body)
      rw [TermTree.tokens, CommaList.tokens_ofPrevious] at wholeTokens
      exact ⟨whole, _, by simpa using wholeTokens⟩
  | tyParams around spelling keyword previous last =>
      obtain ⟨whole, rest, wholeTokens⟩ := around.complete
        (.tyLam spelling keyword (.ofPrevious previous last) default body)
      rw [TermTree.tokens, CommaList.tokens_ofPrevious] at wholeTokens
      exact ⟨whole, _, by simpa using wholeTokens⟩
  | ended around tree => exact around.complete (.application tree)
  | tyArgument around function openBracket typeRepresents =>
      obtain ⟨argument, typeRest, typeTokens⟩ := typeRepresents.complete
      obtain ⟨whole, rest, wholeTokens⟩ :=
        around.complete (.application (.tyApp function openBracket argument default))
      exact ⟨whole, _, by simpa [TermTree.tokens, typeTokens] using wholeTokens⟩

/-- A token after a term that it does not extend closes a parenthesis, or it is left with
the whole term read. -/
theorem leave {frames : List TermFrame} {before : List Token}
    (around : TermFrame.Around frames before) (tree : TermTree .application) (token : Token) :
    (leave tree.phrase frames token).Yields (·.Represents (before ++ tree.tokens ++ [token]))
      fun phrase => ∃ whole : TermTree .term, whole.phrase = phrase ∧
        whole.tokens = before ++ tree.tokens := by
  obtain ⟨whole, closes, wholeTokens⟩ |
      ⟨inner, group, outer, outerBefore, outerAround, closes, completes⟩ :=
    around.close (.application tree)
  · have closed : closeTerm tree.phrase frames = (whole.phrase, none) := closes
    rw [TermReading.leave, closed]
    exact ⟨whole, rfl, wholeTokens⟩
  · have closed : closeTerm tree.phrase frames = (inner.phrase, some (group, outer)) := closes
    rw [TermReading.leave, closed]
    by_cases isClose : token.lexeme = .symbol .closeParen
    · obtain ⟨_, closeParen⟩ := token
      cases isClose
      obtain ⟨application, phrase, applicationTokens⟩ := completes closeParen
      have beforeClose : outerBefore ++ application.tokens =
          before ++ tree.tokens ++ [⟨.symbol .closeParen, closeParen⟩] := applicationTokens
      have ended := Represents.ended outerAround application
      rw [phrase, beforeClose] at ended
      simpa [Step.Yields] using ended
    · simp [isClose, Step.Yields]

/-- A token after an application extends it, or it leaves it. -/
theorem extend {frames : List TermFrame} {before : List Token}
    (around : TermFrame.Around frames before) (tree : TermTree .application) (token : Token) :
    (extend tree.phrase frames token).Yields (·.Represents (before ++ tree.tokens ++ [token]))
      fun phrase => ∃ whole : TermTree .term, whole.phrase = phrase ∧
        whole.tokens = before ++ tree.tokens := by
  obtain ⟨lexeme, span⟩ := token
  unfold TermReading.extend
  dsimp only
  split
  case h_1 name =>
    have applied := Represents.ended around (.app tree (.name ⟨span, name⟩))
    simpa [Step.Yields, TermTree.tokens, TermTree.phrase, applyPhrase, Ident.token] using applied
  case h_2 =>
    have opened := Represents.term (around.argument tree span)
    simpa [Step.Yields, Symbol.token] using opened
  case h_3 =>
    have opened := Represents.tyArgument around tree span (.type .outermost)
    simpa [Step.Yields, Symbol.token] using opened
  case h_4 => exact leave around tree ⟨lexeme, span⟩

/-- A step of a term goes on with what the tokens represent, or ends the whole term. -/
theorem step (represents : reading.Represents tokens) (token : Token) :
    (reading.step token).Yields (·.Represents (tokens ++ [token]))
      fun phrase => ∃ whole : TermTree .term, whole.phrase = phrase ∧ whole.tokens = tokens := by
  obtain ⟨lexeme, span⟩ := token
  cases represents with
  | term around =>
      unfold TermReading.step
      dsimp only
      split
      case h_1 name => exact .ended around (.atom (.name ⟨span, name⟩))
      case h_2 => exact .term (around.group span)
      case h_3 => exact .param around .ascii span []
      case h_4 => exact .param around .sign span []
      case h_5 => exact .tyParam around .ascii span []
      case h_6 => exact .tyParam around .sign span []
      case h_7 => trivial
  | param around spelling keyword previous =>
      unfold TermReading.step
      dsimp only
      split
      case h_1 name =>
        have named := Represents.paramColon around spelling keyword previous ⟨span, name⟩
        simpa [Step.Yields, Ident.token] using named
      case h_2 => trivial
  | paramColon around spelling keyword previous name =>
      unfold TermReading.step
      dsimp only
      split
      case h_1 =>
        have opened := Represents.paramType around spelling keyword previous name span
          (.type .outermost)
        simpa [Step.Yields, Symbol.token] using opened
      case h_2 => trivial
  | @paramType frames before typeTokens type around spelling keyword previous name colon
      typeRepresents =>
      have typeStep := typeRepresents.step ⟨lexeme, span⟩
      unfold TermReading.step
      dsimp only
      cases stepped : type.step ⟨lexeme, span⟩ with
      | next type =>
          rw [stepped] at typeStep
          have advanced := Represents.paramType around spelling keyword previous name colon typeStep
          simpa [Step.Yields] using advanced
      | finished phrase =>
          rw [stepped] at typeStep
          obtain ⟨tree, rfl, rfl⟩ := typeStep
          dsimp only
          split
          case h_1 =>
            have listed := Represents.param around spelling keyword
              (previous ++ [(⟨name, colon, tree⟩, span)])
            simpa [Step.Yields, CommaList.previousTokens_append, ParamTree.tokens,
              ParamTree.value, Symbol.token] using listed
          case h_2 =>
            have opened := Represents.term
              (around.lam spelling keyword (.ofPrevious previous ⟨name, colon, tree⟩) span)
            rw [CommaList.map_value_ofPrevious, CommaList.tokens_ofPrevious] at opened
            simpa [Step.Yields, ParamTree.tokens, ParamTree.value, Symbol.token] using opened
          case h_3 => trivial
      | refused => trivial
  | tyParam around spelling keyword previous =>
      unfold TermReading.step
      dsimp only
      split
      case h_1 name =>
        have named := Represents.tyParams around spelling keyword previous ⟨span, name⟩
        simpa [Step.Yields, Ident.token] using named
      case h_2 => trivial
  | tyParams around spelling keyword previous last =>
      unfold TermReading.step
      dsimp only
      split
      case h_1 =>
        have listed := Represents.tyParam around spelling keyword (previous ++ [(last, span)])
        simpa [Step.Yields, CommaList.previousTokens_append, Symbol.token] using listed
      case h_2 =>
        have opened := Represents.term
          (around.tyLam spelling keyword (.ofPrevious previous last) span)
        rw [CommaList.items_ofPrevious, CommaList.tokens_ofPrevious] at opened
        simpa [Step.Yields, Symbol.token] using opened
      case h_3 => trivial
  | ended around tree => exact extend around tree ⟨lexeme, span⟩
  | @tyArgument frames before typeTokens type around function openBracket typeRepresents =>
      have typeStep := typeRepresents.step ⟨lexeme, span⟩
      unfold TermReading.step
      dsimp only
      cases stepped : type.step ⟨lexeme, span⟩ with
      | next type =>
          rw [stepped] at typeStep
          have advanced := Represents.tyArgument around function openBracket typeStep
          simpa [Step.Yields] using advanced
      | finished phrase =>
          rw [stepped] at typeStep
          obtain ⟨tree, rfl, rfl⟩ := typeStep
          dsimp only
          split
          case h_1 =>
            have applied := Represents.ended around (.tyApp function openBracket tree span)
            simpa [Step.Yields, TermTree.tokens, TermTree.phrase, tyApplyPhrase, Symbol.token]
              using applied
          case h_2 => trivial
      | refused => trivial

/-- A term that is complete at the end of the input has a syntax tree. -/
theorem finish? (represents : reading.Represents tokens) {phrase : Phrase Term}
    (finished : reading.finish? = some phrase) :
    ∃ whole : TermTree .term, whole.phrase = phrase ∧ whole.tokens = tokens := by
  cases represents with
  | term | param | paramColon | paramType | tyParam | tyParams | tyArgument => cases finished
  | @ended frames _ around tree =>
      obtain ⟨whole, closes, wholeTokens⟩ | ⟨inner, group, outer, _, _, closes, _⟩ :=
        around.close (.application tree)
      · have closed : closeTerm tree.phrase frames = (whole.phrase, none) := closes
        simp only [TermReading.finish?, closed, Option.some.injEq] at finished
        exact ⟨whole, finished, wholeTokens⟩
      · have closed : closeTerm tree.phrase frames = (inner.phrase, some (group, outer)) := closes
        simp [TermReading.finish?, closed] at finished

end TermReading.Represents

end PolyLambda.Grammar
