import PolyLambda.Proofs.CommentMasking

/-!
# Where tokens stand

The span of a token denotes its text in the source, and consecutive tokens span a part of
the source that is split into just these tokens by itself. Both hold of the source as it is
written, comments included, since tokens begin and end outside the comments.
-/

namespace PolyLambda.Grammar

open PolyLambda.Source (Masks byteLength byteLength_append byteLength_toList)

/-- From the beginning of the first token to the end of the last one. -/
def extent (tokens : List Token) : Span :=
  ⟨(tokens.head?.map (·.span.start)).getD 0, (tokens.getLast?.map (·.span.stop)).getD 0⟩

namespace IsTokenText

variable {text : String}

/-- A token begins outside the blanks. -/
theorem head?_ne_space (isText : IsTokenText text) (rest : List Char) :
    (text.toList ++ rest).head? ≠ some ' ' := by
  obtain ⟨first, more, textChars, -⟩ := isText.exists_first
  intro begins
  rw [textChars, List.cons_append, List.head?_cons] at begins
  refine isText.noSpace ?_
  rw [textChars, Option.some.inj begins]
  exact List.mem_cons_self

/-- A token ends outside the blanks. -/
theorem getLast?_ne_space (isText : IsTokenText text) (front : List Char) :
    (front ++ text.toList).getLast? ≠ some ' ' := by
  obtain ⟨first, more, textChars, -⟩ := isText.exists_first
  intro ends
  rw [textChars, List.getLast?_append, List.getLast?_cons, Option.some_or, ← List.getLast?_cons,
    ← textChars] at ends
  exact isText.noSpace (List.mem_of_getLast? ends)

end IsTokenText

namespace Lexes

variable {offset stop : Nat} {chars rest : List Char}

/-- Blanks stand before the first token, and what follows is split into the others. -/
theorem exists_after {token : Token} {tokens : List Token}
    (lexes : Lexes offset chars (token :: tokens) stop rest) :
    ∃ after, Lexes offset chars [] token.span.start (token.lexeme.text.toList ++ after) ∧
      token.span.stop = token.span.start + token.lexeme.text.utf8ByteSize ∧
      token.lexeme.Leads after ∧ Lexes token.span.stop after tokens stop rest := by
  generalize all : token :: tokens = tokens' at lexes
  induction lexes with
  | done => cases all
  | blank isBlank _ moreIH =>
      obtain ⟨after, passes, size, leads, more⟩ := moreIH all
      exact ⟨after, .blank isBlank passes, size, leads, more⟩
  | @token offset stop lexeme chars rest tokens leads more =>
      cases all
      exact ⟨chars, .done, rfl, leads, more⟩

/-- A token is split off in front of what it leads. -/
theorem cons {token : Token} {tokens : List Token} {after : List Char}
    (size : token.span.stop = token.span.start + token.lexeme.text.utf8ByteSize)
    (leads : token.lexeme.Leads after) (more : Lexes token.span.stop after tokens stop rest) :
    Lexes token.span.start (token.lexeme.text.toList ++ after) (token :: tokens) stop rest := by
  obtain ⟨lexeme, start, last⟩ := token
  obtain rfl : last = start + lexeme.text.utf8ByteSize := size
  exact .token leads more

/-- A text is split into some tokens and then into others. -/
theorem split {tokens more : List Token} (lexes : Lexes offset chars (tokens ++ more) stop rest) :
    ∃ middle between, Lexes offset chars tokens middle between ∧
      Lexes middle between more stop rest := by
  induction tokens generalizing offset chars with
  | nil => exact ⟨offset, chars, .done, lexes⟩
  | cons token tokens tokensIH =>
      obtain ⟨after, passes, size, leads, fromToken⟩ := lexes.exists_after
      obtain ⟨middle, between, lexesTokens, lexesMore⟩ := tokensIH fromToken
      exact ⟨middle, between, passes.append (.cons size leads lexesTokens), lexesMore⟩

/-- A token is its text, where its span says. -/
theorem exists_text {before after : List Token} {token : Token}
    (lexes : Lexes 0 chars (before ++ token :: after) stop rest) :
    ∃ front back, chars = front ++ (token.lexeme.text.toList ++ back) ∧
      token.span = ⟨byteLength front, byteLength front + token.lexeme.text.utf8ByteSize⟩ ∧
      IsTokenText token.lexeme.text := by
  obtain ⟨_, _, lexesBefore, fromToken⟩ := lexes.split
  obtain ⟨back, passes, size, leads, -⟩ := fromToken.exists_after
  obtain ⟨front, rfl, start, -⟩ := (lexesBefore.append passes).exists_front
  rw [Nat.zero_add] at start
  refine ⟨front, back, rfl, ?_, Lexeme.isTokenText leads.proper⟩
  rw [← start, ← size]

/-- What is left from a token on begins with the token. -/
theorem exists_from {before more : List Token} {first : Token}
    (lexes : Lexes offset chars (before ++ first :: more) stop rest) :
    ∃ front back, chars = front ++ back ∧ first.span.start = offset + byteLength front ∧
      back.head? ≠ some ' ' ∧ Lexes first.span.start back (first :: more) stop rest := by
  obtain ⟨_, _, lexesBefore, fromFirst⟩ := lexes.split
  obtain ⟨after, passes, size, leads, fromAfter⟩ := fromFirst.exists_after
  obtain ⟨front, split, start, -⟩ := (lexesBefore.append passes).exists_front
  exact ⟨front, _, split, start, (Lexeme.isTokenText leads.proper).head?_ne_space after,
    .cons size leads fromAfter⟩

/-- What stands up to the end of a token ends with the token, and is split into the same
tokens without what follows. -/
theorem exists_upTo {init more : List Token} {last : Token}
    (lexes : Lexes offset chars (init ++ last :: more) stop rest) :
    ∃ part back, chars = part ++ back ∧ last.span.stop = offset + byteLength part ∧
      part.getLast? ≠ some ' ' ∧ Lexes offset part (init ++ [last]) last.span.stop [] := by
  obtain ⟨_, _, lexesInit, fromLast⟩ := lexes.split
  obtain ⟨back, passes, size, leads, -⟩ := fromLast.exists_after
  have beforeLast := lexesInit.append passes
  rw [List.append_nil] at beforeLast
  obtain ⟨front, frontSplit, -, -⟩ := beforeLast.exists_front
  obtain ⟨part, partSplit, partStop, lexesPart⟩ :=
    (beforeLast.append (.cons size leads .done)).exists_front
  have partIs : part = front ++ last.lexeme.text.toList := by
    rw [frontSplit, ← List.append_assoc] at partSplit
    exact (List.append_cancel_right partSplit).symm
  have isText := Lexeme.isTokenText leads.proper
  exact ⟨part, back, partSplit, partStop, partIs ▸ isText.getLast?_ne_space front, lexesPart⟩

/-- Consecutive tokens span a part of the text that is split into them by itself. It begins
and ends with a token. -/
theorem exists_part {before middle after : List Token}
    (lexes : Lexes offset chars (before ++ (middle ++ after)) stop rest) (nonempty : middle ≠ []) :
    ∃ front part back, chars = front ++ (part ++ back) ∧
      extent middle = ⟨offset + byteLength front, offset + byteLength front + byteLength part⟩ ∧
      (part ++ back).head? ≠ some ' ' ∧ part.getLast? ≠ some ' ' ∧
      Lexes (extent middle).start part middle (extent middle).stop [] := by
  obtain ⟨first, others, isFirst⟩ := List.exists_cons_of_ne_nil nonempty
  obtain ⟨init, last, isLast⟩ := (List.eq_nil_or_concat middle).resolve_left nonempty
  rw [List.concat_eq_append] at isLast
  have starts : (extent middle).start = first.span.start := by
    rw [isFirst]
    rfl
  have stops : (extent middle).stop = last.span.stop := by
    rw [isLast, extent, List.getLast?_concat]
    rfl
  rw [isFirst, List.cons_append] at lexes
  obtain ⟨front, fromFirst, rfl, start, begins, lexesFrom⟩ := lexes.exists_from
  rw [← List.cons_append, ← isFirst, isLast, List.append_assoc] at lexesFrom
  obtain ⟨part, back, rfl, stop, ends, lexesPart⟩ := lexesFrom.exists_upTo
  rw [← isLast, ← starts, ← stops] at lexesPart
  refine ⟨front, part, back, rfl, ?_, begins, ends, lexesPart⟩
  rw [← start, ← stop, ← starts, ← stops]

/-- The extent of some tokens contains the extents of those among them. -/
theorem extent_contains {tokens outer inner : List Token}
    (lexes : Lexes offset chars tokens stop rest) (outerPart : outer <:+: tokens)
    (innerPart : inner <:+: outer) (nonempty : inner ≠ []) :
    (extent outer).Contains (extent inner) := by
  obtain ⟨before, after, rfl⟩ := outerPart
  obtain ⟨first, last, rfl⟩ := innerPart
  rw [List.append_assoc] at lexes
  obtain ⟨_, part, _, -, outerExtent, -, -, lexesPart⟩ :=
    lexes.exists_part (by simp [nonempty])
  rw [List.append_assoc first] at lexesPart outerExtent
  obtain ⟨front, inside, back, split, innerExtent, -, -, -⟩ := lexesPart.exists_part nonempty
  have size : byteLength part = byteLength front + (byteLength inside + byteLength back) := by
    rw [split, byteLength_append, byteLength_append]
  rw [innerExtent, List.append_assoc first, outerExtent, Span.Contains]
  dsimp only
  omega

end Lexes

/-! ## Parts of the source -/

variable {source : String} {masked rest : List Char} {stop : Nat}

/-- A token is its text in the source too, where its span says. -/
theorem exists_sourceText (masks : Masks source.toList masked) {before after : List Token}
    {token : Token} (lexes : Lexes 0 masked (before ++ token :: after) stop rest) :
    ∃ front back, source.toList = front ++ (token.lexeme.text.toList ++ back) ∧
      token.span = ⟨byteLength front, byteLength front + byteLength token.lexeme.text.toList⟩ := by
  obtain ⟨maskedFront, maskedBack, rfl, span, isText⟩ := lexes.exists_text
  obtain ⟨front, others, split, masksFront, masksOthers⟩ :=
    masks.split (.inr (isText.head?_ne_space maskedBack))
  obtain ⟨text, back, rfl, masksText, -⟩ :=
    masksOthers.split (.inl (isText.getLast?_ne_space []))
  cases masksText.eq_of_noSpace isText.noSpace
  exact ⟨front, back, split, by rw [span, masksFront.byteLength_eq, byteLength_toList]⟩

/-- The span of a token denotes the token's text. -/
theorem slice?_token (masks : Masks source.toList masked) {before after : List Token}
    {token : Token} (lexes : Lexes 0 masked (before ++ token :: after) stop rest) :
    token.span.slice? source = some token.lexeme.text := by
  obtain ⟨front, back, split, span⟩ := exists_sourceText masks lexes
  rw [span, Span.slice?_eq split, String.ofList_toList]

/-- Consecutive tokens span a part of the source with closed comments, and the part is split
into these tokens. -/
theorem exists_slice (masks : Masks source.toList masked) {tokens middle : List Token}
    (lexes : Lexes 0 masked tokens stop rest) (consecutive : middle <:+: tokens)
    (nonempty : middle ≠ []) :
    ∃ part maskedPart, (extent middle).slice? source = some part ∧
      Masks part.toList maskedPart ∧
      Lexes (extent middle).start maskedPart middle (extent middle).stop [] := by
  obtain ⟨before, after, rfl⟩ := consecutive
  rw [List.append_assoc] at lexes
  obtain ⟨front, part, back, rfl, span, begins, ends, lexesPart⟩ := lexes.exists_part nonempty
  obtain ⟨sourceFront, others, split, masksFront, masksOthers⟩ := masks.split (.inr begins)
  obtain ⟨sourcePart, sourceBack, rfl, masksPart, -⟩ := masksOthers.split (.inl ends)
  refine ⟨String.ofList sourcePart, part, ?_, by rwa [String.toList_ofList], lexesPart⟩
  rw [span, Nat.zero_add, masksFront.byteLength_eq, masksPart.byteLength_eq, Span.slice?_eq split]

end PolyLambda.Grammar
