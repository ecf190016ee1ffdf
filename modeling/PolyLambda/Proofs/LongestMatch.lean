import PolyLambda.Proofs.Lexing

/-!
# Longest match

The terminals match texts: a symbol its spelling, a name any word. A text is split into
tokens from its beginning. The next token is the longest text that a terminal matches,
a symbol if one is spelled like it, and blanks in front of it are skipped. This module
states that rule apart from the scan that carries it out, and shows that the scan
finds the tokens that the rule allows, and no others.
-/

namespace PolyLambda.Source

/-- The bytes of two texts together are those of the first and those of the second. -/
theorem byteLength_append (front rest : List Char) :
    byteLength (front ++ rest) = byteLength front + byteLength rest := by
  induction front with
  | nil => simp [byteLength]
  | cons char front frontIH => simp [byteLength, frontIH, Nat.add_assoc]

/-- The bytes of the characters of a text are the bytes of the text. -/
theorem byteLength_toList (text : String) : byteLength text.toList = text.utf8ByteSize := by
  suffices ofChars : ∀ chars, byteLength chars = (String.ofList chars).utf8ByteSize by
    simpa using ofChars text.toList
  intro chars
  induction chars with
  | nil => rfl
  | cons char chars charsIH =>
      rw [byteLength, charsIH, String.ofList_cons, String.utf8ByteSize_append,
        String.utf8ByteSize_singleton]

end PolyLambda.Source

namespace PolyLambda.Grammar

open PolyLambda.Source (byteLength)

/-! ## The texts of tokens -/

/-- The texts that some terminal matches. -/
def IsTokenText (text : String) : Prop :=
  (∃ fixed : Symbol, fixed.text = text) ∨ IsWord text

/-- A name is a word that no symbol is spelled like. -/
def Lexeme.IsProper : Lexeme → Prop
  | .symbol _ => True
  | .name text => IsName text

/-- A lexeme in front of some text is the longest match there. -/
structure Lexeme.Leads (lexeme : Lexeme) (rest : List Char) : Prop where
  proper : lexeme.IsProper
  longest : ∀ text, IsTokenText text → text.toList <+: lexeme.text.toList ++ rest →
    text.length ≤ lexeme.text.length

/-- A symbol is spelled as a word, as an arrow of two characters or as a sign. -/
theorem Symbol.text_cases (fixed : Symbol) :
    IsWord fixed.text ∨ fixed = .arrow ∨
      ∃ char, fixed.text.toList = [char] ∧ signOf? char = some fixed := by
  cases fixed with
  | arrow => exact .inr (.inl rfl)
  | openParen | closeParen | comma | dot | colon | semicolon | equals | openBracket | closeBracket
  | bigLambdaSign | lambdaSign | arrowSign | forallSign => exact .inr (.inr ⟨_, rfl, rfl⟩)
  | _ => exact .inl (by decide)

/-- The text of a token is a word, an arrow or a sign. -/
theorem IsTokenText.cases {text : String} (isText : IsTokenText text) :
    IsWord text ∨ text = "->" ∨ ∃ char fixed, signOf? char = some fixed ∧ text.toList = [char] := by
  obtain ⟨fixed, rfl⟩ | isWord := isText
  · obtain isWord | rfl | ⟨char, chars, isSign⟩ := fixed.text_cases
    · exact .inl isWord
    · exact .inr (.inl rfl)
    · exact .inr (.inr ⟨char, fixed, isSign, chars⟩)
  · exact .inl isWord

/-- At a letter, no match is longer than the word there. -/
theorem IsTokenText.length_le_word {text : String} (isText : IsTokenText text) {first : Char}
    {chars : List Char} (start : isNameStart first = true)
    (front : text.toList <+: first :: chars) :
    text.length ≤ (chars.takeWhile isNameRest).length + 1 := by
  rw [← String.length_toList]
  obtain isWord | rfl | ⟨char, fixed, -, textChars⟩ := isText.cases
  · obtain ⟨head, more, textChars, -, wordChars⟩ := isWord.chars
    rw [textChars] at front ⊢
    obtain ⟨-, rest, rfl⟩ := List.cons_prefix_cons.mp front
    simp [List.takeWhile_append_of_pos wordChars]
  · obtain ⟨rfl, -⟩ := List.cons_prefix_cons.mp front
    exact absurd start (by decide)
  · simp [textChars]

/-- At a sign, no match is longer than the sign. -/
theorem IsTokenText.length_le_sign {text : String} (isText : IsTokenText text) {char : Char}
    {fixed : Symbol} {chars : List Char} (isSign : signOf? char = some fixed)
    (front : text.toList <+: char :: chars) : text.length ≤ 1 := by
  obtain ⟨-, -, noStart, -, noDash⟩ := signOf?_spec isSign
  rw [← String.length_toList]
  obtain isWord | rfl | ⟨char, fixed, -, textChars⟩ := isText.cases
  · obtain ⟨head, more, textChars, start, -⟩ := isWord.chars
    rw [textChars] at front
    obtain ⟨rfl, -⟩ := List.cons_prefix_cons.mp front
    exact absurd start (by simp [noStart])
  · obtain ⟨rfl, -⟩ := List.cons_prefix_cons.mp front
    exact absurd rfl noDash
  · simp [textChars]

/-- At a dash, only an arrow matches. -/
theorem IsTokenText.eq_arrow {text : String} (isText : IsTokenText text) {chars : List Char}
    (front : text.toList <+: '-' :: chars) : text = "->" := by
  obtain isWord | rfl | ⟨char, fixed, isSign, textChars⟩ := isText.cases
  · obtain ⟨head, more, textChars, start, -⟩ := isWord.chars
    rw [textChars] at front
    obtain ⟨rfl, -⟩ := List.cons_prefix_cons.mp front
    exact absurd start (by decide)
  · rfl
  · rw [textChars] at front
    obtain ⟨rfl, -⟩ := List.cons_prefix_cons.mp front
    cases isSign

/-- A token begins with a character that is not blank. -/
theorem IsTokenText.exists_first {text : String} (isText : IsTokenText text) :
    ∃ first more, text.toList = first :: more ∧ Text.isBlank first = false := by
  obtain isWord | rfl | ⟨char, fixed, isSign, textChars⟩ := isText.cases
  · obtain ⟨first, more, textChars, start, -⟩ := isWord.chars
    exact ⟨first, more, textChars, isBlank_of_isNameStart start⟩
  · exact ⟨'-', ['>'], rfl, by decide⟩
  · obtain ⟨-, notBlank, -, -, -⟩ := signOf?_spec isSign
    exact ⟨char, [], textChars, notBlank⟩

/-- A character of a token belongs to a word or an arrow, or is the whole token. -/
theorem IsTokenText.mem {text : String} (isText : IsTokenText text) {char : Char}
    (member : char ∈ text.toList) :
    isNameRest char = true ∨ text = "->" ∨ text = String.ofList [char] := by
  obtain isWord | isArrow | ⟨sign, fixed, -, textChars⟩ := isText.cases
  · obtain ⟨first, more, textChars, start, wordChars⟩ := isWord.chars
    rw [textChars, List.mem_cons] at member
    refine .inl (member.elim (fun isFirst => ?_) (wordChars char))
    rw [isFirst, isNameRest, Char.isAlphanum, show first.isAlpha = true from start]
    rfl
  · exact .inr (.inl isArrow)
  · rw [textChars, List.mem_singleton] at member
    rw [member, ← textChars, String.ofList_toList]
    exact .inr (.inr rfl)

/-- No token has a space in it. -/
theorem IsTokenText.noSpace {text : String} (isText : IsTokenText text) : ' ' ∉ text.toList := by
  intro member
  obtain inWord | rfl | rfl := isText.mem member
  · exact absurd inWord (by decide)
  · exact absurd member (by decide)
  · obtain ⟨first, more, textChars, notBlank⟩ := isText.exists_first
    rw [String.toList_ofList] at textChars
    cases textChars
    exact absurd notBlank (by decide)

/-! ## The longest match -/

/-- The text of a proper lexeme is the text of a token. -/
theorem Lexeme.isTokenText {lexeme : Lexeme} (proper : lexeme.IsProper) :
    IsTokenText lexeme.text := by
  cases lexeme with
  | symbol fixed => exact .inl ⟨fixed, rfl⟩
  | name text => exact .inr proper.1

/-- A word is a proper lexeme. -/
theorem Lexeme.isProper_ofWord {word : String} (isWord : IsWord word) :
    (Lexeme.ofWord word).IsProper := by
  unfold Lexeme.ofWord
  split
  · trivial
  · next notFound => exact ⟨isWord, by simpa using notFound⟩

/-- A proper lexeme is found again from its text. -/
theorem Lexeme.ofWord_eq {lexeme : Lexeme} (proper : lexeme.IsProper) :
    Lexeme.ofWord lexeme.text = lexeme := by
  cases lexeme with
  | symbol fixed => exact Lexeme.ofWord_text fixed
  | name text => exact proper.ofWord

/-- A lexeme that leads a text leads every beginning of it. -/
theorem Lexeme.Leads.of_append {lexeme : Lexeme} {chars rest : List Char}
    (leads : lexeme.Leads (chars ++ rest)) : lexeme.Leads chars :=
  ⟨leads.proper, fun text isText front =>
    leads.longest text isText (front.trans (by simp [← List.append_assoc]))⟩

/-- After the longest match at a word, the word has ended. -/
theorem Lexeme.Leads.endsWord {lexeme : Lexeme} {rest : List Char} (leads : lexeme.Leads rest)
    (isWord : IsWord lexeme.text) : EndsWord rest := by
  intro char next
  rw [Bool.eq_false_iff]
  intro more
  obtain ⟨tail, rfl⟩ : ∃ tail, rest = char :: tail := by
    cases rest with
    | nil => simp at next
    | cons head tail => exact ⟨tail, by simpa using next⟩
  -- The word and this character would be a longer match.
  have longer : IsWord (String.ofList (lexeme.text.toList ++ [char])) := by
    obtain ⟨first, others, chars, start, wordChars⟩ := isWord.chars
    simpa [IsWord, chars, start, more] using wordChars
  have bound := leads.longest _ (.inr longer) (by simp)
  simp only [String.length_ofList, List.length_append, String.length_toList,
    List.length_singleton] at bound
  omega

/-- A lexeme that leads a text is found at its beginning. -/
theorem Lexeme.Leads.leadingLexeme? {lexeme : Lexeme} {rest : List Char}
    (leads : lexeme.Leads rest) : leadingLexeme? (lexeme.text.toList ++ rest) = some lexeme := by
  have fromWord : IsWord lexeme.text →
      Grammar.leadingLexeme? (lexeme.text.toList ++ rest) = some lexeme := by
    intro isWord
    obtain ⟨first, more, chars, start, wordChars⟩ := isWord.chars
    rw [chars, List.cons_append, leadingLexeme?_word start wordChars (leads.endsWord isWord),
      ← chars, String.ofList_toList, Lexeme.ofWord_eq leads.proper]
  cases lexeme with
  | name text => exact fromWord leads.proper.1
  | symbol fixed =>
      obtain isWord | rfl | ⟨char, chars, isSign⟩ := fixed.text_cases
      · exact fromWord isWord
      · rfl
      · obtain ⟨-, -, noStart, -, noDash⟩ := signOf?_spec isSign
        simp [Lexeme.text, chars, leadingLexeme?_of_ne_dash noDash, noStart, isSign]

/-- A lexeme that is found at the beginning of a text leads the rest. -/
theorem exists_leads {chars : List Char} {lexeme : Lexeme}
    (found : leadingLexeme? chars = some lexeme) :
    ∃ rest, chars = lexeme.text.toList ++ rest ∧ lexeme.Leads rest := by
  unfold leadingLexeme? at found
  split at found
  · cases found
  · next rest =>
      cases found
      refine ⟨rest, rfl, trivial, fun text isText front => ?_⟩
      cases isText.eq_arrow front
      exact Nat.le_refl _
  · next char rest _ =>
      split at found
      · next start =>
          cases found
          have isWord : IsWord (String.ofList (char :: rest.takeWhile isNameRest)) := by
            simp [IsWord, start]
          refine ⟨rest.dropWhile isNameRest, ?_, Lexeme.isProper_ofWord isWord, ?_⟩
          · simp [Lexeme.text_ofWord]
          · intro text isText front
            rw [Lexeme.text_ofWord] at front ⊢
            simpa [Nat.add_comm] using isText.length_le_word start (by simpa using front)
      · obtain ⟨fixed, isSign, rfl⟩ := Option.map_eq_some_iff.mp found
        obtain ⟨textChars, -, -, -, -⟩ := signOf?_spec isSign
        have lexemeChars : (Lexeme.symbol fixed).text.toList = [char] := textChars
        refine ⟨rest, by rw [lexemeChars]; rfl, trivial, fun text isText front => ?_⟩
        rw [lexemeChars] at front
        have lexemeLength : (Lexeme.symbol fixed).text.length = 1 := by
          rw [← String.length_toList, lexemeChars, List.length_singleton]
        rw [lexemeLength]
        exact isText.length_le_sign isSign front

/-- Where no lexeme is found, no terminal matches anything. -/
theorem not_isTokenText_of_leadingLexeme? {chars : List Char} (none : leadingLexeme? chars = none)
    {text : String} (front : text.toList <+: chars) : ¬ IsTokenText text := by
  intro isText
  obtain isWord | rfl | ⟨char, fixed, isSign, textChars⟩ := isText.cases
  · obtain ⟨first, more, textChars, start, -⟩ := isWord.chars
    rw [textChars] at front
    obtain ⟨rest, rfl⟩ := front
    have noDash : first ≠ '-' := by
      rintro rfl
      exact absurd start (by decide)
    simp [leadingLexeme?_of_ne_dash noDash, start] at none
  · obtain ⟨rest, rfl⟩ := front
    simp [leadingLexeme?] at none
  · obtain ⟨-, -, noStart, -, noDash⟩ := signOf?_spec isSign
    rw [textChars] at front
    obtain ⟨rest, rfl⟩ := front
    simp [leadingLexeme?_of_ne_dash noDash, noStart, isSign] at none

/-! ## Splitting a text -/

/-- Some tokens are split off the beginning of a text that begins at byte `offset`; `rest`
is left, which begins at byte `stop`. -/
inductive Lexes : Nat → List Char → List Token → Nat → List Char → Prop
  | done {offset : Nat} {chars : List Char} : Lexes offset chars [] offset chars
  | blank {offset stop : Nat} {char : Char} {chars rest : List Char} {tokens : List Token}
      (isBlank : Text.isBlank char = true)
      (more : Lexes (offset + char.utf8Size) chars tokens stop rest) :
      Lexes offset (char :: chars) tokens stop rest
  | token {offset stop : Nat} {lexeme : Lexeme} {chars rest : List Char} {tokens : List Token}
      (leads : lexeme.Leads chars)
      (more : Lexes (offset + lexeme.text.utf8ByteSize) chars tokens stop rest) :
      Lexes offset (lexeme.text.toList ++ chars)
        (⟨lexeme, ⟨offset, offset + lexeme.text.utf8ByteSize⟩⟩ :: tokens) stop rest

/-- The whole of a text is split into some tokens. -/
def Tokenizes (chars : List Char) (tokens : List Token) : Prop :=
  Lexes 0 chars tokens (byteLength chars) []

namespace Lexes

variable {offset stop : Nat} {chars rest : List Char} {tokens : List Token}

/-- Splitting goes on with the rest of a text. -/
theorem append {last : Nat} {final : List Char} {more : List Token}
    (first : Lexes offset chars tokens stop rest) (second : Lexes stop rest more last final) :
    Lexes offset chars (tokens ++ more) last final := by
  induction first with
  | done => exact second
  | blank isBlank _ moreIH => exact .blank isBlank (moreIH second)
  | token leads _ moreIH => exact .token leads (moreIH second)

/-- A text is split into proper lexemes. -/
theorem proper (lexes : Lexes offset chars tokens stop rest) :
    ∀ token ∈ tokens, token.lexeme.IsProper := by
  induction lexes with
  | done => simp
  | blank _ _ moreIH => exact moreIH
  | token leads _ moreIH => exact List.forall_mem_cons.mpr ⟨leads.proper, moreIH⟩

/-- What has been split off and what is left make up the text. The part that has been split
off is split in the same way without what follows. -/
theorem exists_front (lexes : Lexes offset chars tokens stop rest) :
    ∃ front, chars = front ++ rest ∧ stop = offset + byteLength front ∧
      Lexes offset front tokens stop [] := by
  induction lexes with
  | done => exact ⟨[], rfl, rfl, .done⟩
  | @blank offset stop char _ _ _ isBlank _ moreIH =>
      obtain ⟨front, rfl, rfl, cut⟩ := moreIH
      exact ⟨char :: front, rfl, by simp [byteLength, Nat.add_assoc], .blank isBlank cut⟩
  | @token offset stop lexeme _ _ _ leads _ moreIH =>
      obtain ⟨front, rfl, rfl, cut⟩ := moreIH
      refine ⟨lexeme.text.toList ++ front, (List.append_assoc ..).symm, ?_,
        .token leads.of_append cut⟩
      rw [Source.byteLength_append, Source.byteLength_toList, Nat.add_assoc]

/-- What is split from the beginning with no rest is split as a whole. -/
theorem tokenizes (lexes : Lexes 0 chars tokens stop []) : Tokenizes chars tokens := by
  obtain ⟨front, rfl, rfl, -⟩ := lexes.exists_front
  simpa [Tokenizes] using lexes

end Lexes

/-- The next character neither is blank nor begins a token. -/
def NoTokenStarts (rest : List Char) : Prop :=
  ∃ char more, rest = char :: more ∧ Text.isBlank char = false ∧
    ∀ text : String, text.toList <+: rest → ¬ IsTokenText text

/-! ## The scan -/

namespace TokenStream

/-- A blank is passed over. -/
theorem scan_blank {char : Char} (isBlank : Text.isBlank char = true) (offset : Nat)
    (chars : List Char) :
    scan 0 offset (char :: chars) = scan 0 (offset + char.utf8Size) chars := by
  rw [scan, if_pos isBlank]

/-- A lexeme that leads a text is the next token. -/
theorem scan_leads {lexeme : Lexeme} {chars : List Char} (leads : lexeme.Leads chars)
    (offset : Nat) :
    scan 0 offset (lexeme.text.toList ++ chars) =
      let following := scan 0 (offset + lexeme.text.utf8ByteSize) chars
      { following with
        tokens := ⟨lexeme, ⟨offset, offset + lexeme.text.utf8ByteSize⟩⟩ :: following.tokens } := by
  obtain ⟨first, more, textChars, notBlank⟩ := (Lexeme.isTokenText leads.proper).exists_first
  have found : leadingLexeme? (first :: (more ++ chars)) = some lexeme := by
    simpa [textChars] using leads.leadingLexeme?
  have length : lexeme.text.length - 1 = more.length := by
    rw [← String.length_toList, textChars, List.length_cons, Nat.add_sub_cancel]
  have size : lexeme.text.utf8ByteSize = first.utf8Size + byteLength more := by
    rw [← Source.byteLength_toList, textChars, byteLength]
  simp [textChars, scan, notBlank, found, length, size, scan_passes, Nat.add_assoc]

/-- What is split off a text is what the scan finds first. -/
theorem scan_of_lexes {offset stop : Nat} {chars rest : List Char} {tokens : List Token}
    (lexes : Lexes offset chars tokens stop rest) :
    scan 0 offset chars =
      { scan 0 stop rest with tokens := tokens ++ (scan 0 stop rest).tokens } := by
  induction lexes with
  | done => rfl
  | blank isBlank _ moreIH => rw [scan_blank isBlank, moreIH]
  | token leads _ moreIH => simp [scan_leads leads, moreIH]

/-- The scan splits a text up to its end, or to a character where no token starts. -/
theorem exists_lexes (offset : Nat) (chars : List Char) :
    ∃ stop rest, Lexes offset chars (scan 0 offset chars).tokens stop rest ∧
      (rest = [] ∧ (scan 0 offset chars).invalid = none ∨
        ∃ char more, rest = char :: more ∧ NoTokenStarts rest ∧
          (scan 0 offset chars).invalid = some ⟨stop, stop + char.utf8Size⟩) := by
  -- A token takes off more than one character, so the induction is on the length.
  induction size : chars.length using Nat.strongRecOn generalizing offset chars with
  | ind count countIH =>
      cases chars with
      | nil => exact ⟨offset, [], .done, .inl ⟨rfl, rfl⟩⟩
      | cons char chars =>
          cases isBlank : Text.isBlank char with
          | true =>
              obtain ⟨stop, rest, lexes, ending⟩ :=
                countIH chars.length (by simp [← size]) (offset + char.utf8Size) chars rfl
              rw [scan_blank isBlank]
              exact ⟨stop, rest, .blank isBlank lexes, ending⟩
          | false =>
              cases found : leadingLexeme? (char :: chars) with
              | none =>
                  have scanned : scan 0 offset (char :: chars) =
                      ⟨[], some ⟨offset, offset + char.utf8Size⟩⟩ := by
                    simp [scan, isBlank, found]
                  rw [scanned]
                  have starts : NoTokenStarts (char :: chars) :=
                    ⟨char, chars, rfl, isBlank, fun _ => not_isTokenText_of_leadingLexeme? found⟩
                  exact ⟨offset, char :: chars, .done, .inr ⟨char, chars, rfl, starts, rfl⟩⟩
              | some lexeme =>
                  obtain ⟨rest, split, leads⟩ := exists_leads found
                  obtain ⟨first, more, textChars, -⟩ :=
                    (Lexeme.isTokenText leads.proper).exists_first
                  have shorter : rest.length < count := by
                    rw [← size, split, textChars, List.cons_append, List.length_cons,
                      List.length_append]
                    omega
                  obtain ⟨stop, final, lexes, ending⟩ :=
                    countIH rest.length shorter (offset + lexeme.text.utf8ByteSize) rest rfl
                  rw [split, scan_leads leads]
                  exact ⟨stop, final, .token leads lexes, ending⟩

/-- The tokens of a text are those that it is split into, with nothing left over. -/
theorem ofChars_eq_iff {chars : List Char} {tokens : List Token} :
    ofChars chars = ⟨tokens, none⟩ ↔ Tokenizes chars tokens := by
  constructor
  · intro scanned
    obtain ⟨stop, rest, lexes, ⟨rfl, -⟩ | ⟨_, _, -, -, invalid⟩⟩ := exists_lexes 0 chars
    · have found : (scan 0 0 chars).tokens = tokens := congrArg TokenStream.tokens scanned
      exact (found ▸ lexes).tokenizes
    · have valid : (scan 0 0 chars).invalid = none := congrArg TokenStream.invalid scanned
      rw [valid] at invalid
      cases invalid
  · intro tokenizes
    simpa [ofChars, scan] using scan_of_lexes tokenizes

end TokenStream

/-- A text is split into tokens in one way. -/
theorem Lexes.unique {offset stop stop' : Nat} {chars : List Char} {tokens tokens' : List Token}
    (lexes : Lexes offset chars tokens stop []) (lexes' : Lexes offset chars tokens' stop' []) :
    tokens = tokens' := by
  have same := (TokenStream.scan_of_lexes lexes).symm.trans (TokenStream.scan_of_lexes lexes')
  simpa [TokenStream.scan] using same

end PolyLambda.Grammar
