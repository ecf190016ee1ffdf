import PolyLambda.Context.Scope
import PolyLambda.Grammar.Lexer
import PolyLambda.Source.Comment

/-!
# Splitting a text into lexemes

What the longest match finds at the beginning of a text depends on the text after it only
where a word may go on. So a text is split piece by piece, from its end: a blank adds
nothing, a sign adds its symbol, and a word adds a keyword or a name if no character that
could belong to it follows.
-/

namespace PolyLambda.Grammar

open PolyLambda.Source (byteLength)

/-! ## Words -/

/-- A letter, and then letters, digits, `_` and `'`. -/
def IsWord (word : String) : Prop :=
  word.toList.head?.any isNameStart = true ∧ word.toList.tail.all isNameRest = true

/-- The words that are names, since no symbol is spelled like them. -/
def IsName (word : String) : Prop :=
  IsWord word ∧ ∀ fixed ∈ Symbol.all, fixed.text ≠ word

instance (word : String) : Decidable (IsWord word) :=
  inferInstanceAs (Decidable (_ ∧ _))

instance (word : String) : Decidable (IsName word) :=
  inferInstanceAs (Decidable (_ ∧ _))

/-- Some binders have names that can be read as such. -/
def AllNames (binders : List Binder) : Prop :=
  ∀ binder ∈ binders, IsName binder.name

/-- A word begins with a character that begins names, and goes on with characters of names. -/
theorem IsWord.chars {word : String} (isWord : IsWord word) :
    ∃ first more, word.toList = first :: more ∧ isNameStart first = true ∧
      ∀ char ∈ more, isNameRest char = true := by
  unfold IsWord at isWord
  cases chars : word.toList with
  | nil => simp [chars] at isWord
  | cons first more =>
      rw [chars] at isWord
      exact ⟨first, more, rfl, by simpa using isWord.1, by simpa using isWord.2⟩

/-- A text in front of which a word ends. -/
def EndsWord (rest : List Char) : Prop :=
  ∀ char ∈ rest.head?, isNameRest char = false

/-- A word ends at the end of the text. -/
theorem endsWord_nil : EndsWord [] := by
  simp [EndsWord]

/-- A word ends in front of a character that no name goes on with. -/
theorem endsWord_cons {char : Char} (ends : isNameRest char = false) (rest : List Char) :
    EndsWord (char :: rest) := by
  simpa [EndsWord] using ends

/-- The lexeme of a word has the word for its text. -/
theorem Lexeme.text_ofWord (word : String) : (Lexeme.ofWord word).text = word := by
  unfold Lexeme.ofWord
  split
  · next fixed found => simpa [Lexeme.text] using List.find?_some found
  · rfl

/-- The lexeme of the text of a symbol is the symbol. -/
theorem Lexeme.ofWord_text (fixed : Symbol) : Lexeme.ofWord fixed.text = .symbol fixed := by
  cases fixed <;> decide +kernel

/-- A word that is a name is read as a name. -/
theorem IsName.ofWord {word : String} (named : IsName word) : Lexeme.ofWord word = .name word := by
  have notFound : Symbol.all.find? (fun fixed => fixed.text == word) = none := by
    simpa using named.2
  simp [Lexeme.ofWord, notFound]

/-- The letters are those from `A` to `Z` and from `a` to `z`. -/
theorem isNameStart_iff {char : Char} :
    isNameStart char = true ↔
      65 ≤ char.toNat ∧ char.toNat ≤ 90 ∨ 97 ≤ char.toNat ∧ char.toNat ≤ 122 := by
  have upper : char.isUpper = true ↔ 65 ≤ char.toNat ∧ char.toNat ≤ 90 := by
    delta Char.isUpper
    simp [UInt32.le_iff_toNat_le]
  have lower : char.isLower = true ↔ 97 ≤ char.toNat ∧ char.toNat ≤ 122 := by
    delta Char.isLower
    simp [UInt32.le_iff_toNat_le]
  rw [← upper, ← lower, ← Bool.or_eq_true]
  rfl

/-- A character that begins names is no blank. -/
theorem isBlank_of_isNameStart {char : Char} (start : isNameStart char = true) :
    Text.isBlank char = false := by
  rw [isNameStart_iff] at start
  simp only [Text.isBlank, Text.inRanges, Text.blankRanges, List.any_cons, List.any_nil,
    Bool.or_false, Bool.or_eq_false_iff, Bool.and_eq_false_iff, decide_eq_false_iff_not]
  omega

/-- The longest run of characters of names is the word in front of where it ends. -/
theorem takeWhile_of_endsWord {word rest : List Char}
    (wordChars : ∀ char ∈ word, isNameRest char = true) (ends : EndsWord rest) :
    (word ++ rest).takeWhile isNameRest = word := by
  rw [List.takeWhile_append_of_pos wordChars]
  cases rest with
  | nil => simp
  | cons char rest =>
      have stops : isNameRest char = false := by simpa [EndsWord] using ends
      simp [stops]

/-! ## One lexeme -/

/-- Only an arrow is told by two characters. -/
theorem leadingLexeme?_of_ne_dash {char : Char} (noDash : char ≠ '-') (rest : List Char) :
    leadingLexeme? (char :: rest) =
      if isNameStart char then
        some (.ofWord (String.ofList (char :: rest.takeWhile isNameRest)))
      else
        (signOf? char).map .symbol := by
  have noArrow : ∀ tail, char = '-' → rest = '>' :: tail → False :=
    fun _ dash _ => noDash dash
  rw [leadingLexeme?]
  exact noArrow

/-- At a word, the longest match is the whole word. -/
theorem leadingLexeme?_word {first : Char} {more rest : List Char}
    (start : isNameStart first = true) (wordChars : ∀ char ∈ more, isNameRest char = true)
    (ends : EndsWord rest) :
    leadingLexeme? (first :: (more ++ rest)) =
      some (.ofWord (String.ofList (first :: more))) := by
  have noDash : first ≠ '-' := by
    rintro rfl
    exact absurd start (by decide)
  rw [leadingLexeme?_of_ne_dash noDash, if_pos start, takeWhile_of_endsWord wordChars ends]

/-- A sign is one character, no blank, that stands in no word and begins no arrow. -/
theorem signOf?_spec {char : Char} {fixed : Symbol} (sign : signOf? char = some fixed) :
    fixed.text.toList = [char] ∧ Text.isBlank char = false ∧ isNameStart char = false ∧
      isNameRest char = false ∧ char ≠ '-' := by
  unfold signOf? at sign
  split at sign <;> cases sign <;> decide

/-! ## Whole texts -/

/-- A text is split into some lexemes, wherever it begins. -/
def Spells (chars : List Char) (lexemes : List Lexeme) : Prop :=
  ∀ offset, (TokenStream.scan 0 offset chars).invalid = none ∧
    (TokenStream.scan 0 offset chars).tokens.map Token.lexeme = lexemes

/-- The rest of a token that has been read is passed over, byte by byte. -/
theorem TokenStream.scan_passes (front rest : List Char) (offset : Nat) :
    scan front.length offset (front ++ rest) = scan 0 (offset + byteLength front) rest := by
  induction front generalizing offset with
  | nil => rfl
  | cons char front frontIH =>
      rw [List.length_cons, List.cons_append, scan, frontIH, byteLength, Nat.add_assoc]

namespace Spells

variable {char : Char} {rest : List Char} {lexemes : List Lexeme}

/-- The empty text has no lexemes. -/
theorem nil : Spells [] [] :=
  fun _ => ⟨rfl, rfl⟩

/-- A blank in front of a text adds no lexeme. -/
theorem blank (isBlank : Text.isBlank char = true) (spells : Spells rest lexemes) :
    Spells (char :: rest) lexemes := by
  intro offset
  simpa [TokenStream.scan, isBlank] using spells (offset + char.utf8Size)

/-- A space in front of a text adds no lexeme. -/
theorem space (spells : Spells rest lexemes) : Spells (' ' :: rest) lexemes :=
  blank (by decide) spells

/-- The longest match at the beginning of a text comes first. -/
theorem leading {lexeme : Lexeme} {more : List Char} (text : lexeme.text.toList = char :: more)
    (notBlank : Text.isBlank char = false)
    (found : leadingLexeme? (char :: (more ++ rest)) = some lexeme)
    (spells : Spells rest lexemes) : Spells (char :: (more ++ rest)) (lexeme :: lexemes) := by
  intro offset
  have pending : lexeme.text.length - 1 = more.length := by
    rw [← String.length_toList, text, List.length_cons, Nat.add_sub_cancel]
  obtain ⟨valid, restLexemes⟩ := spells (offset + char.utf8Size + byteLength more)
  simp [TokenStream.scan, notBlank, found, pending, TokenStream.scan_passes, valid, restLexemes]

/-- A sign in front of a text adds its symbol. -/
theorem sign {fixed : Symbol} (isSign : signOf? char = some fixed)
    (spells : Spells rest lexemes) : Spells (char :: rest) (.symbol fixed :: lexemes) := by
  obtain ⟨text, notBlank, noWord, -, noDash⟩ := signOf?_spec isSign
  have symbolText : (Lexeme.symbol fixed).text.toList = [char] := text
  refine leading symbolText notBlank ?_ spells
  simp [leadingLexeme?_of_ne_dash noDash, noWord, isSign]

/-- An arrow in front of a text adds its symbol. -/
theorem arrow (spells : Spells rest lexemes) :
    Spells ('-' :: '>' :: rest) (.symbol .arrow :: lexemes) := by
  have text : (Lexeme.symbol .arrow).text.toList = '-' :: ['>'] := rfl
  exact leading text (by decide) rfl spells

/-- A word in front of a text that ends it adds its lexeme. -/
theorem word {text : String} (isWord : IsWord text) (ends : EndsWord rest)
    (spells : Spells rest lexemes) : Spells (text.toList ++ rest) (.ofWord text :: lexemes) := by
  obtain ⟨first, more, chars, start, wordChars⟩ := isWord.chars
  have found := leadingLexeme?_word start wordChars ends
  rw [← chars, String.ofList_toList] at found
  rw [chars]
  exact leading (by rw [Lexeme.text_ofWord, chars]) (isBlank_of_isNameStart start) found spells

/-- A name in front of a text that ends it adds the name. -/
theorem name {text : String} (isName : IsName text) (ends : EndsWord rest)
    (spells : Spells rest lexemes) : Spells (text.toList ++ rest) (.name text :: lexemes) :=
  isName.ofWord ▸ word isName.1 ends spells

/-- A keyword and a blank. -/
theorem keyword {fixed : Symbol} (isWord : IsWord fixed.text) (spells : Spells rest lexemes) :
    Spells (fixed.text.toList ++ ' ' :: rest) (.symbol fixed :: lexemes) :=
  Lexeme.ofWord_text fixed ▸ word isWord (endsWord_cons rfl _) (space spells)

/-- A name, a sign right after it, and a blank. -/
theorem nameSign {text : String} {fixed : Symbol} (isName : IsName text)
    (isSign : signOf? char = some fixed) (spells : Spells rest lexemes) :
    Spells (text.toList ++ char :: ' ' :: rest) (.name text :: .symbol fixed :: lexemes) := by
  obtain ⟨-, -, -, noWord, -⟩ := signOf?_spec isSign
  exact name isName (endsWord_cons noWord _) (sign isSign (space spells))

end Spells

end PolyLambda.Grammar

/-! ## Texts without comments -/

namespace PolyLambda.Source.MaskedText

/-- Without an asterisk there is no comment, and nothing is masked. -/
theorem scan_outside {chars : List Char} (noAsterisk : '*' ∉ chars) (offset : Nat) :
    scan .outside offset chars = ⟨chars, none⟩ := by
  induction chars generalizing offset with
  | nil => rfl
  | cons char rest restIH =>
      rw [List.mem_cons, not_or] at noAsterisk
      have opensNone : ∀ more, char = '(' → rest = '*' :: more → False := by
        rintro more - rfl
        exact noAsterisk.2 List.mem_cons_self
      -- No pattern of two characters matches, by `opensNone`.
      simp only [scan, prepend]
      rw [restIH noAsterisk.2]
      rfl

end PolyLambda.Source.MaskedText
