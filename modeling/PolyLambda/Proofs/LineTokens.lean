import PolyLambda.Proofs.ProgramPieces

/-!
# Cutting a text at its line ends

A text may be cut where a line ends: no delimiter of a comment and no token runs across
a line end. Masking goes on after the cut at the depth of comments reached before it,
and the tokens of the text are those before the cut and those after it.
-/

namespace PolyLambda.Source

/-- A text that is empty or ends with a line. -/
def EndsLine (chars : List Char) : Prop :=
  ∀ char ∈ chars.getLast?, char = '\n'

/-- A text that is empty or ends with a blank. -/
def EndsBlank (chars : List Char) : Prop :=
  ∀ char ∈ chars.getLast?, Text.isBlank char = true

/-- The empty text ends with a line. -/
theorem endsLine_nil : EndsLine [] :=
  nofun

/-- What ends with a line does so without its first character. -/
theorem EndsLine.tail {char : Char} {chars : List Char} (ends : EndsLine (char :: chars)) :
    EndsLine chars := by
  cases chars with
  | nil => exact endsLine_nil
  | cons next chars => rwa [EndsLine, List.getLast?_cons_cons] at ends

/-- What ends with a blank does so without its first character. -/
theorem EndsBlank.tail {char : Char} {chars : List Char} (ends : EndsBlank (char :: chars)) :
    EndsBlank chars := by
  cases chars with
  | nil => exact nofun
  | cons next chars => rwa [EndsBlank, List.getLast?_cons_cons] at ends

/-- A character in front of a text that ends with a blank, or a blank alone, ends
with a blank. -/
theorem EndsBlank.cons {char : Char} {chars : List Char} (ends : EndsBlank chars)
    (blank : chars = [] → Text.isBlank char = true) : EndsBlank (char :: chars) := by
  cases chars with
  | nil => simpa [EndsBlank] using blank
  | cons next chars => rwa [EndsBlank, List.getLast?_cons_cons]

/-- Two texts that end with a blank end with a blank together. -/
theorem EndsBlank.append {front back : List Char} (frontEnds : EndsBlank front)
    (backEnds : EndsBlank back) : EndsBlank (front ++ back) := by
  induction front with
  | nil => exact backEnds
  | cons char front frontIH =>
      refine (frontIH frontEnds.tail).cons fun empty => ?_
      obtain ⟨rfl, -⟩ := List.append_eq_nil_iff.mp empty
      exact frontEnds char rfl

/-- Where the whole ends with a blank every final part does. -/
theorem EndsBlank.of_append {front back : List Char} (ends : EndsBlank (front ++ back)) :
    EndsBlank back := by
  induction front with
  | nil => exact ends
  | cons char front frontIH => exact frontIH ends.tail

/-- Blanks end with a blank. -/
theorem endsBlank_replicate (count : Nat) : EndsBlank (List.replicate count ' ') := by
  intro char member
  obtain rfl := List.eq_of_mem_replicate (List.mem_of_getLast? member)
  decide

/-- A delimiter that begins in a text which ends with a line does not run out of it. -/
theorem EndsLine.pair_prefix {char first second : Char} {chars rest : List Char}
    (ends : EndsLine (char :: chars)) (notLine : first ≠ '\n')
    (begins : [first, second] <+: char :: (chars ++ rest)) : [first, second] <+: char :: chars := by
  rw [List.cons_prefix_cons] at begins ⊢
  cases chars with
  | nil => exact absurd (begins.1.trans (ends char rfl)) notLine
  | cons next chars =>
      rw [List.cons_append, List.cons_prefix_cons] at begins
      rw [List.cons_prefix_cons]
      exact ⟨begins.1, begins.2.1, List.nil_prefix⟩

/-- A text of no bytes is empty. -/
theorem eq_nil_of_byteLength {chars : List Char} (empty : byteLength chars = 0) : chars = [] := by
  cases chars with
  | nil => rfl
  | cons char chars =>
      have positive := char.utf8Size_pos
      rw [byteLength] at empty
      omega

/-- Where the outermost open comment began. -/
def CommentDepth.opened? : CommentDepth → Option Nat
  | outside => none
  | inside opened _ => some opened

namespace MaskedText

/-- Masking a text from some depth of comments, whatever follows it, writes `masked` and
goes on at another depth. -/
structure Passes (depth : CommentDepth) (offset : Nat) (chars masked : List Char)
    (next : CommentDepth) : Prop where
  scan_append : ∀ rest, scan depth offset (chars ++ rest) =
    prepend masked (scan next (offset + byteLength chars) rest)
  byteLength_eq : byteLength masked = byteLength chars
  endsBlank : EndsBlank masked

namespace Passes

variable {depth within next : CommentDepth} {offset : Nat} {chars masked : List Char}

/-- Masking passes over the empty text. -/
theorem nil : Passes depth offset [] [] depth where
  scan_append _ := rfl
  byteLength_eq := rfl
  endsBlank := nofun

/-- Masking passes over a delimiter of comments, which is written as two blanks. -/
theorem delimiter {first second : Char} (more : Passes within (offset + 2) chars masked next)
    (firstSize : first.utf8Size = 1) (secondSize : second.utf8Size = 1)
    (step : ∀ rest, scan depth offset (first :: second :: rest) =
      prepend [' ', ' '] (scan within (offset + 2) rest)) :
    Passes depth offset (first :: second :: chars) (' ' :: ' ' :: masked) next where
  scan_append rest := by
    rw [List.cons_append, List.cons_append, step, more.scan_append, prepend_prepend,
      byteLength_delimiter firstSize secondSize, Nat.add_assoc, Nat.add_comm 2]
    rfl
  byteLength_eq := by
    rw [byteLength_delimiter (by decide) (by decide), byteLength_delimiter firstSize secondSize,
      more.byteLength_eq]
  endsBlank := (more.endsBlank.cons fun _ => by decide).cons fun _ => by decide

/-- Masking passes over a character outside of comments, which stays. -/
theorem outsideChar {char : Char}
    (more : Passes .outside (offset + char.utf8Size) chars masked next)
    (ends : EndsLine (char :: chars)) (noOpening : ¬ ['(', '*'] <+: char :: chars) :
    Passes .outside offset (char :: chars) (char :: masked) next where
  scan_append rest := by
    have stillNoOpening : ¬ ['(', '*'] <+: char :: (chars ++ rest) :=
      fun opens => noOpening (ends.pair_prefix (by decide) opens)
    rw [List.cons_append, scan_outside_char stillNoOpening, more.scan_append, prepend_prepend,
      byteLength, Nat.add_assoc]
    rfl
  byteLength_eq := by rw [byteLength, byteLength, more.byteLength_eq]
  endsBlank := by
    refine more.endsBlank.cons fun empty => ?_
    have size := more.byteLength_eq
    rw [empty] at size
    obtain rfl := eq_nil_of_byteLength size.symm
    obtain rfl := ends char rfl
    decide

/-- Masking passes over a character inside a comment, which is written as blanks. -/
theorem insideChar {char : Char} {opened nested : Nat}
    (more : Passes (.inside opened nested) (offset + char.utf8Size) chars masked next)
    (ends : EndsLine (char :: chars)) (noDelimiter : ¬ BeginsDelimiter (char :: chars)) :
    Passes (.inside opened nested) offset (char :: chars)
      (List.replicate char.utf8Size ' ' ++ masked) next where
  scan_append rest := by
    have stillNoDelimiter : ¬ BeginsDelimiter (char :: (chars ++ rest)) := fun begins =>
      noDelimiter (begins.imp (ends.pair_prefix (by decide)) (ends.pair_prefix (by decide)))
    rw [List.cons_append, scan_inside_char stillNoDelimiter, more.scan_append, prepend_prepend,
      byteLength, Nat.add_assoc]
  byteLength_eq := by
    rw [byteLength_append, byteLength_replicate, byteLength, more.byteLength_eq]
  endsBlank := (endsBlank_replicate _).append more.endsBlank

/-- Masking passes over two texts one after the other. -/
theorem append {front maskedFront : List Char}
    (first : Passes depth offset front maskedFront within)
    (second : Passes within (offset + byteLength front) chars masked next) :
    Passes depth offset (front ++ chars) (maskedFront ++ masked) next where
  scan_append rest := by
    rw [List.append_assoc, first.scan_append, second.scan_append, prepend_prepend,
      byteLength_append, Nat.add_assoc]
  byteLength_eq := by
    rw [byteLength_append, byteLength_append, first.byteLength_eq, second.byteLength_eq]
  endsBlank := first.endsBlank.append second.endsBlank

/-- Masking a text that is passed over gives what is written for it and the
comment left open. -/
theorem scan_eq (passes : Passes depth offset chars masked next) :
    scan depth offset chars = ⟨masked, next.opened?⟩ := by
  have scanned := passes.scan_append []
  rw [List.append_nil] at scanned
  rw [scanned]
  cases next <;> simp [scan, prepend, CommentDepth.opened?]

end Passes

/-- A text that ends with a line is masked whatever follows it. -/
theorem exists_passes (depth : CommentDepth) (offset : Nat) {chars : List Char}
    (ends : EndsLine chars) : ∃ masked next, Passes depth offset chars masked next := by
  induction depth, offset, chars using scan.induct with
  | case1 | case2 => exact ⟨_, _, .nil⟩
  | case3 offset rest restIH =>
      obtain ⟨masked, next, passes⟩ := restIH ends.tail.tail
      exact ⟨_, _, passes.delimiter (by decide) (by decide) fun _ => rfl⟩
  | case4 opened nested offset rest restIH =>
      obtain ⟨masked, next, passes⟩ := restIH ends.tail.tail
      exact ⟨_, _, passes.delimiter (by decide) (by decide) fun _ => rfl⟩
  | case5 opened offset rest restIH =>
      obtain ⟨masked, next, passes⟩ := restIH ends.tail.tail
      exact ⟨_, _, passes.delimiter (by decide) (by decide) fun _ => rfl⟩
  | case6 opened nested offset rest restIH =>
      obtain ⟨masked, next, passes⟩ := restIH ends.tail.tail
      exact ⟨_, _, passes.delimiter (by decide) (by decide) fun _ => rfl⟩
  | case7 offset char rest noOpening restIH =>
      obtain ⟨masked, next, passes⟩ := restIH ends.tail
      refine ⟨_, _, passes.outsideChar ends ?_⟩
      rintro ⟨more, opens⟩
      cases opens
      exact noOpening more rfl rfl
  | case8 opened nested offset char rest noOpening noLast noClosing restIH =>
      obtain ⟨masked, next, passes⟩ := restIH ends.tail
      refine ⟨_, _, passes.insideChar ends ?_⟩
      rintro (⟨more, opens⟩ | ⟨more, closes⟩)
      · cases opens
        exact noOpening more rfl rfl
      · cases closes
        cases nested with
        | zero => exact noLast more rfl rfl rfl
        | succ nested => exact noClosing nested more rfl rfl rfl

end MaskedText

end PolyLambda.Source

namespace PolyLambda.Grammar

open PolyLambda.Source

/-- A character of a name is no blank. -/
theorem isBlank_of_isNameRest {char : Char} (inName : isNameRest char = true) :
    Text.isBlank char = false := by
  simp only [isNameRest, Char.isAlphanum, Bool.or_eq_true, beq_iff_eq] at inName
  obtain ((isAlpha | isDigit) | rfl) | rfl := inName
  · exact isBlank_of_isNameStart isAlpha
  · have digit : 48 ≤ char.toNat ∧ char.toNat ≤ 57 := by
      delta Char.isDigit at isDigit
      simpa [UInt32.le_iff_toNat_le] using isDigit
    simp only [Text.isBlank, Text.inRanges, Text.blankRanges, List.any_cons, List.any_nil,
      Bool.or_false, Bool.or_eq_false_iff, Bool.and_eq_false_iff, decide_eq_false_iff_not]
    omega
  · decide
  · decide

/-- No token has a blank in it. -/
theorem IsTokenText.noBlank {text : String} (isText : IsTokenText text) {char : Char}
    (member : char ∈ text.toList) : Text.isBlank char = false := by
  obtain inWord | rfl | rfl := isText.mem member
  · exact isBlank_of_isNameRest inWord
  · obtain rfl | rfl : char = '-' ∨ char = '>' := by simpa using member
    · decide
    · decide
  · obtain ⟨first, more, textChars, notBlank⟩ := isText.exists_first
    rw [String.toList_ofList] at textChars
    cases textChars
    exact notBlank

namespace Lexes

variable {offset stop : Nat} {chars rest : List Char} {tokens : List Token}

/-- Splitting a text goes forward. -/
theorem offset_le (lexes : Lexes offset chars tokens stop rest) : offset ≤ stop := by
  obtain ⟨front, -, rfl, -⟩ := lexes.exists_front
  exact Nat.le_add_right _ _

/-- Tokens begin inside the text that they are read from. -/
theorem start_mem {token : Token} (lexes : Lexes offset chars tokens stop rest)
    (member : token ∈ tokens) : offset ≤ token.span.start ∧ token.span.start < stop := by
  induction lexes with
  | done => cases member
  | blank _ _ moreIH =>
      have bounds := moreIH member
      omega
  | @token offset stop lexeme chars rest tokens leads more moreIH =>
      have positive : 0 < lexeme.text.utf8ByteSize := by
        obtain ⟨first, more, textChars, -⟩ := (Lexeme.isTokenText leads.proper).exists_first
        rw [← byteLength_toList, textChars, byteLength]
        exact Nat.add_pos_left first.utf8Size_pos _
      have onward := more.offset_le
      obtain rfl | later := List.mem_cons.mp member
      · exact ⟨Nat.le_refl _, Nat.lt_of_lt_of_le (Nat.lt_add_of_pos_right positive) onward⟩
      · have bounds := moreIH later
        omega

/-- No token runs across a blank. -/
theorem cut {front back : List Char} (lexes : Lexes offset (front ++ back) tokens stop [])
    (ends : EndsBlank front) :
    ∃ before after, tokens = before ++ after ∧
      Lexes offset front before (offset + byteLength front) [] ∧
      Lexes (offset + byteLength front) back after stop [] := by
  generalize whole : front ++ back = chars at lexes
  generalize ended : ([] : List Char) = final at lexes
  induction lexes generalizing front with
  | done =>
      cases ended
      obtain ⟨rfl, rfl⟩ := List.append_eq_nil_iff.mp whole
      exact ⟨[], [], rfl, .done, .done⟩
  | @blank offset stop char chars final tokens isBlank more moreIH =>
      cases front with
      | nil =>
          cases whole
          cases ended
          exact ⟨[], tokens, rfl, .done, .blank isBlank more⟩
      | cons head front =>
          cases whole
          obtain ⟨before, after, rfl, lexesFront, lexesBack⟩ := moreIH ends.tail rfl ended
          rw [Nat.add_assoc offset] at lexesFront lexesBack
          exact ⟨before, after, rfl, .blank isBlank lexesFront, lexesBack⟩
  | @token offset stop lexeme chars final tokens leads more moreIH =>
      have isText := Lexeme.isTokenText leads.proper
      obtain ⟨inner, split, rfl⟩ | ⟨inner, split, rfl⟩ := List.append_eq_append_iff.mp whole
      · cases front with
        | nil =>
            cases ended
            rw [List.nil_append] at split
            subst split
            exact ⟨[], _, rfl, .done, .token leads more⟩
        | cons head front =>
            -- The token would run across the blank at the end of the front.
            obtain ⟨last, isLast⟩ := Option.isSome_iff_exists.mp
              (List.getLast?_isSome.mpr (List.cons_ne_nil head front))
            have inText : last ∈ lexeme.text.toList := by
              rw [split]
              exact List.mem_append_left _ (List.mem_of_getLast? isLast)
            have notBlank := isText.noBlank inText
            rw [ends last isLast] at notBlank
            cases notBlank
      · subst split
        obtain ⟨before, after, rfl, lexesFront, lexesBack⟩ := moreIH ends.of_append rfl ended
        rw [Nat.add_assoc offset, ← byteLength_toList, ← byteLength_append] at lexesFront lexesBack
        rw [byteLength_toList] at lexesFront
        exact ⟨_, after, rfl, .token leads.of_append lexesFront, lexesBack⟩

end Lexes

end PolyLambda.Grammar
