import PolyLambda.Proofs.LongestMatch

/-!
# Comments and places in a text

A comment is an opening delimiter with the text up to the delimiter that closes it, where
comments nest and each delimiter consumes both of its characters. This module states what
masking does to a text whose comments are closed, apart from the scan that carries it out,
and shows that the scan does just that. Masking changes no byte offset, so a place outside
the comments cuts the text and the masked text at the same offset.
-/

namespace PolyLambda.Source

/-! ## Comments -/

/-- A delimiter of comments stands at the beginning. -/
def BeginsDelimiter (chars : List Char) : Prop :=
  ['(', '*'] <+: chars ∨ ['*', ')'] <+: chars

/-- A text up to the delimiter that closes a comment, in which `nested` further comments are
open at the beginning. -/
inductive ClosesComment : Nat → List Char → Prop
  | last : ClosesComment 0 ['*', ')']
  | opening {nested : Nat} {rest : List Char} (inner : ClosesComment (nested + 1) rest) :
      ClosesComment nested ('(' :: '*' :: rest)
  | closing {nested : Nat} {rest : List Char} (inner : ClosesComment nested rest) :
      ClosesComment (nested + 1) ('*' :: ')' :: rest)
  | char {nested : Nat} {char : Char} {rest : List Char}
      (noDelimiter : ¬ BeginsDelimiter (char :: rest)) (inner : ClosesComment nested rest) :
      ClosesComment nested (char :: rest)

/-- No delimiter in the text closes the comment that was opened before it. -/
def NeverCloses (chars : List Char) : Prop :=
  ∀ body, body <+: chars → ¬ ClosesComment 0 body

/-- A text whose comments are closed, and the text with blanks for its comments, one for
each byte. -/
inductive Masks : List Char → List Char → Prop
  | nil : Masks [] []
  | char {char : Char} {rest masked : List Char} (noOpening : ¬ ['(', '*'] <+: char :: rest)
      (more : Masks rest masked) : Masks (char :: rest) (char :: masked)
  | comment {body rest masked : List Char} (closes : ClosesComment 0 body)
      (more : Masks rest masked) :
      Masks ('(' :: '*' :: (body ++ rest)) (List.replicate (byteLength body + 2) ' ' ++ masked)

/-- What closes a comment is not empty. -/
theorem ClosesComment.exists_first {nested : Nat} {body : List Char}
    (closes : ClosesComment nested body) : ∃ first more, body = first :: more := by
  cases closes <;> exact ⟨_, _, rfl⟩

/-- Whether a delimiter begins a text depends on its first two characters. -/
theorem BeginsDelimiter.of_append {char : Char} {body rest : List Char} (body_ne : body ≠ [])
    (begins : BeginsDelimiter (char :: (body ++ rest))) : BeginsDelimiter (char :: body) := by
  cases body with
  | nil => exact absurd rfl body_ne
  | cons first more => simpa [BeginsDelimiter] using begins

/-- A text that begins with a delimiter does so whatever follows. -/
theorem BeginsDelimiter.append {chars : List Char} (begins : BeginsDelimiter chars)
    (rest : List Char) : BeginsDelimiter (chars ++ rest) :=
  begins.imp (·.trans (List.prefix_append ..)) (·.trans (List.prefix_append ..))

/-- A blank is one byte. -/
theorem byteLength_replicate (count : Nat) : byteLength (List.replicate count ' ') = count := by
  induction count with
  | zero => rfl
  | succ count countIH =>
      rw [List.replicate_succ, byteLength, countIH, (by decide : ' '.utf8Size = 1), Nat.add_comm]

/-- A delimiter takes two bytes. -/
theorem byteLength_delimiter {first second : Char} (firstSize : first.utf8Size = 1)
    (secondSize : second.utf8Size = 1) (rest : List Char) :
    byteLength (first :: second :: rest) = byteLength rest + 2 := by
  rw [byteLength, byteLength, firstSize, secondSize]
  omega

/-- Induction along the pieces of a text: characters outside comments, whole comments, and
at the end of the text a comment that nothing closes. -/
theorem pieceInduction {motive : List Char → Prop} (nil : motive [])
    (char : ∀ char rest, ¬ ['(', '*'] <+: char :: rest → motive rest → motive (char :: rest))
    (comment : ∀ body rest, ClosesComment 0 body → motive rest →
      motive ('(' :: '*' :: (body ++ rest)))
    (leftOpen : ∀ after, NeverCloses after → motive ('(' :: '*' :: after)) (chars : List Char) :
    motive chars := by
  -- A comment takes off its whole body, so the induction is on the length.
  induction size : chars.length using Nat.strongRecOn generalizing chars with
  | ind count countIH =>
      by_cases opens : ['(', '*'] <+: chars
      · obtain ⟨tail, rfl⟩ := opens
        by_cases closed : ∃ body rest, tail = body ++ rest ∧ ClosesComment 0 body
        · obtain ⟨body, rest, rfl, closes⟩ := closed
          have shorter : rest.length < count := by
            rw [← size, List.length_append, List.length_append]
            exact Nat.lt_of_le_of_lt (Nat.le_add_left ..) (Nat.lt_add_of_pos_left (by decide))
          exact comment body rest closes (countIH rest.length shorter rest rfl)
        · apply leftOpen
          rintro body ⟨rest, split⟩ closes
          exact closed ⟨body, rest, split.symm, closes⟩
      · cases chars with
        | nil => exact nil
        | cons first rest =>
            exact char first rest opens (countIH rest.length (by simp [← size]) rest rfl)

/-! ## The scan for comments -/

namespace MaskedText

/-- A character inside a comment is masked by as many blanks as it has bytes. -/
theorem scan_inside_char {char : Char} {rest : List Char}
    (noDelimiter : ¬ BeginsDelimiter (char :: rest)) (opened nested offset : Nat) :
    scan (.inside opened nested) offset (char :: rest) =
      prepend (List.replicate char.utf8Size ' ')
        (scan (.inside opened nested) (offset + char.utf8Size) rest) := by
  have noOpening : ∀ more, char = '(' → rest = '*' :: more → False := by
    rintro more rfl rfl
    exact noDelimiter (.inl ⟨more, rfl⟩)
  have noClosing : ∀ more, char = '*' → rest = ')' :: more → False := by
    rintro more rfl rfl
    exact noDelimiter (.inr ⟨more, rfl⟩)
  rw [scan]
  · exact noOpening
  · exact fun more _ => noClosing more
  · exact fun _ more _ => noClosing more

/-- A character outside of comments stays. -/
theorem scan_outside_char {char : Char} {rest : List Char}
    (noOpening : ¬ ['(', '*'] <+: char :: rest) (offset : Nat) :
    scan .outside offset (char :: rest) =
      prepend [char] (scan .outside (offset + char.utf8Size) rest) := by
  have opensNone : ∀ more, char = '(' → rest = '*' :: more → False := by
    rintro more rfl rfl
    exact noOpening ⟨more, rfl⟩
  rw [scan]
  exact opensNone

/-- Two pieces are written in front one after the other. -/
theorem prepend_prepend (front middle : List Char) (rest : MaskedText) :
    prepend front (prepend middle rest) = prepend (front ++ middle) rest := by
  simp [prepend]

/-- A comment is overwritten up to its end, where the scan is outside again. -/
theorem scan_closes {nested : Nat} {body : List Char} (closes : ClosesComment nested body)
    (opened offset : Nat) (rest : List Char) :
    scan (.inside opened nested) offset (body ++ rest) =
      prepend (List.replicate (byteLength body) ' ')
        (scan .outside (offset + byteLength body) rest) := by
  induction closes generalizing offset with
  | last => rfl
  | @opening nested body inner innerIH =>
      have opens : scan (.inside opened nested) offset ('(' :: '*' :: (body ++ rest)) =
          prepend [' ', ' '] (scan (.inside opened (nested + 1)) (offset + 2) (body ++ rest)) := rfl
      rw [List.cons_append, List.cons_append, opens, innerIH, prepend_prepend,
        byteLength_delimiter (by decide) (by decide)]
      simp [List.replicate_succ, Nat.add_assoc, Nat.add_comm 2]
  | @closing nested body inner innerIH =>
      have closes : scan (.inside opened (nested + 1)) offset ('*' :: ')' :: (body ++ rest)) =
          prepend [' ', ' '] (scan (.inside opened nested) (offset + 2) (body ++ rest)) := rfl
      rw [List.cons_append, List.cons_append, closes, innerIH, prepend_prepend,
        byteLength_delimiter (by decide) (by decide)]
      simp [List.replicate_succ, Nat.add_assoc, Nat.add_comm 2]
  | @char nested char body noDelimiter inner innerIH =>
      obtain ⟨first, more, rfl⟩ := inner.exists_first
      have inText : ¬ BeginsDelimiter (char :: (first :: more ++ rest)) :=
        fun begins => noDelimiter (begins.of_append (by simp))
      rw [List.cons_append, scan_inside_char inText, innerIH, prepend_prepend,
        List.replicate_append_replicate]
      simp [byteLength, Nat.add_assoc]

/-- A whole comment is overwritten, delimiters included. -/
theorem scan_comment {body : List Char} (closes : ClosesComment 0 body) (offset : Nat)
    (rest : List Char) :
    scan .outside offset ('(' :: '*' :: (body ++ rest)) =
      prepend (List.replicate (byteLength body + 2) ' ')
        (scan .outside (offset + (byteLength body + 2)) rest) := by
  have opens : scan .outside offset ('(' :: '*' :: (body ++ rest)) =
      prepend [' ', ' '] (scan (.inside offset 0) (offset + 2) (body ++ rest)) := rfl
  rw [opens, scan_closes closes, prepend_prepend, Nat.add_assoc, Nat.add_comm 2]
  rfl

/-- A text whose comments are closed is masked as `Masks` says. -/
theorem scan_masks {chars masked : List Char} (masks : Masks chars masked) (offset : Nat) :
    scan .outside offset chars = ⟨masked, none⟩ := by
  induction masks generalizing offset with
  | nil => rfl
  | char noOpening _ moreIH =>
      rw [scan_outside_char noOpening, moreIH]
      rfl
  | comment closes _ moreIH =>
      rw [scan_comment closes, moreIH]
      rfl

/-- Blanks in front of blanks are blanks. -/
theorem prepend_blanks (count more : Nat) (unclosed : Option Nat) :
    prepend (List.replicate count ' ') ⟨List.replicate more ' ', unclosed⟩ =
      ⟨List.replicate (count + more) ' ', unclosed⟩ := by
  simp [prepend]

/-- A comment that nothing closes is overwritten up to the end of the text, and it is
reported where it opened. -/
theorem scan_never_closes {nested : Nat} {chars : List Char}
    (never : ∀ body, body <+: chars → ¬ ClosesComment nested body) (opened offset : Nat) :
    scan (.inside opened nested) offset chars =
      ⟨List.replicate (byteLength chars) ' ', some opened⟩ := by
  -- Each delimiter takes off two characters, so the induction is on the length.
  induction size : chars.length using Nat.strongRecOn generalizing nested offset chars with
  | ind count countIH =>
      by_cases opens : ['(', '*'] <+: chars
      · obtain ⟨rest, rfl⟩ := opens
        have inner : ∀ body, body <+: rest → ¬ ClosesComment (nested + 1) body :=
          fun body front closes => never _ (by simpa using front) closes.opening
        have shorter : rest.length < count := by
          rw [← size, List.length_append]
          exact Nat.lt_add_of_pos_left (by decide)
        have scanned := countIH rest.length shorter inner (offset + 2) rfl
        refine (congrArg (prepend [' ', ' ']) scanned).trans ?_
        exact (prepend_blanks 2 _ _).trans (by rw [byteLength_append]; rfl)
      by_cases closes : ['*', ')'] <+: chars
      · obtain ⟨rest, rfl⟩ := closes
        cases nested with
        | zero => exact absurd .last (never ['*', ')'] (by simp))
        | succ nested =>
            have inner : ∀ body, body <+: rest → ¬ ClosesComment nested body :=
              fun body front closes => never _ (by simpa using front) closes.closing
            have shorter : rest.length < count := by
              rw [← size, List.length_append]
              exact Nat.lt_add_of_pos_left (by decide)
            have scanned := countIH rest.length shorter inner (offset + 2) rfl
            refine (congrArg (prepend [' ', ' ']) scanned).trans ?_
            exact (prepend_blanks 2 _ _).trans (by rw [byteLength_append]; rfl)
      cases chars with
      | nil => rfl
      | cons char rest =>
          have noDelimiter : ¬ BeginsDelimiter (char :: rest) :=
            fun begins => begins.elim opens closes
          have inner : ∀ body, body <+: rest → ¬ ClosesComment nested body := by
            rintro body ⟨tail, rfl⟩ closes
            have inBody : ¬ BeginsDelimiter (char :: body) :=
              fun begins => noDelimiter (begins.append tail)
            exact never (char :: body) (by simp) (.char inBody closes)
          rw [scan_inside_char noDelimiter,
            countIH rest.length (by simp [← size]) inner (offset + char.utf8Size) rfl]
          exact prepend_blanks _ _ _

/-- A comment that is never closed is masked to the end of the text and reported. -/
theorem scan_left_open {after : List Char} (never : NeverCloses after) (offset : Nat) :
    scan .outside offset ('(' :: '*' :: after) =
      ⟨List.replicate (byteLength after + 2) ' ', some offset⟩ := by
  have scanned := scan_never_closes never offset (offset + 2)
  refine (congrArg (prepend [' ', ' ']) scanned).trans ?_
  exact (prepend_blanks 2 _ _).trans (by rw [Nat.add_comm])

/-- The comments of a text are closed, or one of them is left open after a text whose
comments are closed. -/
theorem masks_or_unclosed (chars : List Char) (offset : Nat) :
    (∃ masked, Masks chars masked) ∨
    ∃ before after masked, chars = before ++ '(' :: '*' :: after ∧ Masks before masked ∧
      NeverCloses after ∧
      (scan .outside offset chars).unclosed = some (offset + byteLength before) := by
  induction chars using pieceInduction generalizing offset with
  | nil => exact .inl ⟨[], .nil⟩
  | char char rest opens restIH =>
      obtain ⟨masked, masks⟩ | ⟨before, after, masked, rfl, masks, never, unclosed⟩ :=
        restIH (offset + char.utf8Size)
      · exact .inl ⟨char :: masked, .char opens masks⟩
      · have noOpening : ¬ ['(', '*'] <+: char :: before :=
          fun front => opens (front.trans (List.prefix_append ..))
        refine .inr ⟨char :: before, after, char :: masked, rfl, .char noOpening masks, never, ?_⟩
        rw [scan_outside_char opens, byteLength, ← Nat.add_assoc]
        exact unclosed
  | comment body rest closes restIH =>
      obtain ⟨masked, masks⟩ | ⟨before, after, masked, rfl, masks, never, unclosed⟩ :=
        restIH (offset + (byteLength body + 2))
      · have masksAll := Masks.comment closes masks
        exact .inl ⟨_, masksAll⟩
      · refine .inr ⟨'(' :: '*' :: (body ++ before), after, _, by simp, .comment closes masks,
          never, ?_⟩
        rw [scan_comment closes, byteLength_delimiter (by decide) (by decide), byteLength_append]
        refine unclosed.trans (congrArg some ?_)
        omega
  | leftOpen after never =>
      refine .inr ⟨[], after, [], rfl, .nil, never, ?_⟩
      rw [scan_left_open never]
      rfl

/-- The comments of a text are closed when the scan says so, and then the scan masks them. -/
theorem scan_outside_eq_iff {offset : Nat} {chars masked : List Char} :
    scan .outside offset chars = ⟨masked, none⟩ ↔ Masks chars masked := by
  constructor
  · intro scanned
    obtain ⟨masked', masks⟩ | ⟨before, after, _, -, -, -, unclosed⟩ :=
      masks_or_unclosed chars offset
    · have same : (⟨masked', none⟩ : MaskedText) = ⟨masked, none⟩ :=
        (scan_masks masks offset).symm.trans scanned
      cases same
      exact masks
    · have valid : (scan .outside offset chars).unclosed = none :=
        congrArg MaskedText.unclosed scanned
      rw [valid] at unclosed
      cases unclosed
  · exact fun masks => scan_masks masks offset

/-- A source is masked without a comment left open exactly if its comments are balanced. -/
theorem ofSource_eq_iff {source : String} {masked : List Char} :
    ofSource source = ⟨masked, none⟩ ↔ Masks source.toList masked :=
  scan_outside_eq_iff

/-- Whether the comments of a text are closed does not depend on its place. -/
theorem unclosed_eq_none_iff {offset : Nat} {chars : List Char} :
    (scan .outside offset chars).unclosed = none ↔ ∃ masked, Masks chars masked := by
  constructor
  · intro closed
    exact ⟨_, scan_outside_eq_iff.mp (by rw [← closed])⟩
  · rintro ⟨masked, masks⟩
    rw [scan_outside_eq_iff.mpr masks]

/-- Where no comment is left open the source is masked as its comments say. -/
theorem masks_of_closed {source : String} (closed : (ofSource source).unclosed = none) :
    Masks source.toList (ofSource source).chars := by
  rw [← ofSource_eq_iff, ← closed]

end MaskedText

/-! ## Places outside the comments -/

namespace Masks

variable {chars masked : List Char}

/-- Masking keeps the number of bytes. -/
theorem byteLength_eq (masks : Masks chars masked) : byteLength masked = byteLength chars := by
  induction masks with
  | nil => rfl
  | char _ _ moreIH => rw [byteLength, byteLength, moreIH]
  | comment closes _ moreIH =>
      rw [byteLength_delimiter (by decide) (by decide), byteLength_append, byteLength_append,
        byteLength_replicate, moreIH]
      omega

/-- A place next to a character that is no blank lies outside the comments, where it cuts
the text and the masked text alike. -/
theorem split {front back : List Char} (masks : Masks chars (front ++ back))
    (outside : front.getLast? ≠ some ' ' ∨ back.head? ≠ some ' ') :
    ∃ before after, chars = before ++ after ∧ Masks before front ∧ Masks after back := by
  generalize whole : front ++ back = masked at masks
  induction masks generalizing front with
  | nil =>
      obtain ⟨rfl, rfl⟩ := List.append_eq_nil_iff.mp whole
      exact ⟨[], [], rfl, .nil, .nil⟩
  | @char char rest masked noOpening more moreIH =>
      cases front with
      | nil =>
          cases whole
          exact ⟨[], char :: rest, rfl, .nil, .char noOpening more⟩
      | cons first front =>
          obtain ⟨rfl, sameRest⟩ := List.cons.inj whole
          have inner : front.getLast? ≠ some ' ' ∨ back.head? ≠ some ' ' := by
            refine outside.imp_left fun notBlank lastBlank => notBlank ?_
            rw [List.getLast?_cons, lastBlank, Option.getD_some]
          obtain ⟨before, after, rfl, masksBefore, masksAfter⟩ := moreIH inner sameRest
          have noOpeningBefore : ¬ ['(', '*'] <+: first :: before :=
            fun opens => noOpening (opens.trans (List.prefix_append ..))
          exact ⟨first :: before, after, rfl, .char noOpeningBefore masksBefore, masksAfter⟩
  | @comment body rest masked closes more moreIH =>
      obtain ⟨front, rfl, rfl⟩ | ⟨blanks, isBlanks, rfl⟩ := List.append_eq_append_iff.mp whole.symm
      · have inner : front.getLast? ≠ some ' ' ∨ back.head? ≠ some ' ' := by
          refine outside.imp_left fun notBlank lastBlank => notBlank ?_
          rw [List.getLast?_append, lastBlank, Option.some_or]
        obtain ⟨before, after, rfl, masksBefore, masksAfter⟩ := moreIH inner rfl
        exact ⟨'(' :: '*' :: (body ++ before), after, by simp, .comment closes masksBefore,
          masksAfter⟩
      -- The place is inside the blanks of the comment, so it is at one of their ends.
      · have blank : ∀ char ∈ front ++ blanks, char = ' ' := by
          rw [← isBlanks]
          exact fun char member => (List.mem_replicate.mp member).2
        cases blanks with
        | nil =>
            have masksComment := Masks.comment closes .nil
            rw [isBlanks] at masksComment
            exact ⟨'(' :: '*' :: body, rest, rfl, by simpa using masksComment, more⟩
        | cons first blanks =>
            obtain rfl | ⟨front, last, rfl⟩ := List.eq_nil_or_concat front
            · have masksAll := Masks.comment closes more
              rw [isBlanks] at masksAll
              exact ⟨[], _, rfl, .nil, masksAll⟩
            · have firstBlank := blank first (by simp)
              have lastBlank := blank last (by simp)
              simp [firstBlank, lastBlank] at outside

/-- What is no blank has not been masked. -/
theorem exists_rest {char : Char} (masks : Masks chars (char :: masked)) (notBlank : char ≠ ' ') :
    ∃ rest, chars = char :: rest := by
  generalize whole : char :: masked = all at masks
  cases masks with
  | nil => cases whole
  | @char first rest masked =>
      cases whole
      exact ⟨rest, rfl⟩
  | comment =>
      obtain ⟨isBlank, -⟩ := List.cons.inj whole
      exact absurd isBlank notBlank

/-- A masked text without a blank has not been masked. -/
theorem eq_of_noSpace (masks : Masks chars masked) (noSpace : ' ' ∉ masked) : chars = masked := by
  induction masks with
  | nil => rfl
  | char _ _ moreIH =>
      rw [List.mem_cons, not_or] at noSpace
      rw [moreIH noSpace.2]
  | comment => simp at noSpace

/-- No comment opens in a masked text. -/
theorem noOpening (masks : Masks chars masked) : ¬ ['(', '*'] <:+: masked := by
  induction masks with
  | nil => simp
  | @char char rest masked noOpening more moreIH =>
      rw [List.infix_cons_iff, not_or]
      refine ⟨fun opens => noOpening ?_, moreIH⟩
      obtain ⟨tail, split⟩ := opens
      obtain ⟨rfl, rfl⟩ := List.cons.inj split
      obtain ⟨rest, rfl⟩ := more.exists_rest (by decide)
      exact ⟨rest, rfl⟩
  | @comment body rest masked _ _ moreIH =>
      induction byteLength body + 2 with
      | zero => exact moreIH
      | succ count countIH =>
          rw [List.replicate_succ, List.cons_append, List.infix_cons_iff, not_or]
          exact ⟨by simp, countIH⟩

/-- A text in which no comment opens is masked to itself. -/
theorem refl (noOpening : ¬ ['(', '*'] <:+: chars) : Masks chars chars := by
  induction chars with
  | nil => exact .nil
  | cons char chars charsIH =>
      rw [List.infix_cons_iff, not_or] at noOpening
      exact .char noOpening.1 (charsIH noOpening.2)

end Masks

/-! ## Parts of a text -/

/-- A text is split after the bytes of its front. -/
theorem splitBytes_append (front rest : List Char) :
    splitBytes (byteLength front) (front ++ rest) = some (front, rest) := by
  induction front with
  | nil => cases rest <;> rfl
  | cons char front frontIH =>
      obtain ⟨size, charSize⟩ := Nat.exists_eq_succ_of_ne_zero (Nat.ne_of_gt char.utf8Size_pos)
      have total : byteLength (char :: front) = size + byteLength front + 1 := by
        rw [byteLength, charSize]
        omega
      have remaining : size + byteLength front + 1 - char.utf8Size = byteLength front := by
        omega
      rw [total, List.cons_append, splitBytes, if_pos (by omega), remaining, frontIH]
      rfl

end PolyLambda.Source

namespace PolyLambda.Span

open PolyLambda.Source (byteLength splitBytes_append)

/-- A part of a text is denoted by the span from the bytes before it to its last byte. -/
theorem slice?_eq {source : String} {before part after : List Char}
    (text : source.toList = before ++ (part ++ after)) :
    slice? ⟨byteLength before, byteLength before + byteLength part⟩ source =
      some (String.ofList part) := by
  simp [slice?, text, splitBytes_append]

/-- The span of a part of a source lies within the source. -/
theorem within_of_parts {source : String} {before part after : List Char}
    (text : source.toList = before ++ (part ++ after)) :
    within ⟨byteLength before, byteLength before + byteLength part⟩ source = true := by
  rw [within, slice?_eq text]
  rfl

end PolyLambda.Span
