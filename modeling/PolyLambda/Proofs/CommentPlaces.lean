import PolyLambda.Proofs.CommentMasking

/-!
# Places and comments

Reading takes a text apart into characters that belong to no comment, whole comments, and
at most one comment at the end that nothing closes. This module says which places lie
outside the comments of a text, apart from the scan that masks them, and shows that masking
is exact: what lies outside stays at its byte offset, all else becomes blanks, and a comment
that is left open is reported where it opens.
-/

namespace PolyLambda.Source

/-! ## Places outside the comments -/

/-- The place between `before` and `rest` lies outside the comments of a text: in front of
it stand whole comments and characters that open none. -/
inductive Outside : List Char → List Char → Prop
  | start (rest : List Char) : Outside [] rest
  | char {char : Char} {before rest : List Char}
      (noOpening : ¬ ['(', '*'] <+: char :: (before ++ rest)) (more : Outside before rest) :
      Outside (char :: before) rest
  | comment {body before rest : List Char} (closes : ClosesComment 0 body)
      (more : Outside before rest) : Outside ('(' :: '*' :: (body ++ before)) rest

/-- A character stands at a byte offset of a text. -/
def StandsAt (chars : List Char) (offset : Nat) (char : Char) : Prop :=
  ∃ before after, chars = before ++ char :: after ∧ byteLength before = offset

/-- A character stands at a byte offset of a text and belongs to no comment. -/
def PlainAt (chars : List Char) (offset : Nat) (char : Char) : Prop :=
  ∃ before after, chars = before ++ char :: after ∧ byteLength before = offset ∧
    Outside before (char :: after) ∧ ¬ ['(', '*'] <+: char :: after

/-- Outside the comments before it, a comment opens at a byte offset, and nothing closes it. -/
def LeftOpenAt (chars : List Char) (opened : Nat) : Prop :=
  ∃ before after, chars = before ++ '(' :: '*' :: after ∧ byteLength before = opened ∧
    Outside before ('(' :: '*' :: after) ∧ NeverCloses after

/-- A place outside the comments of a text that begins outside lies outside. -/
theorem Outside.trans {front back rest : List Char} (first : Outside front (back ++ rest))
    (second : Outside back rest) : Outside (front ++ back) rest := by
  -- The pieces in front are taken off one by one; what stands behind them stays the same.
  generalize whole : back ++ rest = behind at first
  induction first with
  | start => exact second
  | char noOpening _ moreIH =>
      subst whole
      rw [← List.append_assoc] at noOpening
      exact .char noOpening (moreIH rfl)
  | @comment body before rest closes _ moreIH =>
      have split := Outside.comment closes (moreIH whole)
      rwa [← List.append_assoc] at split

/-- A character that begins no comment is outside of comments. -/
theorem Outside.one {char : Char} {rest : List Char} (noOpening : ¬ ['(', '*'] <+: char :: rest) :
    Outside [char] rest :=
  .char noOpening (.start rest)

/-- A whole comment leads from outside to outside. -/
theorem Outside.whole {body : List Char} (closes : ClosesComment 0 body) (rest : List Char) :
    Outside ('(' :: '*' :: body) rest := by
  simpa using Outside.comment closes (.start rest)

/-- What is plain after a text that ends outside of comments is plain in the whole. -/
theorem Outside.plainAt {front chars : List Char} {offset : Nat} {char : Char}
    (outside : Outside front chars) (plain : PlainAt chars offset char) :
    PlainAt (front ++ chars) (byteLength front + offset) char := by
  obtain ⟨before, after, rfl, rfl, inner, noOpening⟩ := plain
  exact ⟨front ++ before, after, by simp, byteLength_append .., outside.trans inner, noOpening⟩

/-- What is left open after a text that ends outside of comments is left open in the whole. -/
theorem Outside.leftOpenAt {front chars : List Char} {opened : Nat}
    (outside : Outside front chars) (leftOpen : LeftOpenAt chars opened) :
    LeftOpenAt (front ++ chars) (byteLength front + opened) := by
  obtain ⟨before, after, rfl, rfl, inner, never⟩ := leftOpen
  exact ⟨front ++ before, after, by simp, byteLength_append .., outside.trans inner, never⟩

/-- A character stands at the beginning of a text or in what follows its first one. -/
theorem StandsAt.of_cons {first char : Char} {chars : List Char} {offset : Nat}
    (stands : StandsAt (first :: chars) offset char) :
    offset = 0 ∧ char = first ∨
      ∃ inner, offset = first.utf8Size + inner ∧ StandsAt chars inner char := by
  obtain ⟨before, after, split, rfl⟩ := stands
  cases before with
  | nil =>
      cases split
      exact .inl ⟨rfl, rfl⟩
  | cons other before =>
      obtain ⟨rfl, rest⟩ := List.cons.inj split
      exact .inr ⟨byteLength before, rfl, before, after, rest, rfl⟩

/-- A character behind blanks is one of them, or it stands in the text after them. -/
theorem StandsAt.of_blanks {count offset : Nat} {chars : List Char} {char : Char}
    (stands : StandsAt (List.replicate count ' ' ++ chars) offset char) :
    char = ' ' ∨ ∃ inner, offset = count + inner ∧ StandsAt chars inner char := by
  induction count generalizing offset with
  | zero => exact .inr ⟨offset, (Nat.zero_add offset).symm, stands⟩
  | succ count countIH =>
      obtain ⟨-, blank⟩ | ⟨inner, rfl, behind⟩ := stands.of_cons
      · exact .inl blank
      · refine (countIH behind).imp_right ?_
        rintro ⟨further, rfl, standsBehind⟩
        refine ⟨further, ?_, standsBehind⟩
        rw [(by decide : ' '.utf8Size = 1)]
        omega

/-- A text is cut at a byte offset in one way at most. -/
theorem append_inj_of_byteLength {front back otherFront otherBack : List Char}
    (same : front ++ back = otherFront ++ otherBack)
    (sameLength : byteLength front = byteLength otherFront) :
    front = otherFront ∧ back = otherBack := by
  have split := splitBytes_append front back
  rw [same, sameLength, splitBytes_append] at split
  cases split
  exact ⟨rfl, rfl⟩

/-- Two plain characters in a row open no comment. -/
theorem PlainAt.not_opening {chars : List Char} {offset : Nat} (plain : PlainAt chars offset '(')
    (next : StandsAt chars (offset + 1) '*') : False := by
  obtain ⟨before, after, rfl, rfl, -, noOpening⟩ := plain
  obtain ⟨front, rest, split, frontLength⟩ := next
  have regrouped : (before ++ ['(']) ++ after = front ++ '*' :: rest := by simpa using split
  have sameLength : byteLength (before ++ ['(']) = byteLength front := by
    rw [byteLength_append, frontLength]
    rfl
  obtain ⟨-, rfl⟩ := append_inj_of_byteLength regrouped sameLength
  exact noOpening ⟨rest, rfl⟩

/-! ## What the scan does along the pieces -/

/-- The scan masks what stands in front of a place outside the comments, byte by byte, and
goes on outside. -/
theorem Outside.scan {before rest : List Char} (outside : Outside before rest) :
    ∃ front, byteLength front = byteLength before ∧
      ∀ offset, MaskedText.scan .outside offset (before ++ rest) =
        .prepend front (MaskedText.scan .outside (offset + byteLength before) rest) := by
  induction outside with
  | start rest => exact ⟨[], rfl, fun _ => rfl⟩
  | @char char before rest noOpening _ moreIH =>
      obtain ⟨front, sameLength, scanned⟩ := moreIH
      refine ⟨char :: front, by rw [byteLength, byteLength, sameLength], fun offset => ?_⟩
      rw [List.cons_append, MaskedText.scan_outside_char noOpening, scanned,
        MaskedText.prepend_prepend, byteLength, Nat.add_assoc]
      rfl
  | @comment body before rest closes _ moreIH =>
      obtain ⟨front, sameLength, scanned⟩ := moreIH
      have length : byteLength ('(' :: '*' :: (body ++ before)) =
          byteLength body + 2 + byteLength before := by
        rw [byteLength_delimiter (by decide) (by decide), byteLength_append]
        omega
      refine ⟨List.replicate (byteLength body + 2) ' ' ++ front, ?_, fun offset => ?_⟩
      · rw [byteLength_append, byteLength_replicate, sameLength, length]
      · have regrouped : '(' :: '*' :: (body ++ before) ++ rest =
            '(' :: '*' :: (body ++ (before ++ rest)) := by simp
        rw [regrouped, MaskedText.scan_comment closes, scanned, MaskedText.prepend_prepend, length,
          Nat.add_assoc offset]

namespace MaskedText

/-- Masking keeps the number of bytes. -/
theorem byteLength_scan (offset : Nat) (chars : List Char) :
    byteLength (scan .outside offset chars).chars = byteLength chars := by
  induction chars using pieceInduction generalizing offset with
  | nil => rfl
  | char char rest noOpening restIH =>
      rw [scan_outside_char noOpening, byteLength, ← restIH (offset + char.utf8Size)]
      rfl
  | comment body rest closes restIH =>
      rw [scan_comment closes, byteLength_delimiter (by decide) (by decide), byteLength_append,
        ← restIH (offset + (byteLength body + 2))]
      refine (byteLength_append ..).trans ?_
      rw [byteLength_replicate]
      omega
  | leftOpen after never =>
      rw [scan_left_open never, byteLength_delimiter (by decide) (by decide)]
      exact byteLength_replicate _

/-- A plain character keeps its byte offset. -/
theorem standsAt_of_plainAt {chars : List Char} {place : Nat} {char : Char}
    (plain : PlainAt chars place char) (offset : Nat) :
    StandsAt (scan .outside offset chars).chars place char := by
  obtain ⟨before, after, rfl, rfl, outside, noOpening⟩ := plain
  obtain ⟨front, sameLength, scanned⟩ := outside.scan
  rw [scanned, scan_outside_char noOpening]
  exact ⟨front, _, rfl, sameLength⟩

/-- What masking writes at a byte offset is a blank, or the plain character there. -/
theorem blank_or_plainAt {chars : List Char} {offset place : Nat} {char : Char}
    (stands : StandsAt (scan .outside offset chars).chars place char) :
    char = ' ' ∨ PlainAt chars place char := by
  induction chars using pieceInduction generalizing offset place with
  | nil =>
      obtain ⟨before, after, split, -⟩ := stands
      exact absurd split (by simp [scan])
  | char first rest noOpening restIH =>
      rw [scan_outside_char noOpening] at stands
      obtain ⟨rfl, rfl⟩ | ⟨inner, rfl, behind⟩ := StandsAt.of_cons stands
      · exact .inr ⟨[], rest, rfl, rfl, .start _, noOpening⟩
      · exact (restIH behind).imp_right (Outside.one noOpening).plainAt
  | comment body rest closes restIH =>
      rw [scan_comment closes] at stands
      obtain blank | ⟨inner, rfl, behind⟩ := StandsAt.of_blanks stands
      · exact .inl blank
      · refine (restIH behind).imp_right fun plain => ?_
        have moved := (Outside.whole closes rest).plainAt plain
        rwa [byteLength_delimiter (by decide) (by decide)] at moved
  | leftOpen after never =>
      rw [scan_left_open never] at stands
      have blanks : StandsAt (List.replicate (byteLength after + 2) ' ' ++ []) place char := by
        rwa [List.append_nil]
      obtain blank | ⟨inner, -, before, rest, split, -⟩ := StandsAt.of_blanks blanks
      · exact .inl blank
      · exact absurd split (by simp)

/-- A text ends outside its comments, or one of them is left open where the scan says. -/
theorem outside_or_leftOpenAt (chars : List Char) (offset : Nat) :
    Outside chars [] ∧ (scan .outside offset chars).unclosed = none ∨
    ∃ opened, LeftOpenAt chars opened ∧
      (scan .outside offset chars).unclosed = some (offset + opened) := by
  induction chars using pieceInduction generalizing offset with
  | nil => exact .inl ⟨.start [], rfl⟩
  | char char rest noOpening restIH =>
      rw [scan_outside_char noOpening]
      obtain ⟨outside, closed⟩ | ⟨opened, leftOpen, unclosed⟩ := restIH (offset + char.utf8Size)
      · exact .inl ⟨.char (by simpa using noOpening) outside, closed⟩
      · refine .inr ⟨_, (Outside.one noOpening).leftOpenAt leftOpen, unclosed.trans ?_⟩
        rw [Nat.add_assoc]
        rfl
  | comment body rest closes restIH =>
      rw [scan_comment closes]
      obtain ⟨outside, closed⟩ | ⟨opened, leftOpen, unclosed⟩ :=
        restIH (offset + (byteLength body + 2))
      · exact .inl ⟨.comment closes outside, closed⟩
      · refine .inr ⟨_, (Outside.whole closes rest).leftOpenAt leftOpen, unclosed.trans ?_⟩
        rw [byteLength_delimiter (by decide) (by decide), Nat.add_assoc]
  | leftOpen after never =>
      rw [scan_left_open never]
      exact .inr ⟨0, ⟨[], after, rfl, rfl, .start _, never⟩, rfl⟩

/-- A text that ends outside of comments leaves none open. -/
theorem unclosed_of_outside {chars : List Char} (outside : Outside chars []) (offset : Nat) :
    (scan .outside offset chars).unclosed = none := by
  obtain ⟨front, -, scanned⟩ := outside.scan
  rw [← List.append_nil chars, scanned]
  rfl

/-- A comment that is left open is reported by its place. -/
theorem unclosed_of_leftOpenAt {chars : List Char} {opened : Nat}
    (leftOpen : LeftOpenAt chars opened) (offset : Nat) :
    (scan .outside offset chars).unclosed = some (offset + opened) := by
  obtain ⟨before, after, rfl, rfl, outside, never⟩ := leftOpen
  obtain ⟨front, -, scanned⟩ := outside.scan
  rw [scanned, scan_left_open never]
  rfl

/-- No comment opens in a masked text: the characters of its delimiter would both be plain. -/
theorem noOpening_scan (offset : Nat) (chars : List Char) :
    ¬ ['(', '*'] <:+: (scan .outside offset chars).chars := by
  rintro ⟨front, back, split⟩
  have opening : StandsAt (scan .outside offset chars).chars (byteLength front) '(' :=
    ⟨front, '*' :: back, by rw [← split]; simp, rfl⟩
  have star : StandsAt (scan .outside offset chars).chars (byteLength front + 1) '*' := by
    refine ⟨front ++ ['('], back, by rw [← split]; simp, ?_⟩
    rw [byteLength_append]
    rfl
  obtain blank | plain := blank_or_plainAt opening
  · exact absurd blank (by decide)
  obtain blank | ⟨before, after, same, length, -⟩ := blank_or_plainAt star
  · exact absurd blank (by decide)
  · exact plain.not_opening ⟨before, after, same, length⟩

/-- Masking is exact. It keeps the byte length of the text and every character outside the
comments at its byte offset, it writes blanks for all else, it reports the comment that is
left open where there is one, and there is nothing left to mask. -/
theorem comments_masked_exactly (source : String) :
    (String.ofList (ofSource source).chars).utf8ByteSize = source.utf8ByteSize ∧
    (∀ offset char, PlainAt source.toList offset char →
      StandsAt (ofSource source).chars offset char) ∧
    (∀ offset char, StandsAt (ofSource source).chars offset char →
      char = ' ' ∨ PlainAt source.toList offset char) ∧
    (∀ opened, (ofSource source).unclosed = some opened ↔ LeftOpenAt source.toList opened) ∧
    ((ofSource source).unclosed = none ↔ Outside source.toList []) ∧
    ¬ ['(', '*'] <:+: (ofSource source).chars ∧
    ofSource (String.ofList (ofSource source).chars) = ⟨(ofSource source).chars, none⟩ := by
  have noOpening := noOpening_scan 0 source.toList
  refine ⟨?length, fun _ _ plain => standsAt_of_plainAt plain 0, fun _ _ => blank_or_plainAt,
    ?leftOpen, ?closed, noOpening, ?again⟩
  case length =>
    rw [← byteLength_toList, ← byteLength_toList, String.toList_ofList]
    exact byteLength_scan 0 source.toList
  case leftOpen =>
    intro opened
    constructor
    · intro unclosed
      obtain ⟨-, closed⟩ | ⟨other, leftOpen, reported⟩ := outside_or_leftOpenAt source.toList 0
      · cases unclosed.symm.trans closed
      · cases unclosed.symm.trans reported
        rwa [Nat.zero_add]
    · intro leftOpen
      have reported := unclosed_of_leftOpenAt leftOpen 0
      rwa [Nat.zero_add] at reported
  case closed =>
    refine ⟨fun closed => ?_, fun outside => unclosed_of_outside outside 0⟩
    obtain ⟨outside, -⟩ | ⟨other, -, reported⟩ := outside_or_leftOpenAt source.toList 0
    · exact outside
    · cases closed.symm.trans reported
  case again =>
    rw [ofSource_eq_iff, String.toList_ofList]
    exact Masks.refl noOpening

/-- A text with closing delimiters outside its comments, a comment between parentheses and
one that is left open after a comment inside it. -/
def overlapping : String :=
  "*)((**)*)λ(*(*)∀*)(*"

/-- The overlapping text keeps the λ between its comments and reports the one left open. -/
theorem comments_masked_exactly_overlapping :
    PlainAt overlapping.toList 9 'λ' ∧ StandsAt (ofSource overlapping).chars 9 'λ' ∧
    (ofSource overlapping).unclosed = some 11 ∧ LeftOpenAt overlapping.toList 11 := by
  obtain ⟨-, stands, -, leftOpen, -⟩ := comments_masked_exactly overlapping
  have outside : Outside "*)((**)*)".toList "λ(*(*)∀*)(*".toList :=
    .char (by decide) (.char (by decide) (.char (by decide) (.comment .last
      (.char (by decide) (.char (by decide) (.start _))))))
  have plain : PlainAt overlapping.toList 9 'λ' :=
    ⟨_, "(*(*)∀*)(*".toList, by decide, by decide, outside, by decide⟩
  have reported : (ofSource overlapping).unclosed = some 11 := by decide
  exact ⟨plain, stands 9 'λ' plain, reported, (leftOpen 11).mp reported⟩

end MaskedText

end PolyLambda.Source
