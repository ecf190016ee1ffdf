import Mathlib.Data.List.Shortlex
import Mathlib.Data.Set.Function
import PolyLambda.Proofs.DrawnNames

/-!
# Generated names as numerals

The generated names of a kind are the words over its alphabet, each of them once. They come
in the order of their numbers: shorter ones first, and those of one length alphabetically.
There is no digit zero, so that words of different length never have the same value.
-/

namespace PolyLambda.Naming

/-! ## Words over the alphabet -/

/-- The letter that stands for the digit twenty-five. -/
def lastLetter : Kind → Char
  | .type => 'Z'
  | .term => 'z'

/-- A name that can be read as a number: it is not empty, and it is spelled in the capital
letters for types and in the small letters for terms. -/
def IsNumeral (kind : Kind) (name : String) : Prop :=
  name ≠ "" ∧ ∀ char ∈ name.toList, firstLetter kind ≤ char ∧ char ≤ lastLetter kind

/-- The letter of a digit lies between the first and the last letter. -/
theorem letter_between {kind : Kind} {digit : Nat} (isDigit : digit < 26) :
    firstLetter kind ≤ letter kind digit ∧ letter kind digit ≤ lastLetter kind := by
  revert digit
  cases kind <;> decide

/-- A generated name is a numeral. -/
theorem isNumeral_generatedName (kind : Kind) (id : Nat) :
    IsNumeral kind (generatedName kind id) := by
  constructor
  · intro empty
    have letters := congrArg String.toList empty
    rw [generatedName, String.toList_ofList, String.toList_empty, List.map_eq_nil_iff] at letters
    exact numeral_ne_nil id letters
  · intro char member
    rw [generatedName, String.toList_ofList, List.mem_map] at member
    obtain ⟨digit, isDigit, rfl⟩ := member
    exact letter_between (numeral_lt isDigit)

/-- The digit of a letter is written as the letter. -/
theorem letter_letterDigit {kind : Kind} {char : Char} (above : firstLetter kind ≤ char) :
    letter kind (letterDigit kind char) = char := by
  have order : (firstLetter kind).toNat ≤ char.toNat := above
  rw [letter, letterDigit, Nat.add_sub_cancel' order, Char.ofNat_toNat]

/-- The digit of a letter is below twenty-six. -/
theorem letterDigit_lt {kind : Kind} {char : Char} (below : char ≤ lastLetter kind) :
    letterDigit kind char < 26 := by
  have order : char.toNat ≤ (lastLetter kind).toNat := below
  have width : (lastLetter kind).toNat = (firstLetter kind).toNat + 25 := by
    cases kind <;> rfl
  unfold letterDigit
  omega

/-- Every sequence of digits is the numeral of a number, and its value is the next one. -/
theorem exists_numeral_eq {digits : List Nat} (nonempty : digits ≠ [])
    (areDigits : ∀ digit ∈ digits, digit < 26) :
    ∃ id, numeral id = digits ∧ numeralValue digits = id + 1 := by
  induction digits using List.reverseRecOn with
  | nil => exact absurd rfl nonempty
  | append_singleton digits digit digitsIH =>
      obtain ⟨areHigher, isDigit⟩ := List.forall_mem_append.mp areDigits
      have small : digit < 26 := isDigit digit (List.mem_singleton_self digit)
      rw [numeralValue_append]
      by_cases alone : digits = []
      · subst alone
        refine ⟨digit, ?_, by simp [numeralValue]⟩
        rw [numeral, if_pos small, List.nil_append]
      · obtain ⟨id, sameDigits, value⟩ := digitsIH alone areHigher
        refine ⟨26 * (id + 1) + digit, ?_, by omega⟩
        have higher : (26 * (id + 1) + digit) / 26 - 1 = id := by omega
        have lowest : (26 * (id + 1) + digit) % 26 = digit := by omega
        rw [numeral, if_neg (by omega), higher, lowest, sameDigits]

/-- Every word over the alphabet is a generated name, that of the number in front of its
value. -/
theorem exists_generatedName_eq {kind : Kind} {name : String} (isNumeral : IsNumeral kind name) :
    ∃ id, generatedName kind id = name ∧ nameValue kind name = id + 1 := by
  obtain ⟨nonempty, spelled⟩ := isNumeral
  have someDigits : name.toList.map (letterDigit kind) ≠ [] := by
    rwa [ne_eq, List.map_eq_nil_iff, String.toList_eq_nil_iff]
  have areDigits : ∀ digit ∈ name.toList.map (letterDigit kind), digit < 26 := by
    intro digit member
    obtain ⟨char, inName, rfl⟩ := List.mem_map.mp member
    exact letterDigit_lt (spelled char inName).2
  obtain ⟨id, sameDigits, value⟩ := exists_numeral_eq someDigits areDigits
  refine ⟨id, ?_, value⟩
  have sameLetters : (name.toList.map (letterDigit kind)).map (letter kind) = name.toList := by
    rw [List.map_map]
    apply (List.map_congr_left _).trans (List.map_id _)
    intro char member
    exact letter_letterDigit (spelled char member).1
  rw [generatedName, sameDigits, sameLetters, String.ofList_toList]

/-! ## The order of generated names -/

/-- Greater digits have later letters. -/
theorem letter_lt_letter {kind : Kind} {smaller larger : Nat} (less : smaller < larger)
    (isDigit : larger < 26) : letter kind smaller < letter kind larger := by
  by_contra notLess
  have order : (letter kind larger).toNat ≤ (letter kind smaller).toNat := Char.not_lt.mp notLess
  have digits : letterDigit kind (letter kind larger) ≤ letterDigit kind (letter kind smaller) :=
    Nat.sub_le_sub_right order _
  rw [letterDigit_letter kind isDigit, letterDigit_letter kind (by omega)] at digits
  omega

/-- Lists of one length that are in order stay in order, whatever follows. -/
theorem lex_append {α : Type} {order : α → α → Prop} {first second : List α}
    (earlier : List.Lex order first second) (sameLength : first.length = second.length)
    (more otherMore : List α) : List.Lex order (first ++ more) (second ++ otherMore) := by
  induction earlier with
  | nil => cases sameLength
  | cons _ tailIH => exact .cons (tailIH (Nat.succ.inj sameLength))
  | rel smaller => exact .rel smaller

/-- A lower word stays lower when each of the two goes on by one letter. -/
theorem shortlex_append_singleton {α : Type} {order : α → α → Prop} {first second : List α}
    (less : List.Shortlex order first second) (last otherLast : α) :
    List.Shortlex order (first ++ [last]) (second ++ [otherLast]) := by
  rw [List.shortlex_def, List.length_append, List.length_append]
  rcases List.shortlex_def.mp less with shorter | ⟨sameLength, earlier⟩
  · exact .inl (Nat.add_lt_add_right shorter 1)
  · exact .inr ⟨congrArg (· + 1) sameLength, lex_append earlier sameLength _ _⟩

/-- Greater numbers have longer numerals, or later ones of the same length. -/
theorem numeral_shortlex (kind : Kind) {first second : Nat} (less : first < second) :
    List.Shortlex (· < ·) ((numeral first).map (letter kind))
      ((numeral second).map (letter kind)) := by
  fun_induction numeral second generalizing first with
  | case1 second small =>
      rw [numeral, if_pos (Nat.lt_trans less small)]
      exact (List.shortlex_singleton_iff _ _).mpr (letter_lt_letter less small)
  | case2 second large secondIH =>
      rw [List.map_append]
      by_cases single : first < 26
      · -- One letter against at least two.
        apply List.Shortlex.of_length_lt
        have more := List.length_pos_iff.mpr (numeral_ne_nil (second / 26 - 1))
        rw [numeral, if_pos single, List.length_append, List.length_map, List.length_map]
        exact Nat.lt_add_of_pos_left more
      · rw [numeral, if_neg single, List.map_append]
        have quotients : first / 26 - 1 < second / 26 - 1 ∨
            first / 26 - 1 = second / 26 - 1 ∧ first % 26 < second % 26 := by omega
        rcases quotients with lower | ⟨sameHigher, lowerLast⟩
        · exact shortlex_append_singleton (secondIH lower) _ _
        · rw [sameHigher]
          apply List.Shortlex.append_left
          exact (List.shortlex_singleton_iff _ _).mpr
            (letter_lt_letter lowerLast (Nat.mod_lt second (by decide)))

/-- The generated names come in the order of their numbers. -/
theorem lt_iff_shortlex_generatedName (kind : Kind) (first second : Nat) :
    first < second ↔ List.Shortlex (· < ·) (generatedName kind first).toList
      (generatedName kind second).toList := by
  simp only [generatedName, String.toList_ofList]
  refine ⟨numeral_shortlex kind, fun less => ?_⟩
  rcases Nat.lt_trichotomy first second with lower | rfl | higher
  · exact lower
  · exact absurd less (irrefl _)
  · exact absurd less (asymm (numeral_shortlex kind higher))

/-- The generated names of a kind are the bijective numerals over its alphabet, in order. Read
back, they give the numbers that they were generated from, counted from one. -/
theorem generated_names_numerate (kind : Kind) (limit : Nat) :
    Set.BijOn (generatedName kind) {id | id < limit}
      {name | IsNumeral kind name ∧ nameValue kind name ≤ limit} ∧
    (∀ id, nameValue kind (generatedName kind id) = id + 1) ∧
    ∀ first second, first < second ↔ List.Shortlex (· < ·) (generatedName kind first).toList
      (generatedName kind second).toList := by
  refine ⟨⟨?mapsTo, ?injective, ?surjective⟩, nameValue_generatedName kind,
    lt_iff_shortlex_generatedName kind⟩
  case mapsTo =>
    intro id below
    refine ⟨isNumeral_generatedName kind id, ?_⟩
    rw [nameValue_generatedName]
    exact below
  case injective => exact (generatedName_injective kind).injOn
  case surjective =>
    rintro name ⟨isNumeral, within⟩
    obtain ⟨id, named, value⟩ := exists_generatedName_eq isNumeral
    rw [value] at within
    exact ⟨id, within, named⟩

/-- The last name of two letters and the first one of three. -/
example : generatedName .type 701 = "ZZ" ∧ generatedName .type 702 = "AAA" := by
  decide +kernel

end PolyLambda.Naming
