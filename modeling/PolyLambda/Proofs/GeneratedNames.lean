import Mathlib.Order.Interval.Finset.Nat
import PolyLambda.Naming.Generated

/-!
# Generated names never repeat

A generated name can be read back as the number it was generated from, so different
numbers have different names. Hence the search for a name that is not taken ends,
and a supply whose counters only grow never draws a name twice.
-/

namespace PolyLambda.Naming

/-! ## Reading names back -/

/-- The value of a bijective numeral of base 26 whose digits count from zero, the
most significant one first. The empty numeral has the value zero, so a generated
numeral has the successor of its number. -/
def numeralValue (digits : List Nat) : Nat :=
  digits.foldl (fun value digit => 26 * value + (digit + 1)) 0

/-- A digit at the end of a numeral counts once, those before it twenty-six times. -/
theorem numeralValue_append (digits : List Nat) (digit : Nat) :
    numeralValue (digits ++ [digit]) = 26 * numeralValue digits + (digit + 1) := by
  simp [numeralValue]

/-- The numeral of a number stands for its successor. -/
theorem numeralValue_numeral (id : Nat) : numeralValue (numeral id) = id + 1 := by
  fun_induction numeral id with
  | case1 id small => simp [numeralValue]
  | case2 id large inductionHypothesis =>
      rw [numeralValue_append, inductionHypothesis]
      omega

/-- The digits of a numeral are below twenty-six. -/
theorem numeral_lt {id digit : Nat} (member : digit ∈ numeral id) : digit < 26 := by
  fun_induction numeral id with
  | case1 id small =>
      rw [List.mem_singleton.mp member]
      exact small
  | case2 id large inductionHypothesis =>
      rcases List.mem_append.mp member with earlier | last
      · exact inductionHypothesis earlier
      · rw [List.mem_singleton.mp last]
        omega

/-- The digit that a letter stands for. -/
def letterDigit (kind : Kind) (char : Char) : Nat :=
  char.toNat - (firstLetter kind).toNat

/-- The letter of a digit is read back as the digit. -/
theorem letterDigit_letter (kind : Kind) {digit : Nat} (isDigit : digit < 26) :
    letterDigit kind (letter kind digit) = digit := by
  revert digit
  cases kind <;> decide

/-- The value of a name whose letters are read as digits. -/
def nameValue (kind : Kind) (name : String) : Nat :=
  numeralValue (name.toList.map (letterDigit kind))

/-- A generated name is read back as its number. -/
theorem nameValue_generatedName (kind : Kind) (id : Nat) :
    nameValue kind (generatedName kind id) = id + 1 := by
  have digits : ((numeral id).map (letter kind)).map (letterDigit kind) = numeral id := by
    rw [List.map_map]
    apply (List.map_congr_left _).trans (List.map_id _)
    intro digit member
    exact letterDigit_letter kind (numeral_lt member)
  rw [nameValue, generatedName, String.toList_ofList, digits, numeralValue_numeral]

/-- Different numbers have different names. -/
theorem generatedName_injective (kind : Kind) : Function.Injective (generatedName kind) := by
  intro first second equal
  have values := congrArg (nameValue kind) equal
  rw [nameValue_generatedName, nameValue_generatedName] at values
  omega

/-! ## Fresh numbers -/

/-- Successive numbers whose names are all taken are no more than the taken names. -/
theorem le_add_card_of_taken {taken : List String} {kind : Kind} {start stop : Nat}
    (allTaken : ∀ id, start ≤ id → id < stop → generatedName kind id ∈ taken) :
    stop ≤ start + taken.toFinset.card := by
  have numbers : (Finset.Ico start stop).card ≤ taken.toFinset.card := by
    apply Finset.card_le_card_of_injOn (generatedName kind)
    · intro id member
      obtain ⟨enough, below⟩ := Finset.mem_Ico.mp member
      exact List.mem_toFinset.mpr (allTaken id enough below)
    · exact (generatedName_injective kind).injOn
  rw [Nat.card_Ico] at numbers
  omega

/-- One of `taken.length + 1` successive numbers has a name that is not taken. -/
theorem exists_not_taken (taken : List String) (kind : Kind) (start : Nat) :
    ∃ id ∈ List.range' start (taken.length + 1), generatedName kind id ∉ taken := by
  by_contra none
  have allTaken : ∀ id, start ≤ id → id < start + (taken.length + 1) →
      generatedName kind id ∈ taken := by
    intro id enough below
    by_contra free
    exact none ⟨id, List.mem_range'_1.mpr ⟨enough, below⟩, free⟩
  have numbers := le_add_card_of_taken allTaken
  have names := taken.toFinset_card_le
  omega

/-- A fresh number is not below the start, and its name is not taken. -/
theorem freshId_spec (taken : List String) (kind : Kind) (start : Nat) :
    start ≤ freshId taken kind start ∧ generatedName kind (freshId taken kind start) ∉ taken := by
  obtain ⟨id, idMember, notTaken⟩ := exists_not_taken taken kind start
  have foundSome : ((List.range' start (taken.length + 1)).find?
      fun id => !taken.contains (generatedName kind id)).isSome :=
    List.find?_isSome.mpr ⟨id, idMember, by simpa using notTaken⟩
  obtain ⟨found, search⟩ := Option.isSome_iff_exists.mp foundSome
  have foundFresh := List.find?_some search
  have foundMember := List.mem_of_find?_eq_some search
  rw [freshId, search, Option.getD_some]
  constructor
  · exact (List.mem_range'_1.mp foundMember).1
  · simpa using foundFresh

/-- The search passes over taken names only. -/
theorem freshId_least {taken : List String} {kind : Kind} {start id : Nat} (enough : start ≤ id)
    (passed : id < freshId taken kind start) : generatedName kind id ∈ taken := by
  cases search : (List.range' start (taken.length + 1)).find?
      fun id => !taken.contains (generatedName kind id) with
  | none =>
      rw [freshId, search, Option.getD_none] at passed
      omega
  | some found =>
      rw [freshId, search, Option.getD_some] at passed
      have skipped := (List.find?_range'_eq_some.mp search).2.2 id enough passed
      simpa using skipped

/-! ## Supplies -/

namespace Supply

variable {supply : Supply} {kind other : Kind} {taken : List String}

/-- The number from which the next name of a kind is drawn. -/
def next (supply : Supply) : Kind → Nat
  | .type => supply.nextType
  | .term => supply.nextTerm

/-- A supply comes before another one from which more may have been drawn. -/
instance : LE Supply where
  le earlier later := ∀ kind, earlier.next kind ≤ later.next kind

/-- The order of supplies is reflexive. -/
theorem le_refl (supply : Supply) : supply ≤ supply :=
  fun _ => Nat.le_refl _

/-- The order of supplies is transitive. -/
theorem le_trans {first second third : Supply} (before : first ≤ second) (after : second ≤ third) :
    first ≤ third :=
  fun kind => Nat.le_trans (before kind) (after kind)

/-- What is drawn is the name of the first fresh number. -/
theorem draw_name (supply : Supply) (kind : Kind) (taken : List String) :
    (supply.draw kind taken).1 = generatedName kind (freshId taken kind (supply.next kind)) := by
  cases kind <;> rfl

/-- After a name is drawn the next number is above its own. -/
theorem draw_next (supply : Supply) (kind : Kind) (taken : List String) :
    (supply.draw kind taken).2.next kind = freshId taken kind (supply.next kind) + 1 := by
  cases kind <;> rfl

/-- Drawing a name of one kind leaves those of the other kind as they are. -/
theorem draw_next_of_ne (supply : Supply) (taken : List String) (differ : other ≠ kind) :
    (supply.draw kind taken).2.next other = supply.next other := by
  cases kind <;> cases other <;> first | rfl | exact absurd rfl differ

/-- A name that is drawn belongs to a number that has not been passed yet, and is
not taken. Afterwards that number has been passed. -/
theorem draw_spec {name : String} {drawn : Supply}
    (draw : supply.draw kind taken = (name, drawn)) :
    ∃ id, name = generatedName kind id ∧ name ∉ taken ∧
      supply.next kind ≤ id ∧ drawn.next kind = id + 1 ∧ supply ≤ drawn := by
  have drawnName := supply.draw_name kind taken
  have drawnNext := supply.draw_next kind taken
  obtain ⟨start, notTaken⟩ := freshId_spec taken kind (supply.next kind)
  rw [← drawnName, draw] at notTaken
  rw [draw] at drawnName drawnNext
  refine ⟨_, drawnName, notTaken, start, drawnNext, ?_⟩
  intro other
  by_cases same : other = kind
  · subst same
    have passed : supply.next other < drawn.next other := by
      rw [drawnNext]
      exact Nat.lt_succ_of_le start
    exact Nat.le_of_lt passed
  · have unchanged := draw_next_of_ne supply taken same
    rw [draw] at unchanged
    exact Nat.le_of_eq unchanged.symm

end Supply

end PolyLambda.Naming
