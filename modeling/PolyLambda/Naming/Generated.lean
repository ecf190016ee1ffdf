import PolyLambda.Context.Scope

/-!
# Generated names

Binders without a name of their own are called `A`, `B`, …, `Z`, `AA`, `AB`, … if
they bind types, and `a`, `b`, …, `z`, `aa`, `ab`, … if they bind terms: the
bijective numerals of base 26 over the capital and the small letters.
-/

namespace PolyLambda.Naming

/-- The digits of the bijective base 26 numeral of a number, the most significant
one first. Counting starts at zero, so a digit is its own position in the alphabet. -/
def numeral (id : Nat) : List Nat :=
  if id < 26 then [id] else numeral (id / 26 - 1) ++ [id % 26]
termination_by id
decreasing_by omega

/-- The letter that stands for the digit zero. -/
def firstLetter : Kind → Char
  | .type => 'A'
  | .term => 'a'

/-- The letter that stands for a digit. -/
def letter (kind : Kind) (digit : Nat) : Char :=
  Char.ofNat ((firstLetter kind).toNat + digit)

/-- The generated name of a number. -/
def generatedName (kind : Kind) (id : Nat) : String :=
  String.ofList ((numeral id).map (letter kind))

/-- The least number from `start` on whose generated name is not taken. One of
`taken.length + 1` successive numbers is, since their names differ. -/
def freshId (taken : List String) (kind : Kind) (start : Nat) : Nat :=
  let candidates := List.range' start (taken.length + 1)
  (candidates.find? fun id => !taken.contains (generatedName kind id)).getD start

/-- The numbers from which generated names are drawn, one counter for each kind.
Counters only grow, so no name is drawn twice. -/
structure Supply where
  nextType : Nat
  nextTerm : Nat
deriving DecidableEq

namespace Supply

/-- The supply from which nothing has been drawn. -/
def initial : Supply :=
  ⟨0, 0⟩

/-- Draws the next name of a kind that is not taken. -/
def draw (supply : Supply) (kind : Kind) (taken : List String) : String × Supply :=
  match kind with
  | .type =>
    let id := freshId taken .type supply.nextType
    (generatedName .type id, { supply with nextType := id + 1 })
  | .term =>
    let id := freshId taken .term supply.nextTerm
    (generatedName .term id, { supply with nextTerm := id + 1 })

end Supply

end PolyLambda.Naming
