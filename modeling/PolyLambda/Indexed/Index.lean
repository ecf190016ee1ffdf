/-!
# Indices

A variable is an index: the number of binders, of either kind, between it and its
own. Indices are stored in machine words, and so is the number of binders that a walk
through a tree has crossed. Arithmetic on them can leave the range of representable
values; `IndexRange` says where that range ends, and `unlimited` is arithmetic without
an end.
-/

namespace PolyLambda.Indexed

/-- Which indices can be represented. -/
inductive IndexRange
  /-- Every natural number. -/
  | unlimited
  /-- The unsigned words of a given width. Differences of indices are signed
  words of the same width. -/
  | word (bits : Nat)
deriving DecidableEq

/-- Why index arithmetic fails. -/
inductive IndexFault
  /-- A shifted index lies below zero or beyond the range. -/
  | shift
  /-- The distance to a binder is no representable difference. -/
  | distance
  /-- One binder more than the range can count. -/
  | overflow
deriving DecidableEq

/-- The wording of a fault. -/
def IndexFault.message : IndexFault → String
  | shift => "index shifted below zero: a referenced binder was discarded"
  | distance => "index fits in isize"
  | overflow => "attempt to add with overflow"

namespace IndexRange

/-- The words in which indices are stored. -/
def standard : IndexRange :=
  word 64

/-- Whether a number is a representable index. -/
def Admits (range : IndexRange) (value : Nat) : Prop :=
  match range with
  | unlimited => True
  | word bits => value < Nat.pow 2 bits

instance (range : IndexRange) (value : Nat) : Decidable (range.Admits value) := by
  unfold Admits
  cases range <;> infer_instance

/-- Whether a number is a representable difference of indices. -/
def AdmitsDistance (range : IndexRange) (value : Nat) : Prop :=
  match range with
  | unlimited => True
  | word bits => value < Nat.pow 2 (bits - 1)

instance (range : IndexRange) (value : Nat) : Decidable (range.AdmitsDistance value) := by
  unfold AdmitsDistance
  cases range <;> infer_instance

/-- Moves an index by a signed amount. -/
def shift (range : IndexRange) (index : Nat) (delta : Int) : Except IndexFault Nat :=
  let shifted := (index : Int) + delta
  if 0 ≤ shifted ∧ range.Admits shifted.toNat then
    .ok shifted.toNat
  else
    .error .shift

/-- The index, or the cutoff, inside one more binder. -/
def succ (range : IndexRange) (index : Nat) : Except IndexFault Nat :=
  if range.Admits (index + 1) then
    .ok (index + 1)
  else
    .error .overflow

/-- The number of binders from a variable up to and including its own. -/
def distance (range : IndexRange) (index : Nat) : Except IndexFault Nat := do
  let count ← range.succ index
  if range.AdmitsDistance count then
    .ok count
  else
    .error .distance

end IndexRange

end PolyLambda.Indexed
