import PolyLambda.Proofs.IndexBounds

/-!
# Laws of shifting

A tree may be shifted twice: from one cutoff, where the two shifts are one shift by the sum
of their amounts, or from two cutoffs, where they change places and the upper cutoff moves
with the lower shift. The laws hold for trees with indices of any kind, dangling ones
included; the range of indices only decides which shifts succeed. A shift leaves it at an
index that is moved too far, or at a binder that cannot be counted from the cutoff on.
-/

namespace PolyLambda.Indexed

/-! ## Renamings that shift -/

namespace Renaming

/-- An index at or above the cutoff is raised. -/
theorem shift_of_le {cutoff index : Nat} (outer : cutoff ≤ index) (amount : Nat) :
    Renaming.shift cutoff amount index = index + amount := by
  simp only [Renaming.shift, outer, if_true]
  omega

/-- An index below the cutoff stays. -/
theorem shift_of_lt {cutoff index : Nat} (inner : index < cutoff) (delta : Int) :
    Renaming.shift cutoff delta index = index :=
  if_neg (Nat.not_le_of_lt inner)

/-- Raising lowers no index. -/
theorem le_shift (cutoff amount index : Nat) : index ≤ Renaming.shift cutoff amount index := by
  unfold Renaming.shift
  split <;> omega

/-- An index is raised by no more than the amount. -/
theorem shift_le (cutoff amount index : Nat) :
    Renaming.shift cutoff amount index ≤ index + amount := by
  unfold Renaming.shift
  split <;> omega

/-- Shifting by zero moves no index. -/
theorem shift_id (cutoff : Nat) : Renaming.shift cutoff 0 = fun index => index := by
  ext index
  unfold Renaming.shift
  split <;> omega

/-- A greater amount moves every index at least as far. -/
theorem shift_mono {smaller larger : Int} (le : smaller ≤ larger) (cutoff index : Nat) :
    Renaming.shift cutoff smaller index ≤ Renaming.shift cutoff larger index := by
  unfold Renaming.shift
  split <;> omega

/-- Shifts from two cutoffs change places. The upper cutoff moves with the lower shift. -/
theorem shift_shift_comm {lower upper : Nat} (ordered : lower ≤ upper) (first second index : Nat) :
    Renaming.shift lower first (Renaming.shift upper second index) =
      Renaming.shift (upper + first) second (Renaming.shift lower first index) := by
  by_cases above : upper ≤ index
  · have outer : lower ≤ index := Nat.le_trans ordered above
    rw [shift_of_le above, shift_of_le (Nat.le_add_right_of_le outer), shift_of_le outer,
      shift_of_le (Nat.add_le_add_right above first)]
    omega
  · have below : index < upper := Nat.lt_of_not_le above
    rw [shift_of_lt below]
    by_cases outer : lower ≤ index
    · rw [shift_of_le outer, shift_of_lt (Nat.add_lt_add_right below first)]
    · rw [shift_of_lt (Nat.lt_of_not_le outer), shift_of_lt (Nat.lt_add_right first below)]

end Renaming

/-! ## Two shifts from one cutoff -/

/-- A shift gives the moved index, which must be representable, or an index below the cutoff. -/
theorem shiftFrom_eq_ok_iff {range : IndexRange} {cutoff index moved : Nat} {delta : Int} :
    shiftFrom range cutoff delta index = .ok moved ↔
      cutoff ≤ index ∧ (index : Int) + delta = moved ∧ range.Admits moved ∨
      index < cutoff ∧ index = moved := by
  unfold shiftFrom IndexRange.shift
  by_cases outer : cutoff ≤ index
  · by_cases fits : 0 ≤ (index : Int) + delta ∧ range.Admits ((index : Int) + delta).toNat
    · simp only [outer, fits, and_self, if_true, Except.ok.injEq]
      constructor
      · rintro rfl
        exact .inl ⟨trivial, by omega, fits.2⟩
      · rintro (⟨-, sum, -⟩ | ⟨inner, -⟩)
        · omega
        · omega
    · simp only [outer, fits, if_true, if_false, reduceCtorEq, false_iff]
      rintro (⟨-, sum, admitted⟩ | ⟨inner, -⟩)
      · refine fits ⟨by omega, ?_⟩
        rwa [sum]
      · omega
  · simp only [outer, if_false, Except.ok.injEq, false_and, false_or]
    omega

/-- A move after a raise from the same cutoff is one move by the sum. -/
theorem shiftFrom_shiftFrom {range : IndexRange} {cutoff index raised : Nat} {up : Nat}
    (shifted : shiftFrom range cutoff up index = .ok raised) (move : Int) :
    shiftFrom range cutoff move raised = shiftFrom range cutoff (up + move) index := by
  obtain ⟨outer, sum, -⟩ | ⟨inner, rfl⟩ := shiftFrom_eq_ok_iff.mp shifted
  · have same : (raised : Int) + move = (index : Int) + (up + move) := by omega
    have still : cutoff ≤ raised := by omega
    simp only [shiftFrom, outer, still, if_true, IndexRange.shift, same]
  · have inside : ¬ cutoff ≤ index := by omega
    simp only [shiftFrom, inside, if_false]

/-- A type that was shifted up is shifted again as by one shift, whichever way. -/
theorem Ty.shift_shift {range : IndexRange} {cutoff up : Nat} {ty raised : Ty}
    (shifted : ty.shift range cutoff up = .ok raised) (move : Int) :
    raised.shift range cutoff move = ty.shift range cutoff (up + move) := by
  induction ty generalizing cutoff raised with
  | var span index =>
      simp only [Ty.shift, bind_eq_ok_iff] at shifted
      obtain ⟨moved, indexShifted, same⟩ := shifted
      cases same
      simp only [Ty.shift, shiftFrom_shiftFrom indexShifted]
  | arrow span domain codomain domainIH codomainIH =>
      simp only [Ty.shift, bind_eq_ok_iff] at shifted
      obtain ⟨_, domainShifted, _, codomainShifted, same⟩ := shifted
      cases same
      simp only [Ty.shift, domainIH domainShifted, codomainIH codomainShifted]
  | all span body bodyIH =>
      simp only [Ty.shift, bind_eq_ok_iff] at shifted
      obtain ⟨inner, counted, _, bodyShifted, same⟩ := shifted
      cases same
      simp only [Ty.shift, counted, ok_bind, bodyIH bodyShifted]

@[inherit_doc Ty.shift_shift]
theorem Term.shift_shift {range : IndexRange} {cutoff up : Nat} {term raised : Term}
    (shifted : term.shift range cutoff up = .ok raised) (move : Int) :
    raised.shift range cutoff move = term.shift range cutoff (up + move) := by
  induction term generalizing cutoff raised with
  | var span index =>
      simp only [Term.shift, bind_eq_ok_iff] at shifted
      obtain ⟨moved, indexShifted, same⟩ := shifted
      cases same
      simp only [Term.shift, shiftFrom_shiftFrom indexShifted]
  | lam span paramType body bodyIH =>
      simp only [Term.shift, bind_eq_ok_iff] at shifted
      obtain ⟨_, paramShifted, inner, counted, _, bodyShifted, same⟩ := shifted
      cases same
      simp only [Term.shift, Ty.shift_shift paramShifted, counted, ok_bind, bodyIH bodyShifted]
  | app span function argument functionIH argumentIH =>
      simp only [Term.shift, bind_eq_ok_iff] at shifted
      obtain ⟨_, functionShifted, _, argumentShifted, same⟩ := shifted
      cases same
      simp only [Term.shift, functionIH functionShifted, argumentIH argumentShifted]
  | tyLam span body bodyIH =>
      simp only [Term.shift, bind_eq_ok_iff] at shifted
      obtain ⟨inner, counted, _, bodyShifted, same⟩ := shifted
      cases same
      simp only [Term.shift, counted, ok_bind, bodyIH bodyShifted]
  | tyApp span function argument functionIH =>
      simp only [Term.shift, bind_eq_ok_iff] at shifted
      obtain ⟨_, functionShifted, _, argumentShifted, same⟩ := shifted
      cases same
      simp only [Term.shift, functionIH functionShifted, Ty.shift_shift argumentShifted]

/-! ## Which shifts succeed -/

/-- A shift leaves a representable index representable. -/
theorem shiftFrom_admitted {range : IndexRange} {cutoff index moved : Nat} {delta : Int}
    (admitted : range.Admits index) (shifted : shiftFrom range cutoff delta index = .ok moved) :
    range.Admits moved := by
  obtain ⟨-, -, movedAdmitted⟩ | ⟨-, rfl⟩ := shiftFrom_eq_ok_iff.mp shifted
  · exact movedAdmitted
  · exact admitted

/-- A shift leaves a representable type representable. -/
theorem Ty.Admitted.shift {range : IndexRange} {cutoff : Nat} {delta : Int} {ty moved : Ty}
    (admitted : ty.Admitted range) (shifted : ty.shift range cutoff delta = .ok moved) :
    moved.Admitted range := by
  induction ty generalizing cutoff moved with
  | var span index =>
      simp only [Ty.shift, bind_eq_ok_iff] at shifted
      obtain ⟨_, indexShifted, same⟩ := shifted
      cases same
      exact shiftFrom_admitted admitted indexShifted
  | arrow span domain codomain domainIH codomainIH =>
      simp only [Ty.shift, bind_eq_ok_iff] at shifted
      obtain ⟨_, domainShifted, _, codomainShifted, same⟩ := shifted
      cases same
      exact ⟨domainIH admitted.1 domainShifted, codomainIH admitted.2 codomainShifted⟩
  | all span body bodyIH =>
      simp only [Ty.shift, bind_eq_ok_iff] at shifted
      obtain ⟨_, -, movedBody, bodyShifted, same⟩ := shifted
      cases same
      have bodyAdmitted : movedBody.Admitted range := bodyIH admitted bodyShifted
      exact bodyAdmitted

/-- A shift leaves a representable term representable. -/
theorem Term.Admitted.shift {range : IndexRange} {cutoff : Nat} {delta : Int} {term moved : Term}
    (admitted : term.Admitted range) (shifted : term.shift range cutoff delta = .ok moved) :
    moved.Admitted range := by
  induction term generalizing cutoff moved with
  | var span index =>
      simp only [Term.shift, bind_eq_ok_iff] at shifted
      obtain ⟨_, indexShifted, same⟩ := shifted
      cases same
      exact shiftFrom_admitted admitted indexShifted
  | lam span paramType body bodyIH =>
      simp only [Term.shift, bind_eq_ok_iff] at shifted
      obtain ⟨_, paramShifted, _, -, _, bodyShifted, same⟩ := shifted
      cases same
      exact ⟨admitted.1.shift paramShifted, bodyIH admitted.2 bodyShifted⟩
  | app span function argument functionIH argumentIH =>
      simp only [Term.shift, bind_eq_ok_iff] at shifted
      obtain ⟨_, functionShifted, _, argumentShifted, same⟩ := shifted
      cases same
      exact ⟨functionIH admitted.1 functionShifted, argumentIH admitted.2 argumentShifted⟩
  | tyLam span body bodyIH =>
      simp only [Term.shift, bind_eq_ok_iff] at shifted
      obtain ⟨_, -, movedBody, bodyShifted, same⟩ := shifted
      cases same
      have bodyAdmitted : movedBody.Admitted range := bodyIH admitted bodyShifted
      exact bodyAdmitted
  | tyApp span function argument functionIH =>
      simp only [Term.shift, bind_eq_ok_iff] at shifted
      obtain ⟨_, functionShifted, _, argumentShifted, same⟩ := shifted
      cases same
      exact ⟨functionIH admitted.1 functionShifted, admitted.2.shift argumentShifted⟩

/-- The binders of a type that was shifted could be counted from the cutoff on. -/
theorem Ty.counts_of_shift {range : IndexRange} {cutoff : Nat} {delta : Int} {ty moved : Ty}
    (shifted : ty.shift range cutoff delta = .ok moved) : range.Counts cutoff ty.nesting := by
  induction ty generalizing cutoff moved with
  | var span index => exact .inl rfl
  | arrow span domain codomain domainIH codomainIH =>
      simp only [Ty.shift, bind_eq_ok_iff] at shifted
      obtain ⟨_, domainShifted, _, codomainShifted, -⟩ := shifted
      exact IndexRange.counts_max_iff.mpr ⟨domainIH domainShifted, codomainIH codomainShifted⟩
  | all span body bodyIH =>
      simp only [Ty.shift, bind_eq_ok_iff, IndexRange.succ_eq_ok_iff] at shifted
      obtain ⟨_, ⟨rfl, admitted⟩, _, bodyShifted, -⟩ := shifted
      exact IndexRange.counts_succ_iff.mpr ⟨admitted, bodyIH bodyShifted⟩

@[inherit_doc Ty.counts_of_shift]
theorem Term.counts_of_shift {range : IndexRange} {cutoff : Nat} {delta : Int} {term moved : Term}
    (shifted : term.shift range cutoff delta = .ok moved) : range.Counts cutoff term.nesting := by
  induction term generalizing cutoff moved with
  | var span index => exact .inl rfl
  | lam span paramType body bodyIH =>
      simp only [Term.shift, bind_eq_ok_iff, IndexRange.succ_eq_ok_iff] at shifted
      obtain ⟨_, paramShifted, _, ⟨rfl, admitted⟩, _, bodyShifted, -⟩ := shifted
      exact IndexRange.counts_max_iff.mpr ⟨Ty.counts_of_shift paramShifted,
        IndexRange.counts_succ_iff.mpr ⟨admitted, bodyIH bodyShifted⟩⟩
  | app span function argument functionIH argumentIH =>
      simp only [Term.shift, bind_eq_ok_iff] at shifted
      obtain ⟨_, functionShifted, _, argumentShifted, -⟩ := shifted
      exact IndexRange.counts_max_iff.mpr ⟨functionIH functionShifted, argumentIH argumentShifted⟩
  | tyLam span body bodyIH =>
      simp only [Term.shift, bind_eq_ok_iff, IndexRange.succ_eq_ok_iff] at shifted
      obtain ⟨_, ⟨rfl, admitted⟩, _, bodyShifted, -⟩ := shifted
      exact IndexRange.counts_succ_iff.mpr ⟨admitted, bodyIH bodyShifted⟩
  | tyApp span function argument functionIH =>
      simp only [Term.shift, bind_eq_ok_iff] at shifted
      obtain ⟨_, functionShifted, _, argumentShifted, -⟩ := shifted
      exact IndexRange.counts_max_iff.mpr
        ⟨functionIH functionShifted, Ty.counts_of_shift argumentShifted⟩

/-! ## Types and terms as sorts of trees -/

/-- What the laws of indices look at in a sort of trees: how deep its trees nest binders, how
they are renamed, which of them have representable indices, and how they are shifted. -/
structure TreeSort (α : Type) where
  nesting : α → Nat
  rename : Renaming → α → α
  Admitted : α → Prop
  shift : Nat → Int → α → Except IndexFault α

/-- The types with indices of a range. -/
def Ty.sort (range : IndexRange) : TreeSort Ty :=
  ⟨Ty.nesting, Ty.rename, Ty.Admitted range, Ty.shift range⟩

/-- The terms with indices of a range. -/
def Term.sort (range : IndexRange) : TreeSort Term :=
  ⟨Term.nesting, Term.rename, Term.Admitted range, Term.shift range⟩

/-- The indices of a tree stay representable under `room` more binders. -/
def TreeSort.AdmittedUnder {α : Type} (trees : TreeSort α) (room : Nat) (tree : α) : Prop :=
  trees.Admitted (trees.rename (.up room) tree)

/-- Among types, room for a tree is room for the type. -/
theorem Ty.admittedUnder_sort_iff {range : IndexRange} {room : Nat} {ty : Ty} :
    (Ty.sort range).AdmittedUnder room ty ↔ ty.AdmittedUnder range room :=
  Ty.admittedUnder_iff.symm

/-- Among terms, room for a tree is room for the term. -/
theorem Term.admittedUnder_sort_iff {range : IndexRange} {room : Nat} {term : Term} :
    (Term.sort range).AdmittedUnder room term ↔ term.AdmittedUnder range room :=
  Term.admittedUnder_iff.symm

/-- What the laws of shifting rest on. -/
structure TreeSort.Lawful {α : Type} (range : IndexRange) (trees : TreeSort α) : Prop where
  nesting_rename : ∀ tree mapping,
    trees.nesting (trees.rename mapping tree) = trees.nesting tree
  rename_id : ∀ tree, trees.rename (fun index => index) tree = tree
  rename_rename : ∀ tree first second, trees.rename second (trees.rename first tree) =
    trees.rename (fun index => second (first index)) tree
  of_le : ∀ {tree : α} {smaller larger : Renaming}, trees.Admitted (trees.rename larger tree) →
    (∀ index, smaller index ≤ larger index) → trees.Admitted (trees.rename smaller tree)
  shift_computes : ∀ {cutoff : Nat} {delta : Int}, 0 ≤ (cutoff : Int) + delta → ∀ tree,
    range.Computes (trees.shift cutoff delta tree) (trees.rename (.shift cutoff delta) tree)
  shift_overflowsUnless : ∀ {cutoff : Nat} {delta : Int} {tree : α}, 0 ≤ (cutoff : Int) + delta →
    trees.Admitted (trees.rename (.shift cutoff delta) tree) →
    OverflowsUnless (range.Counts cutoff (trees.nesting tree)) (trees.shift cutoff delta tree)
      (trees.rename (.shift cutoff delta) tree)
  admitted_of_shift : ∀ {cutoff : Nat} {delta : Int} {tree moved : α}, trees.Admitted tree →
    trees.shift cutoff delta tree = .ok moved → trees.Admitted moved
  counts_of_shift : ∀ {cutoff : Nat} {delta : Int} {tree moved : α},
    trees.shift cutoff delta tree = .ok moved → range.Counts cutoff (trees.nesting tree)
  shift_shift : ∀ {cutoff up : Nat} {tree raised : α}, trees.shift cutoff up tree = .ok raised →
    ∀ move : Int, trees.shift cutoff move raised = trees.shift cutoff (up + move) tree

/-- Types follow the laws of trees with indices. -/
theorem Ty.sort_lawful (range : IndexRange) : (Ty.sort range).Lawful range where
  nesting_rename := Ty.nesting_rename
  rename_id := Ty.rename_id
  rename_rename := Ty.rename_rename
  of_le := Ty.Admitted.of_le
  shift_computes := Ty.shift_computes range
  shift_overflowsUnless := Ty.shift_overflowsUnless
  admitted_of_shift := Ty.Admitted.shift
  counts_of_shift := Ty.counts_of_shift
  shift_shift := Ty.shift_shift

/-- Terms follow the laws of trees with indices. -/
theorem Term.sort_lawful (range : IndexRange) : (Term.sort range).Lawful range where
  nesting_rename := Term.nesting_rename
  rename_id := Term.rename_id
  rename_rename := Term.rename_rename
  of_le := Term.Admitted.of_le
  shift_computes := Term.shift_computes range
  shift_overflowsUnless := Term.shift_overflowsUnless
  admitted_of_shift := Term.Admitted.shift
  counts_of_shift := Term.counts_of_shift
  shift_shift := Term.shift_shift

/-! ## The algebra of shifts -/

/-- The laws that the shifts of a tree obey, from every cutoff that has room below the end of
the range for the binders of the tree. -/
structure ShiftAlgebra {α : Type} (range : IndexRange) (trees : TreeSort α) (tree : α) :
    Prop where
  /-- No index leaves the range where there is room for the amount. -/
  succeeds : ∀ cutoff up : Nat, range.Counts cutoff (trees.nesting tree) →
    trees.AdmittedUnder up tree → ∃ raised, trees.shift cutoff up tree = .ok raised
  /-- From any other cutoff every shift fails. -/
  counted : ∀ (cutoff : Nat) (delta : Int) (moved : α), trees.shift cutoff delta tree = .ok moved →
    range.Counts cutoff (trees.nesting tree)
  /-- A shift after an upward shift is one shift, up or down. -/
  composes : ∀ (cutoff up : Nat) (move : Int) (raised : α),
    trees.shift cutoff up tree = .ok raised →
    trees.shift cutoff move raised = trees.shift cutoff (up + move) tree
  /-- What was shifted up can be shifted down by as much, and further up where there is room. -/
  continues : ∀ (cutoff up : Nat) (move : Int) (raised : α),
    trees.shift cutoff up tree = .ok raised → -up ≤ move →
    move ≤ 0 ∨ trees.AdmittedUnder (up + move).toNat tree →
    ∃ moved, trees.shift cutoff move raised = .ok moved
  returns : ∀ (cutoff up : Nat) (raised : α), trees.shift cutoff up tree = .ok raised →
    trees.shift cutoff (-up) raised = .ok tree
  /-- Shifts from two cutoffs change places, if the upper cutoff has room to move. -/
  commutes : ∀ (lower upper first second : Nat) (moved : α), lower ≤ upper →
    range.Counts (upper + first) (trees.nesting tree) →
    ((do
      let raised ← trees.shift upper second tree
      trees.shift lower first raised) = .ok moved ↔
    (do
      let raised ← trees.shift lower first tree
      trees.shift (upper + first) second raised) = .ok moved)
  bothSucceed : ∀ lower upper first second : Nat, range.Counts lower (trees.nesting tree) →
    range.Counts upper (trees.nesting tree) → trees.AdmittedUnder (first + second) tree →
    ∃ moved, (do
      let raised ← trees.shift upper second tree
      trees.shift lower first raised) = .ok moved

namespace TreeSort.Lawful

variable {α : Type} {range : IndexRange} {trees : TreeSort α} {tree : α}

/-- A tree with room to be raised is representable. -/
theorem admitted (lawful : trees.Lawful range) {room : Nat}
    (fits : trees.AdmittedUnder room tree) : trees.Admitted tree := by
  have unmoved := lawful.of_le fits fun index => Nat.le_add_right index room
  rwa [lawful.rename_id] at unmoved

/-- Room for a greater raise is room for a smaller one. -/
theorem mono (lawful : trees.Lawful range) {smaller larger : Nat}
    (fits : trees.AdmittedUnder larger tree) (le : smaller ≤ larger) :
    trees.AdmittedUnder smaller tree :=
  lawful.of_le fits fun index => Nat.add_le_add_left le index

/-- A renaming that raises indices by a bounded amount leaves what room there is beyond it. -/
theorem admittedUnder_rename (lawful : trees.Lawful range) {room up : Nat}
    (fits : trees.AdmittedUnder (up + room) tree) {mapping : Renaming}
    (bounded : ∀ index, mapping index ≤ index + up) :
    trees.AdmittedUnder room (trees.rename mapping tree) := by
  rw [TreeSort.AdmittedUnder, lawful.rename_rename]
  refine lawful.of_le fits fun index => ?_
  have moved := bounded index
  simp only [Renaming.up_apply]
  omega

/-- A shift of a tree with representable indices succeeds exactly if no index of the result
leaves the range, and the binders can be counted from the cutoff on. -/
theorem shift_eq_ok_iff (lawful : trees.Lawful range) {cutoff : Nat} {delta : Int} {moved : α}
    (treeAdmitted : trees.Admitted tree) (bounded : 0 ≤ (cutoff : Int) + delta) :
    trees.shift cutoff delta tree = .ok moved ↔
      moved = trees.rename (.shift cutoff delta) tree ∧ trees.Admitted moved ∧
        range.Counts cutoff (trees.nesting tree) := by
  constructor
  · intro shifted
    exact ⟨(lawful.shift_computes bounded tree).eq_of_ok shifted,
      lawful.admitted_of_shift treeAdmitted shifted, lawful.counts_of_shift shifted⟩
  · rintro ⟨rfl, movedAdmitted, counts⟩
    exact (lawful.shift_overflowsUnless bounded movedAdmitted).eq_ok counts

/-- An upward shift succeeds where there is room, and uses up as much of it as it moves. -/
theorem shift_within (lawful : trees.Lawful range) {cutoff : Nat}
    (counts : range.Counts cutoff (trees.nesting tree)) (room : Nat) {up : Nat}
    (fits : trees.AdmittedUnder (up + room) tree) :
    ∃ raised, trees.shift cutoff up tree = .ok raised ∧ trees.AdmittedUnder room raised ∧
      trees.nesting raised = trees.nesting tree := by
  have raisedFits := lawful.admittedUnder_rename fits (Renaming.shift_le cutoff up)
  have shifted := (lawful.shift_eq_ok_iff (lawful.admitted fits) (by omega)).mpr
    ⟨rfl, lawful.admitted raisedFits, counts⟩
  exact ⟨_, shifted, raisedFits, lawful.nesting_rename tree _⟩

/-- Taking away a binder takes no index out of the range. -/
theorem down_overflowsUnless (lawful : trees.Lawful range) (treeAdmitted : trees.Admitted tree) :
    OverflowsUnless (range.Counts 1 (trees.nesting tree)) (trees.shift 1 (-1) tree)
      (trees.rename (.shift 1 (-1)) tree) := by
  refine lawful.shift_overflowsUnless (by omega) ?_
  rw [Renaming.shift_one]
  rw [← lawful.rename_id tree] at treeAdmitted
  exact lawful.of_le treeAdmitted fun index => Nat.sub_le index 1

/-- Two upward shifts succeed exactly if no index of their final result leaves the range and
the binders can be counted from both cutoffs. -/
theorem shift_bind_eq_ok_iff (lawful : trees.Lawful range) (treeAdmitted : trees.Admitted tree)
    (inner outer first second : Nat) {moved : α} :
    (do
      let raised ← trees.shift inner first tree
      trees.shift outer second raised) = .ok moved ↔
      (moved = trees.rename (fun index =>
          Renaming.shift outer second (Renaming.shift inner first index)) tree ∧
        trees.Admitted moved) ∧
      range.Counts inner (trees.nesting tree) ∧ range.Counts outer (trees.nesting tree) := by
  rw [bind_eq_ok_iff]
  constructor
  · rintro ⟨raised, firstShifted, secondShifted⟩
    obtain ⟨rfl, raisedAdmitted, innerCounts⟩ :=
      (lawful.shift_eq_ok_iff treeAdmitted (by omega)).mp firstShifted
    obtain ⟨rfl, movedAdmitted, outerCounts⟩ :=
      (lawful.shift_eq_ok_iff raisedAdmitted (by omega)).mp secondShifted
    rw [lawful.nesting_rename] at outerCounts
    exact ⟨⟨lawful.rename_rename tree _ _, movedAdmitted⟩, innerCounts, outerCounts⟩
  · rintro ⟨⟨rfl, movedAdmitted⟩, innerCounts, outerCounts⟩
    have raisedAdmitted : trees.Admitted (trees.rename (.shift inner first) tree) :=
      lawful.of_le movedAdmitted fun index => Renaming.le_shift ..
    rw [← lawful.nesting_rename tree (.shift inner first)] at outerCounts
    refine ⟨_, (lawful.shift_eq_ok_iff treeAdmitted (by omega)).mpr
      ⟨rfl, raisedAdmitted, innerCounts⟩, ?_⟩
    refine (lawful.shift_eq_ok_iff raisedAdmitted (by omega)).mpr ⟨?_, movedAdmitted, outerCounts⟩
    exact (lawful.rename_rename tree _ _).symm

/-- A representable tree follows the algebra of shifts. -/
theorem algebra (lawful : trees.Lawful range) (treeAdmitted : trees.Admitted tree) :
    ShiftAlgebra range trees tree where
  succeeds cutoff up counts fits := by
    obtain ⟨raised, shifted, -⟩ := lawful.shift_within counts 0 fits
    exact ⟨raised, shifted⟩
  counted cutoff delta moved shifted := lawful.counts_of_shift shifted
  composes _ _ move _ shifted := lawful.shift_shift shifted move
  continues cutoff up move raised shifted bounded fits := by
    obtain ⟨rfl, raisedAdmitted, counts⟩ :=
      (lawful.shift_eq_ok_iff treeAdmitted (by omega)).mp shifted
    -- The tree ends up as far as both shifts together take it: no further than the first did,
    -- or as far as there is room.
    have movedAdmitted : trees.Admitted (trees.rename (.shift cutoff (up + move)) tree) := by
      obtain down | room := fits
      · exact lawful.of_le raisedAdmitted (Renaming.shift_mono (by omega) cutoff)
      · obtain ⟨total, sum⟩ := Int.eq_ofNat_of_zero_le (by omega : 0 ≤ (up : Int) + move)
        rw [sum] at room ⊢
        exact lawful.of_le room (Renaming.shift_le cutoff total)
    rw [lawful.shift_shift shifted]
    exact ⟨_, (lawful.shift_eq_ok_iff treeAdmitted (by omega)).mpr ⟨rfl, movedAdmitted, counts⟩⟩
  returns cutoff up raised shifted := by
    have counts := lawful.counts_of_shift shifted
    rw [lawful.shift_shift shifted, Int.add_right_neg]
    refine (lawful.shift_eq_ok_iff treeAdmitted (by omega)).mpr ⟨?_, treeAdmitted, counts⟩
    rw [Renaming.shift_id, lawful.rename_id]
  commutes lower upper first second moved ordered counts := by
    have upperCounts := counts.of_le (Nat.le_add_right upper first)
    have lowerCounts := upperCounts.of_le ordered
    rw [lawful.shift_bind_eq_ok_iff treeAdmitted, lawful.shift_bind_eq_ok_iff treeAdmitted]
    simp only [Renaming.shift_shift_comm ordered, lowerCounts, upperCounts, counts, and_self]
  bothSucceed lower upper first second lowerCounts upperCounts fits := by
    refine ⟨_, (lawful.shift_bind_eq_ok_iff treeAdmitted ..).mpr
      ⟨⟨rfl, ?_⟩, upperCounts, lowerCounts⟩⟩
    refine lawful.of_le fits fun index => ?_
    have inner := Renaming.shift_le upper second index
    have outer := Renaming.shift_le lower first (Renaming.shift upper second index)
    simp only [Renaming.up_apply]
    omega

end TreeSort.Lawful

/-- The shifts of a tree with representable indices compose and change places. -/
theorem shifts_compose_and_commute (range : IndexRange) :
    (∀ ty : Ty, ty.Admitted range → ShiftAlgebra range (Ty.sort range) ty) ∧
    (∀ term : Term, term.Admitted range → ShiftAlgebra range (Term.sort range) term) :=
  ⟨fun _ => (Ty.sort_lawful range).algebra, fun _ => (Term.sort_lawful range).algebra⟩

/-- A function whose parameter and body refer out of the term, the body by an index as high
as an upward shift by five allows. -/
def straddling : Term :=
  .lam ⟨0, 30⟩ (.all ⟨5, 10⟩ (.var ⟨9, 10⟩ 3))
    (.tyApp ⟨13, 30⟩ (.app ⟨13, 24⟩ (.var ⟨13, 14⟩ 0) (.var ⟨15, 24⟩ 18446744073709551610))
      (.var ⟨27, 28⟩ 1))

/-- A term with indices on both sides of the cutoff is raised and returned, and its shifts
commute up to the greatest cutoff that leaves its binder countable. -/
theorem shifts_compose_and_commute_straddling :
    straddling.Admitted .standard ∧
    (∃ raised, straddling.shift .standard 1 5 = .ok raised ∧
      raised.shift .standard 1 (-5) = .ok straddling ∧
      raised.shift .standard 1 1 = .error .shift) ∧
    ∃ moved,
      (do
        let raised ← straddling.shift .standard 18446744073709551611 2
        raised.shift .standard 1 3) = .ok moved ∧
      (do
        let raised ← straddling.shift .standard 1 3
        raised.shift .standard 18446744073709551614 2) = .ok moved := by
  have admitted : straddling.Admitted .standard := by decide
  have room : (straddling.lift 5).Admitted .standard := by decide
  have laws := (shifts_compose_and_commute .standard).2 straddling admitted
  -- The function nests one binder, so the last cutoff to shift it from is the last index but one.
  have counts : IndexRange.standard.Counts 18446744073709551614 straddling.nesting :=
    .inr (by decide)
  have counted (cutoff : Nat) (le : cutoff ≤ 18446744073709551614) := counts.of_le le
  obtain ⟨raised, shifted⟩ := laws.succeeds 1 5 (counted 1 (by decide)) room
  have again := laws.composes 1 5 1 raised shifted
  obtain ⟨moved, left⟩ := laws.bothSucceed 1 18446744073709551611 3 2 (counted 1 (by decide))
    (counted 18446744073709551611 (by decide)) room
  have right := (laws.commutes 1 18446744073709551611 3 2 moved (by decide) counts).mp left
  exact ⟨admitted, ⟨raised, shifted, laws.returns 1 5 raised shifted, again.trans rfl⟩,
    moved, left, right⟩

/-- From the last index no binder can be counted. -/
example : straddling.shift .standard 18446744073709551615 0 = .error .overflow :=
  rfl

end PolyLambda.Indexed
