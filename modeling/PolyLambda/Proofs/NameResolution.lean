import PolyLambda.Proofs.NameBridge

/-!
# Which binder a variable denotes

A variable sees the binders of the tree around it, the innermost one first, and behind them
those of the context, the newest one first. It denotes the first binder of its kind and name
among them, and its index is the number of binders, of either kind, in front of that one.
Resolution fails if and only if some variable sees no such binder, and it blames the leftmost
variable of this sort.
-/

namespace PolyLambda

/-! ## The nearest binder -/

/-- Names resolve to the first binder of their kind and name. -/
theorem Scope.indexOf?_eq_some_iff {scope : Scope} {kind : Kind} {name : String} {index : Nat} :
    scope.indexOf? kind name = some index ↔
      ∃ between beyond : Scope, scope = between ++ ⟨kind, name⟩ :: beyond ∧
        ⟨kind, name⟩ ∉ between ∧ index = between.length := by
  constructor
  · intro found
    obtain ⟨inside, matching, earlier⟩ := List.findIdx?_eq_some_iff_getElem.mp found
    refine ⟨scope.take index, scope.drop (index + 1), ?_, ?_, ?_⟩
    · rw [← beq_iff_eq.mp matching, ← List.drop_eq_getElem_cons inside, List.take_append_drop]
    · intro member
      obtain ⟨position, before, same⟩ := List.mem_take_iff_getElem.mp member
      exact earlier position (by omega) (beq_iff_eq.mpr same)
    · rw [List.length_take, Nat.min_eq_left (Nat.le_of_lt inside)]
  · rintro ⟨between, beyond, rfl, absent, rfl⟩
    induction between with
    | nil => exact indexOf?_cons_self
    | cons binder between betweenIH =>
        obtain ⟨differ, absentBelow⟩ := not_or.mp (List.mem_cons.not.mp absent)
        rw [List.cons_append, indexOf?_cons_of_ne (Ne.symm differ), betweenIH absentBelow]
        rfl

/-- A name is not found exactly if no binder has it. -/
theorem Scope.indexOf?_eq_none_iff {scope : Scope} {kind : Kind} {name : String} :
    scope.indexOf? kind name = none ↔ ⟨kind, name⟩ ∉ scope := by
  rw [indexOf?, List.findIdx?_eq_none_iff]
  simp only [beq_eq_false_iff_ne]
  constructor
  · intro differ member
    exact differ _ member rfl
  · rintro absent binder member rfl
    exact absent member

/-! ## Places of variables -/

/-- A variable of a named tree, with the binders of the tree around it, the innermost one
first. -/
structure Place where
  around : Scope
  occurrence : Unbound
deriving DecidableEq

namespace Place

/-- The binder that the variable asks for. -/
def binder (place : Place) : Binder :=
  ⟨place.occurrence.kind, place.occurrence.name⟩

/-- The variable is bound neither by the tree around it nor by a scope around the tree. -/
def IsFree (ambient : Scope) (place : Place) : Prop :=
  place.binder ∉ place.around ∧ place.binder ∉ ambient

instance (ambient : Scope) (place : Place) : Decidable (place.IsFree ambient) :=
  inferInstanceAs (Decidable (_ ∧ _))

/-- The index is the number of binders between the variable and the nearest binder of its
kind and name, in the tree first and then in a scope around the tree. -/
def Counts (ambient : Scope) (place : Place) (index : Nat) : Prop :=
  ∃ between beyond : Scope, place.around ++ ambient = between ++ place.binder :: beyond ∧
    place.binder ∉ between ∧ index = between.length

/-- The index that the variable has if it is not free. -/
def index (ambient : Scope) (place : Place) : Nat :=
  (Scope.indexOf? (place.around ++ ambient) place.binder.kind place.binder.name).getD 0

/-- A place is free exactly if its name is not found around it. -/
theorem isFree_iff {ambient : Scope} {place : Place} :
    place.IsFree ambient ↔
      Scope.indexOf? (place.around ++ ambient) place.binder.kind place.binder.name = none := by
  rw [Scope.indexOf?_eq_none_iff, List.mem_append, not_or]
  rfl

/-- The index of a bound place counts the binders up to its own. -/
theorem counts_index {ambient : Scope} {place : Place} (bound : ¬ place.IsFree ambient) :
    place.Counts ambient (place.index ambient) := by
  rw [isFree_iff, ← Ne, Option.ne_none_iff_exists] at bound
  obtain ⟨index, found⟩ := bound
  rw [Place.index, ← found]
  exact Scope.indexOf?_eq_some_iff.mp found.symm

end Place

namespace Named

/-- The places of the variables of a type, from left to right, inside some binders. -/
def Ty.places (around : Scope) : Ty → List Place
  | .var span name => [⟨around, .type, name, span⟩]
  | .arrow _ domain codomain => domain.places around ++ codomain.places around
  | .all _ param body => body.places (⟨.type, param.name⟩ :: around)

/-- The places of the variables of a term, from left to right, inside some binders. A
parameter is no binder around its own type, whose variables come before those of the body. -/
def Term.places (around : Scope) : Term → List Place
  | .var span name => [⟨around, .term, name, span⟩]
  | .lam _ param paramType body =>
    paramType.places around ++ body.places (⟨.term, param.name⟩ :: around)
  | .app _ function argument => function.places around ++ argument.places around
  | .tyLam _ param body => body.places (⟨.type, param.name⟩ :: around)
  | .tyApp _ function argument => function.places around ++ argument.places around

/-- The type with an index in the place of each variable. -/
def Ty.withIndices (index : Place → Nat) (around : Scope) : Ty → Indexed.Ty
  | .var span name => .var span (index ⟨around, .type, name, span⟩)
  | .arrow span domain codomain =>
    .arrow span (domain.withIndices index around) (codomain.withIndices index around)
  | .all span param body => .all span (body.withIndices index (⟨.type, param.name⟩ :: around))

/-- The term with an index in the place of each variable. -/
def Term.withIndices (index : Place → Nat) (around : Scope) : Term → Indexed.Term
  | .var span name => .var span (index ⟨around, .term, name, span⟩)
  | .lam span param paramType body =>
    .lam span (paramType.withIndices index around)
      (body.withIndices index (⟨.term, param.name⟩ :: around))
  | .app span function argument =>
    .app span (function.withIndices index around) (argument.withIndices index around)
  | .tyLam span param body => .tyLam span (body.withIndices index (⟨.type, param.name⟩ :: around))
  | .tyApp span function argument =>
    .tyApp span (function.withIndices index around) (argument.withIndices index around)

end Named

/-! ## Resolution, place by place -/

/-- A value, unless one of some places is free: then the first one that is. -/
def unlessFree {α : Type} (ambient : Scope) (places : List Place) (value : α) : Except Unbound α :=
  match places.find? fun place => decide (place.IsFree ambient) with
  | some place => .error place.occurrence
  | none => .ok value

section

variable {α β γ : Type} {ambient : Scope} {places others : List Place} {unbound : Unbound}

/-- A value that is built from another one waits for the same places. -/
theorem unlessFree_map (build : α → β) (value : α) :
    (do return build (← unlessFree ambient places value)) =
      unlessFree ambient places (build value) := by
  unfold unlessFree
  split <;> rfl

/-- What is free among the first places goes before what is free among the others. -/
theorem unlessFree_append (build : α → β → γ) (first : α) (second : β) :
    (do
      let first ← unlessFree ambient places first
      let second ← unlessFree ambient others second
      return build first second) = unlessFree ambient (places ++ others) (build first second) := by
  unfold unlessFree
  rw [List.find?_append]
  cases places.find? fun place => decide (place.IsFree ambient) with
  | some place => rfl
  | none => cases others.find? fun place => decide (place.IsFree ambient) <;> rfl

/-- Places fail at the first of them that is free. -/
theorem unlessFree_eq_error_iff {value : α} :
    unlessFree ambient places value = .error unbound ↔
      ∃ before place after, places = before ++ place :: after ∧
        (∀ earlier ∈ before, ¬ earlier.IsFree ambient) ∧ place.IsFree ambient ∧
        place.occurrence = unbound := by
  have blames : unlessFree ambient places value = .error unbound ↔
      ∃ place, places.find? (fun place => decide (place.IsFree ambient)) = some place ∧
        place.occurrence = unbound := by
    unfold unlessFree
    cases places.find? fun place => decide (place.IsFree ambient) <;> simp
  simp only [blames, List.find?_eq_some_iff_append, Bool.not_eq_true', decide_eq_true_eq,
    decide_eq_false_iff_not]
  constructor
  · rintro ⟨place, ⟨isFree, before, after, split, earlier⟩, blamed⟩
    exact ⟨before, place, after, split, earlier, isFree, blamed⟩
  · rintro ⟨before, place, after, split, earlier, isFree, blamed⟩
    exact ⟨place, ⟨isFree, before, after, split, earlier⟩, blamed⟩

/-- Places succeed exactly if none of them is free. -/
theorem unlessFree_eq_ok_iff {value result : α} :
    unlessFree ambient places value = .ok result ↔
      (∀ place ∈ places, ¬ place.IsFree ambient) ∧ value = result := by
  have accepts : unlessFree ambient places value = .ok result ↔
      places.find? (fun place => decide (place.IsFree ambient)) = none ∧ value = result := by
    unfold unlessFree
    cases places.find? fun place => decide (place.IsFree ambient) <;> simp
  simp only [accepts, List.find?_eq_none, decide_eq_true_eq]

/-- Places fail exactly if one of them is free. -/
theorem exists_unlessFree_eq_error_iff {value : α} :
    (∃ unbound, unlessFree ambient places value = .error unbound) ↔
      ∃ place ∈ places, place.IsFree ambient := by
  constructor
  · rintro ⟨unbound, failed⟩
    obtain ⟨before, place, after, rfl, _, isFree, _⟩ := unlessFree_eq_error_iff.mp failed
    exact ⟨place, List.mem_append_cons_self, isFree⟩
  · rintro ⟨place, member, isFree⟩
    cases result : unlessFree ambient places value with
    | error unbound => exact ⟨unbound, rfl⟩
    | ok found => exact absurd isFree ((unlessFree_eq_ok_iff.mp result).1 place member)

end

namespace Named

/-- A variable is resolved at its place. -/
theorem resolve_place {ambient : Scope} {α : Type} (build : Nat → α) (place : Place) :
    (do return build (← Scope.resolve (place.around ++ ambient) place.occurrence.kind
      place.occurrence.name place.occurrence.span)) =
      unlessFree ambient [place] (build (place.index ambient)) := by
  cases found : Scope.indexOf? (place.around ++ ambient) place.occurrence.kind
      place.occurrence.name with
  | none =>
      have isFree : place.IsFree ambient := Place.isFree_iff.mpr found
      simp only [Scope.resolve, found, unlessFree, List.find?_singleton, isFree]
      rfl
  | some index =>
      have bound : ¬ place.IsFree ambient := by
        rw [Place.isFree_iff, Place.binder, found]
        exact Option.some_ne_none index
      have isIndex : place.index ambient = index := by rw [Place.index, Place.binder, found]; rfl
      simp only [Scope.resolve, found, unlessFree, List.find?_singleton, bound, isIndex]
      rfl

/-- A type resolves place by place to its indices. -/
theorem Ty.resolve_eq_unlessFree (ambient around : Scope) (named : Ty) :
    named.resolve (around ++ ambient) =
      unlessFree ambient (named.places around)
        (named.withIndices (Place.index ambient) around) := by
  induction named generalizing around with
  | var span name => exact resolve_place (Indexed.Ty.var span) ⟨around, .type, name, span⟩
  | arrow span domain codomain domainIH codomainIH =>
      rw [Ty.resolve, domainIH, codomainIH]
      exact unlessFree_append (Indexed.Ty.arrow span) _ _
  | all span param body bodyIH =>
      have insideIH := bodyIH (⟨.type, param.name⟩ :: around)
      rw [List.cons_append] at insideIH
      rw [Ty.resolve, insideIH]
      exact unlessFree_map (Indexed.Ty.all span) _

/-- A term resolves place by place to its indices. -/
theorem Term.resolve_eq_unlessFree (ambient around : Scope) (named : Term) :
    named.resolve (around ++ ambient) =
      unlessFree ambient (named.places around)
        (named.withIndices (Place.index ambient) around) := by
  induction named generalizing around with
  | var span name => exact resolve_place (Indexed.Term.var span) ⟨around, .term, name, span⟩
  | lam span param paramType body bodyIH =>
      have insideIH := bodyIH (⟨.term, param.name⟩ :: around)
      rw [List.cons_append] at insideIH
      rw [Term.resolve, paramType.resolve_eq_unlessFree ambient around, insideIH]
      exact unlessFree_append (Indexed.Term.lam span) _ _
  | app span function argument functionIH argumentIH =>
      rw [Term.resolve, functionIH, argumentIH]
      exact unlessFree_append (Indexed.Term.app span) _ _
  | tyLam span param body bodyIH =>
      have insideIH := bodyIH (⟨.type, param.name⟩ :: around)
      rw [List.cons_append] at insideIH
      rw [Term.resolve, insideIH]
      exact unlessFree_map (Indexed.Term.tyLam span) _
  | tyApp span function argument functionIH =>
      rw [Term.resolve, functionIH, argument.resolve_eq_unlessFree ambient around]
      exact unlessFree_append (Indexed.Term.tyApp span) _ _

/-- Resolution fails if and only if a variable is free in the tree and in the context, and
blames the first one from left to right. If it succeeds, the tree stays as it is but for its
variables, each of which becomes the number of binders between it and the nearest binder of
its kind and name. -/
theorem Context.resolution_by_nearest_binder (context : Context) (term : Term) :
    ((∃ unbound, term.resolve context.scope = .error unbound) ↔
      ∃ place ∈ term.places [], place.IsFree context.scope) ∧
    (∀ unbound, term.resolve context.scope = .error unbound ↔
      ∃ before place after, term.places [] = before ++ place :: after ∧
        (∀ earlier ∈ before, ¬ earlier.IsFree context.scope) ∧ place.IsFree context.scope ∧
        place.occurrence = unbound) ∧
    ∀ indexed, term.resolve context.scope = .ok indexed →
      ∃ index : Place → Nat, indexed = term.withIndices index [] ∧
        ∀ place ∈ term.places [], place.Counts context.scope (index place) := by
  have resolves := term.resolve_eq_unlessFree context.scope []
  rw [List.nil_append] at resolves
  simp only [resolves]
  refine ⟨exists_unlessFree_eq_error_iff, fun unbound => unlessFree_eq_error_iff, ?_⟩
  · intro indexed success
    obtain ⟨bound, rfl⟩ := unlessFree_eq_ok_iff.mp success
    exact ⟨_, rfl, fun place member => Place.counts_index (bound place member)⟩

/-- The name `x` belongs to a type and to a term. -/
def Context.crossing : Context :=
  [.type "x", .term ⟨"x", .var ⟨12, 13⟩ "A", none⟩, .type "A"]

/-- The term `fun x: A. fun2 x. x[x]`. -/
def Term.crossing : Term :=
  .lam ⟨0, 22⟩ ⟨⟨4, 5⟩, "x"⟩ (.var ⟨7, 8⟩ "A")
    (.tyLam ⟨10, 22⟩ ⟨⟨15, 16⟩, "x"⟩ (.tyApp ⟨18, 22⟩ (.var ⟨18, 19⟩ "x") (.var ⟨20, 21⟩ "x")))

/-- The term `fun y: x. A z`. -/
def Term.astray : Term :=
  .lam ⟨0, 13⟩ ⟨⟨4, 5⟩, "y"⟩ (.var ⟨7, 8⟩ "x")
    (.app ⟨10, 13⟩ (.var ⟨10, 11⟩ "A") (.var ⟨12, 13⟩ "z"))

/-- Both kinds of binders count, in the term and in the context. A type of its name does not
bind the variable `A`, which is blamed before `z`. -/
theorem Context.resolution_by_nearest_binder_crossing :
    (∃ index : Place → Nat,
      .lam ⟨0, 22⟩ (.var ⟨7, 8⟩ 2)
        (.tyLam ⟨10, 22⟩ (.tyApp ⟨18, 22⟩ (.var ⟨18, 19⟩ 1) (.var ⟨20, 21⟩ 0))) =
          Term.crossing.withIndices index [] ∧
      ∀ place ∈ Term.crossing.places [], place.Counts Context.crossing.scope (index place)) ∧
    ∃ before place after, Term.astray.places [] = before ++ place :: after ∧
      (∀ earlier ∈ before, ¬ earlier.IsFree Context.crossing.scope) ∧
      place.IsFree Context.crossing.scope ∧ place.occurrence = ⟨.term, "A", ⟨10, 11⟩⟩ := by
  obtain ⟨_, _, succeeds⟩ := Context.crossing.resolution_by_nearest_binder Term.crossing
  obtain ⟨_, fails, _⟩ := Context.crossing.resolution_by_nearest_binder Term.astray
  exact ⟨succeeds _ rfl, (fails _).mp rfl⟩

end Named

end PolyLambda
