import PolyLambda.Proofs.NamingHygiene

/-!
# The search for a fresh name

A fresh name is found by trying one number after another until its generated name is not
taken. Nothing in the search itself bounds it. It ends since different numbers have different
names, so that the taken names run out, and it ends soon enough for the numbers not to run
out first. What it passes it never comes back to, and names of one kind are never drawn twice.
-/

namespace PolyLambda.Naming

/-! ## Numbers that are passed -/

/-- A number whose name is free is fresh. -/
theorem freshId_of_free {taken : List String} {kind : Kind} {start : Nat}
    (free : generatedName kind start ∉ taken) : freshId taken kind start = start := by
  by_contra differs
  have later := (freshId_spec taken kind start).1
  exact free (freshId_least (Nat.le_refl start) (by omega))

/-- A number whose name is taken is passed over. -/
theorem freshId_of_taken {taken : List String} {kind : Kind} {start : Nat}
    (isTaken : generatedName kind start ∈ taken) :
    freshId taken kind start = freshId taken kind (start + 1) := by
  obtain ⟨enough, free⟩ := freshId_spec taken kind start
  obtain ⟨enoughNext, freeNext⟩ := freshId_spec taken kind (start + 1)
  have moved : freshId taken kind start ≠ start := by
    intro same
    rw [same] at free
    exact free isTaken
  -- Neither of the two lies in front of the other, since both are free.
  rcases Nat.lt_trichotomy (freshId taken kind start) (freshId taken kind (start + 1)) with
    before | same | behind
  · exact absurd (freshId_least (by omega) before) free
  · exact same
  · exact absurd (freshId_least (by omega) behind) freeNext

/-- The search passes no more numbers than there are taken names. -/
theorem freshId_le (taken : List String) (kind : Kind) (start : Nat) :
    freshId taken kind start ≤ start + taken.toFinset.card :=
  le_add_card_of_taken fun _ => freshId_least

namespace Supply

variable {supply middle drawn final : Supply} {kind : Kind} {taken : List String}
  {name : String} {limit turns : Nat}

/-- Passes the next number of a kind. -/
def pass (supply : Supply) : Kind → Supply
  | .type => { supply with nextType := supply.nextType + 1 }
  | .term => { supply with nextTerm := supply.nextTerm + 1 }

/-- Passing a number moves on to the next one. -/
theorem pass_next (supply : Supply) (kind : Kind) :
    (supply.pass kind).next kind = supply.next kind + 1 := by
  cases kind <;> rfl

/-- A free name is drawn at once. -/
theorem draw_of_free (free : generatedName kind (supply.next kind) ∉ taken) :
    supply.draw kind taken = (generatedName kind (supply.next kind), supply.pass kind) := by
  have found := freshId_of_free free
  cases kind <;> simp only [draw, next, pass] at * <;> rw [found]

/-- A taken name is passed over. -/
theorem draw_of_taken (isTaken : generatedName kind (supply.next kind) ∈ taken) :
    supply.draw kind taken = (supply.pass kind).draw kind taken := by
  have skipped := freshId_of_taken isTaken
  cases kind <;> simp only [draw, next, pass] at * <;> rw [skipped]

/-! ## The search turn by turn -/

/-- The search for a name that is not taken. Each turn generates the name of the next number,
which must lie below a limit, and passes the number. The search ends, after the turns that are
counted, with the first name that is not taken. -/
inductive Searches (limit : Nat) (taken : List String) (kind : Kind) :
    Supply → Nat → String → Supply → Prop
  | found {supply : Supply} (inRange : supply.next kind < limit)
      (free : generatedName kind (supply.next kind) ∉ taken) :
      Searches limit taken kind supply 1 (generatedName kind (supply.next kind))
        (supply.pass kind)
  | skipped {supply final : Supply} {turns : Nat} {name : String}
      (inRange : supply.next kind < limit)
      (isTaken : generatedName kind (supply.next kind) ∈ taken)
      (more : Searches limit taken kind (supply.pass kind) turns name final) :
      Searches limit taken kind supply (turns + 1) name final

/-- A search that ends has drawn the name, and each turn has passed one number. -/
theorem Searches.draw_eq (searches : Searches limit taken kind supply turns name final) :
    supply.draw kind taken = (name, final) ∧ final.next kind = supply.next kind + turns := by
  induction searches with
  | found _ free => exact ⟨draw_of_free free, pass_next _ kind⟩
  | skipped _ isTaken _ moreIH =>
      obtain ⟨drawn, passed⟩ := moreIH
      rw [pass_next] at passed
      exact ⟨(draw_of_taken isTaken).trans drawn, by omega⟩

/-- A search that ends takes a turn for each taken name and one more at the most. -/
theorem Searches.turns_le (searches : Searches limit taken kind supply turns name final) :
    turns ≤ taken.toFinset.card + 1 := by
  obtain ⟨drawn, passed⟩ := searches.draw_eq
  have next := supply.draw_next kind taken
  simp only [drawn, passed] at next
  have near := freshId_le taken kind (supply.next kind)
  omega

/-- A search ends if a free number is left in front of the limit. -/
theorem exists_searches (inRange : freshId taken kind (supply.next kind) < limit) :
    ∃ turns, Searches limit taken kind supply turns (supply.draw kind taken).1
      (supply.draw kind taken).2 := by
  -- By induction on how far away the free number is.
  induction away : freshId taken kind (supply.next kind) - supply.next kind
    generalizing supply with
  | zero =>
      obtain ⟨enough, free⟩ := freshId_spec taken kind (supply.next kind)
      have here : freshId taken kind (supply.next kind) = supply.next kind := by omega
      rw [here] at free inRange
      rw [draw_of_free free]
      exact ⟨1, .found inRange free⟩
  | succ away awayIH =>
      have enough := (freshId_spec taken kind (supply.next kind)).1
      have isTaken : generatedName kind (supply.next kind) ∈ taken :=
        freshId_least (Nat.le_refl _) (by omega)
      have passed := pass_next supply kind
      have sameFree := freshId_of_taken isTaken
      rw [← passed] at sameFree
      obtain ⟨turns, more⟩ := @awayIH (supply.pass kind) (by omega) (by omega)
      rw [draw_of_taken isTaken]
      exact ⟨turns + 1, .skipped (by omega) isTaken more⟩

/-- How the search for a name ends. -/
structure SearchEnds (supply : Supply) (kind : Kind) (taken : List String) : Prop where
  /-- It ends, after a turn for each taken name and one more at the most, unless the numbers
  run out before that. -/
  ends : ∀ limit, supply.next kind + taken.toFinset.card < limit →
    ∃ turns ≤ taken.toFinset.card + 1,
      Searches limit taken kind supply turns (supply.draw kind taken).1
        (supply.draw kind taken).2
  /-- It ends in no other way, and never later. -/
  unique : ∀ limit turns name final, Searches limit taken kind supply turns name final →
    supply.draw kind taken = (name, final) ∧ turns ≤ taken.toFinset.card + 1
  /-- It gives the name of the least number that is not taken, and passes this number. -/
  least : ∃ id, (supply.draw kind taken).1 = generatedName kind id ∧
    IsLeast {id | supply.next kind ≤ id ∧ generatedName kind id ∉ taken} id ∧
    (supply.draw kind taken).2.next kind = id + 1 ∧
    ∀ other, other ≠ kind → (supply.draw kind taken).2.next other = supply.next other

/-- The search for a name ends as described, from every supply. -/
theorem searchEnds (supply : Supply) (kind : Kind) (taken : List String) :
    supply.SearchEnds kind taken where
  ends limit room := by
    have near := freshId_le taken kind (supply.next kind)
    have inRange : freshId taken kind (supply.next kind) < limit := by omega
    obtain ⟨turns, searches⟩ := exists_searches inRange
    exact ⟨turns, searches.turns_le, searches⟩
  unique _ _ _ _ searches := ⟨searches.draw_eq.1, searches.turns_le⟩
  least := by
    refine ⟨_, supply.draw_name kind taken, ⟨freshId_spec taken kind _, ?_⟩,
      supply.draw_next kind taken, fun _ => supply.draw_next_of_ne taken⟩
    rintro id ⟨enough, free⟩
    by_contra lower
    exact free (freshId_least enough (Nat.lt_of_not_le lower))

/-! ## Successive searches -/

namespace Draws

variable {ambient binders : Scope} {binder : Binder}

/-- What is drawn at last may as well stand first. -/
theorem push (earlier : supply.Draws ambient binders middle)
    (last : middle.Draws ambient [binder] drawn) :
    supply.Draws ambient (binder :: binders) drawn := by
  have both := earlier.append last
  have order : (binders ++ [binder]).Perm (binder :: binders) := List.perm_append_singleton ..
  exact ⟨both.before, order.nodup both.distinct,
    fun found member => both.fresh found (order.mem_iff.mpr member),
    fun found member => both.passed found (order.mem_iff.mpr member)⟩

end Draws

end Supply

/-- Entering binders one after the other draws a name for each of them. -/
theorem Binders.enterAll_draws (binders : Binders) (supply : Supply) (kinds : List Kind) :
    ∃ drawn : Scope,
      (binders.enterAll supply kinds).1 = ⟨binders.ambient, drawn ++ binders.inner⟩ ∧
      drawn.map Binder.kind = kinds ∧
      supply.Draws binders.ambient drawn (binders.enterAll supply kinds).2 := by
  induction kinds with
  | nil => exact ⟨[], rfl, rfl, .nil supply _⟩
  | cons kind kinds kindsIH =>
      obtain ⟨drawn, inside, drawnKinds, draws⟩ := kindsIH
      rcases entered : (binders.enterAll supply kinds).1.enter
        (binders.enterAll supply kinds).2 kind with ⟨name, innermost, final⟩
      have last := Supply.Draws.single entered
      obtain ⟨-, rfl⟩ := Binders.enter_eq_iff.mp entered
      simp only [inside] at last
      refine ⟨⟨kind, name⟩ :: drawn, ?_, congrArg (kind :: ·) drawnKinds, ?_⟩
      · simp only [Binders.enterAll, entered]
        rw [inside, List.cons_append]
      · simp only [Binders.enterAll, entered]
        exact draws.push last

/-- The search for a fresh name ends, whatever names are taken and wherever it starts, with
the first name that is free. Successive searches, of either kind in any order, give names that
differ within each kind. -/
theorem fresh_name_search_ends :
    (∀ (supply : Supply) (kind : Kind) (taken : List String), supply.SearchEnds kind taken) ∧
    ∀ (binders : Binders) (supply : Supply) (kinds : List Kind),
      ∃ drawn : Scope,
        (binders.enterAll supply kinds).1 = ⟨binders.ambient, drawn ++ binders.inner⟩ ∧
        drawn.map Binder.kind = kinds ∧
        ∀ kind, (drawn.names kind).Nodup ∧
          ∀ name ∈ drawn.names kind, name ∉ binders.ambient.names kind := by
  refine ⟨Supply.searchEnds, fun binders supply kinds => ?_⟩
  obtain ⟨drawn, inside, drawnKinds, draws⟩ := binders.enterAll_draws supply kinds
  exact ⟨drawn, inside, drawnKinds, draws.hygienic⟩

/-- With three different names taken, the third name in the order is found in four
turns at most. -/
theorem fresh_name_search_ends_colliding :
    ["B", "A", "x", "A"].toFinset.card = 3 ∧
    ∃ turns ≤ 4, Supply.Searches 18446744073709551615 ["B", "A", "x", "A"] .type ⟨0, 7⟩ turns
      "C" ⟨3, 7⟩ := by
  have count : ["B", "A", "x", "A"].toFinset.card = 3 := by decide
  have room : 0 + ["B", "A", "x", "A"].toFinset.card < 18446744073709551615 := by
    rw [count]
    decide
  have drawn : Supply.draw ⟨0, 7⟩ .type ["B", "A", "x", "A"] = ("C", ⟨3, 7⟩) := by
    decide +kernel
  have ended := (fresh_name_search_ends.1 ⟨0, 7⟩ .type ["B", "A", "x", "A"]).ends _ room
  rw [count, drawn] at ended
  exact ⟨count, ended⟩

end PolyLambda.Naming
