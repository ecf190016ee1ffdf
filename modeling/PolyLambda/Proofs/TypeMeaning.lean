import PolyLambda.Proofs.Typing

/-!
# Readings of types

A reading says what arrows and quantifiers make of the meanings of their parts. What a
type means depends on what its free indices mean and on nothing else: not on spans, and
after a renaming or a substitution on what the indices are taken to. These laws hold of
every reading; types are read as candidates and as propositions.
-/

namespace PolyLambda.Indexed

/-- What arrows and quantifiers make of the meanings of their parts. -/
structure Reading (α : Type) where
  arrow : α → α → α
  all : (α → α) → α

/-- What each type index means. -/
abbrev Assignment (α : Type) := Nat → α

/-- The assignment inside one more binder, which means `head`. -/
def Assignment.cons {α : Type} (head : α) (assignment : Assignment α) : Assignment α
  | 0 => head
  | index + 1 => assignment index

/-- What a type means in a reading. -/
def Ty.read {α : Type} (reading : Reading α) (assignment : Assignment α) : Ty → α
  | .var _ index => assignment index
  | .arrow _ domain codomain =>
    reading.arrow (domain.read reading assignment) (codomain.read reading assignment)
  | .all _ body => reading.all fun value => body.read reading (assignment.cons value)

section

variable {α : Type} (reading : Reading α)

/-- Types that are the same are read alike. -/
theorem Ty.Same.read (assignment : Assignment α) {left right : Ty} (same : left.Same right) :
    left.read reading assignment = right.read reading assignment := by
  induction left generalizing right assignment with
  | var span index =>
      cases right with
      | var =>
          cases same
          rfl
      | arrow => cases same
      | all => cases same
  | arrow span domain codomain domainIH codomainIH =>
      obtain ⟨_, _, _, rfl, domains, codomains⟩ := Ty.same_arrow_iff.mp same
      simp only [Ty.read, domainIH assignment domains, codomainIH assignment codomains]
  | all span body bodyIH =>
      obtain ⟨_, _, rfl, bodies⟩ := Ty.same_all_iff.mp same
      simp only [Ty.read, bodyIH _ bodies]

/-- A renamed type is read as the type is where variables are assigned by the renaming. -/
theorem Ty.read_rename (ty : Ty) (mapping : Renaming) (assignment : Assignment α) :
    (ty.rename mapping).read reading assignment =
      ty.read reading fun index => assignment (mapping index) := by
  induction ty generalizing mapping assignment with
  | var span index => rfl
  | arrow span domain codomain domainIH codomainIH =>
      simp only [Ty.rename, Ty.read, domainIH, codomainIH]
  | all span body bodyIH =>
      have crossing : ∀ value, (fun index => assignment.cons value (mapping.under index)) =
          Assignment.cons value fun index => assignment (mapping index) := by
        intro value
        ext index
        cases index <;> rfl
      simp only [Ty.rename, Ty.read, bodyIH, crossing]

@[simp] theorem Ty.read_lift_cons (ty : Ty) (head : α) (assignment : Assignment α) :
    (ty.lift 1).read reading (assignment.cons head) = ty.read reading assignment :=
  Ty.read_rename reading ty (.up 1) (assignment.cons head)

/-- A type after a substitution is read as the type is where variables mean their
replacements. -/
theorem Ty.read_substAll (ty : Ty) {types : TySubst} {assignment image : Assignment α}
    (means : ∀ span index, (types span index).read reading assignment = image index) :
    (ty.substAll types).read reading assignment = ty.read reading image := by
  induction ty generalizing types assignment image with
  | var span index => exact means span index
  | arrow span domain codomain domainIH codomainIH =>
      simp only [Ty.substAll, Ty.read, domainIH means, codomainIH means]
  | all span body bodyIH =>
      have crossing : ∀ value span index,
          (types.under span index).read reading (assignment.cons value) =
            image.cons value index := by
        intro value span index
        cases index with
        | zero => rfl
        | succ index =>
            have below := Ty.read_lift_cons reading (types span index) value assignment
            exact below.trans (means span index)
      simp only [Ty.substAll, Ty.read, bodyIH (crossing _)]

/-- A body at a type means what the body means when its variable means the type. -/
theorem Ty.read_bodyAt (body argument : Ty) (assignment : Assignment α) :
    (body.bodyAt argument).read reading assignment =
      body.read reading (assignment.cons (argument.read reading assignment)) := by
  apply Ty.read_substAll reading body
  intro span index
  cases index <;> rfl

end

end PolyLambda.Indexed
