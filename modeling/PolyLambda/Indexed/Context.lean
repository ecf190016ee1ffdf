import PolyLambda.Context.Basic
import PolyLambda.Indexed.Basic

/-!
# Indexed contexts

The context that the type checker and the normaliser work in. The indices of a
recorded type or definition count from the binder below it.
-/

namespace PolyLambda.Indexed

/-- A context of indexed types and terms, the newest binder first. -/
abbrev Context := PolyLambda.Context Unit Ty Term

/-- A binder of an indexed context. -/
abbrev Binding := PolyLambda.Binding Unit Ty Term

namespace Context

/-- The context under one more type binder. -/
def pushType (context : Context) : Context :=
  .type () :: context

/-- The context under one more term binder. -/
def pushTerm (context : Context) (ty : Ty) : Context :=
  .term ⟨(), ty, none⟩ :: context

end Context

end PolyLambda.Indexed
