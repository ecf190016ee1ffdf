import PolyLambda.Proofs.IndexArithmetic
import PolyLambda.Session.Execution

/-!
# Forgetting spans

Spans take no part in what a statement does. Whatever is computed from trees without
spans is what is computed from the trees themselves, without its spans: this holds for
every step from the names of a statement to its result.
-/

namespace PolyLambda

/-- A result with its value and its failure mapped. -/
def mapBoth {ε ε' α β : Type} (onError : ε → ε') (onValue : α → β) : Except ε α → Except ε' β
  | .ok value => .ok (onValue value)
  | .error error => .error (onError error)

section MapBoth

variable {ε ε' φ φ' α β γ δ : Type} {onError : ε → ε'} {onValue : α → β}
variable {first : Except ε α} {second : Except ε' β}

/-- Two computations that correspond so far still do after steps that correspond. -/
theorem mapBoth_bind (equal : second = mapBoth onError onValue first) {next : α → Except ε γ}
    {otherNext : β → Except ε' δ} {onFinal : γ → δ}
    (onward : ∀ value, otherNext (onValue value) = mapBoth onError onFinal (next value)) :
    second >>= otherNext = mapBoth onError onFinal (first >>= next) := by
  rw [equal]
  cases first with
  | ok value => exact onward value
  | error error => rfl

/-- Wrapping the failures of corresponding computations keeps them in correspondence. -/
theorem mapBoth_mapError (equal : second = mapBoth onError onValue first) {wrap : ε → φ}
    {otherWrap : ε' → φ'} {onWrapped : φ → φ'}
    (wraps : ∀ error, otherWrap (onError error) = onWrapped (wrap error)) :
    second.mapError otherWrap = mapBoth onWrapped onValue (first.mapError wrap) := by
  rw [equal]
  cases first with
  | ok value => rfl
  | error error => exact congrArg Except.error (wraps error)

/-- Every computation corresponds to itself, with nothing changed. -/
theorem mapBoth_id (result : Except ε α) : result = mapBoth id id result := by
  cases result <;> rfl

end MapBoth

/-! ## Indexed trees -/

namespace Indexed

/-- What is recorded about a term, without spans. -/
def bareEntry (entry : TermEntry Unit Ty Term) : TermEntry Unit Ty Term :=
  ⟨entry.name, entry.ty.bare, entry.definition.map Term.bare⟩

/-- A binder without spans. -/
def Binding.bare : Binding → Binding
  | .type name => .type name
  | .term entry => .term (bareEntry entry)

/-- A context without spans. -/
def Context.bare (context : Context) : Context :=
  context.map Binding.bare

/-- Shifting a type looks at no span and keeps every span in its place. -/
theorem Ty.shift_bare (range : IndexRange) (cutoff : Nat) (delta : Int) (ty : Ty) :
    ty.bare.shift range cutoff delta = mapBoth id bare (ty.shift range cutoff delta) := by
  induction ty generalizing cutoff with
  | var span index => exact mapBoth_bind (mapBoth_id _) fun index => rfl
  | arrow span domain codomain domainIH codomainIH =>
      refine mapBoth_bind (domainIH cutoff) fun domain => ?_
      exact mapBoth_bind (codomainIH cutoff) fun codomain => rfl
  | all span body bodyIH =>
      refine mapBoth_bind (mapBoth_id (range.succ cutoff)) fun cutoff => ?_
      exact mapBoth_bind (bodyIH cutoff) fun body => rfl

/-- Shifting a term looks at no span and keeps every span in its place. -/
theorem Term.shift_bare (range : IndexRange) (cutoff : Nat) (delta : Int) (term : Term) :
    term.bare.shift range cutoff delta = mapBoth id bare (term.shift range cutoff delta) := by
  induction term generalizing cutoff with
  | var span index => exact mapBoth_bind (mapBoth_id _) fun index => rfl
  | lam span paramType body bodyIH =>
      refine mapBoth_bind (paramType.shift_bare range cutoff delta) fun paramType => ?_
      refine mapBoth_bind (mapBoth_id (range.succ cutoff)) fun cutoff => ?_
      exact mapBoth_bind (bodyIH cutoff) fun body => rfl
  | app span function argument functionIH argumentIH =>
      refine mapBoth_bind (functionIH cutoff) fun function => ?_
      exact mapBoth_bind (argumentIH cutoff) fun argument => rfl
  | tyLam span body bodyIH =>
      refine mapBoth_bind (mapBoth_id (range.succ cutoff)) fun cutoff => ?_
      exact mapBoth_bind (bodyIH cutoff) fun body => rfl
  | tyApp span function argument functionIH =>
      refine mapBoth_bind (functionIH cutoff) fun function => ?_
      exact mapBoth_bind (argument.shift_bare range cutoff delta) fun argument => rfl

/-- Substituting in a type without spans gives the result without spans. -/
theorem Ty.subst_bare (range : IndexRange) (ty : Ty) (index : Nat) (replacement : Ty) :
    ty.bare.subst range index replacement.bare =
      mapBoth id bare (ty.subst range index replacement) := by
  induction ty generalizing index replacement with
  | var span other =>
      simp only [bare, subst, mapBoth]
      split <;> rfl
  | arrow span domain codomain domainIH codomainIH =>
      refine mapBoth_bind (domainIH index replacement) fun domain => ?_
      exact mapBoth_bind (codomainIH index replacement) fun codomain => rfl
  | all span body bodyIH =>
      refine mapBoth_bind (mapBoth_id (range.succ index)) fun index => ?_
      refine mapBoth_bind (replacement.shift_bare range 0 1) fun replacement => ?_
      exact mapBoth_bind (bodyIH index replacement) fun body => rfl

/-- Substituting a term in a term without spans gives the result without spans. -/
theorem Term.subst_bare (range : IndexRange) (term : Term) (index : Nat) (replacement : Term) :
    term.bare.subst range index replacement.bare =
      mapBoth id bare (term.subst range index replacement) := by
  induction term generalizing index replacement with
  | var span other =>
      simp only [bare, subst, mapBoth]
      split <;> rfl
  | lam span paramType body bodyIH =>
      refine mapBoth_bind (mapBoth_id (range.succ index)) fun index => ?_
      refine mapBoth_bind (replacement.shift_bare range 0 1) fun replacement => ?_
      exact mapBoth_bind (bodyIH index replacement) fun body => rfl
  | app span function argument functionIH argumentIH =>
      refine mapBoth_bind (functionIH index replacement) fun function => ?_
      exact mapBoth_bind (argumentIH index replacement) fun argument => rfl
  | tyLam span body bodyIH =>
      refine mapBoth_bind (mapBoth_id (range.succ index)) fun index => ?_
      refine mapBoth_bind (replacement.shift_bare range 0 1) fun replacement => ?_
      exact mapBoth_bind (bodyIH index replacement) fun body => rfl
  | tyApp span function argument functionIH =>
      exact mapBoth_bind (functionIH index replacement) fun function => rfl

/-- Substituting a type in a term without spans gives the result without spans. -/
theorem Term.substType_bare (range : IndexRange) (term : Term) (index : Nat) (replacement : Ty) :
    term.bare.substType range index replacement.bare =
      mapBoth id bare (term.substType range index replacement) := by
  induction term generalizing index replacement with
  | var span other => rfl
  | lam span paramType body bodyIH =>
      refine mapBoth_bind (paramType.subst_bare range index replacement) fun paramType => ?_
      refine mapBoth_bind (mapBoth_id (range.succ index)) fun index => ?_
      refine mapBoth_bind (replacement.shift_bare range 0 1) fun replacement => ?_
      exact mapBoth_bind (bodyIH index replacement) fun body => rfl
  | app span function argument functionIH argumentIH =>
      refine mapBoth_bind (functionIH index replacement) fun function => ?_
      exact mapBoth_bind (argumentIH index replacement) fun argument => rfl
  | tyLam span body bodyIH =>
      refine mapBoth_bind (mapBoth_id (range.succ index)) fun index => ?_
      refine mapBoth_bind (replacement.shift_bare range 0 1) fun replacement => ?_
      exact mapBoth_bind (bodyIH index replacement) fun body => rfl
  | tyApp span function argument functionIH =>
      refine mapBoth_bind (functionIH index replacement) fun function => ?_
      exact mapBoth_bind (argument.subst_bare range index replacement) fun argument => rfl

/-- A type is instantiated as its bare version is. -/
theorem Ty.instantiate_bare (range : IndexRange) (body argument : Ty) :
    body.bare.instantiate range argument.bare =
      mapBoth id bare (body.instantiate range argument) := by
  refine mapBoth_bind (argument.shift_bare range 0 1) fun argument => ?_
  exact mapBoth_bind (body.subst_bare range 0 argument) fun body => body.shift_bare range 1 (-1)

/-- A term is instantiated as its bare version is. -/
theorem Term.instantiate_bare (range : IndexRange) (body argument : Term) :
    body.bare.instantiate range argument.bare =
      mapBoth id bare (body.instantiate range argument) := by
  refine mapBoth_bind (argument.shift_bare range 0 1) fun argument => ?_
  exact mapBoth_bind (body.subst_bare range 0 argument) fun body => body.shift_bare range 1 (-1)

/-- A term is instantiated at a type as its bare version is. -/
theorem Term.instantiateType_bare (range : IndexRange) (body : Term) (argument : Ty) :
    body.bare.instantiateType range argument.bare =
      mapBoth id bare (body.instantiateType range argument) := by
  refine mapBoth_bind (argument.shift_bare range 0 1) fun argument => ?_
  exact mapBoth_bind (body.substType_bare range 0 argument) fun body => body.shift_bare range 1 (-1)

/-- A type without spans has none left to lose. -/
theorem Ty.bare_bare (ty : Ty) : ty.bare.bare = ty.bare := by
  induction ty <;> simp_all [bare]

/-- Types are the same exactly if they are the same without spans. -/
theorem Ty.same_bare_iff {left right : Ty} : left.bare.Same right.bare ↔ left.Same right := by
  rw [Same, Same, bare_bare, bare_bare]

/-- All that is left of the span of a bare term is the default. -/
theorem Term.span_bare (term : Term) : term.bare.span = default := by
  cases term <;> rfl

/-- Spans take no part in which indices are free. -/
theorem Ty.freeIndices_bare (ty : Ty) : ty.bare.freeIndices = ty.freeIndices := by
  have occurrences : ∀ depth, ty.bare.freeOccurrences depth = ty.freeOccurrences depth := by
    induction ty with
    | var span index => exact fun _ => rfl
    | arrow span domain codomain domainIH codomainIH =>
        intro depth
        simp only [bare, freeOccurrences, domainIH, codomainIH]
    | all span body bodyIH => exact fun depth => bodyIH (depth + 1)
  rw [freeIndices, freeIndices, occurrences]

/-! ## Deduction and normalisation -/

/-- An illegal index without its place. -/
def IllegalIndex.bare (index : IllegalIndex) : IllegalIndex :=
  ⟨index.error, index.span.map fun _ => default⟩

/-- A type error without spans. -/
def TypeError.bare : TypeError → TypeError
  | .illegal index => .illegal index.bare
  | .indexFault fault => .indexFault fault
  | .notFunction _ found _ argumentType scope =>
    .notFunction default found.bare default argumentType.bare scope.bare
  | .argumentMismatch _ expected found scope =>
    .argumentMismatch default expected.bare found.bare scope.bare
  | .notUniversal _ found scope => .notUniversal default found.bare scope.bare

/-- A reduction error without spans. -/
def ReductionError.bare : ReductionError → ReductionError
  | .illegal index => .illegal index.bare
  | .indexFault fault => .indexFault fault
  | .exhausted => .exhausted

/-- An illegal index is reported alike with and without its span. -/
theorem TypeError.illegal_bare (index : IllegalIndex) :
    TypeError.illegal index.bare = (TypeError.illegal index).bare :=
  rfl

/-- A fault of index arithmetic has no span to lose. -/
theorem TypeError.indexFault_bare (fault : IndexFault) :
    TypeError.indexFault (id fault) = (TypeError.indexFault fault).bare :=
  rfl

/-- An illegal index that stops a reduction is reported alike with and without its span. -/
theorem ReductionError.illegal_bare (index : IllegalIndex) :
    ReductionError.illegal index.bare = (ReductionError.illegal index).bare :=
  rfl

/-- A fault that stops a reduction has no span to lose. -/
theorem ReductionError.indexFault_bare (fault : IndexFault) :
    ReductionError.indexFault (id fault) = (ReductionError.indexFault fault).bare :=
  rfl

/-- Whether an index denotes a type binder does not depend on spans. -/
theorem Context.checkType_bare (context : Context) (span : Span) (index : Nat) :
    context.bare.checkType default index =
      mapBoth IllegalIndex.bare id (context.checkType span index) := by
  simp only [checkType, PolyLambda.Context.typeAt, Context.bare, List.getElem?_map, List.length_map]
  cases context[index]? with
  | none => rfl
  | some binding => cases binding <;> rfl

/-- The entry that a bare context has for an index is the bare entry. -/
theorem Context.lookupTerm_bare (context : Context) (span : Span) (index : Nat) :
    context.bare.lookupTerm default index =
      mapBoth IllegalIndex.bare bareEntry (context.lookupTerm span index) := by
  simp only [lookupTerm, PolyLambda.Context.termAt, Context.bare, List.getElem?_map,
    List.length_map]
  cases context[index]? with
  | none => rfl
  | some binding => cases binding <;> rfl

/-- Checking the scope of a type does not depend on spans. -/
theorem Ty.checkScope_bare (context : Context) (depth : Nat) (ty : Ty) :
    ty.bare.checkScope context.bare depth =
      mapBoth IllegalIndex.bare id (ty.checkScope context depth) := by
  induction ty generalizing depth with
  | var span index =>
      simp only [bare, checkScope]
      split
      · rfl
      · exact context.checkType_bare span (index - depth)
  | arrow span domain codomain domainIH codomainIH =>
      exact mapBoth_bind (domainIH depth) fun _ => codomainIH depth
  | all span body bodyIH => exact bodyIH (depth + 1)

/-- A tree has the same type, or the same fault, without its spans. -/
theorem Term.deduce_bare (range : IndexRange) (context : Context) (term : Term) :
    term.bare.deduce range context.bare =
      mapBoth TypeError.bare Ty.bare (term.deduce range context) := by
  induction term generalizing context with
  | var span index =>
      have found := mapBoth_mapError (context.lookupTerm_bare span index) TypeError.illegal_bare
      refine mapBoth_bind found fun entry => ?_
      have measured := mapBoth_mapError (mapBoth_id (range.distance index))
        TypeError.indexFault_bare
      refine mapBoth_bind measured fun distance => ?_
      exact mapBoth_mapError (entry.ty.shift_bare range 0 distance) TypeError.indexFault_bare
  | lam span paramType body bodyIH =>
      have checked := mapBoth_mapError (paramType.checkScope_bare context 0) TypeError.illegal_bare
      refine mapBoth_bind checked fun _ => ?_
      refine mapBoth_bind (bodyIH (context.pushTerm paramType)) fun bodyType => ?_
      have lowered := mapBoth_mapError (bodyType.shift_bare range 1 (-1)) TypeError.indexFault_bare
      exact mapBoth_bind lowered fun codomain => rfl
  | app span function argument functionIH argumentIH =>
      refine mapBoth_bind (functionIH context) fun functionType => ?_
      refine mapBoth_bind (argumentIH context) fun argumentType => ?_
      cases functionType with
      | arrow _ domain codomain =>
          by_cases same : domain.Same argumentType
          · simp only [Ty.bare, if_pos same, if_pos (Ty.same_bare_iff.mpr same)]
            rfl
          · simp only [Ty.bare, if_neg same, if_neg (mt Ty.same_bare_iff.mp same), span_bare]
            rfl
      | var | all =>
          simp only [Ty.bare, span_bare]
          rfl
  | tyLam span body bodyIH => exact mapBoth_bind (bodyIH context.pushType) fun bodyType => rfl
  | tyApp span function argument functionIH =>
      refine mapBoth_bind (functionIH context) fun functionType => ?_
      have checked := mapBoth_mapError (argument.checkScope_bare context 0) TypeError.illegal_bare
      refine mapBoth_bind checked fun _ => ?_
      cases functionType with
      | all _ body =>
          exact mapBoth_mapError (body.instantiate_bare range argument) TypeError.indexFault_bare
      | var | arrow =>
          simp only [Ty.bare, span_bare]
          rfl

/-- A tree has the same normal form without its spans. -/
theorem Term.normalize_bare (range : IndexRange) (depth : Nat) (context : Context) (term : Term) :
    term.bare.normalize range depth context.bare =
      mapBoth ReductionError.bare bare (term.normalize range depth context) := by
  induction depth generalizing context term with
  | zero => rfl
  | succ depth depthIH =>
      cases term with
      | var span index =>
          have found := mapBoth_mapError (context.lookupTerm_bare span index)
            ReductionError.illegal_bare
          refine mapBoth_bind found fun entry => ?_
          obtain ⟨_, _, _ | definition⟩ := entry
          · rfl
          · have measured := mapBoth_mapError (mapBoth_id (range.distance index))
              ReductionError.indexFault_bare
            refine mapBoth_bind measured fun distance => ?_
            have lifted := mapBoth_mapError (definition.shift_bare range 0 distance)
              ReductionError.indexFault_bare
            exact mapBoth_bind lifted fun unfolded => depthIH context unfolded
      | lam span paramType body =>
          exact mapBoth_bind (depthIH (context.pushTerm paramType) body) fun body => rfl
      | app span function argument =>
          refine mapBoth_bind (depthIH context function) fun function => ?_
          refine mapBoth_bind (depthIH context argument) fun argument => ?_
          cases function with
          | lam _ _ body =>
              have contracts := mapBoth_mapError (body.instantiate_bare range argument)
                ReductionError.indexFault_bare
              exact mapBoth_bind contracts fun contracted => depthIH context contracted
          | var | app | tyLam | tyApp => rfl
      | tyLam span body => exact mapBoth_bind (depthIH context.pushType body) fun body => rfl
      | tyApp span function argument =>
          refine mapBoth_bind (depthIH context function) fun function => ?_
          cases function with
          | tyLam _ body =>
              have contracts := mapBoth_mapError (body.instantiateType_bare range argument)
                ReductionError.indexFault_bare
              exact mapBoth_bind contracts fun contracted => depthIH context contracted
          | var | lam | app | tyApp => rfl

end Indexed

/-! ## Names -/

/-- An unbound name without its place. -/
def Unbound.bare (unbound : Unbound) : Unbound :=
  ⟨unbound.kind, unbound.name, default⟩

namespace Named

/-- A name resolves to the same index wherever it stands. -/
theorem resolve_bare (scope : Scope) (kind : Kind) (name : String) (span : Span) :
    scope.resolve kind name default = mapBoth Unbound.bare id (scope.resolve kind name span) := by
  simp only [Scope.resolve]
  cases scope.indexOf? kind name <;> rfl

/-- A bare type resolves to the bare indexed type. -/
theorem Ty.resolve_bare (scope : Scope) (ty : Ty) :
    ty.bare.resolve scope = mapBoth Unbound.bare Indexed.Ty.bare (ty.resolve scope) := by
  induction ty generalizing scope with
  | var span name => exact mapBoth_bind (Named.resolve_bare scope .type name span) fun index => rfl
  | arrow span domain codomain domainIH codomainIH =>
      refine mapBoth_bind (domainIH scope) fun domain => ?_
      exact mapBoth_bind (codomainIH scope) fun codomain => rfl
  | all span param body bodyIH => exact mapBoth_bind (bodyIH _) fun body => rfl

/-- A bare term resolves to the bare indexed term. -/
theorem Term.resolve_bare (scope : Scope) (term : Term) :
    term.bare.resolve scope = mapBoth Unbound.bare Indexed.Term.bare (term.resolve scope) := by
  induction term generalizing scope with
  | var span name => exact mapBoth_bind (Named.resolve_bare scope .term name span) fun index => rfl
  | lam span param paramType body bodyIH =>
      refine mapBoth_bind (paramType.resolve_bare scope) fun paramType => ?_
      exact mapBoth_bind (bodyIH _) fun body => rfl
  | app span function argument functionIH argumentIH =>
      refine mapBoth_bind (functionIH scope) fun function => ?_
      exact mapBoth_bind (argumentIH scope) fun argument => rfl
  | tyLam span param body bodyIH => exact mapBoth_bind (bodyIH _) fun body => rfl
  | tyApp span function argument functionIH =>
      refine mapBoth_bind (functionIH scope) fun function => ?_
      exact mapBoth_bind (argument.resolve_bare scope) fun argument => rfl

/-- A bare definition resolves to the bare indexed definition. -/
theorem resolveDefinition_bare (scope : Scope) (definition : Option Term) :
    resolveDefinition scope (definition.map Term.bare) =
      mapBoth Unbound.bare (Option.map Indexed.Term.bare) (resolveDefinition scope definition) := by
  cases definition with
  | none => rfl
  | some definition => exact mapBoth_bind (definition.resolve_bare scope) fun definition => rfl

namespace Context

/-- The names of a context are those of its bare version. -/
theorem scope_bare (context : Context) : Context.scope context.bare = Context.scope context := by
  simp only [Context.scope, bare, List.map_map]
  refine List.map_congr_left fun binding _ => ?_
  cases binding <;> rfl

/-- Taking spans away keeps the number of binders. -/
theorem length_bare (context : Context) : context.bare.length = context.length :=
  List.length_map _

/-- A bare context resolves to the bare indexed context. -/
theorem resolve_bare (context : Context) :
    Context.resolve context.bare =
      mapBoth Unbound.bare Indexed.Context.bare (Context.resolve context) := by
  induction context with
  | nil => rfl
  | cons binding rest restIH =>
      refine mapBoth_bind restIH fun resolved => ?_
      change (Binding.resolve (Context.scope (Context.bare rest)) _ >>= _) = _
      rw [scope_bare]
      cases binding with
      | type name => rfl
      | term entry =>
          have entryResolved : Binding.resolve (Context.scope rest)
              (.term ⟨entry.name, entry.ty.bare, entry.definition.map Term.bare⟩) =
              mapBoth Unbound.bare Indexed.Binding.bare
                (Binding.resolve (Context.scope rest) (.term entry)) := by
            refine mapBoth_bind (entry.ty.resolve_bare _) fun ty => ?_
            exact mapBoth_bind (resolveDefinition_bare _ entry.definition) fun definition => rfl
          exact mapBoth_bind entryResolved fun entry => rfl

end Context

end Named

namespace Indexed

/-- Names are given to a bare type as to the type itself, from the same supply. -/
theorem Ty.withNames_bare (binders : Naming.Binders) (supply : Naming.Supply) (ty : Ty) :
    ty.bare.withNames binders supply =
      mapBoth id (Prod.map Named.Ty.bare id) (ty.withNames binders supply) := by
  induction ty generalizing binders supply with
  | var span index => exact mapBoth_bind (mapBoth_id _) fun name => rfl
  | arrow span domain codomain domainIH codomainIH =>
      refine mapBoth_bind (domainIH binders supply) fun (domain, supply) => ?_
      exact mapBoth_bind (codomainIH binders supply) fun codomain => rfl
  | all span body bodyIH => exact mapBoth_bind (bodyIH _ _) fun body => rfl

/-- Names are given to a bare term as to the term itself, from the same supply. -/
theorem Term.withNames_bare (binders : Naming.Binders) (supply : Naming.Supply) (term : Term) :
    term.bare.withNames binders supply =
      mapBoth id (Prod.map Named.Term.bare id) (term.withNames binders supply) := by
  induction term generalizing binders supply with
  | var span index => exact mapBoth_bind (mapBoth_id _) fun name => rfl
  | lam span paramType body bodyIH =>
      refine mapBoth_bind (paramType.withNames_bare binders supply) fun (paramType, supply) => ?_
      exact mapBoth_bind (bodyIH _ _) fun body => rfl
  | app span function argument functionIH argumentIH =>
      refine mapBoth_bind (functionIH binders supply) fun (function, supply) => ?_
      exact mapBoth_bind (argumentIH binders supply) fun argument => rfl
  | tyLam span body bodyIH => exact mapBoth_bind (bodyIH _ _) fun body => rfl
  | tyApp span function argument functionIH =>
      refine mapBoth_bind (functionIH binders supply) fun (function, supply) => ?_
      exact mapBoth_bind (argument.withNames_bare binders supply) fun argument => rfl

end Indexed

namespace Named.Context

/-- Naming a type in a context does not depend on spans. -/
theorem nameType_bare (context : Context) (ty : Indexed.Ty) :
    context.bare.nameType ty.bare = mapBoth id Ty.bare (context.nameType ty) := by
  rw [nameType, nameType, scope_bare]
  exact mapBoth_bind (ty.withNames_bare _ _) fun named => rfl

/-- Naming a term in a context does not depend on spans. -/
theorem nameTerm_bare (context : Context) (term : Indexed.Term) :
    context.bare.nameTerm term.bare = mapBoth id Term.bare (context.nameTerm term) := by
  rw [nameTerm, nameTerm, scope_bare]
  exact mapBoth_bind (term.withNames_bare _ _) fun named => rfl

/-- Naming a type inside further binders does not depend on spans. -/
theorem nameTypeIn_bare (context : Context) (scope : Indexed.Context) (ty : Indexed.Ty) :
    context.bare.nameTypeIn scope.bare ty.bare =
      mapBoth id Ty.bare (context.nameTypeIn scope ty) := by
  have length : scope.bare.length = scope.length := List.length_map _
  have kinds : ∀ count, (scope.bare.take count).map PolyLambda.Binding.kind =
      (scope.take count).map PolyLambda.Binding.kind := by
    intro count
    rw [Indexed.Context.bare, ← List.map_take, List.map_map]
    refine List.map_congr_left fun binding _ => ?_
    cases binding <;> rfl
  simp only [nameTypeIn, length_bare, length, kinds, scope_bare]
  split
  · rfl
  · exact mapBoth_bind (ty.withNames_bare _ _) fun named => rfl

end Named.Context

/-! ## Failures and outcomes -/

/-- A clash without spans. -/
def Mismatch.bare : Mismatch → Mismatch
  | .notFunction _ found _ argumentType => .notFunction default found.bare default argumentType.bare
  | .argument _ expected found => .argument default expected.bare found.bare
  | .notUniversal _ found => .notUniversal default found.bare
  | .definition _ expected found => .definition default expected.bare found.bare

/-- A failure to have a type, without spans. -/
def TypeFailure.bare : TypeFailure → TypeFailure
  | .illegal index => .illegal index.bare
  | .indexFault fault => .indexFault fault
  | .mismatch clash => .mismatch clash.bare

/-- A syntax error without its place. -/
def Grammar.SyntaxError.bare : Grammar.SyntaxError → Grammar.SyntaxError
  | .unclosedComment _ => .unclosedComment default
  | .invalidToken _ => .invalidToken default
  | .unexpectedToken text _ expected => .unexpectedToken text default expected
  | .unexpectedEnd _ expected => .unexpectedEnd 0 expected

/-- A failure without spans. -/
def Failure.bare : Failure → Failure
  | .parse error => .parse error.bare
  | .unbound occurrence => .unbound occurrence.bare
  | .typing failure => .typing failure.bare
  | .reduction error => .reduction error.bare
  | .unsound change =>
    .unsound ⟨change.expected.bare, change.found.bare, change.shadowed, default⟩

/-- An outcome without spans. -/
def Outcome.bare : Outcome → Outcome
  | .typeAssumed name => .typeAssumed name
  | .termAssumed name ty => .termAssumed name ty.bare
  | .defined name ty => .defined name ty.bare
  | .reduced term ty => .reduced term.bare ty.bare
  | .printed name ty definition => .printed name ty.bare (definition.map Named.Term.bare)
  | .cleared => .cleared

/-- A result without spans. -/
def Result.bare (result : Result) : Result :=
  mapBoth Failure.bare Outcome.bare result

/-- A statement without spans. -/
def Named.Statement.bare (statement : Named.Statement) : Named.Statement :=
  ⟨default, statement.command.bare⟩

/-- A type error is told in a bare context without its spans. -/
theorem Indexed.TypeError.inContext_bare (context : Named.Context) (error : TypeError) :
    error.bare.inContext context.bare = (error.inContext context).bare := by
  have named : error.bare.mismatch context.bare =
      mapBoth id TypeFailure.bare (error.mismatch context) := by
    cases error with
    | illegal | indexFault => rfl
    | notFunction _ found _ argumentType scope =>
        refine mapBoth_bind (context.nameTypeIn_bare scope found) fun found => ?_
        exact mapBoth_bind (context.nameTypeIn_bare scope argumentType) fun argumentType => rfl
    | argumentMismatch _ expected found scope =>
        refine mapBoth_bind (context.nameTypeIn_bare scope expected) fun expected => ?_
        exact mapBoth_bind (context.nameTypeIn_bare scope found) fun found => rfl
    | notUniversal _ found scope =>
        exact mapBoth_bind (context.nameTypeIn_bare scope found) fun found => rfl
  rw [inContext, inContext, named]
  cases error.mismatch context <;> rfl

/-! ## Statements -/

namespace Named

/-- All that is left of the span of a bare named term is the default. -/
theorem Term.span_bare (term : Term) : term.bare.span = default := by
  cases term <;> rfl

/-- A context and its bare version name their types alike. -/
theorem Context.typeAt_bare (context : Context) (index : Nat) :
    context.bare.typeAt index = context.typeAt index := by
  simp only [PolyLambda.Context.typeAt, bare, List.getElem?_map, List.length_map]
  cases context[index]? with
  | none => rfl
  | some binding => cases binding <;> rfl

/-- The newest entry of a name is found in the bare context, without its spans. -/
theorem Context.entry?_bare (context : Context) (name : String) :
    context.bare.entry? name = (context.entry? name).map fun entry =>
      ⟨entry.name, entry.ty.bare, entry.definition.map Term.bare⟩ := by
  induction context with
  | nil => rfl
  | cons binding rest restIH =>
      cases binding with
      | type other => exact restIH
      | term entry =>
          simp only [bare, entry?, List.map_cons, List.findSome?_cons] at restIH ⊢
          split <;> simp_all

end Named

/-- An unbound name is one failure with and without its span. -/
theorem Failure.unbound_bare (unbound : Unbound) :
    Failure.unbound unbound.bare = (Failure.unbound unbound).bare :=
  rfl

/-- A failed reduction is one failure with and without its spans. -/
theorem Failure.reduction_bare (error : Indexed.ReductionError) :
    Failure.reduction error.bare = (Failure.reduction error).bare :=
  rfl

/-- A failed lookup has no span to lose. -/
theorem Failure.ofLookup_bare (error : LookupError) :
    Failure.ofLookup (id error) = (Failure.ofLookup error).bare :=
  rfl

namespace Session

/-- The names that a report calls shadowed do not depend on spans. -/
theorem shadowedNames_bare (context : Named.Context) (types : List Indexed.Ty) :
    shadowedNames context.bare (types.map Indexed.Ty.bare) = shadowedNames context types := by
  have indices : (types.map Indexed.Ty.bare).map Indexed.Ty.freeIndices =
      types.map Indexed.Ty.freeIndices := by
    rw [List.map_map]
    exact List.map_congr_left fun ty _ => ty.freeIndices_bare
  simp only [shadowedNames, Named.Context.typeIndex?, Named.Context.scope_bare,
    Named.Context.typeAt_bare, indices]
  rfl

/-- Naming a type in a session does not depend on spans. -/
theorem nameType_bare (context : Named.Context) (ty : Indexed.Ty) :
    nameType context.bare ty.bare = mapBoth Failure.bare Named.Ty.bare (nameType context ty) :=
  mapBoth_mapError (context.nameType_bare ty) Failure.ofLookup_bare

/-- Naming a term in a session does not depend on spans. -/
theorem nameTerm_bare (context : Named.Context) (term : Indexed.Term) :
    nameTerm context.bare term.bare =
      mapBoth Failure.bare Named.Term.bare (nameTerm context term) :=
  mapBoth_mapError (context.nameTerm_bare term) Failure.ofLookup_bare

/-- Deducing a type in a session does not depend on spans. -/
theorem deduce_bare (limits : Limits) (context : Named.Context) (indexed : Indexed.Context)
    (term : Indexed.Term) :
    ((term.bare.deduce limits.range indexed.bare).mapError fun error =>
        Failure.typing (error.inContext context.bare)) =
      mapBoth Failure.bare Indexed.Ty.bare ((term.deduce limits.range indexed).mapError fun error =>
        .typing (error.inContext context)) :=
  mapBoth_mapError (term.deduce_bare limits.range indexed) fun error =>
    congrArg Failure.typing (error.inContext_bare context)

/-- Checking a term in a session does not depend on spans. -/
theorem checkTerm_bare (limits : Limits) (context : Named.Context) (term : Named.Term) :
    checkTerm limits context.bare term.bare =
      mapBoth Failure.bare
        (Prod.map Indexed.Term.bare (Prod.map Indexed.Context.bare Indexed.Ty.bare))
        (checkTerm limits context term) := by
  rw [checkTerm, checkTerm, Named.Context.scope_bare]
  refine mapBoth_bind (mapBoth_mapError (term.resolve_bare context.scope) Failure.unbound_bare)
    fun term => ?_
  refine mapBoth_bind (mapBoth_mapError context.resolve_bare Failure.unbound_bare)
    fun indexed => ?_
  exact mapBoth_bind (deduce_bare limits context indexed term) fun ty => rfl

/-- Resolving an announced type does not depend on spans. -/
theorem resolveAnnounced_bare (context : Named.Context) (expected : Option Named.Ty) :
    resolveAnnounced context.bare (expected.map Named.Ty.bare) =
      mapBoth Failure.bare (Option.map (Prod.map Named.Ty.bare Indexed.Ty.bare))
        (resolveAnnounced context expected) := by
  cases expected with
  | none => rfl
  | some ty =>
      simp only [Option.map_some, resolveAnnounced, Named.Context.scope_bare]
      exact mapBoth_bind (mapBoth_mapError (ty.resolve_bare context.scope) Failure.unbound_bare)
        fun resolved => rfl

/-- The type that a definition records is, without spans, the one recorded for the bare
definition. -/
theorem recordedType_bare (context : Named.Context) (span : Span) (actual : Indexed.Ty)
    (announced : Option (Named.Ty × Indexed.Ty)) :
    recordedType context.bare default actual.bare
        (announced.map (Prod.map Named.Ty.bare Indexed.Ty.bare)) =
      mapBoth Failure.bare Named.Ty.bare (recordedType context span actual announced) := by
  obtain _ | ⟨announced, resolved⟩ := announced
  · exact nameType_bare context actual
  · simp only [Option.map_some, Prod.map_apply, recordedType, Indexed.Ty.same_bare_iff]
    split
    · rfl
    · exact mapBoth_bind (nameType_bare context actual) fun found => rfl

/-- A bare definition has the bare effect. -/
theorem define_bare (limits : Limits) (context : Named.Context) (name : String)
    (expected : Option Named.Ty) (term : Named.Term) :
    define limits context.bare name (expected.map Named.Ty.bare) term.bare =
      mapBoth Failure.bare (Prod.map Named.Context.bare Outcome.bare)
        (define limits context name expected term) := by
  refine mapBoth_bind (resolveAnnounced_bare context expected) fun announced => ?_
  refine mapBoth_bind (checkTerm_bare limits context term) fun (_, _, actual) => ?_
  rw [Named.Term.span_bare]
  exact mapBoth_bind (recordedType_bare context term.span actual announced) fun ty => rfl

/-- A bare term is reduced to the bare normal form and its bare type. -/
theorem reduce_bare (limits : Limits) (context : Named.Context) (span : Span) (term : Named.Term) :
    reduce limits context.bare default term.bare =
      mapBoth Failure.bare (Prod.map Named.Context.bare Outcome.bare)
        (reduce limits context span term) := by
  refine mapBoth_bind (checkTerm_bare limits context term) fun (term, indexed, expected) => ?_
  have normalized := mapBoth_mapError (term.normalize_bare limits.range limits.depth indexed)
    Failure.reduction_bare
  refine mapBoth_bind normalized fun normal => ?_
  refine mapBoth_bind (deduce_bare limits context indexed normal) fun found => ?_
  by_cases same : found.Same expected
  · simp only [if_pos same, if_pos (Indexed.Ty.same_bare_iff.mpr same)]
    refine mapBoth_bind (nameTerm_bare context normal) fun normal => ?_
    exact mapBoth_bind (nameType_bare context expected) fun ty => rfl
  · simp only [if_neg same, if_neg (mt Indexed.Ty.same_bare_iff.mp same)]
    refine mapBoth_bind (nameType_bare context expected) fun expectedName => ?_
    refine mapBoth_bind (nameType_bare context found) fun foundName => ?_
    rw [← List.map_singleton, ← List.map_cons, shadowedNames_bare]
    rfl

/-- A statement has the same effect, or the same failure, without spans. -/
theorem effect_bare (limits : Limits) (context : Named.Context) (statement : Named.Statement) :
    effect limits context.bare statement.bare =
      mapBoth Failure.bare (Prod.map Named.Context.bare Outcome.bare)
        (effect limits context statement) := by
  obtain ⟨span, command⟩ := statement
  cases command with
  | assumeType name => rfl
  | assumeTerm name ty =>
      simp only [effect, Named.Statement.bare, Named.Command.bare, Named.Context.scope_bare]
      exact mapBoth_bind (mapBoth_mapError (ty.resolve_bare context.scope) Failure.unbound_bare)
        fun resolved => rfl
  | define name expected term => exact define_bare limits context name.name expected term
  | reduce term => exact reduce_bare limits context span term
  | print name =>
      simp only [effect, Named.Statement.bare, Named.Command.bare, Named.Ident.bare,
        Named.Context.entry?_bare]
      cases context.entry? name.name <;> rfl
  | clear => rfl

/-- Running a statement without spans is running it and forgetting the spans of the result. -/
theorem exec_bare (limits : Limits) (context : Named.Context) (statement : Named.Statement) :
    exec limits context.bare statement.bare =
      Prod.map Named.Context.bare Result.bare (exec limits context statement) := by
  rw [exec, exec, effect_bare]
  cases effect limits context statement <;> rfl

/-- Running statements without spans is running them and forgetting the spans of the results. -/
theorem execAll_bare (limits : Limits) (context : Named.Context)
    (statements : List Named.Statement) :
    execAll limits context.bare (statements.map Named.Statement.bare) =
      Prod.map Named.Context.bare (List.map Result.bare) (execAll limits context statements) := by
  induction statements generalizing context with
  | nil => rfl
  | cons statement rest restIH =>
      simp only [List.map_cons, execAll, exec_bare, Prod.map_fst, restIH]
      rfl

/-- Statements that are alike up to spans run alike in contexts that are. -/
theorem execAll_alike (limits : Limits) {context other : Named.Context}
    {statements otherStatements : List Named.Statement} (contexts : context.bare = other.bare)
    (alike : statements.map Named.Statement.bare = otherStatements.map Named.Statement.bare) :
    (execAll limits context statements).1.bare = (execAll limits other otherStatements).1.bare ∧
      (execAll limits context statements).2.map Result.bare =
        (execAll limits other otherStatements).2.map Result.bare := by
  have equal := execAll_bare limits context statements
  rw [contexts, alike, execAll_bare] at equal
  exact ⟨(congrArg Prod.fst equal).symm, (congrArg Prod.snd equal).symm⟩

end Session

end PolyLambda
