import PolyLambda.Proofs.SessionSafety
import PolyLambda.Proofs.SourceSpans

/-!
# Where failures point to

A session holds trees of many statements, from sources of their own, and checking a statement
reads them all. Still, every span of a failure that comes up before a term is normalised is
the span of a node of the statement that fails: recorded trees are resolved without failure,
and deduction blames parts of the term that it is given. Since nodes have their places inside
the statement, so have failures.
-/

namespace PolyLambda

open Diagnostic (Role Report Highlight)

/-! ## The spans of failures -/

/-- The spans of a clash with their roles, the primary one first. -/
def Mismatch.spans (clash : Mismatch) : List (Role × Span) :=
  (.primary, clash.span) :: clash.related.map fun place => (.context, place.1)

/-- The span of an illegal index, if it has one. -/
def Indexed.IllegalIndex.spans (index : IllegalIndex) : List (Role × Span) :=
  (index.span.map fun span => (.primary, span)).toList

/-- The spans of a failure with their roles, the primary one first. -/
def Failure.spans : Failure → List (Role × Span)
  | .parse error => [(.primary, error.span)]
  | .unbound occurrence => [(.primary, occurrence.span)]
  | .typing (.illegal index) => index.spans
  | .typing (.indexFault _) => []
  | .typing (.mismatch clash) => clash.spans
  | .reduction (.illegal index) => index.spans
  | .reduction (.indexFault _) => []
  | .reduction .exhausted => []
  | .unsound change => [(.primary, change.span)]

namespace Diagnostic

/-- What a highlight marks, and why. -/
def Highlight.place (highlight : Highlight) : Role × Span :=
  (highlight.role, highlight.span)

variable {source title : String} {elements others : List Element}

/-- The highlights of a report are those of its elements in their order. -/
theorem highlights_append :
    Report.highlights ⟨title, elements ++ others⟩ =
      Report.highlights ⟨title, elements⟩ ++ Report.highlights ⟨title, others⟩ := by
  simp [Report.highlights]

/-- A snippet leaves out nothing that lies within the source. -/
theorem highlights_snippet {primary : Span} {label : Option String} {related : List (Span × String)}
    (primaryWithin : primary.within source = true)
    (relatedWithin : ∀ place ∈ related, place.1.within source = true) :
    (Report.highlights ⟨title, snippet source primary label related⟩).map Highlight.place =
      (.primary, primary) :: related.map fun place => (.context, place.1) := by
  simp only [snippet, if_pos primaryWithin]
  rw [List.filter_eq_self.mpr]
  · simp [Report.highlights, Highlight.place]
  · exact relatedWithin

end Diagnostic

/-- The report of an illegal index highlights its spans. -/
theorem Indexed.IllegalIndex.highlights_report {index : IllegalIndex} {source : String}
    (within : ∀ role span, (role, span) ∈ index.spans → span.within source = true) :
    (index.report source).highlights.map Highlight.place = index.spans := by
  obtain ⟨error, span⟩ := index
  cases span with
  | none => rfl
  | some span =>
      have spanWithin := within .primary span (List.mem_singleton_self _)
      simp only [IllegalIndex.report, Diagnostic.highlights_append, List.map_append,
        Diagnostic.highlights_snippet spanWithin (List.forall_mem_nil _)]
      rfl

/-- A report marks all spans of a failure, if they lie within the source. -/
theorem Failure.highlights_report {failure : Failure} {source : String}
    (within : ∀ role span, (role, span) ∈ failure.spans → span.within source = true) :
    (failure.report source).highlights.map Highlight.place = failure.spans := by
  cases failure with
  | parse error =>
      have spanWithin := within .primary error.span (List.mem_singleton_self _)
      simp only [Failure.report, Grammar.SyntaxError.report, Diagnostic.highlights_append,
        List.map_append, Diagnostic.highlights_snippet spanWithin (List.forall_mem_nil _)]
      split <;> rfl
  | unbound occurrence =>
      have spanWithin := within .primary occurrence.span (List.mem_singleton_self _)
      exact Diagnostic.highlights_snippet spanWithin (List.forall_mem_nil _)
  | typing failure =>
      cases failure with
      | illegal index => exact Indexed.IllegalIndex.highlights_report within
      | indexFault => rfl
      | mismatch clash =>
          have spanWithin := within .primary clash.span List.mem_cons_self
          have relatedWithin : ∀ place ∈ clash.related, place.1.within source = true :=
            fun place member =>
              within .context place.1 (List.mem_cons_of_mem _ (List.mem_map_of_mem member))
          simp only [Failure.report, TypeFailure.report, Mismatch.report,
            Diagnostic.highlights_append, List.map_append,
            Diagnostic.highlights_snippet spanWithin relatedWithin]
          exact List.append_nil _
  | reduction error =>
      cases error with
      | illegal index => exact Indexed.IllegalIndex.highlights_report within
      | indexFault | exhausted => rfl
  | unsound change =>
      have spanWithin := within .primary change.span (List.mem_singleton_self _)
      simp only [Failure.report, UnsoundReduction.report, Diagnostic.highlights_append,
        List.map_append, Diagnostic.highlights_snippet spanWithin (List.forall_mem_nil _)]
      simp [Report.highlights, Failure.spans, Function.comp_def]

/-! ## The nodes of a statement -/

namespace Grammar

open Source (Masks)

namespace Node

/-- The name that a node consists of. -/
def name? : Node → Option String
  | term (.var _ name) => some name
  | type (.var _ name) => some name
  | ident value => some value.name
  | _ => none

variable {root node : Node} {name source : String} {masked : List Char} {tokens part : List Token}

/-- A name comes from a single token. -/
theorem Derives.exists_ident (derives : node.Derives part) (named : node.name? = some name) :
    ∃ ident : Named.Ident, part = [ident.token] ∧ ident.name = name := by
  cases derives with
  | statement => cases named
  | ident value => exact ⟨value, rfl, Option.some.inj named⟩
  | type tree bare =>
      cases tree with
      | quantifier spelling keyword params dot body =>
          obtain ⟨first, rest, items⟩ := params.exists_items
          simp [TypeTree.phrase, items, Named.Ty.allMany, name?] at named
      | arrow => cases named
      | atom inner =>
          cases inner with
          | name ident => exact ⟨ident, rfl, Option.some.inj named⟩
          | group => exact bare.elim
  | term tree bare =>
      cases tree with
      | lam spelling keyword params dot body =>
          obtain ⟨first, rest, items⟩ := params.exists_items
          simp [TermTree.phrase, items, Named.Term.lamMany, name?] at named
      | tyLam spelling keyword params dot body =>
          obtain ⟨first, rest, items⟩ := params.exists_items
          simp [TermTree.phrase, items, Named.Term.tyLamMany, name?] at named
      | application inner =>
          cases inner with
          | app | tyApp => cases named
          | atom inner =>
              cases inner with
              | name ident => exact ⟨ident, rfl, Option.some.inj named⟩
              | group => exact bare.elim

/-- A node of a binder has no name of its own. -/
theorem Binds.name?_eq_none (binds : node.Binds part) : node.name? = none := by
  cases binds with
  | all _ params | lam _ params | tyLam _ params =>
      obtain ⟨first, rest, items⟩ := params.exists_items
      rw [items]
      rfl

/-- The span of a name denotes the name. -/
theorem Placed.slice?_name (placed : node.Placed tokens) (named : node.name? = some name)
    (masks : Masks source.toList masked) (tokenizes : Tokenizes masked tokens) :
    node.span.slice? source = some name := by
  obtain ⟨part, ⟨before, after, rfl⟩, derives | binds⟩ := placed
  · have spans := derives.span_eq
    obtain ⟨ident, rfl, rfl⟩ := derives.exists_ident named
    rw [List.append_assoc] at tokenizes
    rw [spans]
    exact slice?_token masks tokenizes
  · rw [binds.name?_eq_none] at named
    cases named

/-- Nodes lie within the source, inside the tree. -/
theorem Faithful.contains (faithful : root.Faithful source) (within : root.Within node) :
    root.span.Contains node.span ∧ node.span.within source = true := by
  induction within with
  | root => exact ⟨⟨Nat.le_refl _, Nat.le_refl _⟩, faithful.within⟩
  | child inside member insideIH =>
      obtain ⟨childWithin, contained, -⟩ := faithful.child _ _ inside member
      obtain ⟨⟨starts, stops⟩, -⟩ := insideIH
      exact ⟨⟨Nat.le_trans starts contained.1, Nat.le_trans contained.2 stops⟩, childWithin⟩

/-- What is named somewhere in a tree. -/
def Mentions (root : Node) (occurrence : Unbound) : Prop :=
  ∃ node, root.Within node ∧ node.span = occurrence.span ∧ node.name? = some occurrence.name

variable {occurrence : Unbound}

/-- A type within a tree has its occurrences mentioned by the tree. -/
theorem Within.mentions_type {ty : Named.Ty} (within : root.Within (type ty))
    (occurs : occurrence ∈ ty.occurrences) : root.Mentions occurrence := by
  induction ty with
  | var span name =>
      obtain rfl := List.mem_singleton.mp occurs
      exact ⟨_, within, rfl, rfl⟩
  | arrow span domain codomain domainIH codomainIH =>
      rcases List.mem_append.mp occurs with inDomain | inCodomain
      · exact domainIH (within.child (by simp [children])) inDomain
      · exact codomainIH (within.child (by simp [children])) inCodomain
  | all span param body bodyIH => exact bodyIH (within.child (by simp [children])) occurs

/-- A term within a tree has its occurrences mentioned by the tree. -/
theorem Within.mentions_term {term : Named.Term} (within : root.Within (.term term))
    (occurs : occurrence ∈ term.occurrences) : root.Mentions occurrence := by
  induction term with
  | var span name =>
      obtain rfl := List.mem_singleton.mp occurs
      exact ⟨_, within, rfl, rfl⟩
  | lam span param paramType body bodyIH =>
      rcases List.mem_append.mp occurs with inType | inBody
      · exact mentions_type (within.child (by simp [children])) inType
      · exact bodyIH (within.child (by simp [children])) inBody
  | app span function argument functionIH argumentIH =>
      rcases List.mem_append.mp occurs with inFunction | inArgument
      · exact functionIH (within.child (by simp [children])) inFunction
      · exact argumentIH (within.child (by simp [children])) inArgument
  | tyLam span param body bodyIH => exact bodyIH (within.child (by simp [children])) occurs
  | tyApp span function argument functionIH =>
      rcases List.mem_append.mp occurs with inFunction | inArgument
      · exact functionIH (within.child (by simp [children])) inFunction
      · exact mentions_type (within.child (by simp [children])) inArgument

/-- The names that a statement refers to stand in it. -/
theorem mentions_statement {statement : Named.Statement}
    (occurs : occurrence ∈ statement.command.occurrences) :
    (Node.statement statement).Mentions occurrence := by
  obtain ⟨span, command⟩ := statement
  cases command with
  | assumeType | clear => cases occurs
  | assumeTerm name ty =>
      exact Within.mentions_type (Within.root.child (by simp [children])) occurs
  | define name expected term =>
      rcases List.mem_append.mp occurs with inType | inTerm
      · cases expected with
        | none => cases inType
        | some ty => exact Within.mentions_type (Within.root.child (by simp [children])) inType
      · refine Within.mentions_term (Within.root.child ?_) inTerm
        cases expected <;> simp [children]
  | reduce term => exact Within.mentions_term (Within.root.child (by simp [children])) occurs
  | print name =>
      obtain rfl := List.mem_singleton.mp occurs
      exact ⟨.ident name, Within.root.child (by simp [children]), rfl, rfl⟩

end Node

/-- A statement of a program is derived from some of the tokens of its source. -/
theorem exists_derives_statement {source : String} {statements : List Named.Statement}
    (parsed : parseProgram source = .ok statements) {statement : Named.Statement}
    (member : statement ∈ statements) :
    ∃ masked tokens part, Masks source.toList masked ∧ Tokenizes masked tokens ∧
      part <:+: tokens ∧ (Node.statement statement).Derives part := by
  obtain ⟨masked, tree, masks, tokenizes, rfl⟩ := programEntry_follows.exists_tree parsed
  obtain ⟨inner, rfl, inside⟩ := tree.exists_statement member
  exact ⟨masked, _, _, masks, tokenizes, inside, .statement inner⟩

end Grammar

/-! ## What failures blame -/

open Grammar (Node)

/-- Every span of a failure is that of a node of the tree. -/
def Failure.Blames (failure : Failure) (root : Node) : Prop :=
  ∀ role span, (role, span) ∈ failure.spans → ∃ node, root.Within node ∧ node.span = span

/-- An unbound name that a tree mentions is blamed on a node of the tree. -/
theorem Grammar.Node.Mentions.blames {root : Node} {occurrence : Unbound}
    (mentions : root.Mentions occurrence) : (Failure.unbound occurrence).Blames root := by
  obtain ⟨node, within, spans, -⟩ := mentions
  intro role span member
  cases List.mem_singleton.mp member
  exact ⟨node, within, spans⟩

/-- The spans of a type error with their roles. -/
def Indexed.TypeError.spans : TypeError → List (Role × Span)
  | .illegal index => index.spans
  | .indexFault _ => []
  | .notFunction functionSpan _ argumentSpan _ _ =>
    [(.primary, functionSpan), (.context, argumentSpan)]
  | .argumentMismatch argumentSpan _ _ _ => [(.primary, argumentSpan)]
  | .notUniversal functionSpan _ _ => [(.primary, functionSpan)]

/-- Putting a type error in terms of names keeps its spans. -/
theorem Indexed.TypeError.InScope.spans_inContext {context : Named.Context} {indexed : Context}
    {error : TypeError} (inScope : error.InScope indexed)
    (describes : context.scope.Describes indexed) :
    (Failure.typing (error.inContext context)).spans = error.spans := by
  rcases inScope.inContext describes with ⟨fault, rfl, reported⟩ | ⟨clash, reported⟩
  · rw [reported]
    rfl
  have named := TypeError.mismatch_of_inContext reported
  rw [reported]
  cases error with
  | illegal | indexFault => cases named
  | notFunction | argumentMismatch =>
      simp only [TypeError.mismatch, bind_eq_ok_iff] at named
      obtain ⟨_, _, _, _, result⟩ := named
      cases result
      rfl
  | notUniversal =>
      simp only [TypeError.mismatch, bind_eq_ok_iff] at named
      obtain ⟨_, _, result⟩ := named
      cases result
      rfl

namespace Named

variable {root : Node} {scope : Scope} {named : Term} {term : Indexed.Term}

/-- A term has the span of the node that it was resolved from. -/
theorem Term.ResolvesTo.exists_node (resolves : named.ResolvesTo scope term)
    (within : root.Within (.term named)) : ∃ node, root.Within node ∧ node.span = term.span := by
  refine ⟨.term named, within, ?_⟩
  cases resolves <;> rfl

/-- What the parts of a term were resolved from stands in the written term. -/
theorem Term.ResolvesTo.exists_part (resolves : named.ResolvesTo scope term)
    (within : root.Within (.term named)) {context inner : Indexed.Context} {part : Indexed.Term}
    (member : (inner, part) ∈ term.parts context) :
    ∃ written around, root.Within (.term written) ∧ written.ResolvesTo around part := by
  let Written : Indexed.Context → Indexed.Term → Prop := fun _ part =>
    ∃ written around, root.Within (.term written) ∧ written.ResolvesTo around part
  refine @Indexed.Term.forall_parts Written ?_ ?_ ?_ ?_ _ _ ⟨named, scope, within, resolves⟩
    inner part member
  · rintro _ _ _ _ ⟨_, _, within, resolves⟩
    cases resolves with
    | lam _ bodyResolves => exact ⟨_, _, within.child (by simp [Node.children]), bodyResolves⟩
  · rintro _ _ _ _ ⟨_, _, within, resolves⟩
    cases resolves with
    | app functionResolves argumentResolves =>
        exact ⟨⟨_, _, within.child List.mem_cons_self, functionResolves⟩,
          ⟨_, _, within.child (List.mem_cons_of_mem _ List.mem_cons_self), argumentResolves⟩⟩
  · rintro _ _ _ ⟨_, _, within, resolves⟩
    cases resolves with
    | tyLam bodyResolves => exact ⟨_, _, within.child (by simp [Node.children]), bodyResolves⟩
  · rintro _ _ _ _ ⟨_, _, within, resolves⟩
    cases resolves with
    | tyApp functionResolves => exact ⟨_, _, within.child List.mem_cons_self, functionResolves⟩

/-- Deduction blames parts of the written term. -/
theorem Term.ResolvesTo.deduce_error (resolves : named.ResolvesTo scope term)
    (within : root.Within (.term named)) {range : Indexed.IndexRange} {context : Indexed.Context}
    {error : Indexed.TypeError} (inScope : error.InScope context)
    (failed : term.deduce range context = .error error) {role : Role} {span : Span}
    (member : (role, span) ∈ error.spans) : ∃ node, root.Within node ∧ node.span = span := by
  obtain ⟨inner, part, isPart, fails⟩ := Indexed.Term.deduce_error failed
  obtain ⟨written, around, partWithin, partResolves⟩ := resolves.exists_part within isPart
  cases fails with
  | illegal => exact inScope.elim
  | indexFault => cases member
  | notFunction =>
      cases partResolves with
      | app functionResolves argumentResolves =>
          simp only [Indexed.TypeError.spans, List.mem_cons, Prod.mk.injEq, List.not_mem_nil,
            or_false] at member
          rcases member with ⟨-, rfl⟩ | ⟨-, rfl⟩
          · exact functionResolves.exists_node (partWithin.child (by simp [Node.children]))
          · exact argumentResolves.exists_node (partWithin.child (by simp [Node.children]))
  | argumentMismatch =>
      cases partResolves with
      | app _ argumentResolves =>
          cases List.mem_singleton.mp member
          exact argumentResolves.exists_node (partWithin.child (by simp [Node.children]))
  | notUniversal =>
      cases partResolves with
      | tyApp functionResolves =>
          cases List.mem_singleton.mp member
          exact functionResolves.exists_node (partWithin.child (by simp [Node.children]))

end Named

namespace Session

variable {limits : Limits} {context : Named.Context} {indexed : Indexed.Context} {root : Node}
  {failure : Failure}

/-- Checking a term blames a node of the term. -/
theorem Sound.checkTerm_blames (sound : Sound limits context indexed) {named : Named.Term}
    (within : root.Within (.term named))
    (failed : checkTerm limits context named = .error failure) : failure.Blames root := by
  simp only [checkTerm, sound.resolved, bind_eq_error_iff, mapError_eq_error_iff,
    mapError_eq_ok_iff] at failed
  rcases failed with ⟨occurrence, unresolved, rfl⟩ | ⟨term, resolved, failed⟩
  · exact (within.mentions_term (Named.Term.resolve_error unresolved)).blames
  -- The context resolves, so only deduction is left to fail.
  rcases failed with ⟨_, ⟨⟩, _⟩ | ⟨_, ⟨⟩, failed⟩
  rcases failed with ⟨error, untyped, rfl⟩ | ⟨_, _, ⟨⟩⟩
  have inScope := Named.Term.resolve_inScope resolved sound.describes
  have errorInScope := inScope.deduce_error sound.closed untyped
  intro role span member
  rw [errorInScope.spans_inContext sound.describes] at member
  exact (Named.Term.resolve_eq_ok_iff.mp resolved).deduce_error within errorInScope untyped member

/-- Defining a name blames a node of the announced type or of the term. -/
theorem Sound.define_blames (sound : Sound limits context indexed) {name : Named.Ident}
    {expected : Option Named.Ty} {term : Named.Term}
    (typeWithin : ∀ written ∈ expected, root.Within (.type written))
    (termWithin : root.Within (.term term))
    (failed : define limits context name.name expected term = .error failure) :
    failure.Blames root := by
  simp only [define, bind_eq_error_iff] at failed
  rcases failed with unannounced | ⟨announced, announces, failed⟩
  · cases expected with
    | none => cases unannounced
    | some written =>
        simp only [resolveAnnounced, bind_eq_error_iff, mapError_eq_error_iff] at unannounced
        rcases unannounced with ⟨occurrence, unresolved, rfl⟩ | ⟨_, _, ⟨⟩⟩
        exact ((typeWithin written rfl).mentions_type (Named.Ty.resolve_error unresolved)).blames
  rcases failed with unchecked | ⟨⟨_, _, actual⟩, checked, failed⟩
  · exact sound.checkTerm_blames termWithin unchecked
  obtain ⟨rfl, _, deduced⟩ := sound.checked checked
  have actualInScope := sound.inScope deduced
  rcases failed with unrecorded | ⟨_, _, ⟨⟩⟩
  cases expected with
  | none =>
      cases announces
      exact absurd unrecorded (sound.nameType_ne_error actualInScope)
  | some written =>
      simp only [resolveAnnounced, bind_eq_ok_iff, mapError_eq_ok_iff] at announces
      obtain ⟨_, _, result⟩ := announces
      cases result
      simp only [recordedType] at unrecorded
      split at unrecorded
      · cases unrecorded
      · simp only [bind_eq_error_iff] at unrecorded
        rcases unrecorded with unnamed | ⟨_, _, ⟨⟩⟩
        · exact absurd unnamed (sound.nameType_ne_error actualInScope)
        · intro role span member
          simp only [Failure.spans, Mismatch.spans, Mismatch.span, Mismatch.related, List.map_cons,
            List.map_nil, List.mem_cons, Prod.mk.injEq, List.not_mem_nil, or_false] at member
          rcases member with ⟨-, rfl⟩ | ⟨-, rfl⟩
          · exact ⟨_, termWithin, rfl⟩
          · exact ⟨_, typeWithin written rfl, rfl⟩

/-- A command is given up before any term is normalised: it asks for no normal form, or for
that of a term which is not accepted. -/
def EndsUnreduced (limits : Limits) (context : Named.Context) (command : Named.Command) : Prop :=
  ∀ term, command = .reduce term → ∀ checked, checkTerm limits context term ≠ .ok checked

/-- Names are resolved before any term is normalised. -/
theorem endsUnreduced_of_unbound {statement : Named.Statement} {occurrence : Unbound}
    (failed : effect limits context statement = .error (.unbound occurrence)) :
    EndsUnreduced limits context statement.command := by
  obtain ⟨span, command⟩ := statement
  rintro term rfl checked accepted
  simp only [effect, reduce, bind_eq_error_iff, mapError_eq_error_iff] at failed
  rcases failed with unchecked | ⟨_, _, failed⟩
  · rw [accepted] at unchecked
    cases unchecked
  rcases failed with ⟨_, _, ⟨⟩⟩ | ⟨_, _, ⟨_, _, ⟨⟩⟩ | ⟨_, _, failed⟩⟩
  -- What cannot be named is an illegal index, and no unbound name.
  split at failed
  · simp only [bind_eq_error_iff, nameTerm, nameType, mapError_eq_error_iff] at failed
    rcases failed with ⟨_, _, ⟨⟩⟩ | ⟨_, _, ⟨_, _, ⟨⟩⟩ | ⟨_, _, ⟨⟩⟩⟩
  · simp only [bind_eq_error_iff, nameType, mapError_eq_error_iff] at failed
    rcases failed with ⟨_, _, ⟨⟩⟩ | ⟨_, _, ⟨_, _, ⟨⟩⟩ | ⟨_, _, ⟨⟩⟩⟩

/-- What is given up before a term is normalised blames the statement only. -/
theorem Sound.effect_blames (sound : Sound limits context indexed) {statement : Named.Statement}
    (early : EndsUnreduced limits context statement.command)
    (failed : effect limits context statement = .error failure) :
    failure.Blames (.statement statement) := by
  obtain ⟨span, command⟩ := statement
  cases command with
  | assumeType | clear => cases failed
  | assumeTerm name ty =>
      simp only [effect, bind_eq_error_iff, mapError_eq_error_iff] at failed
      rcases failed with ⟨occurrence, unresolved, rfl⟩ | ⟨_, _, ⟨⟩⟩
      exact (Node.mentions_statement (Named.Ty.resolve_error unresolved)).blames
  | define name expected term =>
      refine sound.define_blames ?_ ?_ failed
      · rintro written ⟨⟩
        exact Node.Within.root.child (by simp [Node.children])
      · refine Node.Within.root.child ?_
        cases expected <;> simp [Node.children]
  | reduce term =>
      simp only [effect, reduce, bind_eq_error_iff] at failed
      rcases failed with unchecked | ⟨checked, accepted, _⟩
      · exact sound.checkTerm_blames (Node.Within.root.child (by simp [Node.children])) unchecked
      · exact absurd accepted (early term rfl checked)
  | print name =>
      simp only [effect] at failed
      split at failed
      · cases failed
      · cases failed
        exact (Node.mentions_statement (List.mem_singleton_self _)).blames

/-- Failures point into their statements. If a statement of a source fails because a name
is unbound, or before a term is normalised, then in whatever context a session has reached all
spans of the failure lie inside the statement, and the report marks them in the source. The
span of an unbound name denotes this name. -/
theorem failures_point_into_statement (reachable : Reachable limits context) {source : String}
    {statements : List Named.Statement} (parsed : Grammar.parseProgram source = .ok statements)
    {statement : Named.Statement} (member : statement ∈ statements)
    (failed : (exec limits context statement).2 = .error failure)
    (early : (∃ occurrence, failure = .unbound occurrence) ∨
      EndsUnreduced limits context statement.command) :
    (∀ role span, (role, span) ∈ failure.spans →
      statement.span.Contains span ∧ span.within source = true) ∧
    (failure.report source).highlights.map Highlight.place = failure.spans ∧
    ∀ occurrence, failure = .unbound occurrence →
      occurrence.span.slice? source = some occurrence.name := by
  obtain ⟨indexed, sound⟩ := reachable.recorded.sound
  obtain ⟨masked, tokens, part, masks, tokenizes, inside, derives⟩ :=
    Grammar.exists_derives_statement parsed member
  rw [exec_eq_error_iff] at failed
  have unreduced : EndsUnreduced limits context statement.command := by
    rcases early with ⟨occurrence, rfl⟩ | unreduced
    · exact endsUnreduced_of_unbound failed
    · exact unreduced
  have faithful := derives.faithful inside masks tokenizes
  have contained : ∀ role span, (role, span) ∈ failure.spans →
      statement.span.Contains span ∧ span.within source = true := by
    intro role span isSpan
    obtain ⟨node, within, rfl⟩ := sound.effect_blames unreduced failed role span isSpan
    exact faithful.contains within
  refine ⟨contained, ?_, ?_⟩
  · exact Failure.highlights_report fun role span isSpan => (contained role span isSpan).2
  · rintro occurrence rfl
    cases sound.effect_complaint failed with
    | unbound occurs =>
        obtain ⟨node, within, spans, named⟩ := Node.mentions_statement occurs
        rw [← spans]
        exact (within.placed ⟨part, inside, .inl derives⟩).slice?_name named masks tokenizes

/-- A type and two terms from a source of their own, in which spans are as large as below. -/
def assumptions : Named.Context :=
  [.term ⟨"f", .arrow ⟨33, 46⟩
      (.arrow ⟨34, 40⟩ (.var ⟨34, 35⟩ "A") (.var ⟨39, 40⟩ "A")) (.var ⟨45, 46⟩ "A"), none⟩,
    .term ⟨"a", .var ⟨21, 22⟩ "A", none⟩,
    .type "A"]

/-- A type and two terms are assumed by statements from the beginning. -/
theorem reachable_assumptions : Reachable .standard assumptions :=
  ⟨[⟨⟨0, 10⟩, .assumeType ⟨⟨9, 10⟩, "A"⟩⟩,
    ⟨⟨12, 22⟩, .assumeTerm ⟨⟨18, 19⟩, "a"⟩ (.var ⟨21, 22⟩ "A")⟩,
    ⟨⟨24, 46⟩, .assumeTerm ⟨⟨30, 31⟩, "f"⟩ (.arrow ⟨33, 46⟩
      (.arrow ⟨34, 40⟩ (.var ⟨34, 35⟩ "A") (.var ⟨39, 40⟩ "A")) (.var ⟨45, 46⟩ "A"))⟩], rfl⟩

/-- A term that is no function is applied, and an axiom names a type that is not bound. -/
def faultySource : String :=
  "Print a; (* λ *) Reduce λ x: A. (a) f; Axiom b: ∀ X. X → Y"

def printed : Named.Statement := ⟨⟨0, 7⟩, .print ⟨⟨6, 7⟩, "a"⟩⟩

def misapplied : Named.Statement :=
  ⟨⟨18, 39⟩, .reduce (.lam ⟨25, 39⟩ ⟨⟨28, 29⟩, "x"⟩ (.var ⟨31, 32⟩ "A")
    (.app ⟨34, 39⟩ (.var ⟨35, 36⟩ "a") (.var ⟨38, 39⟩ "f")))⟩

def groundless : Named.Statement :=
  ⟨⟨41, 64⟩, .assumeTerm ⟨⟨47, 48⟩, "b"⟩ (.all ⟨50, 64⟩ ⟨⟨54, 55⟩, "X"⟩
    (.arrow ⟨57, 64⟩ (.var ⟨57, 58⟩ "X") (.var ⟨63, 64⟩ "Y")))⟩

/-- The faulty source parses to its three statements. -/
theorem parseProgram_faultySource :
    Grammar.parseProgram faultySource = .ok [printed, misapplied, groundless] := by
  decide +kernel

/-- Function and argument are marked without the parentheses, and the unbound name alone. -/
theorem failures_point_into_statement_faulty :
    (∃ failure, (exec .standard assumptions misapplied).2 = .error failure ∧
      EndsUnreduced .standard assumptions misapplied.command ∧
      (failure.report faultySource).highlights.map Highlight.place =
        [(.primary, ⟨35, 36⟩), (.context, ⟨38, 39⟩)] ∧
      misapplied.span.Contains ⟨35, 36⟩ ∧ misapplied.span.Contains ⟨38, 39⟩) ∧
    ∃ occurrence, (exec .standard assumptions groundless).2 = .error (.unbound occurrence) ∧
      groundless.span.Contains occurrence.span ∧
      occurrence.span.slice? faultySource = some "Y" := by
  constructor
  · have unreduced : EndsUnreduced .standard assumptions misapplied.command := by
      rintro term ⟨⟩ checked ⟨⟩
    obtain ⟨contained, marked, -⟩ := failures_point_into_statement reachable_assumptions
      parseProgram_faultySource (List.mem_cons_of_mem _ List.mem_cons_self) rfl (.inr unreduced)
    exact ⟨_, rfl, unreduced, marked, (contained .primary _ List.mem_cons_self).1,
      (contained .context _ (List.mem_cons_of_mem _ List.mem_cons_self)).1⟩
  · obtain ⟨contained, -, named⟩ := failures_point_into_statement reachable_assumptions
      parseProgram_faultySource
      (List.mem_cons_of_mem _ (List.mem_cons_of_mem _ List.mem_cons_self)) rfl (.inl ⟨_, rfl⟩)
    exact ⟨_, rfl, (contained .primary _ List.mem_cons_self).1, named _ rfl⟩

end Session

end PolyLambda
