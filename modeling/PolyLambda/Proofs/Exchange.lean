import PolyLambda.Proofs.Declarations
import PolyLambda.Proofs.IndexOverflow

/-!
# Exchanging declarations

Two declarations that do not mention each other may be made in either order. Their
binders change places, and what is reduced afterwards comes out the same.
-/

namespace PolyLambda

open Indexed (Renaming)

namespace Indexed

/-- The renaming that makes the two newest binders change places. -/
def Renaming.exchange : Renaming
  | 0 => 1
  | 1 => 0
  | index + 2 => index + 2

/-- Exchanging twice changes nothing. -/
theorem Renaming.exchange_exchange (index : Nat) : exchange (exchange index) = index := by
  match index with
  | 0 | 1 | _ + 2 => rfl

/-- A type from below two binders is the same when they are exchanged. -/
theorem Ty.lift_lift_exchange (ty : Ty) :
    ((ty.lift 1).lift 1).rename .exchange = (ty.lift 1).lift 1 := by
  simp only [Ty.lift, Ty.rename_rename]
  rfl

/-- A term from below two binders is the same when they are exchanged. -/
theorem Term.lift_lift_exchange (term : Term) :
    ((term.lift 1).lift 1).rename .exchange = (term.lift 1).lift 1 := by
  simp only [Term.lift, Term.rename_rename]
  rfl

namespace Context

variable (first second : Binding) (context : Context)

/-- Two binders, the newer of which does not refer to the older one. -/
def pushTwo (first second : Binding) (context : Context) : Context :=
  second.rename (.up 1) :: first :: context

/-- Exchanging two binders exchanges the types that are recorded. -/
theorem termType?_exchange (index : Nat) :
    (pushTwo second first context).termType? (Renaming.exchange index) =
      ((pushTwo first second context).termType? index).map (Ty.rename .exchange) := by
  match index with
  | 0 =>
    cases second with
    | type => rfl
    | term entry =>
      simp only [pushTwo, Renaming.exchange, Binding.rename, termType?_term_zero,
        termType?_cons_succ, Option.map_some]
      exact congrArg some entry.ty.lift_lift_exchange.symm
  | 1 =>
    cases first with
    | type => rfl
    | term entry =>
      simp only [pushTwo, Renaming.exchange, Binding.rename, termType?_term_zero,
        termType?_cons_succ, Option.map_some]
      exact congrArg some entry.ty.lift_lift_exchange.symm
  | index + 2 =>
    simp only [pushTwo, Renaming.exchange, termType?_cons_succ, Option.map_map, Function.comp_def,
      Ty.lift_lift_exchange]

/-- Exchanging two binders exchanges what variables unfold to. -/
theorem unfolding?_exchange (index : Nat) :
    (pushTwo second first context).unfolding? (Renaming.exchange index) =
      ((pushTwo first second context).unfolding? index).map (Term.rename .exchange) := by
  match index with
  | 0 =>
    cases second with
    | type => rfl
    | term entry =>
      simp only [pushTwo, Renaming.exchange, Binding.rename, unfolding?_term_zero,
        unfolding?_cons_succ, Option.map_map]
      exact congrArg (Option.map · entry.definition)
        (funext fun definition => definition.lift_lift_exchange.symm)
  | 1 =>
    cases first with
    | type => rfl
    | term entry =>
      simp only [pushTwo, Renaming.exchange, Binding.rename, unfolding?_term_zero,
        unfolding?_cons_succ, Option.map_map]
      exact congrArg (Option.map · entry.definition)
        (funext fun definition => definition.lift_lift_exchange.symm)
  | index + 2 =>
    simp only [pushTwo, Renaming.exchange, unfolding?_cons_succ, Option.map_map, Function.comp_def,
      Term.lift_lift_exchange]

end Context

/-- Two binders that do not refer to each other may change places. -/
theorem Renaming.Embeds.exchange (first second : Binding) (context : Context) :
    Renaming.exchange.Embeds (context.pushTwo first second) (context.pushTwo second first) where
  types {index} bound := by
    match index with
    | 0 => cases second <;> first | rfl | cases bound
    | 1 => cases first <;> first | rfl | cases bound
    | index + 2 => exact bound
  terms {index ty} recorded := by
    rw [Context.termType?_exchange, recorded, Option.map_some]
  unfoldings {index definition} unfolds := by
    rw [Context.unfolding?_exchange, unfolds, Option.map_some]
  injective := Function.LeftInverse.injective exchange_exchange
  assumed {index} bound absent := by
    rw [Context.unfolding?_exchange, absent, Option.map_none]

end Indexed

/-- Exchanging the two newest binders rearranges a scope. -/
theorem Scope.Rearranges.exchange (first second : Binder) (scope : Scope) :
    Rearranges .exchange (second :: first :: scope) (first :: second :: scope) where
  perm := List.Perm.swap first second scope
  kept {index binder} found := by
    match index with
    | 0 | 1 | _ + 2 => exact found

namespace Session

variable {context other : Named.Context} {depth : Nat}

/-- What it takes for a term to be reduced: it has a type, which its normal form has
too, and both of them can be named. -/
theorem reduce_eq_ok_iff {limits : Limits} {span : Span} {named : Named.Term}
    {next : Named.Context} {outcome : Outcome} :
    reduce limits context span named = .ok (next, outcome) ↔
      ∃ term indexed expected normal found normalName ty,
        checkTerm limits context named = .ok (term, indexed, expected) ∧
        term.normalize limits.range limits.depth indexed = .ok normal ∧
        normal.deduce limits.range indexed = .ok found ∧ found.Same expected ∧
        context.nameTerm normal = .ok normalName ∧ context.nameType expected = .ok ty ∧
        next = context ∧ outcome = .reduced normalName ty := by
  constructor
  · intro reduced
    simp only [reduce, bind_eq_ok_iff, mapError_eq_ok_iff] at reduced
    obtain ⟨⟨term, indexed, expected⟩, checked, normal, normalized, found, deduced, rest⟩ := reduced
    split at rest
    · rename_i same
      simp only [bind_eq_ok_iff, nameTerm, nameType, mapError_eq_ok_iff] at rest
      obtain ⟨normalName, normalNamed, ty, tyNamed, ⟨⟩⟩ := rest
      exact ⟨term, indexed, expected, normal, found, normalName, ty, checked, normalized, deduced,
        same, normalNamed, tyNamed, rfl, rfl⟩
    · simp only [bind_eq_ok_iff] at rest
      obtain ⟨_, _, _, _, ⟨⟩⟩ := rest
  · rintro ⟨term, indexed, expected, normal, found, normalName, ty, checked, normalized, deduced,
      same, normalNamed, tyNamed, rfl, rfl⟩
    simp only [reduce, checked, normalized, deduced, if_pos same, nameTerm, nameType, normalNamed,
      tyNamed, bind, Except.bind, mapError_ok, pure, Except.pure]

/-- Two contexts hold the same binders in different places. -/
structure Rearranged (mapping : Renaming) (context other : Named.Context) : Prop where
  distinct : other.scope.Nodup
  rearranges : context.scope.Rearranges mapping other.scope
  embeds : ∃ source target, Named.Context.resolve context = .ok source ∧
    Named.Context.resolve other = .ok target ∧ mapping.Embeds source target

/-- A term is reduced to the same term, of the same type, wherever the binders that it
refers to stand. -/
theorem Rearranged.reduce {mapping : Renaming} (rearranged : Rearranged mapping context other)
    {span : Span} {named : Named.Term} {next : Named.Context} {outcome : Outcome}
    (reduced : reduce ⟨.unlimited, depth⟩ context span named = .ok (next, outcome)) :
    reduce ⟨.unlimited, depth⟩ other span named = .ok (other, outcome) := by
  obtain ⟨distinct, rearranges, source, target, resolved, otherResolved, embeds⟩ := rearranged
  obtain ⟨term, _, expected, normal, found, normalName, ty, checked, normalized, deducedNormal,
    same, normalNamed, tyNamed, rfl, rfl⟩ := reduce_eq_ok_iff.mp reduced
  obtain ⟨termResolved, sourceResolved, deduced⟩ := checkTerm_eq_ok_iff.mp checked
  cases resolved.symm.trans sourceResolved
  have closed := Named.Context.resolve_scoped resolved
  have inScope := Named.Term.resolve_inScope termResolved (Named.Context.resolve_describes resolved)
  have normalInScope := Indexed.Term.normalize_inScope closed inScope normalized
  have otherChecked : checkTerm ⟨.unlimited, depth⟩ other named =
      .ok (term.rename mapping, target, expected.rename mapping) :=
    checkTerm_eq_ok_iff.mpr
      ⟨Named.Term.resolve_moved termResolved (rearranges.moves distinct), otherResolved,
        (Indexed.Term.deduce_mirrors embeds closed inScope).eq_ok deduced⟩
  have otherNormalized : (term.rename mapping).normalize .unlimited depth target =
      .ok (normal.rename mapping) := by
    rw [Indexed.Term.normalize_rename embeds closed inScope, normalized]
    rfl
  exact reduce_eq_ok_iff.mpr ⟨_, _, _, _, _, _, _, otherChecked, otherNormalized,
    (Indexed.Term.deduce_mirrors embeds closed normalInScope).eq_ok deducedNormal,
    (Indexed.Ty.same_rename_iff embeds.injective).mpr same,
    Named.Context.nameTerm_rearranged normalNamed rearranges,
    Named.Context.nameType_rearranged tyNamed rearranges, rfl, rfl⟩

/-- A reduction has the same outcome in a rearranged session. -/
theorem Rearranged.exec_reduce {mapping : Renaming} (rearranged : Rearranged mapping context other)
    {span : Span} {term : Named.Term} {outcome : Outcome}
    (reduced : (exec ⟨.unlimited, depth⟩ context ⟨span, .reduce term⟩).2 = .ok outcome) :
    (exec ⟨.unlimited, depth⟩ other ⟨span, .reduce term⟩).2 = .ok outcome := by
  cases effective : effect ⟨.unlimited, depth⟩ context ⟨span, .reduce term⟩ with
  | error failure => simp [exec, effective] at reduced
  | ok reached =>
      obtain ⟨next, yielded⟩ := reached
      rw [exec_eq_ok_iff.mpr effective] at reduced
      cases reduced
      have otherEffective : effect ⟨.unlimited, depth⟩ other ⟨span, .reduce term⟩ =
          .ok (other, outcome) := rearranged.reduce effective
      rw [exec_eq_ok_iff.mpr otherEffective]

/-- Statements all succeed, run one after another. -/
def Succeed (limits : Limits) (context : Named.Context) (statements : List Named.Statement) :
    Prop :=
  ∀ result ∈ (execAll limits context statements).2, result.isOk

/-- Where statements succeed, those after the first do from where it leads. -/
theorem Succeed.tail {limits : Limits} {statement : Named.Statement}
    {rest : List Named.Statement} (succeed : Succeed limits context (statement :: rest)) :
    Succeed limits (exec limits context statement).1 rest :=
  fun result member => succeed result (.tail _ member)

/-- Statements that all succeed meet no tree that is too high. -/
theorem Succeed.not_overflows {limits : Limits} {statements : List Named.Statement}
    (succeed : Succeed limits context statements) : ¬ Overflows limits context statements := by
  induction statements generalizing context with
  | nil => exact id
  | cons statement rest restIH =>
      rintro (⟨_, failure, _, _, _, ends⟩ | later)
      · have success := succeed (exec limits context statement).2 (.head _)
        rw [ends] at success
        cases success
      · exact restIH succeed.tail later

/-- Statements that succeed do the same without limits. -/
theorem Succeed.eq_unbounded {limits : Limits} {statements : List Named.Statement}
    (succeed : Succeed limits context statements) (recorded : Recorded limits context) :
    execAll limits context statements = execAll limits.unbounded context statements :=
  (execAll_eq_or_overflows recorded statements).resolve_right succeed.not_overflows

/-- Two statements succeed exactly if the first does and the second does from where it leads. -/
theorem succeed_pair_iff {limits : Limits} {first second : Named.Statement} :
    Succeed limits context [first, second] ↔
      ∃ reached final : Effect, effect limits context first = .ok reached ∧
        effect limits reached.1 second = .ok final := by
  simp only [Succeed, execAll, exec]
  cases effect limits context first with
  | error failure => simp [Except.isOk, Except.toBool]
  | ok reached =>
      cases next : effect limits reached.1 second with
      | error failure => simp [next, Except.isOk, Except.toBool]
      | ok final => simpa [next, Except.isOk, Except.toBool] using ⟨final.1, final.2, rfl⟩

/-- Two statements that succeed lead to where the second one does. -/
theorem execAll_pair {limits : Limits} {first second : Named.Statement} {reached final : Effect}
    (success : effect limits context first = .ok reached)
    (nextSuccess : effect limits reached.1 second = .ok final) :
    (execAll limits context [first, second]).1 = final.1 := by
  simp only [execAll, exec, success, nextSuccess]

/-- Two statements introduce different names, each of them new to a scope and foreign
to the other statement. A name may be foreign to a statement that binds it inside. -/
structure Independent (scope : Scope) (first second : Named.Statement) (name otherName : Binder) :
    Prop where
  binds : first.command.binder? = some name
  otherBinds : second.command.binder? = some otherName
  new : name ∉ scope
  otherNew : otherName ∉ scope
  apart : name ≠ otherName
  foreign : name ∉ second.command.freeNames
  otherForeign : otherName ∉ first.command.freeNames

namespace Independent

variable {scope : Scope} {first second : Named.Statement} {name otherName : Binder}

/-- Independence does not depend on the order. -/
theorem symm (independent : Independent scope first second name otherName) :
    Independent scope second first otherName name where
  binds := independent.otherBinds
  otherBinds := independent.binds
  new := independent.otherNew
  otherNew := independent.new
  apart := independent.apart.symm
  foreign := independent.otherForeign
  otherForeign := independent.foreign

/-- Of two declarations that succeed in one order, the second one does not need the
first one. -/
theorem declares {source : Indexed.Context} {entry otherEntry : Indexed.Binding}
    (independent : Independent scope first second name otherName)
    (describes : scope.Describes source) (closed : source.Scoped)
    (declared : second.command.Declares (name :: scope) (entry :: source) otherEntry) :
    ∃ below, second.command.Declares scope source below ∧ otherEntry = below.rename (.up 1) := by
  refine declared.of_moved describes closed (.push independent.new) (.up source entry) ?_
  intro binder member
  rcases List.mem_cons.mp (declared.bound member) with rfl | bound
  · exact absurd member independent.foreign
  · exact bound

/-- Two independent statements that succeed declare an entry each. -/
theorem declares_of_succeed {indexed : Indexed.Context}
    (independent : Independent context.scope first second name otherName)
    (resolved : Named.Context.resolve context = .ok indexed) (distinct : context.scope.Nodup)
    (succeed : Succeed ⟨.unlimited, depth⟩ context [first, second]) :
    ∃ entry otherEntry, first.command.Declares context.scope indexed entry ∧
      second.command.Declares (name :: context.scope) (entry :: indexed) otherEntry := by
  obtain ⟨reached, final, success, nextSuccess⟩ := succeed_pair_iff.mp succeed
  obtain ⟨entry, declared⟩ := declares_of_effect resolved independent.binds success
  obtain ⟨binding, outcome, effective, binds, nextResolved⟩ :=
    effect_of_declares resolved distinct declared depth
  cases success.symm.trans effective
  cases independent.binds.symm.trans binds
  obtain ⟨otherEntry, otherDeclared⟩ :=
    declares_of_effect nextResolved independent.otherBinds nextSuccess
  exact ⟨entry, otherEntry, declared, otherDeclared⟩

/-- Two independent statements that declare an entry each succeed, and add the two entries. -/
theorem succeed_of_declares {indexed : Indexed.Context} {entry otherEntry : Indexed.Binding}
    (independent : Independent context.scope first second name otherName)
    (resolved : Named.Context.resolve context = .ok indexed) (distinct : context.scope.Nodup)
    (declared : first.command.Declares context.scope indexed entry)
    (otherDeclared : second.command.Declares (name :: context.scope) (entry :: indexed) otherEntry)
    (depth : Nat) :
    Succeed ⟨.unlimited, depth⟩ context [first, second] ∧
      ∃ final, (execAll ⟨.unlimited, depth⟩ context [first, second]).1 = final ∧
        final.scope = otherName :: name :: context.scope ∧
        Named.Context.resolve final = .ok (otherEntry :: entry :: indexed) := by
  obtain ⟨binding, outcome, success, binds, nextResolved⟩ :=
    effect_of_declares resolved distinct declared depth
  cases independent.binds.symm.trans binds
  have nextDistinct := List.nodup_cons.mpr ⟨independent.new, distinct⟩
  obtain ⟨last, finalOutcome, nextSuccess, lastBinds, finalResolved⟩ :=
    effect_of_declares nextResolved nextDistinct otherDeclared depth
  cases independent.otherBinds.symm.trans lastBinds
  exact ⟨succeed_pair_iff.mpr ⟨_, _, success, nextSuccess⟩, _, execAll_pair success nextSuccess,
    rfl, finalResolved⟩

/-- Independent declarations that succeed in one order succeed in the other one, and
lead to the same binders in exchanged places. -/
theorem exchange {indexed : Indexed.Context}
    (independent : Independent context.scope first second name otherName)
    (resolved : Named.Context.resolve context = .ok indexed) (distinct : context.scope.Nodup)
    (succeed : Succeed ⟨.unlimited, depth⟩ context [first, second]) :
    Succeed ⟨.unlimited, depth⟩ context [second, first] ∧
      Rearranged .exchange (execAll ⟨.unlimited, depth⟩ context [first, second]).1
        (execAll ⟨.unlimited, depth⟩ context [second, first]).1 := by
  have describes := Named.Context.resolve_describes resolved
  have closed := Named.Context.resolve_scoped resolved
  obtain ⟨entry, _, declared, lateDeclared⟩ :=
    independent.declares_of_succeed resolved distinct succeed
  obtain ⟨otherEntry, otherDeclared, rfl⟩ := independent.declares describes closed lateDeclared
  have lateFirst := declared.moved describes closed (.push independent.otherNew)
    (.up indexed otherEntry)
  obtain ⟨_, final, reached, scope, finalResolved⟩ :=
    independent.succeed_of_declares resolved distinct declared lateDeclared depth
  obtain ⟨otherSucceed, otherFinal, otherReached, otherScope, otherResolved⟩ :=
    independent.symm.succeed_of_declares resolved distinct otherDeclared lateFirst depth
  refine ⟨otherSucceed, ?_⟩
  rw [reached, otherReached]
  refine ⟨?_, ?_, _, _, finalResolved, otherResolved, .exchange entry otherEntry indexed⟩
  · rw [otherScope, List.nodup_cons, List.nodup_cons, List.mem_cons, not_or]
    exact ⟨⟨independent.apart, independent.new⟩, independent.otherNew, distinct⟩
  · rw [scope, otherScope]
    exact .exchange name otherName context.scope

/-- Without a limit to indices independent declarations commute. -/
theorem commute {indexed : Indexed.Context}
    (independent : Independent context.scope first second name otherName)
    (resolved : Named.Context.resolve context = .ok indexed) (distinct : context.scope.Nodup)
    (limits : Limits) :
    (Succeed limits.unbounded context [first, second] ↔
        Succeed limits.unbounded context [second, first]) ∧
      (Succeed limits.unbounded context [first, second] → ∀ span term outcome,
        (exec limits.unbounded (execAll limits.unbounded context [first, second]).1
            ⟨span, .reduce term⟩).2 = .ok outcome ↔
          (exec limits.unbounded (execAll limits.unbounded context [second, first]).1
            ⟨span, .reduce term⟩).2 = .ok outcome) := by
  refine ⟨⟨fun succeed => (independent.exchange resolved distinct succeed).1,
    fun succeed => (independent.symm.exchange resolved distinct succeed).1⟩, ?_⟩
  intro succeed span term outcome
  obtain ⟨otherSucceed, rearranged⟩ := independent.exchange resolved distinct succeed
  obtain ⟨_, rearrangedBack⟩ := independent.symm.exchange resolved distinct otherSucceed
  exact ⟨rearranged.exec_reduce, rearrangedBack.exec_reduce⟩

end Independent

/-- Independent declarations commute. Both succeed in one order exactly if they do in
the other one, and then every term is reduced after one order exactly if it is after
the other one, to the same normal form and type. The only exception is a range of
indices that is too small for one of the two runs. -/
theorem independent_declarations_commute {limits : Limits} (reachable : Reachable limits context)
    (distinct : context.scope.Nodup) {first second : Named.Statement} {name otherName : Binder}
    (independent : Independent context.scope first second name otherName) :
    ((Succeed limits context [first, second] ↔ Succeed limits context [second, first]) ∨
        Overflows limits context [first, second] ∨ Overflows limits context [second, first]) ∧
      (Succeed limits context [first, second] → Succeed limits context [second, first] →
        ∀ span term,
          (∀ outcome,
            (exec limits (execAll limits context [first, second]).1
                ⟨span, .reduce term⟩).2 = .ok outcome ↔
              (exec limits (execAll limits context [second, first]).1
                ⟨span, .reduce term⟩).2 = .ok outcome) ∨
            Outgrows limits (execAll limits context [first, second]).1 ⟨span, .reduce term⟩ ∨
            Outgrows limits (execAll limits context [second, first]).1 ⟨span, .reduce term⟩) := by
  have recorded := reachable.recorded
  obtain ⟨indexed, sound⟩ := recorded.sound
  obtain ⟨commute, reduces⟩ := independent.commute sound.resolved distinct limits
  constructor
  · rcases execAll_eq_or_overflows recorded [first, second] with equal | overflows
    · rcases execAll_eq_or_overflows recorded [second, first] with otherEqual | overflows
      · left
        rw [Succeed, equal, Succeed, otherEqual]
        exact commute
      · exact .inr (.inr overflows)
    · exact .inr (.inl overflows)
  · intro succeed otherSucceed span term
    rcases exec_eq_or_outgrows (recorded.execAll [first, second]) ⟨span, .reduce term⟩ with
      equal | outgrows
    · rcases exec_eq_or_outgrows (recorded.execAll [second, first]) ⟨span, .reduce term⟩ with
        otherEqual | outgrows
      · left
        have same := succeed.eq_unbounded recorded
        rw [equal, otherEqual, same, otherSucceed.eq_unbounded recorded]
        rw [Succeed, same] at succeed
        exact reduces succeed span term
      · exact .inr (.inr outgrows)
    · exact .inr (.inl outgrows)

/-- An assumed element of an assumed type. -/
def elementSession : Named.Context :=
  [.term ⟨"a", .var ⟨21, 22⟩ "A", none⟩, .type "A"]

/-- Another type is assumed. -/
def assumeOther : Named.Statement :=
  ⟨⟨24, 34⟩, .assumeType ⟨⟨33, 34⟩, "B"⟩⟩

/-- The polymorphic identity is defined. The name that it binds is the one that
`assumeOther` introduces. -/
def defineIdentity : Named.Statement :=
  ⟨⟨36, 67⟩, .define ⟨⟨43, 45⟩, "id"⟩ none
    (.tyLam ⟨48, 67⟩ ⟨⟨53, 54⟩, "B"⟩
      (.lam ⟨56, 67⟩ ⟨⟨60, 61⟩, "x"⟩ (.var ⟨63, 64⟩ "B") (.var ⟨66, 67⟩ "x")))⟩

/-- The identity is applied at a type that refers to both assumed types. -/
def reduceApplied : Named.Statement :=
  ⟨⟨0, 35⟩, .reduce (.lam ⟨7, 35⟩ ⟨⟨11, 12⟩, "f"⟩
    (.arrow ⟨14, 20⟩ (.var ⟨14, 15⟩ "B") (.var ⟨19, 20⟩ "A"))
    (.app ⟨22, 35⟩
      (.tyApp ⟨22, 33⟩ (.var ⟨22, 24⟩ "id")
        (.arrow ⟨26, 32⟩ (.var ⟨26, 27⟩ "B") (.var ⟨31, 32⟩ "A")))
      (.var ⟨34, 35⟩ "f")))⟩

/-- What the application is reduced to. -/
def reducedApplied : Outcome :=
  .reduced
    (.lam ⟨7, 35⟩ ⟨⟨7, 35⟩, "b"⟩ (.arrow ⟨14, 20⟩ (.var ⟨14, 15⟩ "B") (.var ⟨19, 20⟩ "A"))
      (.var ⟨34, 35⟩ "b"))
    (.arrow ⟨7, 35⟩ (.arrow ⟨14, 20⟩ (.var ⟨14, 15⟩ "B") (.var ⟨19, 20⟩ "A"))
      (.arrow ⟨26, 32⟩ (.var ⟨26, 27⟩ "B") (.var ⟨31, 32⟩ "A")))

/-- What the context resolves to once the identity has been defined. -/
def identityContext : Indexed.Context :=
  [.term ⟨(), .all ⟨48, 67⟩ (.arrow ⟨56, 67⟩ (.var ⟨63, 64⟩ 0) (.var ⟨63, 64⟩ 0)),
      some (.tyLam ⟨48, 67⟩ (.lam ⟨56, 67⟩ (.var ⟨63, 64⟩ 0) (.var ⟨66, 67⟩ 0)))⟩,
    .term ⟨(), .var ⟨21, 22⟩ 0, none⟩,
    .type ()]

/-- A declared type and a defined identity commute, and an application of the identity is
reduced alike after both orders. -/
theorem independent_declarations_commute_identity :
    Independent elementSession.scope assumeOther defineIdentity ⟨.type, "B"⟩ ⟨.term, "id"⟩ ∧
      Succeed .standard elementSession [assumeOther, defineIdentity] ∧
      Succeed .standard elementSession [defineIdentity, assumeOther] ∧
      (exec .standard (execAll .standard elementSession [defineIdentity, assumeOther]).1
        reduceApplied).2 = .ok reducedApplied := by
  have reachable : Reachable .standard elementSession :=
    ⟨[⟨⟨0, 10⟩, .assumeType ⟨⟨9, 10⟩, "A"⟩⟩,
      ⟨⟨12, 22⟩, .assumeTerm ⟨⟨18, 19⟩, "a"⟩ (.var ⟨21, 22⟩ "A")⟩], by decide +kernel⟩
  have distinct : elementSession.scope.Nodup := by decide +kernel
  have independent :
      Independent elementSession.scope assumeOther defineIdentity ⟨.type, "B"⟩ ⟨.term, "id"⟩ := by
    constructor <;> decide
  obtain ⟨commute, reduces⟩ := independent_declarations_commute reachable distinct independent
  have succeed : Succeed .standard elementSession [assumeOther, defineIdentity] := by
    unfold Succeed
    decide +kernel
  have reduced : (exec .standard (execAll .standard elementSession
      [assumeOther, defineIdentity]).1 reduceApplied).2 = .ok reducedApplied := by
    decide +kernel
  have defineWithin : ¬ Outgrows .standard elementSession defineIdentity := by
    refine Within.not_outgrows ?_ rfl
    unfold Within
    decide +kernel
  have assumeWithin : ¬ Outgrows .standard (exec .standard elementSession defineIdentity).1
      assumeOther := by
    rintro ⟨_, _, _, high, _⟩
    exact high fun _ member => nomatch member
  have otherSucceed : Succeed .standard elementSession [defineIdentity, assumeOther] := by
    rcases commute with commute | overflows | outgrows | outgrows | impossible
    · exact commute.mp succeed
    · exact absurd overflows succeed.not_overflows
    · exact absurd outgrows defineWithin
    · exact absurd outgrows assumeWithin
    · exact impossible.elim
  refine ⟨independent, succeed, otherSucceed, ?_⟩
  rcases reduces succeed otherSucceed _ _ with reduces | outgrows | outgrows
  · exact (reduces _).mp reduced
  · obtain ⟨_, _, _, _, _, ends⟩ := outgrows
    rw [reduceApplied, ends] at reduced
    cases reduced
  · have resolved : Named.Context.resolve (execAll .standard elementSession
        [defineIdentity, assumeOther]).1 = .ok (.type () :: identityContext) := by
      decide +kernel
    refine absurd outgrows (Within.not_outgrows ?_ resolved)
    unfold Within
    decide +kernel

end Session

end PolyLambda
