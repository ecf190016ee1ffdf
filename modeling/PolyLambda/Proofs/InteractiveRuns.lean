import PolyLambda.Proofs.ProgramCuts
import PolyLambda.Proofs.SessionRuns
import PolyLambda.Proofs.SpanErasure
import PolyLambda.Session.Interaction

/-!
# Interactive sessions and whole texts

Lines that make up a program, each of them with a semicolon at its end if it has one at
all, are run one after another as the program is run, up to spans, exactly if no comment
is open at the end of a line with a semicolon. Where one is open, the lines collected so
far do not parse, and the statements on them are lost.
-/

namespace PolyLambda

open Grammar
open Source

/-! ## Places of statements -/

namespace Named

/-- A type that is moved in the text is the same without its spans. -/
theorem Ty.bare_moved (distance : Nat) (ty : Ty) : (ty.moved distance).bare = ty.bare := by
  induction ty with
  | var span name => rfl
  | arrow span domain codomain domainIH codomainIH => simp [moved, bare, domainIH, codomainIH]
  | all span param body bodyIH => simp [moved, bare, bodyIH, Ident.moved, Ident.bare]

/-- A term that is moved in the text is the same without its spans. -/
theorem Term.bare_moved (distance : Nat) (term : Term) :
    (term.moved distance).bare = term.bare := by
  induction term with
  | var span name => rfl
  | lam span param paramType body bodyIH =>
      simp [moved, bare, bodyIH, Ty.bare_moved, Ident.moved, Ident.bare]
  | app span function argument functionIH argumentIH =>
      simp [moved, bare, functionIH, argumentIH]
  | tyLam span param body bodyIH => simp [moved, bare, bodyIH, Ident.moved, Ident.bare]
  | tyApp span function argument functionIH => simp [moved, bare, functionIH, Ty.bare_moved]

/-- A statement that is moved in the text is the same without its spans. -/
theorem Statement.bare_moved (distance : Nat) (statement : Statement) :
    (statement.moved distance).bare = statement.bare := by
  obtain ⟨span, command⟩ := statement
  cases command with
  | assumeType | print | clear => rfl
  | assumeTerm name ty =>
      simp [Statement.moved, Statement.bare, Command.moved, Command.bare, Ident.moved, Ident.bare,
        Ty.bare_moved]
  | define name expected term =>
      simp [Statement.moved, Statement.bare, Command.moved, Command.bare, Ident.moved, Ident.bare,
        Term.bare_moved, Function.comp_def, Ty.bare_moved]
  | reduce term =>
      simp [Statement.moved, Statement.bare, Command.moved, Command.bare, Term.bare_moved]

end Named

/-! ## Failures to parse -/

/-- If a computation fails, then not for want of a text that parses. -/
def HasParsed {α : Type} (result : Except Failure α) : Prop :=
  ∀ error, result ≠ .error (.parse error)

namespace HasParsed

variable {ε α β : Type}

theorem ok (value : α) : HasParsed (.ok value) :=
  nofun

/-- A computation whose steps have parsed has parsed. -/
theorem bind {result : Except Failure α} {next : α → Except Failure β} (first : HasParsed result)
    (onward : ∀ value, HasParsed (next value)) : HasParsed (result >>= next) := by
  cases result with
  | ok value => exact onward value
  | error failure => exact fun error failed => first error (by cases failed; rfl)

/-- A failure that is wrapped as another one than a syntax error has parsed. -/
theorem mapError {result : Except ε α} {wrap : ε → Failure}
    (wraps : ∀ fault error, wrap fault ≠ .parse error) : HasParsed (result.mapError wrap) := by
  cases result with
  | ok value => exact ok value
  | error fault => exact fun error failed => wraps fault error (Except.error.inj failed)

/-- A result that has parsed has parsed without its spans too. -/
theorem bare {result : Result} (parsed : HasParsed result) : HasParsed result.bare := by
  cases result with
  | ok outcome => exact ok _
  | error failure =>
      cases failure with
      | parse error => exact absurd rfl (parsed error)
      | unbound | typing | reduction | unsound => exact nofun

end HasParsed

namespace Session

variable {limits : Limits} {context : Named.Context}

/-- Giving names to a type reports no syntax error. -/
theorem nameType_hasParsed (ty : Indexed.Ty) : HasParsed (nameType context ty) :=
  .mapError nofun

/-- Checking a term reports no syntax error. -/
theorem checkTerm_hasParsed (term : Named.Term) : HasParsed (checkTerm limits context term) := by
  refine .bind (.mapError nofun) fun resolved => ?_
  refine .bind (.mapError nofun) fun indexed => ?_
  exact .bind (.mapError nofun) fun ty => .ok _

/-- Defining a name reports no syntax error. -/
theorem define_hasParsed (name : String) (expected : Option Named.Ty) (term : Named.Term) :
    HasParsed (define limits context name expected term) := by
  refine .bind ?_ fun announced => .bind (checkTerm_hasParsed term) fun checked => .bind ?_ ?_
  · cases expected with
    | none => exact .ok _
    | some ty => exact .bind (.mapError nofun) fun resolved => .ok _
  · cases announced with
    | none => exact nameType_hasParsed _
    | some announced =>
        dsimp only [recordedType]
        split
        · exact .ok _
        · exact .bind (nameType_hasParsed _) fun found => nofun
  · exact fun ty => .ok _

/-- Reducing a term reports no syntax error. -/
theorem reduce_hasParsed (span : Span) (term : Named.Term) :
    HasParsed (reduce limits context span term) := by
  refine .bind (checkTerm_hasParsed term) fun checked => ?_
  refine .bind (.mapError nofun) fun normal => .bind (.mapError nofun) fun found => ?_
  split
  · exact .bind (.mapError nofun) fun named => .bind (nameType_hasParsed _) fun ty => .ok _
  · refine .bind (nameType_hasParsed _) fun expectedName => ?_
    exact .bind (nameType_hasParsed _) fun foundName => nofun

/-- The effect of a statement reports no syntax error. -/
theorem effect_hasParsed (statement : Named.Statement) :
    HasParsed (effect limits context statement) := by
  obtain ⟨span, command⟩ := statement
  cases command with
  | assumeType | clear => exact .ok _
  | assumeTerm name ty => exact .bind (.mapError nofun) fun resolved => .ok _
  | define name expected term => exact define_hasParsed name.name expected term
  | reduce term => exact reduce_hasParsed span term
  | print name =>
      dsimp only [effect]
      split
      · exact .ok _
      · exact nofun

/-- Executing a statement reports no syntax error. -/
theorem exec_hasParsed (statement : Named.Statement) :
    HasParsed (exec limits context statement).2 := by
  have hasParsed : HasParsed (effect limits context statement) := effect_hasParsed statement
  unfold exec
  cases ran : effect limits context statement with
  | ok effect => exact .ok _
  | error failure => exact fun error failed => hasParsed error (ran.trans (by cases failed; rfl))

/-- Executing statements reports no syntax error. -/
theorem execAll_hasParsed {statements : List Named.Statement} {result : Result}
    (member : result ∈ (execAll limits context statements).2) : HasParsed result := by
  induction statements generalizing context with
  | nil => cases member
  | cons statement rest restIH =>
      obtain rfl | later := List.mem_cons.mp member
      · exact exec_hasParsed statement
      · exact restIH later

end Session

/-! ## Lines -/

/-- Lines as one text. -/
def transcript (lines : List String) : String :=
  String.join (lines.map (· ++ "\n"))

/-- An empty transcript adds nothing. -/
theorem append_transcript_nil (front : String) : front ++ transcript [] = front := by
  simp [transcript]

/-- A transcript begins with its first line. -/
theorem append_transcript_cons (front line : String) (lines : List String) :
    front ++ transcript (line :: lines) = front ++ (line ++ "\n") ++ transcript lines := by
  simp [transcript, String.join_cons, String.append_assoc]

/-- Something holds of each line with a semicolon among some lines after a text: of what is
in front of the line, and of the line with its end. -/
def OnTerminated (front : String) (lines : List String) (property : String → String → Prop) :
    Prop :=
  ∀ before line after, lines = before ++ line :: after →
    HoldsSemicolon (tokensWithin (front ++ transcript lines) (front ++ transcript before)
      (line ++ "\n")) →
    property (front ++ transcript before) (line ++ "\n")

/-- No line is terminated where there are none. -/
theorem onTerminated_nil {front : String} {property : String → String → Prop} :
    OnTerminated front [] property := by
  intro before line after split
  cases before <;> cases split

/-- A property of the terminated lines is one of the first, if it is terminated, and of the
rest. -/
theorem onTerminated_cons {front line : String} {rest : List String}
    {property : String → String → Prop} :
    OnTerminated front (line :: rest) property ↔
      (HoldsSemicolon (tokensWithin (front ++ (line ++ "\n") ++ transcript rest) front
        (line ++ "\n")) → property front (line ++ "\n")) ∧
      OnTerminated (front ++ (line ++ "\n")) rest property := by
  constructor
  · intro all
    refine ⟨fun holds => ?_, ?_⟩
    · have first := all [] line rest rfl
      rw [append_transcript_nil, append_transcript_cons] at first
      exact first holds
    · rintro before other after rfl holds
      have later := all (line :: before) other after rfl
      rw [append_transcript_cons, append_transcript_cons] at later
      exact later holds
  · rintro ⟨first, all⟩ before other after split holds
    rw [append_transcript_cons] at holds
    cases before with
    | nil =>
        cases split
        rw [append_transcript_nil] at holds ⊢
        exact first holds
    | cons head before =>
        cases split
        rw [append_transcript_cons] at holds ⊢
        exact all before other after rfl holds

instance OnTerminated.decidable {property : String → String → Prop}
    [∀ before line, Decidable (property before line)] :
    (front : String) → (lines : List String) → Decidable (OnTerminated front lines property)
  | _, [] => .isTrue onTerminated_nil
  | front, line :: rest =>
    letI : Decidable (OnTerminated (front ++ (line ++ "\n")) rest property) := decidable _ rest
    decidable_of_iff _ onTerminated_cons.symm

/-- The last token of each line with a semicolon is a semicolon. -/
def LinesEnd (front : String) (lines : List String) : Prop :=
  OnTerminated front lines fun before line =>
    EndsInSemicolon (tokensWithin (front ++ transcript lines) before line)

/-- No comment is open at the end of a line with a semicolon. -/
def CommentsClose (front : String) (lines : List String) : Prop :=
  OnTerminated front lines fun before line => (MaskedText.ofSource (before ++ line)).unclosed = none

instance (front : String) (lines : List String) : Decidable (LinesEnd front lines) :=
  inferInstanceAs (Decidable (OnTerminated ..))

instance (front : String) (lines : List String) : Decidable (CommentsClose front lines) :=
  inferInstanceAs (Decidable (OnTerminated ..))

section Rest

variable {front segment : String} {rest : List String} {statements : List Named.Statement}
  (cut : Cut front segment (transcript rest) statements) (outside : cut.next = .outside)

include outside

/-- A property that does not look at a cut holds after the cut exactly if it holds of the rest
alone. -/
theorem onTerminated_rest {property alone : String → String → Prop}
    (same : ∀ before line, property (front ++ segment ++ before) line ↔ alone before line) :
    OnTerminated (front ++ segment) rest property ↔ OnTerminated "" rest alone := by
  simp only [OnTerminated, cut.tokensWithin_rest outside, holdsSemicolon_moved, same,
    String.empty_append]

/-- The lines after a cut end exactly if they end when read alone. -/
theorem linesEnd_rest : LinesEnd (front ++ segment) rest ↔ LinesEnd "" rest := by
  refine onTerminated_rest cut outside fun before line => ?_
  rw [cut.tokensWithin_rest outside, endsInSemicolon_moved, String.empty_append]

/-- The lines after a cut close their comments exactly if they do when read alone. -/
theorem commentsClose_rest : CommentsClose (front ++ segment) rest ↔ CommentsClose "" rest := by
  refine onTerminated_rest cut outside fun before line => ?_
  rw [String.append_assoc, cut.unclosed_rest outside]

end Rest

namespace Interaction

/-- Entering lines has the results, and leaves the context, of running the text collected
so far and the lines as a whole, up to spans. -/
def Agrees (limits : Limits) (interaction : Interaction) (lines : List String) : Prop :=
  let (final, responses) := interaction.enterAll limits lines
  let (context, results) :=
    Session.run limits interaction.context (interaction.pending ++ transcript lines)
  final.context.bare = context.bare ∧
    (responses.flatMap Response.results).map Result.bare = results.map Result.bare

instance (limits : Limits) (interaction : Interaction) (lines : List String) :
    Decidable (interaction.Agrees limits lines) :=
  inferInstanceAs (Decidable (_ ∧ _))

variable {limits : Limits} {context : Named.Context} {pending line : String} {rest : List String}

/-- Entering a line that terminates the pending text runs the text and keeps nothing pending. -/
theorem enter_of_terminated (terminated : hasTerminator (pending ++ (line ++ "\n")) = true) :
    enter limits ⟨context, pending⟩ line =
      (⟨(Session.run limits context (pending ++ (line ++ "\n"))).1, ""⟩,
        ⟨pending ++ (line ++ "\n"),
          (Session.run limits context (pending ++ (line ++ "\n"))).2⟩) := by
  simp only [enter, String.append_assoc, terminated]
  rfl

/-- Entering a line that does not terminate the pending text collects it and runs nothing. -/
theorem enter_of_not_terminated (collects : hasTerminator (pending ++ (line ++ "\n")) = false) :
    enter limits ⟨context, pending⟩ line =
      (⟨context, pending ++ (line ++ "\n")⟩, ⟨"", []⟩) := by
  simp only [enter, String.append_assoc, collects]
  rfl

/-- Collecting a line leaves agreement to the rest of the lines. -/
theorem agrees_cons_of_not_terminated
    (collects : hasTerminator (pending ++ (line ++ "\n")) = false) :
    Agrees limits ⟨context, pending⟩ (line :: rest) ↔
      Agrees limits ⟨context, pending ++ (line ++ "\n")⟩ rest := by
  simp only [Agrees, enterAll, enter_of_not_terminated collects, append_transcript_cons]
  rfl

/-- Where the text is cut into two programs, the lines after the cut are run in the context
that the program before it leaves behind. -/
theorem agrees_cons_of_parse {first second : List Named.Statement}
    (terminated : hasTerminator (pending ++ (line ++ "\n")) = true)
    (parsed : parseProgram (pending ++ (line ++ "\n")) = .ok first)
    (parsedRest : parseProgram (transcript rest) = .ok second) {distance : Nat}
    (parsedWhole : parseProgram (pending ++ (line ++ "\n") ++ transcript rest) =
      .ok (first ++ second.map (Named.Statement.moved distance))) :
    Agrees limits ⟨context, pending⟩ (line :: rest) ↔
      Agrees limits ⟨(Session.execAll limits context first).1, ""⟩ rest := by
  have alike : (second.map (Named.Statement.moved distance)).map Named.Statement.bare =
      second.map Named.Statement.bare := by
    rw [List.map_map]
    exact List.map_congr_left fun statement _ => statement.bare_moved distance
  obtain ⟨contexts, results⟩ := Session.execAll_alike limits
    (Eq.refl (Session.execAll limits context first).1.bare) alike
  simp only [Agrees, enterAll, enter_of_terminated terminated, append_transcript_cons, Session.run,
    parsed, parsedRest, parsedWhole, Session.execAll_append, contexts, String.empty_append,
    List.flatMap_cons, List.map_append, results, List.append_cancel_left_eq]

/-- A comment that is open where lines are run hides the statements on them. -/
theorem not_agrees_of_unclosed {statements : List Named.Statement}
    (terminated : hasTerminator (pending ++ (line ++ "\n")) = true)
    (unclosed : (MaskedText.ofSource (pending ++ (line ++ "\n"))).unclosed ≠ none)
    (parsedWhole : parseProgram (pending ++ (line ++ "\n") ++ transcript rest) = .ok statements) :
    ¬ Agrees limits ⟨context, pending⟩ (line :: rest) := by
  cases parsed : parseProgram (pending ++ (line ++ "\n")) with
  | ok first => exact absurd (EntryPoint.closed_of_parse parsed) unclosed
  | error error =>
      intro agrees
      simp only [Agrees, enterAll, enter_of_terminated terminated, append_transcript_cons,
        Session.run, parsed, parsedWhole, List.flatMap_cons, List.map_append] at agrees
      have member : Result.bare (.error (.parse error)) ∈
          (Session.execAll limits context statements).2.map Result.bare := by
        rw [← agrees.2]
        exact List.mem_append_left _ List.mem_cons_self
      obtain ⟨result, ran, same⟩ := List.mem_map.mp member
      exact (Session.execAll_hasParsed ran).bare error.bare same

/-- Lines agree with their text where their comments close, whatever has been collected. -/
theorem agrees_iff_commentsClose {lines : List String} {statements : List Named.Statement}
    (pendingEnds : EndsLine pending.toList) (collects : hasTerminator pending = false)
    (parsed : parseProgram (pending ++ transcript lines) = .ok statements)
    (linesEnd : LinesEnd pending lines)
    (textEnds : EndsInSemicolon (tokensOf (pending ++ transcript lines))) :
    Agrees limits ⟨context, pending⟩ lines ↔ CommentsClose pending lines := by
  induction lines generalizing context pending statements with
  | nil =>
      rw [append_transcript_nil] at parsed textEnds
      obtain rfl := eq_nil_of_not_hasTerminator parsed collects textEnds
      simp [Agrees, enterAll, append_transcript_nil, Session.run, parsed, Session.execAll,
        CommentsClose, OnTerminated]
  | cons line rest restIH =>
      rw [append_transcript_cons] at parsed textEnds
      have segmentEnds : EndsLine (line ++ "\n").toList := by simp [EndsLine]
      obtain ⟨cut⟩ := Cut.nonempty pendingEnds segmentEnds parsed
      rw [LinesEnd, onTerminated_cons, append_transcript_cons, cut.tokensWithin_eq] at linesEnd
      rw [CommentsClose, onTerminated_cons, cut.tokensWithin_eq]
      by_cases terminated : hasTerminator (pending ++ (line ++ "\n")) = true
      · have holds : HoldsSemicolon cut.segmentTokens :=
          (cut.hasTerminator_iff.mp terminated).resolve_left (by simp [collects])
        by_cases closed : (MaskedText.ofSource (pending ++ (line ++ "\n"))).unclosed = none
        · -- What has been collected is a program, and so are the lines after it.
          have outside := cut.unclosed_eq_none_iff.mp closed
          obtain ⟨first, second, parsedFirst, parsedRest, rfl⟩ :=
            cut.exists_parse outside holds.ne_nil (linesEnd.1 holds)
          rw [agrees_cons_of_parse terminated parsedFirst parsedRest parsed]
          have restTextEnds : EndsInSemicolon (tokensOf (transcript rest)) := by
            rw [cut.tokensOf_eq, cut.restTokens_eq outside] at textEnds
            exact endsInSemicolon_moved.mp textEnds.of_append
          have agreesRest :=
            @restIH (Session.execAll limits context first).1 "" second endsLine_nil rfl
          rw [String.empty_append] at agreesRest
          rw [agreesRest parsedRest ((linesEnd_rest cut outside).mp linesEnd.2) restTextEnds,
            ← commentsClose_rest cut outside]
          exact ⟨fun close => ⟨fun _ => closed, close⟩, And.right⟩
        · -- What has been collected does not parse, and the text does.
          have notAgrees : ¬ Agrees limits ⟨context, pending⟩ (line :: rest) :=
            not_agrees_of_unclosed terminated closed parsed
          exact iff_of_false notAgrees fun close => closed (close.1 holds)
      · -- The line is collected.
        have clear : ¬ HoldsSemicolon cut.segmentTokens := fun holds =>
          terminated (cut.hasTerminator_iff.mpr (.inr holds))
        rw [Bool.not_eq_true] at terminated
        have pendingEnds' : EndsLine (pending ++ (line ++ "\n")).toList := by simp [EndsLine]
        rw [agrees_cons_of_not_terminated terminated,
          restIH pendingEnds' terminated parsed linesEnd.2 textEnds]
        exact ⟨fun close => ⟨fun holds => absurd holds clear, close⟩, And.right⟩

/-- Lines are run as the program that they make up, where their comments close. For lines
that make up a program, with a semicolon at the end of each line that has one and at the end
of the text, entering them agrees with running the text exactly if no comment is open at the
end of a line with a semicolon. -/
theorem lines_run_as_program_iff (limits : Limits) (context : Named.Context) {lines : List String}
    {statements : List Named.Statement} (parsed : parseProgram (transcript lines) = .ok statements)
    (linesEnd : LinesEnd "" lines) (textEnds : EndsInSemicolon (tokensOf (transcript lines))) :
    Agrees limits ⟨context, ""⟩ lines ↔ CommentsClose "" lines := by
  have nothing : "" ++ transcript lines = transcript lines := String.empty_append
  rw [← nothing] at parsed textEnds
  exact agrees_iff_commentsClose endsLine_nil rfl parsed linesEnd textEnds

/-- A statement over two lines, and comments that hide semicolons. -/
def nestedLines : List String :=
  ["Variable A; (* (* ; *) *)", "(* (*;", "*) *) Axiom a:", "A; Print a;"]

/-- Four lines with a comment over two of them meet the conditions and agree with the
program. -/
theorem lines_run_as_program_nested :
    (parseProgram (transcript nestedLines)).isOk = true ∧ LinesEnd "" nestedLines ∧
      EndsInSemicolon (tokensOf (transcript nestedLines)) ∧ CommentsClose "" nestedLines ∧
      Agrees .standard ⟨[], ""⟩ nestedLines := by
  have accepted : (parseProgram (transcript nestedLines)).isOk = true := by decide +kernel
  have linesEnd : LinesEnd "" nestedLines := by decide +kernel
  have textEnds : EndsInSemicolon (tokensOf (transcript nestedLines)) := by decide +kernel
  have close : CommentsClose "" nestedLines := by decide +kernel
  refine ⟨accepted, linesEnd, textEnds, close, ?_⟩
  cases parsed : parseProgram (transcript nestedLines) with
  | ok statements =>
      exact (lines_run_as_program_iff .standard [] parsed linesEnd textEnds).mpr close
  | error => simp [parsed, Except.isOk, Except.toBool] at accepted

/-- A comment that is opened on the line of a statement and closed on the next line. -/
def openCommentLines : List String :=
  ["Variable A; (* comment", "*) Variable B;"]

/-- The statement before an open comment is not run, nor is the one after it. -/
theorem open_comment_loses_statements :
    (parseProgram (transcript openCommentLines)).isOk = true ∧ LinesEnd "" openCommentLines ∧
      EndsInSemicolon (tokensOf (transcript openCommentLines)) ∧
      ¬ Agrees .standard ⟨[], ""⟩ openCommentLines ∧
      (enterAll .standard ⟨[], ""⟩ openCommentLines).1.context = [] ∧
      (Session.run .standard [] (transcript openCommentLines)).1 = [.type "B", .type "A"] := by
  decide +kernel

end Interaction

end PolyLambda
