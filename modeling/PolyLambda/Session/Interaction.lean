import PolyLambda.Session.Execution
import PolyLambda.Source.Comment

/-!
# Interaction

In an interactive session lines are collected until a semicolon outside comments
has been entered; then everything collected is run as one source text.
-/

namespace PolyLambda

/-- An interactive session: the context reached, and the lines not yet run. -/
structure Interaction where
  context : Named.Context
  pending : String

/-- What a line gives rise to: the source text that was run, if any, and its
results. -/
structure Response where
  source : String
  results : List Result

namespace Interaction

/-- The session in which nothing has been entered. -/
def initial : Interaction :=
  ⟨[], ""⟩

/-- What invites the next line: another sign if the line continues earlier ones. -/
def prompt (interaction : Interaction) : String :=
  if interaction.pending.isEmpty then "> " else "| "

/-- Takes in a line, given without its line end. -/
def enter (limits : Limits) (interaction : Interaction) (line : String) :
    Interaction × Response :=
  let pending := interaction.pending ++ line ++ "\n"
  if Source.hasTerminator pending then
    let (context, results) := Session.run limits interaction.context pending
    (⟨context, ""⟩, ⟨pending, results⟩)
  else
    (⟨interaction.context, pending⟩, ⟨"", []⟩)

/-- Takes in lines one after another. -/
def enterAll (limits : Limits) (interaction : Interaction) :
    List String → Interaction × List Response
  | [] => (interaction, [])
  | line :: rest =>
    let (next, response) := interaction.enter limits line
    let (final, responses) := next.enterAll limits rest
    (final, response :: responses)

end Interaction

/-- The name of what is entered in an interactive session. -/
def interactionOrigin : String :=
  "<repl>"

/-- How a response is announced, each result on lines of its own. -/
def Response.text (response : Response) : String :=
  String.join (response.results.map fun result =>
    result.text response.source interactionOrigin ++ "\n")

end PolyLambda
