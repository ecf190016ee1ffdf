import PolyLambda.Session.Interaction

/-!
# The command line

The program reads its standard input and is called in one of three ways: to run a
source text, to show how it parses, or to run an interactive session. All of it is
a function from arguments and input to output; only reading and writing happen
elsewhere.
-/

namespace PolyLambda.CommandLine

/-- What the program is asked to do. -/
inductive Task
  /-- Show how the input parses. -/
  | parse
  /-- Run the input. -/
  | run
  /-- Run an interactive session. -/
  | interact
deriving DecidableEq

/-- The option that asks for diagnostics without colours. -/
def plainOption : String :=
  "--plain"

/-- Some arguments without the option, which may be given once. -/
def withoutOption (arguments : List String) : Option (List String) :=
  if arguments.count plainOption ≤ 1 then
    some (arguments.erase plainOption)
  else
    none

/-- The task that a subcommand and its own arguments ask for. The standard input
may be named by a dash. -/
def taskOf? : String → List String → Option Task
  | "parse", [] | "parse", ["-"] => some .parse
  | "run", [] | "run", ["-"] => some .run
  | "repl", [] => some .interact
  | _, _ => none

/-- The task that a list of arguments asks for. The option may stand before the
subcommand and after it. -/
def task? (arguments : List String) : Option Task :=
  let arguments := match arguments with
    | first :: rest => if first = plainOption then rest else arguments
    | [] => []
  match arguments with
  | subcommand :: rest => do taskOf? subcommand (← withoutOption rest)
  | [] => none

/-- What a call of the program leaves behind. -/
structure Completion where
  exitCode : Nat
  output : String
  errorOutput : String
deriving DecidableEq

/-- The name of the standard input. -/
def standardInput : String :=
  "\"-\""

/-- What is said about input that is not text. -/
def unreadable : String :=
  "failed to read input:\nstream did not contain valid UTF-8\n"

/-- The completion of a call that shows how its input parses. -/
def showParse (source : String) : Completion :=
  match Grammar.parseProgram source with
  | .ok statements => ⟨0, (Named.dumpProgram statements).blockText ++ "\n", ""⟩
  | .error error =>
    ⟨0, Result.text (.error (.parse error)) source standardInput ++ "\n", ""⟩

/-- The completion of a call that runs its input. -/
def runInput (limits : Limits) (source : String) : Completion :=
  let (_, results) := Session.run limits [] source
  let texts := results.map fun result => result.text source standardInput ++ "\n"
  ⟨0, String.join texts, ""⟩

/-- A line without its line end, which is a newline that a carriage return may
precede. -/
def withoutLineEnd (line : String) : String :=
  match line.toList.reverse with
  | '\n' :: '\r' :: rest => String.ofList rest.reverse
  | '\n' :: rest => String.ofList rest.reverse
  | _ => line

/-- The completion of an interactive session that is given lines, each with its
line end and `none` if it is not text. -/
def interact (limits : Limits) (interaction : Interaction) : List (Option String) → Completion
  | [] => ⟨0, interaction.prompt ++ "\n", ""⟩
  | none :: _ => ⟨1, interaction.prompt, unreadable⟩
  | some line :: rest =>
    let (next, response) := interaction.enter limits (withoutLineEnd line)
    let later := interact limits next rest
    { later with output := interaction.prompt ++ response.text ++ later.output }

/-- The lines of some bytes, each with the newline that ends it. -/
def byteLines : List UInt8 → List (List UInt8)
  | [] => []
  | byte :: rest =>
    match byte == 10, byteLines rest with
    | true, lines => [byte] :: lines
    | false, [] => [[byte]]
    | false, line :: lines => (byte :: line) :: lines

/-- The text that some bytes encode. -/
def textOf? (bytes : List UInt8) : Option String :=
  String.fromUTF8? ⟨bytes.toArray⟩

/-- The completion of a call on input that has to be text. -/
def onText (input : List UInt8) (complete : String → Completion) : Completion :=
  match textOf? input with
  | some source => complete source
  | none => ⟨1, "", unreadable⟩

/-- Carries out a task on the bytes of the standard input. -/
def Task.perform (task : Task) (limits : Limits) (input : List UInt8) : Completion :=
  match task with
  | .parse => onText input showParse
  | .run => onText input (runInput limits)
  | .interact => CommandLine.interact limits .initial ((byteLines input).map textOf?)

/-- Calls the program. Arguments that ask for no task end it with code 2. -/
def call (limits : Limits) (arguments : List String) (input : List UInt8) : Completion :=
  match task? arguments with
  | some task => task.perform limits input
  | none => ⟨2, "", ""⟩

end PolyLambda.CommandLine
