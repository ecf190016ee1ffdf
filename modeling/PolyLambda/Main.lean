import PolyLambda.CommandLine

/-!
# The program

Reading the standard input and writing the output of the command line. Interactive
sessions answer line by line; other calls read all of the input first.
-/

namespace PolyLambda.Program

/-- Reads a stream to its end. -/
partial def readAll (stream : IO.FS.Stream) (bytes : ByteArray) : IO ByteArray := do
  let chunk ← stream.read 65536
  if chunk.isEmpty then
    return bytes
  readAll stream (bytes ++ chunk)

/-- Reads a line with its line end; nothing is left when it is empty. -/
partial def readLine (stream : IO.FS.Stream) (bytes : Array UInt8) : IO (Array UInt8) := do
  let chunk ← stream.read 1
  match chunk.data[0]? with
  | none => return bytes
  | some byte => if byte == 10 then return bytes.push byte else readLine stream (bytes.push byte)

/-- Runs an interactive session until the input ends. -/
partial def interactLoop (limits : Limits) (interaction : Interaction)
    (input output : IO.FS.Stream) : IO UInt32 := do
  output.putStr interaction.prompt
  output.flush
  let line ← readLine input #[]
  if line.isEmpty then
    output.putStr "\n"
    return 0
  match CommandLine.textOf? line.toList with
  | none =>
    IO.eprint CommandLine.unreadable
    return 1
  | some line =>
    let (next, response) := interaction.enter limits (CommandLine.withoutLineEnd line)
    output.putStr response.text
    interactLoop limits next input output

end PolyLambda.Program

open PolyLambda in
/-- Calls the program with the arguments of the command line. -/
def main (arguments : List String) : IO UInt32 := do
  let input ← IO.getStdin
  match CommandLine.task? arguments with
  | none => return 2
  | some .interact => Program.interactLoop .standard .initial input (← IO.getStdout)
  | some task =>
    let bytes ← Program.readAll input ByteArray.empty
    let completion := task.perform .standard bytes.toList
    IO.print completion.output
    IO.eprint completion.errorOutput
    return completion.exitCode.toUInt32
