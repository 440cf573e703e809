import DeskCalculator.CommandLine.Run

/-!
# The program

The program on a terminal: it reads the arguments, the settings file and the input, and
writes what a run leaves behind.  In a conversation each answer is written before the next
line is read.  There is no desktop whose clipboard it could reach, and it writes no log.
-/

open DeskCalculator CommandLine

namespace DeskCalculator

namespace CommandLine

/-- Looks what there is at a path. -/
def placeAt (path : Text) : IO Place := do
  try
    let bytes ← IO.FS.readBinFile (String.ofList path)
    match lineOfBytes bytes.toList with
    | some t => return .file t
    | none => return .unreadable "stream did not contain valid UTF-8".toList
  catch
    | .noFileOrDirectory .. => return .nothing
    | .inappropriateType .. => return .directory
    | e => return .unreadable (toString e).toList

/-- Writes lines to the standard output and to the standard error. -/
def write (output errors : List Text) : IO Unit := do
  let out ← IO.getStdout
  out.putStr (String.ofList (textOfLines output))
  out.flush
  (← IO.getStderr).putStr (String.ofList (textOfLines errors))

/-- Reads the bytes up to the next line end, or to the end of the input. -/
partial def readLine (input : IO.FS.Stream) (read : List UInt8) : IO (Option (List UInt8)) := do
  match (← input.read 1).toList with
  | [] => return if read.isEmpty then none else some read.reverse
  | b :: _ => if b = 10 then return some read.reverse else readLine input (b :: read)

/-- Answers the lines of the input one by one. -/
partial def answerLines (settings : Settings) (s : Session) (input : IO.FS.Stream) : IO UInt32 := do
  match ← readLine input [] with
  | none => return 0
  | some bytes =>
    let a := Answer.toInput settings s (lineOfBytes bytes)
    write a.output a.errors
    match a.ending with
    | some code => return UInt32.ofNat code
    | none => answerLines settings a.session input

/-- Writes what a run leaves behind, and gives its exit code. -/
def finish (o : Outcome) : IO UInt32 := do
  write o.output o.errors
  return UInt32.ofNat o.code

/-- Loads the settings and runs a command. -/
def perform (i : Invocation) : IO UInt32 := do
  let usual := Settings.usualPath? ((← IO.getEnv "XDG_CONFIG_HOME").map String.toList)
    ((← IO.getEnv "HOME").map String.toList)
  let path := i.settingsPath usual
  let place ← match path with
    | some (p, _) => placeAt p
    | none => pure .nothing
  match loadSettings (fun _ => place) path with
  | .error o => finish o
  | .ok settings =>
    match i.command with
    | .converse =>
      write (stateLines Session.initial.state) []
      answerLines settings .initial (← IO.getStdin)
    | command => finish (command.run .noDesktop settings [])

end CommandLine

end DeskCalculator

/-- Runs the program with the given arguments. -/
def main (arguments : List String) : IO UInt32 :=
  match Invocation.ofArguments (arguments.map String.toList) with
  | .error stop => finish stop.outcome
  | .ok i => perform i
