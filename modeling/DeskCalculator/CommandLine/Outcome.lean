import DeskCalculator.Text.Blank

/-!
# Outcomes

What a run of the program leaves behind: an exit code, the lines written to the standard
output and to the standard error, and the texts that were to be copied.

The log is left out.  Its lines go to the standard error as well, each with the time; at the usual
level they report, in a session, a computation that fails and a text that is not copied.
-/

namespace DeskCalculator

namespace CommandLine

/-- What a run leaves behind. -/
structure Outcome where
  code : Nat
  /-- The lines of the standard output. -/
  output : List Text
  /-- The lines of the standard error that are not of the log. -/
  errors : List Text
  /-- The texts that were to be copied to the clipboard, whether it took them or not. -/
  offered : List Text
deriving DecidableEq, Repr

/-- The text of some lines, each with its line end. -/
def textOfLines (lines : List Text) : Text :=
  lines.flatMap fun l => l ++ ['\n']

namespace Outcome

/-- The exit code of a run that fails. -/
def failureCode : Nat := 1

/-- The exit code of a run whose arguments are not understood. -/
def misuseCode : Nat := 2

/-- A run that succeeds with the given output. -/
def success (output : List Text) : Outcome := ⟨0, output, [], []⟩

/-- The lines that report a failure and its causes, the outermost first.  Several causes are
numbered. -/
def failureLines (message : Text) (causes : List Text) : List Text :=
  ("Error: ".toList ++ message) ::
    match causes with
    | [] => []
    | [cause] => [[], "Caused by:".toList, "    ".toList ++ cause]
    | causes =>
      [] :: "Caused by:".toList ::
        causes.mapIdx fun i cause =>
          "    ".toList ++ Nat.toDigits 10 i ++ ": ".toList ++ cause

/-- A run that fails. -/
def failure (message : Text) (causes : List Text) : Outcome :=
  ⟨failureCode, [], failureLines message causes, []⟩

/-- A run with more of everything in front of it. -/
def after (output errors offered : List Text) (o : Outcome) : Outcome :=
  ⟨o.code, output ++ o.output, errors ++ o.errors, offered ++ o.offered⟩

end Outcome

end CommandLine

end DeskCalculator
