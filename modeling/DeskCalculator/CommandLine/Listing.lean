import DeskCalculator.Session.Ledger
import DeskCalculator.Session.State

/-!
# Listings

How the state and the history are shown on a terminal.  The state takes two lines, the
expression and the display.  The history takes one line for each entry, newest first, with a
number in front that starts at one.
-/

namespace DeskCalculator

namespace CommandLine

/-- The lines that show the state. -/
def stateLines (s : State) : List Text :=
  [' ' :: ' ' :: s.expression, '=' :: ' ' :: s.display]

/-- A number, at least three characters wide. -/
def rowNumber (n : Nat) : Text :=
  let digits := Nat.toDigits 10 n
  List.replicate (3 - digits.length) ' ' ++ digits

/-- The line that shows an entry as row `n`. -/
def row (n : Nat) (e : Entry) : Text :=
  rowNumber n ++ ". ".toList ++ e.expression ++ " = ".toList ++ e.result

/-- The lines that show up to `limit` entries of the history. -/
def historyLines (limit : Nat) (l : Ledger) : List Text :=
  if l.isEmpty then ["No calculation history".toList]
  else (l.recent limit).mapIdx fun i e => row (i + 1) e

end CommandLine

end DeskCalculator
