import DeskCalculator.CommandLine.Listing
import DeskCalculator.CommandLine.Outcome
import DeskCalculator.Session.Basic
import DeskCalculator.Settings

/-!
# Conversations

In a conversation each line of input is answered before the next one is read.  A line with a
colon in front is a command; every other line is a sequence of keys, all of which are pressed
if all are known and none otherwise.  After each line the state is shown, until a line asks to
quit or the input ends.
-/

namespace DeskCalculator

namespace CommandLine

/-- The results that pressing the keys `ks` enters in the ledger, in their order. -/
def results (s : Session) (ks : List Key) : List Text :=
  ((s.press ks).ledger.toList.drop s.ledger.size).map Entry.result

/-- The results that are offered to the clipboard when the keys `ks` are pressed.  A session goes on
whether they are taken or not. -/
def copies (settings : Settings) (s : Session) (ks : List Key) : List Text :=
  if settings.copyResults then results s ks else []

/-- Row numbers are below this bound. -/
def rowBound : Nat := UInt64.size

/-- The row number that `w` is written for, with a plus in front or without. -/
def natural? (w : Text) : Option Nat :=
  let digits := match w with
    | '+' :: t => t
    | t => t
  let n := Nat.ofDigitChars 10 digits 0
  if digits ≠ [] ∧ digits.all Char.isDigit ∧ n < rowBound then some n else none

/-- Brings back the entry that is listed as row `n`. -/
def restore? (s : Session) (n : Nat) : Option Session :=
  if n ≤ s.ledger.size then s.select? (s.ledger.size - n) else none

/-- What a line of input is answered with. -/
structure Answer where
  /-- The session after the line. -/
  session : Session
  /-- The exit code, if the conversation ends. -/
  ending : Option Nat
  output : List Text
  errors : List Text
  /-- The texts that are offered to the clipboard. -/
  offered : List Text

namespace Answer

/-- The answer to a line that asks to quit. -/
def quit (s : Session) : Answer := ⟨s, some 0, [], [], []⟩

/-- The answer to a line that is no text. -/
def unreadable (s : Session) : Answer :=
  ⟨s, some Outcome.failureCode, [],
    Outcome.failureLines "Failed to read from stdin".toList
      ["stream did not contain valid UTF-8".toList], []⟩

/-- An answer that shows some lines and then the state. -/
def showing (s : Session) (lines errors offered : List Text) : Answer :=
  ⟨s, none, lines ++ stateLines s.state, errors, offered⟩

/-- The answer to the command `command`. -/
def toCommand (settings : Settings) (s : Session) (command : Text) : Answer :=
  let unknown := showing s [] ["unknown command: :".toList ++ command] []
  match command.words with
  | [] => unknown
  | name :: operands =>
    if name = "quit".toList ∨ name = ['q'] then quit s
    else if name = "history".toList then showing s (historyLines settings.historyLimit s.ledger) [] []
    else if name = "clear-history".toList then showing (s.act .clearHistory) [] [] []
    else
      match operands with
      | [] => unknown
      | w :: _ =>
        if name = "recall".toList then
          match (natural? w).bind (restore? s) with
          | some t => showing t [] [] []
          | none => showing s [] ["no history entry ".toList ++ w] []
        else unknown

/-- The answer to a sequence of keys. -/
def toKeys (settings : Settings) (s : Session) (t : Text) : Answer :=
  match Key.ofText t with
  | .ok ks => showing (s.press ks) [] [] (copies settings s ks)
  | .error e => showing s [] [e.message] []

/-- The answer to a line that is a text. -/
def toLine (settings : Settings) (s : Session) (line : Text) : Answer :=
  match line.trim with
  | ':' :: command => toCommand settings s command
  | t => toKeys settings s t

/-- The answer to a line, of which only its place is known if it is no text. -/
def toInput (settings : Settings) (s : Session) : Option Text → Answer
  | some line => toLine settings s line
  | none => unreadable s

end Answer

/-- Goes on with a conversation when the lines `lines` are still to be read. -/
def converse (settings : Settings) (s : Session) : List (Option Text) → Session × Outcome
  | [] => (s, .success [])
  | line :: lines =>
    let a := Answer.toInput settings s line
    match a.ending with
    | some code => (a.session, ⟨code, a.output, a.errors, a.offered⟩)
    | none =>
      let (t, o) := converse settings a.session lines
      (t, o.after a.output a.errors a.offered)

/-- The line that some bytes are, if they are a text. -/
def lineOfBytes (bytes : List UInt8) : Option Text :=
  (String.fromUTF8? ⟨bytes.toArray⟩).map String.toList

/-- The lines of some bytes, each of which may not be a text.  A line end behind the last line
starts no further one. -/
def linesOfBytes (bytes : List UInt8) : List (Option Text) :=
  let lines := bytes.splitOnP (· == 10)
  let whole := if lines.getLast? = some [] then lines.dropLast else lines
  whole.map lineOfBytes

end CommandLine

end DeskCalculator
