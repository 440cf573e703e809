import DeskCalculator.CommandLine.Arguments
import DeskCalculator.CommandLine.Clipboard
import DeskCalculator.CommandLine.Conversation
import DeskCalculator.Session.Record

/-!
# Running the program

A run takes the arguments, the files around the program, its input and the clipboard, and gives
an outcome.  The arguments are read first, then the settings are loaded, and then the command is
run.

A value that cannot be copied makes a single evaluation fail, after the value has been written.
In a session it is only logged.
-/

namespace DeskCalculator

namespace CommandLine

/-- What the program can see. -/
structure Surroundings where
  arguments : List Text
  /-- What there is at a path. -/
  placeAt : Text → Place
  /-- The path of the usual settings file, if there is one. -/
  usualPath : Option Text
  /-- The bytes of the standard input. -/
  input : List UInt8
  /-- The clipboard of the desktop. -/
  clipboard : Clipboard := .noDesktop

/-- The name and the version of the program. -/
def versionLine : Text := "zcalc 0.1.0".toList

/-- How the program is used. -/
def usageLines : List Text :=
  ["Usage: zcalc [--config PATH] [COMMAND]".toList,
    [],
    "Commands:".toList,
    "  eval EXPRESSION [--copy]  evaluate one expression".toList,
    "  keys [--json] KEYS...     press keys and show the result".toList,
    "  repl                      read keys line by line (the default)".toList]

/-- What is wrong with the arguments, as a sentence. -/
def Misuse.message : Misuse → Text
  | unexpected a => "unexpected argument ".toList ++ a.quoted
  | repeated name => name ++ " is given more than once".toList
  | missingValue name => name ++ " needs a value".toList
  | missingOperand => "an operand is missing".toList

/-- The outcome of a run that stops before any command. -/
def Stop.outcome : Stop → Outcome
  | help => .success usageLines
  | version => .success [versionLine]
  | misuse m => ⟨Outcome.misuseCode, [], ("error: ".toList ++ m.message) :: [] :: usageLines, []⟩

/-- The outcome of a run whose settings cannot be loaded from `path`. -/
def settingsFailure (path : Text) (e : SettingsError) : Outcome :=
  .failure "Failed to load configuration".toList [e.message path, e.reason]

/-- The outcome of copying the text `t`. -/
def runCopy (clipboard : Clipboard) (t : Text) : Outcome :=
  match clipboard.copy t with
  | .ok () => ⟨0, [], [], [t]⟩
  | .error e => (Outcome.failure e.message [e.reason]).after [] [] [t]

/-- Evaluates an expression, writes its value and copies it if that is wanted. -/
def runEvaluate (clipboard : Clipboard) (settings : Settings) (expression : Text)
    (copy : Bool) : Outcome :=
  let c := Calculation.ofText expression
  match c.outcome with
  | .ok _ =>
    if copy || settings.copyResults then (runCopy clipboard c.display).after [c.display] [] []
    else .success [c.display]
  | .error e =>
    ⟨Outcome.failureCode, [c.display], [c.expression ++ ": ".toList ++ e.message], []⟩

/-- Presses the keys that the words of each text name, one text after the other, up to the first
text with a word that names no key: the texts that are offered to the clipboard, and the session at
the end or what is unknown. -/
def pressTexts (settings : Settings) (s : Session) :
    List Text → List Text × Except UnknownKey Session
  | [] => ([], .ok s)
  | t :: texts =>
    match Key.ofText t with
    | .error e => ([], .error e)
    | .ok ks =>
      let (offered, ending) := pressTexts settings (s.press ks) texts
      (copies settings s ks ++ offered, ending)

/-- The lines that show a session. -/
def sessionLines (settings : Settings) (json : Bool) (s : Session) : List Text :=
  if json then [s.toJson.pretty]
  else stateLines s.state ++ historyLines settings.historyLimit s.ledger

/-- Presses the keys that the words of `texts` name in a new session and shows it, unless a word
names no key. -/
def runPress (settings : Settings) (texts : List Text) (json : Bool) : Outcome :=
  match pressTexts settings .initial texts with
  | (offered, .ok s) => ⟨0, sessionLines settings json s, [], offered⟩
  | (offered, .error e) => (Outcome.failure e.message []).after [] [] offered

/-- Holds a conversation over the lines of the input, in a new session. -/
def runConverse (settings : Settings) (input : List UInt8) : Outcome :=
  (converse settings .initial (linesOfBytes input)).2.after
    (stateLines Session.initial.state) [] []

/-- Runs a command. -/
def Command.run (clipboard : Clipboard) (settings : Settings) (input : List UInt8) :
    Command → Outcome
  | evaluate expression copy => runEvaluate clipboard settings expression copy
  | press texts json => runPress settings texts json
  | converse => runConverse settings input

/-- The path of the settings file for a run, and whether it was asked for. -/
def Invocation.settingsPath (i : Invocation) (usual : Option Text) : Option (Text × Bool) :=
  match i.path with
  | some path => some (path, true)
  | none => usual.map (·, false)

/-- Loads the settings for a run. -/
def loadSettings (placeAt : Text → Place) : Option (Text × Bool) → Except Outcome Settings
  | none => .ok .default
  | some (path, required) => (Settings.load required (placeAt path)).mapError (settingsFailure path)

/-- Runs the program. -/
def run (w : Surroundings) : Outcome :=
  match Invocation.ofArguments w.arguments with
  | .error stop => stop.outcome
  | .ok i =>
    match loadSettings w.placeAt (i.settingsPath w.usualPath) with
    | .error o => o
    | .ok settings => i.command.run w.clipboard settings w.input

end CommandLine

end DeskCalculator
