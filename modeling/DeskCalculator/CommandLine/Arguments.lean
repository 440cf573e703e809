import DeskCalculator.Text.Blank

/-!
# Arguments

The arguments of a command line name a command with its operands and switches, and may give
the path of a settings file:

    eval EXPRESSION [--copy]
    keys [--json] KEYS...
    repl

Without a command a conversation is held.  Arguments are read from left to right, first those
in front of the command and then those behind it, and `Level` says what each of the two
admits.  An operand may start with a hyphen, as long as one is wanted and the argument is no
switch.  From the first operand of `keys` on everything is an operand, and so it is behind
`--` everywhere.
-/

namespace DeskCalculator

namespace CommandLine

/-- What is wrong with the arguments. -/
inductive Misuse where
  /-- An argument that nothing is known about, or one too many. -/
  | unexpected (argument : Text)
  /-- A switch that occurs twice. -/
  | repeated (name : Text)
  /-- A switch without the value that it needs. -/
  | missingValue (name : Text)
  /-- A command without its operand. -/
  | missingOperand
deriving DecidableEq, Repr

/-- Why no command is run. -/
inductive Stop where
  /-- Help is asked for. -/
  | help
  /-- The version is asked for. -/
  | version
  | misuse (m : Misuse)
deriving DecidableEq, Repr

/-! ### Single arguments -/

/-- The forms of an argument. -/
inductive Argument where
  /-- A name behind two hyphens, with the value behind `=` if there is one. -/
  | long (name : Text) (value : Option Text)
  /-- Letters behind a single hyphen, at least one. -/
  | letters (first : Char) (others : Text)
  | plain

namespace Argument

/-- The form of the argument `a`. -/
def ofText : Text → Argument
  | '-' :: '-' :: t =>
    match t.dropWhile (· ≠ '=') with
    | _ :: value => long (t.takeWhile (· ≠ '=')) (some value)
    | [] => long t none
  | '-' :: c :: t => letters c t
  | _ => plain

end Argument

/-! ### Levels -/

/-- The switches. -/
inductive Switch where
  | help
  | version
  /-- The switch of the command itself. -/
  | own
  /-- The path of a settings file. -/
  | config
deriving DecidableEq, Repr

/-- How many operands are admitted. -/
inductive Operands where
  | none
  | one
  /-- At least one. -/
  | several
  /-- The name of a command, behind which the next level starts. -/
  | command
deriving DecidableEq, Repr

/-- What may stand at one level of the arguments. -/
structure Level where
  operands : Operands
  /-- The name of the switch of its own, if it has one. -/
  ownSwitch : Option Text
  /-- Whether the version may be asked for. -/
  hasVersion : Bool

namespace Level

/-- The level in front of the command. -/
def root : Level := ⟨.command, none, true⟩

/-- The switch with the given name behind two hyphens. -/
def long? (l : Level) (name : Text) : Option Switch :=
  if name = "help".toList then some .help
  else if name = "config".toList then some .config
  else if name = "version".toList ∧ l.hasVersion then some .version
  else if some name = l.ownSwitch then some .own
  else none

/-- The switch with the given letter behind a single hyphen. -/
def letter? (l : Level) (c : Char) : Option Switch :=
  if c = 'h' then some .help
  else if c = 'V' ∧ l.hasVersion then some .version
  else none

end Level

/-- What has been read at one level. -/
structure Progress where
  /-- Whether the path of the settings file comes next. -/
  wantsPath : Bool
  /-- Whether the level's own switch has occurred. -/
  own : Bool
  path : Option Text
  operands : List Text

namespace Progress

/-- Nothing has been read. -/
def initial : Progress := ⟨false, false, none, []⟩

/-- Whether another operand is wanted, so that it may start with a hyphen. -/
def wantsOperand (l : Level) (p : Progress) : Bool :=
  match l.operands with
  | .one => p.operands.isEmpty
  | .several => true
  | .none | .command => false

/-- Whether only operands are left: several are admitted, and the first has been read. -/
def hasOperandsOnly (l : Level) (p : Progress) : Bool :=
  l.operands = .several && !p.operands.isEmpty

/-- Whether an argument that starts with a hyphen is nevertheless no switch: an operand is
wanted, and there is no such switch. -/
def isHyphenOperand (l : Level) (p : Progress) : Argument → Bool
  | .long name _ => p.wantsOperand l && (l.long? name).isNone
  | .letters c cs => p.wantsOperand l && (c :: cs).any fun d => (l.letter? d).isNone
  | .plain => false

/-- Takes the argument `a` as the path of the settings file. -/
def takePath (p : Progress) (a : Text) : Except Stop Progress :=
  if a = [] then .error (.misuse (.missingValue "--config".toList))
  else .ok { p with wantsPath := false, path := some a }

/-- Takes the argument `a` as an operand. -/
def takeOperand (l : Level) (p : Progress) (a : Text) : Except Stop Progress :=
  if p.wantsOperand l then .ok { p with operands := p.operands ++ [a] }
  else .error (.misuse (.unexpected a))

/-- Takes a switch, with the value that is attached to it. -/
def takeSwitch (p : Progress) (a : Text) (value : Option Text) : Switch → Except Stop Progress
  | .help => .error (if value.isSome then .misuse (.unexpected a) else .help)
  | .version => .error (if value.isSome then .misuse (.unexpected a) else .version)
  | .own =>
    if value.isSome then .error (.misuse (.unexpected a))
    else if p.own then .error (.misuse (.repeated a))
    else .ok { p with own := true }
  | .config =>
    if p.path.isSome then .error (.misuse (.repeated "--config".toList))
    else
      match value with
      | some path => p.takePath path
      | none => .ok { p with wantsPath := true }

/-- Takes the argument `a`, in front of any `--`. -/
def take (l : Level) (p : Progress) (a : Text) : Except Stop Progress :=
  let form := Argument.ofText a
  if p.wantsPath then
    match form with
    | .plain => p.takePath a
    | form =>
      if p.isHyphenOperand l form then p.takePath a
      else .error (.misuse (.missingValue "--config".toList))
  else if p.hasOperandsOnly l || p.isHyphenOperand l form then p.takeOperand l a
  else
    match form with
    | .plain => p.takeOperand l a
    | .long name value =>
      match l.long? name with
      | some s => p.takeSwitch a value s
      | none => .error (.misuse (.unexpected a))
    | .letters c _ =>
      match l.letter? c with
      | some s => p.takeSwitch a none s
      | none => .error (.misuse (.unexpected a))

/-- Reads the arguments of one level.  At the level in front of the command, the arguments from
the command on are left. -/
def read (l : Level) (p : Progress) : List Text → Except Stop (Progress × List Text)
  | [] =>
    if p.wantsPath then .error (.misuse (.missingValue "--config".toList)) else .ok (p, [])
  | a :: rest =>
    if a = ['-', '-'] ∧ !p.hasOperandsOnly l then
      if p.wantsPath then .error (.misuse (.missingValue "--config".toList))
      else do return (← rest.foldlM (takeOperand l) p, [])
    else
      match l.operands, p.wantsPath, Argument.ofText a with
      | .command, false, .plain => .ok (p, a :: rest)
      | _, _, _ => do read l (← p.take l a) rest

end Progress

/-! ### Commands -/

/-- What the program can be told to do. -/
inductive Command where
  /-- Evaluates an expression, and copies its value if asked to. -/
  | evaluate (expression : Text) (copy : Bool)
  /-- Presses the keys that the words of some texts name, and prints the session as JSON if
  asked to. -/
  | press (texts : List Text) (json : Bool)
  /-- Holds a conversation. -/
  | converse
deriving DecidableEq, Repr

/-- A command, with the path of the settings file if one is given. -/
structure Invocation where
  command : Command
  path : Option Text
deriving DecidableEq, Repr

namespace Command

/-- The level behind the command with the given name. -/
def level? (name : Text) : Option Level :=
  if name = "eval".toList then some ⟨.one, some "copy".toList, false⟩
  else if name = "keys".toList then some ⟨.several, some "json".toList, false⟩
  else if name = "repl".toList then some ⟨.none, none, false⟩
  else none

/-- The command whose level has been read. -/
def ofProgress (l : Level) (p : Progress) : Except Stop Command :=
  match l.operands, p.operands with
  | .one, [expression] => .ok (.evaluate expression p.own)
  | .several, t :: ts => .ok (.press (t :: ts) p.own)
  | .none, [] => .ok .converse
  | _, _ => .error (.misuse .missingOperand)

/-- Whether help can be asked for about the given names. -/
def isHelpTopic : List Text → Bool
  | [] => true
  | [name] => name = "help".toList || (level? name).isSome
  | _ => false

end Command

/-- What the arguments ask for.  The path of a settings file counts more behind the command than
in front of it. -/
def Invocation.ofArguments (arguments : List Text) : Except Stop Invocation := do
  match ← Progress.initial.read .root arguments with
  | (front, []) => return ⟨.converse, front.path⟩
  | (front, name :: rest) =>
    if name = "help".toList then
      throw (if Command.isHelpTopic rest then .help else .misuse (.unexpected name))
    match Command.level? name with
    | none => throw (.misuse (.unexpected name))
    | some l =>
      let (back, _) ← Progress.initial.read l rest
      return ⟨← Command.ofProgress l back, back.path.or front.path⟩

end CommandLine

end DeskCalculator
