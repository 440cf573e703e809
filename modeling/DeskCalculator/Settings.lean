import DeskCalculator.Toml.Document

/-!
# Settings

What a user can set is how many entries of the history are listed, whether results are copied
to the clipboard, and how much is logged.  Settings are read from a TOML document that gives
some of them, each at most once and nothing else; the others keep their defaults.

A settings file that was asked for by name has to exist.  The one at the usual place may be
missing.
-/

namespace DeskCalculator

/-- What a user can set. -/
structure Settings where
  /-- How many entries of the history are listed. -/
  historyLimit : Nat
  /-- Whether each successful result is copied to the clipboard. -/
  copyResults : Bool
  /-- What is logged. -/
  logLevel : Text
deriving DecidableEq, Repr

namespace Settings

/-- The settings without a file. -/
def default : Settings := ⟨10, false, "warn".toList⟩

/-- The history limit is below this bound. -/
def limitBound : Nat := UInt64.size

/-- The settings with one of them changed as the entry says, if the entry names a setting and
has a value of its kind. -/
def change (s : Settings) (key : Text) (v : Toml.Value) : Option Settings :=
  if key = "history_display_limit".toList then
    match v with
    | .integer n =>
      if 0 ≤ n ∧ n < limitBound then some { s with historyLimit := n.toNat } else none
    | _ => none
  else if key = "copy_on_equals".toList then
    match v with
    | .boolean b => some { s with copyResults := b }
    | _ => none
  else if key = "log_level".toList then
    match v with
    | .string t => some { s with logLevel := t }
    | _ => none
  else none

/-- The settings that the entries of a document make, if no key occurs twice. -/
def ofEntries? (entries : List (Text × Toml.Value)) : Option Settings :=
  if (entries.map Prod.fst).Nodup then
    entries.foldlM (fun s (key, v) => s.change key v) default
  else none

/-- The settings that the text of a file makes. -/
def ofText? (t : Text) : Option Settings :=
  (Toml.entries? t).bind ofEntries?

end Settings

/-! ### Files -/

/-- What there is at a place where a settings file is looked for. -/
inductive Place where
  /-- A file with this text. -/
  | file (t : Text)
  | directory
  | nothing
  /-- Something that cannot be read, for the given reason. -/
  | unreadable (reason : Text)
deriving DecidableEq, Repr

/-- Why settings cannot be loaded. -/
inductive SettingsError where
  /-- There is no text at the place, for the given reason. -/
  | unreadable (reason : Text)
  /-- The text is no document with settings. -/
  | malformed
deriving DecidableEq, Repr

namespace SettingsError

/-- The error as a sentence about the file `path`. -/
def message (path : Text) : SettingsError → Text
  | unreadable _ => "failed to read config file ".toList ++ path
  | malformed => "failed to parse config file ".toList ++ path

/-- The reason for the error. -/
def reason : SettingsError → Text
  | unreadable reason => reason
  | malformed => "TOML parse error".toList

end SettingsError

namespace Settings

/-- The settings that are found at a place.  Where nothing is found the defaults are taken,
unless the place was asked for. -/
def load (required : Bool) : Place → Except SettingsError Settings
  | .file t =>
    match ofText? t with
    | some s => .ok s
    | none => .error .malformed
  | .directory => .error (.unreadable "Is a directory (os error 21)".toList)
  | .nothing =>
    if required then .error (.unreadable "No such file or directory (os error 2)".toList)
    else .ok default
  | .unreadable reason => .error (.unreadable reason)

/-- The path of the usual settings file, which lies in the user's configuration directory.
That directory is given by itself, as an absolute path, or lies in the home directory. -/
def usualPath? (configuration home : Option Text) : Option Text :=
  let directory :=
    (configuration.filter fun p => p.head? = some '/').or
      (home.map fun p => p ++ "/.config".toList)
  directory.map fun p => p ++ "/zcalc/config.toml".toList

end Settings

end DeskCalculator
