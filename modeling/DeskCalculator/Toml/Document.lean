import DeskCalculator.Toml.Literal

/-!
# TOML documents

A document is a sequence of lines: blank ones, comments, and entries of the form
`key = value`.  `Toml.entries?` lists the entries of a document.  It knows only what settings
need, so that tables, keys of several parts and values of other kinds are refused.
-/

namespace DeskCalculator

namespace Toml

/-- Whether `c` may stand in a key without quotes. -/
def isKeyPart (c : Char) : Bool :=
  c.isAlphanum || c == '_' || c == '-'

/-- Reads a key, which may be quoted. -/
def key? : Text → Option (Text × Text)
  | '"' :: t => basic t
  | '\'' :: t => literal t
  | t => if t.takeWhile isKeyPart = [] then none
    else some (t.takeWhile isKeyPart, t.dropWhile isKeyPart)

/-- Reads the rest of a line behind its entry, which is blank or a comment. -/
def lineRest? (t : Text) : Option Text :=
  let comment := t.dropWhile isSpace
  let rest := if comment.head? = some '#' then comment.dropWhile isAllowed else comment
  if rest = [] then some [] else lineEnd? rest

/-- Reads an entry to the end of its line. -/
def pair? (t : Text) : Option ((Text × Value) × Text) := do
  let (key, t) ← key? t
  match t.dropWhile isSpace with
  | '=' :: t =>
    let (value, t) ← value? (t.dropWhile isSpace)
    return ((key, value), ← lineRest? t)
  | _ => none

/-- Reads a line: its entry, if it has one, and the lines behind it. -/
def line? (t : Text) : Option (Option (Text × Value) × Text) :=
  match lineRest? t with
  | some rest => some (none, rest)
  | none => (pair? (t.dropWhile isSpace)).map fun (e, rest) => (some e, rest)

/-- The entries of the lines of `t`.  Every line is at least one character long. -/
def lines? (t : Text) : Option (List (Text × Value)) :=
  if t = [] then some []
  else
    match line? t with
    | some (e, rest) =>
      if rest.length < t.length then (lines? rest).map (e.toList ++ ·) else none
    | none => none
termination_by t.length

/-- The entries of a document, in their order.  A byte order mark at the very start does not
belong to the document. -/
def entries? : Text → Option (List (Text × Value))
  | '\ufeff' :: t => lines? t
  | t => lines? t

end Toml

end DeskCalculator
