import DeskCalculator.Text.Blank

/-!
# JSON text

A small type of JSON values with two ways to write them: `Json.compact` without any blanks,
and `Json.pretty` with one member to a line, indented by two spaces a level.
-/

namespace DeskCalculator

/-- A JSON value, as far as it is needed here. -/
inductive Json where
  | string (t : Text)
  | bool (b : Bool)
  | list (items : List Json)
  | object (members : List (Text × Json))

namespace Json

/-- How the character `c` is written in a string: quotes, backslashes and control characters
are escaped, the latter by a letter if they have one. -/
def stringChar (c : Char) : Text :=
  match c with
  | '"' => ['\\', '"']
  | '\\' => ['\\', '\\']
  | '\x08' => ['\\', 'b']
  | '\x0c' => ['\\', 'f']
  | '\n' => ['\\', 'n']
  | '\r' => ['\\', 'r']
  | '\t' => ['\\', 't']
  | c =>
    if c.toNat < 0x20 then
      "\\u00".toList ++ [(c.toNat / 16).digitChar, (c.toNat % 16).digitChar]
    else [c]

/-- A string as it is written. -/
def stringText (t : Text) : Text :=
  '"' :: t.flatMap stringChar ++ ['"']

/-- A truth value as it is written. -/
def boolText (b : Bool) : Text :=
  if b then "true".toList else "false".toList

/-- Writes `parts` between two brackets, with commas between them. -/
def enclose (first last : Char) (parts : List Text) : Text :=
  first :: [','].intercalate parts ++ [last]

/-- A line end and the indentation of the given level. -/
def newLine (level : Nat) : Text :=
  '\n' :: List.replicate (2 * level) ' '

/-- Writes `parts` between two brackets, each on a line of its own. -/
def encloseLines (level : Nat) (first last : Char) (parts : List Text) : Text :=
  if parts = [] then [first, last]
  else
    first :: [','].intercalate (parts.map (newLine (level + 1) ++ ·)) ++ newLine level ++ [last]

mutual

/-- The value written without blanks. -/
def compact : Json → Text
  | string t => stringText t
  | bool b => boolText b
  | list items => enclose '[' ']' (compactItems items)
  | object members => enclose '\x7b' '\x7d' (compactMembers members)

/-- The items of a list written without blanks. -/
def compactItems : List Json → List Text
  | [] => []
  | j :: js => j.compact :: compactItems js

/-- The members of an object written without blanks. -/
def compactMembers : List (Text × Json) → List Text
  | [] => []
  | (name, j) :: ms => (stringText name ++ ':' :: j.compact) :: compactMembers ms

end

mutual

/-- The value written over several lines, the first of which is already indented. -/
def prettyAt (level : Nat) : Json → Text
  | string t => stringText t
  | bool b => boolText b
  | list items => encloseLines level '[' ']' (prettyItems (level + 1) items)
  | object members => encloseLines level '\x7b' '\x7d' (prettyMembers (level + 1) members)

/-- The items of a list, each written over several lines. -/
def prettyItems (level : Nat) : List Json → List Text
  | [] => []
  | j :: js => prettyAt level j :: prettyItems level js

/-- The members of an object, each written over several lines. -/
def prettyMembers (level : Nat) : List (Text × Json) → List Text
  | [] => []
  | (name, j) :: ms =>
    (stringText name ++ ':' :: ' ' :: prettyAt level j) :: prettyMembers level ms

end

/-- The value written over several lines. -/
def pretty (j : Json) : Text :=
  prettyAt 0 j

end Json

end DeskCalculator
