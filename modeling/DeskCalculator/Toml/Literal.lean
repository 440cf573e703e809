import DeskCalculator.Number.Numeral

/-!
# TOML values

The values that settings have are strings, integers and truth values.  A string stands in
double quotes, with escapes, or in single quotes, without them; between three quotes of one
kind it may go over several lines.  An integer is written in base ten with an optional sign,
or in base sixteen, eight or two behind `0x`, `0o` or `0b`, and may have an underscore between
any two of its digits.

Each reader returns what it has read and the text behind it.
-/

namespace DeskCalculator

namespace Toml

/-- A value, of the kinds that settings have. -/
inductive Value where
  | string (t : Text)
  | integer (n : Int)
  | boolean (b : Bool)
deriving DecidableEq, Repr

/-! ### Characters -/

/-- Whether `c` separates words within a line. -/
def isSpace (c : Char) : Bool :=
  c == ' ' || c == '\t'

/-- Whether `c` may stand in a string or a comment: every character but the control
characters other than the tab. -/
def isAllowed (c : Char) : Bool :=
  c == '\t' || 0x20 ≤ c.toNat && c.toNat != 0x7f

/-- The text behind a line end. -/
def lineEnd? : Text → Option Text
  | '\n' :: t => some t
  | '\r' :: '\n' :: t => some t
  | _ => none

/-! ### Integers -/

/-- The digit that `c` is in the given base, in either letter case. -/
def digit? (base : Nat) (c : Char) : Option Nat :=
  (List.range base).find? fun d => d.digitChar == c.toLower

/-- The number that the digits `t` make, of which there is at least one. -/
def natural? (base : Nat) (t : Text) : Option Nat :=
  if t = [] then none
  else t.foldlM (fun n c => (digit? base c).map (base * n + ·)) 0

/-- The number that the digits `t` make, where an underscore may stand between two digits. -/
def separated? (base : Nat) (t : Text) : Option Nat :=
  if (t.splitOnP (· == '_')).all (· ≠ []) then natural? base (t.filter (· ≠ '_')) else none

/-- The integer that `t` is.  Only in base ten there may be a sign, and there may be no zero
in front of other digits. -/
def integer? : Text → Option Int
  | '0' :: 'x' :: t => (separated? 16 t).map Int.ofNat
  | '0' :: 'o' :: t => (separated? 8 t).map Int.ofNat
  | '0' :: 'b' :: t => (separated? 2 t).map Int.ofNat
  | t =>
    let (negative, digits) := Numeral.splitSign t
    if 1 < digits.length ∧ digits.head? = some '0' then none
    else (separated? 10 digits).map fun n => if negative then -(n : Int) else n

/-! ### Strings -/

/-- The character whose code point is given by the first `count` characters of `t`, and the
number of characters that an escape with this code point takes behind its backslash. -/
def codePoint? (count : Nat) (t : Text) : Option (Char × Nat) :=
  if t.length < count then none
  else (natural? 16 (t.take count)).bind fun n =>
    if n.isValidChar then some (Char.ofNat n, count + 1) else none

/-- The character that an escape stands for whose text behind the backslash starts `t`, and
how many characters this text has. -/
def escape? : Text → Option (Char × Nat)
  | 'b' :: _ => some ('\x08', 1)
  | 't' :: _ => some ('\t', 1)
  | 'n' :: _ => some ('\n', 1)
  | 'f' :: _ => some ('\x0c', 1)
  | 'r' :: _ => some ('\r', 1)
  | 'e' :: _ => some ('\x1b', 1)
  | '"' :: _ => some ('"', 1)
  | '\\' :: _ => some ('\\', 1)
  | 'x' :: t => codePoint? 2 t
  | 'u' :: t => codePoint? 4 t
  | 'U' :: t => codePoint? 8 t
  | _ => none

/-- Puts a character in front of a string that has been read. -/
def prepend (c : Char) : Text × Text → Text × Text
  | (s, rest) => (c :: s, rest)

/-- Reads a string with escapes behind its opening quote. -/
def basic : Text → Option (Text × Text)
  | [] => none
  | c :: t =>
    if c = '"' then some ([], t)
    else if c = '\\' then
      match escape? t with
      | some (d, n) => (basic (t.drop n)).map (prepend d)
      | none => none
    else if isAllowed c then (basic t).map (prepend c)
    else none
termination_by t => t.length
decreasing_by all_goals simp only [List.length_cons, List.length_drop]; omega

/-- Reads a string without escapes behind its opening quote. -/
def literal : Text → Option (Text × Text)
  | [] => none
  | c :: t =>
    if c = '\'' then some ([], t)
    else if isAllowed c then (literal t).map (prepend c)
    else none

/-- Reads what is left of the end of a string over several lines behind three quotes: up to
two quotes more belong to the string. -/
def closeLines (quote : Char) (t : Text) : Text × Text :=
  let extra := (t.takeWhile (· = quote)).take 2
  (extra, t.drop extra.length)

/-- Whether `c`, followed by `t`, may stand in a string over several lines: what may stand in
any string, and line ends. -/
def isAllowedInLines (c : Char) (t : Text) : Bool :=
  isAllowed c || c == '\n' || c == '\r' && t.head? == some '\n'

/-- Reads a string with escapes over several lines behind its opening quotes.  A backslash at
the end of a line takes away all blanks up to the next visible character, which `folding`
notes. -/
def basicLines (folding : Bool) : Text → Option (Text × Text)
  | [] => none
  | c :: t =>
    if c = '"' ∧ t.take 2 = ['"', '"'] then some (closeLines '"' (t.drop 2))
    else if folding ∧ (isSpace c ∨ (lineEnd? (c :: t)).isSome) then basicLines true t
    else if c = '\\' then
      if (lineEnd? (t.dropWhile isSpace)).isSome then basicLines true t
      else
        match escape? t with
        | some (d, n) => (basicLines false (t.drop n)).map (prepend d)
        | none => none
    else if isAllowedInLines c t then (basicLines false t).map (prepend c)
    else none
termination_by t => t.length
decreasing_by all_goals simp only [List.length_cons, List.length_drop]; omega

/-- Reads a string without escapes over several lines behind its opening quotes. -/
def literalLines : Text → Option (Text × Text)
  | [] => none
  | c :: t =>
    if c = '\'' ∧ t.take 2 = ['\'', '\''] then some (closeLines '\'' (t.drop 2))
    else if isAllowedInLines c t then (literalLines t).map (prepend c)
    else none

/-- Reads a string.  A line end directly behind three opening quotes does not belong to it. -/
def string? : Text → Option (Text × Text)
  | '"' :: '"' :: '"' :: t => basicLines false ((lineEnd? t).getD t)
  | '"' :: t => basic t
  | '\'' :: '\'' :: '\'' :: t => literalLines ((lineEnd? t).getD t)
  | '\'' :: t => literal t
  | _ => none

/-! ### Values -/

/-- The value that the word `w` is. -/
def ofWord? (w : Text) : Option Value :=
  if w = "true".toList then some (.boolean true)
  else if w = "false".toList then some (.boolean false)
  else (integer? w).map .integer

/-- Whether a word goes on with `c`. -/
def isWordPart (c : Char) : Bool :=
  !(isSpace c || c == '\n' || c == '\r' || c == '#')

/-- Reads a value. -/
def value? (t : Text) : Option (Value × Text) :=
  match string? t with
  | some (s, rest) => some (.string s, rest)
  | none => (ofWord? (t.takeWhile isWordPart)).map (·, t.dropWhile isWordPart)

end Toml

end DeskCalculator
