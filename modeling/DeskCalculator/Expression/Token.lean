import DeskCalculator.Number.Numeral

/-!
# Operators and tokens

An arithmetic text is a sequence of tokens: numbers, operators and parentheses.
`Token.scan` reads them off from left to right.  A number is a maximal run of digits and
points, two stars in a row make one operator, and a character that belongs to no token is
passed over.
-/

namespace DeskCalculator

/-- The binary operators. -/
inductive Operator where
  | add
  | subtract
  | multiply
  | divide
  | raise
deriving DecidableEq, Repr

namespace Operator

/-- All operators. -/
def all : List Operator := [add, subtract, multiply, divide, raise]

/-- The operator as it is written in arithmetic text. -/
def written : Operator → Text
  | add => ['+']
  | subtract => ['-']
  | multiply => ['*']
  | divide => ['/']
  | raise => ['*', '*']

/-- The character on the operator's key. -/
def glyph : Operator → Char
  | add => '+'
  | subtract => '-'
  | multiply => '×'
  | divide => '÷'
  | raise => '^'

/-- Whether `c` stands on the key of an operator. -/
def isGlyph (c : Char) : Bool :=
  all.any fun op => op.glyph == c

theorem mem_all (op : Operator) : op ∈ all := by
  cases op <;> decide

theorem isGlyph_glyph (op : Operator) : isGlyph op.glyph :=
  List.any_eq_true.2 ⟨op, mem_all op, beq_self_eq_true _⟩

end Operator

/-- The parts of an arithmetic text. -/
inductive Token where
  /-- A run of digits and points, which need not be a numeral. -/
  | number (digits : Text)
  | operator (op : Operator)
  /-- The parenthesis that opens a group. -/
  | opening
  /-- The parenthesis that closes a group. -/
  | closing
deriving DecidableEq, Repr

namespace Token

/-- The token as it is written. -/
def text : Token → Text
  | number digits => digits
  | operator op => op.written
  | opening => ['(']
  | closing => [')']

/-- The token that the character `c` makes by itself, if it makes one. -/
def ofChar? : Char → Option Token
  | '+' => some (operator .add)
  | '-' => some (operator .subtract)
  | '*' => some (operator .multiply)
  | '/' => some (operator .divide)
  | '(' => some opening
  | ')' => some closing
  | _ => none

/-- The number that the run of digits and points `run` makes, unless it is empty.  The run is
given backwards, as it was collected. -/
def ofRun (run : Text) : List Token :=
  if run = [] then [] else [number run.reverse]

/-- The tokens of a text that follows the digits and points of `run`, last one first. -/
def scanAfter (run : Text) : Text → List Token
  | [] => ofRun run
  | '*' :: '*' :: t => ofRun run ++ operator .raise :: scanAfter [] t
  | c :: t =>
    if Numeral.isPart c then scanAfter (c :: run) t
    else ofRun run ++ (ofChar? c).toList ++ scanAfter [] t

/-- The tokens of a text, from left to right. -/
def scan (t : Text) : List Token :=
  scanAfter [] t

theorem scan_nil : scan [] = [] := rfl

end Token

end DeskCalculator
