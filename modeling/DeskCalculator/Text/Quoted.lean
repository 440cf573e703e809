import DeskCalculator.Text.Unprinted

/-!
# Quoted text

In a message a text stands in double quotes, in a form that shows each of its characters:
a quote or a backslash has a backslash before it, the null character, the tab and the two
line ends are named by a letter, and any other character that is not printed is given by
its code point.
-/

namespace DeskCalculator

namespace Text

/-- How the character `c` is shown between quotes. -/
def quotedChar (c : Char) : Text :=
  match c with
  | '\x00' => ['\\', '0']
  | '\t' => ['\\', 't']
  | '\n' => ['\\', 'n']
  | '\r' => ['\\', 'r']
  | '"' => ['\\', '"']
  | '\\' => ['\\', '\\']
  | c =>
    if isUnprinted c then "\\u\x7b".toList ++ Nat.toDigits 16 c.toNat ++ ['\x7d'] else [c]

/-- The text between quotes. -/
def quoted (t : Text) : Text :=
  '"' :: t.flatMap quotedChar ++ ['"']

/-- Blanks other than the space are not printed. -/
example : blankRanges.all fun (lo, hi) =>
    (lo == 0x20) || unprintedRanges.any fun (l, h) => l ≤ lo && hi ≤ h := by
  decide +kernel

end Text

end DeskCalculator
