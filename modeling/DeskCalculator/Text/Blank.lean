/-!
# Text and its blanks

A `Text` is the list of its characters.  This file fixes which characters are blank and
takes a text apart at them: `trim` drops the blanks at both ends, `words` lists the maximal
blank-free runs from left to right.
-/

namespace DeskCalculator

/-- A text, as the list of its characters. -/
abbrev Text : Type := List Char

namespace Text

/-- The blank characters, as closed ranges of code points in increasing order: those with
the Unicode property White_Space. -/
def blankRanges : List (Nat × Nat) :=
  [(0x9, 0xd), (0x20, 0x20), (0x85, 0x85), (0xa0, 0xa0), (0x1680, 0x1680), (0x2000, 0x200a),
    (0x2028, 0x2029), (0x202f, 0x202f), (0x205f, 0x205f), (0x3000, 0x3000)]

/-- Whether `c` is a blank. -/
def isBlank (c : Char) : Bool :=
  blankRanges.any fun (lo, hi) => lo ≤ c.toNat && c.toNat ≤ hi

/-- The text without the blanks at its two ends. -/
def trim (t : Text) : Text :=
  ((t.dropWhile isBlank).reverse.dropWhile isBlank).reverse

/-- The maximal runs of characters that are not blank, from left to right. -/
def words (t : Text) : List Text :=
  (t.splitOnP isBlank).filter fun w => !w.isEmpty

end Text

end DeskCalculator
